import EliteHubVault.Library.OrderedMap

/-!
# UUIDs and their text

A `uuid` column holds 128 bits. Postgres prints it as lower-case hexadecimal with
hyphens after the 4th, 6th, 8th and 10th byte (`toText`), which is what
`jsonb_build_object` puts into a payload. `uuidIn` is its input function: it takes
optional braces, digits of either case and an optional hyphen after every second
byte, and raises an error, here `none`, on any other text.
-/

set_option autoImplicit false

namespace EliteHubVault

/-- A value of the `uuid` type. -/
structure Uuid where
  bits : Fin (2 ^ 128)
deriving DecidableEq

namespace Uuid

/-- The uuid with this number. -/
def ofNat (n : ℕ) : Uuid := ⟨Fin.ofNat (2 ^ 128) n⟩

def hexDigit (digit : ℕ) : Char :=
  if digit < 10 then Char.ofNat (48 + digit) else Char.ofNat (87 + digit)

/-- The value of a hexadecimal digit of either case. -/
def hexValue (c : Char) : Option ℕ :=
  if '0' ≤ c ∧ c ≤ '9' then some (c.toNat - 48)
  else if 'a' ≤ c ∧ c ≤ 'f' then some (c.toNat - 87)
  else if 'A' ≤ c ∧ c ≤ 'F' then some (c.toNat - 55)
  else none

/-- The last `count` bytes of `n`, with the hyphens of the standard form. -/
def renderBytes : ℕ → ℕ → List Char
  | 0, _ => []
  | count + 1, n =>
      hexDigit (n / 256 ^ count % 256 / 16) :: hexDigit (n / 256 ^ count % 256 % 16) ::
        (if count ∈ [12, 10, 8, 6] then '-' :: renderBytes count n else renderBytes count n)

/-- The text of a uuid in the standard form. -/
def toText (id : Uuid) : String := String.ofList (renderBytes 16 id.bits.val)

/-- Skip one hyphen. -/
def skipHyphen : List Char → List Char
  | '-' :: rest => rest
  | rest => rest

/-- Read `count` more bytes; a hyphen may follow every second one but the last. -/
def readBytes : ℕ → ℕ → List Char → Option (ℕ × List Char)
  | 0, value, rest => some (value, rest)
  | count + 1, value, high :: low :: rest =>
      (hexValue high).bind fun h => (hexValue low).bind fun l =>
        readBytes count (value * 256 + (h * 16 + l))
          (if count % 2 = 0 ∧ 0 < count then skipHyphen rest else rest)
  | _ + 1, _, _ => none

/-- The input function of the `uuid` type; `none` is its syntax error. -/
def uuidIn (text : String) : Option Uuid :=
  match text.toList with
  | '{' :: rest =>
      match readBytes 16 0 rest with
      | some (value, ['}']) => some (ofNat value)
      | _ => none
  | chars =>
      match readBytes 16 0 chars with
      | some (value, []) => some (ofNat value)
      | _ => none

/-! ## The standard form is read back -/

theorem hexValue_hexDigit : ∀ digit < 16, hexValue (hexDigit digit) = some digit := by
  decide

theorem hexDigit_ne_hyphen : ∀ digit < 16, hexDigit digit ≠ '-' := by
  decide

theorem hexDigit_ne_brace : ∀ digit < 16, hexDigit digit ≠ '{' := by
  decide

theorem byte_digits (byte : ℕ) (small : byte < 256) :
    byte / 16 < 16 ∧ byte % 16 < 16 ∧ byte / 16 * 16 + byte % 16 = byte := by
  omega

theorem mod_pow_succ (n count : ℕ) :
    n % 256 ^ (count + 1) = n / 256 ^ count % 256 * 256 ^ count + n % 256 ^ count := by
  rw [pow_succ, Nat.mod_mul, Nat.mul_comm (256 ^ count), Nat.add_comm]

/-- A hyphen that the standard form puts after a byte is skipped, and where it puts none
the next character is a digit. -/
theorem skipHyphen_renderBytes (count n : ℕ) (rest : List Char) :
    (if count % 2 = 0 ∧ 0 < count then
        skipHyphen ((if count ∈ [12, 10, 8, 6] then '-' :: renderBytes count n
          else renderBytes count n) ++ rest)
      else (if count ∈ [12, 10, 8, 6] then '-' :: renderBytes count n
          else renderBytes count n) ++ rest) = renderBytes count n ++ rest := by
  by_cases hyphen : count ∈ [12, 10, 8, 6]
  · have even : count % 2 = 0 ∧ 0 < count := by
      simp only [List.mem_cons, List.not_mem_nil, or_false] at hyphen
      omega
    simp [hyphen, even, skipHyphen]
  · simp only [if_neg hyphen]
    split
    · rename_i even
      obtain ⟨more, rfl⟩ : ∃ more, count = more + 1 := ⟨count - 1, by omega⟩
      have digit := hexDigit_ne_hyphen _
        (byte_digits (n / 256 ^ more % 256) (Nat.mod_lt _ (by decide))).1
      simp only [renderBytes, List.cons_append]
      unfold skipHyphen
      split
      · rename_i same
        exact absurd (List.cons.inj same).1 digit
      · rfl
    · rfl

theorem readBytes_renderBytes (count value n : ℕ) (rest : List Char) :
    readBytes count value (renderBytes count n ++ rest) =
      some (value * 256 ^ count + n % 256 ^ count, rest) := by
  induction count generalizing value with
  | zero => simp [readBytes, renderBytes, Nat.mod_one]
  | succ count ih =>
      obtain ⟨high, low, byte⟩ :=
        byte_digits (n / 256 ^ count % 256) (Nat.mod_lt _ (by decide))
      have skipped := skipHyphen_renderBytes count n rest
      simp only [renderBytes, List.cons_append, readBytes, hexValue_hexDigit _ high,
        hexValue_hexDigit _ low, Option.bind_some]
      rw [skipped, ih, byte, mod_pow_succ]
      congr 2
      ring

/-- **The standard form of a uuid is read back as that uuid.** -/
theorem uuidIn_toText (id : Uuid) : uuidIn id.toText = some id := by
  have read := readBytes_renderBytes 16 0 id.bits.val []
  have value : 0 * 256 ^ 16 + id.bits.val % 256 ^ 16 = id.bits.val := by
    rw [Nat.zero_mul, Nat.zero_add, Nat.mod_eq_of_lt (by simp)]
  rw [List.append_nil, value] at read
  have noBrace : ∀ rest, renderBytes 16 id.bits.val ≠ '{' :: rest := by
    intro rest same
    exact hexDigit_ne_brace _
      (byte_digits (id.bits.val / 256 ^ 15 % 256) (Nat.mod_lt _ (by decide))).1
      (List.cons.inj same).1
  unfold uuidIn toText
  rw [String.toList_ofList]
  split
  · rename_i same
    exact absurd same (noBrace _)
  · rw [read]
    simp [ofNat]

theorem toText_injective : Function.Injective toText := by
  intro first second same
  have read := uuidIn_toText first
  rw [same, uuidIn_toText] at read
  exact (Option.some.inj read).symm

example : (ofNat 0x00112233445566778899aabbccddeeff).toText
    = "00112233-4455-6677-8899-aabbccddeeff" := by decide +kernel

end Uuid

end EliteHubVault
