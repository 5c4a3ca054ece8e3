import EliteHubVault.Auth.ApiKeyResolver
import EliteHubVault.Platform.JsonText

/-!
# Texts of cached records

An executable codec for the records of the cache: the text of `JSON.stringify`, and a reader of
such texts. A flat object is printed as a list of named scalars. A reader takes what it reads
from the front of a text and leaves the rest.
-/

set_option autoImplicit false

namespace EliteHubVault.RecordText

open JsonText

/-! ## Scalars -/

inductive Scalar where
  | string (value : String)
  | integer (value : ℤ)
  | boolean (value : Bool)
deriving DecidableEq

inductive ScalarKind where
  | string | integer | boolean

def Scalar.kind : Scalar → ScalarKind
  | .string _ => .string
  | .integer _ => .integer
  | .boolean _ => .boolean

def printScalar : Scalar → List Char
  | .string value => printString value
  | .integer (.ofNat n) => Nat.toDigits 10 n
  | .integer (.negSucc n) => '-' :: Nat.toDigits 10 (n + 1)
  | .boolean true => ['t', 'r', 'u', 'e']
  | .boolean false => ['f', 'a', 'l', 's', 'e']

def readString : List Char → Option (String × List Char)
  | '"' :: rest => (parseChars rest).map fun parsed => (String.ofList parsed.1, parsed.2)
  | _ => none

def readNatural (chars : List Char) : Option (ℕ × List Char) :=
  let digits := chars.takeWhile Char.isDigit
  if digits = [] then none
  else some (Nat.ofDigitChars 10 digits 0, chars.dropWhile Char.isDigit)

def readInteger (chars : List Char) : Option (ℤ × List Char) :=
  if chars.head? = some '-' then
    (readNatural chars.tail).map fun parsed => (-(parsed.1 : ℤ), parsed.2)
  else (readNatural chars).map fun parsed => ((parsed.1 : ℤ), parsed.2)

def readBoolean : List Char → Option (Bool × List Char)
  | 't' :: 'r' :: 'u' :: 'e' :: rest => some (true, rest)
  | 'f' :: 'a' :: 'l' :: 's' :: 'e' :: rest => some (false, rest)
  | _ => none

def readScalar (kind : ScalarKind) (chars : List Char) : Option (Scalar × List Char) :=
  match kind with
  | .string => (readString chars).map fun read => (.string read.1, read.2)
  | .integer => (readInteger chars).map fun read => (.integer read.1, read.2)
  | .boolean => (readBoolean chars).map fun read => (.boolean read.1, read.2)

/-! ## Objects -/

/-- The fields of an object, the first one after `opening`, and the closing brace. -/
def printFields (opening : Char) : List (String × Scalar) → List Char
  | [] => ['\x7d']
  | (name, value) :: rest =>
      opening :: (printString name ++ ':' :: (printScalar value ++ printFields ',' rest))

def readChar (expected : Char) : List Char → Option (List Char)
  | [] => none
  | c :: rest => if c = expected then some rest else none

/-- Fields of given names and kinds. -/
def readFields (opening : Char) : List (String × ScalarKind) → List Char → Option (List Scalar)
  | [], chars => if chars = ['\x7d'] then some [] else none
  | (name, kind) :: rest, chars => do
      let chars ← readChar opening chars
      let (read, chars) ← readString chars
      let chars ← if read = name then readChar ':' chars else none
      let (value, chars) ← readScalar kind chars
      let values ← readFields ',' rest chars
      some (value :: values)

def recordFields (record : ApiKeyCacheRecord) : List (String × Scalar) :=
  [("apiKeyId", .string record.apiKeyId), ("publicId", .string record.publicId),
    ("keyName", .string record.keyName), ("secretHash", .string record.secretHash),
    ("rpmLimit", .integer record.rpmLimit),
    ("maxSseConnections", .integer record.maxSseConnections),
    ("isActive", .boolean record.isActive)]

def recordKinds : List (String × ScalarKind) :=
  [("apiKeyId", .string), ("publicId", .string), ("keyName", .string), ("secretHash", .string),
    ("rpmLimit", .integer), ("maxSseConnections", .integer), ("isActive", .boolean)]

def recordOfScalars : List Scalar → Option ApiKeyCacheRecord
  | [.string apiKeyId, .string publicId, .string keyName, .string secretHash, .integer rpmLimit,
      .integer maxSseConnections, .boolean isActive] =>
      some { apiKeyId, publicId, keyName, secretHash, rpmLimit, maxSseConnections, isActive }
  | _ => none

/-! ## What is printed is read back -/

theorem readString_append (text : String) (rest : List Char) :
    readString (printString text ++ rest) = some (text, rest) := by
  rw [printString, List.cons_append, List.append_assoc, List.singleton_append]
  simp [readString, parseChars_escapes]

theorem isDigit_of_mem {n : ℕ} {c : Char} (member : c ∈ Nat.toDigits 10 n) : c.isDigit = true :=
  Nat.isDigit_of_mem_toDigits (by decide) (by decide) member

theorem readNatural_append (n : ℕ) {c : Char} (stops : c.isDigit = false) (rest : List Char) :
    readNatural (Nat.toDigits 10 n ++ c :: rest) = some (n, c :: rest) := by
  have digits : ∀ digit ∈ Nat.toDigits 10 n, digit.isDigit = true :=
    fun _ member => isDigit_of_mem member
  have taken : (Nat.toDigits 10 n ++ c :: rest).takeWhile Char.isDigit = Nat.toDigits 10 n := by
    rw [List.takeWhile_append_of_pos digits, List.takeWhile_cons_of_neg (by simp [stops]),
      List.append_nil]
  have left : (Nat.toDigits 10 n ++ c :: rest).dropWhile Char.isDigit = c :: rest := by
    rw [List.dropWhile_append_of_pos digits, List.dropWhile_cons_of_neg (by simp [stops])]
  simp only [readNatural, taken, left, if_neg Nat.toDigits_ne_nil, Nat.ofDigitChars_ten_toDigits]

theorem readInteger_append (n : ℤ) {c : Char} (stops : c.isDigit = false) (rest : List Char) :
    readInteger (printScalar (.integer n) ++ c :: rest) = some (n, c :: rest) := by
  cases n with
  | ofNat n =>
      have unsigned : (Nat.toDigits 10 n ++ c :: rest).head? ≠ some '-' := by
        intro sign
        obtain ⟨digit, others, same⟩ := List.exists_cons_of_ne_nil (@Nat.toDigits_ne_nil n 10)
        rw [same] at sign
        obtain rfl : digit = '-' := Option.some.inj sign
        have digits := isDigit_of_mem (same ▸ List.mem_cons_self)
        exact absurd digits (by decide)
      rw [readInteger, printScalar, if_neg unsigned, readNatural_append n stops rest]
      rfl
  | negSucc n =>
      rw [readInteger, printScalar, List.cons_append, List.head?_cons, if_pos rfl, List.tail_cons,
        readNatural_append (n + 1) stops rest]
      simp [Int.negSucc_eq]

theorem readScalar_append (value : Scalar) {c : Char} (stops : c.isDigit = false)
    (rest : List Char) :
    readScalar value.kind (printScalar value ++ c :: rest) = some (value, c :: rest) := by
  cases value with
  | string value =>
      simp only [readScalar, Scalar.kind, printScalar, readString_append, Option.map_some]
  | integer value =>
      simp only [readScalar, Scalar.kind, readInteger_append value stops, Option.map_some]
  | boolean value => cases value <;> rfl

/-- A field ends where the next one or the closing brace begins. -/
theorem exists_printFields (fields : List (String × Scalar)) :
    ∃ c rest, c.isDigit = false ∧ printFields ',' fields = c :: rest := by
  cases fields with
  | nil => exact ⟨'\x7d', [], by decide, rfl⟩
  | cons field rest => exact ⟨',', _, by decide, rfl⟩

theorem readFields_printFields (fields : List (String × Scalar)) (opening : Char) :
    readFields opening (fields.map fun field => (field.1, field.2.kind))
      (printFields opening fields) = some (fields.map Prod.snd) := by
  induction fields generalizing opening with
  | nil => simp [readFields, printFields]
  | cons field rest ih =>
      obtain ⟨name, value⟩ := field
      obtain ⟨c, tail, stops, next⟩ := exists_printFields rest
      have later := ih ','
      rw [next] at later
      simp [readFields, printFields, readChar, readString_append, next,
        readScalar_append value stops, later]

/-- The codec of the cache. -/
def codec : RecordCodec where
  parse text := (readFields '\x7b' recordKinds text.toList).bind recordOfScalars
  stringify record := String.ofList (printFields '\x7b' (recordFields record))
  parse_stringify record := by
    have read := readFields_printFields (recordFields record) '\x7b'
    have kinds : (recordFields record).map (fun field => (field.1, field.2.kind)) = recordKinds := rfl
    rw [kinds] at read
    rw [String.toList_ofList, read]
    rfl

end EliteHubVault.RecordText
