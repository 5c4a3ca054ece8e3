import EliteHubVault.Platform.Json

/-!
# JSON texts without numbers

An executable codec for JSON values without numbers. `print` is the text of
`JSON.stringify`, with its escapes; `parseValue` reads what `JSON.parse` reads when there is
no white space between tokens. The first argument of a parser bounds its recursion; the
length of the text is enough.
-/

set_option autoImplicit false

namespace EliteHubVault.JsonText

/-! ## Characters of a string -/

def hexDigit (n : ℕ) : Char := Char.ofNat (if n < 10 then 48 + n else 87 + n)

def hexValue (c : Char) : ℕ := if c.toNat < 58 then c.toNat - 48 else c.toNat - 87

/-- How a character stands inside quotes. -/
def escape (c : Char) : List Char :=
  if c = '"' then ['\\', '"']
  else if c = '\\' then ['\\', '\\']
  else if c.toNat = 8 then ['\\', 'b']
  else if c.toNat = 9 then ['\\', 't']
  else if c.toNat = 10 then ['\\', 'n']
  else if c.toNat = 12 then ['\\', 'f']
  else if c.toNat = 13 then ['\\', 'r']
  else if c.toNat < 32 then
    ['\\', 'u', '0', '0', hexDigit (c.toNat / 16), hexDigit (c.toNat % 16)]
  else [c]

/-- The characters that a letter after a backslash stands for. -/
def unescaped (letter : Char) : Option Char :=
  if letter = 'b' then some (Char.ofNat 8)
  else if letter = 't' then some (Char.ofNat 9)
  else if letter = 'n' then some (Char.ofNat 10)
  else if letter = 'f' then some (Char.ofNat 12)
  else if letter = 'r' then some (Char.ofNat 13)
  else if letter = '"' ∨ letter = '\\' ∨ letter = '/' then some letter
  else none

/-- The characters up to the closing quote, and what is after it. -/
def parseChars : List Char → Option (List Char × List Char)
  | [] => none
  | c :: rest =>
      if c = '"' then some ([], rest)
      else if c = '\\' then
        match rest with
        | [] => none
        | letter :: rest =>
            if letter = 'u' then
              match rest with
              | a :: b :: c :: d :: rest =>
                  (parseChars rest).map fun parsed =>
                    (Char.ofNat (4096 * hexValue a + 256 * hexValue b + 16 * hexValue c +
                      hexValue d) :: parsed.1, parsed.2)
              | _ => none
            else
              (unescaped letter).bind fun c =>
                (parseChars rest).map fun parsed => (c :: parsed.1, parsed.2)
      else if c.toNat < 32 then none
      else (parseChars rest).map fun parsed => (c :: parsed.1, parsed.2)
termination_by structural chars => chars

theorem parseChars_quote (rest : List Char) : parseChars ('"' :: rest) = some ([], rest) := by
  rw [parseChars.eq_def ('"' :: rest)]
  exact if_pos rfl

/-- A letter after a backslash. -/
theorem parseChars_letter {letter c : Char} (known : unescaped letter = some c)
    (rest : List Char) : parseChars ('\\' :: letter :: rest) =
      (parseChars rest).map fun parsed => (c :: parsed.1, parsed.2) := by
  have notHex : letter ≠ 'u' := by
    rintro rfl
    have nothing : unescaped 'u' = none := by decide
    cases nothing.symm.trans known
  rw [parseChars.eq_def ('\\' :: letter :: rest)]
  simp [notHex, known]

theorem parseChars_hex (a b c d : Char) (rest : List Char) :
    parseChars ('\\' :: 'u' :: a :: b :: c :: d :: rest) =
      (parseChars rest).map fun parsed =>
        (Char.ofNat (4096 * hexValue a + 256 * hexValue b + 16 * hexValue c + hexValue d) ::
          parsed.1, parsed.2) := by
  rw [parseChars.eq_def ('\\' :: 'u' :: a :: b :: c :: d :: rest)]
  simp

theorem parseChars_plain {c : Char} (quote : c ≠ '"') (backslash : c ≠ '\\')
    (control : ¬ c.toNat < 32) (rest : List Char) :
    parseChars (c :: rest) = (parseChars rest).map fun parsed => (c :: parsed.1, parsed.2) := by
  rw [parseChars.eq_def (c :: rest)]
  simp [quote, backslash, control]

/-- The hexadecimal digits of a control character. -/
theorem hexValue_control {n : ℕ} (control : n < 32) :
    4096 * hexValue '0' + 256 * hexValue '0' + 16 * hexValue (hexDigit (n / 16)) +
      hexValue (hexDigit (n % 16)) = n := by
  interval_cases n <;> decide

/-- An escaped character is read back. -/
theorem parseChars_escape (c : Char) (rest : List Char) :
    parseChars (escape c ++ rest) =
      (parseChars rest).map fun parsed => (c :: parsed.1, parsed.2) := by
  have named : ∀ {n : ℕ}, c.toNat = n → Char.ofNat n = c := by
    rintro n rfl
    exact Char.ofNat_toNat c
  unfold escape
  split_ifs with quote backslash b t n f r control
  · subst quote
    exact parseChars_letter (by decide) rest
  · subst backslash
    exact parseChars_letter (by decide) rest
  · rw [← named b]
    exact parseChars_letter (by decide) rest
  · rw [← named t]
    exact parseChars_letter (by decide) rest
  · rw [← named n]
    exact parseChars_letter (by decide) rest
  · rw [← named f]
    exact parseChars_letter (by decide) rest
  · rw [← named r]
    exact parseChars_letter (by decide) rest
  · show parseChars ('\\' :: 'u' :: '0' :: '0' :: hexDigit (c.toNat / 16) ::
      hexDigit (c.toNat % 16) :: rest) = _
    rw [parseChars_hex, hexValue_control control, Char.ofNat_toNat]
  · exact parseChars_plain quote backslash control rest

theorem parseChars_escapes (chars rest : List Char) :
    parseChars (chars.flatMap escape ++ '"' :: rest) = some (chars, rest) := by
  induction chars with
  | nil => exact parseChars_quote rest
  | cons c chars ih =>
      rw [List.flatMap_cons, List.append_assoc, parseChars_escape, ih]
      rfl

/-! ## Printing -/

def printString (text : String) : List Char := '"' :: (text.toList.flatMap escape ++ ['"'])

mutual

def print : Json Empty → List Char
  | .null => ['n', 'u', 'l', 'l']
  | .bool true => ['t', 'r', 'u', 'e']
  | .bool false => ['f', 'a', 'l', 's', 'e']
  | .number value => value.elim
  | .string value => printString value
  | .array [] => ['[', ']']
  | .array (item :: items) => '[' :: (print item ++ printItems items)
  | .object [] => ['{', '}']
  | .object ((name, value) :: fields) =>
      '{' :: (printString name ++ ':' :: (print value ++ printFields fields))

/-- The further items of an array. -/
def printItems : List (Json Empty) → List Char
  | [] => [']']
  | item :: items => ',' :: (print item ++ printItems items)

/-- The further properties of an object. -/
def printFields : List (String × Json Empty) → List Char
  | [] => ['}']
  | (name, value) :: fields =>
      ',' :: (printString name ++ ':' :: (print value ++ printFields fields))

end

/-! ## Parsing -/

mutual

def parseValue : ℕ → List Char → Option (Json Empty × List Char)
  | 0, _ => none
  | _ + 1, 'n' :: 'u' :: 'l' :: 'l' :: rest => some (.null, rest)
  | _ + 1, 't' :: 'r' :: 'u' :: 'e' :: rest => some (.bool true, rest)
  | _ + 1, 'f' :: 'a' :: 'l' :: 's' :: 'e' :: rest => some (.bool false, rest)
  | _ + 1, '"' :: rest =>
      (parseChars rest).map fun parsed => (.string (String.ofList parsed.1), parsed.2)
  | _ + 1, '[' :: ']' :: rest => some (.array [], rest)
  | fuel + 1, '[' :: rest => do
      let (item, rest) ← parseValue fuel rest
      let (items, rest) ← parseItems fuel rest
      pure (.array (item :: items), rest)
  | _ + 1, '{' :: '}' :: rest => some (.object [], rest)
  | fuel + 1, '{' :: rest => do
      let (field, rest) ← parseField fuel rest
      let (fields, rest) ← parseFields fuel rest
      pure (.object (field :: fields), rest)
  | _ + 1, _ => none

/-- The items after the first one. -/
def parseItems : ℕ → List Char → Option (List (Json Empty) × List Char)
  | 0, _ => none
  | _ + 1, ']' :: rest => some ([], rest)
  | fuel + 1, ',' :: rest => do
      let (item, rest) ← parseValue fuel rest
      let (items, rest) ← parseItems fuel rest
      pure (item :: items, rest)
  | _ + 1, _ => none

/-- A name, a colon and a value. -/
def parseField : ℕ → List Char → Option ((String × Json Empty) × List Char)
  | 0, _ => none
  | fuel + 1, '"' :: rest => do
      let (name, rest) ← parseChars rest
      match rest with
      | ':' :: rest => do
          let (value, rest) ← parseValue fuel rest
          pure ((String.ofList name, value), rest)
      | _ => none
  | _ + 1, _ => none

/-- The properties after the first one. -/
def parseFields : ℕ → List Char → Option (List (String × Json Empty) × List Char)
  | 0, _ => none
  | _ + 1, '}' :: rest => some ([], rest)
  | fuel + 1, ',' :: rest => do
      let (field, rest) ← parseField fuel rest
      let (fields, rest) ← parseFields fuel rest
      pure (field :: fields, rest)
  | _ + 1, _ => none

end

/-! ## What is printed is read back -/

theorem parseField_printed {fuel : ℕ} {name : String} {value : Json Empty}
    {printed rest : List Char} (read : parseValue fuel printed = some (value, rest)) :
    parseField (fuel + 1) (printString name ++ ':' :: printed) = some ((name, value), rest) := by
  rw [printString, List.cons_append, List.append_assoc, List.singleton_append]
  simp [parseField, parseChars_escapes, read]

/-- No value is printed as a closing bracket. -/
theorem print_append_ne (value : Json Empty) (rest tail : List Char) :
    print value ++ rest ≠ ']' :: tail := by
  intro same
  cases value with
  | null => cases same
  | bool value => cases value <;> cases same
  | number value => exact value.elim
  | string text => cases same
  | array items => cases items <;> cases same
  | object fields => cases fields <;> cases same

mutual

/-- A value that is printed is read back, whatever follows it. -/
theorem parseValue_print : ∀ (value : Json Empty) (fuel : ℕ) (rest : List Char),
    (print value).length ≤ fuel → parseValue fuel (print value ++ rest) = some (value, rest)
  | .null, 0, _, enough => by simp [print] at enough
  | .null, _ + 1, _, _ => rfl
  | .bool true, 0, _, enough => by simp [print] at enough
  | .bool true, _ + 1, _, _ => rfl
  | .bool false, 0, _, enough => by simp [print] at enough
  | .bool false, _ + 1, _, _ => rfl
  | .number value, _, _, _ => value.elim
  | .string text, 0, _, enough => by simp [print, printString] at enough
  | .string text, _ + 1, rest, _ => by
      rw [print, printString, List.cons_append, List.append_assoc, List.singleton_append]
      simp [parseValue, parseChars_escapes]
  | .array [], 0, _, enough => by simp [print] at enough
  | .array [], _ + 1, _, _ => rfl
  | .array (item :: items), 0, _, enough => by simp [print] at enough
  | .array (item :: items), fuel + 1, rest, enough => by
      simp only [print, List.length_cons, List.length_append] at enough
      have first := parseValue_print item fuel (printItems items ++ rest) (by omega)
      have others := parseItems_print items fuel rest (by omega)
      rw [print, List.cons_append, List.append_assoc, parseValue]
      · simp [first, others]
      · exact print_append_ne item _
  | .object [], 0, _, enough => by simp [print] at enough
  | .object [], _ + 1, _, _ => rfl
  | .object ((name, value) :: fields), 0, _, enough => by simp [print] at enough
  | .object ((name, value) :: fields), fuel + 1, rest, enough => by
      simp only [print, List.length_cons, List.length_append] at enough
      have others := parseFields_print fields fuel rest (by omega)
      obtain ⟨fuel, rfl⟩ : ∃ less, fuel = less + 1 := ⟨fuel - 1, by omega⟩
      have first := parseValue_print value fuel (printFields fields ++ rest) (by omega)
      have field := @parseField_printed fuel name value _ _ first
      rw [print, List.cons_append, List.append_assoc, List.cons_append, List.append_assoc,
        parseValue]
      · simp [field, others]
      · rw [printString]
        intro tail same
        cases same

theorem parseItems_print : ∀ (items : List (Json Empty)) (fuel : ℕ) (rest : List Char),
    (printItems items).length ≤ fuel →
      parseItems fuel (printItems items ++ rest) = some (items, rest)
  | [], 0, _, enough => by simp [printItems] at enough
  | [], _ + 1, _, _ => rfl
  | item :: items, 0, _, enough => by simp [printItems] at enough
  | item :: items, fuel + 1, rest, enough => by
      simp only [printItems, List.length_cons, List.length_append] at enough
      have first := parseValue_print item fuel (printItems items ++ rest) (by omega)
      have others := parseItems_print items fuel rest (by omega)
      simp [printItems, parseItems, first, others]

theorem parseFields_print : ∀ (fields : List (String × Json Empty)) (fuel : ℕ)
    (rest : List Char), (printFields fields).length ≤ fuel →
      parseFields fuel (printFields fields ++ rest) = some (fields, rest)
  | [], 0, _, enough => by simp [printFields] at enough
  | [], _ + 1, _, _ => rfl
  | (name, value) :: fields, 0, _, enough => by simp [printFields] at enough
  | (name, value) :: fields, fuel + 1, rest, enough => by
      simp only [printFields, List.length_cons, List.length_append] at enough
      have others := parseFields_print fields fuel rest (by omega)
      obtain ⟨fuel, rfl⟩ : ∃ less, fuel = less + 1 := ⟨fuel - 1, by omega⟩
      have first := parseValue_print value fuel (printFields fields ++ rest) (by omega)
      have field := @parseField_printed fuel name value _ _ first
      simp only [printFields, List.cons_append, List.append_assoc, parseFields]
      simp [field, others]

end

/-! ## Line breaks -/

theorem lineBreak_not_mem_escape (c : Char) : '\n' ∉ escape c := by
  unfold escape
  split_ifs with quote backslash b t n f r control
  · decide
  · decide
  · decide
  · decide
  · decide
  · decide
  · decide
  · have digits : ∀ n < 16, hexDigit n ≠ '\n' := by decide
    have high := digits (c.toNat / 16) (by omega)
    have low := digits (c.toNat % 16) (by omega)
    simp [high.symm, low.symm]
  · rintro member
    obtain rfl := List.mem_singleton.mp member
    exact n rfl

theorem lineBreak_not_mem_printString (text : String) : '\n' ∉ printString text := by
  have inside : '\n' ∉ text.toList.flatMap escape := fun member => by
    obtain ⟨c, -, escaped⟩ := List.mem_flatMap.mp member
    exact lineBreak_not_mem_escape c escaped
  simp [printString, inside]

mutual

/-- What is printed has no line break. -/
theorem lineBreak_not_mem_print : ∀ value : Json Empty, '\n' ∉ print value
  | .null => by decide
  | .bool true => by decide
  | .bool false => by decide
  | .number value => value.elim
  | .string text => lineBreak_not_mem_printString text
  | .array [] => by decide
  | .array (item :: items) => by
      simp [print, lineBreak_not_mem_print item, lineBreak_not_mem_printItems items]
  | .object [] => by decide
  | .object ((name, value) :: fields) => by
      simp [print, lineBreak_not_mem_printString name, lineBreak_not_mem_print value,
        lineBreak_not_mem_printFields fields]

theorem lineBreak_not_mem_printItems : ∀ items : List (Json Empty), '\n' ∉ printItems items
  | [] => by decide
  | item :: items => by
      simp [printItems, lineBreak_not_mem_print item, lineBreak_not_mem_printItems items]

theorem lineBreak_not_mem_printFields :
    ∀ fields : List (String × Json Empty), '\n' ∉ printFields fields
  | [] => by decide
  | (name, value) :: fields => by
      simp [printFields, lineBreak_not_mem_printString name, lineBreak_not_mem_print value,
        lineBreak_not_mem_printFields fields]

end
end EliteHubVault.JsonText

namespace EliteHubVault

/-- The codec of JSON values without numbers. -/
def plainJsonCodec : JsonCodec Empty where
  parse text := (JsonText.parseValue text.toList.length text.toList).bind fun parsed =>
    if parsed.2 = [] then some parsed.1 else none
  stringify value := String.ofList (JsonText.print value)
  parse_stringify value := by
    have read := JsonText.parseValue_print value _ [] le_rfl
    rw [List.append_nil] at read
    simp [read]

theorem lineBreak_not_mem_plainJsonCodec (value : Json Empty) :
    '\n' ∉ (plainJsonCodec.stringify value).toList := by
  rw [plainJsonCodec, String.toList_ofList]
  exact JsonText.lineBreak_not_mem_print value

end EliteHubVault
