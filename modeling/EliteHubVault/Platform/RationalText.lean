import EliteHubVault.Platform.JsonText

/-!
# A codec for rational numbers

Samples whose numbers are rational need a codec of such JSON values. A value without numbers is
printed as JSON prints it. Not every rational number has a JSON text, so a value with numbers is
printed with a mark in front, as a value that tells its numbers apart from its arrays.
-/

set_option autoImplicit false

namespace EliteHubVault.JsonText

/-! ## Values without numbers -/

mutual

def embed : Json Empty → Json ℚ
  | .null => .null
  | .bool value => .bool value
  | .number value => value.elim
  | .string value => .string value
  | .array items => .array (embedItems items)
  | .object fields => .object (embedFields fields)

def embedItems : List (Json Empty) → List (Json ℚ)
  | [] => []
  | item :: items => embed item :: embedItems items

def embedFields : List (String × Json Empty) → List (String × Json ℚ)
  | [] => []
  | (name, value) :: fields => (name, embed value) :: embedFields fields

end

mutual

/-- The value, if it has no number. -/
def erase : Json ℚ → Option (Json Empty)
  | .null => some .null
  | .bool value => some (.bool value)
  | .number _ => none
  | .string value => some (.string value)
  | .array items => (eraseItems items).map .array
  | .object fields => (eraseFields fields).map .object

def eraseItems : List (Json ℚ) → Option (List (Json Empty))
  | [] => some []
  | item :: items => (erase item).bind fun first => (eraseItems items).map (first :: ·)

def eraseFields : List (String × Json ℚ) → Option (List (String × Json Empty))
  | [] => some []
  | (name, value) :: fields =>
      (erase value).bind fun first => (eraseFields fields).map ((name, first) :: ·)

end

mutual

theorem embed_of_erase : ∀ {value : Json ℚ} {erased : Json Empty},
    erase value = some erased → embed erased = value
  | .null, _, found => by cases found; rfl
  | .bool _, _, found => by cases found; rfl
  | .number _, _, found => by cases found
  | .string _, _, found => by cases found; rfl
  | .array _, _, found => by
      obtain ⟨items, inside, rfl⟩ := Option.map_eq_some_iff.mp found
      rw [embed, embedItems_of_erase inside]
  | .object _, _, found => by
      obtain ⟨fields, inside, rfl⟩ := Option.map_eq_some_iff.mp found
      rw [embed, embedFields_of_erase inside]

theorem embedItems_of_erase : ∀ {items : List (Json ℚ)} {erased : List (Json Empty)},
    eraseItems items = some erased → embedItems erased = items
  | [], _, found => by cases found; rfl
  | _ :: _, _, found => by
      obtain ⟨first, head, rest⟩ := Option.bind_eq_some_iff.mp found
      obtain ⟨others, tail, rfl⟩ := Option.map_eq_some_iff.mp rest
      rw [embedItems, embed_of_erase head, embedItems_of_erase tail]

theorem embedFields_of_erase : ∀ {fields : List (String × Json ℚ)}
    {erased : List (String × Json Empty)}, eraseFields fields = some erased →
      embedFields erased = fields
  | [], _, found => by cases found; rfl
  | (_, _) :: _, _, found => by
      obtain ⟨first, head, rest⟩ := Option.bind_eq_some_iff.mp found
      obtain ⟨others, tail, rfl⟩ := Option.map_eq_some_iff.mp rest
      rw [embedFields, embed_of_erase head, embedFields_of_erase tail]

end

/-! ## Values with numbers -/

/-- So many elements. -/
def count (n : ℕ) : Json Empty := .array (List.replicate n .null)

mutual

/-- Numbers become arrays, and arrays become objects with one property. -/
def tag : Json ℚ → Json Empty
  | .null => .null
  | .bool value => .bool value
  | .number value => .array [count value.num.toNat, count (-value.num).toNat, count value.den]
  | .string value => .string value
  | .array items => .object [("items", .array (tagItems items))]
  | .object fields => .object [("fields", .object (tagFields fields))]

def tagItems : List (Json ℚ) → List (Json Empty)
  | [] => []
  | item :: items => tag item :: tagItems items

def tagFields : List (String × Json ℚ) → List (String × Json Empty)
  | [] => []
  | (name, value) :: fields => (name, tag value) :: tagFields fields

end

mutual

def untag : Json Empty → Json ℚ
  | .null => .null
  | .bool value => .bool value
  | .number value => value.elim
  | .string value => .string value
  | .array [.array positive, .array negative, .array den] =>
      .number (((positive.length : ℤ) - negative.length : ℤ) / den.length)
  | .array _ => .null
  | .object [(_, .array items)] => .array (untagItems items)
  | .object [(_, .object fields)] => .object (untagFields fields)
  | .object _ => .null

def untagItems : List (Json Empty) → List (Json ℚ)
  | [] => []
  | item :: items => untag item :: untagItems items

def untagFields : List (String × Json Empty) → List (String × Json ℚ)
  | [] => []
  | (name, value) :: fields => (name, untag value) :: untagFields fields

end

theorem untag_number (value : ℚ) : untag (tag (.number value)) = .number value := by
  have whole : ((value.num.toNat : ℤ) - (-value.num).toNat) = value.num := by omega
  simp only [tag, count, untag, List.length_replicate, whole, Rat.num_div_den]

mutual

theorem untag_tag : ∀ value : Json ℚ, untag (tag value) = value
  | .null => by rw [tag, untag]
  | .bool _ => by rw [tag, untag]
  | .number value => untag_number value
  | .string _ => by rw [tag, untag]
  | .array items => by rw [tag, untag, untagItems_tagItems items]
  | .object fields => by rw [tag, untag, untagFields_tagFields fields]

theorem untagItems_tagItems : ∀ items : List (Json ℚ), untagItems (tagItems items) = items
  | [] => by rw [tagItems, untagItems]
  | item :: items => by rw [tagItems, untagItems, untag_tag item, untagItems_tagItems items]

theorem untagFields_tagFields : ∀ fields : List (String × Json ℚ),
    untagFields (tagFields fields) = fields
  | [] => by rw [tagFields, untagFields]
  | (name, value) :: fields => by
      rw [tagFields, untagFields, untag_tag value, untagFields_tagFields fields]

end

/-! ## Texts -/

theorem print_head_ne (value : Json Empty) (rest : List Char) : print value ≠ '#' :: rest := by
  have first : ∀ c chars, print value = c :: chars → c ≠ '#' := by
    intro c chars same
    cases value with
    | null => cases same; decide
    | bool value => cases value <;> cases same <;> decide
    | number value => exact value.elim
    | string text => cases same; decide
    | array items => cases items <;> cases same <;> decide
    | object fields => cases fields <;> cases same <;> decide
  exact fun same => first '#' rest same rfl

end EliteHubVault.JsonText

namespace EliteHubVault

open JsonText

/-- A codec of JSON values with rational numbers. -/
def rationalJsonCodec : JsonCodec ℚ where
  parse text := match text.toList with
    | '#' :: rest => (plainJsonCodec.parse (String.ofList rest)).map untag
    | _ => (plainJsonCodec.parse text).map embed
  stringify value := match erase value with
    | some erased => plainJsonCodec.stringify erased
    | none => String.ofList ('#' :: print (tag value))
  parse_stringify value := by
    cases erased : erase value with
    | some plain =>
        dsimp only
        split
        · rename_i rest marked
          rw [plainJsonCodec, String.toList_ofList] at marked
          exact absurd marked (print_head_ne plain rest)
        · rw [plainJsonCodec.parse_stringify, Option.map_some, embed_of_erase erased]
    | none =>
        have read : plainJsonCodec.parse (String.ofList (print (tag value))) = some (tag value) :=
          plainJsonCodec.parse_stringify (tag value)
        dsimp only
        rw [String.toList_ofList]
        change (plainJsonCodec.parse (String.ofList (print (tag value)))).map untag = some value
        rw [read, Option.map_some, untag_tag]

theorem lineBreak_not_mem_rationalJsonCodec (value : Json ℚ) :
    '\n' ∉ (rationalJsonCodec.stringify value).toList := by
  unfold rationalJsonCodec
  dsimp only
  split
  · exact lineBreak_not_mem_plainJsonCodec _
  · rw [String.toList_ofList, List.mem_cons, not_or]
    exact ⟨by decide, lineBreak_not_mem_print _⟩

end EliteHubVault
