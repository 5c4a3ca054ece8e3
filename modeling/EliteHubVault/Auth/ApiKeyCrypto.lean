import Mathlib

/-!
# API keys

An API key is the text `eh_live_<publicId>_<secret>`. The public id has no underscore, so the
first underscore after the tag ends it (`parseOpaqueApiKey_iff`). Hashes of secrets are compared
as buffers of their UTF-8 bytes.
-/

set_option autoImplicit false

namespace EliteHubVault

def apiKeyPrefix : String := "eh_live_"

structure ParsedOpaqueApiKey where
  publicId : String
  secret : String
deriving DecidableEq

def parseOpaqueApiKey (value : String) : Option ParsedOpaqueApiKey :=
  if ¬ apiKeyPrefix.toList <+: value.toList then none
  else
    let rawPayload := value.toList.drop apiKeyPrefix.toList.length
    match rawPayload.findIdx? fun c => c = '_' with
    | none => none
    | some separatorIndex =>
        if separatorIndex = 0 ∨ separatorIndex = rawPayload.length - 1 then none
        else
          let publicId := String.ofList (rawPayload.take separatorIndex)
          let secret := String.ofList (rawPayload.drop (separatorIndex + 1))
          if publicId = "" ∨ secret = "" then none else some { publicId, secret }

def timingSafeEqualHex (input expected : String) : Bool :=
  let inputBuffer := input.toUTF8
  let expectedBuffer := expected.toUTF8
  if inputBuffer.size ≠ expectedBuffer.size then false
  else decide (inputBuffer = expectedBuffer)

/-- The text of an API key. -/
def apiKeyText (key : ParsedOpaqueApiKey) : String :=
  apiKeyPrefix ++ key.publicId ++ "_" ++ key.secret

/-- The parts of a key that can be told apart in its text. -/
structure ParsedOpaqueApiKey.WellFormed (key : ParsedOpaqueApiKey) : Prop where
  publicId_ne : key.publicId ≠ ""
  separator : '_' ∉ key.publicId.toList
  secret_ne : key.secret ≠ ""

theorem timingSafeEqualHex_iff {input expected : String} :
    timingSafeEqualHex input expected = true ↔ input = expected := by
  constructor
  · intro equal
    simp only [timingSafeEqualHex] at equal
    split at equal
    · cases equal
    · exact String.toByteArray_inj.mp (of_decide_eq_true equal)
  · rintro rfl
    simp [timingSafeEqualHex]

/-! ## What is parsed -/

/-- The payload of a key up to its first underscore, and what is after it. -/
theorem split_at_separator {publicId secret : List Char} (separator : '_' ∉ publicId) :
    (publicId ++ '_' :: secret).findIdx? (fun c => c = '_') = some publicId.length := by
  induction publicId with
  | nil => simp [List.findIdx?_cons]
  | cons c rest ih =>
      obtain ⟨other, absent⟩ := not_or.mp (List.mem_cons.not.mp separator)
      simp [List.findIdx?_cons, Ne.symm other, ih absent]

theorem parse_apiKeyText {key : ParsedOpaqueApiKey} (wellFormed : key.WellFormed) :
    parseOpaqueApiKey (apiKeyText key) = some key := by
  obtain ⟨publicId, secret⟩ := key
  obtain ⟨some_publicId, separator, some_secret⟩ := wellFormed
  have text : (apiKeyText ⟨publicId, secret⟩).toList =
      apiKeyPrefix.toList ++ (publicId.toList ++ '_' :: secret.toList) := by
    simp [apiKeyText]
  have inside : publicId.toList.length ≠ 0 := by simpa using some_publicId
  have after : secret.toList.length ≠ 0 := by simpa using some_secret
  have payload : (publicId.toList ++ '_' :: secret.toList).length =
      publicId.toList.length + (secret.toList.length + 1) := by simp
  simp only [parseOpaqueApiKey, text, List.prefix_append, not_true_eq_false, if_false,
    List.drop_left, split_at_separator separator]
  rw [if_neg (by rw [payload]; omega), List.take_left, List.drop_append]
  simp [some_publicId, some_secret]

/-- **A text is parsed exactly when it is the text of a key whose parts can be told apart.** -/
theorem parseOpaqueApiKey_iff {value : String} {key : ParsedOpaqueApiKey} :
    parseOpaqueApiKey value = some key ↔ key.WellFormed ∧ value = apiKeyText key := by
  constructor
  · intro parsed
    simp only [parseOpaqueApiKey] at parsed
    split at parsed
    · cases parsed
    rename_i tagged
    obtain ⟨payload, text⟩ := not_not.mp tagged
    rw [← text, List.drop_left] at parsed
    split at parsed
    · cases parsed
    rename_i index found
    split at parsed
    · cases parsed
    split at parsed
    · cases parsed
    rename_i present
    obtain rfl := Option.some.inj parsed
    obtain ⟨some_publicId, some_secret⟩ := not_or.mp present
    obtain ⟨bound, separator, before⟩ := List.findIdx?_eq_some_iff_getElem.mp found
    refine ⟨⟨some_publicId, ?_, some_secret⟩, ?_⟩
    · intro member
      rw [String.toList_ofList] at member
      obtain ⟨position, within, same⟩ := List.mem_take_iff_getElem.mp member
      have other := before position (by omega)
      simp [same] at other
    · refine String.toList_inj.mp ?_
      have middle : payload.drop index = '_' :: payload.drop (index + 1) := by
        rw [List.drop_eq_getElem_cons bound, of_decide_eq_true separator]
      simp only [apiKeyText, String.toList_append, String.toList_ofList, List.append_assoc]
      rw [← text, show "_".toList ++ payload.drop (index + 1) = payload.drop index from middle.symm,
        List.take_append_drop]
  · rintro ⟨wellFormed, rfl⟩
    exact parse_apiKeyText wellFormed

end EliteHubVault
