import EliteHubVault.Auth.ApiKeyCrypto

/-!
# Generated API keys

A key is generated from random bytes in hexadecimal, so neither part has the separator and
neither is empty. `parseOpaqueApiKey` accepts exactly the texts of its grammar, each with its one
decomposition, and so it reads a generated key back.
-/

set_option autoImplicit false

namespace EliteHubVault

/-- `Buffer.toString('hex')`. -/
def hexOf (bytes : List (Fin 256)) : String :=
  String.ofList (bytes.flatMap fun byte =>
    [Nat.digitChar (byte.val / 16), Nat.digitChar (byte.val % 16)])

/-- What `generateOpaqueApiKey` returns. -/
structure GeneratedApiKey where
  publicId : String
  secret : String
  rawApiKey : String

/-- `generateOpaqueApiKey`, with the bytes that `crypto.randomBytes` gives. -/
def generateOpaqueApiKey (publicIdBytes : List.Vector (Fin 256) 8)
    (secretBytes : List.Vector (Fin 256) 24) : GeneratedApiKey :=
  let publicId := hexOf publicIdBytes.toList
  let secret := hexOf secretBytes.toList
  { publicId, secret, rawApiKey := apiKeyPrefix ++ publicId ++ "_" ++ secret }

theorem separator_not_mem_hexOf (bytes : List (Fin 256)) : '_' ∉ (hexOf bytes).toList := by
  have digit : ∀ n < 16, '_' ≠ Nat.digitChar n := by decide
  intro member
  rw [hexOf, String.toList_ofList] at member
  obtain ⟨byte, -, pair⟩ := List.mem_flatMap.mp member
  have bound := byte.isLt
  obtain high | low := List.mem_pair.mp pair
  · exact digit _ (by omega) high
  · exact digit _ (by omega) low

theorem hexOf_ne {bytes : List (Fin 256)} (some_byte : bytes ≠ []) : hexOf bytes ≠ "" := by
  obtain ⟨byte, rest, rfl⟩ := List.exists_cons_of_ne_nil some_byte
  intro blank
  have characters := congrArg String.toList blank
  simp [hexOf] at characters

theorem toList_ne_nil {n : ℕ} (bytes : List.Vector (Fin 256) (n + 1)) : bytes.toList ≠ [] := by
  intro empty
  have length := bytes.toList_length
  rw [empty] at length
  cases length

/-- **A generated key is parsed back** to its own parts. -/
theorem parse_generateOpaqueApiKey (publicIdBytes : List.Vector (Fin 256) 8)
    (secretBytes : List.Vector (Fin 256) 24) :
    parseOpaqueApiKey (generateOpaqueApiKey publicIdBytes secretBytes).rawApiKey =
      some ⟨(generateOpaqueApiKey publicIdBytes secretBytes).publicId,
        (generateOpaqueApiKey publicIdBytes secretBytes).secret⟩ := by
  have wellFormed : (ParsedOpaqueApiKey.mk (hexOf publicIdBytes.toList)
      (hexOf secretBytes.toList)).WellFormed :=
    ⟨hexOf_ne (toList_ne_nil publicIdBytes), separator_not_mem_hexOf _,
      hexOf_ne (toList_ne_nil secretBytes)⟩
  have parsed := parse_apiKeyText wellFormed
  rwa [apiKeyText] at parsed

/-! ## The grammar -/

/-- The value is the text of a key with these parts. -/
def InGrammar (value publicId secret : String) : Prop :=
  value = "eh_live_" ++ publicId ++ "_" ++ secret ∧
    (publicId ≠ "" ∧ '_' ∉ publicId.toList) ∧ secret ≠ ""

theorem parseOpaqueApiKey_iff_inGrammar {value publicId secret : String} :
    parseOpaqueApiKey value = some ⟨publicId, secret⟩ ↔ InGrammar value publicId secret := by
  rw [parseOpaqueApiKey_iff]
  constructor
  · rintro ⟨⟨some_publicId, separator, some_secret⟩, text⟩
    exact ⟨text, ⟨some_publicId, separator⟩, some_secret⟩
  · rintro ⟨text, ⟨some_publicId, separator⟩, some_secret⟩
    exact ⟨⟨some_publicId, separator, some_secret⟩, text⟩

/-- A text has one decomposition at most. -/
theorem InGrammar.unique {value publicId secret publicId' secret' : String}
    (first : InGrammar value publicId secret) (second : InGrammar value publicId' secret') :
    publicId = publicId' ∧ secret = secret' := by
  have parsed := parseOpaqueApiKey_iff_inGrammar.mpr first
  rw [parseOpaqueApiKey_iff_inGrammar.mpr second, Option.some.injEq,
    ParsedOpaqueApiKey.mk.injEq] at parsed
  exact ⟨parsed.1.symm, parsed.2.symm⟩

theorem parseOpaqueApiKey_eq_none_iff {value : String} :
    parseOpaqueApiKey value = none ↔ ¬ ∃ publicId secret, InGrammar value publicId secret := by
  rw [Option.eq_none_iff_forall_ne_some]
  constructor
  · rintro rejected ⟨publicId, secret, grammar⟩
    exact rejected ⟨publicId, secret⟩ (parseOpaqueApiKey_iff_inGrammar.mpr grammar)
  · rintro outside ⟨publicId, secret⟩ parsed
    exact outside ⟨publicId, secret, parseOpaqueApiKey_iff_inGrammar.mp parsed⟩

/-- **The parser accepts exactly its grammar.** A text has at most one decomposition and is
parsed to the one that it has, and a generated key is parsed to its own parts. -/
theorem parser_accepts_grammar :
    (∀ value publicId secret, parseOpaqueApiKey value = some ⟨publicId, secret⟩ ↔
      InGrammar value publicId secret) ∧
    (∀ value, parseOpaqueApiKey value = none ↔
      ¬ ∃ publicId secret, InGrammar value publicId secret) ∧
    (∀ value publicId secret publicId' secret', InGrammar value publicId secret →
      InGrammar value publicId' secret' → publicId = publicId' ∧ secret = secret') ∧
    ∀ publicIdBytes secretBytes,
      parseOpaqueApiKey (generateOpaqueApiKey publicIdBytes secretBytes).rawApiKey =
        some ⟨(generateOpaqueApiKey publicIdBytes secretBytes).publicId,
          (generateOpaqueApiKey publicIdBytes secretBytes).secret⟩ :=
  ⟨fun _ _ _ => parseOpaqueApiKey_iff_inGrammar, fun _ => parseOpaqueApiKey_eq_none_iff,
    fun _ _ _ _ _ first second => first.unique second, parse_generateOpaqueApiKey⟩

/-- Underscores after the first one belong to the secret. -/
example : parseOpaqueApiKey "eh_live_a_b_c" = some ⟨"a", "b_c"⟩ := by decide +kernel

example : parseOpaqueApiKey "eh_live__b" = none := by decide +kernel

end EliteHubVault
