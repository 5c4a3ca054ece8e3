import EliteHubVault.Platform.Uuid

/-!
# JSON values, dates and JavaScript object lookups

`Json` is the type of `jsonb` values and of what `JSON.parse` returns. Numbers are
taken from the field `K` over which influences and thresholds are computed.

`JsLookup` is what indexing an object literal with an arbitrary string yields. A
property that only `Object.prototype` has is `inherited`: no insert schema accepts
it, so the code never stores it.

`toISOString` is `Date.prototype.toISOString` on a time in milliseconds since the
epoch. It raises a `RangeError`, here `none`, outside the range of `Date`.
-/

set_option autoImplicit false

namespace EliteHubVault

/-! ## JSON -/

/-- A JSON value. -/
inductive Json (K : Type) where
  | null
  | bool (value : Bool)
  | number (value : K)
  | string (value : String)
  | array (items : List (Json K))
  | object (fields : List (String × Json K))

namespace Json

variable {K : Type}

/-- The property of an object; other values have none. -/
def field? (name : String) : Json K → Option (Json K)
  | .object fields => fields.lookup name
  | _ => none

@[simp] theorem field?_nil (name : String) : (object ([] : List (String × Json K))).field? name = none :=
  rfl

theorem field?_cons (name other : String) (value : Json K) (rest : List (String × Json K)) :
    (object ((other, value) :: rest)).field? name =
      if name = other then some value else (object rest).field? name := by
  by_cases same : name = other
  · simp [field?, List.lookup, same]
  · simp [field?, List.lookup, beq_eq_false_iff_ne.mpr same, same]

/-- `z.string()`. -/
def asString? : Json K → Option String
  | .string value => some value
  | _ => none

/-- `z.number()`. -/
def asNumber? : Json K → Option K
  | .number value => some value
  | _ => none

/-- `z.array(z.string())`. -/
def asStrings? : Json K → Option (List String)
  | .array items => items.mapM asString?
  | _ => none

/-- `z.record(z.string(), z.unknown())`. -/
def asRecord? : Json K → Option (List (String × Json K))
  | .object fields => some fields
  | _ => none

/-- A required property read by a schema. -/
def required {α : Type} (read : Json K → Option α) (name : String) (value : Json K) : Option α :=
  (value.field? name).bind read

/-- An optional property: absent, or read by the schema. -/
def optional {α : Type} (read : Json K → Option α) (name : String) (value : Json K) :
    Option (Option α) :=
  match value.field? name with
  | none => some none
  | some present => (read present).map some

/-- A nullable column inside `jsonb_build_object`. -/
def ofNullable {α : Type} (write : α → Json K) : Option α → Json K
  | none => .null
  | some value => write value

/-- A uuid inside `jsonb_build_object` is its text. -/
def ofUuid (id : Uuid) : Json K := .string id.toText

end Json

/-- `JSON.parse` and `JSON.stringify`; the first inverts the second. -/
structure JsonCodec (K : Type) where
  parse : String → Option (Json K)
  stringify : Json K → String
  parse_stringify : ∀ value, parse (stringify value) = some value

/-! ## Object lookups -/

/-- What indexing an object literal with a string yields. -/
inductive JsLookup (α : Type) where
  | undefined
  | null
  | value (a : α)
  | inherited
deriving DecidableEq

/-- The properties that every object literal inherits. -/
def objectPrototypeKeys : List String :=
  ["constructor", "__proto__", "__defineGetter__", "__defineSetter__", "__lookupGetter__",
    "__lookupSetter__", "hasOwnProperty", "isPrototypeOf", "propertyIsEnumerable",
    "toLocaleString", "toString", "valueOf"]

/-- Index an object literal whose own properties are `entries`. -/
def jsLookup {α : Type} (entries : List (String × Option α)) (key : String) : JsLookup α :=
  match entries.lookup key with
  | some (some a) => .value a
  | some none => .null
  | none => if key ∈ objectPrototypeKeys then .inherited else .undefined

/-! ## Dates -/

/-- A `timestamp` or `timestamptz` value, in microseconds since the epoch. -/
abbrev Timestamp := ℤ

/-- Year, month and day of a day counted from the epoch. -/
def civilFromDays (days : ℤ) : ℤ × ℕ × ℕ :=
  let z := days + 719468
  let era := z / 146097
  let doe := (z - era * 146097).toNat
  let yoe := (doe - doe / 1460 + doe / 36524 - doe / 146096) / 365
  let doy := doe - (365 * yoe + yoe / 4 - yoe / 100)
  let mp := (5 * doy + 2) / 153
  let day := doy - (153 * mp + 2) / 5 + 1
  let month := if mp < 10 then mp + 3 else mp - 9
  (yoe + era * 400 + if month ≤ 2 then 1 else 0, month, day)

/-- A number padded with zeros to a width. -/
def padded (width n : ℕ) : String :=
  let digits := (Nat.repr n).toList
  String.ofList (List.replicate (width - digits.length) '0' ++ digits)

/-- The year of an ISO date: four digits, or a sign and six. -/
def isoYear (year : ℤ) : String :=
  if 0 ≤ year ∧ year ≤ 9999 then padded 4 year.toNat
  else (if 0 ≤ year then "+" else "-") ++ padded 6 year.natAbs

/-- `Date.prototype.toISOString` of a time in milliseconds. -/
def toISOString (milliseconds : ℤ) : Option String :=
  if 8640000000000000 < milliseconds.natAbs then none
  else
    let (year, month, day) := civilFromDays (milliseconds / 86400000)
    let inDay := (milliseconds % 86400000).toNat
    some (isoYear year ++ "-" ++ padded 2 month ++ "-" ++ padded 2 day ++ "T" ++
      padded 2 (inDay / 3600000) ++ ":" ++ padded 2 (inDay / 60000 % 60) ++ ":" ++
      padded 2 (inDay / 1000 % 60) ++ "." ++ padded 3 (inDay % 1000) ++ "Z")

example : toISOString 1775260800123 = some "2026-04-04T00:00:00.123Z" := by decide +kernel

/-! ## The platform -/

/-- What the code takes from JavaScript strings, from the collation of `citext` and from the
range checks that the generated insert schemas make on numeric columns. -/
structure Platform (K : Type) where
  toLowerCase : String → String
  trim : String → String
  citext : String → String
  isBigint : K → Bool
  isDouble : K → Bool
  isSmallint : K → Bool

end EliteHubVault
