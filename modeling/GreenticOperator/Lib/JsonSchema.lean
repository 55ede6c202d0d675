import GreenticOperator.Lib.Json

/-!
# JsonSchema — when a value conforms to a schema

The keywords on the type and the fields of a value, as JSON Schema has them. What the other keywords of a
schema ask is a parameter, and so is which patterns match a name. A schema may be silent: its keywords are
not read, as those beside a reference are not in the older drafts.
-/

namespace JsonSchema

open Json Json.Value

/-! ## Types -/

/-- The digits of a number in front of the point and behind it, and its power of ten. -/
def decimalParts (text : String) : List Char × List Char × List Char :=
  let digits := text.toList.filter (· ≠ '-')
  let mantissa := digits.takeWhile (· ≠ 'e')
  (mantissa.takeWhile (· ≠ '.'), (mantissa.dropWhile (· ≠ '.')).drop 1, (digits.dropWhile (· ≠ 'e')).drop 1)

/-- A number has no fractional part: behind its power of ten there are only zeros. -/
def isWhole (text : String) : Bool :=
  let (whole, fraction, power) := decimalParts text
  let n := power.foldl (fun n c => n * 10 + (c.toNat - '0'.toNat)) 0
  if '-' ∈ (text.toList.dropWhile (· ≠ 'e')) then
    fraction.all (· = '0') && (whole.reverse.take n).all (· = '0')
  else (fraction.drop n).all (· = '0')

/-- A value is of a type. A number without a fractional part is an integer. -/
inductive OfType : Value → String → Prop
  | object (fields : List (String × Value)) : OfType (.object fields) "object"
  | array (items : List Value) : OfType (.array items) "array"
  | string (s : String) : OfType (.string s) "string"
  | boolean (b : Bool) : OfType (.bool b) "boolean"
  | null : OfType .null "null"
  | number (n : Number) : OfType (.number n) "number"
  | posInt (n : UInt64) : OfType (.number (.posInt n)) "integer"
  | negInt (n : Int64) : OfType (.number (.negInt n)) "integer"
  | whole {text : String} (h : isWhole text = true) : OfType (.number (.float text)) "integer"

/-! ## Schemas -/

/-- What a schema means besides the keywords below. -/
structure Rules where
  matchesPattern : (pattern name : String) → Prop
  silent : (schema : List (String × Value)) → Prop
  others : (schema : List (String × Value)) → Value → Prop

/-- A type, or one of several. -/
structure TypeHolds (schema : List (String × Value)) (v : Value) : Prop where
  one : ∀ {expected : String}, schema.lookup "type" = some (string expected) → OfType v expected
  several : ∀ {types : List Value}, schema.lookup "type" = some (array types) →
    ∃ expected, string expected ∈ types ∧ OfType v expected

/-- An object has the fields that are required. -/
def RequiredHold (schema : List (String × Value)) (v : Value) : Prop :=
  ∀ {names : List Value} {members : List (String × Value)}, schema.lookup "required" = some (array names) →
    v = object members → ∀ name, string name ∈ names → (members.lookup name).isSome = true

/-- A field is among the properties of a schema. -/
def IsProperty (schema : List (String × Value)) (name : String) : Prop :=
  ∃ known, schema.lookup "properties" = some (object known) ∧ (known.lookup name).isSome = true

variable (rules : Rules)

/-- A pattern of a schema matches a field. -/
def IsPatternProperty (schema : List (String × Value)) (name : String) : Prop :=
  ∃ patterns, schema.lookup "patternProperties" = some (object patterns)
    ∧ ∃ pattern ∈ patterns, rules.matchesPattern pattern.1 name

/-- **A value conforms to a schema.** The schema `true` allows anything and `false` nothing. -/
inductive Conforms : Value → Value → Prop
  | anything (v : Value) : Conforms (bool true) v
  | silent {schema : List (String × Value)} {v : Value} (silent : rules.silent schema)
      (others : rules.others schema v) : Conforms (object schema) v
  | keywords {schema : List (String × Value)} {v : Value} (speaks : ¬ rules.silent schema)
      (type : TypeHolds schema v) (required : RequiredHold schema v)
      (properties : ∀ {known members : List (String × Value)}, schema.lookup "properties" = some (object known) →
        v = object members → ∀ member ∈ members, ∀ property, known.lookup member.1 = some property →
          Conforms property member.2)
      (patterns : ∀ {patterns members : List (String × Value)},
        schema.lookup "patternProperties" = some (object patterns) → v = object members → ∀ member ∈ members,
          ∀ pattern ∈ patterns, rules.matchesPattern pattern.1 member.1 → Conforms pattern.2 member.2)
      (additional : ∀ {rest : Value} {members : List (String × Value)},
        schema.lookup "additionalProperties" = some rest → v = object members → ∀ member ∈ members,
          ¬ IsProperty schema member.1 → ¬ IsPatternProperty rules schema member.1 → Conforms rest member.2)
      (others : rules.others schema v) : Conforms (object schema) v

variable {rules} {schema : List (String × Value)} {v : Value}

theorem not_conforms_false : ¬ Conforms rules (bool false) v := nofun

theorem Conforms.typeHolds (h : Conforms rules (object schema) v) (hspeaks : ¬ rules.silent schema) :
    TypeHolds schema v := by
  cases h with
  | silent hsilent => exact absurd hsilent hspeaks
  | keywords _ htype => exact htype

theorem Conforms.requiredHold (h : Conforms rules (object schema) v) (hspeaks : ¬ rules.silent schema) :
    RequiredHold schema v := by
  cases h with
  | silent hsilent => exact absurd hsilent hspeaks
  | keywords _ _ hrequired => exact hrequired

theorem Conforms.property (h : Conforms rules (object schema) v) (hspeaks : ¬ rules.silent schema)
    {known members : List (String × Value)} (hknown : schema.lookup "properties" = some (object known))
    (hv : v = object members) {member : String × Value} (hmem : member ∈ members) {property : Value}
    (hproperty : known.lookup member.1 = some property) : Conforms rules property member.2 := by
  cases h with
  | silent hsilent => exact absurd hsilent hspeaks
  | keywords _ _ _ hproperties => exact hproperties hknown hv member hmem property hproperty

/-- Where no other fields are allowed, each is a property or a pattern matches it. -/
theorem Conforms.closed (h : Conforms rules (object schema) v) (hspeaks : ¬ rules.silent schema)
    (hclosed : schema.lookup "additionalProperties" = some (bool false)) {members : List (String × Value)}
    (hv : v = object members) {member : String × Value} (hmem : member ∈ members) :
    IsProperty schema member.1 ∨ IsPatternProperty rules schema member.1 := by
  cases h with
  | silent hsilent => exact absurd hsilent hspeaks
  | keywords _ _ _ _ _ hadditional =>
    by_contra hneither
    obtain ⟨hproperty, hpattern⟩ := not_or.mp hneither
    exact not_conforms_false (hadditional hclosed hv member hmem hproperty hpattern)

end JsonSchema
