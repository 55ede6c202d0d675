import GreenticOperator.ProviderConfig.ConfigSchema

/-!
# Whether the check by hand agrees with the schema

The check reads some of the keywords of a schema and not the others. What it asks of types, required
fields and properties follows where a configuration conforms and the schemas are not silent; that a field
is unknown it says of one that only a pattern allows. So it agrees exactly where no such field is there and
a silent schema happens to be met (`validateConfigStrict_eq_none_iff`).
-/

namespace ProviderConfig

open Json Json.Value JsonSchema

variable {rules : Rules} {schema known members : List (String × Value)} {config v : Value}

/-! ## Each keyword -/

theorem matchesJsonType_of_ofType {expected : String} (h : OfType v expected) : matchesJsonType v expected = true := by
  have hinteger : ∀ v, fractIsZero v = true → matchesJsonType v "integer" = true := by
    intro v hzero
    simp [matchesJsonType, hzero]
  cases h with
  | whole hwhole => exact hinteger _ hwhole
  | negInt n => exact hinteger _ rfl
  | posInt n => exact hinteger _ rfl
  | _ => simp [matchesJsonType, asObject, asArray, asStr, asBool]

/-- The type that a schema names, where it names one, is the value's. -/
def TypeAgrees (schema : List (String × Value)) (v : Value) : Prop :=
  ∀ {expected : String}, schema.lookup "type" = some (string expected) → matchesJsonType v expected = true

theorem mismatch_object_iff : mismatch v (object schema) = none ↔ TypeAgrees schema v := by
  unfold mismatch TypeAgrees
  change Option.filter _ ((schema.lookup "type").bind asStr) = none ↔ _
  rw [Option.filter_eq_none_iff]
  constructor
  · intro h expected htype
    have hnot := h expected (by rw [htype]; rfl)
    simpa using hnot
  · intro h expected htype
    obtain ⟨named, hnamed, hstr⟩ := Option.bind_eq_some_iff.mp htype
    cases named with
    | string s =>
      cases hstr
      rw [h hnamed]
      decide
    | _ => cases hstr

theorem TypeAgrees.of_conforms (h : Conforms rules (object schema) v) (hspeaks : ¬ rules.silent schema) :
    TypeAgrees schema v := by
  intro expected htype
  exact matchesJsonType_of_ofType ((h.typeHolds hspeaks).one htype)

theorem checkRequired_eq_none_iff : checkRequired schema config = none ↔ RequiredHold schema config := by
  unfold checkRequired RequiredHold
  constructor
  · rintro h names members hrequired rfl name hname
    rw [hrequired, Option.bind_some] at h
    have hall := List.findSome?_eq_none_iff.mp h name (List.mem_filterMap.mpr ⟨string name, hname, rfl⟩)
    by_contra hmissing
    rw [if_neg hmissing] at hall
    cases hall
  · intro h
    split
    next required map hrequired hmap =>
      obtain ⟨names, hnames, harray⟩ := Option.bind_eq_some_iff.mp hrequired
      cases names with
      | array names =>
        cases harray
        cases config with
        | object fields =>
          cases hmap
          refine List.findSome?_eq_none_iff.mpr fun key hkey => ?_
          obtain ⟨item, hitem, hstr⟩ := List.mem_filterMap.mp hkey
          cases item with
          | string s =>
            cases hstr
            rw [if_pos (h hnames rfl _ hitem)]
          | _ => cases hstr
        | _ => cases hmap
      | _ => cases harray
    next => rfl

theorem checkProperty_eq_none_iff {member : String × Value} : checkProperty known member = none ↔
    ∀ property, known.lookup member.1 = some (object property) → TypeAgrees property member.2 := by
  unfold checkProperty
  rw [Option.bind_eq_none_iff]
  constructor
  · intro h property hproperty
    exact mismatch_object_iff.mp (Option.map_eq_none_iff.mp (h _ hproperty))
  · intro h property hproperty
    refine Option.map_eq_none_iff.mpr ?_
    cases property with
    | object fields => exact mismatch_object_iff.mpr (h fields hproperty)
    | _ => rfl

theorem checkUnknown_eq_none_iff : checkUnknown schema known members = none ↔
    (schema.lookup "additionalProperties" = some (bool false) →
      ∀ member ∈ members, (known.lookup member.1).isSome = true) := by
  have hbool : (schema.lookup "additionalProperties").bind asBool = some false
      ↔ schema.lookup "additionalProperties" = some (bool false) := by
    constructor
    · intro h
      obtain ⟨value, hvalue, hasBool⟩ := Option.bind_eq_some_iff.mp h
      cases value with
      | bool b =>
        cases hasBool
        exact hvalue
      | _ => cases hasBool
    · intro h
      rw [h]
      rfl
  unfold checkUnknown
  split
  next hclosed =>
    rw [List.findSome?_eq_none_iff, forall_prop_of_true (hbool.mp hclosed)]
    refine forall₂_congr fun member _ => ?_
    split
    next hknown => exact iff_of_true rfl hknown
    next hknown => exact iff_of_false nofun hknown
  next hopen => exact iff_of_true rfl fun hclosed => absurd (hbool.mpr hclosed) hopen

theorem checkProperties_eq_none_iff : checkProperties schema config = none ↔
    ∀ known members, schema.lookup "properties" = some (object known) → config = object members →
      (∀ member ∈ members, ∀ property, known.lookup member.1 = some (object property) → TypeAgrees property member.2)
      ∧ (schema.lookup "additionalProperties" = some (bool false) →
          ∀ member ∈ members, (known.lookup member.1).isSome = true) := by
  unfold checkProperties
  constructor
  · rintro h known members hknown rfl
    rw [hknown] at h
    obtain ⟨hproperties, hunknown⟩ := Option.or_eq_none_iff.mp h
    refine ⟨fun member hmem => checkProperty_eq_none_iff.mp ?_, checkUnknown_eq_none_iff.mp hunknown⟩
    exact List.findSome?_eq_none_iff.mp hproperties member hmem
  · intro h
    split
    next known members hknown hmembers =>
      obtain ⟨properties, hproperties, hobject⟩ := Option.bind_eq_some_iff.mp hknown
      cases properties with
      | object properties =>
        cases hobject
        cases config with
        | object fields =>
          cases hmembers
          obtain ⟨htypes, hclosed⟩ := h _ _ hproperties rfl
          refine Option.or_eq_none_iff.mpr ⟨?_, checkUnknown_eq_none_iff.mpr hclosed⟩
          exact List.findSome?_eq_none_iff.mpr fun member hmem => checkProperty_eq_none_iff.mpr (htypes member hmem)
        | _ => cases hmembers
      | _ => cases hobject
    next => rfl

/-! ## The check -/

/-- The check finds nothing where no keyword that it reads does. -/
theorem validateConfigShallow_eq_none_iff : validateConfigShallow config (object schema) = none ↔
    TypeAgrees schema config ∧ RequiredHold schema config ∧ checkProperties schema config = none := by
  rw [← checkRequired_eq_none_iff, ← mismatch_object_iff]
  unfold validateConfigShallow
  cases hmismatch : mismatch config (object schema) with
  | some expected => exact iff_of_false nofun fun h => nomatch h.1
  | none =>
    cases hrequired : checkRequired schema config with
    | some missing =>
      simp only [asObject, hrequired]
      exact iff_of_false nofun fun h => nomatch h.2.1
    | none => simp only [asObject, hrequired, true_and]

/-- **Where the check agrees with the schema.** Every field is among the properties where the schema has some and
allows no others, and what silent schemas say of types and required fields is met. -/
structure Agrees (rules : Rules) (schema : List (String × Value)) (config : Value) : Prop where
  closed : ∀ known members, schema.lookup "properties" = some (object known) → config = object members →
    schema.lookup "additionalProperties" = some (bool false) → ∀ member ∈ members, (known.lookup member.1).isSome = true
  silent : rules.silent schema → TypeAgrees schema config ∧ RequiredHold schema config
  properties : ∀ known members, schema.lookup "properties" = some (object known) → config = object members →
    ∀ member ∈ members, ∀ property, known.lookup member.1 = some (object property) →
      rules.silent schema ∨ rules.silent property → TypeAgrees property member.2

theorem validateConfigShallow_eq_none_iff_agrees (h : Conforms rules (object schema) config) :
    validateConfigShallow config (object schema) = none ↔ Agrees rules schema config := by
  rw [validateConfigShallow_eq_none_iff, checkProperties_eq_none_iff]
  constructor
  · rintro ⟨htype, hrequired, hfields⟩
    refine ⟨?_, fun _ => ⟨htype, hrequired⟩, ?_⟩
    · intro known members hknown hmembers
      exact (hfields known members hknown hmembers).2
    · intro known members hknown hmembers member hmem property hproperty _
      exact (hfields known members hknown hmembers).1 member hmem property hproperty
  · intro hagrees
    refine ⟨?_, ?_, ?_⟩
    · by_cases hsilent : rules.silent schema
      · exact (hagrees.silent hsilent).1
      · exact TypeAgrees.of_conforms h hsilent
    · by_cases hsilent : rules.silent schema
      · exact (hagrees.silent hsilent).2
      · exact h.requiredHold hsilent
    · intro known members hknown hmembers
      refine ⟨?_, hagrees.closed known members hknown hmembers⟩
      intro member hmem property hproperty
      by_cases hsilent : rules.silent schema ∨ rules.silent property
      · exact hagrees.properties known members hknown hmembers member hmem property hproperty hsilent
      · obtain ⟨hschema, hspeaks⟩ := not_or.mp hsilent
        exact TypeAgrees.of_conforms (h.property hschema hknown hmembers hmem hproperty) hspeaks

/-- Among schemas of which none is silent, only a field that a pattern alone allows is against the check. -/
theorem agrees_iff_of_speaks (hspeaks : ∀ schema, ¬ rules.silent schema) (h : Conforms rules (object schema) config) :
    Agrees rules schema config ↔ ∀ known members, schema.lookup "properties" = some (object known) →
      config = object members → schema.lookup "additionalProperties" = some (bool false) →
        ∀ member ∈ members, IsPatternProperty rules schema member.1 → IsProperty schema member.1 := by
  constructor
  · intro hagrees known members hknown hmembers hclosed member hmem _
    exact ⟨known, hknown, hagrees.closed known members hknown hmembers hclosed member hmem⟩
  · intro hpatterns
    refine ⟨?_, fun hsilent => absurd hsilent (hspeaks schema), ?_⟩
    · intro known members hknown hmembers hclosed member hmem
      have hproperty : IsProperty schema member.1 := by
        rcases h.closed (hspeaks schema) hclosed hmembers hmem with hproperty | hpattern
        · exact hproperty
        · exact hpatterns known members hknown hmembers hclosed member hmem hpattern
      obtain ⟨known', hknown', hsome⟩ := hproperty
      rw [hknown, Option.some.injEq, object.injEq] at hknown'
      exact hknown' ▸ hsome
    · rintro known members hknown hmembers member hmem property hproperty (hsilent | hsilent)
      · exact absurd hsilent (hspeaks schema)
      · exact absurd hsilent (hspeaks property)

/-- **When a configuration that conforms is accepted**, with a validator that accepts what conforms. -/
theorem validateConfigStrict_eq_none_iff {validate : (schema config : Value) → Except String Unit}
    (hvalidate : ∀ schema config, Conforms rules schema config → validate schema config = .ok ())
    {document : Value} (h : Conforms rules document config) :
    validateConfigStrict validate config document = none
      ↔ ∀ schema, document = object schema → Agrees rules schema config := by
  cases document with
  | object schema =>
    have hstrict : validateConfigStrict validate config (object schema) = validateConfigShallow config (object schema) := by
      unfold validateConfigStrict
      rw [hvalidate _ _ h]
      rfl
    rw [hstrict, validateConfigShallow_eq_none_iff_agrees h]
    constructor
    · rintro hagrees _ ⟨⟩
      exact hagrees
    · intro hagrees
      exact hagrees schema rfl
  | _ => exact iff_of_true rfl nofun

/-! ## Two schemas -/

/-- Rules of the current draft, of which only the pattern `^x-` and the keywords above are used. -/
def prefixRules : Rules where
  matchesPattern pattern name := pattern = "^x-" ∧ Text.startsWith "x-" name = true
  silent _ := False
  others _ _ := True

def switchSchema : List (String × Value) :=
  [("additionalProperties", bool false), ("properties", object [("enabled", object [("type", string "boolean")])]),
    ("type", string "object")]

def notedSchema : List (String × Value) :=
  [("additionalProperties", bool false), ("patternProperties", object [("^x-", bool true)]),
    ("properties", object [("enabled", object [("type", string "boolean")])]), ("type", string "object")]

theorem conforms_boolean (b : Bool) : Conforms prefixRules (object [("type", string "boolean")]) (bool b) := by
  refine .keywords id ⟨?_, nofun⟩ nofun nofun nofun nofun trivial
  rintro _ ⟨⟩
  exact .boolean b

theorem conforms_switchSchema : Conforms prefixRules (object switchSchema) (object [("enabled", bool true)]) := by
  refine .keywords id ⟨?_, nofun⟩ nofun ?_ nofun ?_ trivial
  · rintro _ ⟨⟩
    exact .object _
  · rintro known members ⟨⟩ ⟨⟩ member hmem property hproperty
    obtain rfl := List.mem_singleton.mp hmem
    cases hproperty
    exact conforms_boolean true
  · rintro rest members ⟨⟩ ⟨⟩ member hmem hnot _
    obtain rfl := List.mem_singleton.mp hmem
    exact absurd ⟨_, rfl, rfl⟩ hnot

theorem validateConfigStrict_switchSchema :
    validateConfigStrict (fun _ _ => .ok ()) (object [("enabled", bool true)]) (object switchSchema) = none := by
  refine (validateConfigStrict_eq_none_iff (fun _ _ _ => rfl) conforms_switchSchema).mpr ?_
  rintro schema ⟨⟩
  refine (agrees_iff_of_speaks (fun _ => id) conforms_switchSchema).mpr ?_
  rintro known members ⟨⟩ ⟨⟩ hclosed member hmem ⟨patterns, hpatterns, -⟩
  cases hpatterns

/-- A field that only a pattern allows conforms, and is said to be unknown. -/
theorem pattern_field_said_unknown :
    Conforms prefixRules (object notedSchema) (object [("x-note", string "kept")])
      ∧ validateConfigStrict (fun _ _ => .ok ()) (object [("x-note", string "kept")]) (object notedSchema)
        = some "unknown config key `x-note`" := by
  refine ⟨.keywords id ⟨?_, nofun⟩ nofun ?_ ?_ ?_ trivial, by decide +kernel⟩
  · rintro _ ⟨⟩
    exact .object _
  · rintro known members ⟨⟩ ⟨⟩ member hmem property hproperty
    obtain rfl := List.mem_singleton.mp hmem
    cases hproperty
  · rintro patterns members ⟨⟩ ⟨⟩ member _ pattern hpattern _
    obtain rfl := List.mem_singleton.mp hpattern
    exact .anything member.2
  · rintro rest members ⟨⟩ ⟨⟩ member hmem _ hnot
    obtain rfl := List.mem_singleton.mp hmem
    exact absurd ⟨_, rfl, _, List.mem_singleton_self _, rfl, by decide⟩ hnot

end ProviderConfig
