import GreenticOperator.Onboard.Submit
import GreenticOperator.QaPersist.PackConfigInput

/-!
# Secrets and the plain configuration of an onboarding

Two submissions that differ only in the values of secret questions should leave the same plain
configuration (`KeepsSecrets`). A copy of a secret is marked as secret in the form only where the
form does not ask for its name; `keepsSecrets_iff` is the exact condition. It compares what is
visible of two configurations, name by name, and goes through the injected fields one by one: a
field leaves every other name as it is (`visible_injectField_of_ne`).
-/

namespace Onboard

open Json QaPersist ProviderConfig

/-! ## Two submissions -/

/-- A JSON value; the fields of an object are in the order of their names. -/
structure Settings where
  value : Value
  ordered : ∀ fields, value = .object fields → SortedMap.Ordered fields

/-- Values that differ at most in the values of some fields. -/
def SameBut (ids : List String) (v w : Value) : Prop :=
  v = w ∨ ∃ fields other, v = .object fields ∧ w = .object other
    ∧ (∀ key, (fields.lookup key).isSome = (other.lookup key).isSome)
    ∧ ∀ key, key ∉ ids → fields.lookup key = other.lookup key

/-- Values that differ at most in the values of questions that are marked secret, also in the items of lists, up to
a depth. -/
def DifferInSecrets : Nat → List Question → Value → Value → Prop
  | 0, _, v, w => v = w
  | depth + 1, questions, v, w => v = w ∨ ∃ fields other, v = .object fields ∧ w = .object other
    ∧ (∀ key, (fields.lookup key).isSome = (other.lookup key).isSome)
    ∧ ∀ key, key ∉ (questions.filter (·.secret)).map (·.id) → fields.lookup key = other.lookup key
      ∨ ∃ q ∈ questions, q.id = key ∧ ∃ items items', fields.lookup key = some (.array items)
        ∧ other.lookup key = some (.array items') ∧ List.Forall₂ (DifferInSecrets depth q.fields) items items'

/-- What an onboarding submits, as far as it is injected and persisted. -/
structure Submitted where
  config : Settings
  answers : Settings

/-- Submissions that differ at most in the values of secret questions. -/
structure SameButSecrets (depth : Nat) (formSpec : FormSpec) (s t : Submitted) : Prop where
  config : DifferInSecrets depth formSpec.questions s.config.value t.config.value
  answers : DifferInSecrets depth formSpec.questions s.answers.value t.answers.value

/-- The plain configuration of a submission, persisted. -/
def persisted {File : Type} [DecidableEq File] (digest : Digest) (path : EnvelopePath File)
    (written : Except String Unit) (providerId : String) (formSpec : FormSpec) (pack : Pack)
    (s : Submitted) : Eff (ProvidersRoot File) Unit :=
  let injected := injectProviderAliases providerId s.config.value formSpec s.answers.value
  persistQaConfig digest path written providerId injected.1 pack injected.2

/-- Persisting does the same for two submissions, at every providers root. -/
def KeepsSecrets (providerId : String) (formSpec : FormSpec) (s t : Submitted) : Prop :=
  ∀ {File : Type} [DecidableEq File] (digest : Digest) (path : EnvelopePath File)
    (written : Except String Unit) (pack : Pack) (root : ProvidersRoot File),
    (persisted digest path written providerId formSpec pack s).run root
      = (persisted digest path written providerId formSpec pack t).run root

def asks (formSpec : FormSpec) (key : String) : Bool := formSpec.questions.any fun q => q.id == key

/-- The copy of a field shows no difference between two configurations. Where its name is asked for
and free, the two fields hold the same text; where it is not asked for and taken, both hold a
text or neither does. -/
structure Traceless (formSpec : FormSpec) (entry : ProviderSecretAlias) (config other : Value) : Prop where
  copied : asks formSpec entry.dstKey = true → config.get entry.dstKey = none →
    settingText config entry.srcKey = settingText other entry.srcKey
  hidden : asks formSpec entry.dstKey = false → config.get entry.dstKey ≠ none →
    (settingText config entry.srcKey).isSome = (settingText other entry.srcKey).isSome

def aliasesOf (providerId : String) : List ProviderSecretAlias :=
  ((providerSecretAliases.find? fun entry => entry.1 == providerId).map Prod.snd).getD []

/-- Every copy a provider has that the form does not mark as secret is traceless. -/
def NoTrace (providerId : String) (formSpec : FormSpec) (config other : Value) : Prop :=
  ∀ entry ∈ aliasesOf providerId, entry.dstKey ∉ secretIds formSpec →
    Traceless formSpec entry config other

/-- What is not marked secret itself is the same, the items of lists included. -/
def AgreeOnPlain (formSpec : FormSpec) (config other : Value) : Prop :=
  ∀ key, key ∉ secretIds formSpec → config.get key = other.get key

/-! ## One injected field -/

/-- What persisting lets through under a name. -/
def visible (given : Value × FormSpec) (key : String) : Option Value :=
  if key ∈ secretIds given.2 then none else given.1.get key

def IsObject (v : Value) : Prop := ∃ fields, v = .object fields ∧ SortedMap.Ordered fields

variable {found found' : Option String} {key name : String} {isSecret : Bool}
  {given given' : Value × FormSpec}

theorem isObject_orInsert {v : Value} {text : String} (h : IsObject v) : IsObject (orInsert key text v) := by
  obtain ⟨fields, rfl, hordered⟩ := h
  unfold orInsert
  dsimp only
  split
  · exact ⟨fields, rfl, hordered⟩
  · refine ⟨_, rfl, ?_⟩
    rw [Value.insertField_eq_alter]
    exact SortedMap.ordered_alter key _ hordered

theorem isObject_injectField (h : IsObject given.1) :
    IsObject (injectField found key isSecret given).1 := by
  unfold injectField
  cases found with
  | none => exact h
  | some text => exact isObject_orInsert h

theorem get_orInsert {v : Value} {text : String} (h : IsObject v) :
    (orInsert key text v).get name
      = if name = key then (v.get key).or (some (.string text)) else v.get name := by
  obtain ⟨fields, rfl, -⟩ := h
  unfold orInsert
  dsimp only
  cases hlookup : fields.lookup key with
  | some w =>
    simp only [Option.isSome_some, if_true, Value.get, hlookup, Option.some_or]
    split
    next heq => rw [heq, hlookup]
    next => rfl
  | none =>
    simp only [Option.isSome_none, Bool.false_eq_true, if_false, Value.get, hlookup, Option.none_or]
    exact Value.lookup_insertField name key (.string text) fields

/-- The settings under a name, once a field is injected. -/
theorem get_injectField (h : IsObject given.1) :
    (injectField found key isSecret given).1.get name
      = if name = key then (given.1.get key).or (found.map .string) else given.1.get name := by
  unfold injectField
  cases found with
  | none =>
    simp only [Option.map_none, Option.or_none]
    split
    next heq => rw [heq]
    next => rfl
  | some text => exact get_orInsert h

theorem asks_pushSyntheticQuestion {formSpec : FormSpec} :
    asks (pushSyntheticQuestion formSpec key isSecret) name = (asks formSpec name || key == name) := by
  unfold pushSyntheticQuestion
  split
  next hasked =>
    by_cases heq : key = name
    · subst heq
      have hname : asks formSpec key = true := hasked
      simp [hname]
    · simp [heq]
  next => simp [asks]

theorem mem_secretIds_pushSyntheticQuestion {formSpec : FormSpec} :
    name ∈ secretIds (pushSyntheticQuestion formSpec key isSecret)
      ↔ name ∈ secretIds formSpec ∨ name = key ∧ isSecret = true ∧ asks formSpec key = false := by
  unfold pushSyntheticQuestion
  split
  next hasked =>
    have hkey : asks formSpec key = true := hasked
    simp [hkey]
  next hasked =>
    have hkey : asks formSpec key = false := by simpa [asks] using hasked
    cases isSecret <;> simp [secretIds, hkey]

/-- **A field leaves every other name as it is.** -/
theorem visible_injectField_of_ne (h : IsObject given.1) (hne : name ≠ key) :
    visible (injectField found key isSecret given) name = visible given name := by
  have hsecret : name ∈ secretIds (injectField found key isSecret given).2 ↔ name ∈ secretIds given.2 := by
    unfold injectField
    cases found with
    | none => exact Iff.rfl
    | some text =>
      show name ∈ secretIds (pushSyntheticQuestion given.2 key isSecret) ↔ _
      rw [mem_secretIds_pushSyntheticQuestion]
      simp [hne]
  unfold visible
  rw [get_injectField h, if_neg hne]
  simp only [hsecret]

theorem asks_injectField_of_ne (hne : name ≠ key) :
    asks (injectField found key isSecret given).2 name = asks given.2 name := by
  unfold injectField
  cases found with
  | none => rfl
  | some text =>
    show asks (pushSyntheticQuestion given.2 key isSecret) name = _
    rw [asks_pushSyntheticQuestion, beq_eq_false_iff_ne.mpr (Ne.symm hne), Bool.or_false]

/-- What is visible under the name of a field that is injected. -/
theorem visible_injectField_self (h : IsObject given.1) :
    visible (injectField found key isSecret given) key
      = if key ∈ secretIds given.2 then none
        else if isSecret = true ∧ asks given.2 key = false ∧ found.isSome then none
        else (given.1.get key).or (found.map .string) := by
  unfold visible
  rw [get_injectField h, if_pos rfl]
  cases found with
  | none => simp [injectField]
  | some text =>
    have hpushed : (injectField (some text) key isSecret given).2
      = pushSyntheticQuestion given.2 key isSecret := rfl
    rw [hpushed]
    simp only [mem_secretIds_pushSyntheticQuestion]
    by_cases hkey : key ∈ secretIds given.2
    · simp [hkey]
    · simp [hkey]

/-! ## Two runs -/

/-- Two states at which a name stands alike, but for a secret value. -/
structure Level (key : String) (given given' : Value × FormSpec) : Prop where
  asked : asks given.2 key = asks given'.2 key
  secret : key ∈ secretIds given.2 ↔ key ∈ secretIds given'.2
  there : (given.1.get key).isSome = (given'.1.get key).isSome
  value : key ∉ secretIds given.2 → given.1.get key = given'.1.get key

theorem Level.visible_eq (h : Level key given given') : visible given key = visible given' key := by
  unfold visible
  by_cases hkey : key ∈ secretIds given.2
  · rw [if_pos hkey, if_pos (h.secret.mp hkey)]
  · rw [if_neg hkey, if_neg fun hkey' => hkey (h.secret.mpr hkey'), h.value hkey]

/-- Another field leaves a name level. -/
theorem Level.injectField (h : Level name given given') (hobject : IsObject given.1)
    (hobject' : IsObject given'.1) (hne : name ≠ key) :
    Level name (injectField found key isSecret given) (injectField found' key isSecret given') := by
  have hsecret : ∀ (found : Option String) (given : Value × FormSpec),
      name ∈ secretIds (Onboard.injectField found key isSecret given).2 ↔ name ∈ secretIds given.2 := by
    intro found given
    cases found with
    | none => exact Iff.rfl
    | some text =>
      show name ∈ secretIds (pushSyntheticQuestion given.2 key isSecret) ↔ _
      rw [mem_secretIds_pushSyntheticQuestion]
      simp [hne]
  refine ⟨?_, ?_, ?_, fun hkey => ?_⟩
  · rw [asks_injectField_of_ne hne, asks_injectField_of_ne hne, h.asked]
  · rw [hsecret, hsecret, h.secret]
  · rw [get_injectField hobject, get_injectField hobject', if_neg hne, if_neg hne, h.there]
  · rw [hsecret] at hkey
    rw [get_injectField hobject, get_injectField hobject', if_neg hne, if_neg hne, h.value hkey]

/-- A field that is the same in both, or whose name is secret in both, shows no difference. -/
theorem visible_injectField_congr (h : Level key given given') (hobject : IsObject given.1)
    (hobject' : IsObject given'.1) (hfound : key ∉ secretIds given.2 → found = found') :
    visible (injectField found key isSecret given) key = visible (injectField found' key isSecret given') key := by
  rw [visible_injectField_self hobject, visible_injectField_self hobject']
  by_cases hkey : key ∈ secretIds given.2
  · rw [if_pos hkey, if_pos (h.secret.mp hkey)]
  · rw [if_neg hkey, if_neg fun hkey' => hkey (h.secret.mpr hkey'), hfound hkey, h.asked, h.value hkey]

/-- **The copy of a secret** shows no difference exactly where it is traceless. -/
theorem visible_copy_iff (found found' : Option String) (h : Level key given given') (hobject : IsObject given.1)
    (hobject' : IsObject given'.1) (hkey : key ∉ secretIds given.2) :
    visible (injectField found key true given) key = visible (injectField found' key true given') key
      ↔ (asks given.2 key = true → given.1.get key = none → found = found')
        ∧ (asks given.2 key = false → given.1.get key ≠ none → found.isSome = found'.isSome) := by
  rw [visible_injectField_self hobject, visible_injectField_self hobject', if_neg hkey,
    if_neg fun hkey' => hkey (h.secret.mpr hkey'), ← h.asked, ← h.value hkey]
  cases hasked : asks given.2 key with
  | true =>
    cases given.1.get key with
    | some v => simp
    | none => cases found <;> cases found' <;> simp
  | false =>
    cases given.1.get key with
    | some v => cases found <;> cases found' <;> simp
    | none => cases found <;> cases found' <;> simp

/-! ## A value that stays -/

/-- A name that is asked for, is not secret and has a value, which is shown. -/
structure Shown (name : String) (v : Value) (given : Value × FormSpec) : Prop where
  object : IsObject given.1
  asked : asks given.2 name = true
  plain : name ∉ secretIds given.2
  value : given.1.get name = some v

theorem Shown.visible_eq {v : Value} (h : Shown name v given) : visible given name = some v := by
  rw [visible, if_neg h.plain, h.value]

/-- A field leaves what is shown, also under its own name. -/
theorem Shown.injectField {v : Value} (h : Shown name v given) :
    Shown name v (injectField found key isSecret given) := by
  refine ⟨isObject_injectField h.object, ?_, ?_, ?_⟩
  · cases found with
    | none => exact h.asked
    | some text =>
      show asks (pushSyntheticQuestion given.2 key isSecret) name = true
      rw [asks_pushSyntheticQuestion, h.asked, Bool.true_or]
  · cases found with
    | none => exact h.plain
    | some text =>
      show name ∉ secretIds (pushSyntheticQuestion given.2 key isSecret)
      rw [mem_secretIds_pushSyntheticQuestion]
      rintro (hsecret | ⟨rfl, -, hfree⟩)
      · exact h.plain hsecret
      · rw [h.asked] at hfree
        cases hfree
  · rw [get_injectField h.object]
    split
    next heq => rw [← heq, h.value, Option.some_or]
    next => exact h.value

theorem Shown.foldl {v : Value} {ι : Type} (inject : Value × FormSpec → ι → Value × FormSpec) (fields : List ι)
    (hinject : ∀ given field, Shown name v given → Shown name v (inject given field)) (h : Shown name v given) :
    Shown name v (fields.foldl inject given) := by
  induction fields generalizing given with
  | nil => exact h
  | cons field fields ih => exact ih (hinject given field h)

/-! ## The fields of a provider -/

theorem get_eq_of_sameBut {ids : List String} {v w : Value} (h : SameBut ids v w) (hkey : key ∉ ids) :
    v.get key = w.get key := by
  rcases h with rfl | ⟨fields, other, rfl, rfl, -, hvalues⟩
  · rfl
  · exact hvalues key hkey

/-- A value that is not marked secret is the same in both, or a list that is asked for. -/
theorem get_cases {depth : Nat} {formSpec : FormSpec} {v w : Value} (h : DifferInSecrets depth formSpec.questions v w)
    (hkey : key ∉ secretIds formSpec) : v.get key = w.get key
      ∨ asks formSpec key = true ∧ ∃ items items', v.get key = some (.array items) ∧ w.get key = some (.array items') := by
  cases depth with
  | zero =>
    have heq : v = w := h
    exact .inl (by rw [heq])
  | succ depth =>
    rcases h with rfl | ⟨fields, other, rfl, rfl, -, hvalues⟩
    · exact .inl rfl
    · rcases hvalues key hkey with heq | ⟨q, hq, hid, items, items', hitems, hitems', -⟩
      · exact .inl heq
      · exact .inr ⟨List.any_eq_true.mpr ⟨q, hq, beq_iff_eq.mpr hid⟩, items, items', hitems, hitems'⟩

theorem settingText_eq_of_differ {depth : Nat} {formSpec : FormSpec} {v w : Value}
    (h : DifferInSecrets depth formSpec.questions v w) (hkey : key ∉ secretIds formSpec) :
    settingText v key = settingText w key := by
  unfold settingText
  rcases get_cases h hkey with heq | ⟨-, items, items', hitems, hitems'⟩
  · rw [heq]
  · rw [hitems, hitems']
    rfl

/-- Where the lists agree too, the values differ at most in the secrets of the form itself. -/
theorem sameBut_of_agree {depth : Nat} {formSpec : FormSpec} {v w : Value}
    (h : DifferInSecrets depth formSpec.questions v w) (hagree : AgreeOnPlain formSpec v w) :
    SameBut (secretIds formSpec) v w := by
  cases depth with
  | zero => exact .inl h
  | succ depth =>
    rcases h with heq | ⟨fields, other, rfl, rfl, hkeys, -⟩
    · exact .inl heq
    · exact .inr ⟨fields, other, rfl, rfl, hkeys, hagree⟩

theorem level_of_sameBut {formSpec : FormSpec} {v w : Value} (h : SameBut (secretIds formSpec) v w)
    (key : String) : Level key (v, formSpec) (w, formSpec) := by
  refine ⟨rfl, Iff.rfl, ?_, get_eq_of_sameBut h⟩
  rcases h with rfl | ⟨fields, other, rfl, rfl, hkeys, -⟩
  · rfl
  · exact hkeys key

theorem mem_secretIds_injectField (h : name ∈ secretIds given.2) :
    name ∈ secretIds (injectField found key isSecret given).2 := by
  cases found with
  | none => exact h
  | some text => exact mem_secretIds_pushSyntheticQuestion.mpr (.inl h)

/-- Fields from two answers that agree on what is not secret show no difference of their own. -/
theorem visible_answers_iff {answers answers' : Value} {fields : List (String × Bool)}
    (hnodup : (fields.map Prod.fst).Nodup) (hobject : IsObject given.1) (hobject' : IsObject given'.1)
    (hlevel : ∀ field ∈ fields, Level field.1 given given')
    (hfound : ∀ field ∈ fields, field.1 ∉ secretIds given.2 →
      settingText answers field.1 = settingText answers' field.1) :
    (∀ name,
      visible (fields.foldl (fun given field =>
          injectField (settingText answers field.1) field.1 field.2 given) given) name
        = visible (fields.foldl (fun given field =>
          injectField (settingText answers' field.1) field.1 field.2 given) given') name)
      ↔ ∀ name, visible given name = visible given' name := by
  induction fields generalizing given given' with
  | nil => exact Iff.rfl
  | cons field fields ih =>
    rw [List.map_cons, List.nodup_cons] at hnodup
    have hfresh : ∀ other ∈ fields, other.1 ≠ field.1 := fun other hother heq =>
      hnodup.1 (heq ▸ List.mem_map_of_mem hother)
    have hhead := hlevel field List.mem_cons_self
    rw [List.foldl_cons, List.foldl_cons, ih hnodup.2 (isObject_injectField hobject)
      (isObject_injectField hobject')]
    · constructor
      · intro h name
        by_cases hname : name = field.1
        · subst hname
          exact hhead.visible_eq
        · rw [← visible_injectField_of_ne hobject hname, h name, visible_injectField_of_ne hobject' hname]
      · intro h name
        by_cases hname : name = field.1
        · subst hname
          exact visible_injectField_congr hhead hobject hobject' (hfound field List.mem_cons_self)
        · rw [visible_injectField_of_ne hobject hname, visible_injectField_of_ne hobject' hname, h name]
    · intro other hother
      exact (hlevel other (List.mem_cons_of_mem field hother)).injectField hobject hobject'
        (hfresh other hother)
    · intro other hother hkey
      exact hfound other (List.mem_cons_of_mem field hother) fun hmem =>
        hkey (mem_secretIds_injectField hmem)

/-- A provider has one alias at most. It is secret, and none of the fields of Slack. -/
theorem aliasesOf_cases (providerId : String) :
    aliasesOf providerId = []
      ∨ ∃ entry, aliasesOf providerId = [entry] ∧ entry.isSecret = true
        ∧ entry.dstKey ∉ slackFields.map Prod.fst := by
  unfold aliasesOf
  cases hfind : providerSecretAliases.find? fun entry => entry.1 == providerId with
  | none => exact .inl rfl
  | some entry =>
    right
    have hmem := List.mem_of_find?_eq_some hfind
    simp only [providerSecretAliases, List.mem_cons, List.not_mem_nil, or_false] at hmem
    rcases hmem with rfl | rfl | rfl | rfl
    all_goals exact ⟨_, rfl, rfl, by decide⟩

/-- The configuration and the form with the aliases of a provider. -/
def aliasedFor (providerId : String) (formSpec : FormSpec) (config : Value) : Value × FormSpec :=
  (aliasesOf providerId).foldl
    (fun given entry => injectField (settingText given.1 entry.srcKey) entry.dstKey entry.isSecret given)
    (config, formSpec)

theorem injectProviderAliases_eq (providerId : String) (config : Value) (formSpec : FormSpec)
    (answers : Value) :
    injectProviderAliases providerId config formSpec answers
      = (if providerId = "messaging-slack" then slackFields else []).foldl
          (fun given field => injectField (settingText answers field.1) field.1 field.2 given)
          (aliasedFor providerId formSpec config) := by
  unfold injectProviderAliases aliasedFor aliasesOf
  dsimp only
  split
  · rfl
  · rfl

theorem isObject_aliasedFor {providerId : String} {formSpec : FormSpec} {config : Value}
    (h : IsObject config) : IsObject (aliasedFor providerId formSpec config).1 := by
  unfold aliasedFor
  rcases aliasesOf_cases providerId with hnone | ⟨entry, hone, -, -⟩
  · rw [hnone]
    exact h
  · rw [hone]
    exact isObject_injectField h

theorem isObject_answers {answers : Value} (fields : List (String × Bool)) (h : IsObject given.1) :
    IsObject (fields.foldl (fun given field =>
      injectField (settingText answers field.1) field.1 field.2 given) given).1 := by
  induction fields generalizing given with
  | nil => exact h
  | cons field fields ih => exact ih (isObject_injectField h)

theorem isObject_injected {providerId : String} {config answers : Value} {formSpec : FormSpec} (h : IsObject config) :
    IsObject (injectProviderAliases providerId config formSpec answers).1 := by
  rw [injectProviderAliases_eq]
  exact isObject_answers _ (isObject_aliasedFor h)

section Pair

variable {providerId : String} {formSpec : FormSpec} {config other : Value}

/-- The names of Slack's fields are level once the aliases are injected. -/
theorem level_aliasedFor (h : SameBut (secretIds formSpec) config other) (hobject : IsObject config)
    (hobject' : IsObject other) (hkey : key ∈ slackFields.map Prod.fst) :
    Level key (aliasedFor providerId formSpec config) (aliasedFor providerId formSpec other) := by
  have hlevel := level_of_sameBut h key
  unfold aliasedFor
  rcases aliasesOf_cases providerId with hnone | ⟨entry, hone, -, hdst⟩
  · rw [hnone]
    exact hlevel
  · rw [hone]
    exact hlevel.injectField hobject hobject' fun heq => hdst (heq ▸ hkey)

/-- **The aliases** show no difference exactly where they leave no trace. -/
theorem visible_aliasedFor_iff (h : SameBut (secretIds formSpec) config other) (hobject : IsObject config)
    (hobject' : IsObject other) :
    (∀ name, visible (aliasedFor providerId formSpec config) name
        = visible (aliasedFor providerId formSpec other) name)
      ↔ NoTrace providerId formSpec config other := by
  have hlevel := level_of_sameBut h
  unfold aliasedFor NoTrace
  rcases aliasesOf_cases providerId with hnone | ⟨entry, hone, hsecret, -⟩
  · rw [hnone]
    exact iff_of_true (fun name => (hlevel name).visible_eq) nofun
  · rw [hone]
    simp only [List.foldl_cons, List.foldl_nil, List.mem_singleton, forall_eq]
    have hothers : ∀ name, name ≠ entry.dstKey →
        visible (injectField (settingText config entry.srcKey) entry.dstKey entry.isSecret
            (config, formSpec)) name
          = visible (injectField (settingText other entry.srcKey) entry.dstKey entry.isSecret
            (other, formSpec)) name := by
      intro name hname
      rw [visible_injectField_of_ne hobject hname, visible_injectField_of_ne hobject' hname]
      exact (hlevel name).visible_eq
    by_cases hkey : entry.dstKey ∈ secretIds formSpec
    · refine iff_of_true (fun name => ?_) fun hnot => absurd hkey hnot
      by_cases hname : name = entry.dstKey
      · rw [hname]
        exact visible_injectField_congr (hlevel _) hobject hobject' fun hnot => absurd hkey hnot
      · exact hothers name hname
    · rw [hsecret] at hothers ⊢
      have hcopy := visible_copy_iff (settingText config entry.srcKey) (settingText other entry.srcKey)
        (hlevel entry.dstKey) hobject hobject' hkey
      constructor
      · intro hall _
        obtain ⟨hcopied, hhidden⟩ := hcopy.mp (hall entry.dstKey)
        exact ⟨hcopied, hhidden⟩
      · intro htrace name
        by_cases hname : name = entry.dstKey
        · rw [hname]
          exact hcopy.mpr ⟨(htrace hkey).copied, (htrace hkey).hidden⟩
        · exact hothers name hname

end Pair

/-! ## What is persisted -/

theorem filteredConfig_object (fields : List (String × Value)) (formSpec : FormSpec) :
    filteredConfig (.object fields) formSpec
      = .object (fields.filter fun field => !(secretIds formSpec).contains field.1) := by
  unfold filteredConfig
  split
  next hnil => simp [hnil]
  next => rfl

theorem filteredConfig_of_not_object {v : Value} (h : v.asObject = none) (formSpec : FormSpec) :
    filteredConfig v formSpec = v := by
  unfold filteredConfig
  cases v with
  | object fields => cases h
  | _ => exact ite_self _

/-- What persisting lets through of two objects is compared name by name. -/
theorem filteredConfig_eq_iff (hobject : IsObject given.1) (hobject' : IsObject given'.1) :
    filteredConfig given.1 given.2 = filteredConfig given'.1 given'.2
      ↔ ∀ name, visible given name = visible given' name := by
  obtain ⟨config, formSpec⟩ := given
  obtain ⟨config', formSpec'⟩ := given'
  obtain ⟨fields, rfl, hordered⟩ := hobject
  obtain ⟨fields', rfl, hordered'⟩ := hobject'
  have hlookup : ∀ (fields : List (String × Value)) (formSpec : FormSpec) (name : String),
      (fields.filter fun field => !(secretIds formSpec).contains field.1).lookup name
        = visible (.object fields, formSpec) name := by
    intro fields formSpec name
    rw [@SortedMap.lookup_filter _ _ _ _ _ fun key => !(secretIds formSpec).contains key]
    unfold visible
    by_cases hname : name ∈ secretIds formSpec
    · simp [hname]
    · simp [hname, Value.get]
  rw [filteredConfig_object, filteredConfig_object, Value.object.injEq]
  constructor
  · intro h name
    rw [← hlookup, ← hlookup, h]
  · intro h
    refine SortedMap.Ordered.ext (SortedMap.ordered_filter _ hordered)
      (SortedMap.ordered_filter _ hordered') fun name => ?_
    rw [hlookup, hlookup, h]

/-- Settings that are no object get nothing injected. -/
theorem injectProviderAliases_of_not_object {config : Value} (h : config.asObject = none)
    (providerId : String) (formSpec : FormSpec) (answers : Value) :
    (injectProviderAliases providerId config formSpec answers).1 = config := by
  have hstep : ∀ (found : Option String) (key : String) (isSecret : Bool) (given : Value × FormSpec),
      given.1 = config → (injectField found key isSecret given).1 = config := by
    intro found key isSecret given hgiven
    cases found with
    | none => exact hgiven
    | some text =>
      show orInsert key text given.1 = config
      rw [hgiven]
      cases config with
      | object fields => cases h
      | _ => rfl
  rw [injectProviderAliases_eq]
  have haliased : (aliasedFor providerId formSpec config).1 = config := by
    unfold aliasedFor
    rcases aliasesOf_cases providerId with hnone | ⟨entry, hone, -, -⟩
    · rw [hnone]
      rfl
    · rw [hone]
      exact hstep _ _ _ _ rfl
  split
  · exact hstep _ _ _ _ (hstep _ _ _ _ haliased)
  · exact haliased

/-- Two submissions are persisted alike exactly where what is let through of them is the same. -/
theorem keepsSecrets_iff_filtered {providerId : String} {formSpec : FormSpec} {s t : Submitted} :
    KeepsSecrets providerId formSpec s t
      ↔ filteredConfig (injectProviderAliases providerId s.config.value formSpec s.answers.value).1
            (injectProviderAliases providerId s.config.value formSpec s.answers.value).2
          = filteredConfig (injectProviderAliases providerId t.config.value formSpec t.answers.value).1
            (injectProviderAliases providerId t.config.value formSpec t.answers.value).2 := by
  constructor
  · intro h
    -- An empty root whose write succeeds holds what was let through.
    have hrun := @h Unit _ ⟨id, fun _ => "", fun _ => ""⟩ (fun _ => ()) (.ok ()) ⟨"", none⟩
      ⟨fun _ => none, []⟩
    have henvelopes := congrArg (fun run => (run.2.envelopes ()).map ConfigEnvelope.config) hrun
    exact Option.some.inj henvelopes
  · intro h File _ digest path written pack root
    unfold persisted persistQaConfig
    dsimp only
    rw [h]

/-- Submissions that differ in the secrets of the form itself are persisted alike exactly where the copies of the
provider leave no trace. -/
theorem keepsSecrets_iff_of_sameBut {providerId : String} {formSpec : FormSpec} {s t : Submitted}
    (hconfig : SameBut (secretIds formSpec) s.config.value t.config.value)
    (hanswers : ∀ key, key ∉ secretIds formSpec → settingText s.answers.value key = settingText t.answers.value key) :
    KeepsSecrets providerId formSpec s t ↔ NoTrace providerId formSpec s.config.value t.config.value := by
  rw [keepsSecrets_iff_filtered]
  cases hs : s.config.value.asObject with
  | none =>
    have hsame : s.config.value = t.config.value := by
      rcases hconfig with heq | ⟨fields, other, hfields, -⟩
      · exact heq
      · rw [hfields] at hs
        cases hs
    rw [← hsame, injectProviderAliases_of_not_object hs, injectProviderAliases_of_not_object hs,
      filteredConfig_of_not_object hs, filteredConfig_of_not_object hs]
    exact iff_of_true rfl fun _ _ _ => ⟨fun _ _ => rfl, fun _ _ => rfl⟩
  | some fields =>
    have hobject : IsObject s.config.value := by
      cases hvalue : s.config.value with
      | object fields => exact ⟨fields, rfl, s.config.ordered fields hvalue⟩
      | _ => rw [hvalue] at hs; cases hs
    have hobject' : IsObject t.config.value := by
      rcases hconfig with heq | ⟨_, other, -, hother, -⟩
      · exact heq ▸ hobject
      · exact ⟨other, hother, t.config.ordered other hother⟩
    have hnames : ((if providerId = "messaging-slack" then slackFields else []).map Prod.fst).Nodup := by
      split <;> decide
    have hslack : ∀ field ∈ (if providerId = "messaging-slack" then slackFields else []),
        field.1 ∈ slackFields.map Prod.fst := by
      intro field hfield
      split at hfield
      · exact List.mem_map_of_mem hfield
      · cases hfield
    rw [injectProviderAliases_eq, injectProviderAliases_eq, filteredConfig_eq_iff, visible_answers_iff hnames
      (isObject_aliasedFor hobject) (isObject_aliasedFor hobject'), visible_aliasedFor_iff hconfig hobject hobject']
    · intro field hfield
      exact level_aliasedFor hconfig hobject hobject' (hslack field hfield)
    · intro field _ hkey
      refine hanswers field.1 fun hmem => hkey ?_
      unfold aliasedFor
      rcases aliasesOf_cases providerId with hnone | ⟨entry, hone, -, -⟩
      · rw [hnone]
        exact hmem
      · rw [hone]
        exact mem_secretIds_injectField hmem
    · exact isObject_answers _ (isObject_aliasedFor hobject)
    · exact isObject_answers _ (isObject_aliasedFor hobject')

/-- A list that is asked for is persisted as it was submitted. -/
theorem visible_injected {providerId : String} {formSpec : FormSpec} {config answers v : Value}
    (h : Shown key v (config, formSpec)) :
    visible (injectProviderAliases providerId config formSpec answers) key = some v := by
  rw [injectProviderAliases_eq]
  refine Shown.visible_eq (Shown.foldl _ _ (fun given field h => h.injectField) ?_)
  exact Shown.foldl _ _ (fun given entry h => h.injectField) h

/-- **An onboarding keeps secrets out of the plain configuration exactly** where the items of lists hold no other
secrets and the copies of its provider leave no trace. -/
theorem keepsSecrets_iff (providerId : String) (depth : Nat) (formSpec : FormSpec) (s t : Submitted)
    (h : SameButSecrets depth formSpec s t) :
    KeepsSecrets providerId formSpec s t
      ↔ AgreeOnPlain formSpec s.config.value t.config.value
        ∧ NoTrace providerId formSpec s.config.value t.config.value := by
  have hanswers : ∀ key, key ∉ secretIds formSpec → settingText s.answers.value key = settingText t.answers.value key :=
    fun key hkey => settingText_eq_of_differ h.answers hkey
  by_cases hagree : AgreeOnPlain formSpec s.config.value t.config.value
  · rw [keepsSecrets_iff_of_sameBut (sameBut_of_agree h.config hagree) hanswers]
    exact (and_iff_right hagree).symm
  · refine iff_of_false (fun hkeeps => hagree fun key hkey => ?_) fun hboth => hagree hboth.1
    rcases get_cases h.config hkey with heq | ⟨hasked, items, items', hitems, hitems'⟩
    · exact heq
    · -- Both are objects, and what is let through of them shows the lists.
      have hshown : ∀ (config : Settings) (items : List Value), config.value.get key = some (.array items) →
          Shown key (.array items) (config.value, formSpec) := by
        intro config items hget
        refine ⟨?_, hasked, hkey, hget⟩
        cases hvalue : config.value with
        | object fields => exact ⟨fields, rfl, config.ordered fields hvalue⟩
        | _ => rw [hvalue] at hget; cases hget
      have hs := hshown s.config items hitems
      have ht := hshown t.config items' hitems'
      have hnames := (filteredConfig_eq_iff (isObject_injected hs.object) (isObject_injected ht.object)).mp
        (keepsSecrets_iff_filtered.mp @hkeeps) key
      rw [visible_injected hs, visible_injected ht] at hnames
      rw [hitems, hitems', hnames]

/-! ## A token in the plain configuration -/

/-- A form that asks for the token of a bot, which is secret, and for the name of its copy, which is
not marked as secret. -/
def copyAsked : FormSpec where
  questions := [⟨"bot_token", true, []⟩, ⟨"telegram_bot_token", false, []⟩]

def tokenSettings (token : String) : Settings where
  value := .object [("bot_token", .string token)]
  ordered fields h := by
    cases h
    exact List.pairwise_singleton _ _

def tokenSubmitted (token : String) : Submitted := ⟨tokenSettings token, tokenSettings token⟩

/-- Objects of one field whose name is secret differ in a secret. -/
theorem differ_of_secret {questions : List Question} {name : String}
    (hname : name ∈ (questions.filter (·.secret)).map (·.id)) (depth : Nat) (v w : Value) :
    DifferInSecrets (depth + 1) questions (.object [(name, v)]) (.object [(name, w)]) := by
  refine .inr ⟨_, _, rfl, rfl, fun key => ?_, fun key hkey => .inl ?_⟩
  · by_cases h : key = name
    · simp [h]
    · simp [List.lookup_cons, beq_eq_false_iff_ne.mpr h]
  · have hne : key ≠ name := fun heq => hkey (heq ▸ hname)
    simp [List.lookup_cons, beq_eq_false_iff_ne.mpr hne]

theorem same_tokens (token other : String) :
    SameButSecrets 1 copyAsked (tokenSubmitted token) (tokenSubmitted other) :=
  ⟨differ_of_secret (by decide) 0 _ _, differ_of_secret (by decide) 0 _ _⟩

/-- A form that asks for accounts, each with a token, which is secret. -/
def accountsAsked : FormSpec where
  questions := [⟨"accounts", false, [⟨"token", true, []⟩]⟩]

def accountSettings (token : String) : Settings where
  value := .object [("accounts", .array [.object [("token", .string token)]])]
  ordered fields h := by
    cases h
    exact List.pairwise_singleton _ _

def accountSubmitted (token : String) : Submitted := ⟨accountSettings token, accountSettings token⟩

theorem same_accounts (token other : String) :
    SameButSecrets 2 accountsAsked (accountSubmitted token) (accountSubmitted other) := by
  have hsettings : DifferInSecrets 2 accountsAsked.questions (accountSettings token).value
      (accountSettings other).value := by
    refine .inr ⟨_, _, rfl, rfl, fun key => ?_, fun key _ => ?_⟩
    · by_cases h : key = "accounts"
      · simp [h]
      · simp [List.lookup_cons, beq_eq_false_iff_ne.mpr h]
    · by_cases h : key = "accounts"
      · subst h
        exact .inr ⟨_, List.mem_singleton_self _, rfl, _, _, rfl, rfl,
          .cons (differ_of_secret (by decide) 0 _ _) .nil⟩
      · exact .inl (by simp [List.lookup_cons, beq_eq_false_iff_ne.mpr h])
  exact ⟨hsettings, hsettings⟩

/-- The token of a bot is written in plain under the name of its copy, and the tokens of accounts in their list. -/
theorem token_is_written :
    (¬∀ (providerId : String) (depth : Nat) (formSpec : FormSpec) (s t : Submitted),
      SameButSecrets depth formSpec s t → KeepsSecrets providerId formSpec s t)
    ∧ SameButSecrets 2 accountsAsked (accountSubmitted "one") (accountSubmitted "two")
    ∧ ¬KeepsSecrets "messaging-telegram" accountsAsked (accountSubmitted "one") (accountSubmitted "two") := by
  have hcopy : ¬KeepsSecrets "messaging-telegram" copyAsked (tokenSubmitted "one") (tokenSubmitted "two") := by
    intro hkeeps
    have hcopied := congrArg (fun v => (v.get "telegram_bot_token").bind Value.asStr)
      (keepsSecrets_iff_filtered.mp @hkeeps)
    exact absurd hcopied (by decide)
  refine ⟨fun h => hcopy (h _ _ _ _ _ (same_tokens "one" "two")), same_accounts "one" "two", fun hkeeps => ?_⟩
  have hlisted := congrArg (fun v => ((v.pointer "/accounts/0/token").bind Value.asStr))
    (keepsSecrets_iff_filtered.mp @hkeeps)
  exact absurd hlisted (by decide)

/-- A form that asks for the token alone. -/
def tokenAsked : FormSpec where
  questions := [⟨"bot_token", true, []⟩]

/-- Two submissions that differ in the token leave the same configuration where its copy is not asked for. -/
theorem tokens_kept : KeepsSecrets "messaging-telegram" tokenAsked (tokenSubmitted "one") (tokenSubmitted "two") := by
  refine (keepsSecrets_iff "messaging-telegram" 1 tokenAsked (tokenSubmitted "one") (tokenSubmitted "two")
    ⟨differ_of_secret (by decide) 0 _ _, differ_of_secret (by decide) 0 _ _⟩).mpr ⟨fun key hkey => ?_, ?_⟩
  · have hne : key ≠ "bot_token" := fun heq => hkey (heq ▸ by decide)
    simp [tokenSubmitted, tokenSettings, Value.get, List.lookup_cons, beq_eq_false_iff_ne.mpr hne]
  · intro entry hentry _
    obtain rfl : entry = ⟨"bot_token", "telegram_bot_token", true⟩ := List.mem_singleton.mp hentry
    exact ⟨fun hasked => absurd hasked (by decide), fun _ hthere => absurd rfl hthere⟩

end Onboard
