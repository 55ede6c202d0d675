import GreenticOperator.Laws.Wizard.Assignments
import GreenticOperator.Wizard.Providers

/-!
# The provider registry, over runs of its calls

A call edits the first entry of each id it names, in its field `enabled` and, where it registers
packs, `ref`; an id is added by the calls that enable it. So over any calls everything else of the
file stays in its place, the first entry of an id is as the last call that names it asks for, the
count of a call is that of the entries it changes or adds, and a call made again does nothing
(`registry_over_calls`). A second entry of an id stays as it is (`second_entry_stays_enabled`).
-/

namespace Wizard

open Json Json.Value
open FirstMatch

variable {α : Type}

/-! ## Fields of an entry -/

/-- A value without some of the fields. -/
def without (names : List String) : Value → Value
  | object fields => object (fields.filter fun field => !names.contains field.1)
  | other => other

theorem without_mono {names more : List String} (hsub : names ⊆ more) {v w : Value} (h : without names v = without names w) :
    without more v = without more w := by
  have hmore : ∀ u, without more (without names u) = without more u := by
    intro u
    cases u with
    | object fields =>
      show object _ = object _
      rw [List.filter_filter]
      congr 2
      funext field
      by_cases hmem : field.1 ∈ names
      · simp [hmem, hsub hmem]
      · simp [hmem]
    | _ => rfl
  rw [← hmore v, h, hmore w]

theorem exists_object_of_entryId {entry : Value} {id : String} (h : entryId entry = some id) :
    ∃ fields, entry = object fields := by
  cases entry with
  | object fields => exact ⟨fields, rfl⟩
  | _ => cases h

theorem get_setField {fields : List (String × Value)} (name : String) (v : Value) (key : String) :
    (setField name v (object fields)).get key = if key = name then some v else (object fields).get key :=
  lookup_insertField key name v fields

theorem filter_insertField {keep : String × Value → Bool} {name : String} (h : ∀ v, keep (name, v) = false) (v : Value)
    (fields : List (String × Value)) : (insertField name v fields).filter keep = fields.filter keep := by
  have hdrop : ∀ (v : Value) (rest : List (String × Value)), ((name, v) :: rest).filter keep = rest.filter keep :=
    fun v rest => List.filter_cons_of_neg (by rw [h]; nofun)
  induction fields with
  | nil => exact hdrop v []
  | cons field fields ih =>
    obtain ⟨other, w⟩ := field
    unfold insertField
    split
    next heq =>
      subst heq
      rw [hdrop, hdrop]
    next =>
      split
      next => exact hdrop v _
      next => rw [List.filter_cons, List.filter_cons, ih]

theorem insertField_self (name : String) (v w : Value) (rest : List (String × Value)) :
    insertField name v ((name, w) :: rest) = (name, v) :: rest := by
  unfold insertField
  exact if_pos rfl

theorem insertField_of_lt {name other : String} (h : name < other) (v w : Value) (rest : List (String × Value)) :
    insertField name v ((other, w) :: rest) = (name, v) :: (other, w) :: rest := by
  unfold insertField
  rw [if_neg (ne_of_lt h), if_pos h]

theorem insertField_of_gt {name other : String} (h : other < name) (v w : Value) (rest : List (String × Value)) :
    insertField name v ((other, w) :: rest) = (other, w) :: insertField name v rest := by
  rw [insertField, if_neg (ne_of_gt h), if_neg (lt_asymm h)]

theorem insertField_again (name : String) (v : Value) (fields : List (String × Value)) :
    insertField name v (insertField name v fields) = insertField name v fields := by
  induction fields with
  | nil => simp [insertField]
  | cons field fields ih =>
    obtain ⟨other, w⟩ := field
    by_cases heq : name = other
    · simp [insertField, heq]
    · by_cases hlt : name < other
      · simp [insertField, heq, hlt]
      · simp [insertField, heq, hlt, ih]

theorem without_setField {names : List String} {name : String} (h : name ∈ names) (v entry : Value) :
    without names (setField name v entry) = without names entry := by
  cases entry with
  | object fields => exact congrArg object (filter_insertField (fun w => by simp [h]) v fields)
  | _ => rfl

theorem entryId_setField {name : String} (h : name ≠ "id") (v : Value) {entry : Value} :
    entryId (setField name v entry) = entryId entry := by
  cases entry with
  | object fields =>
    unfold entryId
    rw [get_setField, if_neg (Ne.symm h)]
  | _ => rfl

theorem entryEnabled_setField_enabled (b : Bool) {fields : List (String × Value)} :
    entryEnabled (setField "enabled" (bool b) (object fields)) = b := by
  unfold entryEnabled
  rw [get_setField, if_pos rfl]
  rfl

theorem get_newEntry (id reference key : String) : (newEntry id reference).get key
    = [("id", string id), ("ref", string reference), ("enabled", bool true)].lookup key :=
  get_ofFields (by simp) key

theorem entryId_newEntry (id reference : String) : entryId (newEntry id reference) = some id := by
  simp [entryId, get_newEntry, asStr]

theorem entryRef_newEntry (id reference : String) : entryRef (newEntry id reference) = reference := by
  simp [entryRef, get_newEntry, asStr, List.lookup_cons]

theorem entryEnabled_newEntry (id reference : String) : entryEnabled (newEntry id reference) = true := by
  simp [entryEnabled, get_newEntry, asBool, List.lookup_cons]

/-- A new entry, its fields in their order. -/
theorem newEntry_eq (id reference : String) :
    newEntry id reference = object [("enabled", bool true), ("id", string id), ("ref", string reference)] := by
  have href : ("id" : String) < "ref" := by decide
  have henabled : ("enabled" : String) < "id" := by decide
  unfold newEntry ofFields
  rw [List.foldl_cons, List.foldl_cons, List.foldl_cons, List.foldl_nil, insertField, insertField_of_gt href,
    insertField, insertField_of_lt henabled]

/-- A new entry with another reference is the new entry of that. -/
theorem setField_newEntry (id reference other : String) :
    setField "enabled" (bool true) (setField "ref" (string other) (newEntry id reference)) = newEntry id other := by
  have hid : ("id" : String) < "ref" := by decide
  have henabled : ("enabled" : String) < "ref" := by decide
  rw [newEntry_eq, newEntry_eq]
  unfold setField
  dsimp only
  rw [insertField_of_gt henabled, insertField_of_gt hid, insertField_self, insertField_self]

/-! ## The edits are lawful -/

theorem lawful_registerPack (pack : ResolvedPackInfo α) :
    (registerPack pack).Lawful entryId (without ["ref", "enabled"]) := by
  have hchange : ∀ {entry changed : Value}, (registerPack pack).change entry = some changed →
      changed = setField "enabled" (bool true) (setField "ref" (string pack.sourceRef) entry) := by
    intro entry changed h
    unfold registerPack at h
    dsimp only at h
    split at h
    · exact (Option.some.inj h).symm
    · cases h
  refine ⟨fun _ h => ?_, fun _ h => ?_, fun hkey h => ?_, fun h => ?_, fun h => ?_⟩
  · rw [hchange h, entryId_setField (by decide), entryId_setField (by decide)]
  · rw [hchange h, without_setField (by decide), without_setField (by decide)]
  · obtain ⟨fields, rfl⟩ := exists_object_of_entryId hkey
    rw [hchange h]
    have hset : setField "ref" (string pack.sourceRef) (object fields)
        = object (insertField "ref" (string pack.sourceRef) fields) := rfl
    have href : entryRef (setField "enabled" (bool true) (setField "ref" (string pack.sourceRef) (object fields)))
        = pack.sourceRef := by
      unfold entryRef
      rw [hset, get_setField, if_neg (by decide), ← hset, get_setField, if_pos rfl]
      rfl
    unfold registerPack
    dsimp only
    rw [href, hset, entryEnabled_setField_enabled, if_neg (by simp)]
  · cases h
    exact entryId_newEntry _ _
  · cases h
    unfold registerPack
    dsimp only
    rw [entryRef_newEntry, entryEnabled_newEntry, if_neg (by simp)]

theorem lawful_enableProvider (id : String) : (enableProvider id).Lawful entryId (without ["enabled"]) := by
  have hchange : ∀ {entry changed : Value}, (enableProvider id).change entry = some changed →
      changed = setField "enabled" (bool true) entry := by
    intro entry changed h
    unfold enableProvider at h
    dsimp only at h
    split at h
    · cases h
    · exact (Option.some.inj h).symm
  refine ⟨fun _ h => ?_, fun _ h => ?_, fun hkey h => ?_, fun h => ?_, fun h => ?_⟩
  · rw [hchange h, entryId_setField (by decide)]
  · rw [hchange h, without_setField (by decide)]
  · obtain ⟨fields, rfl⟩ := exists_object_of_entryId hkey
    rw [hchange h]
    unfold enableProvider
    dsimp only
    rw [entryEnabled_setField_enabled, if_pos rfl]
  · cases h
    exact entryId_newEntry _ _
  · cases h
    unfold enableProvider
    dsimp only
    rw [entryEnabled_newEntry, if_pos rfl]

theorem lawful_disableProvider (id : String) : (disableProvider id).Lawful entryId (without ["enabled"]) := by
  have hchange : ∀ {entry changed : Value}, (disableProvider id).change entry = some changed →
      changed = setField "enabled" (bool false) entry := by
    intro entry changed h
    unfold disableProvider at h
    dsimp only at h
    split at h
    · exact (Option.some.inj h).symm
    · cases h
  refine ⟨fun _ h => ?_, fun _ h => ?_, fun hkey h => ?_, nofun, nofun⟩
  · rw [hchange h, entryId_setField (by decide)]
  · rw [hchange h, without_setField (by decide)]
  · obtain ⟨fields, rfl⟩ := exists_object_of_entryId hkey
    rw [hchange h]
    unfold disableProvider
    dsimp only
    rw [entryEnabled_setField_enabled, if_neg (by decide)]

/-! ## Calls -/

inductive RegistryCall (α : Type)
  | upsertProviderRegistry (packs : List (ResolvedPackInfo α))
  | upsertProviderIds (providerIds : List String)
  | removeProviderIds (providerIds : List String)

namespace RegistryCall

def perform (path : String) : RegistryCall α → Eff RegistryFile Nat
  | upsertProviderRegistry packs => Wizard.upsertProviderRegistry path packs
  | upsertProviderIds providerIds => Wizard.upsertProviderIds path providerIds
  | removeProviderIds providerIds => do
    let (updates, _) ← Wizard.removeProviderIds path providerIds
    return updates

def edits : RegistryCall α → List (Edit String Value)
  | upsertProviderRegistry packs => packs.map registerPack
  | upsertProviderIds providerIds => (trimmedIds providerIds).map enableProvider
  | removeProviderIds providerIds => (trimmedIds providerIds).map disableProvider

/-- The ids that a call names. -/
def touched (call : RegistryCall α) : List String := call.edits.map (·.key)

/-- What a call asks the field `enabled` to be. -/
def asks : RegistryCall α → Bool
  | upsertProviderRegistry _ | upsertProviderIds _ => true
  | removeProviderIds _ => false

/-- The fields that a call may set. -/
def fields : RegistryCall α → List String
  | upsertProviderRegistry _ => ["ref", "enabled"]
  | upsertProviderIds _ | removeProviderIds _ => ["enabled"]

/-- Nothing is asked for. -/
def isEmpty : RegistryCall α → Bool
  | upsertProviderRegistry packs => packs.isEmpty
  | upsertProviderIds providerIds | removeProviderIds providerIds => providerIds.isEmpty

/-- Packs of one id have one reference. -/
def OneRef : RegistryCall α → Prop
  | upsertProviderRegistry packs => ∀ a ∈ packs, ∀ b ∈ packs, a.packId = b.packId → a.sourceRef = b.sourceRef
  | _ => True

theorem lawful_edits (call : RegistryCall α) : ∀ edit ∈ call.edits, edit.Lawful entryId (without call.fields) := by
  intro edit hedit
  cases call with
  | upsertProviderRegistry packs =>
    obtain ⟨pack, -, rfl⟩ := List.mem_map.mp hedit
    exact lawful_registerPack pack
  | upsertProviderIds providerIds =>
    obtain ⟨id, -, rfl⟩ := List.mem_map.mp hedit
    exact lawful_enableProvider id
  | removeProviderIds providerIds =>
    obtain ⟨id, -, rfl⟩ := List.mem_map.mp hedit
    exact lawful_disableProvider id

theorem oneEach_edits {call : RegistryCall α} (h : call.OneRef) : OneEach call.edits := by
  intro a ha b hb hkey
  cases call with
  | upsertProviderRegistry packs =>
    obtain ⟨pack, hpack, rfl⟩ := List.mem_map.mp ha
    obtain ⟨other, hother, rfl⟩ := List.mem_map.mp hb
    have hid : pack.packId = other.packId := hkey
    unfold registerPack
    rw [h pack hpack other hother hid, hid]
  | upsertProviderIds providerIds =>
    obtain ⟨id, -, rfl⟩ := List.mem_map.mp ha
    obtain ⟨other, -, rfl⟩ := List.mem_map.mp hb
    exact congrArg enableProvider hkey
  | removeProviderIds providerIds =>
    obtain ⟨id, -, rfl⟩ := List.mem_map.mp ha
    obtain ⟨other, -, rfl⟩ := List.mem_map.mp hb
    exact congrArg disableProvider hkey

end RegistryCall

/-! ## One call -/

/-- The file has an object with these providers, besides its other fields. -/
def HasProviders (file : RegistryFile) (others : List (String × Value)) (entries : List Value) : Prop :=
  ∃ fields, file = some (.ok (object fields)) ∧ fields.lookup "providers" = some (array entries)
    ∧ fields.filter (fun field => field.1 != "providers") = others

/-- An id is left as it was asked for: its entry is, and there is one where it is to be enabled. -/
def LeftAs (asked : Bool) (entry : Option Value) : Prop :=
  match entry with
  | some entry => entryEnabled entry = asked
  | none => asked = false

section Call

variable {path : String} {file : RegistryFile} {others : List (String × Value)} {entries : List Value}

theorem editProviders_run {fields : List (String × Value)} (h : fields.lookup "providers" = some (array entries))
    (edits : List (Edit String Value)) : (editProviders path edits).run (some (.ok (object fields)))
      = (.ok ((applyAll entryId edits entries).updates, (applyAll entryId edits entries).absent),
        some (.ok (object (insertField "providers" (array (applyAll entryId edits entries).entries) fields)))) := by
  have hload : (loadProviderRegistryFile path).run (some (.ok (object fields)))
      = (.ok (object fields), some (.ok (object fields))) := rfl
  have hensure : ensureProviderArray path (object fields) = .ok (fields, entries) := by
    unfold ensureProviderArray
    dsimp only
    rw [h, Option.isSome_some, if_pos rfl, h]
  unfold editProviders
  rw [Eff.bind_run_of_ok hload, hensure, Eff.bind_lift_run_ok]
  rfl

theorem edits_of_isEmpty {call : RegistryCall α} (h : call.isEmpty = true) : call.edits = [] := by
  cases call with
  | upsertProviderRegistry packs =>
    rw [List.isEmpty_iff.mp h]
    rfl
  | upsertProviderIds providerIds =>
    rw [List.isEmpty_iff.mp h]
    rfl
  | removeProviderIds providerIds =>
    rw [List.isEmpty_iff.mp h]
    rfl

/-- A call edits the providers and writes the file, unless nothing is asked for. -/
theorem perform_run {fields : List (String × Value)} (h : fields.lookup "providers" = some (array entries))
    (call : RegistryCall α) : (call.perform path).run (some (.ok (object fields)))
      = if call.isEmpty then (.ok 0, some (.ok (object fields)))
        else (.ok (applyAll entryId call.edits entries).updates,
          some (.ok (object (insertField "providers" (array (applyAll entryId call.edits entries).entries) fields)))) := by
  cases call with
  | upsertProviderRegistry packs =>
    show (upsertProviderRegistry path packs).run _ = if packs.isEmpty then _ else _
    unfold upsertProviderRegistry
    split
    · rfl
    · rw [Eff.bind_run_of_ok (editProviders_run h _)]
      rfl
  | upsertProviderIds providerIds =>
    show (upsertProviderIds path providerIds).run _ = if providerIds.isEmpty then _ else _
    unfold upsertProviderIds
    split
    · rfl
    · rw [Eff.bind_run_of_ok (editProviders_run h _)]
      rfl
  | removeProviderIds providerIds =>
    show (removeProviderIds path providerIds >>= _).run _ = if providerIds.isEmpty then _ else _
    unfold removeProviderIds
    split
    · rfl
    · rw [Eff.bind_run, Eff.bind_read_run, if_neg (by simp), Eff.bind_run_of_ok (editProviders_run h _)]
      rfl

/-- **One call**: the count is that of the positions at which the providers differ afterwards, and the
call made again does nothing. -/
theorem HasProviders.perform (h : HasProviders file others entries) {call : RegistryCall α} (hone : call.OneRef)
    (path : String) : ∃ file', (call.perform path).run file
        = (.ok (differs entries (applyAll entryId call.edits entries).entries).ncard, file')
      ∧ HasProviders file' others (applyAll entryId call.edits entries).entries
      ∧ (call.perform path).run file' = (.ok 0, file') := by
  obtain ⟨fields, rfl, hproviders, hothers⟩ := h
  have hlawful := call.lawful_edits
  have heach := RegistryCall.oneEach_edits hone
  by_cases hempty : call.isEmpty = true
  · have hrun := @perform_run _ path _ _ hproviders call
    rw [if_pos hempty] at hrun
    rw [edits_of_isEmpty hempty]
    refine ⟨_, hrun.trans ?_, ⟨fields, rfl, hproviders, hothers⟩, hrun⟩
    show _ = (Except.ok (differs entries entries).ncard, _)
    rw [differs_self, Set.ncard_empty]
  · have hwritten : (insertField "providers" (array (applyAll entryId call.edits entries).entries) fields).lookup "providers"
        = some (array (applyAll entryId call.edits entries).entries) := by rw [lookup_insertField, if_pos rfl]
    have hrun := @perform_run _ path _ _ hproviders call
    have hagain := @perform_run _ path _ _ hwritten call
    rw [if_neg hempty] at hrun hagain
    obtain ⟨hentries, hupdates⟩ := @applyAll_again _ _ _ _ _ _ _ entries hlawful heach
    rw [(updates_applyAll hlawful heach).2] at hrun
    rw [hentries, hupdates, insertField_again] at hagain
    refine ⟨_, hrun, ⟨_, rfl, hwritten, ?_⟩, hagain⟩
    rw [filter_insertField (fun _ => by simp), hothers]

/-- The ids that a call names are left as it asks. -/
theorem leftAs_applyAll {call : RegistryCall α} (hone : call.OneRef) {id : String} (hid : id ∈ call.touched) :
    LeftAs call.asks (entryOf entryId id (applyAll entryId call.edits entries).entries) := by
  obtain ⟨edit, hedit, rfl⟩ := List.mem_map.mp hid
  have hsettled : Settled entryId edit (applyAll entryId call.edits entries).entries :=
    settled_applyAll call.lawful_edits (RegistryCall.oneEach_edits hone) edit hedit
  unfold Settled at hsettled
  unfold LeftAs
  generalize entryOf entryId edit.key (applyAll entryId call.edits entries).entries = found at hsettled ⊢
  cases call with
  | upsertProviderRegistry packs =>
    obtain ⟨pack, -, rfl⟩ := List.mem_map.mp hedit
    cases found with
    | none => cases hsettled
    | some entry =>
      show entryEnabled entry = true
      by_contra hdisabled
      have hfalse : entryEnabled entry = false := Bool.eq_false_iff.mpr hdisabled
      unfold registerPack at hsettled
      dsimp only at hsettled
      rw [if_pos (.inr hfalse)] at hsettled
      cases hsettled
  | upsertProviderIds providerIds =>
    obtain ⟨_, -, rfl⟩ := List.mem_map.mp hedit
    cases found with
    | none => cases hsettled
    | some entry =>
      show entryEnabled entry = true
      by_contra hdisabled
      unfold enableProvider at hsettled
      dsimp only at hsettled
      rw [if_neg hdisabled] at hsettled
      cases hsettled
  | removeProviderIds providerIds =>
    obtain ⟨_, -, rfl⟩ := List.mem_map.mp hedit
    cases found with
    | none => rfl
    | some entry =>
      show entryEnabled entry = false
      by_contra henabled
      have htrue : entryEnabled entry = true := Bool.eq_true_of_not_eq_false henabled
      unfold disableProvider at hsettled
      dsimp only at hsettled
      rw [if_pos htrue] at hsettled
      cases hsettled

end Call

/-! ## Calls one after another -/

/-- A call, as what it makes of the file. -/
def callOn (path : String) (call : RegistryCall α) (file : RegistryFile) : RegistryFile :=
  ((call.perform path).run file).2

/-- A call counts the entries that it changes or adds, and does nothing when it is made again. -/
def CountsRightly (path : String) (file : RegistryFile) (call : RegistryCall α) : Prop :=
  ∃ others before after file', HasProviders file others before ∧ HasProviders file' others after
    ∧ (call.perform path).run file = (.ok (differs before after).ncard, file')
    ∧ (call.perform path).run file' = (.ok 0, file')

/-- The providers after calls. -/
def providersAfter (calls : List (RegistryCall α)) (entries : List Value) : List Value :=
  calls.foldl (fun entries call => (applyAll entryId call.edits entries).entries) entries

theorem HasProviders.calls {path : String} {file : RegistryFile} {others : List (String × Value)} {entries : List Value}
    (h : HasProviders file others entries) {calls : List (RegistryCall α)} (hone : ∀ call ∈ calls, call.OneRef) :
    HasProviders (Run.run (callOn path) calls file) others (providersAfter calls entries)
      ∧ ∀ step ∈ Run.steps (callOn path) calls file, CountsRightly path step.1 step.2 := by
  induction calls generalizing file entries with
  | nil => exact ⟨h, nofun⟩
  | cons call calls ih =>
    obtain ⟨file', hrun, hfile', hagain⟩ := h.perform (hone call List.mem_cons_self) path
    have hcall : callOn path call file = file' := congrArg Prod.snd hrun
    obtain ⟨hlast, hsteps⟩ := @ih (callOn path call file) _ (hcall ▸ hfile')
      fun other hother => hone other (List.mem_cons_of_mem call hother)
    refine ⟨hlast, fun step hstep => ?_⟩
    rcases List.mem_cons.mp hstep with rfl | hstep
    · exact ⟨others, entries, _, file', h, hfile', hrun, hagain⟩
    · exact hsteps step hstep

theorem framed_providersAfter (calls : List (RegistryCall α)) (entries : List Value) :
    Framed entryId (without (calls.flatMap RegistryCall.fields)) (calls.flatMap RegistryCall.touched) entries
      (providersAfter calls entries) := by
  induction calls generalizing entries with
  | nil => exact .refl entries
  | cons call calls ih =>
    have hfirst := @framed_applyAll _ _ _ _ _ _ _ entries call.lawful_edits
    have hrest := ih (applyAll entryId call.edits entries).entries
    refine @Framed.trans _ _ _ _ _ _ _ (applyAll entryId call.edits entries).entries _ ⟨?_, ?_⟩ ⟨?_, ?_⟩
    · intro i entry hentry
      obtain ⟨entry', hentry', hid, hpart⟩ := hfirst.kept i entry hentry
      exact ⟨entry', hentry', hid, without_mono (List.subset_append_left _ _) hpart⟩
    · exact (hfirst.mono (List.subset_append_left call.touched (calls.flatMap RegistryCall.touched))).changed
    · intro i entry hentry
      obtain ⟨entry', hentry', hid, hpart⟩ := hrest.kept i entry hentry
      exact ⟨entry', hentry', hid, without_mono (List.subset_append_right _ _) hpart⟩
    · exact (hrest.mono (List.subset_append_right call.touched (calls.flatMap RegistryCall.touched))).changed

/-- An id is as the last call that names it asks for. -/
theorem leftAs_providersAfter {front back : List (RegistryCall α)} {call : RegistryCall α} (hone : call.OneRef)
    {id : String} (hid : id ∈ call.touched) (hlast : ∀ later ∈ back, id ∉ later.touched) (entries : List Value) :
    LeftAs call.asks (entryOf entryId id (providersAfter (front ++ call :: back) entries)) := by
  have hsplit : providersAfter (front ++ call :: back) entries
      = providersAfter back (applyAll entryId call.edits (providersAfter front entries)).entries := by
    unfold providersAfter
    rw [List.foldl_append, List.foldl_cons]
  have hback : id ∉ back.flatMap RegistryCall.touched := by
    intro hmem
    obtain ⟨later, hlater, hid'⟩ := List.mem_flatMap.mp hmem
    exact hlast later hlater hid'
  rw [hsplit, (framed_providersAfter back _).entryOf_of_not_mem hback]
  exact leftAs_applyAll hone hid

/-- **The provider registry, over calls**: whatever the calls, all else of the file stays, and of the
providers only the first entry of an id that a call names is changed or added, in the fields that the
calls set; an id is left as the last call that names it asks for, and every call counts rightly and does
nothing when it is made again. -/
theorem registry_over_calls {path : String} {file : RegistryFile} {others : List (String × Value)} {entries : List Value}
    (hfile : HasProviders file others entries) {calls : List (RegistryCall α)} (hone : ∀ call ∈ calls, call.OneRef) :
    ∃ after, HasProviders (Run.run (callOn path) calls file) others after
      ∧ Framed entryId (without (calls.flatMap RegistryCall.fields)) (calls.flatMap RegistryCall.touched) entries after
      ∧ (∀ front call back id, calls = front ++ call :: back → id ∈ call.touched →
        (∀ later ∈ back, id ∉ later.touched) → LeftAs call.asks (entryOf entryId id after))
      ∧ ∀ step ∈ Run.steps (callOn path) calls file, CountsRightly path step.1 step.2 := by
  obtain ⟨hlast, hsteps⟩ := @HasProviders.calls _ path _ _ _ hfile _ hone
  refine ⟨_, hlast, framed_providersAfter calls entries, ?_, hsteps⟩
  rintro front call back id rfl hid hback
  exact leftAs_providersAfter (hone call (List.mem_append_right _ List.mem_cons_self)) hid hback entries

/-- Packs as the assignment of ids returns them have one reference for each id. -/
theorem oneRef_of_grants {bundle : Disk.Path} {records : List PackMappingRecord} {packs assigned : List (ResolvedPackInfo α)}
    (h : Grants bundle records packs assigned) (hone : OneToOne records) :
    (RegistryCall.upsertProviderRegistry assigned).OneRef := by
  intro a ha b hb hid
  exact hone.recorded_apart (h.recorded a ha) (hid ▸ h.recorded b hb)

/-- A provider that is known, and what is neither that nor any other. -/
def knownChat : List Value := [object [("extra", null), ("id", string "chat")], null]

def chatFile : RegistryFile := some (.ok (object [("note", null), ("providers", array knownChat)]))

def chatCalls : List (RegistryCall Unit) :=
  [.upsertProviderRegistry [registryPack "repo://a/chat"], .upsertProviderIds [" chat ", "mail"], .removeProviderIds ["chat"]]

theorem registry_over_chatCalls :
    ∃ after, HasProviders (Run.run (callOn "providers.json") chatCalls chatFile) [("note", null)] after
      ∧ Framed entryId (without (chatCalls.flatMap RegistryCall.fields)) (chatCalls.flatMap RegistryCall.touched) knownChat after
      ∧ (∀ front call back id, chatCalls = front ++ call :: back → id ∈ call.touched →
        (∀ later ∈ back, id ∉ later.touched) → LeftAs call.asks (entryOf entryId id after))
      ∧ ∀ step ∈ Run.steps (callOn "providers.json") chatCalls chatFile, CountsRightly "providers.json" step.1 step.2 := by
  refine registry_over_calls ⟨_, rfl, rfl, by simp⟩ fun call hcall => ?_
  rcases List.mem_cons.mp hcall with rfl | hcall
  · intro a ha b hb _
    rw [List.mem_singleton.mp ha, List.mem_singleton.mp hb]
  · rcases List.mem_cons.mp hcall with rfl | hcall
    · exact trivial
    · rw [List.mem_singleton.mp hcall]
      exact trivial

/-- A pack under an id that another reference has too. -/
def chatPack (reference : String) : ResolvedPackInfo Unit := { registryPack reference with packId := "chat" }

def twoChats : List Value := [newEntry "chat" "repo://a/chat", newEntry "chat" "repo://b/chat"]

/-- The registry knows the second of the two packs. -/
def secondChat : RegistryFile := some (.ok (object [("providers", array [newEntry "chat" "repo://b/chat"])]))

/-- A second entry of an id stays enabled when the id is removed; and of two packs of one id with
references of their own each undoes the other: two updates are counted, each time, and nothing changes. -/
theorem second_entry_stays_enabled :
    (∃ after, HasProviders (callOn "providers.json" (.removeProviderIds ["chat"] : RegistryCall Unit)
        (some (.ok (object [("providers", array twoChats)])))) [] after
      ∧ ∃ entry ∈ after, entryId entry = some "chat" ∧ entryEnabled entry = true)
    ∧ ((RegistryCall.upsertProviderRegistry [chatPack "repo://a/chat", chatPack "repo://b/chat"]).perform
          "providers.json").run secondChat = (.ok 2, secondChat) := by
  constructor
  · have htrim : Text.trim "chat" = "chat" := by decide
    have hproviders : [("providers", array twoChats)].lookup "providers" = some (array twoChats) := by simp
    have hrun := @perform_run _ "providers.json" _ _ hproviders (.removeProviderIds ["chat"] : RegistryCall Unit)
    refine ⟨(applyAll entryId (RegistryCall.removeProviderIds (α := Unit) ["chat"]).edits twoChats).entries,
      ⟨_, congrArg Prod.snd hrun, ?_, ?_⟩, newEntry "chat" "repo://b/chat", ?_, entryId_newEntry _ _, entryEnabled_newEntry _ _⟩
    · rw [lookup_insertField, if_pos rfl]
    · rw [filter_insertField (fun _ => by simp)]
      simp
    · simp [RegistryCall.edits, trimmedIds, htrim, twoChats, applyAll, FirstMatch.apply, editFirst, disableProvider,
        entryId_newEntry, entryEnabled_newEntry]
  · have hproviders : [("providers", array [newEntry "chat" "repo://b/chat"])].lookup "providers"
        = some (array [newEntry "chat" "repo://b/chat"]) := by simp
    have hchange : ∀ reference other, reference ≠ other →
        (registerPack (chatPack other)).change (newEntry "chat" reference) = some (newEntry "chat" other) := by
      intro reference other hne
      unfold registerPack
      dsimp only
      rw [entryRef_newEntry, if_pos (.inl hne)]
      exact congrArg some (setField_newEntry "chat" reference other)
    have hstep : ∀ reference other, reference ≠ other →
        FirstMatch.apply entryId (registerPack (chatPack other)) [newEntry "chat" reference]
          = ⟨[newEntry "chat" other], 1, []⟩ := by
      intro reference other hne
      unfold FirstMatch.apply editFirst
      have hkey : (registerPack (chatPack other)).key = "chat" := rfl
      rw [entryId_newEntry, hkey, if_pos rfl, hchange reference other hne]
    refine (perform_run hproviders _).trans ?_
    show (Except.ok (applyAll entryId [registerPack (chatPack "repo://a/chat"), registerPack (chatPack "repo://b/chat")]
      _).updates, some (Except.ok (object (insertField _ (array (applyAll entryId
        [registerPack (chatPack "repo://a/chat"), registerPack (chatPack "repo://b/chat")] _).entries) _)))) = _
    unfold applyAll applyAll applyAll
    dsimp only
    rw [hstep _ _ (by decide)]
    dsimp only
    rw [hstep _ _ (by decide)]
    rw [insertField_self]
    rfl

end Wizard
