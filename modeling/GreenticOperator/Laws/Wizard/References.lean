import GreenticOperator.Laws.Wizard.Records

/-!
# The pack that a reference names

A plan names packs by ids. An id is found before the packs of the plan are added: from the records,
or else from the text of the reference alone (`KnownAs`). The reference is recorded when its pack is
added, under the first id that is free then. Where the two agree a selection is applied to the pack
of its reference, and nowhere else (`appliedRightly_iff`).
-/

namespace Wizard

open Disk Disk.Files

variable {α : Type}

/-- The records of a bundle; those that cannot be read are none. -/
def recordsIn (bundle : Path) (disk : Store α) : List PackMappingRecord :=
  (loadPacksMetadata bundle disk).toOption.getD []

/-- The id of the pack that a task is applied to, with the records that it finds. -/
def Task.packApplied (packsJson : PacksJson) : Task → Option String
  | .assignDefault assignment => (canonicalPackIdentifier packsJson assignment.packIdentifier).toOption
  | .removePack selection => (canonicalPackIdentifier packsJson selection.packIdentifier).toOption
  | .upsertPolicy _ rulePath _ => some rulePath
  | _ => none

theorem packApplied_assignDefault (packsJson : PacksJson) (assignment : PackDefaultSelection) :
    (Task.assignDefault assignment).packApplied packsJson
      = (canonicalPackIdentifier packsJson assignment.packIdentifier).toOption := rfl

theorem packApplied_removePack (packsJson : PacksJson) (selection : PackRemoveSelection) :
    (Task.removePack selection).packApplied packsJson
      = (canonicalPackIdentifier packsJson selection.packIdentifier).toOption := rfl

/-- The text by which a selection of a request names a pack, and the task that carries it out. -/
inductive Carries (mode : WizardMode) (request : WizardCreateRequest) (metadata : WizardPlanMetadata) :
    String → Task → Prop
  | default {selection normalized : PackDefaultSelection} :
    (selection, normalized) ∈ request.defaultAssignments.zip metadata.defaultAssignments →
    .assignDefault normalized ∈ tasksFor mode metadata →
    Carries mode request metadata selection.packIdentifier (.assignDefault normalized)
  | remove {selection normalized : PackRemoveSelection} :
    (selection, normalized) ∈ request.packsRemove.zip metadata.packsRemove →
    .removePack normalized ∈ tasksFor mode metadata →
    Carries mode request metadata selection.packIdentifier (.removePack normalized)
  | access {change normalized : Project.AccessChangeSelection} :
    (change, normalized) ∈ request.accessChanges.zip metadata.accessChanges →
    .upsertPolicy (normalized.tenantId, normalized.teamId) normalized.packId normalized.operation.policy
      ∈ tasksFor mode metadata →
    Carries mode request metadata change.packId
      (.upsertPolicy (normalized.tenantId, normalized.teamId) normalized.packId normalized.operation.policy)

/-- A text that is recorded as a reference, or can be nothing else. -/
def NamesReference (records : List PackMappingRecord) (text : String) : Prop :=
  (∃ id, Recorded records text id) ∨ isPlain text = false

/-- The pack of an id is the one that is recorded for a reference; for one without a record there is none. -/
def StoredUnder (records : List PackMappingRecord) (reference id : String) : Prop :=
  ∀ record ∈ records, record.originalRef = reference ↔ record.packId = id

/-- Every selection that names a reference is applied to the pack that is recorded for it. -/
def AppliedRightly (mode : WizardMode) (request : WizardCreateRequest) (metadata : WizardPlanMetadata)
    (records : List PackMappingRecord) : Prop :=
  ∀ named task, Carries mode request metadata named task → NamesReference records (Text.trim named) →
    ∀ packsJson id, task.packApplied packsJson = some id → StoredUnder records (Text.trim named) id

/-! ## What is known before the packs are added -/

/-- The id by which a text is known: a plain one is an id itself, and a reference has that of its record,
or without one that of its own text. -/
inductive KnownAs (records : List PackMappingRecord) (text : String) : String → Prop
  | plain : isPlain text = true → KnownAs records text text
  | recorded {id : String} : isPlain text = false → Recorded records text id → KnownAs records text id
  | derived : isPlain text = false → (∀ id, ¬Recorded records text id) →
    KnownAs records text (derivePackIdFromReference text)

theorem knownAs_unique {records : List PackMappingRecord} (h : WellKept records) {text id id' : String}
    (hid : KnownAs records text id) (hid' : KnownAs records text id') : id = id' := by
  cases hid with
  | plain hplain =>
    cases hid' with
    | plain => rfl
    | recorded hnot => exact absurd hplain (Bool.eq_false_iff.mp hnot)
    | derived hnot => exact absurd hplain (Bool.eq_false_iff.mp hnot)
  | recorded hnot hid =>
    cases hid' with
    | plain hplain => exact absurd hplain (Bool.eq_false_iff.mp hnot)
    | recorded _ hid' => exact h.oneToOne.recorded_inj hid hid'
    | derived _ hnone => exact absurd hid (hnone id)
  | derived hnot hnone =>
    cases hid' with
    | plain hplain => exact absurd hplain (Bool.eq_false_iff.mp hnot)
    | recorded _ hid' => exact absurd hid' (hnone id')
    | derived => rfl

/-- An id that a plan has in place of what was named. -/
structure PlainId (id : String) : Prop where
  trimmed : Text.trim id = id
  not_empty : id ≠ ""
  plain : isPlain id = true

theorem plainId_of_packIdText {id : String} (h : PackIdText id) : PlainId id :=
  ⟨trim_of_packIdText h, h.not_empty, isPlain_of_packIdText h⟩

/-- A plain id stands for itself, whatever the records are. -/
theorem canonicalPackIdentifier_of_plainId {id : String} (h : PlainId id) (packsJson : PacksJson) :
    canonicalPackIdentifier packsJson id = .ok id := by
  unfold canonicalPackIdentifier
  dsimp only
  rw [h.trimmed, if_neg (by rw [String.isEmpty_iff]; exact h.not_empty), if_pos h.plain]

theorem knownAs_of_canonical {packsJson : PacksJson} {identifier id : String}
    (h : WellKept (packsJson.toOption.getD [])) (hid : canonicalPackIdentifier packsJson identifier = .ok id) :
    KnownAs (packsJson.toOption.getD []) (Text.trim identifier) id ∧ PlainId id := by
  unfold canonicalPackIdentifier at hid
  dsimp only at hid
  split at hid
  next => cases hid
  next hblank =>
    rw [String.isEmpty_iff] at hblank
    split at hid
    next hplain =>
      rw [Except.ok.injEq] at hid
      subst hid
      refine ⟨.plain hplain, ?_, hblank, hplain⟩
      rw [Text.trim, Text.trim, String.toList_ofList, Text.trimChars_idem]
    next hplain =>
      have hnot := Bool.not_eq_true _ ▸ hplain
      split at hid
      next record hfound =>
        have hmem := List.mem_of_find?_eq_some hfound
        have htext := List.find?_some hfound
        rw [beq_iff_eq] at htext
        rw [← htext] at hplain
        exact absurd (isPlain_of_packIdText (h.named record hmem)) hplain
      next =>
        split at hid
        next record hfound =>
          have hmem := List.mem_of_find?_eq_some hfound
          have href := List.find?_some hfound
          rw [beq_iff_eq] at href
          rw [Except.ok.injEq] at hid
          subst hid
          exact ⟨.recorded hnot ⟨record, hmem, href, rfl⟩, plainId_of_packIdText (h.named record hmem)⟩
        next hnone =>
          rw [Except.ok.injEq] at hid
          subst hid
          refine ⟨.derived hnot ?_, plainId_of_packIdText (packIdText_derive _)⟩
          rintro stored ⟨record, hmem, href, -⟩
          have hdiffers : ¬(record.originalRef == Text.trim identifier) = true := List.find?_eq_none.mp hnone record hmem
          exact hdiffers (beq_iff_eq.mpr href)

/-- What a plan has of the selections of a request. -/
structure Normalized (packsJson : PacksJson) (request : WizardCreateRequest) (metadata : WizardPlanMetadata) : Prop where
  defaults : ∀ selection normalized, (selection, normalized) ∈ request.defaultAssignments.zip metadata.defaultAssignments →
    canonicalPackIdentifier packsJson selection.packIdentifier = .ok normalized.packIdentifier
  removes : ∀ selection normalized, (selection, normalized) ∈ request.packsRemove.zip metadata.packsRemove →
    canonicalPackIdentifier packsJson selection.packIdentifier = .ok normalized.packIdentifier
  changes : ∀ change normalized, (change, normalized) ∈ request.accessChanges.zip metadata.accessChanges →
    canonicalPackIdentifier packsJson change.packId = .ok normalized.packId

theorem canonical_of_mapM_ok {β : Type} {packsJson : PacksJson} (name : β → String) {f : β → Except String β}
    {l l' : List β} (h : l.mapM f = .ok l')
    (hf : ∀ b b', f b = .ok b' → canonicalPackIdentifier packsJson (name b) = .ok (name b'))
    {b b' : β} (hmem : (b, b') ∈ l.zip l') : canonicalPackIdentifier packsJson (name b) = .ok (name b') :=
  hf b b' ((List.forall₂_iff_zip.mp (Outcome.forall₂_of_mapM_ok h)).2 hmem)

theorem normalized_of_buildPlan {mode : WizardMode} {packsJson : PacksJson} {request : WizardCreateRequest}
    {dryRun : Bool} {plan : WizardPlan} (h : buildPlan mode packsJson request dryRun = .ok plan) :
    Normalized packsJson request plan.metadata := by
  obtain ⟨normalized, hnormalized, happly⟩ := Outcome.bind_eq_ok_iff.mp h
  have hmetadata : plan.metadata.defaultAssignments = normalized.defaultAssignments
      ∧ plan.metadata.packsRemove = normalized.packsRemove
      ∧ plan.metadata.accessChanges = normalized.accessChanges := by
    cases mode with
    | Create =>
      change applyCreate normalized dryRun = .ok plan at happly
      unfold applyCreate at happly
      split at happly
      next => cases happly
      next =>
        cases happly
        exact ⟨rfl, rfl, rfl⟩
    | Update =>
      cases happly
      exact ⟨rfl, rfl, rfl⟩
    | Remove =>
      cases happly
      exact ⟨rfl, rfl, rfl⟩
  obtain ⟨defaults, hdefaults, hnormalized⟩ := Outcome.bind_eq_ok_iff.mp hnormalized
  obtain ⟨removes, hremoves, hnormalized⟩ := Outcome.bind_eq_ok_iff.mp hnormalized
  obtain ⟨changes, hchanges, hnormalized⟩ := Outcome.bind_eq_ok_iff.mp hnormalized
  cases hnormalized
  obtain ⟨hdefault, hremove, hchange⟩ := hmetadata
  refine ⟨fun selection normalized hmem => ?_, fun selection normalized hmem => ?_, fun change normalized hmem => ?_⟩
  · rw [hdefault] at hmem
    refine @canonical_of_mapM_ok PackDefaultSelection packsJson (·.packIdentifier) _ _ _ hdefaults (fun b b' hb => ?_) selection normalized hmem
    obtain ⟨id, hid, heq⟩ := Outcome.bind_eq_ok_iff.mp hb
    cases heq
    exact hid
  · rw [hremove] at hmem
    refine @canonical_of_mapM_ok PackRemoveSelection packsJson (·.packIdentifier) _ _ _ hremoves (fun b b' hb => ?_) selection normalized hmem
    obtain ⟨id, hid, heq⟩ := Outcome.bind_eq_ok_iff.mp hb
    cases heq
    exact hid
  · rw [hchange] at hmem
    refine @canonical_of_mapM_ok Project.AccessChangeSelection packsJson (·.packId) _ _ _ hchanges (fun b b' hb => ?_) change normalized hmem
    obtain ⟨id, hid, heq⟩ := Outcome.bind_eq_ok_iff.mp hb
    cases heq
    exact hid

/-- A selection is applied to the id that it was known by, whatever the records are by then. -/
theorem exists_knownAs_of_carries {mode : WizardMode} {packsJson : PacksJson} {request : WizardCreateRequest}
    {metadata : WizardPlanMetadata} (hkept : WellKept (packsJson.toOption.getD []))
    (h : Normalized packsJson request metadata) {named : String} {task : Task} (hcarries : Carries mode request metadata named task) :
    ∃ id, KnownAs (packsJson.toOption.getD []) (Text.trim named) id ∧ ∀ packsJson', task.packApplied packsJson' = some id := by
  cases hcarries with
  | @default selection normalized hmem _ =>
    obtain ⟨hknown, hplain⟩ := knownAs_of_canonical hkept (h.defaults selection normalized hmem)
    refine ⟨normalized.packIdentifier, hknown, fun packsJson' => ?_⟩
    rw [packApplied_assignDefault, Outcome.toOption_eq_some_iff]
    exact canonicalPackIdentifier_of_plainId hplain packsJson'
  | @remove selection normalized hmem _ =>
    obtain ⟨hknown, hplain⟩ := knownAs_of_canonical hkept (h.removes selection normalized hmem)
    refine ⟨normalized.packIdentifier, hknown, fun packsJson' => ?_⟩
    rw [packApplied_removePack, Outcome.toOption_eq_some_iff]
    exact canonicalPackIdentifier_of_plainId hplain packsJson'
  | @access change normalized hmem _ =>
    obtain ⟨hknown, -⟩ := knownAs_of_canonical hkept (h.changes change normalized hmem)
    exact ⟨normalized.packId, hknown, fun _ => rfl⟩

/-! ## The records after the packs are added -/

theorem wellKept_recordsIn {bundle : Path} {disk : Store α} (h : RecordsKept bundle disk) :
    WellKept (recordsIn bundle disk) := by
  unfold recordsIn
  cases hload : loadPacksMetadata bundle disk with
  | error message => exact wellKept_nil
  | ok records => exact wellKept_of_load h hload

theorem insertionSort_selectedRefs (packRefs : List String) :
    (selectedRefs packRefs).insertionSort (· ≤ ·) = selectedRefs packRefs :=
  ((List.pairwise_insertionSort (· ≤ ·) _).sublist (List.dedup_sublist _)).insertionSort_eq

/-- Where adding packs succeeds, a reference is recorded under the id that is known of it then. -/
theorem recorded_added_iff {bundle : Path} {env : Env α} {references : List String} {made added : Execution α}
    (hrefs : GoodRefs references) (hsorted : references.insertionSort (· ≤ ·) = references)
    (hkept : RecordsKept bundle made.disk)
    (h : ((addPacks references).forM (perform bundle env)).run made = (.ok (), added)) {reference id : String} :
    Recorded (recordsIn bundle added.disk) reference id
      ↔ ((knownIds (recordsIn bundle made.disk)).after references).byOriginalRef.lookup reference = some id := by
  have hrun := run_addPacks bundle env references made
  rw [h] at hrun
  split at hrun
  next hnil =>
    subst hnil
    have hdisk : added.disk = made.disk := congrArg Prod.snd hrun
    rw [hdisk]
    exact (lookup_byOriginalRef (wellKept_recordsIn hkept).oneToOne).symm
  next hne =>
    split at hrun
    next => cases hrun
    next packs hpacks =>
      have hsources := (map_sourceRef_resolvePackRefs hpacks).trans hsorted
      obtain ⟨records, hload, hafter⟩ := load_addResolved (by
        rintro rfl
        exact hne hsources.symm) hrun.symm
      unfold recordsIn
      rw [hload, hafter]
      refine recorded_persist_iff (wellKept_of_load hkept hload).oneToOne ?_
      rw [← hsources]
      exact map_mappingRecord records packs

/-! ## Where the two agree -/

/-- The ids in use when the loop over the references to add comes to one of them. -/
def usedBefore (start : List PackMappingRecord) (references : List String) (reference : String) : List String :=
  ((knownIds start).after (references.takeWhile (· ≠ reference))).usedIds

/-- An id, as the records and the references to add have it: that of a record; or else the first free
name of the reference when it is added; or else one that no pack has. -/
structure Agrees (start : List PackMappingRecord) (references : List String) (text id : String) : Prop where
  recorded : ∀ stored, Recorded start text stored → id = stored
  added : (∀ stored, ¬Recorded start text stored) → text ∈ references →
    IsNextFree (usedBefore start references text) (derivePackIdFromReference text) id
  unknown : (∀ stored, ¬Recorded start text stored) → text ∉ references → isPlain text = false →
    id ∉ usedBefore start references text

section Agrees

variable {start after : List PackMappingRecord} {references : List String} {text id : String}

theorem lookup_after_of_new (hnew : (knownIds start).byOriginalRef.lookup text = none) (h : text ∈ references) :
    ((knownIds start).after references).byOriginalRef.lookup text
      = some (allocateUniquePackId (derivePackIdFromReference text) (usedBefore start references text)) := by
  obtain ⟨front, back, rfl, hfront⟩ := List.eq_append_cons_of_mem h
  have htake : (front ++ text :: back).takeWhile (· ≠ text) = front := by
    have hdiffers : ∀ other ∈ front, decide (other ≠ text) = true := by
      rintro other hother
      refine decide_eq_true ?_
      rintro rfl
      exact hfront hother
    rw [List.takeWhile_append_of_pos hdiffers, List.takeWhile_cons_of_neg (by simp), List.append_nil]
  unfold usedBefore
  rw [htake, KnownIds.after, List.foldl_append, List.foldl_cons, ← KnownIds.after, ← KnownIds.after]
  refine lookup_after_of_lookup ?_
  rw [lookup_with, if_pos rfl, assignPackId_of_unknown]
  rw [lookup_after_of_not_mem hfront, hnew]

theorem takeWhile_of_not_mem (h : text ∉ references) : references.takeWhile (· ≠ text) = references := by
  refine List.takeWhile_eq_self_iff.mpr fun other hother => decide_eq_true ?_
  rintro rfl
  exact h hother

/-- An id is in use after references where one of them, or a record from before, has it. -/
theorem mem_usedIds_after_iff (hstart : WellKept start) :
    id ∈ ((knownIds start).after references).usedIds
      ↔ ∃ reference, ((knownIds start).after references).byOriginalRef.lookup reference = some id := by
  constructor
  · rw [mem_usedIds_after]
    rintro (h | h)
    · obtain ⟨record, hrecord, rfl⟩ := List.mem_map.mp h
      exact ⟨record.originalRef, lookup_after_of_lookup ((lookup_byOriginalRef hstart.oneToOne).mpr ⟨record, hrecord, rfl, rfl⟩)⟩
    · obtain ⟨⟨reference, _⟩, hassigned, rfl⟩ := List.mem_map.mp h
      exact ⟨reference, (mem_assignPackIds_iff.mp hassigned).2⟩
  · rintro ⟨reference, h⟩
    exact (consistent_after (consistent_knownIds hstart.oneToOne) references).used reference id h

theorem storedUnder_of_recorded (hafter : WellKept after) {stored : String} (h : Recorded after text stored) :
    StoredUnder after text id ↔ id = stored := by
  obtain ⟨record, hrecord, rfl, rfl⟩ := h
  constructor
  · exact fun hright => ((hright record hrecord).mp rfl).symm
  · rintro rfl other hother
    refine ⟨fun href => ?_, fun hid => ?_⟩
    · rw [hafter.oneToOne.eq_of_originalRef hother hrecord href]
    · rw [hafter.oneToOne.eq_of_packId hother hrecord hid]

theorem storedUnder_of_unrecorded (h : ∀ stored, ¬Recorded after text stored) :
    StoredUnder after text id ↔ ∀ reference, ¬Recorded after reference id := by
  constructor
  · rintro hright reference ⟨record, hrecord, -, hid⟩
    exact h id ⟨record, hrecord, (hright record hrecord).mpr hid, hid⟩
  · intro hnone record hrecord
    exact ⟨fun href => absurd ⟨record, hrecord, href, rfl⟩ (h _), fun hid => absurd ⟨record, hrecord, rfl, hid⟩ (hnone _)⟩

/-- A text that names a reference is stored under an id exactly where the id agrees with the records
and the references to add. -/
theorem storedUnder_iff_agrees (hstart : WellKept start) (hafter : WellKept after)
    (hrecorded : ∀ reference id, Recorded after reference id
      ↔ ((knownIds start).after references).byOriginalRef.lookup reference = some id) :
    (NamesReference after text → StoredUnder after text id) ↔ Agrees start references text id := by
  by_cases hknown : ∃ stored, Recorded start text stored
  · obtain ⟨stored, hstored⟩ := hknown
    have hstill : Recorded after text stored :=
      (hrecorded text stored).mpr (lookup_after_of_lookup ((lookup_byOriginalRef hstart.oneToOne).mpr hstored))
    rw [storedUnder_of_recorded hafter hstill]
    constructor
    · intro h
      refine ⟨fun other hother => ?_, fun hnone => absurd hstored (hnone stored), fun hnone => absurd hstored (hnone stored)⟩
      rw [h (.inl ⟨stored, hstill⟩), hstart.oneToOne.recorded_inj hstored hother]
    · exact fun h _ => h.recorded stored hstored
  · have hnone : ∀ stored, ¬Recorded start text stored := fun stored hstored => hknown ⟨stored, hstored⟩
    have hnew : (knownIds start).byOriginalRef.lookup text = none := by
      refine Option.eq_none_iff_forall_not_mem.mpr fun stored hstored => ?_
      exact hnone stored ((lookup_byOriginalRef hstart.oneToOne).mp hstored)
    by_cases hadded : text ∈ references
    · have hstill := (hrecorded text _).mpr (lookup_after_of_new hnew hadded)
      rw [storedUnder_of_recorded hafter hstill, eq_comm, allocateUniquePackId_eq_iff]
      constructor
      · intro h
        exact ⟨fun other hother => absurd hother (hnone other), fun _ _ => h (.inl ⟨_, hstill⟩), fun _ hnot => absurd hadded hnot⟩
      · exact fun h _ => h.added hnone hadded
    · have hstill : ∀ stored, ¬Recorded after text stored := by
        intro stored hstored
        rw [hrecorded, lookup_after_of_not_mem hadded, hnew] at hstored
        cases hstored
      have hused : (∀ reference, ¬Recorded after reference id) ↔ id ∉ usedBefore start references text := by
        rw [usedBefore, takeWhile_of_not_mem hadded, mem_usedIds_after_iff hstart, not_exists]
        exact forall_congr' fun reference => not_congr (hrecorded reference id)
      rw [storedUnder_of_unrecorded hstill, hused]
      constructor
      · intro h
        exact ⟨fun other hother => absurd hother (hnone other), fun _ hmem => absurd hmem hadded, fun _ _ hplain => h (.inr hplain)⟩
      · intro h hnames
        rcases hnames with ⟨stored, hstored⟩ | hplain
        · exact absurd hstored (hstill stored)
        · exact h.unknown hnone hadded hplain

end Agrees

/-! ## Runs -/

theorem recordsKept_before {bundle : Path} {env : Env α} {mode : WizardMode} {metadata : WizardPlanMetadata}
    {disk : Store α} {made : Execution α} (h : RecordsKept bundle disk)
    (hmade : ((tasksBefore mode metadata).forM (perform bundle env)).run ⟨disk, []⟩ = (.ok (), made)) :
    RecordsKept bundle made.disk := by
  have hkeeps : KeepsDisk (RecordsKept bundle) ((tasksBefore mode metadata).forM (perform bundle env)) :=
    keepsDisk_forM fun _ htask => keepsRecords_other (addsNoPacks_tasksBefore htask)
  have hkept := hkeeps ⟨disk, []⟩ h
  rwa [hmade] at hkept

/-- **Selections are applied to the packs they name** exactly where the id that a text was known by
when the plan was made agrees with the records and the references that the execution adds. -/
theorem appliedRightly_iff {bundle : Path} {disk : Store α} (hreached : Reached bundle disk) {run : WizardRun α}
    {plan : WizardPlan} (hplan : buildPlan run.mode (loadPacksMetadata bundle disk) run.request false = .ok plan)
    {made added : Execution α}
    (hmade : ((tasksBefore run.mode plan.metadata).forM (perform bundle run.env)).run ⟨run.prepare bundle disk, []⟩
      = (.ok (), made))
    (hadded : ((addPacks (refsFor run.mode plan.metadata)).forM (perform bundle run.env)).run made = (.ok (), added)) :
    AppliedRightly run.mode run.request plan.metadata (recordsIn bundle added.disk)
      ↔ ∀ named task id, Carries run.mode run.request plan.metadata named task →
        KnownAs (recordsIn bundle disk) (Text.trim named) id →
          Agrees (recordsIn bundle made.disk) (refsFor run.mode plan.metadata) (Text.trim named) id := by
  have hkept := recordsKept_of_reached hreached
  have hmadeKept := recordsKept_before (recordsKept_prepare run hkept) hmade
  have haddedKept : RecordsKept bundle added.disk := by
    have hkeeps := keepsRecords_addPacks hplan run.env made hmadeKept
    rwa [hadded] at hkeeps
  have hrefs : GoodRefs (refsFor run.mode plan.metadata)
      ∧ (refsFor run.mode plan.metadata).insertionSort (· ≤ ·) = refsFor run.mode plan.metadata := by
    rcases goodRefs_refsFor hplan with heq | heq
    · rw [heq]
      exact ⟨goodRefs_nil, rfl⟩
    · rw [heq]
      exact ⟨goodRefs_selectedRefs _, insertionSort_selectedRefs _⟩
  have hagrees := fun text id => @storedUnder_iff_agrees _ _ _ text id (wellKept_recordsIn hmadeKept)
    (wellKept_recordsIn haddedKept) fun _ _ => recorded_added_iff hrefs.1 hrefs.2 hmadeKept hadded
  have hnormalized := normalized_of_buildPlan hplan
  constructor
  · intro h named task id hcarries hknown
    obtain ⟨id', hknown', happlied⟩ := exists_knownAs_of_carries (wellKept_recordsIn hkept) hnormalized hcarries
    rw [knownAs_unique (wellKept_recordsIn hkept) hknown hknown']
    exact (hagrees _ _).mp fun hnames => h named task hcarries hnames (.ok []) id' (happlied _)
  · intro h named task hcarries hnames packsJson id happlied
    obtain ⟨id', hknown', happlied'⟩ := exists_knownAs_of_carries (wellKept_recordsIn hkept) hnormalized hcarries
    rw [happlied', Option.some.injEq] at happlied
    subst happlied
    exact (hagrees _ _).mpr (h named task id' hcarries hknown') hnames

/-! ### Two references of one name -/

/-- A new bundle with the packs `oci://a.io/x` and `oci://b.io/x`, of which the second is to be the default. -/
def twoPacks : WizardRun Unit where
  mode := .Create
  request :=
    { bundle := "bundle"
      bundleName := none
      packRefs := ["oci://a.io/x", "oci://b.io/x"]
      tenants := [⟨"demo", none, []⟩]
      defaultAssignments := [⟨"oci://b.io/x", .Global⟩]
      providers := []
      updateOps := []
      removeTargets := []
      packsRemove := []
      providersRemove := []
      tenantsRemove := []
      accessChanges := []
      setupAnswers := [] }
  env :=
    { fetch := fun reference => .ok ⟨reference, "", "", [], some (), ""⟩
      registry := fun _ => .ok none
      seeded := .ok ()
      scanned := .ok ()
      manifest := fun _ => "" }
  overwrites := false

def twoPacksPlan : WizardPlan where
  mode := "create"
  dryRun := false
  bundle := "bundle"
  steps := createSteps "bundle" (selectedRefs twoPacks.request.packRefs) (selectedTenants twoPacks.request.tenants)
  metadata :=
    { metadataOf twoPacks.request with
      packRefs := selectedRefs twoPacks.request.packRefs
      defaultAssignments := [⟨"x", .Global⟩] }

/-- The bundle before its packs are added, and after. -/
def twoPacksMade : Except String Unit × Execution Unit :=
  ((tasksBefore .Create twoPacksPlan.metadata).forM (perform ["bundle"] twoPacks.env)).run ⟨Files.empty, []⟩

def twoPacksAdded : Except String Unit × Execution Unit :=
  ((addPacks (refsFor .Create twoPacksPlan.metadata)).forM (perform ["bundle"] twoPacks.env)).run twoPacksMade.2

theorem reached_empty (bundle : Path) : Reached bundle (Files.empty : Store α) :=
  ⟨Files.empty, [], ⟨fun _ _ => rfl, fun _ _ => nofun⟩, rfl⟩

theorem buildPlan_twoPacks : buildPlan twoPacks.mode (loadPacksMetadata ["bundle"] (Files.empty : Store Unit))
    twoPacks.request false = .ok twoPacksPlan := by
  have hload : loadPacksMetadata ["bundle"] (Files.empty : Store Unit) = .ok [] := by decide +kernel
  have hderived : canonicalPackIdentifier (.ok []) "oci://b.io/x" = .ok "x" := by decide +kernel
  rw [hload]
  simp only [buildPlan, normalizeRequestForPlan, twoPacks, List.mapM_cons, List.mapM_nil, hderived]
  rfl

theorem eq_mk_of_fst {outcome : Except String Unit × Execution Unit} (h : outcome.1 = .ok ()) :
    outcome = (.ok (), outcome.2) := by
  rw [← h]

theorem twoPacksMade_eq : twoPacksMade = (.ok (), twoPacksMade.2) := eq_mk_of_fst (by decide +kernel)

theorem twoPacksAdded_eq : twoPacksAdded = (.ok (), twoPacksAdded.2) := eq_mk_of_fst (by decide +kernel)

theorem appliedRightly_twoPacks_iff :
    AppliedRightly .Create twoPacks.request twoPacksPlan.metadata (recordsIn ["bundle"] twoPacksAdded.2.disk)
      ↔ ∀ named task id, Carries .Create twoPacks.request twoPacksPlan.metadata named task →
        KnownAs (recordsIn ["bundle"] (Files.empty : Store Unit)) (Text.trim named) id →
          Agrees (recordsIn ["bundle"] twoPacksMade.2.disk) (refsFor .Create twoPacksPlan.metadata) (Text.trim named) id :=
  @appliedRightly_iff Unit ["bundle"] Files.empty (reached_empty _) twoPacks twoPacksPlan buildPlan_twoPacks
    twoPacksMade.2 twoPacksAdded.2 twoPacksMade_eq twoPacksAdded_eq

/-- The default that names `oci://b.io/x` is the pack of `oci://a.io/x`. -/
theorem default_is_other_pack :
    buildPlan .Create (loadPacksMetadata ["bundle"] (Files.empty : Store Unit)) twoPacks.request false = .ok twoPacksPlan
      ∧ twoPacksMade.1 = .ok () ∧ twoPacksAdded.1 = .ok ()
      ∧ ¬AppliedRightly .Create twoPacks.request twoPacksPlan.metadata
        (recordsIn ["bundle"] twoPacksAdded.2.disk) := by
  refine ⟨buildPlan_twoPacks, congrArg Prod.fst twoPacksMade_eq, congrArg Prod.fst twoPacksAdded_eq, fun h => ?_⟩
  have htask : .assignDefault ⟨"x", .Global⟩ ∈ tasksFor .Create twoPacksPlan.metadata := by
    simp [tasksFor, createTasks, twoPacksPlan]
  have hcarries : Carries .Create twoPacks.request twoPacksPlan.metadata "oci://b.io/x" (.assignDefault ⟨"x", .Global⟩) :=
    @Carries.default _ _ _ ⟨"oci://b.io/x", .Global⟩ ⟨"x", .Global⟩ List.mem_cons_self htask
  have hstored := h _ _ hcarries (.inr (by decide +kernel)) (.ok []) "x" (by decide +kernel)
  have hrecord : (⟨"x", "oci://a.io/x", "packs/x.gtpack", some ""⟩ : PackMappingRecord)
      ∈ recordsIn ["bundle"] twoPacksAdded.2.disk := by decide +kernel
  have htext : "oci://a.io/x" = Text.trim "oci://b.io/x" := (hstored _ hrecord).mpr rfl
  revert htext
  decide +kernel

end Wizard
