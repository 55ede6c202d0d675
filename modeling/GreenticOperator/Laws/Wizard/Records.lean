import GreenticOperator.Laws.Wizard.PackId
import GreenticOperator.Laws.Wizard.Tasks
import GreenticOperator.Lib.Outcome

/-!
# The records of a bundle, over runs of the wizard

Only the assignment of ids writes `packs.json`: what any other task writes has another name. So
wherever runs of the wizard lead, the records are well kept (`wellKept_of_reached`).
-/

namespace Wizard

open Disk Disk.Files
open Project (Pair)

variable {α : Type}

theorem path_packsMetadataPath (bundle : Path) :
    (packsMetadataPath bundle).path = bundle ++ [".greentic", "packs.json"] :=
  path_under_plain (by decide) bundle

/-- What may be done anywhere: everything but writing a file of the name `packs.json`. -/
def SparesRecords : Change (Content α) → Prop
  | .write p _ => p.getLast? ≠ some "packs.json"
  | _ => True

/-- A file whose name ends otherwise. -/
theorem getLast_ne_of_suffix {bundle : Path} {texts : List String} {front back : String} (hslash : '/' ∉ back.toList)
    (hlong : 2 < back.toList.length) (hback : ¬back.toList <:+ "packs.json".toList) :
    (under bundle (texts ++ [front ++ back])).path.getLast? ≠ some "packs.json" := by
  obtain ⟨name, hname⟩ := exists_getLast_under_append bundle texts front hslash hlong
  rw [hname, ne_eq, Option.some.injEq]
  intro heq
  refine hback ?_
  rw [← heq, String.toList_append]
  exact List.suffix_append _ _

theorem ne_of_otherName {name : String} (h : OtherName name) : name ≠ "packs.json" := by
  rintro rfl
  rcases h with h | ⟨front, h⟩
  · revert h
    decide
  · have hsuffix : ".yaml".toList <:+ "packs.json".toList := by
      rw [h, String.toList_append]
      exact List.suffix_append _ _
    revert hsuffix
    decide

/-- Every task but those of packs spares the records. -/
theorem allowsOther_sparesRecords (bundle : Path) : AllowsOther (@SparesRecords α) bundle where
  dirs _ := trivial
  files texts name content hlast hname := by
    change _ ≠ _
    rw [hlast, ne_eq, Option.some.injEq]
    exact ne_of_otherName hname
  defaults texts text hlast := by
    change _ ≠ _
    rw [hlast]
    simp

/-! ## The invariant -/

/-- What is at the place of the records are records that are well kept. -/
def RecordsKept (bundle : Path) (disk : Store α) : Prop :=
  ∀ content, disk.read (packsMetadataPath bundle).path = some content →
    ∃ records, content = .records records ∧ WellKept records

theorem recordsKept_of_changes {bundle : Path} {disk disk' : Store α} (h : Changes SparesRecords disk disk')
    (hkept : RecordsKept bundle disk) : RecordsKept bundle disk' := by
  intro content hcontent
  rcases h.read_cases (packsMetadataPath bundle).path with heq | hnone | ⟨written, hok, -⟩
  · exact hkept content (heq ▸ hcontent)
  · rw [hnone] at hcontent
    cases hcontent
  · rw [path_packsMetadataPath] at hok
    exact absurd (by simp) hok

theorem wellKept_of_load {bundle : Path} {disk : Store α} (h : RecordsKept bundle disk)
    {records : List PackMappingRecord} (hload : loadPacksMetadata bundle disk = .ok records) : WellKept records := by
  unfold loadPacksMetadata at hload
  split at hload
  next =>
    split at hload
    next found hread =>
      cases hload
      obtain ⟨records, heq, hkept⟩ := h _ hread
      cases heq
      exact hkept
    next => cases hload
  next =>
    cases hload
    exact wellKept_nil

/-- References as a plan has them: each once, trimmed and not blank. -/
structure GoodRefs (references : List String) : Prop where
  nodup : references.Nodup
  trimmed : ∀ reference ∈ references, Text.trim reference = reference
  not_blank : ∀ reference ∈ references, reference ≠ ""

theorem goodRefs_selectedRefs (packRefs : List String) : GoodRefs (selectedRefs packRefs) := by
  have hmem : ∀ reference ∈ selectedRefs packRefs, ∃ value, Text.trim value = reference ∧ reference ≠ "" := by
    intro reference h
    unfold selectedRefs at h
    rw [mem_sortDedup, List.mem_filter, List.mem_map] at h
    obtain ⟨⟨value, -, rfl⟩, hblank⟩ := h
    refine ⟨value, rfl, fun heq => ?_⟩
    rw [heq] at hblank
    cases hblank
  refine ⟨List.nodup_dedup _, fun reference h => ?_, fun reference h => ?_⟩
  · obtain ⟨value, rfl, -⟩ := hmem reference h
    rw [Text.trim, Text.trim, String.toList_ofList, Text.trimChars_idem]
  · obtain ⟨_, -, hne⟩ := hmem reference h
    exact hne

theorem goodRefs_refsFor {mode : WizardMode} {packsJson : PacksJson} {request : WizardCreateRequest} {dryRun : Bool}
    {plan : WizardPlan} (h : buildPlan mode packsJson request dryRun = .ok plan) :
    refsFor mode plan.metadata = [] ∨ refsFor mode plan.metadata = selectedRefs request.packRefs := by
  obtain ⟨normalized, hnormalized, happly⟩ := Outcome.bind_eq_ok_iff.mp h
  have hrefs : normalized.packRefs = request.packRefs := by
    obtain ⟨_, -, hrest⟩ := Outcome.bind_eq_ok_iff.mp hnormalized
    obtain ⟨_, -, hrest⟩ := Outcome.bind_eq_ok_iff.mp hrest
    obtain ⟨_, -, hrest⟩ := Outcome.bind_eq_ok_iff.mp hrest
    cases hrest
    rfl
  cases mode with
  | Create =>
    change applyCreate normalized dryRun = .ok plan at happly
    unfold applyCreate at happly
    split at happly
    next => cases happly
    next =>
      cases happly
      exact .inr (congrArg selectedRefs hrefs)
  | Update =>
    cases happly
    change addedRefs (applyUpdate normalized dryRun).metadata = [] ∨ addedRefs (applyUpdate normalized dryRun).metadata = _
    unfold addedRefs
    split
    next => exact .inr (congrArg selectedRefs hrefs)
    next => exact .inl rfl
  | Remove => exact .inl rfl

/-! ## Packs that are resolved -/

/-- The packs that references lead to are resolved in the order of the references. -/
theorem map_sourceRef_resolvePackRefs {fetch : String → Except String (ResolvedPackInfo α)} {packRefs : List String}
    {packs : List (ResolvedPackInfo α)} (h : resolvePackRefs fetch packRefs = .ok packs) :
    packs.map (·.sourceRef) = packRefs.insertionSort (· ≤ ·) := by
  obtain ⟨resolved, hresolved, hpacks⟩ := Outcome.bind_eq_ok_iff.mp h
  have hrefs : resolved.map (·.sourceRef) = packRefs := by
    have hall := Outcome.forall₂_of_mapM_ok hresolved
    clear hresolved h hpacks
    induction hall with
    | nil => rfl
    | cons hfirst _ ih =>
      obtain ⟨fetched, -, heq⟩ := Outcome.bind_eq_ok_iff.mp hfirst
      cases heq
      rw [List.map_cons, ih]
  cases hpacks
  rw [List.map_insertionSort _ (· ≤ ·) _ _ fun _ _ _ _ => Iff.rfl, hrefs]

section Assigned

variable {records : List PackMappingRecord} {packs : List (ResolvedPackInfo α)} {pack : ResolvedPackInfo α}

theorem map_withAssignedIds (records : List PackMappingRecord) (packs : List (ResolvedPackInfo α)) :
    (withAssignedIds records packs).map (fun pack => (pack.sourceRef, pack.packId))
      = assignPackIds (knownIds records) (packs.map (·.sourceRef)) := by
  unfold withAssignedIds
  generalize knownIds records = known
  induction packs generalizing known with
  | nil => rfl
  | cons pack packs ih => rw [List.map_cons, assignPackIds, List.zipWith_cons_cons, List.map_cons, ih]

theorem map_mappingRecord (records : List PackMappingRecord) (packs : List (ResolvedPackInfo α)) :
    ((withAssignedIds records packs).map mappingRecord).map (fun record => (record.originalRef, record.packId))
      = assignPackIds (knownIds records) (packs.map (·.sourceRef)) := by
  rw [List.map_map, ← map_withAssignedIds]
  rfl

/-- A pack that is added is one that was resolved, under the id that its reference is given. -/
theorem exists_of_mem_withAssignedIds (h : pack ∈ withAssignedIds records packs) :
    ∃ resolved ∈ packs, ∃ id, (resolved.sourceRef, id) ∈ assignPackIds (knownIds records) (packs.map (·.sourceRef))
      ∧ pack = { resolved with packId := id, outputPath := outputPath id } := by
  unfold withAssignedIds at h
  obtain ⟨i, hi⟩ := List.mem_iff_getElem?.mp h
  obtain ⟨resolved, ⟨reference, id⟩, hresolved, hassigned, rfl⟩ := List.getElem?_zipWith_eq_some.mp hi
  refine ⟨resolved, List.mem_of_getElem? hresolved, id, ?_, rfl⟩
  have href : (packs.map (·.sourceRef))[i]? = some reference := by
    rw [← map_fst_assignPackIds (knownIds records) (packs.map (·.sourceRef)), List.getElem?_map, hassigned]
    rfl
  rw [List.getElem?_map, hresolved] at href
  cases href
  exact List.mem_of_getElem? hassigned

theorem outputPath_of_mem_withAssignedIds (h : pack ∈ withAssignedIds records packs) :
    pack.outputPath = outputPath pack.packId := by
  obtain ⟨_, -, _, -, rfl⟩ := exists_of_mem_withAssignedIds h
  rfl

theorem exists_outputPath_eq (packId : String) : ∃ front, outputPath packId = front ++ ".gtpack" := by
  unfold outputPath Disk.join fileName
  split
  next => exact ⟨packId, rfl⟩
  next =>
    rw [if_neg (by decide)]
    exact ⟨"packs" ++ "/" ++ packId, String.append_assoc.symm⟩

/-- What copying and linking a pack may do: nothing is removed. -/
def AddsBesides : Change (Content α) → Prop
  | .write p _ => p.getLast? ≠ some "packs.json"
  | .mkdir _ => True
  | .remove _ => False

theorem sparesRecords_of_addsBesides {change : Change (Content α)} (h : AddsBesides change) : SparesRecords change := by
  cases change with
  | write p a => exact h
  | mkdir p => exact trivial
  | remove p => exact trivial

theorem allowsFile_addsBesides {place : Place} (h : place.path.getLast? ≠ some "packs.json") :
    AllowsFile (@AddsBesides α) place := ⟨fun _ _ => trivial, fun _ => h⟩

theorem moves_copy_addsBesides (bundle : Path) (h : pack ∈ withAssignedIds records packs) :
    Eff.Moves (Changes AddsBesides) (copyPackIntoBundle bundle pack) := by
  refine moves_copyPackIntoBundle (allowsFile_addsBesides ?_)
  obtain ⟨front, hfront⟩ := exists_outputPath_eq pack.packId
  rw [outputPath_of_mem_withAssignedIds h, hfront]
  exact @getLast_ne_of_suffix bundle [] _ _ (by decide) (by decide) (by decide)

theorem moves_link_addsBesides (bundle : Path) (h : pack ∈ withAssignedIds records packs) :
    Eff.Moves (Changes AddsBesides) (linkPackToProviderDir bundle pack) := by
  refine moves_linkPackToProviderDir (fun _ _ => ⟨fun _ _ => trivial, trivial⟩) fun domainDir name _ hname => ?_
  obtain ⟨front, hfront⟩ := exists_outputPath_eq pack.packId
  rw [outputPath_of_mem_withAssignedIds h, hfront] at hname
  obtain ⟨last, hlast⟩ := @exists_getLast_under_append bundle [] front ".gtpack" (by decide) (by decide)
  rw [List.nil_append, hname, Option.some.injEq] at hlast
  refine allowsFile_addsBesides ?_
  rw [hlast]
  exact @getLast_ne_of_suffix bundle ["providers", domainDir] _ _ (by decide) (by decide) (by decide)

/-- The copies and links of packs that are added. -/
theorem moves_install (bundle : Path) :
    Eff.Moves (Changes AddsBesides) (do
      (withAssignedIds records packs).forM (copyPackIntoBundle bundle)
      linkPacksToProviderDirs bundle (withAssignedIds records packs)) :=
  moves_bind (moves_forM fun _ hpack => moves_copy_addsBesides bundle hpack) fun _ =>
    moves_forM fun _ hpack => moves_link_addsBesides bundle hpack

end Assigned

/-- Assigning ids changes nothing, or writes the records with those of the packs, as far as it gets. -/
theorem assign_cases (bundle : Path) (packs : List (ResolvedPackInfo α)) (disk : Store α) :
    (((assignPackIdsAndPersistMetadata bundle packs).run disk).2 = disk
        ∧ ∀ assigned, ((assignPackIdsAndPersistMetadata bundle packs).run disk).1 = .ok assigned → packs = [] ∧ assigned = [])
      ∨ ∃ records, loadPacksMetadata bundle disk = .ok records
        ∧ ∃ result, (writePacksMetadata bundle (persistMetadata ((withAssignedIds records packs).map mappingRecord)
            records)).run disk = (result, ((assignPackIdsAndPersistMetadata bundle packs).run disk).2)
          ∧ ∀ assigned, ((assignPackIdsAndPersistMetadata bundle packs).run disk).1 = .ok assigned →
            result = .ok () ∧ assigned = withAssignedIds records packs := by
  unfold assignPackIdsAndPersistMetadata
  split
  next hempty =>
    have hnil := List.isEmpty_iff.mp hempty
    subst hnil
    refine .inl ⟨rfl, fun assigned h => ⟨rfl, ?_⟩⟩
    cases h
    rfl
  next =>
    rw [Eff.bind_run, Eff.read_run]
    dsimp only
    rw [Eff.bind_run, Eff.lift_run]
    cases hload : loadPacksMetadata bundle disk with
    | error message => exact .inl ⟨rfl, nofun⟩
    | ok records =>
      refine .inr ⟨records, rfl, ?_⟩
      dsimp only
      rw [Eff.bind_run]
      cases (writePacksMetadata bundle (persistMetadata ((withAssignedIds records packs).map mappingRecord) records)).run disk with
      | mk result disk' =>
        cases result with
        | error message => exact ⟨.error message, rfl, nofun⟩
        | ok _ =>
          refine ⟨.ok (), rfl, fun assigned h => ⟨rfl, ?_⟩⟩
          cases h
          rfl

/-- What writing records changes. -/
def WritesRecords (bundle : Path) (records : List PackMappingRecord) : Change (Content α) → Prop
  | .write p content => p = (packsMetadataPath bundle).path ∧ content = .records records
  | .mkdir p => p ∈ (packsMetadataPath bundle).passed
  | .remove _ => False

theorem changes_writePacksMetadata (bundle : Path) (records : List PackMappingRecord) (disk : Store α) :
    Changes (WritesRecords bundle records) disk ((writePacksMetadata bundle records).run disk).2 :=
  moves_writePacksMetadata (fun _ h => h) ⟨rfl, rfl⟩ disk

theorem recordsKept_assign {bundle : Path} {packs : List (ResolvedPackInfo α)} {disk : Store α}
    (hrefs : GoodRefs (packs.map (·.sourceRef))) (h : RecordsKept bundle disk) :
    RecordsKept bundle ((assignPackIdsAndPersistMetadata bundle packs).run disk).2 := by
  rcases assign_cases bundle packs disk with ⟨heq, -⟩ | ⟨records, hload, result, hrun, -⟩
  · rw [heq]
    exact h
  · have hchanges := changes_writePacksMetadata bundle
      (persistMetadata ((withAssignedIds records packs).map mappingRecord) records) disk
    rw [hrun] at hchanges
    intro content hcontent
    rcases hchanges.read_cases (packsMetadataPath bundle).path with hsame | hnone | ⟨written, hok, hread⟩
    · exact h content (hsame ▸ hcontent)
    · rw [hnone] at hcontent
      cases hcontent
    · rw [hread] at hcontent
      cases hcontent
      exact ⟨_, hok.2, wellKept_persist (wellKept_of_load h hload) hrefs.trimmed hrefs.not_blank
        (map_mappingRecord records packs)⟩

theorem recordsKept_addResolved {bundle : Path} {packs : List (ResolvedPackInfo α)} {disk : Store α}
    (hrefs : GoodRefs (packs.map (·.sourceRef))) (h : RecordsKept bundle disk) :
    RecordsKept bundle ((addResolved bundle packs).run disk).2 := by
  have hkept := recordsKept_assign hrefs h
  have hassigned := assign_cases bundle packs disk
  unfold addResolved
  rw [Eff.bind_run]
  cases hrun : (assignPackIdsAndPersistMetadata bundle packs).run disk with
  | mk result disk' =>
    rw [hrun] at hkept hassigned
    cases result with
    | error message => exact hkept
    | ok assigned =>
      rcases hassigned with ⟨-, hnil⟩ | ⟨records, -, _, -, heq⟩
      · rw [(hnil assigned rfl).2]
        exact hkept
      · rw [(heq assigned rfl).2]
        exact recordsKept_of_changes ((moves_install bundle disk').mono fun _ => sparesRecords_of_addsBesides) hkept

/-- Where adding packs succeeds, the records with those of the packs are there. -/
theorem load_addResolved {bundle : Path} {packs : List (ResolvedPackInfo α)} {disk disk' : Store α} (hne : packs ≠ [])
    (h : (addResolved bundle packs).run disk = (.ok (), disk')) :
    ∃ records, loadPacksMetadata bundle disk = .ok records ∧ loadPacksMetadata bundle disk'
      = .ok (persistMetadata ((withAssignedIds records packs).map mappingRecord) records) := by
  obtain ⟨assigned, middle, hassign, hinstall⟩ := Eff.bind_run_ok h
  rcases assign_cases bundle packs disk with ⟨-, hnil⟩ | ⟨records, hload, result, hwrite, heq⟩
  · exact absurd (hnil assigned (congrArg Prod.fst hassign)).1 hne
  · obtain ⟨rfl, rfl⟩ := heq assigned (congrArg Prod.fst hassign)
    rw [hassign] at hwrite
    obtain ⟨_, made, -, hwrite⟩ := Eff.bind_run_ok hwrite
    obtain ⟨hreaches, hmiddle⟩ : _ ∧ middle = _ := writeFile_ok hwrite
    have hchanges : Changes AddsBesides middle disk' := by
      have hmoves := @moves_install _ records packs bundle middle
      rwa [hinstall] at hmoves
    have hread : disk'.read (packsMetadataPath bundle).path
        = some (.records (persistMetadata ((withAssignedIds records packs).map mappingRecord) records)) := by
      rw [hchanges.read_of_spared (fun a ha => ?_) fun _ hok => hok.elim, hmiddle, read_write_self]
      rw [path_packsMetadataPath] at ha
      exact ha (by simp)
    have hthere : disk'.isThere (packsMetadataPath bundle) = true := by
      have hsubset : made.dirs ⊆ disk'.dirs := by
        have hdirs := hchanges.subset_dirs fun _ hok => hok
        rwa [hmiddle] at hdirs
      unfold isThere
      rw [hread, Option.isSome_some, Bool.or_true, Bool.and_true]
      exact List.all_eq_true.mpr fun dir hdir => List.contains_iff_mem.mpr
        (hsubset (List.contains_iff_mem.mp (List.all_eq_true.mp hreaches dir hdir)))
    refine ⟨records, hload, ?_⟩
    unfold loadPacksMetadata
    rw [if_pos hthere, hread]

/-! ## Runs of the wizard -/

theorem goodRefs_nil : GoodRefs [] := ⟨.nil, nofun, nofun⟩

theorem GoodRefs.perm {references references' : List String} (h : GoodRefs references)
    (hperm : references'.Perm references) : GoodRefs references' where
  nodup := hperm.nodup_iff.mpr h.nodup
  trimmed reference hreference := h.trimmed reference (hperm.mem_iff.mp hreference)
  not_blank reference hreference := h.not_blank reference (hperm.mem_iff.mp hreference)

theorem goodRefs_resolved {mode : WizardMode} {packsJson : PacksJson} {request : WizardCreateRequest} {dryRun : Bool}
    {plan : WizardPlan} (h : buildPlan mode packsJson request dryRun = .ok plan)
    {fetch : String → Except String (ResolvedPackInfo α)} {packs : List (ResolvedPackInfo α)}
    (hpacks : resolvePackRefs fetch (refsFor mode plan.metadata) = .ok packs) : GoodRefs (packs.map (·.sourceRef)) := by
  rw [map_sourceRef_resolvePackRefs hpacks]
  refine GoodRefs.perm ?_ (List.perm_insertionSort _ _)
  rcases goodRefs_refsFor h with heq | heq
  · rw [heq]
    exact goodRefs_nil
  · rw [heq]
    exact goodRefs_selectedRefs _

theorem keepsRecords_addPacks {bundle : Path} {mode : WizardMode} {packsJson : PacksJson} {request : WizardCreateRequest}
    {dryRun : Bool} {plan : WizardPlan} (h : buildPlan mode packsJson request dryRun = .ok plan) (env : Env α) :
    KeepsDisk (RecordsKept bundle) ((addPacks (refsFor mode plan.metadata)).forM (perform bundle env)) :=
  keepsDisk_addPacks fun _ _ hpacks hkept => recordsKept_addResolved (goodRefs_resolved h hpacks) hkept

theorem keepsRecords_other {bundle : Path} {env : Env α} {task : Task} (h : task.AddsNoPacks) :
    KeepsDisk (RecordsKept bundle) (perform bundle env task) := by
  intro execution hkept
  by_cases hremove : ∃ selection, task = .removePack selection
  · obtain ⟨selection, rfl⟩ := hremove
    rw [perform, onDisk_run]
    exact recordsKept_of_changes (changes_applyPackRemove (fun _ _ _ _ => trivial) fun _ _ => trivial) hkept
  · refine recordsKept_of_changes ((allowsOther_sparesRecords bundle).changes h ?_ (fun _ _ => trivial) execution) hkept
    exact fun selection heq => hremove ⟨selection, heq⟩

theorem keepsRecords_tasks {bundle : Path} {mode : WizardMode} {packsJson : PacksJson} {request : WizardCreateRequest}
    {dryRun : Bool} {plan : WizardPlan} (h : buildPlan mode packsJson request dryRun = .ok plan) (env : Env α) :
    KeepsDisk (RecordsKept bundle) ((tasksFor mode plan.metadata).forM (perform bundle env)) :=
  keepsDisk_tasksFor (fun _ _ htask => keepsRecords_other htask) (keepsRecords_addPacks h env)

theorem recordsKept_prepare {bundle : Path} {disk : Store α} (run : WizardRun α) (h : RecordsKept bundle disk) :
    RecordsKept bundle (run.prepare bundle disk) := by
  unfold WizardRun.prepare
  split
  next => exact recordsKept_of_changes (Changes.refl.remove trivial) h
  next => exact h

theorem recordsKept_exec {bundle : Path} (run : WizardRun α) {disk : Store α} (h : RecordsKept bundle disk) :
    RecordsKept bundle (run.exec bundle disk) := by
  unfold WizardRun.exec
  split
  next => exact h
  next plan hplan => exact keeps_executePlan (keepsRecords_tasks hplan run.env) (recordsKept_prepare run h)

/-- **Wherever runs of the wizard lead**, the records are well kept. -/
theorem recordsKept_of_reached {bundle : Path} {disk : Store α} (h : Reached bundle disk) : RecordsKept bundle disk := by
  obtain ⟨start, runs, hstart, rfl⟩ := h
  refine (@Run.invariant_run _ _ _ (RecordsKept bundle) (fun _ _ => True) _ _ (fun content hcontent => ?_)
    (fun _ run _ => recordsKept_exec run) fun _ _ => trivial).1
  rw [path_packsMetadataPath, hstart.files _ (List.prefix_append bundle _)] at hcontent
  cases hcontent

theorem wellKept_of_reached {bundle : Path} {disk : Store α} (h : Reached bundle disk)
    {records : List PackMappingRecord} (hload : loadPacksMetadata bundle disk = .ok records) : WellKept records :=
  wellKept_of_load (recordsKept_of_reached h) hload

end Wizard
