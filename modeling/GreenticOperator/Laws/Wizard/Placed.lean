import GreenticOperator.Laws.Wizard.Assignments

/-!
# Where the files of a bundle are

Every file that the wizard writes below a bundle has plain names, and a pack lies in `packs` or in a
directory of `providers` and no deeper: that holds of what each task writes, and so wherever runs of
the wizard lead (`filesPlaced_of_reached`).
-/

namespace Wizard

open Disk Disk.Files

variable {α : Type}

/-! ## Where files are -/

/-- The places of packs below a bundle. -/
def PackPlace (rest : Path) : Prop :=
  (∃ name, rest = ["packs", name]) ∨ ∃ dir name, rest = ["providers", dir, name]

/-- A file below a bundle has plain names, and is at a place of packs where it is one. -/
def WellPlaced (bundle p : Path) (content : Content α) : Prop :=
  ∀ rest, p = bundle ++ rest → (∀ name ∈ rest, Plain name)
    ∧ ∀ bytes, content = .pack bytes → extension p = some "gtpack" → PackPlace rest

/-- Files may be written where they are well placed. -/
def WritesPlaced (bundle : Path) : Change (Content α) → Prop
  | .write p content => WellPlaced bundle p content
  | _ => True

/-- A name that has an extension ends with it. -/
theorem suffix_of_splitExtension {name ext : String} (h : (splitExtension name).2 = some ext) :
    '.' :: ext.toList <:+ name.toList := by
  have hsplit := List.takeWhile_append_dropWhile (p := (· != '.')) (l := name.toList.reverse)
  unfold splitExtension at h
  dsimp only at h
  split at h
  next => cases h
  next => cases h
  next dot stem hne hdrop =>
    cases h
    have hdot : dot = '.' := by
      have hhead := List.head?_dropWhile_not (p := (· != '.')) (l := name.toList.reverse)
      rw [hdrop] at hhead
      simpa using hhead
    rw [hdrop, hdot] at hsplit
    refine ⟨stem.reverse, ?_⟩
    rw [String.toList_ofList, ← List.reverse_inj, List.reverse_append, List.reverse_cons, List.reverse_reverse,
      List.reverse_reverse, List.append_assoc, List.singleton_append, hsplit]

theorem extension_ne_of_suffix {p : Path} {name back : String} (hlast : p.getLast? = some (name ++ back))
    (hback : ¬back.toList <:+ ".gtpack".toList) (hshort : back.toList.length ≤ 7) : extension p ≠ some "gtpack" := by
  intro h
  unfold extension at h
  rw [hlast, Option.bind_some] at h
  refine hback (List.suffix_of_suffix_length_le ?_ (suffix_of_splitExtension h) hshort)
  rw [String.toList_append]
  exact List.suffix_append _ _

theorem extension_concat (p : Path) (name : String) : extension (p ++ [name]) = (splitExtension name).2 := by
  rw [extension, List.getLast?_concat, Option.bind_some]

theorem extension_fileName {id : String} (h : PackIdText id) : (splitExtension (fileName id)).2 = some "gtpack" := by
  have hreversed : (fileName id).toList.reverse = "kcaptg".toList ++ '.' :: id.toList.reverse := by
    rw [fileName, String.toList_append, List.reverse_append]
    rfl
  have hletters : ∀ c ∈ "kcaptg".toList, (c != '.') = true := by
    refine List.all_eq_true.mp ?_
    decide +kernel
  unfold splitExtension
  dsimp only
  rw [hreversed, List.dropWhile_append_of_pos hletters, List.takeWhile_append_of_pos hletters,
    List.dropWhile_cons_of_neg (by decide), List.takeWhile_cons_of_neg (by decide)]
  cases hid : id.toList.reverse with
  | nil => exact absurd (by simpa using hid) h.not_empty
  | cons c stem => rfl

/-- The names that other tasks write end in no extension of packs. -/
theorem extension_of_otherName {p : Path} {name : String} (hlast : p.getLast? = some name) (h : OtherName name) :
    extension p ≠ some "gtpack" := by
  rcases h with h | ⟨front, rfl⟩
  · have hnames : ∀ other ∈ ["greentic.demo.yaml", "tenant.gmap", "team.gmap", "providers.json"],
        (splitExtension other).2 ≠ some "gtpack" := by decide
    rw [extension, hlast]
    exact hnames name h
  · exact extension_ne_of_suffix hlast (by decide) (by decide)

theorem allowsOther_placed (bundle : Path) : AllowsOther (@WritesPlaced α bundle) bundle where
  dirs _ := trivial
  files texts name content hlast hname rest hrest :=
    ⟨plain_of_under hrest, fun _ _ hextension => absurd hextension (extension_of_otherName hlast hname)⟩
  defaults texts text hlast rest hrest := ⟨plain_of_under hrest, fun _ hpack => by cases hpack⟩

theorem changes_other_placed {bundle : Path} {env : Env α} {task : Task} (h : task.AddsNoPacks)
    (execution : Execution α) : Changes (WritesPlaced bundle) execution.disk ((perform bundle env task).run execution).2.disk := by
  by_cases hremove : ∃ selection, task = .removePack selection
  · obtain ⟨selection, rfl⟩ := hremove
    rw [perform, onDisk_run]
    exact changes_applyPackRemove (fun _ _ _ _ => trivial) fun _ _ => trivial
  · refine (allowsOther_placed bundle).changes h ?_ (fun _ _ => trivial) execution
    exact fun selection heq => hremove ⟨selection, heq⟩

/-! ## The invariant -/

def FilesPlaced (bundle : Path) (disk : Store α) : Prop :=
  ∀ p content, disk.read p = some content → WellPlaced bundle p content

theorem filesPlaced_of_changes {bundle : Path} {disk disk' : Store α} (h : Changes (WritesPlaced bundle) disk disk')
    (hplaced : FilesPlaced bundle disk) : FilesPlaced bundle disk' := by
  intro p content hread
  rcases h.read_cases p with hsame | hnone | ⟨written, hok, hwritten⟩
  · exact hplaced p content (hsame ▸ hread)
  · rw [hnone] at hread
    cases hread
  · rw [hwritten] at hread
    cases hread
    exact hok

theorem mem_of_providerDomainDir {id domainDir : String} (h : providerDomainDir id = some domainDir) :
    domainDir ∈ ["messaging", "events", "oauth"] := by
  unfold providerDomainDir at h
  split at h
  next =>
    cases h
    decide
  next =>
    split at h
    next =>
      cases h
      decide
    next =>
      split at h
      next =>
        cases h
        decide
      next => cases h

theorem plain_domainDir {id domainDir : String} (h : providerDomainDir id = some domainDir) : Plain domainDir := by
  have hplain : ∀ dir ∈ ["messaging", "events", "oauth"], Plain dir := by decide
  exact hplain domainDir (mem_of_providerDomainDir h)

section Added

variable {bundle : Path} {records : List PackMappingRecord} {packs : List (ResolvedPackInfo α)}
  {pack : ResolvedPackInfo α}

theorem path_output (h : WellKept records) (bundle : Path) (hpack : pack ∈ withAssignedIds records packs) :
    (under bundle [pack.outputPath]).path = bundle ++ ["packs", fileName pack.packId] :=
  ((grants_withAssignedIds h.oneToOne h.named bundle packs).output pack hpack).2

theorem moves_copy_placed (h : WellKept records) (hpack : pack ∈ withAssignedIds records packs) :
    Eff.Moves (Changes (WritesPlaced bundle)) (copyPackIntoBundle bundle pack) := by
  refine moves_copyPackIntoBundle ⟨fun _ _ => trivial, fun content rest hrest => ?_⟩
  refine ⟨plain_of_under hrest, fun _ _ _ => ?_⟩
  rw [path_output h bundle hpack] at hrest
  exact .inl ⟨_, (List.append_cancel_left hrest).symm⟩

theorem getLast_output (h : WellKept records) (bundle : Path) (hpack : pack ∈ withAssignedIds records packs) :
    (under bundle [pack.outputPath]).path.getLast? = some (fileName pack.packId) := by
  rw [path_output h bundle hpack, List.getLast?_append_of_ne_nil _ (by simp)]
  rfl

theorem plain_output (h : WellKept records) (bundle : Path) (hpack : pack ∈ withAssignedIds records packs) :
    Plain (fileName pack.packId) :=
  plain_of_under (path_output h bundle hpack) _ (by simp)

theorem path_link (h : WellKept records) (bundle : Path) (hpack : pack ∈ withAssignedIds records packs)
    {domainDir : String} (hdomain : providerDomainDir pack.packId = some domainDir) :
    (under bundle ["providers", domainDir, fileName pack.packId]).path
      = bundle ++ ["providers", domainDir, fileName pack.packId] := by
  refine path_under_plain (fun part hpart => ?_) bundle
  simp only [List.mem_cons, List.not_mem_nil, or_false] at hpart
  rcases hpart with rfl | rfl | rfl
  · decide
  · exact plain_domainDir hdomain
  · exact plain_output h bundle hpack

theorem moves_link_placed (h : WellKept records) (hpack : pack ∈ withAssignedIds records packs) :
    Eff.Moves (Changes (WritesPlaced bundle)) (linkPackToProviderDir bundle pack) := by
  refine moves_linkPackToProviderDir (fun _ _ => (allowsOther_placed bundle).dirsAt _)
    fun domainDir name hdomain hname => ?_
  rw [getLast_output h bundle hpack, Option.some.injEq] at hname
  subst hname
  refine ⟨fun _ _ => trivial, fun content rest hrest => ⟨plain_of_under hrest, fun _ _ _ => ?_⟩⟩
  rw [path_link h bundle hpack hdomain] at hrest
  exact .inr ⟨domainDir, _, (List.append_cancel_left hrest).symm⟩

theorem filesPlaced_addResolved {disk : Store α} (hkept : RecordsKept bundle disk) (h : FilesPlaced bundle disk) :
    FilesPlaced bundle ((addResolved bundle packs).run disk).2 := by
  have hrecords : ∀ next, Changes (WritesPlaced bundle) disk ((writePacksMetadata bundle next).run disk).2 := by
    intro next
    refine moves_writePacksMetadata (fun _ _ => trivial) (fun _ hrest => ?_) disk
    exact ⟨plain_of_under hrest, fun _ hpack => by cases hpack⟩
  have hassigned := assign_cases bundle packs disk
  unfold addResolved
  rw [Eff.bind_run]
  cases hrun : (assignPackIdsAndPersistMetadata bundle packs).run disk with
  | mk result disk' =>
    rw [hrun] at hassigned
    rcases hassigned with ⟨rfl, hnil⟩ | ⟨records, hload, _, hwrite, heq⟩
    · cases result with
      | error message => exact h
      | ok assigned =>
        rw [(hnil assigned rfl).2]
        exact h
    · have hplaced : FilesPlaced bundle disk' := by
        have hchanges := hrecords (persistMetadata ((withAssignedIds records packs).map mappingRecord) records)
        rw [hwrite] at hchanges
        exact filesPlaced_of_changes hchanges h
      cases result with
      | error message => exact hplaced
      | ok assigned =>
        rw [(heq assigned rfl).2]
        have hwell := wellKept_of_load hkept hload
        have hmoves : Eff.Moves (Changes (WritesPlaced bundle)) (do
            (withAssignedIds records packs).forM (copyPackIntoBundle bundle)
            linkPacksToProviderDirs bundle (withAssignedIds records packs)) :=
          moves_bind (moves_forM fun _ hpack => moves_copy_placed hwell hpack) fun _ =>
            moves_forM fun _ hpack => moves_link_placed hwell hpack
        exact filesPlaced_of_changes (hmoves disk') hplaced

end Added

/-- The records are well kept, and the files well placed. -/
structure Kept (bundle : Path) (disk : Store α) : Prop where
  records : RecordsKept bundle disk
  files : FilesPlaced bundle disk

theorem kept_exec {bundle : Path} (run : WizardRun α) {disk : Store α} (h : Kept bundle disk) :
    Kept bundle (run.exec bundle disk) := by
  refine ⟨recordsKept_exec run h.records, ?_⟩
  have hprepared : Kept bundle (run.prepare bundle disk) := by
    refine ⟨recordsKept_prepare run h.records, ?_⟩
    unfold WizardRun.prepare
    split
    next => exact filesPlaced_of_changes (Changes.refl.remove trivial) h.files
    next => exact h.files
  unfold WizardRun.exec
  split
  next => exact h.files
  next plan hplan =>
    refine (@keeps_executePlan _ (Kept bundle) _ _ _ _
      (keepsDisk_tasksFor (fun task _ htask execution hkept => ?_) ?_) _ hprepared).files
    · exact ⟨keepsRecords_other htask execution hkept.records,
        filesPlaced_of_changes (changes_other_placed htask execution) hkept.files⟩
    · refine keepsDisk_addPacks fun packs disk hpacks hkept => ?_
      exact ⟨recordsKept_addResolved (goodRefs_resolved hplan hpacks) hkept.records,
        filesPlaced_addResolved hkept.records hkept.files⟩

/-- **Wherever runs of the wizard lead**, files are well placed. -/
theorem filesPlaced_of_reached {bundle : Path} {disk : Store α} (h : Reached bundle disk) : FilesPlaced bundle disk := by
  obtain ⟨start, runs, hstart, rfl⟩ := h
  have hnothing : ∀ p content, start.read p = some content → ∀ rest, p ≠ bundle ++ rest := by
    rintro _ content hread rest rfl
    rw [hstart.files _ (List.prefix_append bundle rest)] at hread
    cases hread
  have hkept : Kept bundle start := by
    refine ⟨fun content hcontent => ?_, fun p content hread rest hrest => absurd hrest (hnothing p content hread rest)⟩
    exact absurd (path_packsMetadataPath bundle) (hnothing _ content hcontent _)
  exact (@Run.invariant_run _ _ _ (Kept bundle) (fun _ _ => True) runs start hkept
    (fun _ run _ => kept_exec run) fun _ _ => trivial).1.files

end Wizard
