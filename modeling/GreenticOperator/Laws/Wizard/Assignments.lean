import GreenticOperator.Laws.Wizard.Records
import GreenticOperator.Lib.Run
import GreenticOperator.Lib.Tree

/-!
# The ids of a bundle, over runs of the assignment

Each run reads the records, gives the references their ids and writes the records with those of the
new packs; where it fails on the way the records stay as they were. So from a bundle without records
what is recorded only grows, each id and each reference is recorded once, and packs of different
references have different files below `packs` (`assignments_over_runs`).
-/

namespace Wizard

open Disk Disk.Files

variable {α : Type}

/-- The references of packs to be assigned are not blank. -/
def NotBlank (packs : List (ResolvedPackInfo α)) : Prop :=
  ∀ pack ∈ packs, (Text.trim pack.sourceRef).isEmpty = false

/-- The records that can be read of a bundle, each reference and each id once. -/
structure Assigned (bundle : Path) (disk : Store α) (records : List PackMappingRecord) : Prop where
  load : loadPacksMetadata bundle disk = .ok records
  settled : disk.Has (packsMetadataPath bundle).path → disk.isThere (packsMetadataPath bundle) = true
  oneToOne : OneToOne records
  named : ∀ record ∈ records, PackIdText record.packId

theorem spells_packsMetadataPath (bundle : Path) :
    Spells bundle [".greentic", "packs.json"] (packsMetadataPath bundle) :=
  spells_under (by decide) bundle

theorem path_not_mem_passed (bundle : Path) :
    (packsMetadataPath bundle).path ∉ (packsMetadataPath bundle).passed := by
  intro hmem
  obtain ⟨-, front, -, hproper, heq⟩ := (spells_packsMetadataPath bundle).passed _ hmem
  rw [path_packsMetadataPath] at heq
  exact hproper (List.append_cancel_left heq).symm

theorem assigned_of_empty {bundle : Path} {disk : Store α} (htree : disk.IsTree)
    (hload : loadPacksMetadata bundle disk = .ok []) : Assigned bundle disk [] where
  load := hload
  settled hhas := by
    refine @IsTree.isThere_of_has _ _ htree _ _ [] _ (spells_packsMetadataPath bundle) ?_
    rwa [List.append_nil, ← path_packsMetadataPath]
  oneToOne := oneToOne_nil
  named := nofun

/-! ## One run -/

section Write

variable {bundle : Path} {disk made : Store α} {records next : List PackMappingRecord}

/-- Making the directories leaves the records as they are. -/
theorem Assigned.createParents {result : Except String Unit} (h : Assigned bundle disk records)
    (hrun : (createParents (packsMetadataPath bundle)).run disk = (result, made)) : Assigned bundle made records := by
  obtain ⟨-, rfl⟩ := Prod.mk.inj hrun
  have hread := read_createDirAll disk (packsMetadataPath bundle).passed
  have hsubset := subset_dirs_createDirAll disk (packsMetadataPath bundle).passed
  have hhas : (disk.createDirAll (packsMetadataPath bundle).passed).1.Has (packsMetadataPath bundle).path →
      disk.Has (packsMetadataPath bundle).path := by
    rintro (hfile | hdir)
    · rw [hread] at hfile
      exact .inl hfile
    · rcases mem_dirs_createDirAll hdir with hmem | ⟨hmem, -⟩
      · exact .inr hmem
      · exact absurd hmem (path_not_mem_passed bundle)
  have hgrow : disk.isThere (packsMetadataPath bundle) = true →
      (disk.createDirAll (packsMetadataPath bundle).passed).1.isThere (packsMetadataPath bundle) = true := by
    unfold isThere isDir reaches
    simp only [Bool.and_eq_true, Bool.or_eq_true, List.all_eq_true, List.contains_iff_mem, hread]
    rintro ⟨hreaches, hthere⟩
    exact ⟨fun dir hdir => hsubset (hreaches dir hdir), hthere.imp_left (Or.imp_right fun hmem => hsubset hmem)⟩
  have hthere : (disk.createDirAll (packsMetadataPath bundle).passed).1.isThere (packsMetadataPath bundle)
      = disk.isThere (packsMetadataPath bundle) := by
    rw [Bool.eq_iff_iff]
    refine ⟨fun hthere => h.settled (hhas (has_of_isThere hthere ?_)), hgrow⟩
    rw [path_packsMetadataPath]
    simp
  refine ⟨?_, fun hmade => ?_, h.oneToOne, h.named⟩
  · have hload := h.load
    unfold loadPacksMetadata at hload ⊢
    rw [hthere, hread]
    exact hload
  · rw [hthere]
    exact h.settled (hhas hmade)

/-- Writing records either fails and leaves those that were there, or leads to the new ones. -/
theorem Assigned.write {result : Except String Unit} (h : Assigned bundle disk records) (hone : OneToOne next)
    (hnamed : ∀ record ∈ next, PackIdText record.packId)
    (hrun : (writePacksMetadata bundle next).run disk = (result, made)) :
    (result = .ok () ∧ Assigned bundle made next) ∨ (result ≠ .ok () ∧ Assigned bundle made records) := by
  unfold writePacksMetadata at hrun
  rw [Eff.bind_run] at hrun
  cases hdirs : (Disk.Files.createParents (packsMetadataPath bundle)).run disk with
  | mk outcome middle =>
    have hmiddle := h.createParents hdirs
    rw [hdirs] at hrun
    cases outcome with
    | error message =>
      obtain ⟨rfl, rfl⟩ := Prod.mk.inj hrun
      exact .inr ⟨nofun, hmiddle⟩
    | ok _ =>
      rcases writeFile_cases (packsMetadataPath bundle) (.records next) middle with ⟨message, hwrite⟩ | ⟨hreaches, hwrite⟩
      · obtain ⟨rfl, rfl⟩ := Prod.mk.inj (hwrite.symm.trans hrun)
        exact .inr ⟨nofun, hmiddle⟩
      · obtain ⟨rfl, rfl⟩ := Prod.mk.inj (hwrite.symm.trans hrun)
        have hthere : (middle.write (packsMetadataPath bundle).path (.records next)).isThere (packsMetadataPath bundle) = true := by
          unfold isThere
          rw [read_write_self, Option.isSome_some, Bool.or_true, Bool.and_true]
          exact hreaches
        refine .inl ⟨rfl, ?_, fun _ => hthere, hone, hnamed⟩
        unfold loadPacksMetadata
        rw [if_pos hthere, read_write_self]

end Write

/-- What a run returns: its packs under recorded ids, each with a file of its own below `packs`. -/
structure Grants (bundle : Path) (records : List PackMappingRecord) (packs assigned : List (ResolvedPackInfo α)) : Prop where
  refs : assigned.map (·.sourceRef) = packs.map (·.sourceRef)
  recorded : ∀ pack ∈ assigned, Recorded records pack.sourceRef pack.packId
  output : ∀ pack ∈ assigned, pack.outputPath = outputPath pack.packId
    ∧ (under bundle [pack.outputPath]).path = bundle ++ ["packs", fileName pack.packId]

theorem path_outputPath {id : String} (h : PackIdText id) (bundle : Path) :
    (under bundle [outputPath id]).path = bundle ++ ["packs", fileName id] := by
  have hpacks : (under bundle ["packs"]).path = bundle ++ ["packs"] := path_under_plain (by decide) bundle
  rw [outputPath, path_under_join bundle "packs" (plain_fileName (not_mem_of_not_isIdChar h (by decide))), hpacks,
    List.append_assoc, List.singleton_append]

theorem Grants.mono {bundle : Path} {records after : List PackMappingRecord} {packs assigned : List (ResolvedPackInfo α)}
    (h : Grants bundle records packs assigned)
    (hgrow : ∀ reference id, Recorded records reference id → Recorded after reference id) :
    Grants bundle after packs assigned where
  refs := h.refs
  recorded pack hpack := hgrow _ _ (h.recorded pack hpack)
  output := h.output

theorem grants_withAssignedIds {records : List PackMappingRecord} (h : OneToOne records)
    (hnamed : ∀ record ∈ records, PackIdText record.packId) (bundle : Path) (packs : List (ResolvedPackInfo α)) :
    Grants bundle (persistMetadata ((withAssignedIds records packs).map mappingRecord) records) packs
      (withAssignedIds records packs) := by
  have hnext := map_mappingRecord records packs
  have hrecorded : ∀ pack ∈ withAssignedIds records packs,
      Recorded (persistMetadata ((withAssignedIds records packs).map mappingRecord) records) pack.sourceRef pack.packId := by
    intro pack hpack
    have hassigned := List.mem_map_of_mem (f := fun pack => (pack.sourceRef, pack.packId)) hpack
    rw [map_withAssignedIds] at hassigned
    exact (recorded_persist_iff h hnext).mpr (mem_assignPackIds_iff.mp hassigned).2
  refine ⟨?_, hrecorded, fun pack hpack => ?_⟩
  · have hfst := congrArg (List.map Prod.fst) (map_withAssignedIds records packs)
    rwa [map_fst_assignPackIds, List.map_map] at hfst
  · obtain ⟨record, hrecord, -, hid⟩ := hrecorded pack hpack
    have hnamedPack : PackIdText pack.packId := hid ▸ packIdText_persist h hnamed hnext record hrecord
    have houtput := outputPath_of_mem_withAssignedIds hpack
    exact ⟨houtput, houtput ▸ path_outputPath hnamedPack bundle⟩

/-- One run of the assignment: what is recorded stays, and what is returned is recorded. -/
theorem Assigned.assign {bundle : Path} {disk : Store α} {records : List PackMappingRecord}
    {packs : List (ResolvedPackInfo α)} (h : Assigned bundle disk records) (hpacks : NotBlank packs) :
    ∃ after, Assigned bundle ((assignPackIdsAndPersistMetadata bundle packs).run disk).2 after
      ∧ (∀ reference id, Recorded records reference id → Recorded after reference id)
      ∧ ∀ assigned, ((assignPackIdsAndPersistMetadata bundle packs).run disk).1 = .ok assigned →
        Grants bundle after packs assigned := by
  rcases assign_cases bundle packs disk with ⟨hsame, hnil⟩ | ⟨loaded, hload, result, hwrite, hok⟩
  · refine ⟨records, by rw [hsame]; exact h, fun _ _ => id, fun assigned hassigned => ?_⟩
    obtain ⟨rfl, rfl⟩ := hnil assigned hassigned
    exact ⟨rfl, nofun, nofun⟩
  · cases h.load.symm.trans hload
    have hnext := map_mappingRecord records packs
    have hblank : ∀ reference ∈ packs.map (·.sourceRef), (Text.trim reference).isEmpty = false := by
      intro reference hreference
      obtain ⟨pack, hpack, rfl⟩ := List.mem_map.mp hreference
      exact hpacks pack hpack
    have hone := oneToOne_persist h.oneToOne hblank hnext
    rcases h.write hone (packIdText_persist h.oneToOne h.named hnext) hwrite with ⟨-, hafter⟩ | ⟨hfail, hafter⟩
    · refine ⟨_, hafter, fun reference id => recorded_persist_of_recorded h.oneToOne hnext, fun assigned hassigned => ?_⟩
      rw [(hok assigned hassigned).2]
      exact grants_withAssignedIds h.oneToOne h.named bundle packs
    · exact ⟨records, hafter, fun _ _ => id, fun assigned hassigned => absurd (hok assigned hassigned).1 hfail⟩

/-! ## Runs of the assignment -/

/-- One run, as what it makes of the disk. -/
def assignOn (bundle : Path) (packs : List (ResolvedPackInfo α)) (disk : Store α) : Store α :=
  ((assignPackIdsAndPersistMetadata bundle packs).run disk).2

/-- Every run that succeeds returns its packs under ids that are recorded. -/
def RunsGrant (bundle : Path) (runs : List (List (ResolvedPackInfo α))) (disk : Store α)
    (records : List PackMappingRecord) : Prop :=
  ∀ step ∈ Run.steps (assignOn bundle) runs disk, ∀ assigned,
    ((assignPackIdsAndPersistMetadata bundle step.2).run step.1).1 = .ok assigned → Grants bundle records step.2 assigned

/-- A pack that one of the runs returned. -/
def Returned (bundle : Path) (runs : List (List (ResolvedPackInfo α))) (disk : Store α) (pack : ResolvedPackInfo α) : Prop :=
  ∃ step ∈ Run.steps (assignOn bundle) runs disk, ∃ assigned,
    ((assignPackIdsAndPersistMetadata bundle step.2).run step.1).1 = .ok assigned ∧ pack ∈ assigned

theorem Assigned.run {bundle : Path} {runs : List (List (ResolvedPackInfo α))} {disk : Store α}
    {records : List PackMappingRecord} (h : Assigned bundle disk records) (hrefs : ∀ packs ∈ runs, NotBlank packs) :
    ∃ after, Assigned bundle (Run.run (assignOn bundle) runs disk) after
      ∧ (∀ reference id, Recorded records reference id → Recorded after reference id)
      ∧ RunsGrant bundle runs disk after := by
  induction runs generalizing disk records with
  | nil => exact ⟨records, h, fun _ _ => id, nofun⟩
  | cons packs runs ih =>
    obtain ⟨next, hnext, hgrow, hgrants⟩ := h.assign (hrefs packs List.mem_cons_self)
    obtain ⟨after, hafter, hrest, hruns⟩ := ih hnext fun packs hpacks => hrefs packs (List.mem_cons_of_mem _ hpacks)
    refine ⟨after, hafter, fun reference id hrecorded => hrest _ _ (hgrow _ _ hrecorded), fun step hstep => ?_⟩
    rcases List.mem_cons.mp hstep with rfl | hstep
    · exact fun assigned hassigned => (hgrants assigned hassigned).mono hrest
    · exact hruns step hstep

/-- Packs of different references have different files. -/
theorem path_eq_iff_of_grants {bundle : Path} {runs : List (List (ResolvedPackInfo α))} {disk : Store α}
    {records : List PackMappingRecord} (hone : OneToOne records) (hgrants : RunsGrant bundle runs disk records)
    {a b : ResolvedPackInfo α} (ha : Returned bundle runs disk a) (hb : Returned bundle runs disk b) :
    (under bundle [a.outputPath]).path = (under bundle [b.outputPath]).path ↔ a.sourceRef = b.sourceRef := by
  obtain ⟨step, hstep, assigned, hassigned, ha⟩ := ha
  obtain ⟨step', hstep', assigned', hassigned', hb⟩ := hb
  have hgrant := hgrants step hstep assigned hassigned
  have hgrant' := hgrants step' hstep' assigned' hassigned'
  have hrecorded := hgrant.recorded a ha
  have hrecorded' := hgrant'.recorded b hb
  constructor
  · intro heq
    rw [(hgrant.output a ha).2, (hgrant'.output b hb).2] at heq
    have hfile : fileName a.packId = fileName b.packId := by
      have hlast := List.append_cancel_left heq
      exact (List.cons.inj (List.cons.inj hlast).2).1
    have hid : a.packId = b.packId := String.append_left_inj _ |>.mp hfile
    exact hone.recorded_apart hrecorded (hid ▸ hrecorded')
  · intro href
    have hid : a.packId = b.packId := hone.recorded_inj hrecorded (href ▸ hrecorded')
    rw [(hgrant.output a ha).2, (hgrant'.output b hb).2, hid]

/-- **The ids of a bundle, over runs of the assignment**: from a bundle without records, whatever packs
are assigned one run after another, what is recorded after some of the runs is recorded after all, each
reference and each id once; the packs are returned under the ids that are recorded, those of different
references with different files below `packs`; and an id that is allocated is the first that is free. -/
theorem assignments_over_runs {bundle : Path} {disk : Store α} (htree : disk.IsTree)
    (hempty : loadPacksMetadata bundle disk = .ok []) {first rest : List (List (ResolvedPackInfo α))}
    (hrefs : ∀ packs ∈ first ++ rest, NotBlank packs) :
    (∃ before after,
      loadPacksMetadata bundle (Run.run (assignOn bundle) first disk) = .ok before
        ∧ loadPacksMetadata bundle (Run.run (assignOn bundle) (first ++ rest) disk) = .ok after
        ∧ OneToOne before ∧ OneToOne after
        ∧ (∀ reference id, Recorded before reference id → Recorded after reference id)
        ∧ RunsGrant bundle (first ++ rest) disk after)
      ∧ (∀ a b, Returned bundle (first ++ rest) disk a → Returned bundle (first ++ rest) disk b →
        ((under bundle [a.outputPath]).path = (under bundle [b.outputPath]).path ↔ a.sourceRef = b.sourceRef))
      ∧ ∀ base used, IsNextFree used base (allocateUniquePackId base used) := by
  have hstart := assigned_of_empty htree hempty
  obtain ⟨before, hbefore, -, -⟩ := hstart.run fun packs hpacks => hrefs packs (List.mem_append_left _ hpacks)
  obtain ⟨grown, hgrown, hgrow, -⟩ := hbefore.run fun packs hpacks => hrefs packs (List.mem_append_right _ hpacks)
  obtain ⟨after, hafter, -, hgrants⟩ := hstart.run hrefs
  have hsame : grown = after := by
    have hload := hgrown.load
    rw [Run.run, Run.run, ← List.foldl_append, ← Run.run, hafter.load] at hload
    exact (Except.ok.inj hload).symm
  subst hsame
  exact ⟨⟨before, grown, hbefore.load, hafter.load, hbefore.oneToOne, hafter.oneToOne, hgrow, hgrants⟩,
    fun a b ha hb => path_eq_iff_of_grants hafter.oneToOne hgrants ha hb, isNextFree_allocate⟩

/-- A pack from a registry. -/
def registryPack (reference : String) : ResolvedPackInfo Unit where
  sourceRef := reference
  resolvedDigest := "sha256:0"
  packId := ""
  entryFlows := []
  cached := some ()
  outputPath := ""

/-- Two registries have a pack of one name. -/
theorem assignments_of_two_registries :
    (∃ before after,
      loadPacksMetadata ["b"] (Run.run (assignOn ["b"]) [[registryPack "repo://a/chat"]] empty) = .ok before
        ∧ loadPacksMetadata ["b"] (Run.run (assignOn ["b"]) ([[registryPack "repo://a/chat"]]
          ++ [[registryPack " store://b/chat", registryPack "repo://a/chat"]]) empty) = .ok after
        ∧ OneToOne before ∧ OneToOne after
        ∧ (∀ reference id, Recorded before reference id → Recorded after reference id)
        ∧ RunsGrant ["b"] ([[registryPack "repo://a/chat"]]
          ++ [[registryPack " store://b/chat", registryPack "repo://a/chat"]]) empty after)
      ∧ (∀ a b, Returned ["b"] ([[registryPack "repo://a/chat"]]
          ++ [[registryPack " store://b/chat", registryPack "repo://a/chat"]]) empty a →
        Returned ["b"] ([[registryPack "repo://a/chat"]]
          ++ [[registryPack " store://b/chat", registryPack "repo://a/chat"]]) empty b →
        ((under ["b"] [a.outputPath]).path = (under ["b"] [b.outputPath]).path ↔ a.sourceRef = b.sourceRef))
      ∧ ∀ base used, IsNextFree used base (allocateUniquePackId base used) := by
  refine assignments_over_runs (by decide) (by decide) fun packs hpacks pack hpack => ?_
  rcases List.mem_cons.mp hpacks with rfl | hpacks
  · rw [List.mem_singleton.mp hpack]
    decide
  · rw [List.mem_singleton.mp hpacks] at hpack
    rcases List.mem_cons.mp hpack with rfl | hpack
    · decide
    · rw [List.mem_singleton.mp hpack]
      decide

end Wizard
