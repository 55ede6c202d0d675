import GreenticOperator.Laws.Wizard.References

/-!
# What the removal of a pack removes

A removal goes by names: it removes the entries of `packs` that are named as the id it comes to, or
begin with that id and a dot, and the default of its scope. A pack is a file with the ending of one,
or a directory; an entry belongs to the pack with the longest id that it goes by (`FileOf`). A removal leaves the entries of other packs where they
are exactly where none of them goes by that name (`removesOnly_iff`).
-/

namespace Wizard

open Disk Disk.Files

variable {α : Type}

/-! ## Packs and their entries -/

/-- The directory of the packs, which is there as a text leads to it. -/
def packsPlace (bundle : Path) : Place := under bundle ["packs"]

theorem path_packsPlace (bundle : Path) : (packsPlace bundle).path = bundle ++ ["packs"] :=
  path_under_plain (by decide) bundle

/-- The entries of `packs`. -/
def packEntries (bundle : Path) (disk : Store α) : List String := disk.entries (bundle ++ ["packs"])

/-- The id of the pack that an entry of `packs` is: a pack is a file with the ending of one, or any
directory. -/
def packIdOfEntry (isDir : Bool) (name : String) : Option String :=
  ((Text.stripSuffix ".gtpack" name).filter fun id => !id.isEmpty).or (if isDir then some name else none)

/-- The ids of the packs that lie in `packs`. -/
def packIds (bundle : Path) (disk : Store α) : List String :=
  (packEntries bundle disk).filterMap fun name => packIdOfEntry (disk.isDir (bundle ++ ["packs", name])) name

/-- The pack that a text names, with the ids of those that lie in `packs`: a plain text is an id; any
other is one that is recorded, or else a reference of a record, the first one; or else the id of a
pack that lies in `packs`; or else a reference from which an id is derived. -/
inductive Denotes (records : List PackMappingRecord) (ids : List String) (text : String) : String → Prop
  | plain : isPlain text = true → Denotes records ids text text
  | id : isPlain text = false → text ∈ records.map (·.packId) → Denotes records ids text text
  | reference {record : PackMappingRecord} : isPlain text = false → text ∉ records.map (·.packId) →
    records.find? (·.originalRef == text) = some record → Denotes records ids text record.packId
  | lying : isPlain text = false → text ∉ records.map (·.packId) → text ∉ records.map (·.originalRef) →
    text ∈ ids → Denotes records ids text text
  | derived : isPlain text = false → text ∉ records.map (·.packId) → text ∉ records.map (·.originalRef) →
    text ∉ ids → Denotes records ids text (derivePackIdFromReference text)

/-- The id of a pack of the bundle: one that is recorded, or that a pack in `packs` has. -/
def IsPackId (records : List PackMappingRecord) (ids : List String) (id : String) : Prop :=
  id ∈ records.map (·.packId) ∨ id ∈ ids

/-- An entry of `packs` that belongs to a pack: no other pack of the bundle has a longer id that the
entry goes by. -/
def FileOf (records : List PackMappingRecord) (ids : List String) (id name : String) : Prop :=
  carries id name = true ∧ ∀ other, IsPackId records ids other → carries other name = true →
    other.toList.length ≤ id.toList.length

/-- What belongs in `packs` to another pack than the one of an id. -/
def OfOtherPack (bundle : Path) (disk : Store α) (id : String) (p : Path) : Prop :=
  ∃ name, bundle ++ ["packs", name] <+: p ∧ ¬FileOf (recordsIn bundle disk) (packIds bundle disk) id name

/-- **The removal of a pack removes only that pack**: what belongs to others stays, and is as it was. -/
def RemovesOnly (bundle : Path) (selection : PackRemoveSelection) (disk : Store α) : Prop :=
  ∀ id, Denotes (recordsIn bundle disk) (packIds bundle disk) (Text.trim selection.packIdentifier) id →
    SameAt (OfOtherPack bundle disk id) disk ((applyPackRemove bundle selection).run disk).2

/-! ## What is removed -/

theorem mem_of_find?_reference {records : List PackMappingRecord} {record : PackMappingRecord} {text : String}
    (h : records.find? (·.originalRef == text) = some record) : text ∈ records.map (·.originalRef) := by
  have hfound := List.find?_some h
  rw [beq_iff_eq] at hfound
  exact List.mem_map.mpr ⟨record, List.mem_of_find?_eq_some h, hfound⟩

/-- A text denotes one pack. -/
theorem Denotes.unique {records : List PackMappingRecord} {ids : List String} {text id id' : String}
    (h : Denotes records ids text id) (h' : Denotes records ids text id') : id = id' := by
  cases h with
  | plain hplain => cases h' <;> simp_all
  | id hnot hid => cases h' <;> simp_all
  | reference hnot hid hreference =>
    have hmem := mem_of_find?_reference hreference
    cases h' with
    | plain hplain => exact absurd hplain (Bool.eq_false_iff.mp hnot)
    | id _ hid' => exact absurd hid' hid
    | reference _ _ hreference' => rw [Option.some.inj (hreference.symm.trans hreference')]
    | lying _ _ hreference' => exact absurd hmem hreference'
    | derived _ _ hreference' => exact absurd hmem hreference'
  | lying hnot hid hreference hids =>
    cases h' with
    | reference _ _ hreference' => exact absurd (mem_of_find?_reference hreference') hreference
    | derived _ _ _ hids' => exact absurd hids hids'
    | _ => rfl
  | derived hnot hid hreference hids =>
    cases h' with
    | plain hplain => exact absurd hplain (Bool.eq_false_iff.mp hnot)
    | id _ hid' => exact absurd hid' hid
    | reference _ _ hreference' => exact absurd (mem_of_find?_reference hreference') hreference
    | lying _ _ _ hids' => exact absurd hids' hids
    | derived => rfl

theorem exists_canonical {packsJson : PacksJson} {identifier : String} (h : Text.trim identifier ≠ "") :
    ∃ id, canonicalPackIdentifier packsJson identifier = .ok id
      ∧ Denotes (packsJson.toOption.getD []) [] (Text.trim identifier) id := by
  unfold canonicalPackIdentifier
  dsimp only
  rw [if_neg fun hblank => h (String.isEmpty_iff.mp hblank)]
  generalize Text.trim identifier = text
  generalize packsJson.toOption.getD [] = records
  split
  next hplain => exact ⟨text, rfl, .plain hplain⟩
  next hplain =>
    have hnot := Bool.not_eq_true _ ▸ hplain
    split
    next record hid =>
      have hfound := List.find?_some hid
      rw [beq_iff_eq] at hfound
      exact ⟨record.packId, rfl, hfound ▸ .id (hfound ▸ hnot) (List.mem_map_of_mem (List.mem_of_find?_eq_some hid))⟩
    next hid =>
      have hnotId : text ∉ records.map (·.packId) := by
        rintro hmem
        obtain ⟨record, hrecord, heq⟩ := List.mem_map.mp hmem
        exact List.find?_eq_none.mp hid record hrecord (beq_iff_eq.mpr heq)
      split
      next record hreference => exact ⟨record.packId, rfl, .reference hnot hnotId hreference⟩
      next hreference =>
        have hnotReference : text ∉ records.map (·.originalRef) := by
          rintro hmem
          obtain ⟨record, hrecord, heq⟩ := List.mem_map.mp hmem
          exact List.find?_eq_none.mp hreference record hrecord (beq_iff_eq.mpr heq)
        exact ⟨_, rfl, .derived hnot hnotId hnotReference List.not_mem_nil⟩

theorem canonicalPackIdentifier_of_blank {packsJson : PacksJson} {identifier : String} (h : Text.trim identifier = "") :
    canonicalPackIdentifier packsJson identifier = .error "pack identifier must not be empty" := by
  unfold canonicalPackIdentifier
  dsimp only
  rw [if_pos (String.isEmpty_iff.mpr h)]

/-- The names that a removal goes through. -/
def listedIn (bundle : Path) (disk : Store α) : List String :=
  if disk.isThere (packsPlace bundle) then packEntries bundle disk else []

/-- The entries that go by an id. -/
def carriedPaths (bundle : Path) (disk : Store α) (packId : String) : List Path :=
  ((listedIn bundle disk).filter (carries packId)).map fun name => bundle ++ ["packs", name]

theorem mem_carriedPaths {bundle p : Path} {disk : Store α} {packId : String} :
    p ∈ carriedPaths bundle disk packId
      ↔ ∃ name ∈ listedIn bundle disk, carries packId name = true ∧ p = bundle ++ ["packs", name] := by
  simp only [carriedPaths, List.mem_map, List.mem_filter, and_assoc, eq_comm]

/-- A file lies where the packs should, so a removal fails and removes nothing. -/
def Blocked (bundle : Path) (disk : Store α) : Prop :=
  disk.isThere (packsPlace bundle) = true ∧ disk.isDir (packsPlace bundle).path = false

theorem removePackFiles_run_of_blocked {bundle : Path} {packId : String} {disk : Store α} (h : Blocked bundle disk) :
    (removePackFiles bundle packId).run disk = (.error "not a directory", disk) := by
  have hlist : (listIfExists (packsPlace bundle)).run disk = (.error "not a directory", disk) := by
    unfold listIfExists thereAt
    rw [Eff.bind_run, Eff.read_run]
    dsimp only
    rw [if_pos h.1, Eff.bind_run, Eff.read_run]
    dsimp only
    rw [if_neg (Bool.eq_false_iff.mp h.2)]
    rfl
  exact Eff.bind_run_of_error hlist

theorem removePackFiles_run {bundle : Path} {packId : String} {disk : Store α} (h : ¬Blocked bundle disk) :
    (removePackFiles bundle packId).run disk
      = (.ok (), disk.removeEach (carriedPaths bundle disk packId)) := by
  have hlist : (listIfExists (packsPlace bundle)).run disk = (.ok (listedIn bundle disk), disk) := by
    unfold listIfExists thereAt listedIn
    rw [Eff.bind_run, Eff.read_run]
    dsimp only
    split
    next hthere =>
      rw [Eff.bind_run, Eff.read_run]
      dsimp only
      rw [if_pos (Bool.of_not_eq_false fun hdir => h ⟨hthere, hdir⟩), packEntries, ← path_packsPlace]
      rfl
    next => rfl
  unfold removePackFiles
  exact (Eff.bind_run_of_ok hlist).trans (forM_remove_run _ (fun name => ⟨bundle ++ ["packs", name], []⟩) disk)

/-- A place that is there, and still is when the entries that go by an id are gone. -/
def StillThere (bundle : Path) (disk : Store α) (packId : String) (place : Place) : Prop :=
  disk.isThere place = true ∧ ∀ dir ∈ place.path :: place.passed, ∀ name ∈ listedIn bundle disk,
    carries packId name = true → ¬bundle ++ ["packs", name] <+: dir

/-- A removal removes the entries that go by the id it comes to, and the default of its scope. -/
theorem exists_removeEach {bundle : Path} {selection : PackRemoveSelection} {disk : Store α} {packId : String}
    (h : ¬Blocked bundle disk)
    (hid : canonicalPackIdentifier (loadPacksMetadata bundle disk) selection.packIdentifier = .ok packId) :
    ∃ paths, ((applyPackRemove bundle selection).run disk).2 = disk.removeEach paths
      ∧ ∀ p, p ∈ paths ↔ (∃ name ∈ listedIn bundle disk, carries packId name = true ∧ p = bundle ++ ["packs", name])
        ∨ ∃ target, defaultTarget bundle (selection.scope.getD .Bundle) = some target
          ∧ StillThere bundle disk packId target ∧ p = target.path := by
  have hresolve : (resolvePackIdentifier bundle selection.packIdentifier).run disk = (.ok packId, disk) := by
    change (canonicalPackIdentifier (loadPacksMetadata bundle disk) selection.packIdentifier, disk) = _
    rw [hid]
  unfold applyPackRemove
  rw [Eff.bind_run_of_ok hresolve, Eff.bind_run_of_ok (removePackFiles_run h)]
  cases htarget : defaultTarget bundle (selection.scope.getD .Bundle) with
  | none =>
    refine ⟨carriedPaths bundle disk packId, ?_, fun p => mem_carriedPaths.trans (or_iff_left ?_).symm⟩
    · exact (@moves_markDanglingDefaults _ (fun _ => False) bundle _).eq_of_none fun _ => id
    · rintro ⟨_, heq, -⟩
      cases heq
  | some target =>
    have hstill : (disk.removeEach (carriedPaths bundle disk packId)).isThere target = true
        ↔ StillThere bundle disk packId target := by
      rw [isThere_removeEach_iff]
      · refine and_congr_right fun _ => forall₂_congr fun dir _ => ?_
        constructor
        · exact fun hspared name hname hcarries => hspared _ (mem_carriedPaths.mpr ⟨name, hname, hcarries, rfl⟩)
        · intro hspared p hp
          obtain ⟨name, hname, hcarries, rfl⟩ := mem_carriedPaths.mp hp
          exact hspared name hname hcarries
      · intro p hp
        obtain ⟨name, -, -, rfl⟩ := mem_carriedPaths.mp hp
        simp
    dsimp only
    unfold removeIfExists thereAt
    rw [Eff.bind_run, Eff.read_run]
    dsimp only
    split
    next hthere =>
      refine ⟨carriedPaths bundle disk packId ++ [target.path], ?_, fun p => ?_⟩
      · unfold removeEach
        rw [List.foldl_append]
        rfl
      · rw [List.mem_append, List.mem_singleton, mem_carriedPaths]
        refine or_congr_right ⟨fun heq => ⟨target, rfl, hstill.mp hthere, heq⟩, ?_⟩
        rintro ⟨_, heq, -, rfl⟩
        cases heq
        rfl
    next hthere =>
      refine ⟨carriedPaths bundle disk packId, rfl, fun p => mem_carriedPaths.trans (or_iff_left ?_).symm⟩
      rintro ⟨_, heq, hthere', -⟩
      cases heq
      exact hthere (hstill.mpr hthere')

/-! ## Where other packs are spared -/

/-- Nothing of another pack than the one of `id` is hit by a removal that comes to the id `packId`. -/
structure SparesOthers (bundle : Path) (selection : PackRemoveSelection) (disk : Store α) (id packId : String) : Prop where
  entries : ∀ name ∈ listedIn bundle disk, carries packId name = true →
    FileOf (recordsIn bundle disk) (packIds bundle disk) id name
  target : ∀ target, defaultTarget bundle (selection.scope.getD .Bundle) = some target →
    StillThere bundle disk packId target → ∀ p, OfOtherPack bundle disk id p → disk.Has p → ¬target.path <+: p

theorem mem_packEntries_of_listed {bundle : Path} {disk : Store α} {name : String} (h : name ∈ listedIn bundle disk) :
    name ∈ packEntries bundle disk := by
  unfold listedIn at h
  split at h
  next => exact h
  next => cases h

theorem eq_of_prefix_entries {bundle p : Path} {name other : String} (h : bundle ++ ["packs", name] <+: p)
    (hother : bundle ++ ["packs", other] <+: p) : name = other := by
  have heq := List.append_cancel_left ((List.prefix_of_prefix_length_le h hother (by simp)).eq_of_length (by simp))
  rw [List.cons.injEq, List.cons.injEq] at heq
  exact heq.2.1

theorem sameAt_iff_sparesOthers {bundle : Path} {selection : PackRemoveSelection} {disk : Store α} {id packId : String}
    (h : ¬Blocked bundle disk)
    (hid : canonicalPackIdentifier (loadPacksMetadata bundle disk) selection.packIdentifier = .ok packId) :
    SameAt (OfOtherPack bundle disk id) disk ((applyPackRemove bundle selection).run disk).2
      ↔ SparesOthers bundle selection disk id packId := by
  obtain ⟨paths, hafter, hpaths⟩ := exists_removeEach h hid
  rw [hafter, SameAt.removeEach_iff]
  constructor
  · intro hspared
    refine ⟨fun name hname hcarries => ?_, fun target htarget hstill p hp hhas => ?_⟩
    · by_contra hother
      obtain ⟨p, hp, hprefix⟩ := mem_entries.mp (mem_packEntries_of_listed hname)
      rw [List.append_assoc, List.singleton_append] at hprefix
      exact hspared p ⟨name, hprefix, hother⟩ (has_of_mem hp) _ ((hpaths _).mpr (.inl ⟨name, hname, hcarries, rfl⟩)) hprefix
    · exact hspared p hp hhas _ ((hpaths _).mpr (.inr ⟨target, htarget, hstill, rfl⟩))
  · intro hspared q hq hhas p hp
    rcases (hpaths p).mp hp with ⟨name, hname, hcarries, rfl⟩ | ⟨target, htarget, hstill, rfl⟩
    · intro hprefix
      obtain ⟨other, hother, hnot⟩ := hq
      rw [eq_of_prefix_entries hother hprefix] at hnot
      exact hnot (hspared.entries name hname hcarries)
    · exact hspared.target target htarget hstill q hq hhas

theorem disk_applyPackRemove_of_blank {bundle : Path} {selection : PackRemoveSelection} {disk : Store α}
    (h : Text.trim selection.packIdentifier = "") : ((applyPackRemove bundle selection).run disk).2 = disk := by
  have hresolve : (resolvePackIdentifier bundle selection.packIdentifier).run disk
      = (.error "pack identifier must not be empty", disk) := by
    change (canonicalPackIdentifier (loadPacksMetadata bundle disk) selection.packIdentifier, disk) = _
    rw [canonicalPackIdentifier_of_blank h]
  unfold applyPackRemove
  rw [Eff.bind_run_of_error hresolve]

theorem disk_applyPackRemove_of_blocked {bundle : Path} {selection : PackRemoveSelection} {disk : Store α} {packId : String}
    (h : Blocked bundle disk)
    (hid : canonicalPackIdentifier (loadPacksMetadata bundle disk) selection.packIdentifier = .ok packId) :
    ((applyPackRemove bundle selection).run disk).2 = disk := by
  have hresolve : (resolvePackIdentifier bundle selection.packIdentifier).run disk = (.ok packId, disk) := by
    change (canonicalPackIdentifier (loadPacksMetadata bundle disk) selection.packIdentifier, disk) = _
    rw [hid]
  unfold applyPackRemove
  rw [Eff.bind_run_of_ok hresolve, Eff.bind_run_of_error (removePackFiles_run_of_blocked h)]

/-- **A removal removes only what belongs to its pack** exactly where it fails, or where no entry of
another pack goes by the id that it comes to and the default of its scope is not one of them. -/
theorem removesOnly_iff (bundle : Path) (selection : PackRemoveSelection) (disk : Store α) :
    RemovesOnly bundle selection disk
      ↔ Text.trim selection.packIdentifier = "" ∨ Blocked bundle disk
        ∨ ∀ id packId,
          Denotes (recordsIn bundle disk) (packIds bundle disk) (Text.trim selection.packIdentifier) id →
          Denotes (recordsIn bundle disk) [] (Text.trim selection.packIdentifier) packId →
          SparesOthers bundle selection disk id packId := by
  by_cases hblank : Text.trim selection.packIdentifier = ""
  · refine iff_of_true (fun id _ => ?_) (.inl hblank)
    rw [disk_applyPackRemove_of_blank hblank]
    exact .refl disk
  · obtain ⟨packId, hid, hdenotes⟩ := @exists_canonical (loadPacksMetadata bundle disk) _ hblank
    by_cases hblocked : Blocked bundle disk
    · refine iff_of_true (fun id _ => ?_) (.inr (.inl hblocked))
      rw [disk_applyPackRemove_of_blocked hblocked hid]
      exact .refl disk
    · rw [or_iff_right hblank, or_iff_right hblocked]
      constructor
      · intro h id packId' hnamed hdenotes'
        rw [hdenotes'.unique hdenotes]
        exact (sameAt_iff_sparesOthers hblocked hid).mp (h id hnamed)
      · exact fun h id hnamed => (sameAt_iff_sparesOthers hblocked hid).mpr (h id packId hnamed hdenotes)

/-- A bundle with the packs `foo` and `foo.bar`. -/
def fooAndFooBar : Store Unit where
  files := [(["bundle", "packs", "foo.gtpack"], .pack ()), (["bundle", "packs", "foo.bar.gtpack"], .pack ())]
  dirs := [["bundle"], ["bundle", "packs"]]

/-- Removing `foo` removes the file of `foo.bar`. -/
theorem foo_removes_foo_bar : ¬RemovesOnly ["bundle"] ⟨"foo", none⟩ fooAndFooBar := by
  intro h
  have hsame := h "foo" (.plain (by decide +kernel))
  have hread := hsame.read ["bundle", "packs", "foo.bar.gtpack"] ⟨"foo.bar.gtpack", List.prefix_refl _, fun hfile => ?_⟩
  · revert hread
    decide +kernel
  · have hlength := hfile.2 "foo.bar" (.inr (by decide +kernel)) (by decide +kernel)
    revert hlength
    decide

end Wizard
