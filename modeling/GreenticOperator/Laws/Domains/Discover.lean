import GreenticOperator.Domains.Manifest
import GreenticOperator.Lib.Outcome

/-!
# What discovery finds

Two directories are read one after the other, and a path that was seen is not read again. So every
path is found once, the paths are those of the pack files below a directory that is there, and each
has the manifest that was read (`discovered_of_ok`).
-/

namespace Domains

open Disk

/-- How a pack file is read. -/
def reader (cborOnly : Bool) : PackContents → Except String PackMeta :=
  if cborOnly then PackContents.cborOnly else PackContents.lenient

/-- The directories that are read for a domain. -/
def discoveredDirs (root : String) (domain : Domain) : List String :=
  [join root (providersDir domain), join root "packs"]

section Discover

variable {disk : ProviderDisk} {read : PackContents → Except String PackMeta} {found found' : Found}

/-- A pack is what was read at its path. -/
def ReadFrom (disk : ProviderDisk) (read : PackContents → Except String PackMeta) (pack : ProviderPack) : Prop :=
  ∃ contents packMeta, disk.read (resolve pack.path) = some contents ∧ read contents = .ok packMeta
    ∧ pack = ⟨packMeta.packId, pack.path, packMeta.entryFlows⟩

/-- Every pack was read, and is there once under its path. -/
structure Found.Sound (disk : ProviderDisk) (read : PackContents → Except String PackMeta) (found : Found) : Prop where
  paths : found.packs.map (·.path) = found.seen
  once : found.seen.Nodup
  readFrom : ∀ pack ∈ found.packs, ReadFrom disk read pack

theorem sound_nil : Found.Sound disk read ⟨[], []⟩ := ⟨rfl, .nil, fun _ h => absurd h List.not_mem_nil⟩

theorem sound_appendPack {path : String} (h : found.Sound disk read)
    (hok : appendPack disk read found path = .ok found') :
    found'.Sound disk read ∧ ∀ other, other ∈ found'.seen ↔ other ∈ found.seen ∨ other = path := by
  unfold appendPack at hok
  split at hok
  next hseen =>
    cases hok
    refine ⟨h, fun other => ⟨.inl, ?_⟩⟩
    rintro (hother | rfl)
    · exact hother
    · exact List.contains_iff_mem.mp hseen
  next hnew =>
    split at hok
    next => cases hok
    next contents hread =>
      obtain ⟨packMeta, hmeta, hok⟩ := Outcome.bind_eq_ok_iff.mp hok
      cases hok
      have hdisjoint : List.Disjoint found.seen [path] :=
        List.disjoint_singleton.mpr fun hmem => hnew (List.contains_iff_mem.mpr hmem)
      refine ⟨⟨?_, h.once.append (List.nodup_singleton path) hdisjoint, fun pack hpack => ?_⟩, fun other => ?_⟩
      · rw [List.map_append, h.paths]
        rfl
      · rcases List.mem_append.mp hpack with hpack | hpack
        · exact h.readFrom pack hpack
        · rw [List.mem_singleton.mp hpack]
          exact ⟨contents, packMeta, hread, hmeta, rfl⟩
      · rw [List.mem_append, List.mem_singleton]

theorem sound_foldlM {paths : List String} (h : found.Sound disk read)
    (hok : paths.foldlM (appendPack disk read) found = .ok found') :
    found'.Sound disk read ∧ ∀ other, other ∈ found'.seen ↔ other ∈ found.seen ∨ other ∈ paths := by
  induction paths generalizing found with
  | nil =>
    cases hok
    exact ⟨h, fun other => (or_iff_left List.not_mem_nil).symm⟩
  | cons path paths ih =>
    rw [List.foldlM_cons] at hok
    obtain ⟨next, hnext, hok⟩ := Outcome.bind_eq_ok_iff.mp hok
    obtain ⟨hsound, hseen⟩ := sound_appendPack h hnext
    obtain ⟨hsound', hseen'⟩ := ih hsound hok
    refine ⟨hsound', fun other => ?_⟩
    rw [hseen', hseen, List.mem_cons, or_assoc]

/-- A path that leads to a pack file below a directory that is there. -/
structure Scanned (disk : ProviderDisk) (dir text : String) : Prop where
  there : pathIsThere disk dir = true
  file : ∃ rest, resolve dir ++ rest ∈ disk.files.map Prod.fst
    ∧ extension (resolve dir ++ rest) = some "gtpack" ∧ text = rest.foldl join dir

theorem mem_collectGtpacks {root text : String} {paths : List String} (h : collectGtpacks disk root = .ok paths) :
    text ∈ paths ↔ ∃ rest, resolve root ++ rest ∈ disk.files.map Prod.fst
      ∧ extension (resolve root ++ rest) = some "gtpack" ∧ text = rest.foldl join root := by
  unfold collectGtpacks at h
  dsimp only at h
  split at h
  next => cases h
  next =>
    cases h
    rw [List.mem_map]
    constructor
    · rintro ⟨path, hpath, rfl⟩
      rw [List.mem_filter, Bool.and_eq_true, beq_iff_eq, List.isPrefixOf_iff_prefix] at hpath
      obtain ⟨hfile, ⟨rest, rfl⟩, hextension⟩ := hpath
      exact ⟨rest, hfile, hextension, by rw [List.drop_left]⟩
    · rintro ⟨rest, hfile, hextension, rfl⟩
      refine ⟨resolve root ++ rest, List.mem_filter.mpr ⟨hfile, ?_⟩, by rw [List.drop_left]⟩
      rw [Bool.and_eq_true, beq_iff_eq, List.isPrefixOf_iff_prefix]
      exact ⟨List.prefix_append _ rest, hextension⟩

theorem sound_appendPacksFromRoot {root : String} (h : found.Sound disk read)
    (hok : appendPacksFromRoot disk read found root = .ok found') :
    found'.Sound disk read ∧ ∀ other, other ∈ found'.seen ↔ other ∈ found.seen ∨ Scanned disk root other := by
  unfold appendPacksFromRoot at hok
  split at hok
  next hnone =>
    cases hok
    refine ⟨h, fun other => (or_iff_left fun hscanned => ?_).symm⟩
    rw [hscanned.there] at hnone
    cases hnone
  next hthere =>
    obtain ⟨paths, hpaths, hok⟩ := Outcome.bind_eq_ok_iff.mp hok
    obtain ⟨hsound, hseen⟩ := sound_foldlM h hok
    have hroot : pathIsThere disk root = true := by simpa using hthere
    refine ⟨hsound, fun other => ?_⟩
    rw [hseen, mem_collectGtpacks hpaths]
    exact or_congr_right ⟨fun hfile => ⟨hroot, hfile⟩, fun hscanned => hscanned.file⟩

end Discover

/-- What is found for a domain. -/
structure Discovered (disk : ProviderDisk) (cborOnly : Bool) (root : String) (domain : Domain)
    (packs : List ProviderPack) : Prop where
  once : (packs.map (·.path)).Nodup
  readFrom : ∀ pack ∈ packs, ReadFrom disk (reader cborOnly) pack
  scanned : ∀ text, text ∈ packs.map (·.path) ↔ ∃ dir ∈ discoveredDirs root domain, Scanned disk dir text

/-- **Discovery** finds each pack file once that is below a directory which is there. -/
theorem discovered_of_ok {disk : ProviderDisk} {cborOnly : Bool} {root : String} {domain : Domain}
    {packs : List ProviderPack} (h : discoverProviderPacks disk cborOnly root domain = .ok packs) :
    Discovered disk cborOnly root domain packs := by
  obtain ⟨first, hfirst, h⟩ := Outcome.bind_eq_ok_iff.mp h
  obtain ⟨second, hsecond, h⟩ := Outcome.bind_eq_ok_iff.mp h
  obtain ⟨hsound, hseen⟩ := @sound_appendPacksFromRoot disk (reader cborOnly) _ first _ sound_nil hfirst
  obtain ⟨hsound', hseen'⟩ := @sound_appendPacksFromRoot disk (reader cborOnly) _ second _ hsound hsecond
  cases h
  have hperm := List.perm_insertionSort (fun a b : ProviderPack => a.fileName ≤ b.fileName) second.packs
  refine ⟨?_, fun pack hpack => hsound'.readFrom pack (hperm.mem_iff.mp hpack), fun text => ?_⟩
  · rw [(hperm.map _).nodup_iff, hsound'.paths]
    exact hsound'.once
  · rw [(hperm.map _).mem_iff, hsound'.paths, hseen', hseen]
    simp [discoveredDirs]

end Domains
