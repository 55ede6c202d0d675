import Mathlib.Data.List.Nodup
import GreenticOperator.Subscriptions.Store

/-!
# The store as a map

A store is meant to hold one state for each key: provider, tenant, team (or none) and
binding id. `live` is the map a list of writes and deletions makes, and a store is this map
over a set of keys (`IsMap`) where every operation on them succeeds, each key reads as its
live state and the listing gives each live state once.

`isMap_iff` says for which sets of keys it is: their path texts lead to different state
files below the base, and none of them leads through a place where another one's file, or
its temporary file, has to be (`Separated`). Keys whose parts are plain names are separated
(`separated_of_plain`), except that no team and the team `default` share a place.
-/

namespace Subscriptions

open Disk RuntimeState SubscriptionStore

/-! ## Writing a state -/

/-- The temporary file of a write is no state file. -/
theorem isStateFile_temporary (path : Path) : isStateFile (temporary path) = false := by
  by_cases h : path = []
  · subst h
    decide
  unfold temporary withExtension isStateFile extension
  rw [List.getLast?_eq_some_getLast h]
  simp only [List.getLast?_append, List.getLast?_singleton, Option.some_or, Option.bind_some]
  have hext : ∀ name : String, (splitExtension (name ++ "." ++ "tmp")).2 = none
      ∨ (splitExtension (name ++ "." ++ "tmp")).2 = some "tmp" := by
    intro name
    unfold splitExtension
    have hrev : (name ++ "." ++ "tmp").toList.reverse
        = 'p' :: 'm' :: 't' :: '.' :: name.toList.reverse := by
      simp only [String.toList_append, List.reverse_append]
      rfl
    simp only [hrev]
    cases name.toList.reverse with
    | nil => exact .inl rfl
    | cons c rest => exact .inr rfl
  rcases hext _ with hnone | hsome
  · rw [hnone]
  · rw [hsome]
    decide

theorem ne_temporary {path : Path} (h : isStateFile path = true) (other : Path) : path ≠ temporary other := by
  rintro rfl
  rw [isStateFile_temporary] at h
  cases h

/-- Nothing is in the way of a file, its temporary file or the directories on the way to it. -/
structure Free {α : Type} (disk : Files α) (place : Place) : Prop where
  noFile : ∀ dir ∈ place.passed, disk.read dir = none
  noDir : ∀ dir ∈ disk.dirs ++ place.passed, dir ≠ temporary place.path ∧ dir ≠ place.path

/-- The disk after a file was written. -/
def written {α : Type} (disk : Files α) (place : Place) (a : α) : Files α :=
  ((disk.mkdirs place.passed).erase (temporary place.path)).write place.path a

/-- **A write succeeds exactly** where nothing is in its way. -/
theorem atomicWrite_ok_iff {α : Type} {disk disk' : Files α} {place : Place} {a : α} :
    atomicWrite disk place a = .ok disk' ↔ Free disk place ∧ disk' = written disk place a := by
  unfold atomicWrite
  by_cases hfile : (place.passed.any fun dir => (disk.read dir).isSome) = true
  · rw [if_pos hfile]
    obtain ⟨dir, hdir, hread⟩ := List.any_eq_true.mp hfile
    constructor
    · intro h
      cases h
    · rintro ⟨hfree, -⟩
      rw [hfree.noFile dir hdir] at hread
      cases hread
  · have hnoFile : ∀ dir ∈ place.passed, disk.read dir = none := by
      intro dir hdir
      rw [← Option.not_isSome_iff_eq_none]
      exact fun hread => hfile (List.any_eq_true.mpr ⟨dir, hdir, hread⟩)
    rw [if_neg hfile]
    simp only [Files.mkdirs, Bool.or_eq_true, List.contains_iff_mem]
    split
    next hdir =>
      constructor
      · intro h
        cases h
      · rintro ⟨hfree, -⟩
        rcases hdir with hdir | hdir
        · exact absurd rfl (hfree.noDir _ hdir).1
        · exact absurd rfl (hfree.noDir _ hdir).2
    next hdir =>
      rw [not_or] at hdir
      rw [Except.ok.injEq, eq_comm (b := disk')]
      refine ⟨fun h => ⟨⟨hnoFile, fun dir hmem => ⟨?_, ?_⟩⟩, h⟩, fun h => h.2⟩
      · rintro rfl
        exact hdir.1 hmem
      · rintro rfl
        exact hdir.2 hmem

theorem files_written {α : Type} (disk : Files α) (place : Place) (a : α) :
    (written disk place a).files = (place.path, a)
      :: (disk.files.filter fun entry => entry.1 != temporary place.path).filter fun entry =>
        entry.1 != place.path := rfl

theorem read_written_self {α : Type} (disk : Files α) (place : Place) (a : α) :
    (written disk place a).read place.path = some a := Files.read_write_self _ _ _

/-- A write leaves the other state files. -/
theorem read_written_of_ne {α : Type} (disk : Files α) (place : Place) (a : α) {path : Path}
    (hpath : isStateFile path = true) (hne : path ≠ place.path) :
    (written disk place a).read path = disk.read path :=
  (Files.read_write_of_ne _ hne _).trans (Files.read_erase_of_ne _ (ne_temporary hpath _))

/-- A file is read where it is reached and no directory. -/
theorem readJson_eq {α : Type} {disk : Files (Contents α)} {place : Place}
    (hdir : place.path ∉ disk.dirs) {a : Option α} (hread : disk.read place.path = a.map Contents.value)
    (hreaches : a.isSome = true → disk.reaches place = true) : readJson disk place = .ok a := by
  unfold readJson
  rw [if_neg (by rwa [List.contains_iff_mem] : ¬ disk.dirs.contains place.path = true), hread]
  cases a with
  | none => split <;> rfl
  | some a =>
    rw [hreaches rfl]
    rfl

/-- What a state is stored under. -/
structure Key where
  provider : String
  tenant : String
  team : Option String
  bindingId : String
deriving DecidableEq, Repr

def SubscriptionState.key (state : SubscriptionState) : Key where
  provider := state.provider
  tenant := state.tenant
  team := state.team
  bindingId := state.bindingId

/-- The place of a key. -/
@[irreducible]
def keyPlace (store : SubscriptionStore) (key : Key) : Place :=
  place (store.statePath key.provider key.tenant key.team key.bindingId)

theorem path_keyPlace (store : SubscriptionStore) (state : SubscriptionState) :
    (keyPlace store state.key).path = store.pathOf state := by
  unfold keyPlace
  rfl

theorem readState_eq (store : SubscriptionStore) (disk : StateFiles) (key : Key) :
    store.readState disk key.provider key.tenant key.team key.bindingId
      = (readJson disk (keyPlace store key)).mapError fun _ =>
        let path := store.statePath key.provider key.tenant key.team key.bindingId
        s!"failed to read subscription state from \"{path}\"" := by
  unfold keyPlace
  rfl

theorem deleteState_eq (store : SubscriptionStore) (disk : StateFiles) (state : SubscriptionState) :
    store.deleteState disk state
      = if !disk.reaches (keyPlace store state.key) then .ok disk
        else if disk.dirs.contains (keyPlace store state.key).path then
          let path := store.statePath state.provider state.tenant state.team state.bindingId
          .error s!"failed to delete {path}"
        else .ok (disk.erase (keyPlace store state.key).path) := by
  unfold keyPlace
  rfl

theorem writeState_eq (store : SubscriptionStore) (disk : StateFiles) (state : SubscriptionState) :
    store.writeState disk state
      = (atomicWrite disk (keyPlace store state.key) (.value state)).mapError fun _ =>
        let path := store.statePath state.provider state.tenant state.team state.bindingId
        s!"failed to write subscription state to \"{path}\"" := by
  unfold keyPlace
  rfl

theorem writeState_ok_iff {store : SubscriptionStore} {disk disk' : StateFiles} {state : SubscriptionState} :
    store.writeState disk state = .ok disk' ↔ Free disk (keyPlace store state.key)
      ∧ disk' = written disk (keyPlace store state.key) (.value state) := by
  rw [← atomicWrite_ok_iff, writeState_eq]
  cases atomicWrite disk (keyPlace store state.key) (Contents.value state) with
  | error e => exact ⟨nofun, nofun⟩
  | ok disk => exact Iff.rfl

/-- What a successful write changes. -/
theorem writeState_ok {store : SubscriptionStore} {disk disk' : StateFiles}
    {state : SubscriptionState} (h : store.writeState disk state = .ok disk') :
    disk'.read (store.pathOf state) = some (.value state)
      ∧ ∀ path, isStateFile path = true → path ≠ store.pathOf state →
          disk'.read path = disk.read path := by
  obtain ⟨-, rfl⟩ := writeState_ok_iff.mp h
  rw [← path_keyPlace]
  exact ⟨read_written_self _ _ _, fun path hpath hne => read_written_of_ne _ _ _ hpath hne⟩

/-! ## The map -/

inductive StoreOp
  | write (state : SubscriptionState)
  | delete (state : SubscriptionState)

def StoreOp.key : StoreOp → Key
  | .write state => state.key
  | .delete state => state.key

def SubscriptionStore.exec (store : SubscriptionStore) (disk : StateFiles) : StoreOp → Except String StateFiles
  | .write state => store.writeState disk state
  | .delete state => store.deleteState disk state

theorem SubscriptionStore.exec_write (store : SubscriptionStore) (disk : StateFiles)
    (state : SubscriptionState) : store.exec disk (.write state) = store.writeState disk state := rfl

/-- What an operation does to a map. -/
def StoreOp.apply (map : Key → Option SubscriptionState) : StoreOp → Key → Option SubscriptionState
  | .write state => Function.update map state.key (some state)
  | .delete state => Function.update map state.key none

/-- The states written and not deleted since. -/
def live (ops : List StoreOp) : Key → Option SubscriptionState := ops.foldl StoreOp.apply fun _ => none

/-- A disk on which a store reads and lists a map. -/
structure Holds (store : SubscriptionStore) (keys : Key → Prop) (disk : StateFiles)
    (map : Key → Option SubscriptionState) : Prop where
  reads : ∀ key, keys key →
    store.readState disk key.provider key.tenant key.team key.bindingId = .ok (map key)
  lists : ∃ states, store.listStates disk = .ok states ∧ states.Nodup
    ∧ ∀ state, state ∈ states ↔ map state.key = some state

/-- A store is a map over some keys. -/
def IsMap (store : SubscriptionStore) (keys : Key → Prop) : Prop :=
  ∀ ops : List StoreOp, (∀ op ∈ ops, keys op.key) →
    ∃ disk, ops.foldlM store.exec Files.empty = .ok disk ∧ Holds store keys disk (live ops)

/-- Keys whose path texts lead to state files of their own below the base, past the places
of no other file. -/
structure Separated (store : SubscriptionStore) (keys : Key → Prop) : Prop where
  apart : ∀ a b, keys a → keys b → (keyPlace store a).path = (keyPlace store b).path → a = b
  clear : ∀ a b, keys a → keys b → ∀ dir ∈ (keyPlace store b).passed,
    dir ≠ temporary (keyPlace store a).path ∧ dir ≠ (keyPlace store a).path
  listed : ∀ a, keys a → isStateFile (keyPlace store a).path = true
    ∧ (resolve store.base).isPrefixOf (keyPlace store a).path = true

/-! ## Separated keys make a map -/

/-- The file of a state. -/
def fileOf (store : SubscriptionStore) (state : SubscriptionState) : Path × Contents SubscriptionState :=
  ((keyPlace store state.key).path, .value state)

/-- The states with one key apart. -/
def without (key : Key) (states : List SubscriptionState) : List SubscriptionState :=
  states.filter fun state => state.key != key

theorem find_without {key other : Key} (h : other ≠ key) (states : List SubscriptionState) :
    ((without other states).find? fun state => state.key == key)
      = states.find? fun state => state.key == key := by
  unfold without
  rw [List.find?_filter]
  congr 1
  funext state
  by_cases heq : state.key = key
  · rw [heq, bne_iff_ne.mpr (Ne.symm h), beq_self_eq_true]
    rfl
  · rw [beq_eq_false_iff_ne.mpr heq]
    simp

theorem find_without_self (key : Key) (states : List SubscriptionState) :
    ((without key states).find? fun state => state.key == key) = none := by
  unfold without
  rw [List.find?_filter, List.find?_eq_none]
  intro state _
  by_cases heq : state.key = key <;> simp [heq]

/-- A disk that holds the files of some states, one for each of their keys. -/
structure Stored (store : SubscriptionStore) (keys : Key → Prop) (disk : StateFiles)
    (states : List SubscriptionState) : Prop where
  files : disk.files = states.map (fileOf store)
  distinct : (states.map SubscriptionState.key).Nodup
  known : ∀ state ∈ states, keys state.key
  reached : ∀ state ∈ states, ∀ dir ∈ (keyPlace store state.key).passed, dir ∈ disk.dirs
  dirs : ∀ dir ∈ disk.dirs, ∃ key, keys key ∧ dir ∈ (keyPlace store key).passed

section Separated

variable {store : SubscriptionStore} {keys : Key → Prop} (hsep : Separated store keys)
  {disk : StateFiles} {states : List SubscriptionState} (hstored : Stored store keys disk states)

include hsep

theorem filter_fileOf {states : List SubscriptionState} (hknown : ∀ state ∈ states, keys state.key)
    {key : Key} (hkey : keys key) :
    (states.map (fileOf store)).filter (fun entry => entry.1 != (keyPlace store key).path)
      = (without key states).map (fileOf store) := by
  unfold without
  rw [List.filter_map]
  congr 1
  refine List.filter_congr fun state hstate => ?_
  rw [Function.comp_apply, fileOf]
  by_cases heq : state.key = key
  · rw [heq, bne_self_eq_false, bne_self_eq_false]
  · have hpath : (keyPlace store state.key).path ≠ (keyPlace store key).path :=
      fun h => heq (hsep.apart _ _ (hknown state hstate) hkey h)
    rw [bne_iff_ne.mpr hpath, bne_iff_ne.mpr heq]

include hstored

theorem mem_dirs_ne {key : Key} (hkey : keys key) {dir : Path} (hdir : dir ∈ disk.dirs) :
    dir ≠ temporary (keyPlace store key).path ∧ dir ≠ (keyPlace store key).path := by
  obtain ⟨other, hother, hpassed⟩ := hstored.dirs dir hdir
  exact hsep.clear key other hkey hother dir hpassed

theorem path_not_mem_dirs {key : Key} (hkey : keys key) : (keyPlace store key).path ∉ disk.dirs :=
  fun hmem => (mem_dirs_ne hsep hstored hkey hmem).2 rfl

theorem read_path {key : Key} (hkey : keys key) :
    disk.read (keyPlace store key).path
      = (states.find? fun state => state.key == key).map Contents.value := by
  unfold Files.read
  rw [hstored.files]
  have hknown := hstored.known
  clear hstored
  induction states with
  | nil => rfl
  | cons state states ih =>
    rw [List.map_cons, fileOf, List.lookup_cons, List.find?_cons]
    by_cases heq : state.key = key
    · rw [heq, beq_self_eq_true, beq_self_eq_true, Option.map_some]
    · have hpath : (keyPlace store key).path ≠ (keyPlace store state.key).path := fun h =>
        heq (hsep.apart _ _ (hknown state List.mem_cons_self) hkey h.symm)
      rw [beq_eq_false_iff_ne.mpr hpath, beq_eq_false_iff_ne.mpr heq]
      exact ih fun other hother => hknown other (List.mem_cons_of_mem _ hother)

theorem read_passed {key : Key} (hkey : keys key) {dir : Path} (hdir : dir ∈ (keyPlace store key).passed) :
    disk.read dir = none := by
  unfold Files.read
  rw [hstored.files, List.lookup_eq_none_iff]
  intro entry hentry
  obtain ⟨state, hstate, rfl⟩ := List.mem_map.mp hentry
  rw [fileOf]
  exact bne_iff_ne.mpr (hsep.clear _ _ (hstored.known state hstate) hkey dir hdir).2

theorem free_of_stored {key : Key} (hkey : keys key) : Free disk (keyPlace store key) where
  noFile _ hdir := read_passed hsep hstored hkey hdir
  noDir dir hdir := by
    rcases List.mem_append.mp hdir with hdir | hdir
    · exact mem_dirs_ne hsep hstored hkey hdir
    · exact hsep.clear key key hkey hkey dir hdir

/-- No file is a temporary one. -/
theorem filter_temporary (path : Path) :
    disk.files.filter (fun entry => entry.1 != temporary path) = disk.files := by
  refine List.filter_eq_self.mpr fun entry hentry => ?_
  rw [hstored.files] at hentry
  obtain ⟨state, hstate, rfl⟩ := List.mem_map.mp hentry
  rw [fileOf]
  exact bne_iff_ne.mpr (ne_temporary (hsep.listed _ (hstored.known state hstate)).1 path)

theorem stored_written {state : SubscriptionState} (hkey : keys state.key) :
    Stored store keys (written disk (keyPlace store state.key) (.value state))
      (state :: without state.key states) where
  files := by
    rw [files_written, filter_temporary hsep hstored, hstored.files,
      filter_fileOf hsep hstored.known hkey, List.map_cons, fileOf]
  distinct := by
    rw [List.map_cons, List.nodup_cons]
    refine ⟨fun hmem => ?_, hstored.distinct.sublist (List.filter_sublist.map _)⟩
    obtain ⟨other, hother, heq⟩ := List.mem_map.mp hmem
    exact bne_iff_ne.mp (List.mem_filter.mp hother).2 heq
  known := by
    rintro other hother
    rcases List.mem_cons.mp hother with rfl | hother
    · exact hkey
    · exact hstored.known other (List.mem_filter.mp hother).1
  reached := by
    rintro other hother dir hdir
    rcases List.mem_cons.mp hother with rfl | hother
    · exact List.mem_append_right _ hdir
    · exact List.mem_append_left _ (hstored.reached other (List.mem_filter.mp hother).1 dir hdir)
  dirs := by
    intro dir hdir
    rcases List.mem_append.mp hdir with hdir | hdir
    · exact hstored.dirs dir hdir
    · exact ⟨state.key, hkey, hdir⟩

theorem stored_erased {key : Key} (hkey : keys key) :
    Stored store keys (disk.erase (keyPlace store key).path) (without key states) where
  files := by
    rw [Files.erase, hstored.files, filter_fileOf hsep hstored.known hkey]
  distinct := hstored.distinct.sublist (List.filter_sublist.map _)
  known state hstate := hstored.known state (List.mem_filter.mp hstate).1
  reached state hstate := hstored.reached state (List.mem_filter.mp hstate).1
  dirs := hstored.dirs

omit hsep in
/-- A key that has a state can be reached. -/
theorem reaches_of_mem {state : SubscriptionState} (hstate : state ∈ states) :
    disk.reaches (keyPlace store state.key) = true :=
  List.all_eq_true.mpr fun dir hdir => List.contains_iff_mem.mpr (hstored.reached state hstate dir hdir)

/-- A deletion of a stored key leaves the other states. -/
theorem deleteState_of_stored {state : SubscriptionState} (hkey : keys state.key) :
    ∃ disk', store.deleteState disk state = .ok disk' ∧ Stored store keys disk' (without state.key states) := by
  rw [deleteState_eq]
  cases hreaches : disk.reaches (keyPlace store state.key) with
  | false =>
    -- A state of this key would have brought its directories with it.
    have hsame : without state.key states = states := by
      refine List.filter_eq_self.mpr fun other hother => bne_iff_ne.mpr fun heq => ?_
      have hother := reaches_of_mem hstored hother
      rw [heq, hreaches] at hother
      cases hother
    exact ⟨disk, rfl, hsame.symm ▸ hstored⟩
  | true =>
    have hdir : ¬ disk.dirs.contains (keyPlace store state.key).path = true := by
      rw [List.contains_iff_mem]
      exact path_not_mem_dirs hsep hstored hkey
    rw [if_neg hdir]
    exact ⟨_, rfl, stored_erased hsep hstored hkey⟩

theorem readState_of_stored {key : Key} (hkey : keys key) :
    store.readState disk key.provider key.tenant key.team key.bindingId
      = .ok (states.find? fun state => state.key == key) := by
  rw [readState_eq, readJson_eq (path_not_mem_dirs hsep hstored hkey) (read_path hsep hstored hkey)]
  · rfl
  · intro hsome
    obtain ⟨state, hfind⟩ := Option.isSome_iff_exists.mp hsome
    have heq : state.key = key := by simpa using List.find?_some hfind
    rw [← heq]
    exact reaches_of_mem hstored (List.mem_of_find?_eq_some hfind)

omit hsep hstored in
theorem collectStates_fileOf {states : List SubscriptionState}
    (hfile : ∀ state ∈ states, isStateFile (keyPlace store state.key).path = true) :
    collectStates (states.map (fileOf store)) = .ok states := by
  induction states with
  | nil => rfl
  | cons state states ih =>
    rw [List.map_cons, fileOf, collectStates, if_pos (hfile state List.mem_cons_self),
      ih fun other hother => hfile other (List.mem_cons_of_mem _ hother)]
    rfl

theorem listStates_of_stored : store.listStates disk = .ok states := by
  have hlisted : ∀ state ∈ states, isStateFile (keyPlace store state.key).path = true
      ∧ (resolve store.base).isPrefixOf (keyPlace store state.key).path = true :=
    fun state hstate => hsep.listed _ (hstored.known state hstate)
  have hunder : under (resolve store.base) disk = states.map (fileOf store) := by
    unfold SubscriptionStore.under
    rw [hstored.files]
    refine List.filter_eq_self.mpr fun entry hentry => ?_
    obtain ⟨state, hstate, rfl⟩ := List.mem_map.mp hentry
    rw [fileOf]
    exact (hlisted state hstate).2
  unfold listStates
  rw [hunder, collectStates_fileOf fun state hstate => (hlisted state hstate).1]

/-- An operation on one of the keys succeeds and does to the stored states what it does to
the map. -/
theorem exec_of_stored {op : StoreOp} (hkey : keys op.key) :
    ∃ disk' states', store.exec disk op = .ok disk' ∧ Stored store keys disk' states'
      ∧ ∀ map, (∀ key, map key = states.find? fun state => state.key == key) →
          ∀ key, op.apply map key = states'.find? fun state => state.key == key := by
  cases op with
  | write state =>
    have hwrite := writeState_ok_iff.mpr ⟨free_of_stored hsep hstored hkey, rfl⟩
    refine ⟨_, _, (store.exec_write disk state).trans hwrite, stored_written hsep hstored hkey,
      fun map hmap key => ?_⟩
    by_cases heq : state.key = key
    · rw [StoreOp.apply, ← heq, Function.update_self, List.find?_cons, beq_self_eq_true]
    · rw [StoreOp.apply, Function.update_of_ne (Ne.symm heq), List.find?_cons,
        beq_eq_false_iff_ne.mpr heq, find_without heq, hmap]
  | delete state =>
    obtain ⟨disk', hdisk, hstored'⟩ := deleteState_of_stored hsep hstored hkey
    refine ⟨disk', _, hdisk, hstored', fun map hmap key => ?_⟩
    by_cases heq : state.key = key
    · rw [StoreOp.apply, ← heq, Function.update_self, find_without_self]
    · rw [StoreOp.apply, Function.update_of_ne (Ne.symm heq), find_without heq, hmap]

/-- A disk that holds the states of a map reads and lists it. -/
theorem holds_of_stored {map : Key → Option SubscriptionState}
    (hmap : ∀ key, map key = states.find? fun state => state.key == key) : Holds store keys disk map where
  reads key hkey := (readState_of_stored hsep hstored hkey).trans (congrArg _ (hmap key).symm)
  lists := by
    refine ⟨states, listStates_of_stored hsep hstored, List.Nodup.of_map _ hstored.distinct, fun state => ?_⟩
    rw [hmap]
    constructor
    · intro hstate
      have hsome : (states.find? fun other => other.key == state.key).isSome = true :=
        List.find?_isSome.mpr ⟨state, hstate, beq_self_eq_true _⟩
      obtain ⟨other, hfind⟩ := Option.isSome_iff_exists.mp hsome
      have heq : other.key = state.key := by simpa using List.find?_some hfind
      rw [hfind, List.inj_on_of_nodup_map hstored.distinct (List.mem_of_find?_eq_some hfind) hstate heq]
    · exact List.mem_of_find?_eq_some

omit hstored in
theorem run_of_stored {ops : List StoreOp} (hops : ∀ op ∈ ops, keys op.key) {disk : StateFiles}
    {states : List SubscriptionState} (hstored : Stored store keys disk states)
    {map : Key → Option SubscriptionState}
    (hmap : ∀ key, map key = states.find? fun state => state.key == key) :
    ∃ disk', ops.foldlM store.exec disk = .ok disk' ∧ Holds store keys disk' (ops.foldl StoreOp.apply map) := by
  induction ops generalizing disk states map with
  | nil => exact ⟨disk, rfl, holds_of_stored hsep hstored hmap⟩
  | cons op ops ih =>
    obtain ⟨disk', states', hexec, hstored', happly⟩ :=
      exec_of_stored hsep hstored (hops op List.mem_cons_self)
    rw [List.foldlM_cons, hexec, List.foldl_cons]
    exact ih (fun op' hop => hops op' (List.mem_cons_of_mem op hop)) hstored' (happly map hmap)

end Separated

theorem isMap_of_separated {store : SubscriptionStore} {keys : Key → Prop} (h : Separated store keys) :
    IsMap store keys := by
  intro ops hops
  have hempty : Stored store keys Files.empty [] := by
    refine ⟨rfl, List.nodup_nil, ?_, ?_, ?_⟩
    · exact fun _ hmem => absurd hmem List.not_mem_nil
    · exact fun _ hmem => absurd hmem List.not_mem_nil
    · exact fun _ hmem => absurd hmem List.not_mem_nil
  exact run_of_stored h hops hempty fun _ => rfl

/-! ## A map has separated keys -/

/-- A state of a key that says nothing else. -/
def Key.plainState (key : Key) : SubscriptionState where
  bindingId := key.bindingId
  provider := key.provider
  tenant := key.tenant
  team := key.team
  resource := none
  changeTypes := []
  notificationUrl := none
  clientState := none
  user := none
  subscriptionId := none
  expirationUnixMs := none
  lastError := none

theorem Key.key_plainState (key : Key) : key.plainState.key = key := rfl

theorem live_write (a : Key) : live [.write a.plainState] a = some a.plainState := by
  rw [live, List.foldl_cons, List.foldl_nil, StoreOp.apply, Key.key_plainState, Function.update_self]

theorem live_write_write {a b : Key} (h : a ≠ b) :
    live [.write a.plainState, .write b.plainState] a = some a.plainState := by
  rw [live, List.foldl_cons, List.foldl_cons, List.foldl_nil, StoreOp.apply, StoreOp.apply, Key.key_plainState,
    Key.key_plainState, Function.update_of_ne h, Function.update_self]

section IsMap

variable {store : SubscriptionStore} {keys : Key → Prop} (h : IsMap store keys)

include h

/-- What a first write says. -/
theorem first_write {a : Key} (ha : keys a) :
    ∃ disk, store.writeState Files.empty a.plainState = .ok disk
      ∧ Holds store keys disk (live [.write a.plainState]) := by
  obtain ⟨disk, hrun, hholds⟩ := h [.write a.plainState] fun op hop => List.mem_singleton.mp hop ▸ ha
  rw [List.foldlM_cons, exec_write] at hrun
  cases hwrite : store.writeState Files.empty a.plainState with
  | error e =>
    rw [hwrite] at hrun
    cases hrun
  | ok disk' =>
    rw [hwrite] at hrun
    obtain rfl : disk' = disk := Except.ok.inj hrun
    exact ⟨disk', rfl, hholds⟩

/-- What a second write says. -/
theorem second_write {a b : Key} (ha : keys a) (hb : keys b) {disk : StateFiles}
    (hwrite : store.writeState Files.empty a.plainState = .ok disk) :
    ∃ disk', store.writeState disk b.plainState = .ok disk'
      ∧ Holds store keys disk' (live [.write a.plainState, .write b.plainState]) := by
  obtain ⟨disk', hrun, hholds⟩ := h [.write a.plainState, .write b.plainState] (by
    rintro op hop
    rcases List.mem_cons.mp hop with rfl | hop
    · exact ha
    · exact List.mem_singleton.mp hop ▸ hb)
  simp only [List.foldlM_cons, exec_write, hwrite, bind, Except.bind] at hrun
  cases hwrite' : store.writeState disk b.plainState with
  | error e =>
    rw [hwrite'] at hrun
    cases hrun
  | ok disk'' =>
    rw [hwrite'] at hrun
    obtain rfl : disk'' = disk' := Except.ok.inj hrun
    exact ⟨disk'', rfl, hholds⟩

theorem clear_of_isMap {a b : Key} (ha : keys a) (hb : keys b) {dir : Path}
    (hdir : dir ∈ (keyPlace store b).passed) :
    dir ≠ temporary (keyPlace store a).path ∧ dir ≠ (keyPlace store a).path := by
  obtain ⟨disk, hwrite, -⟩ := first_write h hb
  obtain ⟨disk', hwrite', -⟩ := second_write h hb ha hwrite
  obtain ⟨-, rfl⟩ := writeState_ok_iff.mp hwrite
  exact (writeState_ok_iff.mp hwrite').1.noDir dir (List.mem_append_left _ (List.mem_append_right _ hdir))

theorem listed_of_isMap {a : Key} (ha : keys a) :
    isStateFile (keyPlace store a).path = true
      ∧ (resolve store.base).isPrefixOf (keyPlace store a).path = true := by
  obtain ⟨disk, hwrite, hholds⟩ := first_write h ha
  obtain ⟨-, rfl⟩ := writeState_ok_iff.mp hwrite
  obtain ⟨states, hlist, -, hmem⟩ := hholds.lists
  have hin : a.plainState ∈ states := (hmem a.plainState).mpr (live_write a)
  unfold listStates SubscriptionStore.under at hlist
  rw [files_written, Files.empty, List.filter_nil, List.filter_nil, Key.key_plainState] at hlist
  cases hunder : (resolve store.base).isPrefixOf (keyPlace store a).path with
  | false =>
    rw [List.filter_cons_of_neg (by rw [hunder]; exact Bool.false_ne_true)] at hlist
    cases hlist
    exact absurd hin List.not_mem_nil
  | true =>
    rw [List.filter_cons_of_pos (by rw [hunder]), List.filter_nil, collectStates] at hlist
    cases hfile : isStateFile (keyPlace store a).path with
    | false =>
      rw [hfile, if_neg Bool.false_ne_true] at hlist
      cases hlist
      exact absurd hin List.not_mem_nil
    | true => exact ⟨rfl, rfl⟩

theorem apart_of_isMap {a b : Key} (ha : keys a) (hb : keys b)
    (hpath : (keyPlace store a).path = (keyPlace store b).path) : a = b := by
  by_contra hne
  obtain ⟨disk, hwrite, -⟩ := first_write h ha
  obtain ⟨disk', hwrite', hholds⟩ := second_write h ha hb hwrite
  obtain ⟨-, rfl⟩ := writeState_ok_iff.mp hwrite
  obtain ⟨-, rfl⟩ := writeState_ok_iff.mp hwrite'
  have hreads := hholds.reads a ha
  rw [live_write_write hne, readState_eq] at hreads
  -- The key reads the file of the other one, through the directories its own write made.
  rw [readJson_eq (a := some b.plainState)] at hreads
  · exact hne (congrArg SubscriptionState.key (Option.some.inj (Except.ok.inj hreads))).symm
  · exact fun hmem => ((writeState_ok_iff.mp hwrite').1.noDir _ hmem).2 hpath
  · rw [hpath]
    exact read_written_self _ _ _
  · intro _
    refine List.all_eq_true.mpr fun dir hdir => List.contains_iff_mem.mpr ?_
    exact List.mem_append_left _ (List.mem_append_right _ hdir)

end IsMap

/-- **A store is a map exactly** over separated keys. -/
theorem isMap_iff (store : SubscriptionStore) (keys : Key → Prop) :
    IsMap store keys ↔ Separated store keys :=
  ⟨fun h => ⟨fun _ _ ha hb => apart_of_isMap h ha hb, fun _ _ ha hb _ => clear_of_isMap h ha hb,
    fun _ ha => listed_of_isMap h ha⟩, isMap_of_separated⟩

/-! ## Plain keys -/

/-- A key of plain names. The team `default` is the place of no team. -/
structure PlainKey (key : Key) : Prop where
  provider : Plain key.provider
  tenant : Plain key.tenant
  team : ∀ team, key.team = some team → Plain team ∧ team ≠ "default"
  bindingId : key.bindingId ≠ "" ∧ '/' ∉ key.bindingId.toList

theorem plain_json {bindingId : String} (h : bindingId ≠ "" ∧ '/' ∉ bindingId.toList) :
    Plain (bindingId ++ ".json") := by
  have hlast : (bindingId ++ ".json").toList.getLast? = some 'n' := by
    rw [String.toList_append, List.getLast?_append]
    rfl
  refine ⟨?_, ?_, ?_, ?_⟩
  · intro heq
    rw [heq] at hlast
    cases hlast
  · intro heq
    rw [heq] at hlast
    exact absurd hlast (by decide)
  · intro heq
    rw [heq] at hlast
    exact absurd hlast (by decide)
  · rw [String.toList_append, List.mem_append, not_or]
    exact ⟨h.2, by decide⟩

theorem splitExtension_json {bindingId : String} (h : bindingId ≠ "") :
    (splitExtension (bindingId ++ ".json")).2 = some "json" := by
  unfold splitExtension
  have hrev : (bindingId ++ ".json").toList.reverse
      = 'n' :: 'o' :: 's' :: 'j' :: '.' :: bindingId.toList.reverse := by
    simp only [String.toList_append, List.reverse_append]
    rfl
  simp only [hrev]
  cases hid : bindingId.toList.reverse with
  | nil =>
    rw [List.reverse_eq_nil_iff] at hid
    exact absurd (String.toList_injective hid) h
  | cons c rest => rfl

section Plain

variable {store : SubscriptionStore}

theorem plain_teamDir {key : Key} (h : PlainKey key) : Plain (key.team.getD "default") := by
  cases hteam : key.team with
  | none => exact (by decide : Plain "default")
  | some team => exact (h.team team hteam).1

/-- The directory of a key below the base. -/
def keyDir (store : SubscriptionStore) (key : Key) : String :=
  join (join (join store.base key.provider) key.tenant) (key.team.getD "default")

theorem resolve_keyDir {key : Key} (h : PlainKey key) :
    resolve (keyDir store key) = resolve store.base ++ [key.provider, key.tenant, key.team.getD "default"] := by
  unfold keyDir
  rw [resolve_join _ (plain_teamDir h), resolve_join _ h.tenant, resolve_join _ h.provider]
  simp only [List.append_assoc, List.cons_append, List.nil_append]

theorem keyPlace_eq (key : Key) :
    keyPlace store key = place (join (keyDir store key) (key.bindingId ++ ".json")) := by
  unfold keyPlace statePath keyDir
  rfl

theorem path_of_plain {key : Key} (h : PlainKey key) :
    (keyPlace store key).path = resolve store.base
      ++ [key.provider, key.tenant, key.team.getD "default", key.bindingId ++ ".json"] := by
  rw [keyPlace_eq, path_place, resolve_join _ (plain_json h.bindingId), resolve_keyDir h]
  simp only [List.append_assoc, List.cons_append, List.nil_append]

theorem length_passed_of_plain (hbase : Downward store.base) {key : Key} (h : PlainKey key) {dir : Path}
    (hdir : dir ∈ (keyPlace store key).passed) : dir.length ≤ (resolve store.base).length + 3 := by
  rw [keyPlace_eq, passed_place] at hdir
  have hdown : Downward (keyDir store key) :=
    downward_join (downward_join (downward_join hbase h.provider) h.tenant) (plain_teamDir h)
  have hle := length_le_of_mem_passed hdown (plain_json h.bindingId) hdir
  rwa [resolve_keyDir h, List.length_append] at hle

theorem length_temporary {path : Path} (h : path ≠ []) : (temporary path).length = path.length := by
  unfold temporary withExtension
  rw [List.getLast?_eq_some_getLast h, List.length_append, List.length_dropLast, List.length_singleton]
  exact Nat.sub_add_cancel (List.length_pos_iff.mpr h)

/-- No team is named `default`, which is the directory of those without one. -/
theorem team_inj {a b : Key} (ha : PlainKey a) (hb : PlainKey b)
    (h : a.team.getD "default" = b.team.getD "default") : a.team = b.team := by
  cases hta : a.team with
  | none =>
    cases htb : b.team with
    | none => rfl
    | some team =>
      rw [hta, htb] at h
      exact absurd h.symm (hb.team team htb).2
  | some team =>
    cases htb : b.team with
    | none =>
      rw [hta, htb] at h
      exact absurd h (ha.team team hta).2
    | some other =>
      rw [hta, htb] at h
      exact congrArg some h

theorem apart_of_plain {a b : Key} (ha : PlainKey a) (hb : PlainKey b)
    (hpath : (keyPlace store a).path = (keyPlace store b).path) : a = b := by
  rw [path_of_plain ha, path_of_plain hb, List.append_cancel_left_eq] at hpath
  obtain ⟨hprovider, hpath⟩ := List.cons.inj hpath
  obtain ⟨htenant, hpath⟩ := List.cons.inj hpath
  obtain ⟨hteam, hpath⟩ := List.cons.inj hpath
  have hbinding : a.bindingId = b.bindingId := by
    have hlist := congrArg String.toList (List.cons.inj hpath).1
    rw [String.toList_append, String.toList_append, List.append_cancel_right_eq] at hlist
    exact String.toList_injective hlist
  have hteam := team_inj ha hb hteam
  obtain ⟨_, _, _, _⟩ := a
  obtain ⟨_, _, _, _⟩ := b
  simp_all only

/-- A directory on the way to a file is shorter than the place of any other. -/
theorem clear_of_plain (hbase : Downward store.base) {a b : Key} (ha : PlainKey a) (hb : PlainKey b) {dir : Path}
    (hdir : dir ∈ (keyPlace store b).passed) :
    dir ≠ temporary (keyPlace store a).path ∧ dir ≠ (keyPlace store a).path := by
  have hle := length_passed_of_plain hbase hb hdir
  have hpath : (keyPlace store a).path.length = _ := congrArg List.length (path_of_plain ha)
  rw [List.length_append] at hpath
  have hne : (keyPlace store a).path ≠ [] := by
    intro hnil
    rw [hnil] at hpath
    simp at hpath
  have htemporary := length_temporary hne
  simp only [List.length_cons, List.length_nil] at hpath
  refine ⟨fun heq => ?_, fun heq => ?_⟩
  · rw [heq] at hle
    omega
  · rw [heq] at hle
    omega

/-- **Plain keys are separated**, below a base that never goes up. -/
theorem separated_of_plain (hbase : Downward store.base) : Separated store PlainKey where
  apart _ _ ha hb hpath := apart_of_plain ha hb hpath
  clear _ _ ha hb _ hdir := clear_of_plain hbase ha hb hdir
  listed a ha := by
    rw [path_of_plain ha]
    refine ⟨?_, List.isPrefixOf_iff_prefix.mpr (List.prefix_append _ _)⟩
    unfold isStateFile extension
    rw [List.getLast?_append]
    simp only [List.getLast?_cons_cons, List.getLast?_singleton, Option.some_or, Option.bind_some,
      splitExtension_json ha.bindingId.1]
    decide

end Plain

/-- Without a team, and with the team `default`: the second write takes the place of the
first. -/
theorem no_team_shares_default : ¬ ∀ store, IsMap store fun _ => True := by
  intro h
  have hapart := apart_of_isMap (h ⟨"/state/subscriptions"⟩)
    (a := ⟨"messaging.email", "demo", none, "bind-1"⟩)
    (b := ⟨"messaging.email", "demo", some "default", "bind-1"⟩) trivial trivial (by unfold keyPlace; rfl)
  exact absurd hapart (by decide)

end Subscriptions
