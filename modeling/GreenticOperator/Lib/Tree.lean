import GreenticOperator.Lib.Directory

/-!
# Tree — disks whose files and directories form a tree

On a disk that is a tree (`IsTree`) what is there lies in directories, and nothing lies below a file. A
place that plain names spell below a directory (`Spells`) is then there exactly where something is
at its path (`IsTree.isThere_iff`).

What changes without removals made stays: a directory does (`Changes.subset_dirs`), and so does
a file that is only ever written with what it holds (`Changes.read_of_settled`).
-/

namespace Disk

universe u

/-- The directories above a path, below the root. -/
def above (path : Path) : List Path := path.inits.dropLast.filter (· ≠ [])

/-- A path, through all the directories above it. -/
def Place.at (path : Path) : Place := ⟨path, above path⟩

/-- An entry of a directory. -/
def Place.child (place : Place) (name : String) : Place :=
  ⟨place.path ++ [name], (place.passed ++ [place.path]).filter (· ≠ [])⟩

theorem mem_dropLast_inits {α : Type u} {front l : List α} :
    front ∈ l.inits.dropLast ↔ front <+: l ∧ front ≠ l := by
  induction l generalizing front with
  | nil =>
    refine iff_of_false (by simp) ?_
    rintro ⟨hfirst, hne⟩
    exact hne (List.prefix_nil.mp hfirst)
  | cons a l ih =>
    have hsome : l.inits ≠ [] := List.ne_nil_of_mem ((List.mem_inits l l).mpr (List.prefix_refl l))
    have hcut : (a :: l).inits.dropLast = [] :: l.inits.dropLast.map (a :: ·) := by
      rw [List.inits_cons, List.dropLast_cons_of_ne_nil (by simpa using hsome), List.map_dropLast]
    rw [hcut, List.mem_cons, List.mem_map]
    constructor
    · rintro (rfl | ⟨front, hfront, rfl⟩)
      · exact ⟨List.nil_prefix, (List.cons_ne_nil a l).symm⟩
      · obtain ⟨hfirst, hne⟩ := ih.mp hfront
        exact ⟨List.cons_prefix_cons.mpr ⟨rfl, hfirst⟩, fun heq => hne (List.cons.inj heq).2⟩
    · rintro ⟨hfirst, hne⟩
      cases front with
      | nil => exact .inl rfl
      | cons b front =>
        obtain ⟨rfl, hrest⟩ := List.cons_prefix_cons.mp hfirst
        exact .inr ⟨front, ih.mpr ⟨hrest, fun heq => hne (heq ▸ rfl)⟩, rfl⟩

theorem mem_above {dir path : Path} : dir ∈ above path ↔ dir ≠ [] ∧ dir <+: path ∧ dir ≠ path := by
  rw [above, List.mem_filter, mem_dropLast_inits, decide_eq_true_iff, and_comm]

/-! ## Places that plain names spell -/

/-- A place that names spell below a directory, through directories that first parts of them spell. -/
structure Spells (base names : Path) (place : Place) : Prop where
  path : place.path = base ++ names
  passed : ∀ dir ∈ place.passed, dir ≠ [] ∧ ∃ front, front <+: names ∧ front ≠ names ∧ dir = base ++ front

theorem scanl_enter_plain {names : List String} (h : ∀ name ∈ names, Plain name) (base : Path) :
    names.scanl enter base = names.inits.map (base ++ ·) := by
  induction names generalizing base with
  | nil => simp
  | cons name names ih =>
    rw [List.scanl_cons, enter_plain base (h name List.mem_cons_self),
      ih fun n hn => h n (List.mem_cons_of_mem name hn), List.inits_cons]
    simp

theorem spells_under {names : List String} (h : ∀ name ∈ names, Plain name) (base : Path) :
    Spells base names (under base names) where
  path := path_under_plain h base
  passed dir hdir := by
    unfold under at hdir
    rw [foldl_follow_plain h, List.nil_append] at hdir
    obtain ⟨hmem, hne⟩ := List.mem_filter.mp hdir
    rw [scanl_enter_plain h, ← List.map_dropLast] at hmem
    obtain ⟨front, hfront, rfl⟩ := List.mem_map.mp hmem
    obtain ⟨hfirst, hproper⟩ := mem_dropLast_inits.mp hfront
    exact ⟨of_decide_eq_true hne, front, hfirst, hproper, rfl⟩

/-- A text of plain names leads where they lead. -/
theorem under_joinWith {names : List String} (h : ∀ name ∈ names, Plain name) (hne : names ≠ []) (base : Path) :
    under base [Text.joinWith '/' names] = under base names := by
  have hsplit : Text.split '/' (Text.joinWith '/' names) = names :=
    Text.split_joinWith hne fun name hname => (h name hname).no_slash
  have hrelative : Text.startsWithChar '/' (Text.joinWith '/' names) = false := by
    -- An absolute text has an empty first name.
    rw [← Bool.not_eq_true]
    intro habsolute
    obtain ⟨rest, hrest⟩ := List.head?_eq_some_iff.mp (beq_iff_eq.mp habsolute)
    have hempty : "" ∈ names := by
      rw [← hsplit, Text.split, hrest, ← List.nil_append ('/' :: rest), List.splitOn_append_cons_self,
        List.map_append]
      exact List.mem_append_left _ (by decide)
    exact (h "" hempty).not_empty rfl
  unfold under
  rw [foldl_follow_plain h, List.foldl_cons, List.foldl_nil, follow, hrelative, hsplit]
  rfl

theorem Spells.child {base names : Path} {place : Place} (h : Spells base names place) (name : String) :
    Spells base (names ++ [name]) (place.child name) where
  path := by rw [Place.child, h.path, List.append_assoc]
  passed dir hdir := by
    obtain ⟨hmem, hne⟩ := List.mem_filter.mp hdir
    have hproper : ∀ front : Path, front <+: names → front ≠ names ++ [name] := by
      rintro front hfirst rfl
      have hlength := hfirst.length_le
      rw [List.length_append, List.length_singleton] at hlength
      omega
    refine ⟨of_decide_eq_true hne, ?_⟩
    rcases List.mem_append.mp hmem with hmem | hmem
    · obtain ⟨-, front, hfirst, -, heq⟩ := h.passed dir hmem
      exact ⟨front, hfirst.trans (List.prefix_append names [name]), hproper front hfirst, heq⟩
    · rw [List.mem_singleton.mp hmem, h.path]
      exact ⟨names, List.prefix_append names [name], hproper names (List.prefix_refl names), rfl⟩

namespace Files

variable {α : Type u}

/-! ## Trees -/

/-- The files and directories of a disk form a tree: what is there lies in directories, what is a file
is no directory, and every name is looked up as it is. -/
structure IsTree (d : Files α) : Prop where
  plain : ∀ {p : Path}, d.Has p → ∀ name ∈ p, Plain name
  above : ∀ {dir p : Path}, d.Has p → dir ∈ above p → dir ∈ d.dirs
  apart : ∀ p ∈ d.dirs, d.read p = none
  root : d.read [] = none

namespace IsTree

variable {d : Files α}

theorem isDir_of_has (htree : d.IsTree) {p rest : Path} (hne : rest ≠ [])
    (h : d.Has (p ++ rest)) : d.isDir p = true := by
  unfold isDir
  by_cases hroot : p = []
  · rw [hroot]
    rfl
  · have hproper : p ≠ p ++ rest := fun heq => hne (List.self_eq_append_right.mp heq)
    have hmem := htree.above h (mem_above.mpr ⟨hroot, List.prefix_append p rest, hproper⟩)
    rw [List.contains_iff_mem.mpr hmem, Bool.or_true]

theorem read_of_isDir (htree : d.IsTree) {p : Path} (h : d.isDir p = true) : d.read p = none := by
  rcases Bool.or_eq_true .. ▸ h with hroot | hmem
  · rw [List.isEmpty_iff.mp hroot]
    exact htree.root
  · exact htree.apart p (List.contains_iff_mem.mp hmem)

/-- Nothing lies below a file. -/
theorem eq_nil_of_read (htree : d.IsTree) {p rest : Path} {a : α} (hread : d.read p = some a)
    (h : d.Has (p ++ rest)) : rest = [] := by
  by_contra hne
  rw [htree.read_of_isDir (htree.isDir_of_has hne h)] at hread
  cases hread

/-- Something is at the place that names spell, or below it. -/
theorem isThere_of_has (htree : d.IsTree) {base names rest : Path} {place : Place} (hplace : Spells base names place)
    (h : d.Has (base ++ names ++ rest)) : d.isThere place = true := by
  unfold isThere
  rw [Bool.and_eq_true, Bool.or_eq_true]
  constructor
  · unfold reaches
    rw [List.all_eq_true]
    intro dir hdir
    obtain ⟨hne, front, hfirst, hproper, rfl⟩ := hplace.passed dir hdir
    refine List.contains_iff_mem.mpr (htree.above h (mem_above.mpr ⟨hne, ?_, ?_⟩))
    · exact ((List.prefix_append_right_inj base).mpr hfirst).trans (List.prefix_append _ rest)
    · intro heq
      have hlength := congrArg List.length heq
      have hshorter : front.length < names.length :=
        Nat.lt_of_le_of_ne hfirst.length_le fun hlen => hproper (hfirst.eq_of_length hlen)
      simp only [List.length_append] at hlength
      omega
  · rw [hplace.path]
    by_cases hrest : rest = []
    · rw [hrest, List.append_nil] at h
      refine h.symm.imp_left fun hdir => ?_
      unfold isDir
      rw [List.contains_iff_mem.mpr hdir, Bool.or_true]
    · exact .inl (htree.isDir_of_has hrest h)

end IsTree

theorem mem_of_has {d : Files α} {p : Path} (h : d.Has p) : p ∈ d.files.map Prod.fst ++ d.dirs :=
  h.elim (fun hread => List.mem_append_left _ (mem_files_of_read (Option.some_get hread).symm)) (List.mem_append_right _)

theorem isTree_iff (d : Files α) : d.IsTree
    ↔ (∀ p ∈ d.files.map Prod.fst ++ d.dirs, (∀ name ∈ p, Plain name) ∧ ∀ dir ∈ Disk.above p, dir ∈ d.dirs)
      ∧ (∀ p ∈ d.dirs, (d.read p).isSome = false) ∧ (d.read []).isSome = false := by
  constructor
  · intro h
    refine ⟨fun p hp => ⟨h.plain (has_of_mem hp), fun dir => h.above (has_of_mem hp)⟩, fun p hp => ?_, ?_⟩
    · rw [h.apart p hp]
      rfl
    · rw [h.root]
      rfl
  · rintro ⟨hpaths, hapart, hroot⟩
    exact ⟨fun h => (hpaths _ (mem_of_has h)).1, fun h => (hpaths _ (mem_of_has h)).2 _,
      fun p hp => Option.isSome_eq_false_iff.mp (hapart p hp) |> Option.isNone_iff_eq_none.mp,
      Option.isNone_iff_eq_none.mp (Option.isSome_eq_false_iff.mp hroot)⟩

instance (d : Files α) : Decidable d.IsTree := decidable_of_iff' _ (isTree_iff d)

theorem has_of_isThere {d : Files α} {place : Place} (h : d.isThere place = true) (hne : place.path ≠ []) :
    d.Has place.path := by
  rcases Bool.or_eq_true .. ▸ (Bool.and_eq_true .. ▸ h).2 with hdir | hread
  · rcases Bool.or_eq_true .. ▸ hdir with hroot | hmem
    · exact absurd (List.isEmpty_iff.mp hroot) hne
    · exact .inr (List.contains_iff_mem.mp hmem)
  · exact .inl hread

theorem mem_entries_of_has {d : Files α} {dir p : Path} {name : String} (h : d.Has p)
    (hp : dir ++ [name] <+: p) : name ∈ d.entries dir := by
  rcases h with h | h
  · exact mem_entries_of_read h hp
  · exact mem_entries.mpr ⟨p, List.mem_append_right _ h, hp⟩

namespace SameAt

variable {keep : Path → Prop} {d d' : Files α}

theorem has_iff (h : SameAt keep d d') {p : Path} (hp : keep p) : d'.Has p ↔ d.Has p := by
  unfold Has
  rw [h.read p hp, h.dirs p hp]

theorem isDir_eq (h : SameAt keep d d') {p : Path} (hp : keep p) : d'.isDir p = d.isDir p := by
  have hcontains : d'.dirs.contains p = d.dirs.contains p := by
    rw [Bool.eq_iff_iff, List.contains_iff_mem, List.contains_iff_mem, h.dirs p hp]
  unfold isDir
  rw [hcontains]

theorem isThere_eq (h : SameAt keep d d') {place : Place} (hpath : keep place.path)
    (hpassed : ∀ dir ∈ place.passed, keep dir) : d'.isThere place = d.isThere place := by
  have hreaches : d'.reaches place = d.reaches place := by
    unfold reaches
    rw [Bool.eq_iff_iff, List.all_eq_true, List.all_eq_true]
    refine forall₂_congr fun dir hdir => ?_
    rw [List.contains_iff_mem, List.contains_iff_mem, h.dirs dir (hpassed dir hdir)]
  unfold isThere
  rw [hreaches, h.isDir_eq hpath, h.read place.path hpath]

end SameAt

/-! ## What stays -/

namespace Changes

variable {ok : Change α → Prop} {d d' : Files α}

/-- A directory after changes was one before, or was made by one of them. -/
theorem mem_dirs_cases (h : Changes ok d d') {p : Path} (hp : p ∈ d'.dirs) : p ∈ d.dirs ∨ ok (.mkdir p) := by
  induction h with
  | refl => exact .inl hp
  | write _ _ ih => exact ih hp
  | mkdir _ hok ih =>
    rcases List.mem_append.mp hp with hp | hp
    · exact ih hp
    · rw [List.mem_singleton.mp hp]
      exact .inr hok
  | remove _ _ ih => exact ih (mem_dirs_removeAll.mp hp).1

/-- A file that is only ever written with what it holds stays as it is. -/
theorem read_of_settled (h : Changes ok d d') {p : Path} {a : α} (hread : d.read p = some a)
    (hwrite : ∀ b, ok (.write p b) → b = a) (hremove : ∀ q, ¬ok (.remove q)) : d'.read p = some a := by
  induction h with
  | refl => exact hread
  | @write d' q b _ hok ih =>
    by_cases hq : p = q
    · subst hq
      rw [d'.read_write_self, hwrite b hok]
    · rw [d'.read_write_of_ne hq, ih]
  | mkdir _ _ ih => exact ih
  | remove _ hok => exact absurd hok (hremove _)

end Changes

/-- The directories to a place that were made are there afterwards, and every file is as it was. -/
theorem createParents_ok {β : Type} {d d' : Files β} {place : Place} (h : (createParents place).run d = (.ok (), d')) :
    (∀ p, d'.read p = d.read p) ∧ d'.dirs = d.dirs ++ place.passed := by
  obtain ⟨hok, rfl⟩ := Prod.mk.inj h
  exact ⟨read_createDirAll d place.passed, dirs_createDirAll (createDirAll_ok_iff.mp hok)⟩

end Files

end Disk
