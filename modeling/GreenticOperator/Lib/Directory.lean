import GreenticOperator.Lib.Disk
import GreenticOperator.Lib.Eff
import GreenticOperator.Lib.SortedMap
import Mathlib.Data.List.Dedup

/-!
# Directory — places below a directory, listing it and removing what is below a path

Path texts are joined to a directory one after another (`under`); plain names lead to the place
below it that they spell (`path_under_plain`), by way of the directories in between.

The operations on files are computations on the disk that may fail. `Changes ok` relates a disk to
those that changes of a kind lead to, and every operation moves along it. Changes that spare some
paths leave the same files and directories there (`SameAt.of_changes`).

Operations at plain names keep a disk a tree of plain names below a base (`Rooted`), where a place is there
exactly where something is at its path (`Rooted.isThere_iff`).
-/

namespace Disk

universe u

/-- Looking up names keeps a first part of the path it starts from, and what comes after that is plain. -/
theorem exists_foldl_enter (start : Path) {names : List String} (h : ∀ name ∈ names, '/' ∉ name.toList) :
    ∃ k added, names.foldl enter start = start.take k ++ added ∧ ∀ name ∈ added, Plain name := by
  induction names using List.reverseRecOn with
  | nil =>
    refine ⟨start.length, [], ?_, fun _ h => absurd h List.not_mem_nil⟩
    rw [List.take_length, List.append_nil]
    rfl
  | append_singleton names name ih =>
    obtain ⟨k, added, heq, hplain⟩ := ih fun n hn => h n (List.mem_append_left _ hn)
    rw [List.foldl_append, List.foldl_cons, List.foldl_nil, heq]
    unfold enter
    by_cases hstay : name = "" ∨ name = "."
    · rw [if_pos hstay]
      exact ⟨k, added, rfl, hplain⟩
    · rw [if_neg hstay]
      by_cases hup : name = ".."
      · rw [if_pos hup]
        rcases List.eq_nil_or_concat' added with rfl | ⟨front, last, rfl⟩
        · refine ⟨min ((start.take k).length - 1) k, [], ?_, fun _ h => absurd h List.not_mem_nil⟩
          rw [List.append_nil, List.append_nil, List.dropLast_eq_take, List.take_take]
        · refine ⟨k, front, ?_, fun n hn => hplain n (List.mem_append_left _ hn)⟩
          rw [← List.append_assoc, List.dropLast_concat]
      · rw [if_neg hup]
        obtain ⟨hempty, hdot⟩ := not_or.mp hstay
        refine ⟨k, added ++ [name], List.append_assoc .., fun n hn => ?_⟩
        rcases List.mem_append.mp hn with hn | hn
        · exact hplain n hn
        · rw [List.mem_singleton.mp hn]
          exact ⟨hempty, hdot, hup, h name (List.mem_append_right _ List.mem_cons_self)⟩

/-- One more path text, with the directory that an absolute one starts from. -/
def follow (walk : Path × List String) (text : String) : Path × List String :=
  if Text.startsWithChar '/' text then ([], Text.split '/' text)
  else (walk.1, walk.2 ++ Text.split '/' text)

/-- Where path texts lead that are joined to a directory one after another. -/
def under (base : Path) (texts : List String) : Place :=
  let (start, names) := texts.foldl follow (base, [])
  ⟨names.foldl enter start, (names.scanl enter start).dropLast.filter (· ≠ [])⟩

theorem foldl_follow (base : Path) (texts : List String) {walk : Path × List String} (hstart : walk.1 = base ∨ walk.1 = [])
    (h : ∀ name ∈ walk.2, '/' ∉ name.toList) : ((texts.foldl follow walk).1 = base ∨ (texts.foldl follow walk).1 = [])
      ∧ ∀ name ∈ (texts.foldl follow walk).2, '/' ∉ name.toList := by
  induction texts generalizing walk with
  | nil => exact ⟨hstart, h⟩
  | cons text texts ih =>
    rw [List.foldl_cons]
    unfold follow
    split
    next => exact ih (.inr rfl) fun name hname => no_slash_of_mem_split hname
    next =>
      refine ih hstart fun name hname => ?_
      rcases List.mem_append.mp hname with hname | hname
      · exact h name hname
      · exact no_slash_of_mem_split hname

/-- What path texts lead to below the directory that they are joined to has plain names. -/
theorem plain_of_under {base : Path} {texts : List String} {rest : Path} (h : (under base texts).path = base ++ rest) :
    ∀ name ∈ rest, Plain name := by
  obtain ⟨hstart, hnames⟩ := @foldl_follow base texts (base, []) (.inl rfl) fun _ h => absurd h List.not_mem_nil
  obtain ⟨k, added, heq, hplain⟩ := exists_foldl_enter (texts.foldl follow (base, [])).1 hnames
  have hshort : ((texts.foldl follow (base, [])).1.take k).length ≤ base.length := by
    rcases hstart with hstart | hstart
    · rw [hstart, List.length_take]
      exact Nat.min_le_right ..
    · rw [hstart, List.take_nil]
      exact Nat.zero_le _
  have hpath : (texts.foldl follow (base, [])).1.take k ++ added = base ++ rest := heq.symm.trans h
  intro name hname
  have hdrop := congrArg (List.drop base.length) hpath
  rw [List.drop_left, List.drop_append, List.drop_eq_nil_of_le hshort, List.nil_append] at hdrop
  rw [← hdrop] at hname
  exact hplain name (List.mem_of_mem_drop hname)

theorem foldl_follow_plain {names : List String} (h : ∀ name ∈ names, Plain name) (base : Path)
    (before : List String) : names.foldl follow (base, before) = (base, before ++ names) := by
  induction names generalizing before with
  | nil => rw [List.foldl_nil, List.append_nil]
  | cons name names ih =>
    have hname := h name List.mem_cons_self
    rw [List.foldl_cons, follow, if_neg (by simp [relative_of_plain hname]), split_of_plain hname,
      ih fun n hn => h n (List.mem_cons_of_mem name hn), List.append_assoc, List.singleton_append]

theorem foldl_enter_plain {names : List String} (h : ∀ name ∈ names, Plain name) (base : Path) :
    names.foldl enter base = base ++ names := by
  induction names generalizing base with
  | nil => exact (List.append_nil base).symm
  | cons name names ih =>
    rw [List.foldl_cons, ih fun n hn => h n (List.mem_cons_of_mem name hn),
      enter_plain base (h name List.mem_cons_self), List.append_assoc, List.singleton_append]

@[simp] theorem path_under_plain {names : List String} (h : ∀ name ∈ names, Plain name) (base : Path) :
    (under base names).path = base ++ names := by
  unfold under
  rw [foldl_follow_plain h]
  exact foldl_enter_plain h base

theorem prefix_of_mem_scanl_plain {names : List String} (h : ∀ name ∈ names, Plain name) {base dir : Path}
    (hdir : dir ∈ names.scanl enter base) : ∃ front, front <+: names ∧ dir = base ++ front := by
  induction names generalizing base with
  | nil => exact ⟨[], List.prefix_refl [], by rw [List.mem_singleton.mp hdir, List.append_nil]⟩
  | cons name names ih =>
    rw [List.scanl_cons, enter_plain base (h name List.mem_cons_self)] at hdir
    rcases List.mem_cons.mp hdir with rfl | hdir
    · exact ⟨[], List.nil_prefix, (List.append_nil dir).symm⟩
    · obtain ⟨front, hfront, rfl⟩ := ih (fun n hn => h n (List.mem_cons_of_mem name hn)) hdir
      exact ⟨name :: front, List.cons_prefix_cons.mpr ⟨rfl, hfront⟩, List.append_assoc base [name] front⟩

/-- The directories that plain names lead through are spelled by a first part of them. -/
theorem prefix_of_mem_passed_plain {names : List String} (h : ∀ name ∈ names, Plain name) {base dir : Path}
    (hdir : dir ∈ (under base names).passed) : ∃ front, front <+: names ∧ dir = base ++ front := by
  unfold under at hdir
  rw [foldl_follow_plain h] at hdir
  exact prefix_of_mem_scanl_plain h (List.dropLast_subset _ (List.mem_filter.mp hdir).1)

/-- The directories that plain names lead through are those that first parts of them spell. -/
theorem mem_passed_plain {base front rest : Path} (h : ∀ name ∈ front ++ rest, Plain name) (hrest : rest ≠ [])
    (hne : base ++ front ≠ []) : base ++ front ∈ (under base (front ++ rest)).passed := by
  have hscan : ∀ (front : Path) (base : Path), (∀ name ∈ front ++ rest, Plain name) →
      base ++ front ∈ ((front ++ rest).scanl enter base).dropLast := by
    intro front
    induction front with
    | nil =>
      intro base _
      cases rest with
      | nil => exact absurd rfl hrest
      | cons first rest =>
        rw [List.nil_append, List.scanl_cons, List.dropLast_cons_of_ne_nil (by simp), List.append_nil]
        exact List.mem_cons_self
    | cons name front ih =>
      intro base hplain
      have hmem := ih (base ++ [name]) fun n hn => hplain n (List.mem_cons_of_mem name hn)
      rw [List.append_assoc, List.singleton_append] at hmem
      rw [List.cons_append, List.scanl_cons, enter_plain base (hplain name List.mem_cons_self),
        List.dropLast_cons_of_ne_nil (by simp)]
      exact List.mem_cons_of_mem _ hmem
  unfold under
  rw [foldl_follow_plain h]
  exact List.mem_filter.mpr ⟨hscan front base h, decide_eq_true hne⟩

/-- The directories that plain names lead through are those on the way to the directory that the last is in, and it. -/
theorem mem_passed_concat {base dir : Path} {init : List String} {last : String}
    (h : ∀ name ∈ init ++ [last], Plain name) (hdir : dir ∈ (under base (init ++ [last])).passed) :
    dir ∈ (under base init).passed ++ [base ++ init] := by
  have hinit : ∀ name ∈ init, Plain name := fun name hname => h name (List.mem_append_left _ hname)
  unfold under at hdir ⊢
  rw [foldl_follow_plain h, List.nil_append] at hdir
  rw [foldl_follow_plain hinit, List.nil_append]
  dsimp only at hdir ⊢
  rw [List.scanl_append, List.scanl_singleton, List.tail_cons, List.dropLast_concat] at hdir
  obtain ⟨hmem, hne⟩ := List.mem_filter.mp hdir
  have hlast : (init.scanl enter base).dropLast ++ [base ++ init] = init.scanl enter base := by
    refine List.dropLast_append_getLast? _ ?_
    rw [List.getLast?_scanl, foldl_enter_plain hinit]
    exact rfl
  rw [← hlast] at hmem
  rcases List.mem_append.mp hmem with hmem | hmem
  · exact List.mem_append_left _ (List.mem_filter.mpr ⟨hmem, hne⟩)
  · exact List.mem_append_right _ hmem

theorem path_under_singleton (base : Path) (text : String) : (under base [text]).path
    = (Text.split '/' text).foldl enter (if Text.startsWithChar '/' text then [] else base) := by
  rw [under, List.foldl_cons, List.foldl_nil, follow]
  cases Text.startsWithChar '/' text <;> rfl

/-- What a plain name leads to below a path is one name further. -/
theorem path_under_join (base : Path) (root : String) {name : String} (h : Plain name) :
    (under base [join root name]).path = (under base [root]).path ++ [name] := by
  have hrelative := relative_of_plain h
  obtain ⟨names, hsplit, hnames, -⟩ := split_join_anywhere root hrelative
  rw [path_under_singleton, path_under_singleton, startsWithChar_join root hrelative, hsplit, split_of_plain h,
    List.foldl_append, hnames, List.foldl_cons, List.foldl_nil]
  exact enter_plain _ h

theorem path_under_joins (base : Path) (root : String) {names : List String} (h : ∀ name ∈ names, Plain name) :
    (under base [names.foldl join root]).path = (under base [root]).path ++ names := by
  induction names generalizing root with
  | nil => exact (List.append_nil _).symm
  | cons name names ih =>
    rw [List.foldl_cons, ih _ fun n hn => h n (List.mem_cons_of_mem name hn),
      path_under_join base root (h name List.mem_cons_self), List.append_assoc, List.singleton_append]

/-- A last plain name is the last of the place. -/
theorem getLast_under (base : Path) (texts : List String) {name : String} (h : Plain name) :
    (under base (texts ++ [name])).path.getLast? = some name := by
  unfold under
  rw [List.foldl_append, List.foldl_cons, List.foldl_nil]
  obtain ⟨start, names⟩ := texts.foldl follow (base, [])
  rw [follow, if_neg (by simp [relative_of_plain h]), split_of_plain h]
  dsimp only
  rw [List.foldl_append, List.foldl_cons, List.foldl_nil, enter_plain _ h]
  exact List.getLast?_concat

/-- A last text that ends with some characters leads to a name that does. -/
theorem exists_getLast_under_append (base : Path) (texts : List String) (front : String) {back : String}
    (hslash : '/' ∉ back.toList) (hlong : 2 < back.toList.length) :
    ∃ name, (under base (texts ++ [front ++ back])).path.getLast? = some (name ++ back) := by
  obtain ⟨init, last, -, hsplit⟩ := Text.splitOn_append_of_not_mem front.toList hslash
  have hne : ∀ name : String, name.toList.length ≤ 2 → String.ofList (last ++ back.toList) ≠ name := by
    rintro name hshort rfl
    rw [String.toList_ofList, List.length_append] at hshort
    omega
  have hname : String.ofList last ++ back = String.ofList (last ++ back.toList) := by
    rw [String.ofList_append, String.ofList_toList]
  have hpieces : Text.split '/' (front ++ back) = init.map String.ofList ++ [String.ofList last ++ back] := by
    rw [Text.split, String.toList_append, hsplit, List.map_append, hname]
    rfl
  have henter : ∀ path : Path, enter path (String.ofList last ++ back) = path ++ [String.ofList last ++ back] := by
    intro path
    rw [enter, hname, if_neg (not_or.mpr ⟨hne "" (by decide), hne "." (by decide)⟩), if_neg (hne ".." (by decide))]
  refine ⟨String.ofList last, ?_⟩
  unfold under
  rw [List.foldl_append, List.foldl_cons, List.foldl_nil]
  obtain ⟨start, names⟩ := texts.foldl follow (base, [])
  have hlast : ∀ (path : Path) (before : List String),
      ((before ++ [String.ofList last ++ back]).foldl enter path).getLast? = some (String.ofList last ++ back) := by
    intro path before
    rw [List.foldl_append, List.foldl_cons, List.foldl_nil, henter]
    exact List.getLast?_concat
  rw [follow, hpieces]
  by_cases hstart : Text.startsWithChar '/' (front ++ back) = true
  · rw [if_pos hstart]
    exact hlast [] _
  · rw [if_neg hstart]
    dsimp only
    rw [← List.append_assoc]
    exact hlast start _

namespace Files

variable {α : Type u}

/-- Whether a directory is at a path; the root is one. -/
def isDir (d : Files α) (p : Path) : Bool := p.isEmpty || d.dirs.contains p

/-- `Path::exists`. -/
def isThere (d : Files α) (place : Place) : Bool :=
  d.reaches place && (d.isDir place.path || (d.read place.path).isSome)

/-- The disk without what is at a path or below it. -/
def removeAll (d : Files α) (p : Path) : Files α where
  files := d.files.filter fun entry => !p.isPrefixOf entry.1
  dirs := d.dirs.filter fun dir => !p.isPrefixOf dir

/-- The name through which a path leaves a directory. -/
def entryOf (dir p : Path) : Option String := if dir.isPrefixOf p then p[dir.length]? else none

/-- The names in a directory. -/
def entries (d : Files α) (dir : Path) : List String :=
  ((d.files.map Prod.fst ++ d.dirs).filterMap (entryOf dir)).dedup

theorem entryOf_eq_some_iff {dir p : Path} {name : String} :
    entryOf dir p = some name ↔ dir ++ [name] <+: p := by
  unfold entryOf
  constructor
  · intro h
    split at h
    next hprefix =>
      obtain ⟨rest, rfl⟩ := List.isPrefixOf_iff_prefix.mp hprefix
      rw [List.getElem?_append_right (Nat.le_refl _), Nat.sub_self] at h
      cases rest with
      | nil => cases h
      | cons first rest =>
        cases h
        exact ⟨rest, List.append_assoc dir [name] rest⟩
    next => cases h
  · rintro ⟨rest, rfl⟩
    rw [List.append_assoc, if_pos (List.isPrefixOf_iff_prefix.mpr (List.prefix_append dir _)),
      List.getElem?_append_right (Nat.le_refl _), Nat.sub_self]
    rfl

theorem mem_entries {d : Files α} {dir : Path} {name : String} :
    name ∈ d.entries dir ↔ ∃ p ∈ d.files.map Prod.fst ++ d.dirs, dir ++ [name] <+: p := by
  unfold entries
  rw [List.mem_dedup, List.mem_filterMap]
  exact exists_congr fun p => and_congr_right fun _ => entryOf_eq_some_iff

theorem mem_files_of_read {d : Files α} {p : Path} {a : α} (h : d.read p = some a) :
    p ∈ d.files.map Prod.fst := by
  obtain ⟨front, back, heq, -⟩ := List.lookup_eq_some_iff.mp h
  rw [heq, List.map_append, List.map_cons]
  exact List.mem_append_right _ List.mem_cons_self

/-- A file that is read is below the name through which its path leaves a directory. -/
theorem mem_entries_of_read {d : Files α} {dir p : Path} {name : String} (h : (d.read p).isSome)
    (hp : dir ++ [name] <+: p) : name ∈ d.entries dir := by
  obtain ⟨a, ha⟩ := Option.isSome_iff_exists.mp h
  exact mem_entries.mpr ⟨p, List.mem_append_left _ (mem_files_of_read ha), hp⟩

theorem read_removeAll (d : Files α) (p q : Path) :
    (d.removeAll p).read q = if p <+: q then none else d.read q := by
  unfold read removeAll
  rw [@SortedMap.lookup_filter _ _ _ _ _ fun r => !p.isPrefixOf r]
  by_cases h : p <+: q
  · have hprefix := List.isPrefixOf_iff_prefix.mpr h
    simp [h, hprefix]
  · have hprefix : p.isPrefixOf q = false := by
      rw [← Bool.not_eq_true, List.isPrefixOf_iff_prefix]
      exact h
    simp [h, hprefix]

theorem mem_dirs_removeAll {d : Files α} {p q : Path} :
    q ∈ (d.removeAll p).dirs ↔ q ∈ d.dirs ∧ ¬p <+: q := by
  unfold removeAll
  rw [List.mem_filter, Bool.not_eq_true', ← Bool.not_eq_true, List.isPrefixOf_iff_prefix]

/-- The disk without what is at some paths or below them. -/
def removeEach (d : Files α) (ps : List Path) : Files α := ps.foldl removeAll d

theorem read_removeEach (d : Files α) (ps : List Path) (q : Path) :
    (d.removeEach ps).read q = if ps.any (·.isPrefixOf q) then none else d.read q := by
  induction ps generalizing d with
  | nil => rfl
  | cons p ps ih =>
    rw [removeEach, List.foldl_cons, ← removeEach, ih, read_removeAll, List.any_cons]
    by_cases hp : p <+: q
    · rw [if_pos hp, List.isPrefixOf_iff_prefix.mpr hp, Bool.true_or, if_pos rfl, ite_self]
    · have hfalse : p.isPrefixOf q = false := by
        rw [← Bool.not_eq_true, List.isPrefixOf_iff_prefix]
        exact hp
      rw [if_neg hp, hfalse, Bool.false_or]

theorem mem_dirs_removeEach {d : Files α} {ps : List Path} {q : Path} :
    q ∈ (d.removeEach ps).dirs ↔ q ∈ d.dirs ∧ ∀ p ∈ ps, ¬p <+: q := by
  induction ps generalizing d with
  | nil => simp [removeEach]
  | cons p ps ih => rw [removeEach, List.foldl_cons, ← removeEach, ih, mem_dirs_removeAll, List.forall_mem_cons, and_assoc]

theorem read_removeEach_of_spared {d : Files α} {ps : List Path} {q : Path} (h : ∀ p ∈ ps, ¬p <+: q) :
    (d.removeEach ps).read q = d.read q := by
  rw [read_removeEach, if_neg]
  rw [List.any_eq_true]
  rintro ⟨p, hp, hprefix⟩
  exact h p hp (List.isPrefixOf_iff_prefix.mp hprefix)

theorem read_removeEach_of_hit {d : Files α} {ps : List Path} {p q : Path} (hp : p ∈ ps) (h : p <+: q) :
    (d.removeEach ps).read q = none := by
  have hany : (ps.any fun p => p.isPrefixOf q) = true :=
    List.any_eq_true.mpr ⟨p, hp, List.isPrefixOf_iff_prefix.mpr h⟩
  rw [read_removeEach, if_pos hany]

/-- Something is at a path. -/
def Has (d : Files α) (p : Path) : Prop := (d.read p).isSome ∨ p ∈ d.dirs

theorem has_of_mem {d : Files α} {p : Path} (h : p ∈ d.files.map Prod.fst ++ d.dirs) : d.Has p := by
  rcases List.mem_append.mp h with h | h
  · obtain ⟨entry, hentry, rfl⟩ := List.mem_map.mp h
    exact .inl (List.lookup_isSome_iff.mpr ⟨entry, hentry, beq_self_eq_true _⟩)
  · exact .inr h

/-- What is there after a removal was there, and neither it nor the way to it was removed. -/
theorem isThere_removeEach_iff {d : Files α} {ps : List Path} (hroot : ∀ p ∈ ps, p ≠ []) {place : Place} :
    (d.removeEach ps).isThere place = true
      ↔ d.isThere place = true ∧ ∀ dir ∈ place.path :: place.passed, ∀ p ∈ ps, ¬p <+: dir := by
  have hreaches : (d.removeEach ps).reaches place = true
      ↔ d.reaches place = true ∧ ∀ dir ∈ place.passed, ∀ p ∈ ps, ¬p <+: dir := by
    simp only [reaches, List.all_eq_true, List.contains_iff_mem, mem_dirs_removeEach]
    exact forall₂_and
  have hpath : ((d.removeEach ps).isDir place.path || ((d.removeEach ps).read place.path).isSome) = true
      ↔ (d.isDir place.path || (d.read place.path).isSome) = true ∧ ∀ p ∈ ps, ¬p <+: place.path := by
    by_cases hspared : ∀ p ∈ ps, ¬p <+: place.path
    · rw [read_removeEach_of_spared hspared, and_iff_left hspared]
      simp only [isDir, Bool.or_eq_true, List.contains_iff_mem, mem_dirs_removeEach, and_iff_left hspared]
    · refine iff_of_false ?_ fun h => hspared h.2
      rw [not_forall] at hspared
      obtain ⟨p, hspared⟩ := hspared
      rw [not_forall] at hspared
      obtain ⟨hp, hprefix⟩ := hspared
      rw [not_not] at hprefix
      have hne : place.path ≠ [] := fun heq => hroot p hp (List.prefix_nil.mp (heq ▸ hprefix))
      rw [read_removeEach_of_hit hp hprefix]
      simp only [isDir, Bool.or_eq_true, List.contains_iff_mem, mem_dirs_removeEach, List.isEmpty_iff, hne,
        false_or, Option.isSome_none, Bool.false_eq_true, or_false]
      exact fun h => h.2 p hp hprefix
  unfold isThere
  rw [Bool.and_eq_true, Bool.and_eq_true, hreaches, hpath, List.forall_mem_cons]
  tauto

/-! ### Operations -/

section Operations

variable {α : Type}

/-- `create_dir_all` of the parent of a place. -/
def createParents (place : Place) : Eff (Files α) Unit := fun d =>
  ((d.createDirAll place.passed).2, (d.createDirAll place.passed).1)

/-- `create_dir_all`. -/
def createDirs (place : Place) : Eff (Files α) Unit :=
  createParents ⟨place.path, place.passed ++ [place.path]⟩

def writeFile (place : Place) (a : α) : Eff (Files α) Unit := fun d =>
  if !d.reaches place then (.error "no such file or directory", d)
  else if d.isDir place.path then (.error "is a directory", d)
  else (.ok (), d.write place.path a)

def readFile (place : Place) : Eff (Files α) α := fun d =>
  if d.reaches place then
    match d.read place.path with
    | some a => (.ok a, d)
    | none => (.error "no such file", d)
  else (.error "no such file or directory", d)

def remove (place : Place) : Eff (Files α) Unit := Eff.modify fun d => d.removeAll place.path

end Operations

/-! ### Changes -/

/-- One change of a disk. -/
inductive Change (α : Type u)
  | write (p : Path) (a : α)
  | mkdir (p : Path)
  | remove (p : Path)

/-- The disks that changes of a kind lead to. -/
inductive Changes (ok : Change α → Prop) (d : Files α) : Files α → Prop
  | refl : Changes ok d d
  | write {d' : Files α} {p : Path} {a : α} : Changes ok d d' → ok (.write p a) → Changes ok d (d'.write p a)
  | mkdir {d' : Files α} {p : Path} : Changes ok d d' → ok (.mkdir p) → Changes ok d (d'.mkdirs [p])
  | remove {d' : Files α} {p : Path} : Changes ok d d' → ok (.remove p) → Changes ok d (d'.removeAll p)

namespace Changes

variable {ok : Change α → Prop} {d d' d'' : Files α}

theorem trans (h : Changes ok d d') (h' : Changes ok d' d'') : Changes ok d d'' := by
  induction h' with
  | refl => exact h
  | write _ hok ih => exact ih.write hok
  | mkdir _ hok ih => exact ih.mkdir hok
  | remove _ hok ih => exact ih.remove hok

theorem createDirAll (d : Files α) {dirs : List Path} (h : ∀ dir ∈ dirs, ok (.mkdir dir)) :
    Changes ok d (d.createDirAll dirs).1 := by
  induction dirs generalizing d with
  | nil => exact .refl
  | cons dir dirs ih =>
    rw [Files.createDirAll]
    split
    next => exact .refl
    next =>
      exact (Changes.refl.mkdir (h dir List.mem_cons_self)).trans
        (ih _ fun other hother => h other (List.mem_cons_of_mem dir hother))

/-- What is read after changes was there before, or was written by one of them. -/
theorem read_cases (h : Changes ok d d') (p : Path) :
    d'.read p = d.read p ∨ d'.read p = none ∨ ∃ a, ok (.write p a) ∧ d'.read p = some a := by
  induction h with
  | refl => exact .inl rfl
  | @write d' q a _ hok ih =>
    by_cases hq : p = q
    · subst hq
      exact .inr (.inr ⟨a, hok, d'.read_write_self p a⟩)
    · rwa [d'.read_write_of_ne hq a]
  | mkdir _ _ ih => exact ih
  | @remove d' q _ _ ih =>
    rw [read_removeAll]
    split
    next => exact .inr (.inl rfl)
    next => exact ih

theorem mono {ok' : Change α → Prop} (h : Changes ok d d') (hok : ∀ change, ok change → ok' change) :
    Changes ok' d d' := by
  induction h with
  | refl => exact .refl
  | write _ hchange ih => exact ih.write (hok _ hchange)
  | mkdir _ hchange ih => exact ih.mkdir (hok _ hchange)
  | remove _ hchange ih => exact ih.remove (hok _ hchange)

/-- Without changes a disk is the same. -/
theorem eq_of_none (h : Changes ok d d') (hok : ∀ change, ¬ok change) : d' = d := by
  cases h with
  | refl => rfl
  | write _ hchange => exact absurd hchange (hok _)
  | mkdir _ hchange => exact absurd hchange (hok _)
  | remove _ hchange => exact absurd hchange (hok _)

/-- What is neither written nor removed reads the same. -/
theorem read_of_spared (h : Changes ok d d') {p : Path} (hwrite : ∀ a, ¬ok (.write p a))
    (hremove : ∀ q, ok (.remove q) → ¬q <+: p) : d'.read p = d.read p := by
  induction h with
  | refl => rfl
  | @write d' q a _ hok ih =>
    rw [d'.read_write_of_ne ?_ a, ih]
    rintro rfl
    exact hwrite a hok
  | mkdir _ _ ih => exact ih
  | remove _ hok ih => rw [read_removeAll, if_neg (hremove _ hok), ih]

/-- What is neither made nor removed is a directory where it was one. -/
theorem mem_dirs_of_spared (h : Changes ok d d') {p : Path} (hmkdir : ¬ok (.mkdir p))
    (hremove : ∀ q, ok (.remove q) → ¬q <+: p) : p ∈ d'.dirs ↔ p ∈ d.dirs := by
  induction h with
  | refl => exact Iff.rfl
  | write _ _ ih => exact ih
  | @mkdir d' q _ hok ih =>
    rw [← ih, mkdirs, List.mem_append, List.mem_singleton, or_iff_left]
    rintro rfl
    exact hmkdir hok
  | remove _ hok ih => rw [mem_dirs_removeAll, and_iff_left (hremove _ hok), ih]

/-- Where nothing is removed, directories stay. -/
theorem subset_dirs (h : Changes ok d d') (hremove : ∀ q, ¬ok (.remove q)) : d.dirs ⊆ d'.dirs := by
  induction h with
  | refl => exact List.Subset.refl _
  | write _ _ ih => exact ih
  | mkdir _ _ ih => exact fun p hp => List.mem_append_left _ (ih hp)
  | remove _ hok => exact absurd hok (hremove _)

end Changes

/-- A disk with the same files and directories at the paths to be kept. -/
structure SameAt (keep : Path → Prop) (d d' : Files α) : Prop where
  read : ∀ p, keep p → d'.read p = d.read p
  dirs : ∀ p, keep p → (p ∈ d'.dirs ↔ p ∈ d.dirs)

namespace SameAt

variable {keep : Path → Prop}

theorem refl (d : Files α) : SameAt keep d d := ⟨fun _ _ => rfl, fun _ _ => Iff.rfl⟩

theorem trans {d d' d'' : Files α} (h : SameAt keep d d') (h' : SameAt keep d' d'') : SameAt keep d d'' where
  read p hp := (h'.read p hp).trans (h.read p hp)
  dirs p hp := (h'.dirs p hp).trans (h.dirs p hp)

theorem write (d : Files α) {p : Path} (hp : ¬keep p) (a : α) : SameAt keep d (d.write p a) where
  read q hq := by
    refine d.read_write_of_ne ?_ a
    rintro rfl
    exact hp hq
  dirs _ _ := Iff.rfl

theorem mkdir (d : Files α) {p : Path} (hp : ¬keep p) : SameAt keep d (d.mkdirs [p]) where
  read _ _ := rfl
  dirs q hq := by
    rw [mkdirs, List.mem_append, List.mem_singleton, or_iff_left]
    rintro rfl
    exact hp hq

theorem removeAll (d : Files α) {p : Path} (h : ∀ q, keep q → ¬p <+: q) : SameAt keep d (d.removeAll p) where
  read q hq := by rw [read_removeAll, if_neg (h q hq)]
  dirs q hq := by rw [mem_dirs_removeAll, and_iff_left (h q hq)]

/-- A removal keeps paths exactly where nothing at one of them is removed. -/
theorem removeEach_iff {d : Files α} {ps : List Path} :
    SameAt keep d (d.removeEach ps) ↔ ∀ q, keep q → d.Has q → ∀ p ∈ ps, ¬p <+: q := by
  constructor
  · rintro h q hq (hread | hdir) p hp hprefix
    · rw [← h.read q hq, read_removeEach_of_hit hp hprefix] at hread
      cases hread
    · exact (mem_dirs_removeEach.mp ((h.dirs q hq).mpr hdir)).2 p hp hprefix
  · intro h
    refine ⟨fun q hq => ?_, fun q hq => ?_⟩
    · cases hread : d.read q with
      | some a => rw [read_removeEach_of_spared (h q hq (.inl (by rw [hread]; rfl))), hread]
      | none => rw [read_removeEach, hread, ite_self]
    · rw [mem_dirs_removeEach]
      exact ⟨fun hdir => hdir.1, fun hdir => ⟨hdir, h q hq (.inr hdir)⟩⟩

/-- What a change may not do to the paths to be kept. -/
def Spares (keep : Path → Prop) : Change α → Prop
  | .write p _ => ¬keep p
  | .mkdir p => ¬keep p
  | .remove p => ∀ q, keep q → ¬p <+: q

theorem of_changes {d d' : Files α} (h : Changes (Spares keep) d d') : SameAt keep d d' := by
  induction h with
  | refl => exact .refl d
  | write _ hok ih => exact ih.trans (.write _ hok _)
  | mkdir _ hok ih => exact ih.trans (.mkdir _ hok)
  | remove _ hok ih => exact ih.trans (.removeAll _ hok)

end SameAt

/-! ### What operations change -/

section Moves

variable {α : Type} {ok : Change α → Prop}

/-- The directory of a place, and those on the way to it, may be made. -/
def AllowsDirs (ok : Change α → Prop) (place : Place) : Prop :=
  (∀ dir ∈ place.passed, ok (.mkdir dir)) ∧ ok (.mkdir place.path)

/-- A file may be written at a place, and the directories on the way to it may be made. -/
def AllowsFile (ok : Change α → Prop) (place : Place) : Prop :=
  (∀ dir ∈ place.passed, ok (.mkdir dir)) ∧ ∀ a, ok (.write place.path a)

theorem moves_pure {β : Type} (b : β) : Eff.Moves (Changes ok) (pure b) := Eff.Moves.pure (fun _ => .refl) b

theorem moves_lift {β : Type} (x : Except String β) : Eff.Moves (Changes ok) (Eff.lift x) :=
  Eff.Moves.lift (fun _ => .refl) x

theorem moves_read {β : Type} (f : Files α → β) : Eff.Moves (Changes ok) (Eff.read f) :=
  Eff.Moves.read (fun _ => .refl) f

theorem moves_fail {β : Type} (message : String) : Eff.Moves (Changes ok) (Eff.fail message : Eff _ β) :=
  Eff.Moves.fail (fun _ => .refl) message

theorem moves_bind {β γ : Type} {x : Eff (Files α) β} {f : β → Eff (Files α) γ}
    (hx : Eff.Moves (Changes ok) x) (hf : ∀ b, Eff.Moves (Changes ok) (f b)) :
    Eff.Moves (Changes ok) (x >>= f) := Eff.Moves.bind (R := Changes ok) Changes.trans hx hf

theorem moves_forM {β : Type} {l : List β} {f : β → Eff (Files α) PUnit}
    (h : ∀ b ∈ l, Eff.Moves (Changes ok) (f b)) : Eff.Moves (Changes ok) (l.forM f) :=
  Eff.Moves.forM (R := Changes ok) (fun _ => .refl) Changes.trans h

theorem moves_createParents {place : Place} (h : ∀ dir ∈ place.passed, ok (.mkdir dir)) :
    Eff.Moves (Changes ok) (createParents place) := fun d => Changes.createDirAll d h

theorem moves_createDirs {place : Place} (h : AllowsDirs ok place) :
    Eff.Moves (Changes ok) (createDirs place) := by
  refine moves_createParents fun dir hdir => ?_
  rcases List.mem_append.mp hdir with hdir | hdir
  · exact h.1 dir hdir
  · rw [List.mem_singleton.mp hdir]
    exact h.2

/-- A file is written, or nothing changes. -/
theorem writeFile_cases (place : Place) (a : α) (d : Files α) :
    (∃ message, (writeFile place a).run d = (.error message, d))
      ∨ d.reaches place = true ∧ (writeFile place a).run d = (.ok (), d.write place.path a) := by
  change (∃ message, writeFile place a d = (.error message, d))
    ∨ d.reaches place = true ∧ writeFile place a d = (.ok (), d.write place.path a)
  unfold writeFile
  split
  next => exact .inl ⟨_, rfl⟩
  next hreaches =>
    split
    next => exact .inl ⟨_, rfl⟩
    next => exact .inr ⟨by simpa using hreaches, rfl⟩

/-- A file that was written is there afterwards. -/
theorem writeFile_ok {place : Place} {a : α} {d d' : Files α} (h : (writeFile place a).run d = (.ok (), d')) :
    d.reaches place = true ∧ d' = d.write place.path a := by
  rcases writeFile_cases place a d with ⟨message, hrun⟩ | ⟨hreaches, hrun⟩
  · cases hrun.symm.trans h
  · exact ⟨hreaches, (Prod.mk.inj (hrun.symm.trans h)).2.symm⟩

theorem moves_writeFile {place : Place} {a : α} (h : ok (.write place.path a)) :
    Eff.Moves (Changes ok) (writeFile place a) := by
  intro d
  change Changes ok d (writeFile place a d).2
  unfold writeFile
  split
  next => exact .refl
  next =>
    split
    next => exact .refl
    next => exact Changes.refl.write h

theorem readFile_run (place : Place) (d : Files α) : ((readFile place).run d).2 = d := by
  change (readFile place d).2 = d
  unfold readFile
  split
  next => split <;> rfl
  next => rfl

/-- What was read is what is there. -/
theorem readFile_ok {place : Place} {a : α} {d d' : Files α} (h : (readFile place).run d = (.ok a, d')) :
    d.read place.path = some a ∧ d' = d := by
  have hsame : d' = d := by
    rw [← readFile_run place d, h]
  change readFile place d = (.ok a, d') at h
  unfold readFile at h
  split at h
  next =>
    split at h
    next b hread =>
      cases h
      exact ⟨hread, rfl⟩
    next => cases h
  next => cases h

theorem moves_readFile (place : Place) : Eff.Moves (Changes ok) (readFile place) := by
  intro d
  rw [readFile_run]
  exact .refl

/-- Files that are written one after another: one whose path no other has is as it was written. -/
theorem read_forM_writeFile {β : Type} {place : β → Place} {content : β → α} {l : List β} {d d' : Files α}
    (h : (l.forM fun b => writeFile (place b) (content b)).run d = (.ok (), d')) {b : β} (hmem : b ∈ l)
    (halone : ∀ other ∈ l, (place other).path = (place b).path → other = b) :
    d'.read (place b).path = some (content b) := by
  induction l generalizing d with
  | nil => cases hmem
  | cons first l ih =>
    change (writeFile (place first) (content first) >>= fun _ => l.forM fun b => writeFile (place b) (content b)).run d
      = (.ok (), d') at h
    obtain ⟨_, d₁, hfirst, hrest⟩ := Eff.bind_run_ok h
    by_cases hlater : b ∈ l
    · exact ih hrest hlater fun other hother => halone other (List.mem_cons_of_mem first hother)
    · have hsame : b = first := (List.mem_cons.mp hmem).resolve_right hlater
      have hmoves : Eff.Moves (Changes fun
          | .write p _ => ∃ other ∈ l, p = (place other).path
          | _ => False) (l.forM fun b => writeFile (place b) (content b)) :=
        moves_forM fun other hother => moves_writeFile ⟨other, hother, rfl⟩
      have hchanges := hmoves d₁
      rw [hrest] at hchanges
      rw [hchanges.read_of_spared ?_ fun _ hremove => absurd hremove id, (writeFile_ok hfirst).2, hsame,
        read_write_self]
      rintro a ⟨other, hother, hpath⟩
      exact hlater (halone other (List.mem_cons_of_mem first hother) hpath.symm ▸ hother)

/-- Removing what is at some places, one after another. -/
theorem forM_remove_run {β : Type} (l : List β) (place : β → Place) (d : Files α) :
    (l.forM fun b => remove (place b)).run d = (.ok (), d.removeEach (l.map fun b => (place b).path)) := by
  induction l generalizing d with
  | nil => rfl
  | cons b l ih =>
    change (remove (place b) >>= fun _ => l.forM fun b => remove (place b)).run d = _
    have hremove : (remove (place b)).run d = (.ok (), d.removeAll (place b).path) := rfl
    rw [Eff.bind_run_of_ok hremove, ih]
    rfl

theorem moves_remove {place : Place} (h : ok (.remove place.path)) : Eff.Moves (Changes ok) (remove place) :=
  fun _ => Changes.refl.remove h

end Moves

/-! ### Files with the directories on the way to them -/

section NewFile

variable {α : Type}

/-- Nothing is in the way of a file at a place: no file where its directories are to be, and no directory where it is. -/
def isFree (d : Files α) (place : Place) : Bool :=
  (place.passed.all fun dir => (d.read dir).isNone) && !d.isDir place.path

variable {d : Files α} {place : Place}

theorem createParents_run_of_free (h : ∀ dir ∈ place.passed, d.read dir = none) :
    (createParents place).run d = (.ok (), (d.createDirAll place.passed).1)
      ∧ (d.createDirAll place.passed).1.reaches place = true := by
  refine ⟨Prod.ext (createDirAll_ok_iff.mpr h) rfl, List.all_eq_true.mpr fun dir hdir => List.contains_iff_mem.mpr ?_⟩
  rw [dirs_createDirAll h]
  exact List.mem_append_right _ hdir

theorem createParents_run_of_not_free (h : ¬∀ dir ∈ place.passed, d.read dir = none) :
    ∃ message, (createParents place).run d = (.error message, (d.createDirAll place.passed).1) := by
  cases hresult : (d.createDirAll place.passed).2 with
  | ok _ => exact absurd (createDirAll_ok_iff.mp hresult) h
  | error message => exact ⟨message, Prod.ext hresult rfl⟩

theorem all_isNone_iff {dirs : List Path} :
    (dirs.all fun dir => (d.read dir).isNone) = true ↔ ∀ dir ∈ dirs, d.read dir = none := by
  simp only [List.all_eq_true, Option.isNone_iff_eq_none]

theorem isDir_createDirAll (h : ∀ dir ∈ place.passed, d.read dir = none) (hself : place.path ∉ place.passed) :
    (d.createDirAll place.passed).1.isDir place.path = d.isDir place.path := by
  have hcontains : (d.createDirAll place.passed).1.dirs.contains place.path = d.dirs.contains place.path := by
    rw [Bool.eq_iff_iff, List.contains_iff_mem, List.contains_iff_mem, dirs_createDirAll h, List.mem_append,
      or_iff_left hself]
  rw [isDir, isDir, hcontains]

/-- A file is written with the directories on the way to it where nothing is in its way. -/
theorem newFile_run_of_free (h : d.isFree place = true) (hself : place.path ∉ place.passed) (a : α) :
    (createParents place >>= fun _ => writeFile place a).run d
      = (.ok (), (d.createDirAll place.passed).1.write place.path a) := by
  obtain ⟨hdirs, hdir⟩ := Bool.and_eq_true_iff.mp h
  rw [all_isNone_iff] at hdirs
  obtain ⟨hparents, hreaches⟩ := createParents_run_of_free hdirs
  rw [Eff.bind_run_of_ok hparents, Eff.run_eq, writeFile, hreaches, isDir_createDirAll hdirs hself]
  rw [Bool.not_eq_true'] at hdir
  rw [hdir]
  rfl

/-- Where something is in its way, no file changes. -/
theorem newFile_run_of_not_free (h : d.isFree place = false) (hself : place.path ∉ place.passed) (a : α) :
    ∃ message, (createParents place >>= fun _ => writeFile place a).run d
      = (.error message, (d.createDirAll place.passed).1) := by
  by_cases hdirs : ∀ dir ∈ place.passed, d.read dir = none
  · obtain ⟨hparents, hreaches⟩ := createParents_run_of_free hdirs
    have hdir : d.isDir place.path = true := by
      have hall := all_isNone_iff.mpr hdirs
      rw [isFree, hall] at h
      simpa using h
    refine ⟨"is a directory", ?_⟩
    rw [Eff.bind_run_of_ok hparents, Eff.run_eq, writeFile, hreaches, isDir_createDirAll hdirs hself, hdir]
    rfl
  · obtain ⟨message, hparents⟩ := createParents_run_of_not_free hdirs
    exact ⟨message, Eff.bind_run_of_error hparents⟩

end NewFile

/-! ### Trees of plain names -/

section Tree

variable {α : Type}

/-- Below a base the names are plain, a directory is there for what it contains, and no file is in its place. -/
structure Rooted (base : Path) (d : Files α) : Prop where
  plain : ∀ rest, d.Has (base ++ rest) → ∀ name ∈ rest, Plain name
  parents : ∀ front rest, d.Has (base ++ front ++ rest) → rest ≠ [] → base ++ front ≠ [] → base ++ front ∈ d.dirs
  apart : ∀ rest, base ++ rest ∈ d.dirs → d.read (base ++ rest) = none

theorem has_mkdirs {d : Files α} {p q : Path} : (d.mkdirs [p]).Has q ↔ d.Has q ∨ q = p := by
  unfold Has
  rw [read_mkdirs, mkdirs, List.mem_append, List.mem_singleton, or_assoc]

theorem has_write {d : Files α} {p q : Path} {a : α} : (d.write p a).Has q ↔ d.Has q ∨ q = p := by
  unfold Has
  by_cases hq : q = p
  · rw [hq, read_write_self]
    simp
  · rw [d.read_write_of_ne hq a, or_iff_left hq]
    rfl

theorem has_removeAll {d : Files α} {p q : Path} : (d.removeAll p).Has q ↔ d.Has q ∧ ¬p <+: q := by
  unfold Has
  rw [read_removeAll, mem_dirs_removeAll]
  by_cases h : p <+: q
  · simp [h]
  · simp [h]

namespace Rooted

variable {base : Path} {d : Files α} {names : List String}

theorem empty (base : Path) : Rooted base (empty : Files α) where
  plain rest h := by simp [Has, Files.empty, read] at h
  parents front rest h := by simp [Has, Files.empty, read] at h
  apart rest h := absurd h List.not_mem_nil

/-- Directories for what a path is in are there. -/
def Parents (base : Path) (d : Files α) (names : List String) : Prop :=
  ∀ front rest, front ++ rest = names → rest ≠ [] → base ++ front ≠ [] → base ++ front ∈ d.dirs

theorem Parents.concat {d' : Files α} {name : String} (h : Parents base d names) (hdirs : ∀ {p}, p ∈ d.dirs → p ∈ d'.dirs)
    (hlast : base ++ names ≠ [] → base ++ names ∈ d'.dirs) : Parents base d' (names ++ [name]) := by
  intro front rest heq hrest hne
  rcases List.eq_nil_or_concat' rest with rfl | ⟨init, last, rfl⟩
  · exact absurd rfl hrest
  · rw [← List.append_assoc] at heq
    obtain ⟨hnames, -⟩ := List.append_inj' heq rfl
    cases init with
    | nil =>
      rw [List.append_nil] at hnames
      rw [hnames] at hne ⊢
      exact hlast hne
    | cons first init => exact hdirs (h front (first :: init) hnames (List.cons_ne_nil _ _) hne)

theorem mkdir (h : Rooted base d) (hplain : ∀ name ∈ names, Plain name) (hparents : Parents base d names)
    (hread : d.read (base ++ names) = none) : Rooted base (d.mkdirs [base ++ names]) where
  plain rest hhas := by
    rcases has_mkdirs.mp hhas with hhas | heq
    · exact h.plain rest hhas
    · rw [List.append_cancel_left heq]
      exact hplain
  parents front rest hhas hrest hne := by
    refine List.mem_append_left _ ?_
    rcases has_mkdirs.mp hhas with hhas | heq
    · exact h.parents front rest hhas hrest hne
    · rw [List.append_assoc] at heq
      exact hparents front rest (List.append_cancel_left heq) hrest hne
  apart rest hdir := by
    rcases List.mem_append.mp hdir with hdir | hdir
    · exact h.apart rest hdir
    · rw [List.mem_singleton.mp hdir]
      exact hread

theorem write (h : Rooted base d) (hplain : ∀ name ∈ names, Plain name) (hparents : Parents base d names)
    (hdir : base ++ names ∉ d.dirs) (a : α) : Rooted base (d.write (base ++ names) a) where
  plain rest hhas := by
    rcases has_write.mp hhas with hhas | heq
    · exact h.plain rest hhas
    · rw [List.append_cancel_left heq]
      exact hplain
  parents front rest hhas hrest hne := by
    rcases has_write.mp hhas with hhas | heq
    · exact h.parents front rest hhas hrest hne
    · rw [List.append_assoc] at heq
      exact hparents front rest (List.append_cancel_left heq) hrest hne
  apart rest hrest := by
    rw [d.read_write_of_ne ?_ a]
    · exact h.apart rest hrest
    · rintro heq
      exact hdir (heq ▸ hrest)

theorem removeAll (h : Rooted base d) (p : Path) : Rooted base (d.removeAll p) where
  plain rest hhas := h.plain rest (has_removeAll.mp hhas).1
  parents front rest hhas hrest hne := by
    obtain ⟨hhas, hspared⟩ := has_removeAll.mp hhas
    exact mem_dirs_removeAll.mpr ⟨h.parents front rest hhas hrest hne,
      fun hfront => hspared (hfront.trans (List.prefix_append _ _))⟩
  apart rest hdir := by
    rw [read_removeAll, if_neg (mem_dirs_removeAll.mp hdir).2]
    exact h.apart rest (mem_dirs_removeAll.mp hdir).1

/-- Directories are made from the base on, down to where a file is in the place of one. -/
theorem createDirAll_scanl {done : List String} (h : Rooted base d) (hplain : ∀ name ∈ done ++ names, Plain name)
    (hdone : Parents base d done) :
    Rooted base (d.createDirAll ((names.scanl enter (base ++ done)).filter (· ≠ []))).1 := by
  have hfront : ∀ name ∈ done, Plain name := fun name hname => hplain name (List.mem_append_left _ hname)
  induction names generalizing done d with
  | nil =>
    rw [List.scanl_nil, List.filter_cons, List.filter_nil]
    split
    next =>
      unfold createDirAll
      split
      next => exact h
      next hfile => exact h.mkdir hfront hdone (Option.not_isSome_iff_eq_none.mp hfile)
    next => exact h
  | cons name names ih =>
    have hnext : ∀ name' ∈ done ++ [name] ++ names, Plain name' := by
      rw [List.append_assoc]
      exact hplain
    have hdone' : ∀ name' ∈ done ++ [name], Plain name' := fun name' hname' => hnext name' (List.mem_append_left _ hname')
    rw [List.scanl_cons, enter_plain _ (hdone' name (List.mem_append_right _ List.mem_cons_self)), List.append_assoc,
      List.filter_cons]
    split
    next =>
      unfold createDirAll
      split
      next => exact h
      next hfile =>
        refine ih (h.mkdir hfront hdone (Option.not_isSome_iff_eq_none.mp hfile)) hnext ?_ hdone'
        exact hdone.concat (fun hdir => List.mem_append_left _ hdir) fun _ => List.mem_append_right _ List.mem_cons_self
    next hroot =>
      refine ih h hnext ?_ hdone'
      exact hdone.concat id fun hne => absurd (by simpa using hroot) hne

/-! The operations of a disk, at plain names. -/

theorem passed_plain_concat {init : List String} {last : String} (h : ∀ name ∈ init ++ [last], Plain name) :
    (under base (init ++ [last])).passed = (init.scanl enter base).filter (· ≠ []) := by
  unfold under
  rw [foldl_follow_plain h, List.nil_append]
  dsimp only
  rw [List.scanl_append, List.scanl_singleton, List.tail_cons, List.dropLast_concat]

theorem passed_plain_self (h : ∀ name ∈ names, Plain name) (hne : base ++ names ≠ []) :
    (under base names).passed ++ [(under base names).path] = (names.scanl enter base).filter (· ≠ []) := by
  have hscan : (names.scanl enter base).dropLast ++ [base ++ names] = names.scanl enter base := by
    refine List.dropLast_append_getLast? _ ?_
    rw [List.getLast?_scanl, foldl_enter_plain h]
    exact rfl
  have hlast : [base ++ names].filter (fun p => decide (p ≠ [])) = [base ++ names] :=
    List.filter_eq_self.mpr fun p hp => decide_eq_true (List.mem_singleton.mp hp ▸ hne)
  rw [path_under_plain h]
  conv_rhs => rw [← hscan, List.filter_append, hlast]
  unfold under
  rw [foldl_follow_plain h, List.nil_append]

theorem createDirs_run (h : Rooted base d) (hplain : ∀ name ∈ names, Plain name) (hne : base ++ names ≠ []) :
    Rooted base ((createDirs (under base names)).run d).2 := by
  have hstart : Parents base d [] := fun front rest heq hrest => absurd (List.append_eq_nil_iff.mp heq).2 hrest
  have hrooted := @createDirAll_scanl _ base d names [] h hplain hstart
  rw [List.append_nil, ← passed_plain_self hplain hne] at hrooted
  exact hrooted

theorem createParents_run (h : Rooted base d) (hplain : ∀ name ∈ names, Plain name) :
    Rooted base ((createParents (under base names)).run d).2 := by
  rcases List.eq_nil_or_concat' names with rfl | ⟨init, last, rfl⟩
  · exact h
  · have hstart : Parents base d [] := fun front rest heq hrest => absurd (List.append_eq_nil_iff.mp heq).2 hrest
    have hrooted := @createDirAll_scanl _ base d init [] h (fun name hname => hplain name (List.mem_append_left _ hname)) hstart
    rw [List.append_nil, ← passed_plain_concat hplain] at hrooted
    exact hrooted

theorem parents_of_reaches (hplain : ∀ name ∈ names, Plain name) (h : d.reaches (under base names) = true) :
    Parents base d names := by
  rintro front rest rfl hrest hne
  exact List.contains_iff_mem.mp (List.all_eq_true.mp h _ (mem_passed_plain hplain hrest hne))

theorem reaches_of_parents (hplain : ∀ name ∈ names, Plain name) (h : Parents base d names) :
    d.reaches (under base names) = true := by
  refine List.all_eq_true.mpr fun dir hdir => List.contains_iff_mem.mpr ?_
  rcases List.eq_nil_or_concat' names with rfl | ⟨init, last, rfl⟩
  · cases hdir
  · have hne : dir ≠ [] := of_decide_eq_true (List.mem_filter.mp hdir).2
    rw [passed_plain_concat hplain] at hdir
    obtain ⟨front, ⟨rest, rfl⟩, rfl⟩ := prefix_of_mem_scanl_plain
      (fun name hname => hplain name (List.mem_append_left _ hname)) (List.mem_filter.mp hdir).1
    exact h front (rest ++ [last]) (List.append_assoc ..).symm (by simp) hne

theorem parents_of_has (h : Rooted base d) (hhas : d.Has (base ++ names)) : Parents base d names := by
  rintro front rest rfl hrest hne
  rw [← List.append_assoc] at hhas
  exact h.parents front rest hhas hrest hne

theorem isThere_iff (h : Rooted base d) (hplain : ∀ name ∈ names, Plain name) (hne : base ++ names ≠ []) :
    d.isThere (under base names) = true ↔ d.Has (base ++ names) := by
  have hpath : (d.isDir (base ++ names) || (d.read (base ++ names)).isSome) = true ↔ d.Has (base ++ names) := by
    rw [Bool.or_eq_true, isDir, Bool.or_eq_true, List.isEmpty_iff, List.contains_iff_mem, or_iff_right hne, or_comm]
    rfl
  rw [isThere, Bool.and_eq_true, path_under_plain hplain, hpath]
  exact ⟨And.right, fun hhas => ⟨reaches_of_parents hplain (h.parents_of_has hhas), hhas⟩⟩

theorem writeFile_run (h : Rooted base d) (hplain : ∀ name ∈ names, Plain name) (a : α) :
    Rooted base ((writeFile (under base names) a).run d).2 := by
  change Rooted base (writeFile (under base names) a d).2
  unfold writeFile
  split
  next => exact h
  next hreaches =>
    split
    next => exact h
    next hdir =>
      rw [path_under_plain hplain] at hdir ⊢
      refine h.write hplain (parents_of_reaches hplain (by simpa using hreaches)) (fun hmem => hdir ?_) a
      rw [isDir, List.contains_iff_mem.mpr hmem, Bool.or_true]

end Rooted

/-- A disk of plain names stays one, and what a directory of the base holds stays as it is. -/
def Aside (base : Path) (directory : String) (d d' : Files α) : Prop :=
  Rooted base d → Rooted base d' ∧ SameAt (fun p => base ++ [directory] <+: p) d d' ∧ d'.read base = d.read base

section Aside

variable {base : Path} {directory : String} {names : List String}

theorem Aside.refl (d : Files α) : Aside base directory d d := fun h => ⟨h, .refl d, rfl⟩

theorem Aside.trans {d d' d'' : Files α} (h : Aside base directory d d') (h' : Aside base directory d' d'') :
    Aside base directory d d'' := by
  intro hrooted
  obtain ⟨hrooted, hsame, hbase⟩ := h hrooted
  obtain ⟨hrooted', hsame', hbase'⟩ := h' hrooted
  exact ⟨hrooted', hsame.trans hsame', hbase'.trans hbase⟩

theorem not_below_of_head {front : List String} (hfirst : names.head? ≠ some directory) (h : front <+: names) :
    ¬base ++ [directory] <+: base ++ front := by
  rw [List.prefix_append_right_inj]
  rintro ⟨rest, rfl⟩
  obtain ⟨back, rfl⟩ := h
  exact hfirst rfl

theorem aside_createParents (hplain : ∀ name ∈ names, Plain name) (hfirst : names.head? ≠ some directory) :
    Eff.Moves (Aside base directory) (createParents (α := α) (under base names)) := by
  intro d h
  refine ⟨h.createParents_run hplain, SameAt.of_changes (moves_createParents (fun dir hdir => ?_) d), read_createDirAll ..⟩
  obtain ⟨front, hfront, rfl⟩ := prefix_of_mem_passed_plain hplain hdir
  exact not_below_of_head hfirst hfront

theorem aside_createDirs (hplain : ∀ name ∈ names, Plain name) (hfirst : names.head? ≠ some directory)
    (hne : base ++ names ≠ []) : Eff.Moves (Aside base directory) (createDirs (α := α) (under base names)) := by
  intro d h
  refine ⟨h.createDirs_run hplain hne, SameAt.of_changes (moves_createDirs ⟨fun dir hdir => ?_, ?_⟩ d),
    read_createDirAll ..⟩
  · obtain ⟨front, hfront, rfl⟩ := prefix_of_mem_passed_plain hplain hdir
    exact not_below_of_head hfirst hfront
  · rw [path_under_plain hplain]
    exact not_below_of_head hfirst (List.prefix_refl names)

theorem aside_writeFile (hplain : ∀ name ∈ names, Plain name) (hfirst : names.head? ≠ some directory) (hne : names ≠ [])
    (a : α) : Eff.Moves (Aside base directory) (writeFile (under base names) a) := by
  intro d h
  refine ⟨h.writeFile_run hplain a, SameAt.of_changes (moves_writeFile ?_ d), ?_⟩
  · rw [path_under_plain hplain]
    exact not_below_of_head hfirst (List.prefix_refl names)
  · rcases writeFile_cases (under base names) a d with ⟨message, hrun⟩ | ⟨-, hrun⟩
    · rw [hrun]
    · rw [hrun, path_under_plain hplain, d.read_write_of_ne (by simpa using hne) a]

end Aside

end Tree

end Files

end Disk
