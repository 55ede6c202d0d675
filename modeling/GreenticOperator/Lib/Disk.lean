import GreenticOperator.Lib.Text
import Mathlib.Data.List.Induction

/-!
# Disk — files with contents of one type, below one root

A path is the list of names from the root. A disk holds its files and the directories made
so far; a directory's place cannot hold a file, and a file's place cannot be a directory.

A path text is read the way names are looked up: empty names and `.` stay where they are,
`..` goes up. It leads to one path (`resolve`) by way of some directories (`passed`), which
have to be there for the text to lead anywhere.

A write changes what its own path reads as (`read_write_self`) and nothing else
(`read_write_of_ne`); the same holds for removing.
-/

namespace Disk

universe u v

abbrev Path := List String

/-- Where looking up one more name leads. -/
def enter (path : Path) (name : String) : Path :=
  if name = "" ∨ name = "." then path else if name = ".." then path.dropLast else path ++ [name]

/-- Where a path text leads. -/
def resolve (text : String) : Path := (Text.split '/' text).foldl enter []

/-- The directories a path text leads through, below the root. -/
def passed (text : String) : List Path :=
  ((Text.split '/' text).scanl enter []).dropLast.filter (· ≠ [])

/-- What a path text denotes. -/
structure Place where
  path : Path
  passed : List Path

def place (text : String) : Place := ⟨resolve text, passed text⟩

@[simp] theorem path_place (text : String) : (place text).path = resolve text := rfl

@[simp] theorem passed_place (text : String) : (place text).passed = passed text := rfl

/-- One path text put after another, which an absolute one replaces. -/
def join (base text : String) : String :=
  if Text.startsWithChar '/' text then text
  else if base = "" ∨ Text.endsWithChar '/' base then base ++ text
  else base ++ "/" ++ text

/-- The names of a text without those at its end that stay where they are; the first one counts. -/
def trimBack : List String → List String
  | [] => []
  | first :: rest => first :: rest.rdropWhile fun name => name = "" ∨ name = "."

/-- `Path::parent`. -/
def parent (text : String) : Option String :=
  match trimBack (Text.split '/' text) with
  | [] => none
  | [first] => if first = "" then none else some ""
  | first :: rest =>
    let up := trimBack (first :: rest.dropLast)
    some (if up = [""] then "/" else Text.joinWith '/' up)

/-- A file name cut at its last dot, where that is not its first character. -/
def splitExtension (name : String) : String × Option String :=
  let reversed := name.toList.reverse
  match reversed.dropWhile (· != '.') with
  | [] | [_] => (name, none)
  | _ :: stem => (String.ofList stem.reverse,
      some (String.ofList (reversed.takeWhile (· != '.')).reverse))

def extension (path : Path) : Option String :=
  path.getLast?.bind fun name => (splitExtension name).2

/-- The path with the extension of its file name replaced. -/
def withExtension (ext : String) (path : Path) : Path :=
  match path.getLast? with
  | none => path
  | some name => path.dropLast ++ [(splitExtension name).1 ++ "." ++ ext]

/-- A name that is not empty comes apart from an extension put after it. -/
theorem splitExtension_append {stem ext : String} (hstem : stem ≠ "") (hext : '.' ∉ ext.toList) :
    splitExtension (stem ++ "." ++ ext) = (stem, some ext) := by
  have hreverse : (stem ++ "." ++ ext).toList.reverse = ext.toList.reverse ++ '.' :: stem.toList.reverse := by
    rw [String.toList_append, String.toList_append, List.reverse_append, List.reverse_append]
    rfl
  have hplain : ∀ c ∈ ext.toList.reverse, (c != '.') = true := by
    intro c hc
    rw [bne_iff_ne]
    rintro rfl
    exact hext (List.mem_reverse.mp hc)
  unfold splitExtension
  dsimp only
  rw [hreverse, List.dropWhile_append_of_pos hplain, List.takeWhile_append_of_pos hplain,
    List.dropWhile_cons_of_neg (by simp), List.takeWhile_cons_of_neg (by simp)]
  cases hname : stem.toList.reverse with
  | nil => exact absurd (by simpa using hname) hstem
  | cons c rest =>
    dsimp only
    rw [← hname, List.append_nil, List.reverse_reverse, List.reverse_reverse, String.ofList_toList,
      String.ofList_toList]

/-- How the write of a file ends: it is done, or it fails before or after the file is cut. -/
inductive WriteOutcome
  | done
  | refused (message : String)
  | torn (message : String)
deriving DecidableEq, Repr

structure Files (α : Type u) where
  files : List (Path × α)
  dirs : List Path

namespace Files

variable {α : Type u}

def empty : Files α := ⟨[], []⟩

def read (d : Files α) (p : Path) : Option α := d.files.lookup p

/-- Whether the directories a place is looked up through are there. -/
def reaches (d : Files α) (place : Place) : Bool := place.passed.all d.dirs.contains

def mkdirs (d : Files α) (dirs : List Path) : Files α := { d with dirs := d.dirs ++ dirs }

/-- The directories made one after another, up to one that has a file in its place. -/
def createDirAll (d : Files α) : List Path → Files α × Except String Unit
  | [] => (d, .ok ())
  | dir :: dirs =>
    if (d.read dir).isSome then (d, .error "not a directory") else (d.mkdirs [dir]).createDirAll dirs

def erase (d : Files α) (p : Path) : Files α :=
  { d with files := d.files.filter fun entry => entry.1 != p }

def write (d : Files α) (p : Path) (a : α) : Files α :=
  { d with files := (p, a) :: (d.erase p).files }

theorem lookup_filter_ne {p q : Path} (h : p ≠ q) (files : List (Path × α)) :
    (files.filter fun entry => entry.1 != q).lookup p = files.lookup p := by
  induction files with
  | nil => rfl
  | cons entry files ih =>
    obtain ⟨r, a⟩ := entry
    by_cases hr : r = q
    · subst hr
      have hp : (p == r) = false := beq_eq_false_iff_ne.mpr h
      simp only [List.filter_cons, bne_self_eq_false, Bool.false_eq_true, ↓reduceIte, ih,
        List.lookup_cons, hp]
    · have hr' : (r != q) = true := bne_iff_ne.mpr hr
      simp only [List.filter_cons, hr', ↓reduceIte, List.lookup_cons, ih]

@[simp] theorem read_write_self (d : Files α) (p : Path) (a : α) : (d.write p a).read p = some a := by
  simp only [read, write, List.lookup_cons_self]

theorem read_write_of_ne (d : Files α) {p q : Path} (h : q ≠ p) (a : α) :
    (d.write p a).read q = d.read q := by
  have hq : (q == p) = false := beq_eq_false_iff_ne.mpr h
  simp only [read, write, erase, List.lookup_cons, hq, lookup_filter_ne h]

theorem read_erase_self (d : Files α) (p : Path) : (d.erase p).read p = none := by
  unfold read erase
  refine List.lookup_eq_none_iff.mpr fun entry hentry => ?_
  rw [bne_comm]
  exact (List.mem_filter.mp hentry).2

theorem read_erase_of_ne (d : Files α) {p q : Path} (h : q ≠ p) :
    (d.erase p).read q = d.read q :=
  lookup_filter_ne h d.files

/-! ### What files are read as -/

/-- The same files, each as what it is read as. -/
def map {β : Type v} (f : α → β) (d : Files α) : Files β := ⟨d.files.map fun entry => (entry.1, f entry.2), d.dirs⟩

theorem paths_map {β : Type v} (f : α → β) (d : Files α) : (d.map f).files.map Prod.fst = d.files.map Prod.fst := by
  unfold map
  rw [List.map_map]
  rfl

theorem read_map {β : Type v} (f : α → β) (d : Files α) (p : Path) : (d.map f).read p = (d.read p).map f := by
  unfold map read
  induction d.files with
  | nil => rfl
  | cons entry files ih =>
    rw [List.map_cons, List.lookup_cons, List.lookup_cons, ih]
    split <;> rfl

/-! ### Making directories -/

@[simp] theorem read_mkdirs (d : Files α) (dirs : List Path) (p : Path) : (d.mkdirs dirs).read p = d.read p := rfl

theorem read_createDirAll (d : Files α) (dirs : List Path) (p : Path) :
    (d.createDirAll dirs).1.read p = d.read p := by
  induction dirs generalizing d with
  | nil => rfl
  | cons dir dirs ih =>
    unfold createDirAll
    split
    · rfl
    · rw [ih, read_mkdirs]

theorem subset_dirs_createDirAll (d : Files α) (dirs : List Path) : d.dirs ⊆ (d.createDirAll dirs).1.dirs := by
  induction dirs generalizing d with
  | nil => exact List.Subset.refl _
  | cons dir dirs ih =>
    unfold createDirAll
    split
    · exact List.Subset.refl _
    · exact List.Subset.trans (List.subset_append_left d.dirs [dir]) (ih (d.mkdirs [dir]))

/-- No directory is made in the place of a file. -/
theorem mem_dirs_createDirAll {d : Files α} {dirs : List Path} {p : Path}
    (h : p ∈ (d.createDirAll dirs).1.dirs) : p ∈ d.dirs ∨ (p ∈ dirs ∧ d.read p = none) := by
  induction dirs generalizing d with
  | nil => exact .inl h
  | cons dir dirs ih =>
    unfold createDirAll at h
    split at h
    next => exact .inl h
    next hfile =>
      rcases ih h with h | ⟨h, hread⟩
      · rcases List.mem_append.mp h with h | h
        · exact .inl h
        · rw [List.mem_singleton.mp h]
          exact .inr ⟨List.mem_cons_self, Option.not_isSome_iff_eq_none.mp hfile⟩
      · exact .inr ⟨List.mem_cons_of_mem _ h, hread⟩

/-- Directories can be made exactly where no file is in the place of one. -/
theorem createDirAll_ok_iff {d : Files α} {dirs : List Path} :
    (d.createDirAll dirs).2 = .ok () ↔ ∀ dir ∈ dirs, d.read dir = none := by
  induction dirs generalizing d with
  | nil => exact iff_of_true rfl nofun
  | cons dir dirs ih =>
    unfold createDirAll
    split
    next hfile =>
      refine iff_of_false nofun fun h => ?_
      rw [h dir List.mem_cons_self] at hfile
      cases hfile
    next hfile =>
      rw [ih, List.forall_mem_cons, Option.not_isSome_iff_eq_none.mp hfile]
      simp

theorem dirs_createDirAll {d : Files α} {dirs : List Path} (h : ∀ dir ∈ dirs, d.read dir = none) :
    (d.createDirAll dirs).1.dirs = d.dirs ++ dirs := by
  induction dirs generalizing d with
  | nil => exact (List.append_nil _).symm
  | cons dir dirs ih =>
    rw [createDirAll, h dir List.mem_cons_self, Option.isSome_none, if_neg Bool.false_ne_true]
    have hdirs := @ih (d.mkdirs [dir]) fun p hp => h p (List.mem_cons_of_mem dir hp)
    rw [hdirs]
    exact List.append_assoc d.dirs [dir] dirs

end Files

/-! ## Path texts of plain names -/

/-- A name that is looked up as it is. -/
structure Plain (name : String) : Prop where
  not_empty : name ≠ ""
  not_dot : name ≠ "."
  not_dots : name ≠ ".."
  no_slash : '/' ∉ name.toList

theorem plain_iff (name : String) :
    Plain name ↔ name ≠ "" ∧ name ≠ "." ∧ name ≠ ".." ∧ '/' ∉ name.toList :=
  ⟨fun h => ⟨h.not_empty, h.not_dot, h.not_dots, h.no_slash⟩, fun ⟨h, hdot, hdots, hslash⟩ => ⟨h, hdot, hdots, hslash⟩⟩

instance (name : String) : Decidable (Plain name) := decidable_of_iff' _ (plain_iff name)

theorem enter_plain (path : Path) {name : String} (h : Plain name) : enter path name = path ++ [name] := by
  unfold enter
  rw [if_neg (not_or.mpr ⟨h.not_empty, h.not_dot⟩), if_neg h.not_dots]

theorem split_of_plain {name : String} (h : Plain name) : Text.split '/' name = [name] := by
  rw [Text.split, List.splitOn_eq_singleton h.no_slash, List.map_singleton, String.ofList_toList]

theorem relative_of_plain {name : String} (h : Plain name) : Text.startsWithChar '/' name = false := by
  unfold Text.startsWithChar
  rw [beq_eq_false_iff_ne]
  exact fun hhead => h.no_slash (List.mem_of_head? hhead)

/-- The names of a relative text put after a base: those that lead where the base does, and its own. -/
theorem split_join_anywhere (base : String) {text : String} (h : Text.startsWithChar '/' text = false) :
    ∃ names, Text.split '/' (join base text) = names ++ Text.split '/' text
      ∧ (∀ start, names.foldl enter start = (Text.split '/' base).foldl enter start)
      ∧ ∀ n ∈ names, n ∈ Text.split '/' base := by
  unfold join
  rw [if_neg (Bool.eq_false_iff.mp h)]
  by_cases hempty : base = ""
  · subst hempty
    refine ⟨[], ?_, fun _ => rfl, nofun⟩
    rw [if_pos (Or.inl rfl), String.empty_append]
    rfl
  · by_cases hslash : Text.endsWithChar '/' base = true
    · -- The base ends with a separator, after which it has one more, empty name.
      obtain ⟨front, hfront⟩ : ∃ front, base.toList = front ++ ['/'] := by
        unfold Text.endsWithChar at hslash
        exact (List.getLast?_eq_some_iff).mp (beq_iff_eq.mp hslash)
      have hbase : Text.split '/' base = (front.splitOn '/').map String.ofList ++ [""] := by
        rw [Text.split, hfront, List.splitOn_append_cons_self, List.map_append]
        rfl
      refine ⟨(front.splitOn '/').map String.ofList, ?_, fun start => ?_, ?_⟩
      · rw [if_pos (Or.inr hslash), Text.split, String.toList_append, hfront, List.append_assoc,
          List.singleton_append, List.splitOn_append_cons_self, List.map_append]
        rfl
      · rw [hbase, List.foldl_append, List.foldl_cons, List.foldl_nil, enter, if_pos (Or.inl rfl)]
      · rw [hbase]
        exact fun n hn => List.mem_append_left _ hn
    · refine ⟨Text.split '/' base, ?_, fun _ => rfl, fun _ hn => hn⟩
      rw [if_neg (not_or.mpr ⟨hempty, hslash⟩), Text.split, String.toList_append, String.toList_append,
        List.append_assoc, show "/".toList = ['/'] from rfl, List.singleton_append,
        List.splitOn_append_cons_self, List.map_append]
      rfl

theorem split_join_of_relative (base : String) {text : String} (h : Text.startsWithChar '/' text = false) :
    ∃ names, Text.split '/' (join base text) = names ++ Text.split '/' text
      ∧ names.foldl enter [] = resolve base ∧ ∀ n ∈ names, n ∈ Text.split '/' base := by
  obtain ⟨names, hsplit, hnames, hsub⟩ := split_join_anywhere base h
  exact ⟨names, hsplit, hnames [], hsub⟩

/-- A relative text leaves a path that is not empty absolute or relative. -/
theorem startsWithChar_join (base : String) {text : String} (h : Text.startsWithChar '/' text = false) :
    Text.startsWithChar '/' (join base text) = Text.startsWithChar '/' base := by
  unfold join
  rw [if_neg (Bool.eq_false_iff.mp h)]
  by_cases hempty : base = ""
  · rw [hempty, if_pos (Or.inl rfl), String.empty_append, h]
    rfl
  · have hhead : ∀ back : List Char, (base.toList ++ back).head? = base.toList.head? := fun back =>
      List.head?_append_of_ne_nil _ (by simpa using hempty)
    unfold Text.startsWithChar
    split
    · rw [String.toList_append, hhead]
    · rw [String.toList_append, String.toList_append, List.append_assoc, hhead]

theorem split_join (base : String) {name : String} (h : Plain name) :
    ∃ names, Text.split '/' (join base name) = names ++ [name] ∧ names.foldl enter [] = resolve base
      ∧ ∀ n ∈ names, n ∈ Text.split '/' base := by
  have hjoin := split_join_of_relative base (relative_of_plain h)
  rwa [split_of_plain h] at hjoin

/-- The names of a plain name put after another. -/
theorem split_join_plain {base name : String} (hbase : Plain base) (h : Plain name) :
    Text.split '/' (join base name) = [base, name] := by
  have hends : ¬(base = "" ∨ Text.endsWithChar '/' base = true) := by
    rintro (hempty | hslash)
    · exact hbase.not_empty hempty
    · unfold Text.endsWithChar at hslash
      exact hbase.no_slash (List.mem_of_getLast? (beq_iff_eq.mp hslash))
  have hslash : ("/" : String).toList = ['/'] := rfl
  rw [join, if_neg (Bool.eq_false_iff.mp (relative_of_plain h)), if_neg hends, Text.split, String.toList_append,
    String.toList_append, hslash, List.append_assoc, List.singleton_append, List.splitOn_append_cons_self, List.map_append]
  change Text.split '/' base ++ Text.split '/' name = _
  rw [split_of_plain hbase, split_of_plain h]
  rfl

theorem resolve_join_of_relative (base : String) {text : String} (h : Text.startsWithChar '/' text = false) :
    resolve (join base text) = (Text.split '/' text).foldl enter (resolve base) := by
  obtain ⟨names, hsplit, hnames, -⟩ := split_join_of_relative base h
  rw [resolve, hsplit, List.foldl_append, hnames]

theorem resolve_join (base : String) {name : String} (h : Plain name) :
    resolve (join base name) = resolve base ++ [name] := by
  rw [resolve_join_of_relative base (relative_of_plain h), split_of_plain h, List.foldl_cons, List.foldl_nil]
  exact enter_plain _ h

/-- The names of a chain of directories below a base. -/
theorem resolve_joins (base : String) {names : List String} (h : ∀ name ∈ names, Plain name) :
    resolve (names.foldl join base) = resolve base ++ names := by
  induction names generalizing base with
  | nil => exact (List.append_nil _).symm
  | cons name names ih =>
    rw [List.foldl_cons, ih _ fun n hn => h n (List.mem_cons_of_mem name hn),
      resolve_join base (h name List.mem_cons_self), List.append_assoc, List.singleton_append]

/-- A path text that never goes up. -/
def Downward (text : String) : Prop := ∀ name ∈ Text.split '/' text, name ≠ ".."

theorem downward_join {base name : String} (hbase : Downward base) (h : Plain name) :
    Downward (join base name) := by
  obtain ⟨names, hsplit, -, hsub⟩ := split_join base h
  unfold Downward
  rw [hsplit]
  intro n hn
  rcases List.mem_append.mp hn with hn | hn
  · exact hbase n (hsub n hn)
  · rw [List.mem_singleton.mp hn]
    exact h.not_dots

theorem downward_joins {base : String} {names : List String} (hbase : Downward base)
    (h : ∀ name ∈ names, Plain name) : Downward (names.foldl join base) := by
  induction names generalizing base with
  | nil => exact hbase
  | cons name names ih =>
    exact ih (downward_join hbase (h name List.mem_cons_self)) fun n hn => h n (List.mem_cons_of_mem name hn)

/-- The names at the end of a text that stay where they are do not matter. -/
theorem foldl_enter_trimBack (path : Path) (names : List String) :
    (trimBack names).foldl enter path = names.foldl enter path := by
  have hstay : ∀ (path : Path) (rest : List String),
      (rest.rdropWhile fun name => name = "" ∨ name = ".").foldl enter path = rest.foldl enter path := by
    intro path rest
    induction rest using List.reverseRecOn with
    | nil => rfl
    | append_singleton rest name ih =>
      rw [List.rdropWhile_concat]
      split
      next h =>
        rw [ih, List.foldl_append, List.foldl_cons, List.foldl_nil, enter, if_pos (of_decide_eq_true h)]
      next => rfl
  cases names with
  | nil => rfl
  | cons first rest => exact hstay _ rest

theorem trimBack_concat (names : List String) {name : String} (h : Plain name) :
    trimBack (names ++ [name]) = names ++ [name] := by
  cases names with
  | nil => rfl
  | cons first rest =>
    have hkept : ¬(decide (name = "" ∨ name = ".")) = true := by simp [h.not_empty, h.not_dot]
    change first :: (rest ++ [name]).rdropWhile _ = _
    rw [List.rdropWhile_concat, if_neg hkept]
    rfl

theorem mem_of_mem_trimBack {names : List String} {name : String} (h : name ∈ trimBack names) : name ∈ names := by
  cases names with
  | nil => exact h
  | cons first rest =>
    rcases List.mem_cons.mp h with rfl | h
    · exact List.mem_cons_self
    · exact List.mem_cons_of_mem first ((List.rdropWhile_prefix _ rest).subset h)

theorem no_slash_of_mem_split {text name : String} (h : name ∈ Text.split '/' text) : '/' ∉ name.toList := by
  obtain ⟨piece, hpiece, rfl⟩ := List.mem_map.mp h
  rw [String.toList_ofList]
  exact Text.not_mem_of_mem_splitOn hpiece

/-- The parent of a plain name put after a base leads where the base does. -/
theorem exists_parent_join (base : String) {name : String} (h : Plain name) :
    ∃ up, parent (join base name) = some up ∧ resolve up = resolve base := by
  obtain ⟨names, hsplit, hnames, hsub⟩ := split_join base h
  rw [parent, hsplit, trimBack_concat names h]
  cases names with
  | nil => exact ⟨"", if_neg h.not_empty, hnames⟩
  | cons first rest =>
    have hlast : (rest ++ [name]).dropLast = rest := List.dropLast_concat
    have hfold := (foldl_enter_trimBack [] (first :: rest)).trans hnames
    cases hrest : rest ++ [name] with
    | nil => exact absurd hrest (List.append_ne_nil_of_right_ne_nil rest (List.cons_ne_nil name []))
    | cons second others =>
      rw [List.cons_append, hrest]
      dsimp only
      rw [← hrest, hlast]
      refine ⟨_, rfl, ?_⟩
      split
      next hroot =>
        rw [hroot] at hfold
        exact hfold
      next =>
        have hne : trimBack (first :: rest) ≠ [] := List.cons_ne_nil _ _
        rw [resolve, Text.split_joinWith hne, hfold]
        exact fun n hn => no_slash_of_mem_split (hsub n (mem_of_mem_trimBack hn))

/-- Names that never go up are put after the path, without those that stay where they are. -/
theorem foldl_enter_of_downward (path : Path) {names : List String} (h : ∀ name ∈ names, name ≠ "..") :
    names.foldl enter path = path ++ names.filter fun name => name ≠ "" ∧ name ≠ "." := by
  induction names generalizing path with
  | nil => exact (List.append_nil path).symm
  | cons name names ih =>
    rw [List.foldl_cons, ih _ fun n hn => h n (List.mem_cons_of_mem name hn), enter,
      if_neg (h name List.mem_cons_self)]
    by_cases hstay : name = "" ∨ name = "."
    · rw [if_pos hstay, List.filter_cons_of_neg (by simpa [not_and_or, ← not_or] using hstay)]
    · obtain ⟨hempty, hdot⟩ := not_or.mp hstay
      rw [if_neg hstay, List.filter_cons_of_pos (by simp [hempty, hdot]), List.append_assoc,
        List.singleton_append]

/-- A relative text that never goes up leads to places below its base. -/
theorem exists_resolve_join (base : String) {text : String} (hrelative : Text.startsWithChar '/' text = false)
    (h : Downward text) : ∃ rest, resolve (join base text) = resolve base ++ rest := by
  rw [resolve_join_of_relative base hrelative, foldl_enter_of_downward _ h]
  exact ⟨_, rfl⟩

theorem length_le_enter (path : Path) {name : String} (h : name ≠ "..") :
    path.length ≤ (enter path name).length := by
  unfold enter
  rw [if_neg h]
  split
  · exact Nat.le_refl _
  · rw [List.length_append]
    exact Nat.le_add_right _ _

theorem length_le_foldl (path : Path) {names : List String} (h : ∀ name ∈ names, name ≠ "..") :
    path.length ≤ (names.foldl enter path).length := by
  induction names generalizing path with
  | nil => exact Nat.le_refl _
  | cons name names ih =>
    exact Nat.le_trans (length_le_enter path (h name List.mem_cons_self))
      (ih _ fun n hn => h n (List.mem_cons_of_mem name hn))

theorem length_le_of_mem_scanl {path dir : Path} {names : List String} (h : ∀ name ∈ names, name ≠ "..")
    (hdir : dir ∈ names.scanl enter path) : dir.length ≤ (names.foldl enter path).length := by
  induction names generalizing path with
  | nil => rw [List.mem_singleton.mp hdir, List.foldl_nil]
  | cons name names ih =>
    rw [List.scanl_cons] at hdir
    rcases List.mem_cons.mp hdir with rfl | hdir
    · exact length_le_foldl dir h
    · exact ih (fun n hn => h n (List.mem_cons_of_mem name hn)) hdir

/-- What is passed on the way to a plain name is not longer than its base. -/
theorem length_le_of_mem_passed {base name : String} (hbase : Downward base) (h : Plain name) {dir : Path}
    (hdir : dir ∈ passed (join base name)) : dir.length ≤ (resolve base).length := by
  obtain ⟨names, hsplit, hnames, hsub⟩ := split_join base h
  unfold passed at hdir
  rw [hsplit, List.scanl_append, List.scanl_singleton, List.tail_cons, List.dropLast_concat] at hdir
  rw [← hnames]
  exact length_le_of_mem_scanl (fun n hn => hbase n (hsub n hn)) (List.mem_filter.mp hdir).1

/-- A plain name put after a base is not passed on the way to it. -/
theorem not_mem_passed_join {base name : String} (hbase : Downward base) (h : Plain name) :
    resolve (join base name) ∉ passed (join base name) := by
  intro hmem
  have hlength := length_le_of_mem_passed hbase h hmem
  rw [resolve_join base h, List.length_append, List.length_singleton] at hlength
  omega

end Disk
