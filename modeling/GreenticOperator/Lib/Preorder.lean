import Mathlib.Algebra.Order.BigOperators.Group.List
import Mathlib.Algebra.Order.Ring.Nat
import Mathlib.Data.List.Lex
import Mathlib.Data.List.Range

/-!
# Preorder — the places of a tree in the order they are met

A tree is what follows from the children of a node, each of them smaller. A place is the way to a node, by
the number of the child at each step. The places of a tree are its nodes' in the order they are met, each
once (`pairwise_paths`, `mem_paths_iff`), and a function that visits a node, then its children and then what
comes after it visits the nodes at these places (`visit_eq`). A child may be marked as open; a visit that goes
into the open ones alone meets the places that are reached through open children, in the same order.
-/

namespace Preorder

universe u v

variable {α : Type u} {β : Type v}

structure Tree (α : Type u) where
  children : α → List (Bool × α)
  size : α → Nat
  size_lt : ∀ {a : α} {child : Bool × α}, child ∈ children a → size child.2 < size a

namespace Tree

variable (t : Tree α)

/-- The node at a place below a node. -/
def nodeAt : List Nat → α → Option α
  | [], a => some a
  | i :: rest, a => (t.children a)[i]?.bind fun child => nodeAt rest child.2

/-- Whether a visit meets a place, that goes into all children or into those alone that are open. -/
def meets (all : Bool) : List Nat → α → Bool
  | [], _ => true
  | i :: rest, a => ((t.children a)[i]?.map fun child => (all || child.1) && meets all rest child.2).getD false

/-- The places below a node in the order they are met, as far as the first `n` levels. -/
def pathsUpTo : Nat → α → List (List Nat)
  | 0, _ => []
  | n + 1, a => [] :: (t.children a).zipIdx.flatMap fun child => (pathsUpTo n child.1.2).map (child.2 :: ·)

def paths (a : α) : List (List Nat) := t.pathsUpTo (t.size a + 1) a

theorem pathsUpTo_of_lt {a : α} {m n : Nat} (hm : t.size a < m) (hn : t.size a < n) :
    t.pathsUpTo m a = t.pathsUpTo n a := by
  induction m generalizing a n with
  | zero => cases hm
  | succ m ih =>
    cases n with
    | zero => cases hn
    | succ n =>
      have hchildren : (t.children a).zipIdx.flatMap (fun child => (t.pathsUpTo m child.1.2).map (child.2 :: ·))
          = (t.children a).zipIdx.flatMap fun child => (t.pathsUpTo n child.1.2).map (child.2 :: ·) := by
        refine List.flatMap_congr fun child hchild => ?_
        have hlt := t.size_lt (List.fst_mem_of_mem_zipIdx hchild)
        rw [ih (n := n) (by omega) (by omega)]
      rw [pathsUpTo, pathsUpTo, hchildren]

theorem paths_eq (a : α) : t.paths a
    = [] :: (t.children a).zipIdx.flatMap fun child => (t.paths child.1.2).map (child.2 :: ·) := by
  have hchildren : (t.children a).zipIdx.flatMap (fun child => (t.pathsUpTo (t.size a) child.1.2).map (child.2 :: ·))
      = (t.children a).zipIdx.flatMap fun child => (t.paths child.1.2).map (child.2 :: ·) := by
    refine List.flatMap_congr fun child hchild => ?_
    have hlt := t.size_lt (List.fst_mem_of_mem_zipIdx hchild)
    rw [paths, t.pathsUpTo_of_lt hlt (Nat.lt_succ_self _)]
  rw [paths, pathsUpTo, hchildren]

/-- The places are where there are nodes. -/
theorem mem_paths_iff {path : List Nat} {a : α} : path ∈ t.paths a ↔ (t.nodeAt path a).isSome = true := by
  induction path generalizing a with
  | nil =>
    rw [paths_eq]
    exact iff_of_true List.mem_cons_self rfl
  | cons i rest ih =>
    rw [paths_eq, List.mem_cons, or_iff_right nofun, List.mem_flatMap, nodeAt]
    constructor
    · rintro ⟨⟨child, j⟩, hchild, hmem⟩
      obtain ⟨path, hpath, heq⟩ := List.mem_map.mp hmem
      obtain ⟨rfl, rfl⟩ := List.cons.inj heq
      rw [List.mem_zipIdx_iff_getElem?.mp hchild]
      exact ih.mp hpath
    · intro hsome
      cases hchild : (t.children a)[i]? with
      | none =>
        rw [hchild] at hsome
        cases hsome
      | some child =>
        rw [hchild] at hsome
        exact ⟨(child, i), List.mem_zipIdx_iff_getElem?.mpr hchild, List.mem_map_of_mem (ih.mpr hsome)⟩

/-- **Each place is met once, and before those that come after it.** -/
theorem pairwise_paths (a : α) : (t.paths a).Pairwise (List.Lex (· < ·)) := by
  induction h : t.size a using Nat.strong_induction_on generalizing a with
  | _ n ih =>
    subst h
    rw [paths_eq, List.pairwise_cons, List.pairwise_flatMap]
    refine ⟨?_, ?_, ?_⟩
    · intro path hpath
      obtain ⟨child, -, hmem⟩ := List.mem_flatMap.mp hpath
      obtain ⟨rest, -, rfl⟩ := List.mem_map.mp hmem
      exact List.Lex.nil
    · intro child hchild
      rw [List.pairwise_map]
      have hlt := t.size_lt (List.fst_mem_of_mem_zipIdx hchild)
      exact (ih _ hlt child.1.2 rfl).imp List.Lex.cons
    · have hnumbers : ((t.children a).zipIdx.map Prod.snd).Pairwise (· < ·) := by
        rw [List.zipIdx_map_snd]
        exact List.pairwise_lt_range'
      refine (List.pairwise_map.mp hnumbers).imp ?_
      intro child other hlt path hpath path' hpath'
      obtain ⟨rest, -, rfl⟩ := List.mem_map.mp hpath
      obtain ⟨rest', -, rfl⟩ := List.mem_map.mp hpath'
      exact List.Lex.rel hlt

theorem meets_true (path : List Nat) (a : α) : t.meets true path a = (t.nodeAt path a).isSome := by
  induction path generalizing a with
  | nil => rfl
  | cons i rest ih =>
    rw [meets, nodeAt]
    cases (t.children a)[i]? with
    | none => rfl
    | some child =>
      rw [Option.map_some, Option.getD_some, Bool.true_or, Bool.true_and, ih]
      rfl

/-! ## Visits -/

/-- The children that a visit goes into. -/
def kids (all : Bool) (a : α) : List α := ((t.children a).filter fun child => all || child.1).map Prod.snd

/-- What is found at a place. -/
def atPlace (f : α → List β) (path : List Nat) (a : α) : List β := ((t.nodeAt path a).map f).getD []

/-- What is found below a node, at the places that a visit meets. -/
def found (all : Bool) (f : α → List β) (a : α) : List β :=
  ((t.paths a).filter (t.meets all · a)).flatMap (t.atPlace f · a)

theorem found_eq (all : Bool) (f : α → List β) (a : α) :
    t.found all f a = f a ++ (t.kids all a).flatMap (t.found all f) := by
  have hkids : (((t.children a).zipIdx.flatMap fun child => (t.paths child.1.2).map (child.2 :: ·)).filter
        (t.meets all · a)).flatMap (t.atPlace f · a)
      = (t.children a).zipIdx.flatMap fun child => if all || child.1.1 then t.found all f child.1.2 else [] := by
    rw [List.filter_flatMap, List.flatMap_assoc]
    refine List.flatMap_congr fun child hchild => ?_
    have hat : (t.children a)[child.2]? = some child.1 := List.mem_zipIdx_iff_getElem?.mp hchild
    have hplace : ∀ rest, t.atPlace f (child.2 :: rest) a = t.atPlace f rest child.1.2 := by
      intro rest
      rw [atPlace, nodeAt, hat]
      rfl
    have hmeets : ∀ rest, t.meets all (child.2 :: rest) a = ((all || child.1.1) && t.meets all rest child.1.2) := by
      intro rest
      rw [meets, hat]
      rfl
    rw [List.filter_map, List.flatMap_map]
    cases hopen : all || child.1.1 with
    | true =>
      have hsame : ((t.meets all · a) ∘ (child.2 :: ·)) = (t.meets all · child.1.2) := by
        funext rest
        rw [Function.comp_apply, hmeets, hopen, Bool.true_and]
      rw [hsame, if_pos rfl]
      exact List.flatMap_congr fun rest _ => hplace rest
    | false =>
      have hnone : ((t.meets all · a) ∘ (child.2 :: ·)) = fun _ => false := by
        funext rest
        rw [Function.comp_apply, hmeets, hopen, Bool.false_and]
      rw [hnone, List.filter_false]
      rfl
  have hnumbers : (t.children a).zipIdx.flatMap (fun child => if all || child.1.1 then t.found all f child.1.2 else [])
      = (t.children a).flatMap fun child => if all || child.1 then t.found all f child.2 else [] := by
    conv_rhs => rw [← List.zipIdx_map_fst 0 (t.children a), List.flatMap_map]
  have hfilter : (t.kids all a).flatMap (t.found all f)
      = (t.children a).flatMap fun child => if all || child.1 then t.found all f child.2 else [] := by
    rw [kids, List.flatMap_map]
    induction t.children a with
    | nil => rfl
    | cons child rest ih =>
      rw [List.filter_cons, List.flatMap_cons]
      split
      next => rw [List.flatMap_cons, ih]
      next => rw [ih, List.nil_append]
  rw [hfilter, ← hnumbers, ← hkids, found, paths_eq, List.filter_cons_of_pos rfl, List.flatMap_cons]
  rfl

theorem size_lt_of_mem_kids {all : Bool} {a b : α} (h : b ∈ t.kids all a) : t.size b < t.size a := by
  obtain ⟨child, hchild, rfl⟩ := List.mem_map.mp h
  exact t.size_lt (List.mem_of_mem_filter hchild)

/-! ## Several trees -/

/-- The node at a place in one of several trees. -/
def nodeIn : List Nat → List α → Option α
  | [], _ => none
  | i :: rest, forest => forest[i]?.bind (t.nodeAt rest)

def meetsIn (all : Bool) : List Nat → List α → Bool
  | [], _ => false
  | i :: rest, forest => (forest[i]?.map (t.meets all rest)).getD false

def pathsIn (forest : List α) : List (List Nat) := forest.zipIdx.flatMap fun a => (t.paths a.1).map (a.2 :: ·)

theorem mem_pathsIn_iff {path : List Nat} {forest : List α} :
    path ∈ t.pathsIn forest ↔ (t.nodeIn path forest).isSome = true := by
  rw [pathsIn, List.mem_flatMap]
  constructor
  · rintro ⟨⟨a, i⟩, ha, hmem⟩
    obtain ⟨rest, hrest, rfl⟩ := List.mem_map.mp hmem
    rw [nodeIn, List.mem_zipIdx_iff_getElem?.mp ha]
    exact (t.mem_paths_iff).mp hrest
  · intro hsome
    cases path with
    | nil => cases hsome
    | cons i rest =>
      rw [nodeIn] at hsome
      cases ha : forest[i]? with
      | none =>
        rw [ha] at hsome
        cases hsome
      | some a =>
        rw [ha] at hsome
        exact ⟨(a, i), List.mem_zipIdx_iff_getElem?.mpr ha, List.mem_map_of_mem ((t.mem_paths_iff).mpr hsome)⟩

theorem pairwise_pathsIn (forest : List α) : (t.pathsIn forest).Pairwise (List.Lex (· < ·)) := by
  rw [pathsIn, List.pairwise_flatMap]
  constructor
  · intro a _
    rw [List.pairwise_map]
    exact (t.pairwise_paths a.1).imp List.Lex.cons
  · have hnumbers : (forest.zipIdx.map Prod.snd).Pairwise (· < ·) := by
      rw [List.zipIdx_map_snd]
      exact List.pairwise_lt_range'
    refine (List.pairwise_map.mp hnumbers).imp ?_
    intro a b hlt path hpath path' hpath'
    obtain ⟨rest, -, rfl⟩ := List.mem_map.mp hpath
    obtain ⟨rest', -, rfl⟩ := List.mem_map.mp hpath'
    exact List.Lex.rel hlt

/-- **A visit finds what is at the places that it meets, in their order.** -/
theorem visit_eq {all : Bool} {f : α → List β} {visit : List α → List β} (hnil : visit [] = [])
    (hcons : ∀ a rest, visit (a :: rest) = f a ++ visit (t.kids all a) ++ visit rest) (forest : List α) :
    visit forest = ((t.pathsIn forest).filter (t.meetsIn all · forest)).flatMap fun path =>
      ((t.nodeIn path forest).map f).getD [] := by
  have hfound : ∀ n, ∀ forest : List α, (∀ a ∈ forest, t.size a < n) →
      visit forest = forest.flatMap (t.found all f) := by
    intro n
    induction n with
    | zero =>
      intro forest hsize
      cases forest with
      | nil => exact hnil
      | cons a rest => exact absurd (hsize a List.mem_cons_self) (Nat.not_lt_zero _)
    | succ n ih =>
      intro forest hsize
      induction forest with
      | nil => exact hnil
      | cons a rest ihrest =>
        have hkids : ∀ b ∈ t.kids all a, t.size b < n := by
          intro b hb
          have hlt := t.size_lt_of_mem_kids hb
          have ha := hsize a List.mem_cons_self
          omega
        rw [hcons, List.flatMap_cons, t.found_eq, ih _ hkids, ihrest fun b hb => hsize b (List.mem_cons_of_mem a hb)]
  have hall : visit forest = forest.flatMap (t.found all f) :=
    hfound ((forest.map t.size).sum + 1) forest fun a ha =>
      Nat.lt_succ_of_le (List.single_le_sum (fun _ _ => Nat.zero_le _) _ (List.mem_map_of_mem ha))
  have hnumbers : forest.flatMap (t.found all f) = forest.zipIdx.flatMap fun a => t.found all f a.1 := by
    conv_lhs => rw [← List.zipIdx_map_fst 0 forest, List.flatMap_map]
  rw [hall, hnumbers, pathsIn, List.filter_flatMap, List.flatMap_assoc]
  refine List.flatMap_congr fun a ha => ?_
  have hat : forest[a.2]? = some a.1 := List.mem_zipIdx_iff_getElem?.mp ha
  have hmeets : ((t.meetsIn all · forest) ∘ (a.2 :: ·)) = (t.meets all · a.1) := by
    funext rest
    rw [Function.comp_apply, meetsIn, hat]
    rfl
  rw [List.filter_map, List.flatMap_map, hmeets, found]
  refine List.flatMap_congr fun rest _ => ?_
  rw [nodeIn, hat]
  rfl

theorem meetsIn_true (path : List Nat) (forest : List α) : t.meetsIn true path forest = (t.nodeIn path forest).isSome := by
  cases path with
  | nil => rfl
  | cons i rest =>
    rw [meetsIn, nodeIn]
    cases forest[i]? with
    | none => rfl
    | some a => exact t.meets_true rest a

/-- A visit of all children that finds at most one thing at a node. -/
theorem visit_all_eq {f : α → Option β} {visit : List α → List β} (hnil : visit [] = [])
    (hcons : ∀ a rest, visit (a :: rest) = (f a).toList ++ visit (t.kids true a) ++ visit rest) (forest : List α) :
    visit forest = (t.pathsIn forest).filterMap fun path => (t.nodeIn path forest).bind f := by
  have hall : (t.pathsIn forest).filter (t.meetsIn true · forest) = t.pathsIn forest := by
    refine List.filter_eq_self.mpr fun path hpath => ?_
    rw [meetsIn_true]
    exact (t.mem_pathsIn_iff).mp hpath
  rw [t.visit_eq hnil hcons, hall, List.filterMap_eq_flatMap_toList]
  refine List.flatMap_congr fun path _ => ?_
  cases t.nodeIn path forest with
  | none => rfl
  | some a => rfl

/-- A visit of the open children that finds at most one thing at a node. -/
theorem visit_open_eq {f : α → Option β} {visit : List α → List β} (hnil : visit [] = [])
    (hcons : ∀ a rest, visit (a :: rest) = (f a).toList ++ visit (t.kids false a) ++ visit rest) (forest : List α) :
    visit forest = (t.pathsIn forest).filterMap fun path =>
      if t.meetsIn false path forest then (t.nodeIn path forest).bind f else none := by
  rw [t.visit_eq hnil hcons, ← List.filterMap_filter, List.filterMap_eq_flatMap_toList]
  refine List.flatMap_congr fun path _ => ?_
  cases t.nodeIn path forest with
  | none => rfl
  | some a => rfl

end Tree

/-! ## Finding less -/

variable {γ : Type v} {less more : γ → Option β} {places : List γ}

/-- What finds the same or nothing at each place finds a part of the rest, in order. -/
theorem sublist_of_finds_less (h : ∀ place ∈ places, ∀ b, less place = some b → more place = some b) :
    (places.filterMap less).Sublist (places.filterMap more) := by
  induction places with
  | nil => exact List.Sublist.refl _
  | cons place places ih =>
    have hrest := ih fun other hother => h other (List.mem_cons_of_mem place hother)
    rw [List.filterMap_cons, List.filterMap_cons]
    cases hless : less place with
    | none =>
      cases more place with
      | none => exact hrest
      | some b => exact hrest.cons b
    | some b =>
      rw [h place List.mem_cons_self b hless]
      exact hrest.cons_cons b

/-- It finds all exactly where it finds something at each place where there is something. -/
theorem filterMap_eq_iff_of_finds_less (h : ∀ place ∈ places, ∀ b, less place = some b → more place = some b) :
    places.filterMap less = places.filterMap more
      ↔ ∀ place ∈ places, (more place).isSome = true → (less place).isSome = true := by
  induction places with
  | nil => exact iff_of_true rfl nofun
  | cons place places ih =>
    have htail : ∀ other ∈ places, ∀ b, less other = some b → more other = some b :=
      fun other hother => h other (List.mem_cons_of_mem place hother)
    rw [List.filterMap_cons, List.filterMap_cons, List.forall_mem_cons, ← ih htail]
    cases hless : less place with
    | none =>
      cases more place with
      | none => exact (and_iff_right nofun).symm
      | some b =>
        refine iff_of_false ?_ fun hboth => nomatch hboth.1 rfl
        intro heq
        have hlength := (sublist_of_finds_less htail).length_le
        dsimp only at heq
        rw [heq, List.length_cons] at hlength
        omega
    | some b =>
      rw [h place List.mem_cons_self b hless]
      dsimp only
      rw [List.cons.injEq]
      exact and_congr_left fun _ => iff_of_true rfl fun _ => rfl

end Preorder
