import Mathlib.Data.List.Sort

/-!
# StableSort — insertion sort and the elements left out

Insertion sort keeps the order of elements that the relation ties, so what is left of a list
of such elements is not reordered (`filter_insertionSort_of_tie`). Under a total order, leaving
elements out before it or after it is the same (`filter_insertionSort`). The first element of
a sorted list with a property precedes all others that have it (`rel_of_find?_insertionSort`).
Where no two elements are tied, a permutation sorts to the same list (`insertionSort_eq_of_perm`).
-/

namespace StableSort

universe u v

variable {α : Type u} {r : α → α → Prop} [DecidableRel r]

/-! ## Elements the relation ties -/

theorem filter_orderedInsert_of_tie {p : α → Bool} (a : α) (l : List α)
    (htie : p a = true → ∀ b ∈ l, p b = true → r a b) :
    (l.orderedInsert r a).filter p = (a :: l).filter p := by
  induction l with
  | nil => rfl
  | cons b l ih =>
    rw [List.orderedInsert_cons]
    split
    next => rfl
    next hab =>
      have ih := ih fun ha c hc => htie ha c (List.mem_cons_of_mem b hc)
      cases ha : p a with
      | false =>
        simp only [List.filter_cons, ih, ha, Bool.false_eq_true, ↓reduceIte]
      | true =>
        have hb : p b = false := by
          rw [← Bool.not_eq_true]
          exact fun hb => hab (htie ha b List.mem_cons_self hb)
        simp only [List.filter_cons, ih, ha, hb, Bool.false_eq_true, ↓reduceIte]

/-- Insertion sort keeps the order of elements the relation ties. -/
theorem filter_insertionSort_of_tie {p : α → Bool} (l : List α)
    (htie : ∀ a b, p a = true → p b = true → r a b) :
    (l.insertionSort r).filter p = l.filter p := by
  induction l with
  | nil => rfl
  | cons a l ih =>
    rw [List.insertionSort_cons, filter_orderedInsert_of_tie a _ fun ha b _ hb => htie a b ha hb,
      List.filter_cons, List.filter_cons, ih]

/-! ## Elements left out -/

/-- An element that precedes a whole list is put at its head. -/
theorem orderedInsert_of_forall {a : α} {l : List α} (h : ∀ b ∈ l, r a b) :
    l.orderedInsert r a = a :: l := by
  cases l with
  | nil => rfl
  | cons b l => rw [List.orderedInsert_cons, if_pos (h b List.mem_cons_self)]

variable [IsTrans α r]

/-- Leaving elements out of a sorted list commutes with inserting one. -/
theorem filter_orderedInsert (p : α → Bool) (a : α) {l : List α} (hl : l.Pairwise r) :
    (l.orderedInsert r a).filter p
      = if p a then (l.filter p).orderedInsert r a else l.filter p := by
  induction l with
  | nil => cases hp : p a <;> simp [hp]
  | cons b l ih =>
    rw [List.pairwise_cons] at hl
    rw [List.orderedInsert_cons]
    by_cases hab : r a b
    · rw [if_pos hab]
      cases hp : p a with
      | false => rw [List.filter_cons_of_neg (by simp [hp]), if_neg Bool.false_ne_true]
      | true =>
        rw [List.filter_cons_of_pos hp, if_pos rfl, orderedInsert_of_forall]
        intro c hc
        rcases List.mem_cons.mp (List.mem_filter.mp hc).1 with rfl | hc
        · exact hab
        · exact trans_of r hab (hl.1 c hc)
    · rw [if_neg hab]
      cases hpb : p b with
      | false =>
        rw [List.filter_cons_of_neg (by simp [hpb]), List.filter_cons_of_neg (by simp [hpb]), ih hl.2]
      | true =>
        rw [List.filter_cons_of_pos hpb, List.filter_cons_of_pos hpb, ih hl.2]
        cases p a with
        | false => rfl
        | true => rw [if_pos rfl, if_pos rfl, List.orderedInsert_cons, if_neg hab]

variable [Std.Total r]

theorem filter_insertionSort (p : α → Bool) (l : List α) :
    (l.insertionSort r).filter p = (l.filter p).insertionSort r := by
  induction l with
  | nil => rfl
  | cons a l ih =>
    rw [List.insertionSort_cons, filter_orderedInsert p a (List.pairwise_insertionSort r l), ih]
    cases hp : p a with
    | false => rw [if_neg Bool.false_ne_true, List.filter_cons_of_neg (by simp [hp])]
    | true => rw [if_pos rfl, List.filter_cons_of_pos hp, List.insertionSort_cons]

/-- Where the relation ties no two elements, the order they come in does not matter. -/
theorem insertionSort_eq_of_perm {l l' : List α} (h : l.Perm l')
    (hanti : ∀ a ∈ l, ∀ b ∈ l, r a b → r b a → a = b) : l.insertionSort r = l'.insertionSort r := by
  have hperm : (l.insertionSort r).Perm (l'.insertionSort r) :=
    (List.perm_insertionSort r l).trans (h.trans (List.perm_insertionSort r l').symm)
  refine hperm.eq_of_pairwise (fun a b ha hb => hanti a ?_ b ?_) (List.pairwise_insertionSort r l)
    (List.pairwise_insertionSort r l')
  · exact (List.mem_insertionSort r).mp ha
  · exact h.mem_iff.mpr ((List.mem_insertionSort r).mp hb)

/-- The first of a sorted list precedes every other one that could have been found. -/
theorem rel_of_find?_insertionSort {p : α → Bool} {l : List α} {a b : α}
    (ha : (l.insertionSort r).find? p = some a) (hb : b ∈ l) (hp : p b = true) : a = b ∨ r a b := by
  obtain ⟨-, front, back, heq, hfront⟩ := List.find?_eq_some_iff_append.mp ha
  have hsorted := List.pairwise_insertionSort r l
  have hmem : b ∈ l.insertionSort r := (List.mem_insertionSort r).mpr hb
  rw [heq] at hsorted hmem
  rcases List.mem_append.mp hmem with hmem | hmem
  · have hnot := hfront b hmem
    rw [hp] at hnot
    cases hnot
  · rcases List.mem_cons.mp hmem with rfl | hmem
    · exact .inl rfl
    · exact .inr ((List.pairwise_cons.mp (List.pairwise_append.mp hsorted).2.1).1 b hmem)

/-! ## Priority, then key -/

variable {κ : Type v} [LinearOrder κ]

/-- The order of elements by a priority, and of those of one priority by a key. -/
def ByPriority (rank : α → Int32) (key : α → κ) (a b : α) : Prop :=
  rank a < rank b ∨ (rank a = rank b ∧ key a ≤ key b)

instance (rank : α → Int32) (key : α → κ) : DecidableRel (ByPriority rank key) := fun _ _ =>
  inferInstanceAs (Decidable (_ ∨ _))

omit [DecidableRel r] [IsTrans α r] [Std.Total r] in
theorem byPriority_iff (rank : α → Int32) (key : α → κ) (a b : α) :
    ByPriority rank key a b ↔ (rank a).toInt < (rank b).toInt
      ∨ ((rank a).toInt = (rank b).toInt ∧ key a ≤ key b) := by
  unfold ByPriority
  rw [Int32.lt_iff_toInt_lt, Int32.toInt_inj]

instance (rank : α → Int32) (key : α → κ) : Std.Total (ByPriority rank key) where
  total a b := by
    rw [byPriority_iff, byPriority_iff]
    rcases lt_trichotomy (rank a).toInt (rank b).toInt with h | h | h
    · exact .inl (.inl h)
    · rcases le_total (key a) (key b) with hkey | hkey
      · exact .inl (.inr ⟨h, hkey⟩)
      · exact .inr (.inr ⟨h.symm, hkey⟩)
    · exact .inr (.inl h)

instance (rank : α → Int32) (key : α → κ) : IsTrans α (ByPriority rank key) where
  trans a b c := by
    rw [byPriority_iff, byPriority_iff, byPriority_iff]
    rintro (hab | ⟨hab, hkab⟩) (hbc | ⟨hbc, hkbc⟩)
    · exact .inl (by omega)
    · exact .inl (by omega)
    · exact .inl (by omega)
    · exact .inr ⟨by omega, hkab.trans hkbc⟩

/-- Two elements that precede each other have one rank and one key. -/
theorem eq_of_byPriority {rank : α → Int32} {key : α → κ} {a b : α}
    (hab : ByPriority rank key a b) (hba : ByPriority rank key b a) :
    rank a = rank b ∧ key a = key b := by
  rw [byPriority_iff] at hab hba
  rcases hab with hab | ⟨hab, hkab⟩
  · omega
  · rcases hba with hba | ⟨-, hkba⟩
    · omega
    · exact ⟨Int32.toInt_inj.mp hab, hkab.antisymm hkba⟩

end StableSort
