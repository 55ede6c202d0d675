import GreenticOperator.Lib.LastWins
import GreenticOperator.Lib.SortedMap

/-!
# HashMap — maps whose entries come in no order

A map is built by inserting entries one after another; what a key holds in the end is its last
insertion (`mem_ofInserts_iff`). A scan goes through the entries in whatever order they come in: it
finds the same in every order exactly where all entries it would stop at give the same
(`findSome?_any_order_iff`).
-/

namespace HashMap

universe u v w

variable {κ : Type u} {ν : Type v} [DecidableEq κ]

/-- The entries of a map, with a new value for one key. -/
def insert (map : List (κ × ν)) (entry : κ × ν) : List (κ × ν) := entry :: map.filter fun e => e.1 ≠ entry.1

/-- The entries of a map but for one key. -/
def remove (map : List (κ × ν)) (k : κ) : List (κ × ν) := map.filter fun e => e.1 ≠ k

def ofInserts (inserts : List (κ × ν)) : List (κ × ν) := inserts.foldl insert []

theorem mem_insert_iff {map : List (κ × ν)} {entry e : κ × ν} :
    e ∈ insert map entry ↔ e = entry ∨ (e ∈ map ∧ e.1 ≠ entry.1) := by
  rw [insert, List.mem_cons, List.mem_filter, decide_eq_true_eq]

theorem lookup_remove (map : List (κ × ν)) (k other : κ) :
    (remove map k).lookup other = if other = k then none else map.lookup other := by
  induction map with
  | nil => simp [remove]
  | cons e map ih =>
    rw [remove] at ih ⊢
    obtain ⟨key, v⟩ := e
    by_cases hkey : key = k
    · rw [List.filter_cons_of_neg (by simp [hkey]), ih, List.lookup_cons]
      by_cases hother : other = k
      · rw [if_pos hother, if_pos hother]
      · rw [if_neg hother, if_neg hother, beq_eq_false_iff_ne.mpr (hkey ▸ hother)]
    · rw [List.filter_cons_of_pos (by simp [hkey]), List.lookup_cons, List.lookup_cons, ih]
      by_cases hother : other = k
      · rw [if_pos hother, if_pos hother, hother, beq_eq_false_iff_ne.mpr (Ne.symm hkey)]
      · rw [if_neg hother, if_neg hother]

theorem lookup_insert (map : List (κ × ν)) (entry : κ × ν) (k : κ) :
    (insert map entry).lookup k = if k = entry.1 then some entry.2 else map.lookup k := by
  have hrest := lookup_remove map entry.1 k
  rw [remove] at hrest
  rw [insert, List.lookup_cons, hrest]
  by_cases hk : k = entry.1
  · rw [if_pos hk, if_pos hk, beq_iff_eq.mpr hk]
  · rw [if_neg hk, if_neg hk, beq_eq_false_iff_ne.mpr hk]

/-- **What a key holds** is what was inserted for it last. -/
theorem mem_ofInserts_iff {inserts : List (κ × ν)} {k : κ} {v : ν} :
    (k, v) ∈ ofInserts inserts ↔ LastWins.last inserts k = some v := by
  induction inserts using List.reverseRecOn with
  | nil => simp [ofInserts, LastWins.last]
  | append_singleton inserts entry ih =>
    rw [ofInserts, List.foldl_append, List.foldl_cons, List.foldl_nil, mem_insert_iff, ← ofInserts, ih,
      LastWins.last_append, LastWins.last_singleton]
    by_cases hkey : entry.1 = k
    · rw [if_pos hkey, Option.some_or]
      constructor
      · rintro (heq | ⟨-, hne⟩)
        · rw [← heq]
        · exact absurd hkey.symm hne
      · intro heq
        refine .inl ?_
        rw [← hkey, ← Option.some.inj heq]
    · rw [if_neg hkey, Option.none_or]
      constructor
      · rintro (heq | ⟨h, -⟩)
        · exact absurd (congrArg Prod.fst heq).symm hkey
        · exact h
      · exact fun h => .inr ⟨h, fun heq => hkey heq.symm⟩

/-- What was inserted last was inserted. -/
theorem mem_of_last {inserts : List (κ × ν)} {k : κ} {v : ν} (h : LastWins.last inserts k = some v) :
    (k, v) ∈ inserts := by
  obtain ⟨⟨k', v'⟩, hlast, rfl⟩ := Option.map_eq_some_iff.mp h
  obtain ⟨hmem, hkey⟩ := List.mem_filter.mp (List.mem_of_getLast? hlast)
  rw [← of_decide_eq_true hkey]
  exact hmem

/-- Keys that are renamed apart hold what they held. -/
theorem last_map_key {κ' : Type w} [DecidableEq κ'] {f : κ → κ'} (hf : Function.Injective f)
    (inserts : List (κ × ν)) (k : κ) :
    LastWins.last (inserts.map fun e => (f e.1, e.2)) (f k) = LastWins.last inserts k := by
  unfold LastWins.last
  rw [List.filter_map, List.getLast?_map, Option.map_map]
  congr 3
  funext e
  simp [hf.eq_iff]

/-- **What a key of a sorted map holds** is what was inserted for it last. -/
theorem lookup_foldl_alter {κ : Type u} [LinearOrder κ] (inserts : List (κ × ν)) (k : κ) :
    SortedMap.Ordered (inserts.foldl (fun map e => SortedMap.alter e.1 (fun _ => e.2) map) [])
      ∧ (inserts.foldl (fun map e => SortedMap.alter e.1 (fun _ => e.2) map) []).lookup k
        = LastWins.last inserts k := by
  induction inserts using List.reverseRecOn with
  | nil => exact ⟨SortedMap.ordered_nil, rfl⟩
  | append_singleton inserts e ih =>
    obtain ⟨hordered, hlookup⟩ := ih
    rw [List.foldl_append, List.foldl_cons, List.foldl_nil]
    refine ⟨SortedMap.ordered_alter e.1 _ hordered, ?_⟩
    rw [SortedMap.lookup_alter e.1 k _ hordered, hlookup, LastWins.last_append, LastWins.last_singleton]
    by_cases hk : k = e.1
    · rw [if_pos hk, if_pos hk.symm, Option.some_or]
    · rw [if_neg hk, if_neg (Ne.symm hk), Option.none_or]

/-- **A scan finds the same in every order** exactly where all it can stop at is the same. -/
theorem findSome?_any_order_iff {α : Type u} {β : Type v} (f : α → Option β) (l : List α) (default b : β) :
    (∀ order : List α, order.Perm l → (order.findSome? f).getD default = b)
      ↔ (∀ a ∈ l, ∀ c, f a = some c → c = b) ∧ ((∃ a ∈ l, (f a).isSome = true) ∨ default = b) := by
  constructor
  · intro h
    refine ⟨fun a ha c hc => ?_, ?_⟩
    · -- An order that begins with the entry stops there.
      obtain ⟨front, back, rfl⟩ := List.append_of_mem ha
      have hfirst := h (a :: (front ++ back)) List.perm_middle.symm
      rwa [List.findSome?_cons, hc] at hfirst
    · by_cases hsome : ∃ a ∈ l, (f a).isSome = true
      · exact .inl hsome
      · have hnone : l.findSome? f = none := by
          refine List.findSome?_eq_none_iff.mpr fun a ha => ?_
          rw [← Option.not_isSome_iff_eq_none]
          exact fun h => hsome ⟨a, ha, h⟩
        have hdefault := h l (List.Perm.refl l)
        rw [hnone] at hdefault
        exact .inr hdefault
  · rintro ⟨hall, hsome⟩ order horder
    cases hfind : order.findSome? f with
    | none =>
      rcases hsome with ⟨a, ha, hfa⟩ | hdefault
      · rw [List.findSome?_eq_none_iff.mp hfind a (horder.mem_iff.mpr ha)] at hfa
        cases hfa
      · exact hdefault
    | some c =>
      obtain ⟨a, ha, hc⟩ := List.exists_of_findSome?_eq_some hfind
      exact hall a (horder.mem_iff.mp ha) c hc

end HashMap
