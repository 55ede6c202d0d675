import Mathlib.Data.List.Sort

/-!
# SortedMap — lists of entries in the order of their keys

A map is a list of entries with strictly ascending keys (`Ordered`). What such a list looks up
determines it (`Ordered.ext`). `alter` puts a value computed from the old one under a key.
-/

namespace SortedMap

universe u v w

variable {κ : Type u} {ν : Type v} [LinearOrder κ]

def Ordered (map : List (κ × ν)) : Prop := map.Pairwise fun a b => a.1 < b.1

/-- The value of a key replaced by what `f` makes of it. -/
def alter (k : κ) (f : Option ν → ν) : List (κ × ν) → List (κ × ν)
  | [] => [(k, f none)]
  | (k', v) :: rest =>
    if k = k' then (k', f (some v)) :: rest
    else if k < k' then (k, f none) :: (k', v) :: rest
    else (k', v) :: alter k f rest

theorem ordered_nil : Ordered ([] : List (κ × ν)) := .nil

theorem ordered_cons {e : κ × ν} {map : List (κ × ν)} :
    Ordered (e :: map) ↔ (∀ a ∈ map, e.1 < a.1) ∧ Ordered map := List.pairwise_cons

theorem ordered_map {μ : Type w} {map : List (κ × ν)} (g : κ → ν → μ) (h : Ordered map) :
    Ordered (map.map fun e => (e.1, g e.1 e.2)) := List.pairwise_map.mpr h

theorem Ordered.nodup {map : List (κ × ν)} (h : Ordered map) : map.Nodup := by
  refine List.Pairwise.imp (fun {a b} hlt heq => ?_) h
  exact hlt.ne (congrArg Prod.fst heq)

theorem mem_alter {k : κ} {f : Option ν → ν} {map : List (κ × ν)} {e : κ × ν} (he : e ∈ alter k f map) :
    e.1 = k ∨ e ∈ map := by
  induction map with
  | nil =>
    rw [alter, List.mem_singleton] at he
    exact .inl (he ▸ rfl)
  | cons entry map ih =>
    rw [alter] at he
    split at he
    next heq =>
      rcases List.mem_cons.mp he with rfl | he
      · exact .inl heq.symm
      · exact .inr (List.mem_cons_of_mem _ he)
    next =>
      split at he
      next =>
        rcases List.mem_cons.mp he with rfl | he
        · exact .inl rfl
        · exact .inr he
      next =>
        rcases List.mem_cons.mp he with rfl | he
        · exact .inr List.mem_cons_self
        · exact (ih he).imp_right (List.mem_cons_of_mem _)

theorem ordered_alter (k : κ) (f : Option ν → ν) {map : List (κ × ν)} (h : Ordered map) :
    Ordered (alter k f map) := by
  induction map with
  | nil => exact List.pairwise_singleton _ _
  | cons entry map ih =>
    obtain ⟨hbelow, hmap⟩ := ordered_cons.mp h
    rw [alter]
    split
    next => exact ordered_cons.mpr ⟨hbelow, hmap⟩
    next hne =>
      split
      next hlt =>
        refine ordered_cons.mpr ⟨fun e he => ?_, h⟩
        rcases List.mem_cons.mp he with rfl | he
        · exact hlt
        · exact hlt.trans (hbelow e he)
      next hlt =>
        refine ordered_cons.mpr ⟨fun e he => ?_, ih hmap⟩
        rcases mem_alter he with heq | he
        · exact heq ▸ lt_of_le_of_ne (not_lt.mp hlt) (Ne.symm hne)
        · exact hbelow e he

/-! ## Looking up -/

variable [BEq κ] [LawfulBEq κ]

/-- A value put under a key, whatever the order of the entries. -/
theorem lookup_alter_const (k k' : κ) (v : ν) (map : List (κ × ν)) :
    (alter k (fun _ => v) map).lookup k' = if k' = k then some v else map.lookup k' := by
  induction map with
  | nil =>
    rw [alter, List.lookup_cons]
    by_cases h : k' = k
    · rw [beq_iff_eq.mpr h, if_pos h]
    · rw [beq_eq_false_iff_ne.mpr h, if_neg h]
  | cons entry map ih =>
    obtain ⟨other, w⟩ := entry
    rw [alter]
    by_cases h : k' = k
    · rw [if_pos h] at ih ⊢
      subst h
      split
      next heq => rw [List.lookup_cons, beq_iff_eq.mpr heq]
      next hne =>
        split
        next => rw [List.lookup_cons_self]
        next => rw [List.lookup_cons, beq_eq_false_iff_ne.mpr hne, ih]
    · rw [if_neg h] at ih ⊢
      split
      next heq => rw [List.lookup_cons, List.lookup_cons, beq_eq_false_iff_ne.mpr (heq ▸ h)]
      next =>
        split
        next => rw [List.lookup_cons, beq_eq_false_iff_ne.mpr h]
        next => rw [List.lookup_cons, List.lookup_cons, ih]

theorem lookup_eq_none_of_lt {k : κ} {map : List (κ × ν)} (h : ∀ e ∈ map, k < e.1) :
    map.lookup k = none := by
  refine List.lookup_eq_none_iff.mpr fun e he => ?_
  exact bne_iff_ne.mpr (h e he).ne

theorem lookup_eq_some_iff {k : κ} {v : ν} {map : List (κ × ν)} (h : Ordered map) :
    map.lookup k = some v ↔ (k, v) ∈ map := by
  induction map with
  | nil => simp
  | cons entry map ih =>
    obtain ⟨k', v'⟩ := entry
    obtain ⟨hbelow, hmap⟩ := ordered_cons.mp h
    rw [List.lookup_cons, List.mem_cons]
    by_cases hk : k = k'
    · subst hk
      have hnot : (k, v) ∉ map := fun hmem => lt_irrefl k (hbelow _ hmem)
      simp [hnot, eq_comm]
    · have hbeq : (k == k') = false := beq_eq_false_iff_ne.mpr hk
      simp [hbeq, hk, ih hmap]

/-- What it looks up determines a map. -/
theorem Ordered.ext {map other : List (κ × ν)} (h : Ordered map) (hother : Ordered other)
    (hlookup : ∀ k, map.lookup k = other.lookup k) : map = other := by
  have hperm : List.Perm map other := by
    rw [List.perm_ext_iff_of_nodup h.nodup hother.nodup]
    rintro ⟨k, v⟩
    rw [← lookup_eq_some_iff h, ← lookup_eq_some_iff hother, hlookup]
  exact hperm.eq_of_pairwise (fun a b _ _ hab hba => absurd hba hab.asymm) h hother

omit [LinearOrder κ] in
/-- Where no key is there twice, a lookup finds exactly the entries there are. -/
theorem lookup_eq_some_iff_of_nodup {map : List (κ × ν)} (h : (map.map Prod.fst).Nodup) {k : κ} {v : ν} :
    map.lookup k = some v ↔ (k, v) ∈ map := by
  rw [List.lookup_eq_some_iff]
  constructor
  · rintro ⟨before, after, rfl, -⟩
    exact List.mem_append_right before List.mem_cons_self
  · intro hmem
    obtain ⟨before, after, rfl⟩ := List.append_of_mem hmem
    refine ⟨before, after, rfl, fun entry hentry => ?_⟩
    rw [List.map_append, List.map_cons, List.nodup_append] at h
    have hne := h.2.2 entry.1 (List.mem_map_of_mem hentry) k List.mem_cons_self
    exact bne_iff_ne.mpr (Ne.symm hne)

omit [LinearOrder κ] in
theorem lookup_map {μ : Type w} (map : List (κ × ν)) (g : κ → ν → μ) (k : κ) :
    (map.map fun e => (e.1, g e.1 e.2)).lookup k = (map.lookup k).map (g k) := by
  induction map with
  | nil => rfl
  | cons entry map ih =>
    obtain ⟨k', v⟩ := entry
    rw [List.map_cons, List.lookup_cons, List.lookup_cons, ih]
    cases hk : k == k' with
    | false => rfl
    | true => rw [eq_of_beq hk]; rfl

omit [LinearOrder κ] in
theorem lookup_filter {map : List (κ × ν)} {keep : κ → Bool} (k : κ) :
    (map.filter fun entry => keep entry.1).lookup k = if keep k then map.lookup k else none := by
  induction map with
  | nil => rw [List.filter_nil, List.lookup_nil, ite_self]
  | cons entry map ih =>
    obtain ⟨k', v⟩ := entry
    rw [List.filter_cons, List.lookup_cons]
    by_cases hk : k = k'
    · subst hk
      cases hkeep : keep k with
      | true => simp
      | false => simp [ih, hkeep]
    · have hbeq : (k == k') = false := beq_eq_false_iff_ne.mpr hk
      cases hkeep : keep k' with
      | true => simp [List.lookup_cons, hbeq, ih]
      | false => simp [hbeq, ih]

omit [BEq κ] [LawfulBEq κ] in
theorem ordered_filter {map : List (κ × ν)} (keep : κ × ν → Bool) (h : Ordered map) :
    Ordered (map.filter keep) := List.Pairwise.filter keep h

theorem lookup_alter (k k' : κ) (f : Option ν → ν) {map : List (κ × ν)} (h : Ordered map) :
    (alter k f map).lookup k' = if k' = k then some (f (map.lookup k)) else map.lookup k' := by
  induction map with
  | nil =>
    rw [alter, List.lookup_cons]
    split <;> simp_all
  | cons entry map ih =>
    obtain ⟨key, v⟩ := entry
    obtain ⟨hbelow, hmap⟩ := ordered_cons.mp h
    rw [alter]
    split
    next heq =>
      subst heq
      rw [List.lookup_cons, List.lookup_cons, List.lookup_cons]
      by_cases hk : k' = k
      · simp [hk]
      · simp [hk, beq_eq_false_iff_ne.mpr hk]
    next hne =>
      split
      next hlt =>
        have hnone : ((key, v) :: map).lookup k = none := by
          refine lookup_eq_none_of_lt fun e he => ?_
          rcases List.mem_cons.mp he with rfl | he
          · exact hlt
          · exact hlt.trans (hbelow e he)
        rw [hnone, List.lookup_cons]
        by_cases hk : k' = k
        · simp [hk]
        · simp [hk, beq_eq_false_iff_ne.mpr hk]
      next =>
        rw [List.lookup_cons, List.lookup_cons, List.lookup_cons, ih hmap, beq_eq_false_iff_ne.mpr hne]
        by_cases hk : k' = k
        · simp [hk, beq_eq_false_iff_ne.mpr hne]
        · simp [hk]

end SortedMap
