import Mathlib.Data.List.Nodup
import Mathlib.Data.List.Perm.Subperm

/-!
# Fresh — the first of numbered names that is not in use

Of names that are all different, one more than are in use leave one that is not
(`firstFree_not_mem`).
-/

namespace Fresh

universe u

variable {κ : Type u} [DecidableEq κ]

/-- The first number from `i` on, of the next `n`, whose name is not in use; or the one after them. -/
def firstFree (used : List κ) (name : Nat → κ) : Nat → Nat → Nat
  | 0, i => i
  | n + 1, i => if name i ∈ used then firstFree used name n (i + 1) else i

theorem le_firstFree (used : List κ) (name : Nat → κ) (n i : Nat) : i ≤ firstFree used name n i := by
  induction n generalizing i with
  | zero => exact Nat.le_refl i
  | succ n ih =>
    rw [firstFree]
    split
    next => exact Nat.le_of_succ_le (ih (i + 1))
    next => exact Nat.le_refl i

/-- A name in use that is found means that all of them are in use. -/
theorem mem_of_firstFree_mem {used : List κ} {name : Nat → κ} {n i : Nat}
    (h : name (firstFree used name n i) ∈ used) : ∀ j ∈ List.range' i (n + 1), name j ∈ used := by
  induction n generalizing i with
  | zero =>
    intro j hj
    rw [List.range'_one, List.mem_singleton] at hj
    exact hj ▸ h
  | succ n ih =>
    intro j hj
    rw [firstFree] at h
    split at h
    next hused =>
      rw [List.range'_succ] at hj
      rcases List.mem_cons.mp hj with rfl | hj
      · exact hused
      · exact ih h j hj
    next hfree => exact absurd h hfree

/-- Every name before the one that is found is in use. -/
theorem mem_of_lt_firstFree {used : List κ} {name : Nat → κ} {n i j : Nat} (hle : i ≤ j)
    (hlt : j < firstFree used name n i) : name j ∈ used := by
  induction n generalizing i with
  | zero => exact absurd hlt (Nat.not_lt.mpr hle)
  | succ n ih =>
    rw [firstFree] at hlt
    split at hlt
    next hused =>
      rcases Nat.eq_or_lt_of_le hle with rfl | hle
      · exact hused
      · exact ih hle hlt
    next => exact absurd hlt (Nat.not_lt.mpr hle)

/-- **The name that is found is not in use.** -/
theorem firstFree_not_mem (used : List κ) {name : Nat → κ} (hname : Function.Injective name) (i : Nat) :
    name (firstFree used name used.length i) ∉ used := by
  intro h
  have hsub : ((List.range' i (used.length + 1)).map name) ⊆ used := by
    intro k hk
    obtain ⟨j, hj, rfl⟩ := List.mem_map.mp hk
    exact mem_of_firstFree_mem h j hj
  have hnodup : ((List.range' i (used.length + 1)).map name).Nodup := List.Nodup.map hname List.nodup_range'
  have hlength := (hnodup.subperm hsub).length_le
  rw [List.length_map, List.length_range'] at hlength
  exact absurd hlength (Nat.not_succ_le_self _)

end Fresh
