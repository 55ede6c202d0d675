import GreenticOperator.Lib.Text
import Mathlib.Algebra.Order.Ring.Int

/-!
# Bytes — where a text can be cut

A text is cut at a byte of its encoding. It can be cut exactly where a first part of its characters
has so many bytes.
-/

namespace Text

/-- How many bytes the encoding of characters has. -/
def byteLength (l : List Char) : Nat := (l.map Char.utf8Size).sum

/-- A character starts at a byte, or the text ends there. -/
def CutsAt (n : Nat) (l : List Char) : Prop := ∃ front, front <+: l ∧ byteLength front = n

theorem byteLength_cons (c : Char) (l : List Char) : byteLength (c :: l) = c.utf8Size + byteLength l := by
  unfold byteLength
  rw [List.map_cons, List.sum_cons]

/-- What stands before the byte has so many bytes. -/
theorem splitAtByte_eq_some_iff {n : Nat} {l front back : List Char} :
    splitAtByte n l = some (front, back) ↔ l = front ++ back ∧ byteLength front = n := by
  induction l generalizing n front back with
  | nil =>
    cases n with
    | zero =>
      rw [splitAtByte, Option.some.injEq, Prod.mk.injEq]
      constructor
      · rintro ⟨rfl, rfl⟩
        exact ⟨rfl, rfl⟩
      · rintro ⟨heq, -⟩
        obtain ⟨hfront, hback⟩ := List.append_eq_nil_iff.mp heq.symm
        exact ⟨hfront.symm, hback.symm⟩
    | succ n =>
      refine iff_of_false nofun ?_
      rintro ⟨heq, hsize⟩
      obtain ⟨rfl, -⟩ := List.append_eq_nil_iff.mp heq.symm
      cases hsize
  | cons c l ih =>
    have hpos : 0 < c.utf8Size := Char.utf8Size_pos c
    cases n with
    | zero =>
      rw [splitAtByte, Option.some.injEq, Prod.mk.injEq]
      constructor
      · rintro ⟨rfl, rfl⟩
        exact ⟨rfl, rfl⟩
      · rintro ⟨heq, hsize⟩
        cases front with
        | nil => exact ⟨rfl, heq⟩
        | cons d front =>
          rw [List.cons_append, List.cons.injEq] at heq
          rw [byteLength_cons, ← heq.1] at hsize
          omega
    | succ n =>
      unfold splitAtByte
      constructor
      · intro h
        split at h
        next hfits =>
          obtain ⟨⟨first, rest⟩, hsplit, heq⟩ := Option.map_eq_some_iff.mp h
          obtain ⟨rfl, rfl⟩ := Prod.mk.inj heq
          obtain ⟨rfl, hsize⟩ := ih.mp hsplit
          refine ⟨rfl, ?_⟩
          rw [byteLength_cons, hsize]
          omega
        next => cases h
      · rintro ⟨heq, hsize⟩
        cases front with
        | nil => cases hsize
        | cons d front =>
          rw [List.cons_append, List.cons.injEq] at heq
          obtain ⟨rfl, rfl⟩ := heq
          rw [byteLength_cons] at hsize
          have hsplit : splitAtByte (n + 1 - c.utf8Size) (front ++ back) = some (front, back) :=
            ih.mpr ⟨rfl, by omega⟩
          rw [if_pos (by omega), hsplit]
          rfl

theorem isSome_splitAtByte_iff {n : Nat} {l : List Char} : (splitAtByte n l).isSome = true ↔ CutsAt n l := by
  rw [Option.isSome_iff_exists]
  constructor
  · rintro ⟨⟨front, back⟩, hsplit⟩
    obtain ⟨rfl, hsize⟩ := splitAtByte_eq_some_iff.mp hsplit
    exact ⟨front, List.prefix_append front back, hsize⟩
  · rintro ⟨front, ⟨back, rfl⟩, hsize⟩
    exact ⟨(front, back), splitAtByte_eq_some_iff.mpr ⟨rfl, hsize⟩⟩

instance (n : Nat) (l : List Char) : Decidable (CutsAt n l) := decidable_of_iff _ isSome_splitAtByte_iff

end Text
