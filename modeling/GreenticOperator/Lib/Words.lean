import Mathlib.Data.Nat.Notation
import Mathlib.Algebra.Order.Ring.Int

/-!
# Words — saturating and checked arithmetic

Sums, products and differences of machine words that stop at the end of their range, and the
shift that is refused where it would move a word out of itself. Each is said in numbers once
(`toNat_…`), and what follows is arithmetic.
-/

namespace Words

def saturatingSub (a b : UInt32) : UInt32 := UInt32.ofNat (a.toNat - b.toNat)

def saturatingMul (a b : UInt64) : UInt64 := UInt64.ofNat (min (a.toNat * b.toNat) (2 ^ 64 - 1))

def saturatingAdd (a b : UInt64) : UInt64 := UInt64.ofNat (min (a.toNat + b.toNat) (2 ^ 64 - 1))

/-- The shift by fewer bits than the word has. A shift by more has no value. -/
def checkedShl (a : UInt64) (n : UInt32) : Option UInt64 :=
  if n.toNat < 64 then some (a <<< n.toUInt64) else none

@[simp] theorem toNat_saturatingSub (a b : UInt32) :
    (saturatingSub a b).toNat = a.toNat - b.toNat :=
  UInt32.toNat_ofNat_of_lt' (Nat.lt_of_le_of_lt (Nat.sub_le _ _) a.toNat_lt)

@[simp] theorem toNat_saturatingMul (a b : UInt64) :
    (saturatingMul a b).toNat = min (a.toNat * b.toNat) (2 ^ 64 - 1) :=
  UInt64.toNat_ofNat_of_lt' (Nat.lt_of_le_of_lt (Nat.min_le_right _ _) (by decide))

@[simp] theorem toNat_saturatingAdd (a b : UInt64) :
    (saturatingAdd a b).toNat = min (a.toNat + b.toNat) (2 ^ 64 - 1) :=
  UInt64.toNat_ofNat_of_lt' (Nat.lt_of_le_of_lt (Nat.min_le_right _ _) (by decide))

@[simp] theorem toNat_min (a b : UInt64) : (min a b).toNat = min a.toNat b.toNat := by
  show (if a ≤ b then a else b).toNat = if a.toNat ≤ b.toNat then a.toNat else b.toNat
  simp only [UInt64.le_iff_toNat_le]
  split <;> rfl

@[simp] theorem toNat_min32 (a b : UInt32) : (min a b).toNat = min a.toNat b.toNat := by
  show (if a ≤ b then a else b).toNat = if a.toNat ≤ b.toNat then a.toNat else b.toNat
  simp only [UInt32.le_iff_toNat_le]
  split <;> rfl

/-- One, moved by fewer bits than the word has, loses no bit. -/
theorem checkedShl_one {n : UInt32} (h : n.toNat < 64) :
    ∃ power, checkedShl 1 n = some power ∧ power.toNat = 2 ^ n.toNat := by
  refine ⟨1 <<< n.toUInt64, if_pos h, ?_⟩
  rw [UInt64.toNat_shiftLeft, UInt32.toNat_toUInt64, Nat.mod_eq_of_lt h]
  simp only [UInt64.toNat_one, Nat.one_shiftLeft]
  exact Nat.mod_eq_of_lt (Nat.pow_lt_pow_right (by decide) h)

end Words
