import Mathlib.Algebra.Group.Nat.Defs

/-!
# Arithmetic on words that does not wrap

An addition or a subtraction of 16-bit words is exact when its result is the one of the natural
numbers.
-/

namespace OtLab.Lib

variable {a b : UInt16}

/-- The sum of the words is their sum. -/
def AddExact (a b : UInt16) : Prop := (a + b).toNat = a.toNat + b.toNat

/-- The difference of the words is their difference. -/
def SubExact (a b : UInt16) : Prop := (a - b).toNat + b.toNat = a.toNat

instance (a b : UInt16) : Decidable (AddExact a b) := inferInstanceAs (Decidable (_ = _))

instance (a b : UInt16) : Decidable (SubExact a b) := inferInstanceAs (Decidable (_ = _))

theorem addExact_iff : AddExact a b ↔ a.toNat + b.toNat < 2 ^ 16 := by
  unfold AddExact
  rw [UInt16.toNat_add]
  constructor
  · intro h
    rw [← h]
    exact Nat.mod_lt _ (by decide)
  · exact Nat.mod_eq_of_lt

theorem subExact_iff : SubExact a b ↔ b ≤ a := by
  unfold SubExact
  constructor
  · intro h
    rw [UInt16.le_iff_toNat_le, ← h]
    exact Nat.le_add_left _ _
  · intro h
    rw [UInt16.toNat_sub_of_le a b h]
    exact Nat.sub_add_cancel (UInt16.le_iff_toNat_le.mp h)

end OtLab.Lib
