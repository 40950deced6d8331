import FormLogic.Binary64.Arithmetic
import FormLogic.Proofs.Binary64.Rounding

namespace FormLogic.Binary64

/-- A double is a lower bound of a number. The double `nan` bounds nothing. -/
def IsLowerBound (q : ℚ) : Binary64 → Prop
  | .nan => False
  | .infinite negative => negative = true
  | .finite x => x.toRat ≤ q

def IsUpperBound (q : ℚ) : Binary64 → Prop
  | .nan => False
  | .infinite negative => negative = false
  | .finite x => q ≤ x.toRat

theorem Finite.toRat_eq_value_div (x : Finite) : x.toRat = (x.value : ℚ) / one := by
  unfold toRat value signed
  split
  · push_cast
    ring
  · rfl

theorem value_le_iff (x y : Finite) : x.value ≤ y.value ↔ x.toRat ≤ y.toRat := by
  rw [x.toRat_eq_value_div, y.toRat_eq_value_div, div_le_div_iff_of_pos_right one_cast_pos,
    Int.cast_le]

theorem natCast_eq_div (n : Nat) : (n : ℚ) = ((n * one : Nat) : Int) / (one : Nat) := by
  push_cast
  exact (mul_div_cancel_right₀ _ one_cast_pos.ne').symm

theorem le_finite_iff (bound : Binary64) (x : Finite) :
    bound.le (.finite x) = true ↔ bound.IsLowerBound x.toRat := by
  cases bound with
  | nan => simp [le, IsLowerBound]
  | infinite negative => rfl
  | finite y => simpa [le, IsLowerBound] using value_le_iff y x

theorem finite_le_iff (x : Finite) (bound : Binary64) :
    (Binary64.finite x).le bound = true ↔ bound.IsUpperBound x.toRat := by
  cases bound with
  | nan => simp [le, IsUpperBound]
  | infinite negative => cases negative <;> simp [le, IsUpperBound]
  | finite y => simpa [le, IsUpperBound] using value_le_iff x y

theorem leCount_iff (bound : Binary64) (n : Nat) :
    bound.leCount n = true ↔ bound.IsLowerBound n := by
  cases bound with
  | nan => simp [leCount, IsLowerBound]
  | infinite negative => rfl
  | finite x =>
    rw [leCount, decide_eq_true_eq, IsLowerBound, natCast_eq_div, x.toRat_eq_value_div,
      div_le_div_iff_of_pos_right one_cast_pos, Int.cast_le]

theorem countLe_iff (n : Nat) (bound : Binary64) :
    countLe n bound = true ↔ bound.IsUpperBound n := by
  cases bound with
  | nan => simp [countLe, IsUpperBound]
  | infinite negative => cases negative <;> simp [countLe, IsUpperBound]
  | finite x =>
    rw [countLe, decide_eq_true_eq, IsUpperBound, natCast_eq_div, x.toRat_eq_value_div,
      div_le_div_iff_of_pos_right one_cast_pos, Int.cast_le]

end FormLogic.Binary64
