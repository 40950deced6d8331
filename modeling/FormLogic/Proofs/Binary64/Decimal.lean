import FormLogic.Binary64.Arithmetic
import FormLogic.Proofs.Binary64.Rounding

namespace FormLogic

namespace Binary64

theorem ofUnits_congr (negative : Bool) {m n : Nat} (hm : spacing m ∣ m) (hn : spacing n ∣ n)
    (h : m = n) : ofUnits negative m hm = ofUnits negative n hn := by
  subst h
  rfl

theorem ofUnits_of_le (negative : Bool) {n : Nat} (hn : spacing n ∣ n) (h : limit ≤ n) :
    ofUnits negative n hn = .infinite negative :=
  dif_neg (Nat.not_lt.2 h)

theorem ofUnits_true {n : Nat} (hn : spacing n ∣ n) : ofUnits true n hn = -ofUnits false n hn := by
  unfold ofUnits
  by_cases h : n < limit
  · rw [dif_pos h, dif_pos h]
    rfl
  · rw [dif_neg h, dif_neg h]
    rfl

theorem isFinite_of_add {x y : Binary64} (h : (x + y).isFinite = true) : x.isFinite = true := by
  cases x with
  | finite x => rfl
  | nan => cases h
  | infinite negative =>
    cases y with
    | infinite negative' =>
      change (if negative = negative' then infinite negative else nan).isFinite = true at h
      split at h <;> cases h
    | _ => cases h

theorem isFinite_neg (x : Binary64) : (-x).isFinite = x.isFinite := by
  cases x <;> rfl

theorem one_eq : one = 2 ^ unitBits := Nat.one_shiftLeft _

/-- Less than half a unit is rounded to zero. -/
theorem roundUnits_eq_zero {num den : Nat} (h : 2 * num < den) : roundUnits num den = 0 := by
  have hdiv : num / den = 0 := Nat.div_eq_of_lt (by omega)
  have hspacing : spacing 0 = 1 := by simp [spacing]
  rw [roundUnits, hdiv, hspacing, Nat.mul_one, Nat.mul_one, halfEven,
    Nat.mod_eq_of_lt (by omega), if_pos h, hdiv]

/-- A whole number has a finite double up to half way from the greatest double to 2^1024. -/
theorem isFinite_ofInt_iff (n : Int) :
    (ofInt n).isFinite = true ↔ n.natAbs + 2 ^ 970 < 2 ^ 1024 := by
  have hone := one_cast_pos
  have hquotient : ((n.natAbs * one : Nat) / ((1 : Nat) * one) : ℚ) = n.natAbs := by
    rw [Nat.cast_mul, Nat.cast_one, one_mul, mul_div_cancel_right₀ _ hone.ne']
  have hcast := cast_add_mul_two_pow_lt n.natAbs 1 970 1024
  rw [Nat.cast_one, one_mul, one_mul, Nat.one_mul, Nat.one_mul] at hcast
  rw [ofInt, isFinite_ofQuotient_iff _ _ Nat.one_pos, hquotient]
  exact hcast

end Binary64

namespace Decimal
open Binary64

def toRat (d : Decimal) : ℚ := signed d.negative (d.coefficient * 10 ^ d.exponent)

theorem two_pow_le_ten_pow (k : Nat) : 2 ^ (3 * k) ≤ 10 ^ k := by
  rw [Nat.pow_mul]
  exact Nat.pow_le_pow_left (by norm_num) k

theorem units_of_small {coefficient : Nat} {exponent : Int}
    (h : exponent + coefficient.log2 < -400) :
    roundUnits (coefficient * 10 ^ exponent.toNat * one) (10 ^ (-exponent).toNat) = 0 := by
  apply roundUnits_eq_zero
  rw [Int.toNat_eq_zero.2 (by omega), Nat.pow_zero, Nat.mul_one, one_eq]
  calc 2 * (coefficient * 2 ^ unitBits)
      < 2 * (2 ^ (coefficient.log2 + 1) * 2 ^ unitBits) :=
        Nat.mul_lt_mul_of_pos_left
          (Nat.mul_lt_mul_of_pos_right Nat.lt_log2_self (Nat.two_pow_pos _)) (by norm_num)
    _ = 2 ^ (coefficient.log2 + 1 + unitBits + 1) := by ring
    _ ≤ 2 ^ (3 * (-exponent).toNat) := by
        apply Nat.pow_le_pow_right (by norm_num)
        have : unitBits = 1074 := rfl
        omega
    _ ≤ 10 ^ (-exponent).toNat := two_pow_le_ten_pow _

theorem limit_le_of_large {coefficient : Nat} {exponent : Int} (h0 : coefficient ≠ 0)
    (h : 400 < exponent) :
    limit ≤ roundUnits (coefficient * 10 ^ exponent.toNat * one) (10 ^ (-exponent).toNat) := by
  rw [Int.toNat_eq_zero.2 (by omega : -exponent ≤ 0), Nat.pow_zero, @limit_eq (2044 + 54) rfl]
  apply two_pow_le_roundUnits Nat.one_pos
  apply Nat.le_add_right_of_le
  rw [Nat.one_mul, one_eq]
  calc 2 ^ (2044 + 54) ≤ 2 ^ (3 * exponent.toNat + unitBits) := by
        apply Nat.pow_le_pow_right (by norm_num)
        have : unitBits = 1074 := rfl
        omega
    _ = 2 ^ (3 * exponent.toNat) * 2 ^ unitBits := Nat.pow_add _ _ _
    _ ≤ coefficient * 10 ^ exponent.toNat * 2 ^ unitBits := by
        apply Nat.mul_le_mul_right
        exact (two_pow_le_ten_pow _).trans (Nat.le_mul_of_pos_left _ (Nat.pos_of_ne_zero h0))

/-- The exponents that are settled without a power of ten give the same double as the others. -/
theorem toBinary64_eq_ofQuotient (d : Decimal) :
    d.toBinary64 =
      ofQuotient d.negative (d.coefficient * 10 ^ d.exponent.toNat * one)
        (10 ^ (-d.exponent).toNat) := by
  unfold toBinary64 ofQuotient
  by_cases hsmall : d.coefficient = 0 ∨ d.exponent + d.coefficient.log2 < -400
  · apply ofUnits_congr
    rw [units, if_pos hsmall]
    rcases hsmall with h | h
    · rw [h, Nat.zero_mul, Nat.zero_mul, roundUnits_zero]
    · exact (units_of_small h).symm
  · by_cases hlarge : 400 < d.exponent
    · rw [ofUnits_of_le _ _ (limit_le_of_large (fun h => hsmall (.inl h)) hlarge),
        ofUnits_of_le]
      rw [units, if_neg hsmall, if_pos hlarge]
    · apply ofUnits_congr
      rw [units, if_neg hsmall, if_neg hlarge]
      rfl

theorem toRat_eq_quotient (d : Decimal) :
    d.toRat = signed d.negative
      ((d.coefficient * 10 ^ d.exponent.toNat * one : Nat) /
        ((10 ^ (-d.exponent).toNat : Nat) * one)) := by
  rw [toRat, Nat.cast_mul, mul_div_mul_right _ _ one_cast_pos.ne', Nat.cast_mul, Nat.cast_pow,
    Nat.cast_pow, Nat.cast_ofNat]
  congr 1
  rcases Int.le_total 0 d.exponent with h | h
  · obtain ⟨k, hk⟩ := Int.eq_ofNat_of_zero_le h
    rw [hk, Int.toNat_natCast, Int.toNat_eq_zero.2 (by omega), pow_zero, div_one, zpow_natCast]
  · obtain ⟨k, hk⟩ := Int.eq_ofNat_of_zero_le (Int.neg_nonneg_of_nonpos h)
    rw [hk, Int.toNat_natCast, Int.toNat_eq_zero.2 h, pow_zero, mul_one,
      show d.exponent = -(k : Int) by omega, zpow_neg, zpow_natCast, div_eq_mul_inv]

/-- The double of a numeral is the one that its exact value is rounded to. -/
theorem toBinary64_isRounded (d : Decimal) : IsRounded d.toRat d.toBinary64 := by
  rw [toBinary64_eq_ofQuotient, toRat_eq_quotient]
  exact ofQuotient_isRounded _ _ (Nat.pow_pos (by norm_num))

end Decimal
end FormLogic
