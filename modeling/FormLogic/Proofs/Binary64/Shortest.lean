import FormLogic.Binary64.Shortest
import FormLogic.Proofs.Binary64.Decimal

namespace FormLogic

namespace Binary64

theorem halfEven_mul_left {k : Nat} (hk : 0 < k) (num den : Nat) :
    halfEven (k * num) (k * den) = halfEven num den := by
  have hlt : ∀ a b : Nat, 2 * (k * a) < k * b ↔ 2 * a < b := by
    intro a b
    rw [Nat.mul_left_comm]
    exact Nat.mul_lt_mul_left hk
  have hgt : ∀ a b : Nat, k * b < 2 * (k * a) ↔ b < 2 * a := by
    intro a b
    rw [Nat.mul_left_comm]
    exact Nat.mul_lt_mul_left hk
  unfold halfEven
  rw [Nat.mul_div_mul_left num den hk, Nat.mul_mod_mul_left]
  simp only [hlt, hgt]

theorem roundUnits_mul_left {k : Nat} (hk : 0 < k) (num den : Nat) :
    roundUnits (k * num) (k * den) = roundUnits num den := by
  rw [roundUnits, roundUnits, Nat.mul_div_mul_left num den hk, Nat.mul_assoc,
    halfEven_mul_left hk]

theorem roundUnits_congr {num den num' den' : Nat} (hden : 0 < den) (hden' : 0 < den')
    (h : num * den' = num' * den) : roundUnits num den = roundUnits num' den' := by
  rw [← roundUnits_mul_left hden' num den, ← roundUnits_mul_left hden num' den',
    Nat.mul_comm den' num, h, Nat.mul_comm num' den, Nat.mul_comm den' den]

theorem roundUnits_of_onGrid {units : Nat} (h : spacing units ∣ units) :
    roundUnits units 1 = units := by
  have hmod := Nat.mod_eq_zero_of_dvd h
  have hpos : 2 * 0 < spacing units := spacing_pos units
  rw [roundUnits, Nat.div_one, Nat.one_mul, halfEven, hmod, if_pos hpos]
  exact Nat.div_mul_cancel h

theorem ofUnits_self (x : Finite) : ofUnits x.negative x.units x.onGrid = .finite x :=
  dif_pos x.bounded

theorem signed_inj {negative : Bool} {p q : ℚ} : signed negative p = signed negative q ↔ p = q := by
  cases negative <;> simp [signed]

end Binary64

namespace Decimal
open Binary64

theorem quotient_eq_iff {num den num' den' : Nat} (hden : 0 < den) (hden' : 0 < den') :
    (num / (den * one) : ℚ) = num' / (den' * one) ↔ num * den' = num' * den := by
  have hone := one_cast_pos
  have hd : (0 : ℚ) < den := by exact_mod_cast hden
  have hd' : (0 : ℚ) < den' := by exact_mod_cast hden'
  rw [← div_div, ← div_div, div_left_inj' hone.ne', div_eq_div_iff hd.ne' hd'.ne']
  exact_mod_cast Iff.rfl

theorem ten_pow_pos (k : Nat) : 0 < 10 ^ k := Nat.pow_pos (by norm_num)

/-- Numerals of one sign and one value are read as one double. -/
theorem toBinary64_congr {d d' : Decimal} (hnegative : d.negative = d'.negative)
    (h : d.toRat = d'.toRat) : d.toBinary64 = d'.toBinary64 := by
  rw [toRat_eq_quotient, toRat_eq_quotient, hnegative, signed_inj,
    quotient_eq_iff (ten_pow_pos _) (ten_pow_pos _)] at h
  rw [toBinary64_eq_ofQuotient, toBinary64_eq_ofQuotient, hnegative]
  exact ofUnits_congr _ _ _ (roundUnits_congr (ten_pow_pos _) (ten_pow_pos _) h)

/-- A numeral that has the sign and the value of a double is read as this double. -/
theorem toBinary64_of_toRat_eq {d : Decimal} {x : Finite} (hnegative : d.negative = x.negative)
    (h : d.toRat = x.toRat) : d.toBinary64 = .finite x := by
  have hx : x.toRat = signed x.negative ((x.units : Nat) / ((1 : Nat) * one)) := by
    rw [Nat.cast_one, one_mul, Finite.toRat]
  rw [toRat_eq_quotient, hx, hnegative, signed_inj,
    quotient_eq_iff (ten_pow_pos _) Nat.one_pos] at h
  rw [toBinary64_eq_ofQuotient, hnegative, ← ofUnits_self x]
  apply ofUnits_congr
  rw [roundUnits_congr (ten_pow_pos _) Nat.one_pos h, roundUnits_of_onGrid x.onGrid]

end Decimal

namespace Binary64

def scaled (p : Nat × Int) : ℚ := p.1 * 10 ^ p.2

theorem toRat_scaled (negative : Bool) (p : Nat × Int) :
    (Decimal.mk negative p.1 p.2).toRat = signed negative (scaled p) := rfl

theorem scaled_add_sub (p : Nat × Int) (n : Int) : scaled (p.1, p.2 + n - n) = scaled p := by
  rw [Int.add_sub_cancel]

theorem scaled_dropZeros (coefficient : Nat) (exponent : Int) :
    scaled (dropZeros coefficient exponent) = coefficient * 10 ^ exponent := by
  fun_induction dropZeros coefficient exponent with
  | case1 coefficient exponent h ih =>
    have hdiv : coefficient = coefficient / 10 * 10 := by omega
    rw [ih, zpow_add_one₀ (by norm_num)]
    nth_rewrite 2 [hdiv]
    push_cast
    ring
  | case2 coefficient exponent h => rfl

theorem scaled_mul_five_pow (units k : Nat) :
    scaled (units * Nat.pow 5 k, -(k : Int)) = units / 2 ^ k := by
  have hpow : ((Nat.pow 5 k : Nat) : ℚ) = 5 ^ k := Nat.cast_pow 5 k
  have hten : (10 : ℚ) ^ k = 2 ^ k * 5 ^ k := by
    rw [← mul_pow]
    norm_num
  have hfive : (5 : ℚ) ^ k ≠ 0 := pow_ne_zero _ (by norm_num)
  simp only [scaled]
  rw [Nat.cast_mul, hpow, zpow_neg, zpow_natCast, hten, ← div_eq_mul_inv,
    mul_div_mul_right _ _ hfive]

/-- All digits of a magnitude denote it exactly. -/
theorem scaled_all_digits (units : Nat) :
    scaled (units * Nat.pow 5 unitBits, -unitBits) = units / one := by
  rw [scaled_mul_five_pow, one_cast_eq]

/-- On whatever grids it is looked for, the decimal that is found reads back. -/
theorem toBinary64_firstGrid (x : Finite) (grids : List Int) :
    (Decimal.mk x.negative (firstGrid x.units grids).1 (firstGrid x.units grids).2).toBinary64 =
      .finite x := by
  induction grids with
  | nil =>
    apply Decimal.toBinary64_of_toRat_eq rfl
    rw [toRat_scaled, firstGrid, scaled_all_digits, Finite.toRat]
  | cons e grids ih =>
    cases hc : coefficientAt? x.units e with
    | none => simpa only [firstGrid, hc] using ih
    | some c =>
      have hread : Decimal.units c e = x.units := by
        simpa using List.find?_some hc
      simp only [firstGrid, hc]
      rw [← ofUnits_self x]
      exact ofUnits_congr x.negative _ _ hread

/-- The shortest decimal of a double reads back as this double. -/
theorem toBinary64_shortest (x : Finite) :
    (Decimal.mk x.negative (shortest x.units).1 (shortest x.units).2).toBinary64 = .finite x := by
  let grids := (List.range 17).map fun (n : Nat) => decimalPoint x.units - (n + 1 : Nat)
  have hvalue : scaled (shortest x.units) = scaled (firstGrid x.units grids) :=
    scaled_dropZeros _ _
  rw [← toBinary64_firstGrid x grids]
  refine Decimal.toBinary64_congr rfl ?_
  rw [toRat_scaled, toRat_scaled, hvalue]

end Binary64
end FormLogic
