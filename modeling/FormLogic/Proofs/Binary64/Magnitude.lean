import FormLogic.Proofs.Binary64.Shortest

namespace FormLogic.Binary64

/-- Rounding keeps the order of quotients. -/
theorem roundUnits_mono {num den num' den' : Nat} (hden : 0 < den) (hden' : 0 < den')
    (h : num * den' ≤ num' * den) : roundUnits num den ≤ roundUnits num' den' := by
  by_contra hlt
  rw [not_le] at hlt
  -- each rounded magnitude is at least as near to its own quotient as the other one
  have hnear := roundUnits_nearest hden num (spacing_dvd_roundUnits num' den')
  have hnear' := roundUnits_nearest hden' num' (spacing_dvd_roundUnits num den)
  generalize hr : roundUnits num den = r at *
  generalize hr' : roundUnits num' den' = r' at *
  have hmul := Nat.mul_lt_mul_of_pos_right hlt hden
  have hmul' := Nat.mul_lt_mul_of_pos_right hlt hden'
  have hlow : (r + r') * den ≤ 2 * num := by
    rw [Nat.add_mul]
    omega
  have hhigh : 2 * num' ≤ (r + r') * den' := by
    rw [Nat.add_mul]
    omega
  have heq : num * den' = num' * den := by
    apply le_antisymm h
    have hlow' := Nat.mul_le_mul_right den' hlow
    have hhigh' := Nat.mul_le_mul_right den hhigh
    rw [Nat.mul_right_comm] at hlow'
    linarith
  have hcongr := roundUnits_congr hden hden' heq
  omega

/-- The magnitude in units that a rational number is rounded to. -/
def roundMagnitude (q : ℚ) : Nat := roundUnits (q.num.natAbs * one) q.den

theorem cast_natAbs_num {q : ℚ} (hq : 0 ≤ q) : (q.num.natAbs : ℚ) = q.num := by
  rw [Nat.cast_natAbs, abs_of_nonneg (Rat.num_nonneg.2 hq)]

theorem roundMagnitude_div (num : Nat) {den : Nat} (hden : 0 < den) :
    roundMagnitude (num / (den * one)) = roundUnits num den := by
  have hq := quotient_nonneg num den
  generalize hquotient : (num / (den * one) : ℚ) = q at hq
  apply roundUnits_congr q.den_pos hden
  have hone := one_cast_pos
  have hd : (0 : ℚ) < den := by exact_mod_cast hden
  have hqd : (0 : ℚ) < q.den := by exact_mod_cast q.den_pos
  have hcross : (q.num.natAbs * one * den : ℚ) = num * q.den := by
    rw [cast_natAbs_num hq, mul_assoc, mul_comm (one : ℚ), ← div_eq_div_iff hqd.ne'
      (mul_pos hd hone).ne', Rat.num_div_den, hquotient]
  exact_mod_cast hcross

theorem roundMagnitude_mono {p q : ℚ} (hp : 0 ≤ p) (h : p ≤ q) :
    roundMagnitude p ≤ roundMagnitude q := by
  apply roundUnits_mono p.den_pos q.den_pos
  have hcross : (p.num.natAbs * q.den : ℚ) ≤ q.num.natAbs * p.den := by
    rw [cast_natAbs_num hp, cast_natAbs_num (hp.trans h)]
    exact_mod_cast (Rat.le_iff p q).1 h
  have hnat : p.num.natAbs * q.den ≤ q.num.natAbs * p.den := by exact_mod_cast hcross
  calc p.num.natAbs * one * q.den = p.num.natAbs * q.den * one := Nat.mul_right_comm _ _ _
    _ ≤ q.num.natAbs * p.den * one := Nat.mul_le_mul_right _ hnat
    _ = q.num.natAbs * one * p.den := Nat.mul_right_comm _ _ _

/-- What lies between two numbers that are rounded to one magnitude is rounded to it as well. -/
theorem roundMagnitude_convex {p q r : ℚ} {units : Nat} (hp : 0 ≤ p) (hpq : p ≤ q) (hqr : q ≤ r)
    (hlow : roundMagnitude p = units) (hhigh : roundMagnitude r = units) :
    roundMagnitude q = units :=
  le_antisymm ((roundMagnitude_mono (hp.trans hpq) hqr).trans hhigh.le)
    (hlow.ge.trans (roundMagnitude_mono hp hpq))

theorem roundMagnitude_units {units : Nat} (h : spacing units ∣ units) :
    roundMagnitude (units / one) = units := by
  have hdiv := roundMagnitude_div units Nat.one_pos
  rwa [Nat.cast_one, one_mul, roundUnits_of_onGrid h] at hdiv

/-- No magnitude with 53 binary digits is nearer to a number than the one it is rounded to. -/
theorem abs_roundMagnitude_sub_le {q : ℚ} (hq : 0 ≤ q) {units : Nat} (h : spacing units ∣ units) :
    |(roundMagnitude q / one : ℚ) - q| ≤ |(units / one : ℚ) - q| := by
  have hone := one_cast_pos
  have hquotient : ((q.num.natAbs * one : Nat) / (q.den * one) : ℚ) = q := by
    rw [Nat.cast_mul, mul_div_mul_right _ _ hone.ne', cast_natAbs_num hq, Rat.num_div_den]
  have hnear := roundUnits_nearest q.den_pos (q.num.natAbs * one) h
  have hle := div_le_div_of_nonneg_right (Nat.cast_le (α := ℚ).2 hnear)
    (mul_nonneg (Nat.cast_nonneg q.den) hone.le)
  rwa [← abs_units_sub_quotient _ _ q.den_pos, ← abs_units_sub_quotient _ _ q.den_pos,
    hquotient] at hle

/-- Neighbouring magnitudes are apart by more than the 2^53rd part of the lower one. -/
theorem lt_mul_sub_of_onGrid {a b : Nat} (ha : spacing a ∣ a) (hb : spacing b ∣ b) (h : a < b) :
    a < 2 ^ 53 * (b - a) := by
  have hdvd : spacing a ∣ b - a := by
    refine Nat.dvd_sub ((spacing_dvd_spacing ?_).trans hb) ha
    rcases Nat.eq_zero_or_pos a with rfl | hpos
    · exact Nat.zero_le _
    · exact (Nat.le_log2 (by omega)).2 ((Nat.log2_self_le hpos.ne').trans h.le)
  calc a < 2 ^ 53 * spacing a := by
        have hdiv := div_spacing_lt a
        rwa [significands, Nat.one_shiftLeft, Nat.div_lt_iff_lt_mul (spacing_pos a)] at hdiv
    _ ≤ 2 ^ 53 * (b - a) := Nat.mul_le_mul_left _ (Nat.le_of_dvd (Nat.sub_pos_of_lt h) hdvd)

/-- A number that is closer to a magnitude than half of its 10^16th part is rounded to it. -/
theorem roundMagnitude_of_near {q : ℚ} (hq : 0 ≤ q) {units : Nat} (h : spacing units ∣ units)
    (hunits : 0 < units) (hnear : 2 * 10 ^ 16 * |units / one - q| ≤ units / one) :
    roundMagnitude q = units := by
  have hone := one_cast_pos
  have hr : spacing (roundMagnitude q) ∣ roundMagnitude q := spacing_dvd_roundUnits _ _
  have hle := abs_roundMagnitude_sub_le hq h
  have htri := abs_sub_le (roundMagnitude q / one : ℚ) q (units / one)
  rw [abs_sub_comm q] at htri
  generalize roundMagnitude q = r at *
  have hdist : 10 ^ 16 * |(r : ℚ) - units| ≤ units := by
    have hscale : |(r : ℚ) - units| = |(r / one : ℚ) - units / one| * one := by
      rw [← sub_div, abs_div, abs_of_pos hone, div_mul_cancel₀ _ hone.ne']
    have hle' : (10 : ℚ) ^ 16 * |(r / one : ℚ) - units / one| ≤ units / one := by linarith
    rw [hscale, ← mul_assoc]
    exact (le_div_iff₀ hone).1 hle'
  have hpos : (0 : ℚ) < units := by exact_mod_cast hunits
  -- two magnitudes of doubles are farther apart than this
  rcases Nat.lt_trichotomy r units with hlt | heq | hlt
  · have hgap := lt_mul_sub_of_onGrid hr h hlt
    have hgap' : (r : ℚ) < 2 ^ 53 * (units - r) := by
      rw [← Nat.cast_sub hlt.le]
      exact_mod_cast hgap
    have hlt' : (r : ℚ) < units := by exact_mod_cast hlt
    rw [abs_of_nonpos (by linarith)] at hdist
    linarith
  · exact heq
  · have hgap := lt_mul_sub_of_onGrid h hr hlt
    have hgap' : (units : ℚ) < 2 ^ 53 * (r - units) := by
      rw [← Nat.cast_sub hlt.le]
      exact_mod_cast hgap
    have hlt' : (units : ℚ) < r := by exact_mod_cast hlt
    rw [abs_of_nonneg (by linarith)] at hdist
    linarith

theorem ofUnits_eq_finite_iff {negative : Bool} {n : Nat} (hn : spacing n ∣ n) (x : Finite) :
    ofUnits negative n hn = .finite x ↔ negative = x.negative ∧ n = x.units := by
  obtain ⟨negative', units, onGrid, bounded⟩ := x
  unfold ofUnits
  split
  · simp
  · next hlarge =>
    simp only [reduceCtorEq, false_iff, not_and]
    rintro - rfl
    exact hlarge bounded

theorem roundMagnitude_scaled (c : Nat) (e : Int) : roundMagnitude (scaled (c, e)) =
    roundUnits (c * 10 ^ e.toNat * one) (10 ^ (-e).toNat) := by
  have hrat : scaled (c, e) = ((c * 10 ^ e.toNat * one : Nat) / ((10 ^ (-e).toNat : Nat) * one)) :=
    Decimal.toRat_eq_quotient ⟨false, c, e⟩
  rw [hrat, roundMagnitude_div _ (Decimal.ten_pow_pos _)]

theorem toBinary64_eq_finite_iff (x : Finite) (p : Nat × Int) :
    (Decimal.mk x.negative p.1 p.2).toBinary64 = .finite x ↔
      roundMagnitude (scaled p) = x.units := by
  rw [Decimal.toBinary64_eq_ofQuotient, ofQuotient, ofUnits_eq_finite_iff, ← roundMagnitude_scaled]
  simp

theorem units_eq_iff (x : Finite) (p : Nat × Int) :
    Decimal.units p.1 p.2 = x.units ↔ roundMagnitude (scaled p) = x.units := by
  rw [← toBinary64_eq_finite_iff, Decimal.toBinary64, ofUnits_eq_finite_iff]
  simp

end FormLogic.Binary64
