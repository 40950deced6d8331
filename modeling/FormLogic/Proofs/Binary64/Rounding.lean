import FormLogic.Binary64.Decimal
import Mathlib.Algebra.Order.Field.Rat
import Mathlib.Tactic.FieldSimp
import Mathlib.Tactic.Linarith
import Mathlib.Tactic.Positivity
import Mathlib.Tactic.Ring

namespace FormLogic.Binary64

/-! ### Whole numbers next to a quotient -/

theorem two_mul_halfEven_mul_le (num den : Nat) :
    2 * (halfEven num den * den) ≤ 2 * num + den := by
  have hdiv := Nat.div_add_mod' num den
  unfold halfEven
  split
  · omega
  · split
    · rw [Nat.add_mul]
      omega
    · have hrem : 2 * (num % den) = den := by omega
      rcases Nat.mod_two_eq_zero_or_one (num / den) with h | h <;> rw [h, Nat.add_mul] <;> omega

theorem le_two_mul_halfEven_mul {den : Nat} (hden : 0 < den) (num : Nat) :
    2 * num ≤ 2 * (halfEven num den * den) + den := by
  have hdiv := Nat.div_add_mod' num den
  have hmod := Nat.mod_lt num hden
  unfold halfEven
  split
  · omega
  · split
    · rw [Nat.add_mul]
      omega
    · have hrem : 2 * (num % den) = den := by omega
      rcases Nat.mod_two_eq_zero_or_one (num / den) with h | h <;> rw [h, Nat.add_mul] <;> omega

theorem halfEven_mod_two {num den : Nat} (htie : 2 * (num % den) = den) :
    halfEven num den % 2 = 0 := by
  unfold halfEven
  rw [if_neg (by omega), if_neg (by omega)]
  omega

/-- No whole number is nearer to a quotient than the rounded one. -/
theorem halfEven_nearest {den : Nat} (hden : 0 < den) (num k : Nat) :
    ((halfEven num den * den : Nat) - num : Int).natAbs ≤ ((k * den : Nat) - num : Int).natAbs := by
  have hle := two_mul_halfEven_mul_le num den
  have hge := le_two_mul_halfEven_mul hden num
  rcases Nat.lt_trichotomy k (halfEven num den) with h | rfl | h
  · have hmul : (k + 1) * den ≤ halfEven num den * den := Nat.mul_le_mul_right den h
    rw [Nat.add_mul] at hmul
    omega
  · exact Nat.le_refl _
  · have hmul : (halfEven num den + 1) * den ≤ k * den := Nat.mul_le_mul_right den h
    rw [Nat.add_mul] at hmul
    omega

/-- If another whole number is as near to a quotient, then the rounded one is even. -/
theorem halfEven_mod_two_of_tie {num den k : Nat} (hden : 0 < den) (hk : k ≠ halfEven num den)
    (htie : ((halfEven num den * den : Nat) - num : Int).natAbs =
      ((k * den : Nat) - num : Int).natAbs) : halfEven num den % 2 = 0 := by
  apply halfEven_mod_two
  by_contra hrem
  have hnear : 2 * ((halfEven num den * den : Nat) - num : Int).natAbs < den := by
    have hdiv := Nat.div_add_mod' num den
    have hmod := Nat.mod_lt num hden
    unfold halfEven
    split
    · omega
    · rw [if_pos (by omega), Nat.add_mul]
      omega
  rcases Nat.lt_or_gt_of_ne hk with h | h
  · have hmul : (k + 1) * den ≤ halfEven num den * den := Nat.mul_le_mul_right den h
    rw [Nat.add_mul] at hmul
    omega
  · have hmul : (halfEven num den + 1) * den ≤ k * den := Nat.mul_le_mul_right den h
    rw [Nat.add_mul] at hmul
    omega

theorem halfEven_lt {num den n : Nat} (h : 2 * num + den < 2 * (n * den)) :
    halfEven num den < n := by
  have hle := two_mul_halfEven_mul_le num den
  by_contra hge
  have hmul : n * den ≤ halfEven num den * den := Nat.mul_le_mul_right den (Nat.le_of_not_lt hge)
  omega

/-- From half way below an even number on, a quotient is rounded to it or to more. -/
theorem le_halfEven_of_even {num den n : Nat} (hden : 0 < den) (heven : n % 2 = 0)
    (h : 2 * (n * den) ≤ 2 * num + den) : n ≤ halfEven num den := by
  have hdiv := Nat.div_add_mod' num den
  have hmod := Nat.mod_lt num hden
  have hle := le_halfEven num den
  by_contra hlt
  have hn : n ≤ num / den + 1 := by
    by_contra hn
    have hmul : (num / den + 2) * den ≤ n * den := Nat.mul_le_mul_right den (by omega)
    rw [Nat.add_mul] at hmul
    omega
  obtain rfl : n = num / den + 1 := by omega
  rw [Nat.add_mul] at h
  have htie : 2 * (num % den) = den := by
    unfold halfEven at hlt
    split at hlt
    · omega
    · split at hlt <;> omega
  have := halfEven_mod_two htie
  omega

/-! ### Magnitudes with 53 binary digits -/

theorem spacing_eq (n : Nat) : spacing n = 2 ^ (n.log2 - 52) := Nat.one_shiftLeft _

theorem spacing_pos (n : Nat) : 0 < spacing n := by
  rw [spacing_eq]
  exact Nat.two_pow_pos _

theorem spacing_dvd_spacing {m n : Nat} (h : m.log2 ≤ n.log2) : spacing m ∣ spacing n := by
  rw [spacing_eq, spacing_eq]
  exact Nat.pow_dvd_pow 2 (by omega)

/-- A magnitude that is off the grid of a larger one lies below the whole of its binade. -/
theorem dvd_or_lt_of_onGrid {m : Nat} (hm : spacing m ∣ m) (q : Nat) :
    spacing q ∣ m ∨ (m < 2 ^ 52 * spacing q ∧ 2 ^ 52 * spacing q ≤ q) := by
  rcases Nat.le_total q.log2 m.log2 with h | h
  · exact .inl ((spacing_dvd_spacing h).trans hm)
  · rcases Nat.lt_or_ge q.log2 52 with hq | hq
    · left
      rw [spacing_eq, Nat.sub_eq_zero_of_le (by omega)]
      exact Nat.one_dvd m
    · rcases Nat.eq_or_lt_of_le h with h | h
      · left
        exact (spacing_dvd_spacing (Nat.le_of_eq h.symm)).trans hm
      · right
        have hpow : 2 ^ 52 * spacing q = 2 ^ q.log2 := by
          rw [spacing_eq, ← Nat.pow_add, Nat.add_sub_cancel' hq]
        have hq0 : q ≠ 0 := by
          rintro rfl
          simp at hq
        rw [hpow]
        refine ⟨?_, Nat.log2_self_le hq0⟩
        calc m < 2 ^ (m.log2 + 1) := Nat.lt_log2_self
          _ ≤ 2 ^ q.log2 := Nat.pow_le_pow_right (by omega) h

theorem roundUnits_mul (num den : Nat) :
    roundUnits num den * den =
      halfEven num (den * spacing (num / den)) * (den * spacing (num / den)) := by
  rw [roundUnits, Nat.mul_assoc, Nat.mul_comm (spacing _)]

theorem halfEven_le_significands (num den : Nat) :
    halfEven num (den * spacing (num / den)) ≤ 2 ^ 53 := by
  have hsucc := halfEven_le num (den * spacing (num / den))
  have hdiv := div_spacing_lt (num / den)
  rw [Nat.div_div_eq_div_mul, significands, Nat.one_shiftLeft] at hdiv
  omega

/-- No magnitude with 53 binary digits is nearer to a quotient than the rounded one. -/
theorem roundUnits_nearest {den : Nat} (hden : 0 < den) (num : Nat) {m : Nat}
    (hm : spacing m ∣ m) :
    ((roundUnits num den * den : Nat) - num : Int).natAbs ≤
      ((m * den : Nat) - num : Int).natAbs := by
  have hgrid := halfEven_nearest (Nat.mul_pos hden (spacing_pos (num / den))) num
  rw [roundUnits_mul]
  rcases dvd_or_lt_of_onGrid hm (num / den) with ⟨k, rfl⟩ | ⟨hlow, hhigh⟩
  · have hk := hgrid k
    rwa [show k * (den * spacing (num / den)) = spacing (num / den) * k * den by ring] at hk
  -- the lower end of the binade is on the grid, and nearer than all that is below it
  · refine (hgrid (2 ^ 52)).trans ?_
    have hnum : num / den * den ≤ num := Nat.div_mul_le_self num den
    have hlow := Nat.mul_lt_mul_of_pos_right hlow hden
    have hhigh := Nat.mul_le_mul_right den hhigh
    rw [show 2 ^ 52 * (den * spacing (num / den)) = 2 ^ 52 * spacing (num / den) * den by ring]
    omega

/-- A multiple of the spacing by a significand has that significand, up to a power of two. -/
theorem even_significand {c : Nat} (hc : c ≤ 2 ^ 53) (heven : Even c) (q : Nat) :
    Even (c * spacing q / spacing (c * spacing q)) := by
  rw [spacing_eq q]
  generalize q.log2 - 52 = j
  rcases Nat.eq_or_lt_of_le hc with rfl | hc
  -- 2^53 is no significand: the magnitude is the first one of the next binade
  · rw [← Nat.pow_add, spacing_eq, Nat.log2_two_pow, Nat.pow_div (by omega) (by omega),
      show 53 + j - (53 + j - 52) = 51 + 1 by omega, Nat.pow_succ]
    exact even_two.mul_left _
  · have hdvd : spacing (c * 2 ^ j) ∣ 2 ^ j := by
      rw [spacing_eq]
      apply Nat.pow_dvd_pow
      by_cases h0 : c * 2 ^ j = 0
      · simp [h0]
      · have hlog : (c * 2 ^ j).log2 < 53 + j := by
          rw [Nat.log2_lt h0, Nat.pow_add]
          exact Nat.mul_lt_mul_of_pos_right hc (Nat.two_pow_pos j)
        omega
    rw [Nat.mul_div_assoc c hdvd]
    exact heven.mul_right _

/-- Of two nearest magnitudes the one with the even significand is taken. -/
theorem even_roundUnits_of_tie {den : Nat} (hden : 0 < den) {num m : Nat} (hm : spacing m ∣ m)
    (htie : ((roundUnits num den * den : Nat) - num : Int).natAbs =
      ((m * den : Nat) - num : Int).natAbs) (hne : m ≠ roundUnits num den) :
    Even (roundUnits num den / spacing (roundUnits num den)) := by
  have hstep : 0 < den * spacing (num / den) := Nat.mul_pos hden (spacing_pos (num / den))
  have hgrid := halfEven_nearest hstep num
  have heven : Even (halfEven num (den * spacing (num / den))) := by
    rw [roundUnits_mul] at htie
    rcases dvd_or_lt_of_onGrid hm (num / den) with ⟨k, rfl⟩ | ⟨hlow, hhigh⟩
    · rw [show spacing (num / den) * k * den = k * (den * spacing (num / den)) by ring] at htie
      have hk : k ≠ halfEven num (den * spacing (num / den)) := by
        rintro rfl
        exact hne (by rw [roundUnits, Nat.mul_comm])
      exact Nat.even_iff.2 (halfEven_mod_two_of_tie hstep hk htie)
    · have hk := hgrid (2 ^ 52)
      have hnum : num / den * den ≤ num := Nat.div_mul_le_self num den
      have hlow := Nat.mul_lt_mul_of_pos_right hlow hden
      have hhigh := Nat.mul_le_mul_right den hhigh
      rw [show 2 ^ 52 * (den * spacing (num / den)) = 2 ^ 52 * spacing (num / den) * den by ring]
        at hk
      omega
  exact even_significand (halfEven_le_significands num den) heven (num / den)

/-! ### The range of the doubles -/

theorem log2_eq_of_lt {q bits : Nat} (hle : 2 ^ bits ≤ q) (hlt : q < 2 ^ (bits + 1)) :
    q.log2 = bits := by
  have hq : q ≠ 0 := by
    have := Nat.two_pow_pos bits
    omega
  have := (Nat.le_log2 hq).2 hle
  have := (Nat.log2_lt hq).2 hlt
  omega

theorem spacing_of_lt {q half : Nat} (hle : 2 ^ (half + 53) ≤ q) (hlt : q < 2 ^ (half + 54)) :
    spacing q = 2 * 2 ^ half := by
  rw [spacing_eq, log2_eq_of_lt hle hlt, show half + 53 - 52 = half + 1 by omega, Nat.pow_succ,
    Nat.mul_comm]

/-- Less than half a spacing beyond the greatest magnitude below a power of two, rounding stays
below that power. -/
theorem roundUnits_lt_two_pow {num den half : Nat} (hden : 0 < den)
    (h : num + den * 2 ^ half < den * 2 ^ (half + 54)) :
    roundUnits num den < 2 ^ (half + 54) := by
  have hpow : 2 ^ (half + 54) = 2 ^ 53 * (2 * 2 ^ half) := by ring
  have hq : num / den < 2 ^ (half + 54) := by
    rw [Nat.div_lt_iff_lt_mul hden, Nat.mul_comm]
    exact Nat.lt_of_le_of_lt (Nat.le_add_right _ _) h
  rw [roundUnits]
  rcases Nat.lt_or_ge (num / den) (2 ^ (half + 53)) with hlow | hhigh
  · have hspacing : spacing (num / den) ≤ 2 ^ half := by
      rw [spacing_eq]
      apply Nat.pow_le_pow_right (by omega)
      by_cases h0 : num / den = 0
      · simp [h0]
      · have := (Nat.log2_lt h0).2 hlow
        omega
    have hc := Nat.mul_le_mul (halfEven_le_significands num den) hspacing
    have := Nat.two_pow_pos half
    omega
  · rw [spacing_of_lt hhigh hq, hpow]
    apply Nat.mul_lt_mul_of_pos_right _ (by positivity)
    apply halfEven_lt
    rw [hpow] at h
    linarith

/-- From half a spacing beyond the greatest magnitude below a power of two on, rounding reaches
that power. -/
theorem two_pow_le_roundUnits {num den half : Nat} (hden : 0 < den)
    (h : den * 2 ^ (half + 54) ≤ num + den * 2 ^ half) :
    2 ^ (half + 54) ≤ roundUnits num den := by
  have hpow : 2 ^ (half + 54) = 2 ^ 53 * (2 * 2 ^ half) := by ring
  have hq : 2 ^ (half + 53) ≤ num / den := by
    rw [Nat.le_div_iff_mul_le hden, show 2 ^ (half + 53) = 2 ^ 53 * 2 ^ half by ring]
    rw [hpow] at h
    have := Nat.mul_pos hden (Nat.two_pow_pos half)
    linarith
  rw [roundUnits]
  rcases Nat.lt_or_ge (num / den) (2 ^ (half + 54)) with hlow | hhigh
  · rw [spacing_of_lt hq hlow, hpow]
    apply Nat.mul_le_mul_right
    apply le_halfEven_of_even (by positivity) (by norm_num)
    rw [hpow] at h
    linarith
  -- here rounding stays in the binade of the quotient, which lies beyond the power
  · have hlog : half + 54 ≤ (num / den).log2 := by
      rw [Nat.le_log2 (by have := Nat.two_pow_pos (half + 54); omega)]
      exact hhigh
    have hspacing : 2 ^ 52 * spacing (num / den) = 2 ^ (num / den).log2 := by
      rw [spacing_eq, ← Nat.pow_add, Nat.add_sub_cancel' (by omega)]
    have hc : 2 ^ 52 ≤ halfEven num (den * spacing (num / den)) := by
      apply Nat.le_trans _ (le_halfEven _ _)
      rw [← Nat.div_div_eq_div_mul, Nat.le_div_iff_mul_le (spacing_pos _), hspacing]
      exact Nat.log2_self_le (by have := Nat.two_pow_pos (half + 53); omega)
    calc 2 ^ (half + 54) ≤ 2 ^ (num / den).log2 := Nat.pow_le_pow_right (by omega) hlog
      _ = 2 ^ 52 * spacing (num / den) := hspacing.symm
      _ ≤ _ := Nat.mul_le_mul_right _ hc

/-! ### Rational numbers -/

def signed (negative : Bool) (q : ℚ) : ℚ := if negative then -q else q

def Finite.toRat (x : Finite) : ℚ := signed x.negative (x.units / one)

/-- The significant binary digits of a finite double, as a whole number. -/
def Finite.significand (x : Finite) : Nat := x.units / spacing x.units

/-- Half way from the greatest double to 2^1024. -/
def overflow : ℚ := 2 ^ 1024 - 2 ^ 970

/-- The double that a rational number is rounded to: the nearest one, of two nearest ones that
with the even significand, and an infinity from the point of overflow on. -/
def IsRounded (q : ℚ) : Binary64 → Prop
  | .nan => False
  | .infinite negative => overflow ≤ |q| ∧ negative = decide (q < 0)
  | .finite x => |q| < overflow ∧ ∀ y : Finite, |x.toRat - q| ≤ |y.toRat - q| ∧
      (|x.toRat - q| = |y.toRat - q| → x.toRat = y.toRat ∨ Even x.significand)

theorem overflow_pos : 0 < overflow :=
  sub_pos.2 (pow_lt_pow_right₀ (by norm_num) (by norm_num))

theorem abs_signed (negative : Bool) (q : ℚ) : |signed negative q| = |q| := by
  cases negative <;> simp [signed]

theorem abs_signed_sub_signed (negative : Bool) (p q : ℚ) :
    |signed negative p - signed negative q| = |p - q| := by
  cases negative
  · rfl
  · simp only [signed, if_true]
    rw [← abs_neg]
    ring_nf

theorem abs_signed_sub_of_ne {negative negative' : Bool} (hne : negative' ≠ negative) {p q : ℚ}
    (hp : 0 ≤ p) (hq : 0 ≤ q) : |signed negative' p - signed negative q| = p + q := by
  cases negative <;> cases negative'
  · exact absurd rfl hne
  · simp only [signed, if_true, if_false, Bool.false_eq_true]
    rw [abs_of_nonpos (by linarith)]
    ring
  · simp only [signed, if_true, if_false, Bool.false_eq_true]
    rw [abs_of_nonneg (by linarith)]
    ring
  · exact absurd rfl hne

theorem abs_sub_le_abs_signed_sub (negative negative' : Bool) {p q : ℚ} (hp : 0 ≤ p)
    (hq : 0 ≤ q) : |p - q| ≤ |signed negative' p - signed negative q| := by
  by_cases hs : negative' = negative
  · rw [hs, abs_signed_sub_signed]
  · rw [abs_signed_sub_of_ne hs hp hq, abs_sub_le_iff]
    constructor <;> linarith

theorem one_cast_pos : (0 : ℚ) < (one : Nat) := by exact_mod_cast one_pos

theorem abs_units_sub_quotient (units num : Nat) {den : Nat} (hden : 0 < den) :
    |(units / one : ℚ) - num / (den * one)| =
      (((units * den : Nat) - num : Int).natAbs : ℚ) / (den * one) := by
  have hone := one_cast_pos
  have hd : (0 : ℚ) < den := by exact_mod_cast hden
  rw [Nat.cast_natAbs, Int.cast_abs, ← abs_of_pos (mul_pos hd hone), ← abs_div,
    abs_of_pos (mul_pos hd hone)]
  congr 1
  push_cast
  field_simp

theorem units_div_one_nonneg (units : Nat) : (0 : ℚ) ≤ units / one :=
  div_nonneg (Nat.cast_nonneg units) one_cast_pos.le

theorem quotient_nonneg (num den : Nat) : (0 : ℚ) ≤ num / (den * one) :=
  div_nonneg (Nat.cast_nonneg num) (mul_nonneg (Nat.cast_nonneg den) one_cast_pos.le)

theorem one_cast_eq : ((one : Nat) : ℚ) = 2 ^ unitBits := by
  rw [one, Nat.one_shiftLeft, Nat.cast_pow, Nat.cast_ofNat]

theorem sub_two_pow_mul {a b c d e : Nat} (hd : a + c = d) (he : b + c = e) (q : ℚ) :
    ((2 : ℚ) ^ a - 2 ^ b) * (q * 2 ^ c) = q * 2 ^ d - q * 2 ^ e := by
  rw [← hd, ← he]
  ring

theorem cast_add_mul_two_pow_lt (num den a b : Nat) :
    (num : ℚ) < den * 2 ^ b - den * 2 ^ a ↔ num + den * 2 ^ a < den * 2 ^ b := by
  rw [lt_sub_iff_add_lt]
  exact_mod_cast Iff.rfl

/-- The overflow of a quotient of units, without rational numbers. -/
theorem quotient_lt_overflow_iff (num : Nat) {den : Nat} (hden : 0 < den) :
    (num / (den * one) : ℚ) < overflow ↔ num + den * 2 ^ 2044 < den * 2 ^ (2044 + 54) := by
  have hd : (0 : ℚ) < den := by exact_mod_cast hden
  have hover : overflow * (den * one) = den * 2 ^ (2044 + 54) - den * 2 ^ 2044 := by
    rw [overflow, one_cast_eq, sub_two_pow_mul rfl rfl]
    rfl
  rw [div_lt_iff₀ (mul_pos hd one_cast_pos), hover]
  exact cast_add_mul_two_pow_lt num den 2044 (2044 + 54)

theorem limit_eq {bits : Nat} (h : bits = rangeBits) : limit = 2 ^ bits := by
  rw [h, limit, Nat.one_shiftLeft]

theorem exists_of_isFinite {x : Binary64} (h : x.isFinite = true) :
    ∃ y : Finite, x = .finite y := by
  cases x with
  | finite y => exact ⟨y, rfl⟩
  | _ => cases h

theorem isFinite_ofUnits (negative : Bool) (units : Nat) (onGrid : spacing units ∣ units) :
    (ofUnits negative units onGrid).isFinite = true ↔ units < limit := by
  unfold ofUnits
  split
  · next h => exact ⟨fun _ => h, fun _ => rfl⟩
  · next h => exact ⟨fun hf => absurd hf (by simp [isFinite]), fun hlt => absurd hlt h⟩

/-- A quotient is rounded to a finite double below the point of overflow, and only there. -/
theorem isFinite_ofQuotient_iff (negative : Bool) (num : Nat) {den : Nat} (hden : 0 < den) :
    (ofQuotient negative num den).isFinite = true ↔ (num / (den * one) : ℚ) < overflow := by
  rw [ofQuotient, isFinite_ofUnits, @limit_eq (2044 + 54) rfl, quotient_lt_overflow_iff num hden]
  refine ⟨fun h => ?_, roundUnits_lt_two_pow hden⟩
  by_contra hge
  exact absurd h (Nat.not_lt.2 (two_pow_le_roundUnits hden (Nat.not_lt.1 hge)))

theorem abs_roundUnits_sub_le_units (num : Nat) {den : Nat} (hden : 0 < den) (y : Finite) :
    |(roundUnits num den / one : ℚ) - num / (den * one)| ≤
      |(y.units / one : ℚ) - num / (den * one)| := by
  rw [abs_units_sub_quotient _ _ hden, abs_units_sub_quotient _ _ hden]
  apply div_le_div_of_nonneg_right _ (mul_nonneg (Nat.cast_nonneg den) one_cast_pos.le)
  exact Nat.cast_le.2 (roundUnits_nearest hden num y.onGrid)

/-- No finite double is nearer to a quotient than the rounded magnitude with the same sign. -/
theorem abs_roundUnits_sub_le (negative : Bool) (num : Nat) {den : Nat} (hden : 0 < den)
    (y : Finite) :
    |(roundUnits num den / one : ℚ) - num / (den * one)| ≤
      |y.toRat - signed negative (num / (den * one))| :=
  (abs_roundUnits_sub_le_units num hden y).trans
    (abs_sub_le_abs_signed_sub _ _ (units_div_one_nonneg _) (quotient_nonneg _ _))

theorem roundUnits_zero (den : Nat) : roundUnits 0 den = 0 := by
  simp [roundUnits, halfEven]

theorem even_significand_of_tie (negative : Bool) (num : Nat) {den : Nat} (hden : 0 < den)
    (y : Finite)
    (htie : |(roundUnits num den / one : ℚ) - num / (den * one)| =
      |y.toRat - signed negative (num / (den * one))|) :
    signed negative (roundUnits num den / one) = y.toRat ∨
      Even (roundUnits num den / spacing (roundUnits num den)) := by
  have hscale : (0 : ℚ) < den * one := mul_pos (by exact_mod_cast hden) one_cast_pos
  have hle := abs_roundUnits_sub_le_units num hden y
  have hge := abs_sub_le_abs_signed_sub negative y.negative (units_div_one_nonneg y.units)
    (quotient_nonneg num den)
  have heq := le_antisymm hle (hge.trans htie.symm.le)
  by_cases hm : y.units = roundUnits num den
  · left
    by_cases hs : y.negative = negative
    · rw [Finite.toRat, hs, hm]
    -- With the other sign the distance is a sum, so one of the two magnitudes is zero.
    · rw [Finite.toRat, abs_signed_sub_of_ne hs (units_div_one_nonneg _) (quotient_nonneg _ _),
        hm] at htie
      have hzero : roundUnits num den = 0 := by
        rcases abs_choice ((roundUnits num den / one : ℚ) - num / (den * one)) with h | h
        · have hw : (num / (den * one) : ℚ) = 0 := by linarith
          rcases div_eq_zero_iff.1 hw with h0 | h0
          · rw [Nat.cast_eq_zero.1 h0, roundUnits_zero]
          · exact absurd h0 hscale.ne'
        · have hr : (roundUnits num den / one : ℚ) = 0 := by linarith
          rcases div_eq_zero_iff.1 hr with h0 | h0
          · exact Nat.cast_eq_zero.1 h0
          · exact absurd h0 one_cast_pos.ne'
      rw [Finite.toRat, hm, hzero]
      simp [signed]
  · right
    rw [abs_units_sub_quotient _ _ hden, abs_units_sub_quotient _ _ hden,
      div_left_inj' hscale.ne'] at heq
    exact even_roundUnits_of_tie hden y.onGrid (Nat.cast_injective heq) hm

/-- The double of a quotient with a sign is the one that its exact value is rounded to. -/
theorem ofQuotient_isRounded (negative : Bool) (num : Nat) {den : Nat} (hden : 0 < den) :
    IsRounded (signed negative (num / (den * one))) (ofQuotient negative num den) := by
  have hfinite := isFinite_ofQuotient_iff negative num hden
  have hquotient := quotient_nonneg num den
  unfold ofQuotient ofUnits at hfinite ⊢
  split at hfinite
  · next hlt =>
    rw [dif_pos hlt, IsRounded, abs_signed, abs_of_nonneg hquotient]
    refine ⟨hfinite.1 rfl, fun y => ?_⟩
    rw [Finite.toRat, abs_signed_sub_signed]
    exact ⟨abs_roundUnits_sub_le negative num hden y,
      even_significand_of_tie negative num hden y⟩
  · next hge =>
    rw [dif_neg hge, IsRounded, abs_signed, abs_of_nonneg hquotient]
    have hover : overflow ≤ (num / (den * one) : ℚ) := by
      rw [← not_lt, ← hfinite]
      simp [isFinite]
    refine ⟨hover, ?_⟩
    have hpos : (0 : ℚ) < num / (den * one) := overflow_pos.trans_le hover
    cases negative
    · simp [signed, hquotient]
    · simp [signed, hpos]

end FormLogic.Binary64
