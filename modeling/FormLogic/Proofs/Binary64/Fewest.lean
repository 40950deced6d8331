import FormLogic.Proofs.Binary64.Magnitude
import Mathlib.Data.Nat.Prime.Basic

namespace FormLogic.Binary64

/-! ### Digits -/

def digitCount (c : Nat) : Nat := (Nat.toDigits 10 c).length

theorem digitCount_pos (c : Nat) : 0 < digitCount c := Nat.length_toDigits_pos

theorem digitCount_le_iff {c k : Nat} (hk : 0 < k) : digitCount c ≤ k ↔ c < 10 ^ k :=
  Nat.length_toDigits_le_iff (by decide) hk

theorem lt_ten_pow_digitCount (c : Nat) : c < 10 ^ digitCount c :=
  (digitCount_le_iff (digitCount_pos c)).1 le_rfl

theorem ten_pow_le_of_le_digitCount {c k : Nat} (hc : 0 < c) (hk : k < digitCount c) :
    10 ^ k ≤ c := by
  rcases Nat.eq_zero_or_pos k with rfl | hpos
  · exact hc
  · rw [← not_lt, ← digitCount_le_iff hpos]
    omega

theorem digitCount_eq {c k : Nat} (hlow : 10 ^ k ≤ c) (hhigh : c < 10 ^ (k + 1)) :
    digitCount c = k + 1 := by
  have hle := (digitCount_le_iff (Nat.succ_pos k)).2 hhigh
  have hpow := hlow.trans_lt (lt_ten_pow_digitCount c)
  have hlt := (Nat.pow_lt_pow_iff_right (by norm_num)).1 hpow
  omega

/-- Where the point of a decimal stands in `0.d₁d₂… · 10 ^ point`. -/
def point (a : Nat × Int) : Int := a.2 + digitCount a.1

theorem ten_ne_zero : (10 : ℚ) ≠ 0 := by norm_num

theorem ten_zpow_pos (e : Int) : (0 : ℚ) < 10 ^ e := zpow_pos (by norm_num) e

theorem ten_zpow_lt_iff {d e : Int} : (10 : ℚ) ^ d < 10 ^ e ↔ d < e :=
  zpow_lt_zpow_iff_right₀ (by norm_num)

theorem ten_zpow_le_iff {d e : Int} : (10 : ℚ) ^ d ≤ 10 ^ e ↔ d ≤ e :=
  zpow_le_zpow_iff_right₀ (by norm_num)

theorem scaled_nonneg (a : Nat × Int) : 0 ≤ scaled a :=
  mul_nonneg (Nat.cast_nonneg _) (ten_zpow_pos _).le

theorem scaled_le_iff {c c' : Nat} {e : Int} : scaled (c, e) ≤ scaled (c', e) ↔ c ≤ c' := by
  simp only [scaled]
  rw [mul_le_mul_iff_of_pos_right (ten_zpow_pos e), Nat.cast_le]

theorem scaled_inj {c c' : Nat} {e : Int} : scaled (c, e) = scaled (c', e) ↔ c = c' := by
  rw [le_antisymm_iff, le_antisymm_iff, scaled_le_iff, scaled_le_iff]

theorem scaled_succ (c : Nat) (e : Int) : scaled (c + 1, e) = scaled (c, e) + 10 ^ e := by
  simp only [scaled]
  push_cast
  ring

theorem scaled_mul_ten_pow (c k : Nat) (e : Int) : scaled (c * 10 ^ k, e) = scaled (c, e + k) := by
  simp only [scaled]
  rw [zpow_add₀ ten_ne_zero, zpow_natCast]
  push_cast
  ring

theorem scaled_ten_pow (k : Nat) (e : Int) : scaled (10 ^ k, e) = 10 ^ (e + k) := by
  rw [← one_mul (10 ^ k), scaled_mul_ten_pow, scaled, Nat.cast_one, one_mul]

theorem scaled_lt (a : Nat × Int) : scaled a < 10 ^ point a := by
  rw [point, ← scaled_ten_pow, ← not_le, scaled_le_iff, not_le]
  exact lt_ten_pow_digitCount a.1

theorem le_scaled {a : Nat × Int} (ha : 0 < a.1) : 10 ^ (point a - 1) ≤ scaled a := by
  have hpos := digitCount_pos a.1
  have hpoint : point a - 1 = a.2 + (digitCount a.1 - 1 : Nat) := by
    rw [point]
    omega
  rw [hpoint, ← scaled_ten_pow, scaled_le_iff]
  exact ten_pow_le_of_le_digitCount ha (by omega)

theorem point_eq_of_scaled_eq {a b : Nat × Int} (ha : 0 < a.1) (hb : 0 < b.1)
    (h : scaled a = scaled b) : point a = point b := by
  have hab := ten_zpow_lt_iff.1 ((le_scaled ha).trans_lt (h ▸ scaled_lt b))
  have hba := ten_zpow_lt_iff.1 ((le_scaled hb).trans_lt (h ▸ scaled_lt a))
  omega

/-- Decimals with one value and as many digits are the same. -/
theorem eq_of_scaled_eq {a b : Nat × Int} (ha : 0 < a.1) (hb : 0 < b.1)
    (hcount : digitCount a.1 = digitCount b.1) (h : scaled a = scaled b) : a = b := by
  have hpoint := point_eq_of_scaled_eq ha hb h
  rw [point, point, hcount, add_left_inj] at hpoint
  obtain ⟨c, e⟩ := a
  obtain ⟨c', e'⟩ := b
  obtain rfl : e = e' := hpoint
  rw [scaled_inj.1 h]

/-! ### The specification -/

/-- The first of two decimals is to be preferred: it has fewer digits, or is nearer to a magnitude
with as many digits, or is even where the other one is odd and as near. -/
def Preferred (v : ℚ) (a b : Nat × Int) : Prop :=
  digitCount a.1 < digitCount b.1 ∨
    (digitCount a.1 = digitCount b.1 ∧
      (|scaled a - v| < |scaled b - v| ∨
        (|scaled a - v| = |scaled b - v| ∧ Even a.1 ∧ Odd b.1)))

def Finite.IsReadFrom (x : Finite) (a : Nat × Int) : Prop :=
  0 < a.1 ∧ (Decimal.mk x.negative a.1 a.2).toBinary64 = .finite x

/-- The decimal that is preferred to all others that are read as a double. -/
structure IsShortest (x : Finite) (a : Nat × Int) : Prop where
  isReadFrom : x.IsReadFrom a
  preferred : ∀ b, x.IsReadFrom b → b ≠ a → Preferred |x.toRat| a b

theorem Preferred.asymm {v : ℚ} {a b : Nat × Int} (h : Preferred v a b) : ¬Preferred v b a := by
  intro h'
  rcases h with hcount | ⟨hcount, h⟩
  · rcases h' with hcount' | ⟨hcount', -⟩ <;> omega
  · rcases h' with hcount' | ⟨-, h'⟩
    · omega
    · rcases h with hdist | ⟨hdist, heven, -⟩
      · rcases h' with hdist' | ⟨hdist', -⟩ <;> linarith
      · rcases h' with hdist' | ⟨-, -, hodd⟩
        · linarith
        · exact Nat.not_even_iff_odd.2 hodd heven

theorem IsShortest.unique {x : Finite} {a b : Nat × Int} (ha : IsShortest x a)
    (hb : IsShortest x b) : a = b := by
  by_contra hne
  exact (ha.preferred b hb.isReadFrom (Ne.symm hne)).asymm (hb.preferred a ha.isReadFrom hne)

/-! ### Neighbours on a grid -/

/-- The two points next to a magnitude on a grid of decimals. The first one is no farther away,
and even if both are as near. -/
structure AreNeighbours (v : ℚ) (e : Int) (c c' : Nat) : Prop where
  around : ∃ below, scaled (below, e) ≤ v ∧ v < scaled (below + 1, e) ∧
    (c = below ∧ c' = below + 1 ∨ c = below + 1 ∧ c' = below)
  near : |scaled (c, e) - v| ≤ |scaled (c', e) - v|
  even : |scaled (c, e) - v| = |scaled (c', e) - v| → Even c

section
variable {v t : ℚ} {e : Int} {below : Nat} (hv : v = scaled (below, e) + t * 10 ^ e)
include hv

theorem abs_below_sub (ht : 0 ≤ t) : |scaled (below, e) - v| = t * 10 ^ e := by
  have hnonneg := mul_nonneg ht (ten_zpow_pos e).le
  rw [hv, abs_of_nonpos (by linarith)]
  ring

theorem abs_above_sub (ht : t ≤ 1) : |scaled (below + 1, e) - v| = (1 - t) * 10 ^ e := by
  have hnonneg := mul_nonneg (sub_nonneg.2 ht) (ten_zpow_pos e).le
  rw [scaled_succ, hv, abs_of_nonneg (by linarith)]
  ring

theorem around_below (ht : 0 ≤ t) (ht' : t < 1) :
    scaled (below, e) ≤ v ∧ v < scaled (below + 1, e) := by
  have hten := ten_zpow_pos e
  have hlow := mul_nonneg ht hten.le
  have hhigh := mul_lt_mul_of_pos_right ht' hten
  rw [scaled_succ, hv]
  constructor <;> linarith

theorem areNeighbours_below (ht : 0 ≤ t) (ht' : t ≤ 1 / 2) (heven : t = 1 / 2 → Even below) :
    AreNeighbours v e below (below + 1) := by
  have hten := ten_zpow_pos e
  have hlow := abs_below_sub hv ht
  have hhigh := abs_above_sub hv (by linarith)
  obtain ⟨hle, hlt⟩ := around_below hv ht (by linarith)
  refine ⟨⟨below, hle, hlt, .inl ⟨rfl, rfl⟩⟩, ?_, fun htie => heven ?_⟩
  · rw [hlow, hhigh, mul_le_mul_iff_of_pos_right hten]
    linarith
  · rw [hlow, hhigh] at htie
    have := mul_right_cancel₀ hten.ne' htie
    linarith

theorem areNeighbours_above (ht : 1 / 2 ≤ t) (ht' : t < 1) (hodd : t = 1 / 2 → ¬Even below) :
    AreNeighbours v e (below + 1) below := by
  have hten := ten_zpow_pos e
  have hlow := abs_below_sub hv (by linarith)
  have hhigh := abs_above_sub hv ht'.le
  obtain ⟨hle, hlt⟩ := around_below hv (by linarith) ht'
  refine ⟨⟨below, hle, hlt, .inr ⟨rfl, rfl⟩⟩, ?_, fun htie => Nat.even_add_one.2 (hodd ?_)⟩
  · rw [hlow, hhigh, mul_le_mul_iff_of_pos_right hten]
    linarith
  · rw [hlow, hhigh] at htie
    have := mul_right_cancel₀ hten.ne' htie
    linarith

end

/-- A magnitude lies on a grid, or a part of a step above a point of it. -/
theorem quotient_eq_scaled_add (num : Nat) {den : Nat} (hden : 0 < den) (e : Int) :
    (num / den : ℚ) * 10 ^ e =
      scaled (num / den, e) + ((num % den : Nat) / den : ℚ) * 10 ^ e := by
  have hd : (den : ℚ) ≠ 0 := by exact_mod_cast hden.ne'
  have hdiv : (num : ℚ) = (num / den : Nat) * den + (num % den : Nat) := by
    exact_mod_cast (Nat.div_add_mod' num den).symm
  rw [scaled, ← add_mul]
  congr 1
  rw [div_eq_iff hd, add_mul, div_mul_cancel₀ _ hd]
  exact hdiv

theorem units_div_one_eq (units : Nat) (e : Int) : (units / one : ℚ) =
    ((units * 10 ^ (-e).toNat : Nat) / (one * 10 ^ e.toNat : Nat) : ℚ) * 10 ^ e := by
  have hone := one_cast_pos
  push_cast
  rcases Int.le_total 0 e with h | h
  · obtain ⟨k, rfl⟩ := Int.eq_ofNat_of_zero_le h
    rw [Int.toNat_natCast, Int.toNat_eq_zero.2 (by omega), zpow_natCast]
    field_simp
  · obtain ⟨k, hk⟩ := Int.eq_ofNat_of_zero_le (Int.neg_nonneg_of_nonpos h)
    rw [hk, Int.toNat_natCast, Int.toNat_eq_zero.2 h, show e = -(k : Int) by omega, zpow_neg,
      zpow_natCast]
    field_simp

theorem exists_neighbours (units : Nat) (e : Int) :
    ∃ c c', neighbours units e = [c, c'] ∧ AreNeighbours (units / one) e c c' := by
  have hden : 0 < one * 10 ^ e.toNat := Nat.mul_pos one_pos (Decimal.ten_pow_pos _)
  have hv := (units_div_one_eq units e).trans (quotient_eq_scaled_add _ hden e)
  have hdef : neighbours units e =
      let num := units * 10 ^ (-e).toNat
      let den := one * 10 ^ e.toNat
      if 2 * (num % den) < den ∨ (2 * (num % den) = den ∧ num / den % 2 = 0) then
        [num / den, num / den + 1]
      else [num / den + 1, num / den] := rfl
  rw [hdef]
  -- what is left of the division tells which neighbour is nearer
  generalize units * 10 ^ (-e).toNat = num at *
  generalize one * 10 ^ e.toNat = den at *
  have hd : (0 : ℚ) < den := by exact_mod_cast hden
  have hrest : (0 : ℚ) ≤ (num % den : Nat) / den := div_nonneg (Nat.cast_nonneg _) hd.le
  have hrest' : ((num % den : Nat) / den : ℚ) < 1 := by
    rw [div_lt_one hd]
    exact_mod_cast Nat.mod_lt num hden
  have hle : ((num % den : Nat) / den : ℚ) ≤ 1 / 2 ↔ 2 * (num % den) ≤ den := by
    rw [div_le_div_iff₀ hd two_pos, one_mul, mul_comm]
    exact_mod_cast Iff.rfl
  have hge : (1 / 2 : ℚ) ≤ (num % den : Nat) / den ↔ den ≤ 2 * (num % den) := by
    rw [div_le_div_iff₀ two_pos hd, one_mul, mul_comm _ (2 : ℚ)]
    exact_mod_cast Iff.rfl
  dsimp only
  split
  · next h =>
    refine ⟨_, _, rfl, areNeighbours_below hv hrest (hle.2 (by omega)) fun htie => ?_⟩
    have := hge.1 htie.ge
    rw [Nat.even_iff]
    omega
  · next h =>
    refine ⟨_, _, rfl, areNeighbours_above hv (hge.2 (by omega)) hrest' fun htie => ?_⟩
    have := hle.1 htie.le
    rw [Nat.even_iff]
    omega

/-- The nearer neighbour is at most half a step away. -/
theorem AreNeighbours.two_mul_abs_le {v : ℚ} {e : Int} {c c' : Nat} (h : AreNeighbours v e c c') :
    2 * |scaled (c, e) - v| ≤ 10 ^ e := by
  obtain ⟨below, hle, hlt, hcases⟩ := h.around
  have hnear := h.near
  have hstep := scaled_succ below e
  have hlow : |scaled (below, e) - v| = v - scaled (below, e) := by
    rw [abs_of_nonpos (by linarith)]
    ring
  have hhigh : |scaled (below + 1, e) - v| = scaled (below + 1, e) - v :=
    abs_of_nonneg (by linarith)
  rcases hcases with ⟨rfl, rfl⟩ | ⟨rfl, rfl⟩ <;> rw [hlow, hhigh] at hnear
  · linarith
  · linarith

/-! ### The search -/

theorem coefficientAt?_eq_some {x : Finite} {e : Int} {c c' found : Nat}
    (hlist : neighbours x.units e = [c, c']) (h : coefficientAt? x.units e = some found) :
    roundMagnitude (scaled (found, e)) = x.units ∧
      (found = c ∨ found = c' ∧ roundMagnitude (scaled (c, e)) ≠ x.units) := by
  have hread := units_eq_iff x (c, e)
  have hread' := units_eq_iff x (c', e)
  dsimp only at hread hread'
  rw [coefficientAt?, hlist] at h
  by_cases hc : Decimal.units c e = x.units
  · obtain rfl : c = found := by simpa [hc] using h
    exact ⟨hread.1 hc, .inl rfl⟩
  · by_cases hc' : Decimal.units c' e = x.units
    · obtain rfl : c' = found := by simpa [hc, hc'] using h
      exact ⟨hread'.1 hc', .inr ⟨rfl, fun hround => hc (hread.2 hround)⟩⟩
    · simp [hc, hc'] at h

theorem coefficientAt?_ne_none {x : Finite} {e : Int} {c c' d : Nat}
    (hlist : neighbours x.units e = [c, c']) (hd : d = c ∨ d = c')
    (hread : roundMagnitude (scaled (d, e)) = x.units) : coefficientAt? x.units e ≠ none := by
  have hunits : Decimal.units d e = x.units := (units_eq_iff x (d, e)).2 hread
  rw [coefficientAt?, hlist, ne_eq, List.find?_eq_none]
  intro hnone
  exact hnone d (by simpa using hd) (by simpa using hunits)

theorem firstGrid_map_range' {units : Nat} (f : Nat → Int) {k c : Nat}
    (hc : coefficientAt? units (f k) = some c) {start n : Nat} (hstart : start ≤ k)
    (hk : k < start + n) (hnone : ∀ j, start ≤ j → j < k → coefficientAt? units (f j) = none) :
    firstGrid units ((List.range' start n).map f) = (c, f k) := by
  induction n generalizing start with
  | zero => omega
  | succ n ih =>
    rw [List.range'_succ, List.map_cons, firstGrid]
    rcases Nat.eq_or_lt_of_le hstart with rfl | hlt
    · rw [hc]
    · rw [hnone start le_rfl hlt]
      exact ih hlt (by omega) fun j hj => hnone j (by omega)

theorem exists_dropZeros (c : Nat) (e : Int) : ∃ k : Nat,
    (dropZeros c e).2 = e + k ∧ c = (dropZeros c e).1 * 10 ^ k ∧
      (c ≠ 0 → (dropZeros c e).1 % 10 ≠ 0) := by
  fun_induction dropZeros c e with
  | case1 c e h ih =>
    obtain ⟨k, hexponent, hc, hzero⟩ := ih
    refine ⟨k + 1, by rw [hexponent]; omega, ?_, fun _ => hzero (by omega)⟩
    rw [Nat.pow_succ, ← Nat.mul_assoc, ← hc]
    omega
  | case2 c e h => exact ⟨0, by simp, by simp, by omega⟩

/-- The digits of the whole part of a scaled magnitude tell where its point stands. -/
theorem ten_zpow_digitCount_div {units k : Nat} (h : one ≤ units * Nat.pow 10 k) :
    10 ^ ((digitCount (units * Nat.pow 10 k / one) : Int) - k - 1) ≤ (units / one : ℚ) ∧
      (units / one : ℚ) < 10 ^ ((digitCount (units * Nat.pow 10 k / one) : Int) - k) := by
  have hone := one_cast_pos
  rw [Nat.pow_eq] at h ⊢
  have hn : 0 < units * 10 ^ k / one := Nat.div_pos h one_pos
  have hlow : units * 10 ^ k / one * one ≤ units * 10 ^ k := Nat.div_mul_le_self _ _
  have hhigh : units * 10 ^ k < (units * 10 ^ k / one + 1) * one := by
    rw [Nat.mul_comm (_ + 1)]
    exact Nat.lt_mul_div_succ _ one_pos
  generalize units * 10 ^ k / one = n at *
  have hscaled : scaled (n, -k) ≤ units / one := by
    rw [scaled, zpow_neg, zpow_natCast, ← div_eq_mul_inv, div_le_div_iff₀ (by positivity) hone]
    exact_mod_cast hlow
  have hscaled' : (units / one : ℚ) < scaled (n + 1, -k) := by
    rw [scaled, zpow_neg, zpow_natCast, ← div_eq_mul_inv, div_lt_div_iff₀ hone (by positivity)]
    exact_mod_cast hhigh
  have hpoint : point (n, -(k : Int)) = (digitCount n : Int) - k := neg_add_eq_sub _ _
  rw [← hpoint]
  refine ⟨(le_scaled hn).trans hscaled, hscaled'.trans_le ?_⟩
  rw [point, ← scaled_ten_pow, scaled_le_iff]
  exact lt_ten_pow_digitCount n

theorem one_le_ten_pow {k : Nat} (h : unitBits ≤ 3 * k) : one ≤ Nat.pow 10 k := by
  rw [one_eq, Nat.pow_eq]
  exact (Nat.pow_le_pow_right (by norm_num) h).trans (Decimal.two_pow_le_ten_pow k)

/-- The position of the point is that of the magnitude. -/
theorem decimalPoint_spec {units : Nat} (h : 0 < units) :
    10 ^ (decimalPoint units - 1) ≤ (units / one : ℚ) ∧
      (units / one : ℚ) < 10 ^ decimalPoint units := by
  have hone : one ≤ units * Nat.pow 10 400 :=
    (one_le_ten_pow (by decide)).trans (Nat.le_mul_of_pos_left (Nat.pow 10 400) h)
  have hspec := ten_zpow_digitCount_div hone
  rwa [Nat.cast_ofNat] at hspec

section
variable {x : Finite} {k : Nat}

/-- The grid of the decimals with some digits around a magnitude. -/
def gridExponent (x : Finite) (k : Nat) : Int := decimalPoint x.units - k

theorem ten_pow_le_below {below j : Nat} (hx : 0 < x.units)
    (hlt : (x.units / one : ℚ) < scaled (below + 1, gridExponent x (j + 1))) : 10 ^ j ≤ below := by
  have hpow : 10 ^ j < below + 1 := by
    rw [← not_le, ← @scaled_le_iff _ _ (gridExponent x (j + 1)), not_le]
    refine lt_of_le_of_lt ?_ hlt
    rw [scaled_ten_pow, gridExponent]
    refine le_of_eq_of_le ?_ (decimalPoint_spec hx).1
    congr 1
    push_cast
    ring
  omega

theorem below_lt_ten_pow {below : Nat} (hx : 0 < x.units)
    (hle : scaled (below, gridExponent x k) ≤ x.units / one) : below < 10 ^ k := by
  rw [← not_le, ← @scaled_le_iff _ _ (gridExponent x k), not_le]
  refine hle.trans_lt ((decimalPoint_spec hx).2.trans_le ?_)
  rw [scaled_ten_pow, gridExponent, Int.sub_add_cancel]

/-- No decimal with as many digits as a grid lies between two of its points next to the
magnitude. -/
theorem scaled_le_or_le {below : Nat} (hx : 0 < x.units) (hk : 0 < k)
    (hlt : (x.units / one : ℚ) < scaled (below + 1, gridExponent x k))
    {b : Nat × Int} (hb : digitCount b.1 ≤ k) :
    scaled b ≤ scaled (below, gridExponent x k) ∨
      scaled (below + 1, gridExponent x k) ≤ scaled b := by
  obtain ⟨c, e⟩ := b
  rcases le_or_gt (gridExponent x k) e with he | he
  -- the decimal is a point of the grid itself
  · obtain ⟨j, hj⟩ := Int.eq_ofNat_of_zero_le (Int.sub_nonneg_of_le he)
    have hpoint : scaled (c, e) = scaled (c * 10 ^ j, gridExponent x k) := by
      rw [scaled_mul_ten_pow]
      congr 2
      omega
    rw [hpoint, scaled_le_iff, scaled_le_iff]
    omega
  -- the decimal is too small
  · left
    obtain ⟨j, rfl⟩ : ∃ j, k = j + 1 := ⟨k - 1, by omega⟩
    refine (scaled_lt (c, e)).le.trans ?_
    have hpoint : point (c, e) ≤ gridExponent x (j + 1) + j := by
      simp only [point] at hb ⊢
      omega
    calc (10 : ℚ) ^ point (c, e) ≤ 10 ^ (gridExponent x (j + 1) + j) := ten_zpow_le_iff.2 hpoint
      _ = scaled (10 ^ j, gridExponent x (j + 1)) := (scaled_ten_pow j _).symm
      _ ≤ scaled (below, gridExponent x (j + 1)) := scaled_le_iff.2 (ten_pow_le_below hx hlt)

/-- A magnitude is read from one of its neighbours on the grid of seventeen digits. -/
theorem coefficientAt?_seventeen (hx : 0 < x.units) :
    coefficientAt? x.units (gridExponent x 17) ≠ none := by
  obtain ⟨c, c', hlist, hn⟩ := exists_neighbours x.units (gridExponent x 17)
  refine coefficientAt?_ne_none hlist (.inl rfl) ?_
  apply roundMagnitude_of_near (scaled_nonneg _) x.onGrid hx
  have hstep : (10 : ℚ) ^ 16 * 10 ^ gridExponent x 17 = 10 ^ (decimalPoint x.units - 1) := by
    rw [← zpow_natCast, ← zpow_add₀ ten_ne_zero]
    congr 1
    rw [gridExponent]
    omega
  have hlow := (decimalPoint_spec hx).1
  have hnear := hn.two_mul_abs_le
  rw [abs_sub_comm]
  linarith

/-- If a magnitude is read from a decimal with the digits of a grid, then also from its neighbour
on that side, which is no farther away. -/
theorem exists_neighbour_of_reads (hx : 0 < x.units) (hk : 0 < k) {c c' : Nat}
    (hn : AreNeighbours (x.units / one) (gridExponent x k) c c') {b : Nat × Int}
    (hb : digitCount b.1 ≤ k) (hread : roundMagnitude (scaled b) = x.units) :
    ∃ d, (d = c ∨ d = c') ∧ roundMagnitude (scaled (d, gridExponent x k)) = x.units ∧
      |scaled (d, gridExponent x k) - x.units / one| ≤ |scaled b - x.units / one| ∧
      (|scaled (d, gridExponent x k) - x.units / one| = |scaled b - x.units / one| →
        scaled b = scaled (d, gridExponent x k)) := by
  obtain ⟨below, hle, hlt, hcases⟩ := hn.around
  have hunits := roundMagnitude_units x.onGrid
  rcases scaled_le_or_le hx hk hlt hb with hside | hside
  · refine ⟨below, by tauto, roundMagnitude_convex (scaled_nonneg b) hside hle hread hunits, ?_⟩
    rw [abs_of_nonpos (by linarith), abs_of_nonpos (by linarith)]
    exact ⟨by linarith, fun h => by linarith⟩
  · refine ⟨below + 1, by tauto,
      roundMagnitude_convex (units_div_one_nonneg _) hlt.le hside hunits hread, ?_⟩
    rw [abs_of_nonneg (by linarith), abs_of_nonneg (by linarith)]
    exact ⟨by linarith, fun h => by linarith⟩

/-- On every grid with the digits of a decimal that is read there is a coefficient. -/
theorem coefficientAt?_of_reads (hx : 0 < x.units) {b : Nat × Int}
    (hread : roundMagnitude (scaled b) = x.units) :
    coefficientAt? x.units (gridExponent x (digitCount b.1)) ≠ none := by
  obtain ⟨c, c', hlist, hn⟩ := exists_neighbours x.units (gridExponent x (digitCount b.1))
  obtain ⟨d, hd, hread', -⟩ :=
    exists_neighbour_of_reads hx (digitCount_pos b.1) hn le_rfl hread
  exact coefficientAt?_ne_none hlist hd hread'

/-- The search ends at the first grid with a coefficient. -/
theorem exists_grid (hx : 0 < x.units) : ∃ k c, 0 < k ∧
    coefficientAt? x.units (gridExponent x k) = some c ∧
    (∀ j, 0 < j → j < k → coefficientAt? x.units (gridExponent x j) = none) ∧
    shortest x.units = dropZeros c (gridExponent x k) := by
  classical
  have hsome : ∃ j, coefficientAt? x.units (gridExponent x (j + 1)) ≠ none :=
    ⟨16, coefficientAt?_seventeen hx⟩
  have hfound := Nat.find_spec hsome
  have hfirst := fun j => @Nat.find_min _ _ hsome j
  have hle := Nat.find_min' hsome (coefficientAt?_seventeen hx)
  generalize Nat.find hsome = k at *
  obtain ⟨c, hc⟩ := Option.ne_none_iff_exists'.1 hfound
  refine ⟨k + 1, c, Nat.succ_pos k, hc, ?_, ?_⟩
  · intro j hj hlt
    obtain ⟨i, rfl⟩ : ∃ i, j = i + 1 := ⟨j - 1, by omega⟩
    simpa using hfirst i (by omega)
  · have hgrid := @firstGrid_map_range' x.units (fun n => gridExponent x (n + 1)) k c hc 0 17
      (Nat.zero_le k) (by omega) fun j _ hlt => not_not.1 (hfirst j hlt)
    rw [← List.range_eq_range'] at hgrid
    change dropZeros (firstGrid x.units ((List.range 17).map fun n => gridExponent x (n + 1))).1
      (firstGrid x.units ((List.range 17).map fun n => gridExponent x (n + 1))).2 = _
    rw [hgrid]

end

/-! ### Ties -/

theorem two_pow_mul_spacing_le {n : Nat} (h : 2 ^ 52 ≤ n) : 2 ^ 52 * spacing n ≤ n := by
  have hn : n ≠ 0 := by omega
  rw [spacing_eq, ← Nat.pow_add, Nat.add_sub_cancel' ((Nat.le_log2 hn).2 h)]
  exact Nat.log2_self_le hn

/-- A magnitude lies less than its 2^52nd part below a whole number of units. -/
theorem exists_onGrid_near {n : Nat} (h : 2 ^ 52 ≤ n) :
    ∃ m, spacing m ∣ m ∧ m ≤ n ∧ 2 ^ 52 * (n - m) < n := by
  have hspacing := two_pow_mul_spacing_le h
  have hmod := Nat.mod_lt n (spacing_pos n)
  have hdiv := Nat.div_add_mod' n (spacing n)
  refine ⟨n / spacing n * spacing n, spacing_dvd_mul_spacing (div_spacing_lt n).le n, ?_, ?_⟩
  · omega
  · omega

theorem five_not_dvd (k : Nat) : ¬5 ∣ 19 * 2 ^ k := by
  intro h
  rcases Nat.prime_five.dvd_mul.1 h with h | h
  · omega
  · have := Nat.prime_five.dvd_of_dvd_pow h
    omega

/-- No double that is read from ten steps of a grid lies halfway between nine and ten of them. -/
theorem not_tie_of_ten {x : Finite} {e : Int}
    (htie : (x.units / one : ℚ) * 2 = 19 * 10 ^ e)
    (hread : roundMagnitude (scaled (10, e)) = x.units) : False := by
  have hone := one_cast_pos
  rw [div_mul_eq_mul_div, div_eq_iff hone.ne'] at htie
  rcases le_or_gt 0 e with he | he
  -- a double lies between the halfway point and ten steps
  · obtain ⟨k, rfl⟩ := Int.eq_ofNat_of_zero_le he
    have hten : scaled (10, (k : Int)) = ((10 * (10 ^ k * one) : Nat) / one : ℚ) := by
      rw [← Nat.mul_assoc, Nat.cast_mul, mul_div_cancel_right₀ _ hone.ne', scaled, zpow_natCast]
      push_cast
      rfl
    have htie' : x.units * 2 = 19 * (10 ^ k * one) := by
      rw [zpow_natCast, mul_assoc] at htie
      exact_mod_cast htie
    have hlarge : 2 ^ 52 ≤ 10 ^ k * one := by
      calc 2 ^ 52 ≤ one := by
            rw [one_eq]
            exact Nat.pow_le_pow_right (by norm_num) (by decide)
        _ ≤ 10 ^ k * one := Nat.le_mul_of_pos_left _ (Decimal.ten_pow_pos k)
    generalize 10 ^ k * one = step at hten htie' hlarge
    obtain ⟨m, hm, hle, hnear⟩ := exists_onGrid_near (n := 10 * step) (by omega)
    have hmono := roundMagnitude_mono (units_div_one_nonneg m)
      (div_le_div_of_nonneg_right (Nat.cast_le.2 hle) hone.le)
    rw [roundMagnitude_units hm, ← hten, hread] at hmono
    omega
  -- the denominator of a double has no factor five
  · obtain ⟨k, rfl⟩ : ∃ k : Nat, e = -(k + 1 : Nat) := ⟨(-e - 1).toNat, by omega⟩
    have htie' : x.units * 2 * 10 ^ (k + 1) = 19 * one := by
      rw [zpow_neg, zpow_natCast, mul_right_comm, ← div_eq_mul_inv,
        eq_div_iff (pow_ne_zero _ ten_ne_zero)] at htie
      exact_mod_cast htie
    have hdvd : 5 ∣ 19 * one := ⟨x.units * 2 * 10 ^ k * 2, by
      rw [← htie']
      ring⟩
    rw [one_eq] at hdvd
    exact five_not_dvd _ hdvd

/-! ### The shortest decimal -/

theorem Finite.abs_toRat (x : Finite) : |x.toRat| = x.units / one := by
  rw [toRat, abs_signed, abs_of_nonneg (units_div_one_nonneg _)]

theorem isReadFrom_iff (x : Finite) (a : Nat × Int) :
    x.IsReadFrom a ↔ 0 < a.1 ∧ roundMagnitude (scaled a) = x.units := by
  rw [Finite.IsReadFrom, toBinary64_eq_finite_iff]

section
variable {x : Finite} {k c : Nat}

theorem coefficient_pos (hx : 0 < x.units) {a : Nat × Int}
    (hread : roundMagnitude (scaled a) = x.units) : 0 < a.1 := by
  apply Nat.pos_of_ne_zero
  intro hzero
  have hscaled : scaled a = (0 : Nat) / one := by simp [scaled, hzero]
  rw [hscaled, roundMagnitude_units (Nat.dvd_zero _)] at hread
  omega

/-- A coefficient that is found has the digits of its grid, or it is ten on the grid of one
digit. -/
theorem found_cases (hx : 0 < x.units) (hk : 0 < k)
    (hfound : coefficientAt? x.units (gridExponent x k) = some c)
    (hnone : ∀ j, 0 < j → j < k → coefficientAt? x.units (gridExponent x j) = none) :
    (dropZeros c (gridExponent x k) = (c, gridExponent x k) ∨ k = 1 ∧ c = 10) ∧
      digitCount (dropZeros c (gridExponent x k)).1 = k := by
  obtain ⟨c₁, c₂, hlist, hn⟩ := exists_neighbours x.units (gridExponent x k)
  obtain ⟨hread, hcases⟩ := coefficientAt?_eq_some hlist hfound
  obtain ⟨below, hle, -, haround⟩ := hn.around
  have hbelow := below_lt_ten_pow hx hle
  have hc : 0 < c := coefficient_pos hx hread
  have hcle : c ≤ 10 ^ k := by omega
  obtain ⟨j, hexponent, hdrop, hzero⟩ := exists_dropZeros c (gridExponent x k)
  have hscaled := scaled_dropZeros c (gridExponent x k)
  generalize dropZeros c (gridExponent x k) = a at *
  have hreada : roundMagnitude (scaled a) = x.units := by
    rw [hscaled]
    exact hread
  -- fewer digits would have been found on a grid before
  have hge : k ≤ digitCount a.1 := by
    by_contra hlt
    exact coefficientAt?_of_reads hx hreada (hnone _ (digitCount_pos _) (by omega))
  rcases Nat.eq_zero_or_pos j with rfl | hj
  · rw [Nat.pow_zero, Nat.mul_one] at hdrop
    have hexponent' : a.2 = gridExponent x k := by simpa using hexponent
    have hcount : digitCount a.1 ≤ k := by
      have hten : 10 ^ k % 10 = 0 := Nat.mod_eq_zero_of_dvd (dvd_pow_self 10 hk.ne')
      have hlt : a.1 ≠ 10 ^ k := fun h => hzero hc.ne' (h ▸ hten)
      rw [digitCount_le_iff hk]
      omega
    exact ⟨.inl (Prod.ext hdrop.symm hexponent'), le_antisymm hcount hge⟩
  · obtain ⟨i, rfl⟩ : ∃ i, k = i + 1 := ⟨k - 1, by omega⟩
    have hmul : a.1 * 10 ≤ c := by
      rw [hdrop]
      exact Nat.mul_le_mul_left _ (Nat.le_self_pow hj.ne' 10)
    have hpow : a.1 ≤ 10 ^ i := by
      rw [Nat.pow_succ] at hcle
      omega
    have hlow : 10 ^ i ≤ a.1 :=
      ten_pow_le_of_le_digitCount (coefficient_pos hx hreada) (by omega)
    have hi : i = 0 := by
      by_contra hi
      apply hzero hc.ne'
      rw [le_antisymm hpow hlow]
      exact Nat.mod_eq_zero_of_dvd (dvd_pow_self 10 hi)
    subst hi
    have hcount : digitCount a.1 ≤ 1 := (digitCount_le_iff Nat.one_pos).2 (by omega)
    exact ⟨.inr ⟨rfl, by omega⟩, le_antisymm hcount hge⟩

/-- If the other neighbour is as near as the coefficient that is found, then that is even and the
other one is odd, and both have the digits of the grid. -/
theorem tie_cases (hx : 0 < x.units) (hk : 0 < k) {d : Nat}
    (hn : AreNeighbours (x.units / one) (gridExponent x k) c d)
    (hread : roundMagnitude (scaled (c, gridExponent x k)) = x.units)
    (htie : |scaled (c, gridExponent x k) - x.units / one| =
      |scaled (d, gridExponent x k) - x.units / one|) :
    Even c ∧ Odd d ∧ digitCount d = k ∧ ¬(k = 1 ∧ c = 10) := by
  have heven := hn.even htie
  obtain ⟨below, hle, hlt, haround⟩ := hn.around
  obtain ⟨i, rfl⟩ : ∃ i, k = i + 1 := ⟨k - 1, by omega⟩
  have hbelow := below_lt_ten_pow hx hle
  have hbelow' := ten_pow_le_below hx hlt
  have hodd : Odd d := by
    rw [Nat.odd_iff]
    rw [Nat.even_iff] at heven
    omega
  refine ⟨heven, hodd, ?_, ?_⟩
  · have hten : 10 ^ (i + 1) % 10 = 0 := Nat.mod_eq_zero_of_dvd (dvd_pow_self 10 (by omega))
    have hne : d ≠ 10 ^ (i + 1) := by
      rintro rfl
      rw [Nat.odd_iff] at hodd
      omega
    exact digitCount_eq (by omega) (by omega)
  -- ten on the grid of one digit is as near as its neighbour only if that is nine
  · rintro ⟨hi, rfl⟩
    obtain rfl : i = 0 := by omega
    obtain rfl : d = 9 := by omega
    obtain rfl : below = 9 := by omega
    apply not_tie_of_ten _ hread
    rw [abs_of_nonneg (by linarith), abs_of_nonpos (by linarith)] at htie
    simp only [scaled] at htie
    push_cast at htie
    linarith

/-- The decimal that is found is preferred to all others that are read as the double. -/
theorem isShortest_shortest (hx : 0 < x.units) : IsShortest x (shortest x.units) := by
  obtain ⟨k, c, hk, hfound, hnone, hshortest⟩ := exists_grid hx
  obtain ⟨hdrop, hcount⟩ := found_cases hx hk hfound hnone
  obtain ⟨c₁, c₂, hlist, hn⟩ := exists_neighbours x.units (gridExponent x k)
  obtain ⟨hread, hchosen⟩ := coefficientAt?_eq_some hlist hfound
  have hscaled : scaled (shortest x.units) = scaled (c, gridExponent x k) := by
    rw [hshortest]
    exact scaled_dropZeros c _
  rw [← hshortest] at hdrop hcount
  generalize shortest x.units = a at *
  have hreada : roundMagnitude (scaled a) = x.units := by rw [hscaled, hread]
  have ha : 0 < a.1 := coefficient_pos hx hreada
  refine ⟨(isReadFrom_iff x a).2 ⟨ha, hreada⟩, fun b hb hne => ?_⟩
  obtain ⟨hb, hreadb⟩ := (isReadFrom_iff x b).1 hb
  have hle : k ≤ digitCount b.1 := by
    by_contra hlt
    exact coefficientAt?_of_reads hx hreadb (hnone _ (digitCount_pos _) (by omega))
  rw [Finite.abs_toRat, Preferred, hscaled, hcount]
  rcases hle.lt_or_eq with hlt | heq
  · exact .inl hlt
  refine .inr ⟨heq, ?_⟩
  obtain ⟨d, hd, hreadd, hdist, hsame⟩ := exists_neighbour_of_reads hx hk hn heq.ge hreadb
  have hnear : |scaled (c, gridExponent x k) - x.units / one| ≤
      |scaled (d, gridExponent x k) - x.units / one| := by
    rcases hchosen with rfl | ⟨rfl, hnot⟩
    · rcases hd with rfl | rfl
      · exact le_rfl
      · exact hn.near
    · rcases hd with rfl | rfl
      · exact absurd hreadd hnot
      · exact le_rfl
  rcases (hnear.trans hdist).lt_or_eq with hlt | htie
  · exact .inl hlt
  have htied := le_antisymm hdist (htie.symm.le.trans hnear)
  have hscaledb := hsame htied
  have hdc : d ≠ c := by
    rintro rfl
    exact hne (eq_of_scaled_eq hb ha (by omega) (by rw [hscaledb, hscaled]))
  -- the coefficient that is found is the first neighbour
  obtain ⟨rfl, rfl⟩ : c₁ = c ∧ c₂ = d := by
    rcases hchosen with rfl | ⟨rfl, hnot⟩
    · exact ⟨rfl, (hd.resolve_left hdc).symm⟩
    · rcases hd with rfl | rfl
      · exact absurd hreadd hnot
      · exact absurd rfl hdc
  obtain ⟨heven, hodd, hcountd, hten⟩ := tie_cases hx hk hn hread (htie.trans htied.symm)
  obtain rfl := hdrop.resolve_right hten
  have hd0 : 0 < c₂ := hodd.pos
  obtain rfl := eq_of_scaled_eq hb hd0 (heq.symm.trans hcountd.symm) hscaledb
  exact .inr ⟨htie, heven, hodd⟩

end

/-! ### Bounds -/

section
variable {x : Finite} (hx : 0 < x.units)
include hx

theorem shortest_mod_ten : (shortest x.units).1 % 10 ≠ 0 := by
  obtain ⟨k, c, -, hfound, -, hshortest⟩ := exists_grid hx
  obtain ⟨c₁, c₂, hlist, -⟩ := exists_neighbours x.units (gridExponent x k)
  obtain ⟨hread, -⟩ := coefficientAt?_eq_some hlist hfound
  obtain ⟨-, -, -, hzero⟩ := exists_dropZeros c (gridExponent x k)
  rw [hshortest]
  exact hzero (coefficient_pos hx hread).ne'

theorem digitCount_shortest_le : digitCount (shortest x.units).1 ≤ 17 := by
  obtain ⟨k, c, hk, hfound, hnone, hshortest⟩ := exists_grid hx
  obtain ⟨-, hcount⟩ := found_cases hx hk hfound hnone
  rw [hshortest, hcount]
  by_contra hlt
  exact coefficientAt?_seventeen hx (hnone 17 (by norm_num) (by omega))

theorem ten_zpow_le_shortest : 10 ^ (decimalPoint x.units - 1) ≤ scaled (shortest x.units) := by
  obtain ⟨k, c, hk, hfound, -, hshortest⟩ := exists_grid hx
  obtain ⟨c₁, c₂, hlist, hn⟩ := exists_neighbours x.units (gridExponent x k)
  obtain ⟨-, hchosen⟩ := coefficientAt?_eq_some hlist hfound
  obtain ⟨below, -, hlt, haround⟩ := hn.around
  obtain ⟨j, rfl⟩ : ∃ j, k = j + 1 := ⟨k - 1, by omega⟩
  have hbelow := ten_pow_le_below hx hlt
  have hscaled : scaled (shortest x.units) = scaled (c, gridExponent x (j + 1)) := by
    rw [hshortest]
    exact scaled_dropZeros c _
  have hpoint : decimalPoint x.units - 1 = gridExponent x (j + 1) + j := by
    rw [gridExponent]
    push_cast
    ring
  rw [hscaled, hpoint, ← scaled_ten_pow, scaled_le_iff]
  rcases hchosen with rfl | ⟨rfl, -⟩ <;> omega

end

end FormLogic.Binary64
