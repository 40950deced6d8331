import FormLogic.Proofs.Binary64.Fewest
import FormLogic.Proofs.Value.Display

namespace FormLogic.Binary64

open Formula (Token)

/-- How a browser writes `0.d₁d₂… · 10 ^ point`: plainly from 0.000001 up to below 10^21, and else
with an exponent that has no zeros in front. -/
def browserNotation (digits : List Char) (point : Int) : List Char :=
  if -6 < point ∧ point ≤ 21 then
    if digits.length ≤ point then
      digits ++ List.replicate (point - digits.length).toNat '0'
    else if 0 < point then digits.take point.toNat ++ '.' :: digits.drop point.toNat
    else '0' :: '.' :: List.replicate (-point).toNat '0' ++ digits
  else
    digits.take 1 ++ (if digits.length = 1 then [] else '.' :: digits.drop 1) ++
      'e' :: (if point - 1 < 0 then '-' else '+') :: Nat.toDigits 10 (point - 1).natAbs

def signedText (negative : Bool) (cs : List Char) : String :=
  String.ofList (if negative then '-' :: cs else cs)

def browserText (negative : Bool) (a : Nat × Int) : String :=
  signedText negative (browserNotation (Nat.toDigits 10 a.1) (point a))

/-- What a browser shows for a finite double: its shortest decimal, and zero without a sign. -/
inductive IsBrowserText (x : Finite) : String → Prop
  | zero (hunits : x.units = 0) : IsBrowserText x "0"
  | number (hunits : x.units ≠ 0) {a : Nat × Int} (ha : IsShortest x a) :
      IsBrowserText x (browserText x.negative a)

theorem signedText_inj {negative : Bool} {cs cs' : List Char} :
    signedText negative cs = signedText negative cs' ↔ cs = cs' := by
  cases negative <;> simp [signedText, String.ofList_inj]

theorem isBrowserText_iff {x : Finite} (hunits : x.units ≠ 0) {a : Nat × Int}
    (ha : IsShortest x a) (text : String) :
    IsBrowserText x text ↔ text = browserText x.negative a := by
  constructor
  · intro h
    cases h with
    | zero hzero => exact absurd hzero hunits
    | number _ hb => rw [hb.unique ha]
  · rintro rfl
    exact .number hunits ha

/-- A browser shows one text for a double. -/
theorem existsUnique_isBrowserText (x : Finite) : ∃! text, IsBrowserText x text := by
  by_cases hunits : x.units = 0
  · refine ⟨"0", .zero hunits, fun text h => ?_⟩
    cases h with
    | zero => rfl
    | number hne => exact absurd hunits hne
  · have ha := isShortest_shortest (Nat.pos_of_ne_zero hunits)
    exact ⟨_, .number hunits ha, fun text h => (isBrowserText_iff hunits ha text).1 h⟩

theorem ten_zpow_le_scaled_iff {a : Nat × Int} (ha : 0 < a.1) (e : Int) :
    10 ^ e ≤ scaled a ↔ e < point a := by
  constructor
  · exact fun h => ten_zpow_lt_iff.1 (h.trans_lt (scaled_lt a))
  · exact fun h => (ten_zpow_le_iff.2 (by omega)).trans (le_scaled ha)

theorem scaled_lt_ten_zpow_iff {a : Nat × Int} (ha : 0 < a.1) (e : Int) :
    scaled a < 10 ^ e ↔ point a ≤ e := by
  rw [← not_le, ten_zpow_le_scaled_iff ha, not_lt]

theorem padded_two_eq_iff (n : Nat) : Text.padded 2 n = Nat.toDigits 10 n ↔ 10 ≤ n := by
  have hlen : (Nat.toDigits 10 n).length ≤ 1 ↔ n < 10 :=
    Nat.length_toDigits_le_iff (by norm_num) Nat.one_pos
  rw [Text.padded, List.append_left_eq_self, List.replicate_eq_nil_iff, Nat.sub_eq_zero_iff_le]
  omega

theorem plainText_eq_browserNotation {digits : List Char} {point : Int}
    (hlen : point < digits.length) (hlow : -6 < point) (hhigh : point ≤ 21) :
    plainText digits point = browserNotation digits point := by
  have hplain : -6 < point ∧ point ≤ 21 := ⟨hlow, hhigh⟩
  by_cases hpoint : point ≤ 0
  · rw [plainText, if_pos hpoint, browserNotation, if_pos hplain, if_neg (not_le.2 hlen),
      if_neg (not_lt.2 hpoint)]
  · have hlen' : ¬digits.length ≤ point.toNat := by omega
    rw [plainText, if_neg hpoint, if_neg hlen', browserNotation, if_pos hplain,
      if_neg (not_le.2 hlen), if_pos (not_le.1 hpoint)]

theorem exponentText_eq_browserNotation_iff {digits : List Char} (hdigits : 0 < digits.length)
    {point : Int} (h : ¬(-6 < point ∧ point ≤ 21)) :
    exponentText 2 digits point = browserNotation digits point ↔ 10 ≤ (point - 1).natAbs := by
  have hone : digits.length ≤ 1 ↔ digits.length = 1 := by omega
  have hsign : point ≤ 0 ↔ point - 1 < 0 := by omega
  rw [exponentText, browserNotation, if_neg h]
  simp only [hone, hsign, List.append_cancel_left_eq, List.cons.injEq, true_and]
  exact padded_two_eq_iff _

section
variable (c : Nat)

theorem not_mem_toDigits {mark : Char} (hmark : Token.isDigit mark = false) :
    mark ∉ Nat.toDigits 10 c := by
  intro h
  rw [Formula.Numeral.isDigit_of_mem_toDigits h] at hmark
  cases hmark

/-- What is written plainly has no exponent. -/
theorem exponentText_ne_browserNotation {point : Int} (hlow : -6 < point) (hhigh : point ≤ 21) :
    exponentText 2 (Nat.toDigits 10 c) point ≠ browserNotation (Nat.toDigits 10 c) point := by
  have hdigits : 'e' ∉ Nat.toDigits 10 c := not_mem_toDigits c (by decide)
  have htake : ∀ n, 'e' ∉ (Nat.toDigits 10 c).take n := fun n h =>
    hdigits (List.mem_of_mem_take h)
  have hdrop : ∀ n, 'e' ∉ (Nat.toDigits 10 c).drop n := fun n h =>
    hdigits (List.mem_of_mem_drop h)
  have hmem : 'e' ∈ exponentText 2 (Nat.toDigits 10 c) point := by simp [exponentText]
  have hnot : 'e' ∉ browserNotation (Nat.toDigits 10 c) point := by
    rw [browserNotation, if_pos ⟨hlow, hhigh⟩]
    split
    · simp [hdigits]
    · split
      · simp [htake, hdrop]
      · simp [hdigits]
  exact fun h => hnot (h ▸ hmem)

end

/-- A literal is what a browser writes, but for small numbers: from 10^-6 on a browser writes
them plainly, and from 10^-9 on its exponents have one digit. -/
theorem magnitudeText_eq_iff {units : Nat}
    (h : (shortest units).2 < 0 ∧ point (shortest units) ≤ 16 ∨ 21 < point (shortest units)) :
    magnitudeText .standard units =
        browserNotation (Nat.toDigits 10 (shortest units).1) (point (shortest units)) ↔
      ¬(-9 < point (shortest units) ∧ point (shortest units) ≤ -4) := by
  have htext : magnitudeText .standard units =
      if -4 ≤ point (shortest units) - 1 ∧ point (shortest units) - 1 < 16 then
        plainText (Nat.toDigits 10 (shortest units).1) (point (shortest units))
      else exponentText 2 (Nat.toDigits 10 (shortest units).1) (point (shortest units)) := rfl
  have hlen : point (shortest units) =
      (shortest units).2 + (Nat.toDigits 10 (shortest units).1).length := rfl
  rw [htext]
  generalize point (shortest units) = point at *
  by_cases hplain : -4 ≤ point - 1 ∧ point - 1 < 16
  · rw [if_pos hplain, plainText_eq_browserNotation (by omega) (by omega) (by omega)]
    simp only [true_iff]
    omega
  rw [if_neg hplain]
  by_cases hbrowser : -6 < point ∧ point ≤ 21
  · have hne := exponentText_ne_browserNotation (shortest units).1 hbrowser.1 hbrowser.2
    simp only [hne, false_iff, not_not]
    omega
  · rw [exponentText_eq_browserNotation_iff Nat.length_toDigits_pos hbrowser]
    omega

theorem toDigits_mul_ten_pow {m : Nat} (hm : 0 < m) (k : Nat) :
    Nat.toDigits 10 (m * 10 ^ k) = Nat.toDigits 10 m ++ List.replicate k '0' := by
  induction k with
  | zero => simp
  | succ k ih =>
    have hpos : 0 < m * 10 ^ k := Nat.mul_pos hm (Decimal.ten_pow_pos k)
    have happend := Nat.toDigits_append_toDigits (d := 0) (by norm_num : 1 < 10) hpos (by norm_num)
    rw [Nat.add_zero, ih, Nat.toDigits_zero] at happend
    rw [Nat.pow_succ, ← Nat.mul_assoc, Nat.mul_comm, ← happend, List.replicate_succ',
      List.append_assoc]

/-- A decimal without a zero at its end that has a whole value has all its digits in front of the
point. -/
theorem exists_eq_mul_ten_pow {a : Nat × Int} (hzero : a.1 % 10 ≠ 0) {n : Nat}
    (h : scaled a = n) : ∃ k : Nat, a.2 = k ∧ n = a.1 * 10 ^ k := by
  obtain ⟨c, e⟩ := a
  rcases le_or_gt 0 e with he | he
  · obtain ⟨k, rfl⟩ := Int.eq_ofNat_of_zero_le he
    rw [scaled, zpow_natCast] at h
    exact ⟨k, rfl, by exact_mod_cast h.symm⟩
  · obtain ⟨k, rfl⟩ : ∃ k : Nat, e = -(k + 1 : Nat) := ⟨(-e - 1).toNat, by omega⟩
    rw [scaled, zpow_neg, zpow_natCast, ← div_eq_mul_inv,
      div_eq_iff (pow_ne_zero _ ten_ne_zero)] at h
    have hc : c = n * 10 ^ (k + 1) := by exact_mod_cast h
    rw [hc, Nat.pow_succ, ← Nat.mul_assoc, Nat.mul_mod_left] at hzero
    exact absurd rfl hzero

/-- A browser writes all digits of a whole number if its shortest decimal has its value. -/
theorem toDigits_eq_browserNotation_iff {a : Nat × Int} (ha : 0 < a.1) (hzero : a.1 % 10 ≠ 0)
    {n : Nat} (hn : n < 10 ^ 21) :
    Nat.toDigits 10 n = browserNotation (Nat.toDigits 10 a.1) (point a) ↔ scaled a = n := by
  constructor
  · intro h
    -- digits alone have no point and no exponent, which leaves the notation of whole numbers
    have hpoint : '.' ∉ browserNotation (Nat.toDigits 10 a.1) (point a) :=
      h ▸ not_mem_toDigits n (by decide)
    have hexponent : 'e' ∉ browserNotation (Nat.toDigits 10 a.1) (point a) :=
      h ▸ not_mem_toDigits n (by decide)
    have hlen : point a - (Nat.toDigits 10 a.1).length = a.2 := Int.add_sub_cancel _ _
    unfold browserNotation at h hpoint hexponent
    split at h
    · split at h
      · next hwhole =>
        have he : 0 ≤ a.2 := by omega
        obtain ⟨k, hk⟩ := Int.eq_ofNat_of_zero_le he
        rw [hlen, hk, Int.toNat_natCast, ← toDigits_mul_ten_pow ha] at h
        have hvalue := congrArg (Nat.ofDigitChars 10 · 0) h
        simp only [Nat.ofDigitChars_ten_toDigits] at hvalue
        rw [scaled, hk, hvalue, zpow_natCast]
        push_cast
        rfl
      · split at h <;> simp_all
    · simp_all
  · intro h
    obtain ⟨k, hk, rfl⟩ := exists_eq_mul_ten_pow hzero h
    have hlen : point a = k + (Nat.toDigits 10 a.1).length := congrArg (· + _) hk
    have hlt : scaled a < 10 ^ (21 : Int) := by
      rw [h]
      exact_mod_cast hn
    rw [scaled_lt_ten_zpow_iff ha] at hlt
    rw [toDigits_mul_ten_pow ha, browserNotation, if_pos (by omega), if_pos (by omega),
      show (point a - (Nat.toDigits 10 a.1).length).toNat = k by omega]

theorem one_dvd_roundMagnitude (n : Nat) : one ∣ roundMagnitude n := by
  have hround := roundMagnitude_div (n * one) Nat.one_pos
  rw [Nat.cast_mul, Nat.cast_one, one_mul, mul_div_cancel_right₀ _ one_cast_pos.ne'] at hround
  rw [hround]
  rcases le_or_gt n significands with hle | hlt
  -- up to 53 binary digits nothing is rounded
  · have hgrid : spacing (n * one) ∣ n * one := (Finite.ofInt n hle).onGrid
    rw [roundUnits_of_onGrid hgrid]
    exact Nat.dvd_mul_left one n
  -- beyond them doubles are apart by a whole number
  · rw [roundUnits, Nat.div_one, Nat.one_mul]
    refine Dvd.dvd.mul_left ?_ _
    rw [spacing_eq, one_eq]
    have hlarge : 2 ^ (unitBits + 53) ≤ n * 2 ^ unitBits := by
      rw [Nat.pow_add, Nat.mul_comm, ← Nat.one_shiftLeft 53]
      exact Nat.mul_le_mul_right _ hlt.le
    have hpos := (Nat.two_pow_pos (unitBits + 53)).trans_le hlarge
    have hlog := (Nat.le_log2 hpos.ne').2 hlarge
    exact Nat.pow_dvd_pow 2 (by omega)

theorem toString_int_eq (n : Int) :
    toString n = signedText (decide (n < 0)) (Nat.toDigits 10 n.natAbs) := by
  rw [← String.toList_inj, toList_toString_int, signedText, String.toList_ofList]
  by_cases hn : n < 0 <;> simp [hn]

section
variable {x : Finite} (hunits : x.units ≠ 0)
include hunits

theorem display_of_whole {n : Int} (hn : x.toRat = n) (hsmall : n.natAbs < 10 ^ 21) :
    display (.finite x) = signedText x.negative (Nat.toDigits 10 n.natAbs) := by
  have hint := (x.toInt?_eq_some_iff n).2 hn
  rw [display_of_toRat hn hsmall, (Finite.toRat_eq_of_toInt? hint).2 hunits, toString_int_eq]

theorem display_of_not_whole (h : ∀ n : Int, x.toRat = n → 10 ^ 21 ≤ n.natAbs) :
    display (.finite x) = signedText x.negative (magnitudeText .standard x.units) := by
  have hliteral : literal (.finite x) = signedText x.negative (magnitudeText .standard x.units) :=
    by simp only [literal, if_neg hunits, signedText]
  rw [← hliteral]
  simp only [display, if_neg hunits]
  split
  · next n hint => exact if_neg (not_lt.2 (h n ((x.toInt?_eq_some_iff n).1 hint)))
  · rfl

/-- What is not displayed in full has digits behind the point, or more than 21 in front of it. -/
theorem point_shortest (h : ∀ n : Int, x.toRat = n → 10 ^ 21 ≤ n.natAbs) :
    (shortest x.units).2 < 0 ∧ point (shortest x.units) ≤ 16 ∨ 21 < point (shortest x.units) := by
  have hx := Nat.pos_of_ne_zero hunits
  have hread := (isReadFrom_iff x _).1 (isShortest_shortest hx).isReadFrom
  by_cases hwhole : ∃ n : Int, x.toRat = n
  · obtain ⟨n, hn⟩ := hwhole
    have habs : (10 : ℚ) ^ (21 : Int) ≤ x.units / one := by
      rw [← x.abs_toRat, hn, ← Int.cast_abs, ← Int.natCast_natAbs]
      exact_mod_cast h n hn
    have hlow := ten_zpow_lt_iff.1 (habs.trans_lt (decimalPoint_spec hx).2)
    have hpoint := (ten_zpow_le_scaled_iff hread.1 _).1 (ten_zpow_le_shortest hx)
    exact .inr (by omega)
  · left
    -- a decimal without digits behind its point is read as a whole number
    have hexponent : (shortest x.units).2 < 0 := by
      by_contra hnonneg
      obtain ⟨k, hk⟩ := Int.eq_ofNat_of_zero_le (not_lt.1 hnonneg)
      have hscaled : scaled (shortest x.units) = ((shortest x.units).1 * 10 ^ k : Nat) := by
        rw [scaled, hk, zpow_natCast]
        push_cast
        rfl
      obtain ⟨m, hm⟩ := one_dvd_roundMagnitude ((shortest x.units).1 * 10 ^ k)
      rw [← hscaled, hread.2] at hm
      have habs : |x.toRat| = m := by
        rw [x.abs_toRat, hm, Nat.cast_mul, mul_div_cancel_left₀ _ one_cast_pos.ne']
      rcases (abs_eq (Nat.cast_nonneg m)).1 habs with hrat | hrat
      · exact hwhole ⟨m, by exact_mod_cast hrat⟩
      · exact hwhole ⟨-m, by exact_mod_cast hrat⟩
    have hcount := digitCount_shortest_le hx
    refine ⟨hexponent, ?_⟩
    rw [point]
    omega

theorem display_eq_browserText_iff_of_whole {n : Int} (hn : x.toRat = n)
    (hsmall : n.natAbs < 10 ^ 21) :
    display (.finite x) = browserText x.negative (shortest x.units) ↔
      scaled (shortest x.units) = |x.toRat| := by
  have hx := Nat.pos_of_ne_zero hunits
  have hpos := (isShortest_shortest hx).isReadFrom.1
  rw [display_of_whole hunits hn hsmall, browserText, signedText_inj,
    toDigits_eq_browserNotation_iff hpos (shortest_mod_ten hx) hsmall, hn, ← Int.cast_abs,
    ← Int.natCast_natAbs, Int.cast_natCast]

theorem display_eq_browserText_iff_of_not_whole (h : ∀ n : Int, x.toRat = n → 10 ^ 21 ≤ n.natAbs) :
    display (.finite x) = browserText x.negative (shortest x.units) ↔
      ¬((10 : ℚ) ^ (-9 : Int) ≤ scaled (shortest x.units) ∧
        scaled (shortest x.units) < 10 ^ (-4 : Int)) := by
  have hpos := (isShortest_shortest (Nat.pos_of_ne_zero hunits)).isReadFrom.1
  rw [display_of_not_whole hunits h, browserText, signedText_inj,
    magnitudeText_eq_iff (point_shortest hunits h), ten_zpow_le_scaled_iff hpos,
    scaled_lt_ten_zpow_iff hpos]

theorem one_le_abs_toRat {n : Int} (hn : x.toRat = n) : 1 ≤ |x.toRat| := by
  have hne : n ≠ 0 := by
    rintro rfl
    exact hunits (x.toRat_eq_zero_iff.1 (by rw [hn, Int.cast_zero]))
  rw [hn, ← Int.cast_abs]
  exact_mod_cast Int.one_le_abs hne

theorem display_eq_browserText_iff :
    display (.finite x) = browserText x.negative (shortest x.units) ↔
      ((∃ n : Int, x.toRat = n) → |x.toRat| < 10 ^ 21 →
        scaled (shortest x.units) = |x.toRat|) ∧
      ¬((10 : ℚ) ^ (-9 : Int) ≤ scaled (shortest x.units) ∧
        scaled (shortest x.units) < 10 ^ (-4 : Int)) := by
  have hsmall_iff : ∀ n : Int, x.toRat = n → (|x.toRat| < 10 ^ 21 ↔ n.natAbs < 10 ^ 21) := by
    intro n hn
    rw [hn, ← Int.cast_abs, ← Int.natCast_natAbs]
    exact_mod_cast Iff.rfl
  by_cases hwhole : ∃ n : Int, x.toRat = n ∧ |x.toRat| < 10 ^ 21
  · obtain ⟨n, hn, hlt⟩ := hwhole
    rw [display_eq_browserText_iff_of_whole hunits hn ((hsmall_iff n hn).1 hlt)]
    refine ⟨fun h => ⟨fun _ _ => h, ?_⟩, fun h => h.1 ⟨n, hn⟩ hlt⟩
    rintro ⟨-, hsmall⟩
    have hone := one_le_abs_toRat hunits hn
    rw [h] at hsmall
    norm_num at hsmall
    linarith
  · have hlarge : ∀ n : Int, x.toRat = n → 10 ^ 21 ≤ n.natAbs := fun n hn =>
      not_lt.1 fun hlt => hwhole ⟨n, hn, (hsmall_iff n hn).2 hlt⟩
    rw [display_eq_browserText_iff_of_not_whole hunits hlarge]
    exact (and_iff_right fun ⟨n, hn⟩ hlt => absurd ⟨n, hn, hlt⟩ hwhole).symm

end

/-- The display of a double is what a browser shows, unless the double is a whole number below
10^21 with a shortest decimal of another value, or its shortest decimal lies from 10^-9 up to
below 10^-4. -/
theorem isBrowserText_display_iff (x : Finite) :
    (∃! text, IsBrowserText x text) ∧
      (IsBrowserText x (display (.finite x)) ↔ x.units = 0 ∨ ∃ a, IsShortest x a ∧
        ((∃ n : Int, x.toRat = n) → |x.toRat| < 10 ^ 21 → scaled a = |x.toRat|) ∧
        ¬((10 : ℚ) ^ (-9 : Int) ≤ scaled a ∧ scaled a < 10 ^ (-4 : Int))) := by
  refine ⟨existsUnique_isBrowserText x, ?_⟩
  by_cases hunits : x.units = 0
  · have hdisplay : display (.finite x) = "0" := if_pos hunits
    rw [hdisplay]
    exact ⟨fun _ => .inl hunits, fun _ => .zero hunits⟩
  · have hshortest := isShortest_shortest (Nat.pos_of_ne_zero hunits)
    rw [isBrowserText_iff hunits hshortest, display_eq_browserText_iff hunits, or_iff_right hunits]
    exact ⟨fun h => ⟨_, hshortest, h⟩, fun ⟨a, ha, h⟩ => ha.unique hshortest ▸ h⟩

-- one of the numbers that are shown in two ways
example : display (Decimal.mk false 1 (-5)).toBinary64 = "1e-05" ∧
    browserText false (shortest (Decimal.units 1 (-5))) = "0.00001" := by decide +kernel

end FormLogic.Binary64
