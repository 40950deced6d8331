import FormLogic.Proofs.Value.Display

namespace FormLogic.Binary64

theorem Finite.toRat_add (x y : Finite) :
    x.toRat + y.toRat = ((x.value + y.value : Int) : ℚ) / one := by
  rw [x.toRat_eq_value_div, y.toRat_eq_value_div, Int.cast_add, add_div]

theorem signed_div (negative : Bool) (p q : ℚ) : signed negative p / q = signed negative (p / q) := by
  cases negative
  · rfl
  · exact neg_div q p

theorem exists_zero_eq (negative : Bool) :
    ∃ x : Finite, zero negative = .finite x ∧ x.toRat = 0 :=
  ⟨_, rfl, (Finite.toRat_eq_zero_iff _).2 rfl⟩

theorem isRounded_zero (negative : Bool) : IsRounded 0 (zero negative) := by
  obtain ⟨x, hx, hzero⟩ := exists_zero_eq negative
  rw [hx]
  refine ⟨by rw [abs_zero]; exact overflow_pos, fun y => ?_⟩
  rw [hzero, sub_zero, sub_zero, abs_zero]
  exact ⟨abs_nonneg _, fun h => .inl (abs_eq_zero.1 h.symm).symm⟩

theorem ofValue_isRounded (zeroSign : Bool) (value : Int) :
    IsRounded (value / one) (ofValue zeroSign value) := by
  unfold ofValue
  split
  · next hzero =>
    rw [hzero, Int.cast_zero, zero_div]
    exact isRounded_zero zeroSign
  · have hquotient := ofQuotient_isRounded (decide (value < 0)) value.natAbs Nat.one_pos
    rwa [Nat.cast_one, one_mul, ← signed_div, signed_natAbs] at hquotient

/-- A sum of doubles is rounded from the exact sum. -/
theorem add_isRounded (x y : Finite) :
    IsRounded (x.toRat + y.toRat) (Binary64.finite x + Binary64.finite y) := by
  rw [Finite.toRat_add]
  exact ofValue_isRounded _ _

theorem ofInt_isRounded (n : Int) : IsRounded n (ofInt n) := by
  rw [intCast_eq_quotient]
  exact ofQuotient_isRounded _ _ Nat.one_pos

theorem significands_lt_overflow : (significands : ℚ) < overflow := by
  have hone : (1 : ℚ) < 2 := one_lt_two
  rw [significands, Nat.one_shiftLeft, Nat.cast_pow, Nat.cast_two, overflow, lt_sub_iff_add_lt]
  calc (2 : ℚ) ^ 53 + 2 ^ 970 ≤ 2 ^ 970 + 2 ^ 970 :=
        add_le_add_left (pow_le_pow_right₀ hone.le (by decide)) _
    _ = 2 ^ 971 := by rw [← two_mul, ← pow_succ']
    _ < 2 ^ 1024 := pow_lt_pow_right₀ hone (by decide)

theorem intCast_lt_overflow {n : Int} (h : n.natAbs ≤ significands) : |(n : ℚ)| < overflow := by
  have hcast : (n.natAbs : ℚ) ≤ significands := Nat.cast_le.2 h
  rw [← Int.cast_abs, ← Nat.cast_natAbs]
  exact hcast.trans_lt significands_lt_overflow

/-- A whole number with at most 53 binary digits is rounded to itself. -/
theorem exists_toRat_of_isRounded {n : Int} (hn : n.natAbs ≤ significands) {x : Binary64}
    (h : IsRounded n x) : ∃ y : Finite, x = .finite y ∧ y.toRat = n := by
  cases x with
  | nan => cases h
  | infinite negative => exact absurd (intCast_lt_overflow hn) (not_lt.2 h.1)
  | finite y =>
    have hnearest := (h.2 (.ofInt n hn)).1
    rw [Finite.toRat_ofInt, sub_self, abs_zero] at hnearest
    exact ⟨y, rfl, sub_eq_zero.1 (abs_nonpos_iff.1 hnearest)⟩

/-- Two whole numbers are added exactly if their sum has at most 53 binary digits. -/
theorem exists_add_eq {x y : Finite} {m n : Int} (hx : x.toRat = m) (hy : y.toRat = n)
    (h : (m + n).natAbs ≤ significands) :
    ∃ z : Finite, Binary64.finite x + Binary64.finite y = .finite z ∧
      z.toRat = (m + n : Int) := by
  have hsum := add_isRounded x y
  rw [hx, hy, ← Int.cast_add] at hsum
  exact exists_toRat_of_isRounded h hsum

end FormLogic.Binary64
