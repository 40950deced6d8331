import FormLogic.Limit
import Mathlib.Algebra.Order.Ring.Int
import Mathlib.Tactic.NormNum

namespace FormLogic.Limit

theorem le_allowance {limit : Limit} {count unbounded : Nat}
    (h : limit.exceeded? count = some false) (hle : count ≤ unbounded) :
    count ≤ limit.allowance unbounded := by
  cases limit with
  | int n =>
    have hn : ¬n < count := by simpa [exceeded?] using h
    simp only [allowance]
    omega
  | bool b =>
    have hb : ¬b.toNat < count := by simpa [exceeded?] using h
    simp only [allowance]
    omega
  | incomparable => cases h
  | float x =>
    cases x with
    | nan => exact hle
    | infinite negative =>
      cases negative with
      | false => exact hle
      | true => cases h
    | finite x =>
      have hx : ¬x.value < ((count * Binary64.one : Nat) : Int) := by
        simpa [exceeded?, Binary64.ltCount] using h
      have hfloor : (count : Int) ≤ x.floor := by
        rw [Binary64.Finite.floor, Int.le_ediv_iff_mul_le (by exact_mod_cast Binary64.one_pos)]
        exact_mod_cast not_lt.1 hx
      simp only [allowance]
      omega

theorem incomparable_of_exceeded? {limit : Limit} {count : Nat}
    (h : limit.exceeded? count = none) : limit = .incomparable := by
  cases limit <;> first | rfl | cases h

end FormLogic.Limit
