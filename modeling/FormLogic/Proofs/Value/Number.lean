import FormLogic.Value.Number
import FormLogic.Proofs.Binary64.Decimal

namespace FormLogic

/-- A whole number that no double is close to. -/
def Value.IsTooLarge (v : Value) : Prop := ∃ n : Int, v = .int n ∧ 2 ^ 1024 ≤ n.natAbs + 2 ^ 970

namespace Value

/-- Reading a number fails for whole numbers that are too large, and for nothing else. -/
theorem number?_fails_iff (v : Value) : (∃ e, v.number? = .error e) ↔ v.IsTooLarge := by
  cases v with
  | int n =>
    have hfinite := Binary64.isFinite_ofInt_iff n
    have htoo : (Value.int n).IsTooLarge ↔ ¬(Binary64.ofInt n).isFinite = true := by
      rw [hfinite, Nat.not_lt]
      constructor
      · rintro ⟨m, hm, hle⟩
        rw [Value.int.inj hm]
        exact hle
      · exact fun hle => ⟨n, rfl, hle⟩
    rw [htoo, number?]
    split
    · next h => simp [h]
    · next h => exact ⟨fun _ => h, fun _ => ⟨⟨⟩, rfl⟩⟩
  | _ =>
    constructor
    · rintro ⟨e, h⟩
      cases h
    · rintro ⟨n, h, -⟩
      cases h

theorem isEmpty_of_isTooLarge {v : Value} (h : v.IsTooLarge) : v.isEmpty = false := by
  obtain ⟨n, rfl, -⟩ := h
  rfl

theorem isFinite_of_number? {v : Value} {x : Binary64} (h : v.number? = .ok (some x)) :
    x.isFinite = true := by
  cases v with
  | int n =>
    simp only [number?] at h
    split at h
    · next hfinite => rwa [← Option.some.inj (Except.ok.inj h)]
    · cases h
  | float y =>
    simp only [number?] at h
    split at h
    · next hfinite => rwa [← Option.some.inj (Except.ok.inj h)]
    · cases h
  | text s =>
    have hs : numberOfText? s = some x := Except.ok.inj h
    unfold numberOfText? at hs
    split at hs
    · split at hs
      · next hfinite => rwa [← Option.some.inj hs]
      · cases hs
    · cases hs
  | _ => cases h

end Value

end FormLogic
