import FormLogic.Proofs.Binary64.Order
import FormLogic.Proofs.Derived.AnswerText
import FormLogic.Proofs.Value.Number

namespace FormLogic

open Formula

namespace Binary64

theorem Finite.toRat_eq_of_toInt? {x : Finite} {n : Int} (h : x.toInt? = some n) :
    x.toRat = n ∧ (x.units ≠ 0 → x.negative = decide (n < 0)) := by
  unfold toInt? at h
  split at h
  · next hdvd =>
    have hvalue : (one : Int) ∣ x.value := by
      unfold value
      split
      · exact (Int.natCast_dvd_natCast.2 hdvd).neg_right
      · exact Int.natCast_dvd_natCast.2 hdvd
    have hn : n * one = x.value := by
      rw [← Option.some.inj h]
      exact Int.ediv_mul_cancel hvalue
    constructor
    · rw [x.toRat_eq_value_div, ← hn]
      push_cast
      exact mul_div_cancel_right₀ _ one_cast_pos.ne'
    · intro hunits
      have hsign : n < 0 ↔ x.value < 0 := by
        rw [← hn]
        simp [mul_neg_iff, one_pos]
      rw [Bool.eq_iff_iff, decide_eq_true_eq, hsign]
      unfold value
      split
      · next hneg => simpa [hneg] using Nat.pos_of_ne_zero hunits
      · next hneg => simp [hneg]
  · cases h

/-- A double is told to be a whole number exactly if it has the value of one. -/
theorem Finite.toInt?_eq_some_iff (x : Finite) (n : Int) : x.toInt? = some n ↔ x.toRat = n := by
  refine ⟨fun h => (toRat_eq_of_toInt? h).1, fun h => ?_⟩
  have hone : (one : Int) ≠ 0 := Int.natCast_ne_zero.2 one_pos.ne'
  rw [toRat_eq_value_div, div_eq_iff one_cast_pos.ne'] at h
  have hvalue : x.value = n * one := by exact_mod_cast h
  have hdvd : one ∣ x.units := by
    have hnat : x.value.natAbs = x.units := by
      unfold value
      split <;> simp
    rw [← hnat, hvalue, Int.natAbs_mul]
    exact Nat.dvd_mul_left _ _
  rw [toInt?, if_pos hdvd, hvalue, Int.mul_ediv_cancel _ hone]

theorem significands_mul_one_lt : significands * one < limit := by
  simp only [significands, one, limit, Nat.one_shiftLeft, ← Nat.pow_add]
  exact Nat.pow_lt_pow_right (by norm_num) (by decide)

def Finite.ofInt (n : Int) (h : n.natAbs ≤ significands) : Finite where
  negative := n < 0
  units := n.natAbs * one
  onGrid := by
    have hone : spacing (2 ^ (unitBits + 52)) = one := by
      rw [spacing_eq, Nat.log2_two_pow, one_eq, Nat.add_sub_cancel]
    rw [← hone]
    exact spacing_dvd_mul_spacing h _
  bounded := (Nat.mul_le_mul_right one h).trans_lt significands_mul_one_lt

theorem signed_natAbs (n : Int) : signed (decide (n < 0)) n.natAbs = n := by
  rw [signed, Nat.cast_natAbs]
  split
  · next hn =>
    rw [abs_of_neg (of_decide_eq_true hn)]
    push_cast
    exact neg_neg _
  · next hn => rw [abs_of_nonneg (by simpa using hn)]

theorem Finite.toRat_ofInt {n : Int} (h : n.natAbs ≤ significands) : (ofInt n h).toRat = n := by
  simp only [toRat, ofInt, Nat.cast_mul, mul_div_cancel_right₀ _ one_cast_pos.ne']
  exact signed_natAbs n

theorem intCast_eq_quotient (n : Int) :
    (n : ℚ) = signed (decide (n < 0)) ((n.natAbs * one : Nat) / ((1 : Nat) * one)) := by
  rw [Nat.cast_mul, Nat.cast_one, one_mul, mul_div_cancel_right₀ _ one_cast_pos.ne',
    signed_natAbs]

theorem toBinary64_eq_ofInt {d : Decimal} {n : Int} (hnegative : d.negative = decide (n < 0))
    (h : d.toRat = n) : d.toBinary64 = ofInt n := by
  rw [Decimal.toRat_eq_quotient, intCast_eq_quotient, hnegative, signed_inj,
    Decimal.quotient_eq_iff (Decimal.ten_pow_pos _) Nat.one_pos] at h
  rw [Decimal.toBinary64_eq_ofQuotient, hnegative]
  exact ofUnits_congr _ _ _ (roundUnits_congr (Decimal.ten_pow_pos _) Nat.one_pos h)

theorem Finite.eq_of_toRat_eq {x y : Finite} (hunits : x.units ≠ 0) (h : x.toRat = y.toRat) :
    x = y := by
  have hvalue : x.value = y.value :=
    le_antisymm ((value_le_iff x y).2 h.le) ((value_le_iff y x).2 h.ge)
  obtain ⟨negative, units, hx, hx'⟩ := x
  obtain ⟨negative', units', hy, hy'⟩ := y
  have hboth : negative = negative' ∧ units = units' := by
    simp only [value] at hvalue hunits
    cases negative <;> cases negative' <;> simp at hvalue ⊢ <;> omega
  obtain ⟨rfl, rfl⟩ := hboth
  rfl

theorem Finite.toRat_eq_zero_iff (x : Finite) : x.toRat = 0 ↔ x.units = 0 := by
  rw [← abs_eq_zero, toRat, abs_signed, abs_eq_zero, div_eq_zero_iff, Nat.cast_eq_zero,
    or_iff_left one_cast_pos.ne']

/-- A whole number is displayed in full up to the limit, and so is a zero of either sign. -/
theorem display_of_toRat {x : Finite} {n : Int} (h : x.toRat = n)
    (hsmall : n.natAbs < displayLimit) : display (.finite x) = toString n := by
  by_cases hunits : x.units = 0
  · have hcast : (n : ℚ) = 0 := h.symm.trans (x.toRat_eq_zero_iff.2 hunits)
    have hn : n = 0 := Int.cast_eq_zero.1 hcast
    simp only [display, if_pos hunits, hn]
    rfl
  · simp only [display, if_neg hunits, (x.toInt?_eq_some_iff n).2 h]
    exact if_pos hsmall

/-- The literal of a double is read as a numeral of this double. -/
theorem exists_read?_literal {x : Finite} (hunits : x.units ≠ 0) :
    ∃ d, Decimal.read? Text.decimalDigit? (literal (.finite x)).toList = some d ∧
      d.toBinary64 = .finite x := by
  obtain ⟨m, rest, e, hm, -, hrest, hread, hscaled⟩ := exists_chars_eq_magnitudeText x.units
  have hsign : Decimal.spanSign (literal (.finite x)).toList =
      (x.negative, m.chars ++ rest) := by
    simp only [literal, if_neg hunits, String.toList_ofList, ← hm]
    cases x.negative with
    | false => exact m.spanSign_chars_append rest
    | true => rfl
  have hend : ∀ c ∈ rest.head?, Text.decimalDigit? c = none ∧ c ≠ '.' := by
    intro c hc
    rw [hrest c hc]
    decide
  refine ⟨m.decimalAt x.negative e, ?_, ?_⟩
  · rw [Numeral.read?_append Numeral.decimalDigit?_digitChar (by decide) m hsign hend, hread]
    rfl
  · rw [← toBinary64_shortest x]
    refine Decimal.toBinary64_congr rfl ?_
    rw [m.toRat_decimalAt, hscaled, toRat_scaled]

theorem exists_read?_int (n : Int) :
    ∃ d, Decimal.read? Text.decimalDigit? (toString n).toList = some d ∧
      d.negative = decide (n < 0) ∧ d.toRat = n := by
  obtain ⟨m, hchars, hvalue⟩ := exists_signedChars_int n
  have hsign : ((if n < 0 then some true else none) == some true) = decide (n < 0) := by
    split <;> simp [*]
  refine ⟨m.decimalAt (decide (n < 0)) 0, ?_, rfl, ?_⟩
  · rw [hchars, read?_signedChars, hsign]
    rfl
  · rw [m.toRat_decimalAt, zpow_zero, mul_one, hvalue, signed_natAbs]

end Binary64

theorem isBlank_of_isNumberChar {c : Char} (h : IsNumberChar c) : Text.isBlank c = false := by
  rcases h with hdigit | hmem
  · exact Token.isBlank_of_isDigit hdigit
  · simp only [List.mem_cons, List.not_mem_nil, or_false] at hmem
    rcases hmem with rfl | rfl | rfl | rfl <;> decide

namespace Value
open Binary64

/-- What a text of the characters of numbers is read as. -/
theorem numberOfText?_of_read? {s : String} (hs : ∀ c ∈ s.toList, IsNumberChar c) {d : Decimal}
    (hread : Decimal.read? Text.decimalDigit? s.toList = some d) {x : Finite}
    (hx : d.toBinary64 = .finite x) : numberOfText? s = some (.finite x) := by
  have htrim : Text.trim s.toList = s.toList :=
    Text.trim_eq_self fun c hc => isBlank_of_isNumberChar (hs c hc)
  simp only [numberOfText?, htrim, hread, hx]
  rfl

/-- A finite double is read back from its display, but for the sign of a zero. -/
theorem numberOfText?_display (x : Finite) :
    ∃ y : Finite, numberOfText? (display (.finite x)) = some (.finite y) ∧
      y.toRat = x.toRat := by
  have hchars : ∀ c ∈ (display (.finite x)).toList, IsNumberChar c := fun _ hc =>
    isNumberChar_of_mem_display hc
  have htext := displayText_display x
  generalize display (.finite x) = text at hchars htext
  cases htext with
  | zero hunits =>
    refine ⟨⟨false, 0, Nat.dvd_zero _, limit_pos⟩, by decide +kernel, ?_⟩
    simp [Finite.toRat, hunits, signed]
  | int hunits hint =>
    -- the digits are those of the number itself, so no rounding changes it
    obtain ⟨hrat, hsign⟩ := Finite.toRat_eq_of_toInt? hint
    obtain ⟨d, hread, hnegative, hd⟩ := exists_read?_int _
    have hx : d.toBinary64 = .finite x :=
      Decimal.toBinary64_of_toRat_eq (by rw [hnegative, hsign hunits]) (by rw [hd, hrat])
    exact ⟨x, numberOfText?_of_read? hchars hread hx, rfl⟩
  | literal hunits =>
    obtain ⟨d, hread, hd⟩ := exists_read?_literal hunits
    exact ⟨x, numberOfText?_of_read? hchars hread hd, rfl⟩

theorem numberOfText?_int {n : Int} (h : n.natAbs ≤ significands) :
    numberOfText? (toString n) = some (.finite (.ofInt n h)) := by
  obtain ⟨d, hread, hnegative, hd⟩ := exists_read?_int n
  apply numberOfText?_of_read? (fun c hc => isNumberChar_of_mem_toString hc) hread
  exact Decimal.toBinary64_of_toRat_eq hnegative (by rw [hd, Finite.toRat_ofInt])

/-- A whole number that a double is close to is read back as that double. -/
theorem numberOfText?_ofInt {n : Int} (h : (ofInt n).isFinite = true) :
    numberOfText? (toString n) = some (ofInt n) := by
  obtain ⟨d, hread, hnegative, hd⟩ := exists_read?_int n
  obtain ⟨x, hx⟩ := exists_of_isFinite h
  rw [hx]
  apply numberOfText?_of_read? (fun c hc => isNumberChar_of_mem_toString hc) hread
  rw [toBinary64_eq_ofInt hnegative hd, hx]

theorem read?_isoText (d : Date) : Decimal.read? Text.decimalDigit? d.isoText = none := by
  obtain ⟨ds, hds, hne, -⟩ := Numeral.exists_digits_padded 4 d.year
  let m : Numeral := ⟨ds, none, by simpa using hne⟩
  let rest := '-' :: Text.padded 2 d.month ++ '-' :: Text.padded 2 d.day
  have hm : d.isoText = m.chars ++ rest := by
    simp [Date.isoText, Numeral.chars, m, rest, hds]
  have hrest : ∀ c ∈ rest.head?, Text.decimalDigit? c = none ∧ c ≠ '.' := by
    intro c hc
    obtain rfl : '-' = c := by simpa [rest] using hc
    decide
  have hexponent : Decimal.readExponent? Text.decimalDigit? rest = none := by
    simp [rest, Decimal.readExponent?]
  rw [hm, Numeral.read?_append Numeral.decimalDigit?_digitChar (by decide) m
    (m.spanSign_chars_append rest) hrest, hexponent]
  rfl

theorem numberOfText?_date (d : Date) : numberOfText? (toText (.date d)) = none := by
  have hchars : ∀ c ∈ d.isoText, IsNumberChar c := by
    have hminus : ∀ {c : Char}, c = '-' → IsNumberChar c := fun hc => .inr (by simp [hc])
    simp only [Date.isoText, List.mem_append, List.mem_cons]
    rintro c ((h | h | h) | h | h)
    · exact .inl (Numeral.isDigit_of_mem_padded h)
    · exact hminus h
    · exact .inl (Numeral.isDigit_of_mem_padded h)
    · exact hminus h
    · exact .inl (Numeral.isDigit_of_mem_padded h)
  have htrim : Text.trim d.isoText = d.isoText :=
    Text.trim_eq_self fun c hc => isBlank_of_isNumberChar (hchars c hc)
  simp only [toText, numberOfText?, String.toList_ofList, htrim, read?_isoText]

theorem numberOfText?_of_mem {s : String} {c : Char} (hblank : Text.isBlank c = false)
    (hdigit : Text.decimalDigit? c = none) (huse : c ∉ ['-', '+', '.', 'e', 'E'])
    (hc : c ∈ s.toList) : numberOfText? s = none :=
  Option.eq_none_iff_forall_not_mem.2 fun _ h => not_mem_of_numberOfText? hblank hdigit huse h hc

theorem numberOfText?_moment (m : Moment) : numberOfText? (toText (.moment m)) = none := by
  have hmem : 'T' ∈ (toText (.moment m)).toList := by simp [toText, Moment.isoText]
  exact numberOfText?_of_mem (by decide) (by decide) (by decide) hmem

theorem numberOfText?_record (entries : List (String × Value)) :
    numberOfText? (toText (.record entries)) = none := by
  have hmem : '\x7b' ∈ (toText (.record entries)).toList := by simp [toText]
  exact numberOfText?_of_mem (by decide) (by decide) (by decide) hmem

/-- Two readings that agree: no number twice, or doubles that stand for one number. Both zeros
stand for zero. -/
inductive SameReading : Option Binary64 → Option Binary64 → Prop
  | nothing : SameReading none none
  | number {x y : Finite} (h : x.toRat = y.toRat) :
      SameReading (some (.finite x)) (some (.finite y))

theorem sameReading_self {read : Option Binary64} (h : ∀ x, read = some x → x.isFinite = true) :
    SameReading read read := by
  cases read with
  | none => exact .nothing
  | some x =>
    obtain ⟨y, rfl⟩ := exists_of_isFinite (h x rfl)
    exact .number rfl

theorem sameReading_none {s : String} (h : numberOfText? s = none) :
    SameReading (numberOfText? s) none := by
  rw [h]
  exact .nothing

theorem sameReading_display (x : Binary64) :
    SameReading (numberOfText? x.display) (if x.isFinite then some x else none) := by
  cases x with
  | finite x =>
    obtain ⟨y, hread, hy⟩ := numberOfText?_display x
    rw [hread]
    exact .number hy
  | nan => exact sameReading_none (by decide +kernel)
  | infinite negative =>
    cases negative with
    | false => exact sameReading_none (by decide +kernel)
    | true => exact sameReading_none (by decide +kernel)

/-- An answer that is no list is read from its text as it is read itself. -/
theorem sameReading_toText {v : Value} {read : Option Binary64} (hitems : v.items? = none)
    (h : v.number? = .ok read) : SameReading (numberOfText? v.toText) read := by
  cases v with
  | list items => cases hitems
  | tuple items => cases hitems
  | text s =>
    obtain rfl := Except.ok.inj h
    exact sameReading_self fun x hx => isFinite_of_number? (v := .text s) (congrArg Except.ok hx)
  | float x =>
    obtain rfl := Except.ok.inj h
    rw [toText]
    exact sameReading_display x
  | int n =>
    simp only [number?] at h
    split at h
    · next hfinite =>
      obtain rfl := Except.ok.inj h
      rw [toText, numberOfText?_ofInt hfinite]
      refine sameReading_self fun x hx => ?_
      rwa [← Option.some.inj hx]
    · cases h
  -- all others are no number, and neither are their texts
  | null =>
    obtain rfl := Except.ok.inj h
    exact sameReading_none (by decide +kernel)
  | bool b =>
    obtain rfl := Except.ok.inj h
    cases b with
    | false => exact sameReading_none (by decide +kernel)
    | true => exact sameReading_none (by decide +kernel)
  | date d =>
    obtain rfl := Except.ok.inj h
    exact sameReading_none (numberOfText?_date d)
  | moment m =>
    obtain rfl := Except.ok.inj h
    exact sameReading_none (numberOfText?_moment m)
  | record entries =>
    obtain rfl := Except.ok.inj h
    exact sameReading_none (numberOfText?_record entries)

/-- Finite doubles have the same display exactly if they stand for the same number. -/
theorem display_eq_iff {x y : Finite} :
    display (.finite x) = display (.finite y) ↔ x.toRat = y.toRat := by
  constructor
  · intro h
    obtain ⟨x', hx, hxx'⟩ := numberOfText?_display x
    obtain ⟨y', hy, hyy'⟩ := numberOfText?_display y
    rw [h, hy] at hx
    cases hx
    rw [← hxx', hyy']
  · intro h
    by_cases hunits : x.units = 0
    -- zero is displayed without its sign
    · have hy : y.units = 0 := by
        rw [← y.toRat_eq_zero_iff, ← h, x.toRat_eq_zero_iff, hunits]
      simp only [display, if_pos hunits, if_pos hy]
    · rw [Finite.eq_of_toRat_eq hunits h]

/-- Showing an answer that is no list does not change the number that is read from it. Displays
tell numbers apart, and each is read back as the number that it shows. -/
theorem number?_toText :
    (∀ v : Value, v.items? = none → ¬v.IsTooLarge →
      ∃ shown read, (Value.text v.toText).number? = .ok shown ∧ v.number? = .ok read ∧
        SameReading shown read) ∧
    (∀ x y : Finite, display (.finite x) = display (.finite y) ↔ x.toRat = y.toRat) ∧
    ∀ x : Finite, ∃ y : Finite,
      (Value.text (display (.finite x))).number? = .ok (some (.finite y)) ∧
        y.toRat = x.toRat := by
  refine ⟨fun v hitems hfits => ?_, fun x y => display_eq_iff, fun x => ?_⟩
  · have hreturns : ¬∃ e, v.number? = .error e := by rwa [number?_fails_iff]
    cases hread : v.number? with
    | error e => exact absurd ⟨e, hread⟩ hreturns
    | ok read => exact ⟨_, read, rfl, rfl, sameReading_toText hitems hread⟩
  · obtain ⟨y, hread, hy⟩ := numberOfText?_display x
    exact ⟨y, congrArg Except.ok hread, hy⟩

/-- A whole number half way between two doubles is rounded alike on both ways. -/
theorem number?_toText_halfway :
    let v := Value.int 9007199254740995
    ¬v.IsTooLarge ∧ ∃ x y : Finite, (Value.text v.toText).number? = .ok (some (.finite x)) ∧
      v.number? = .ok (some (.finite y)) ∧ x.toRat = y.toRat := by
  intro v
  have hv : v.number? = .ok (some (ofInt 9007199254740995)) := by decide +kernel
  have hfits : ¬v.IsTooLarge := by
    rw [← number?_fails_iff, hv]
    rintro ⟨e, ⟨⟩⟩
  obtain ⟨shown, read, hshown, hread, hsame⟩ := number?_toText.1 v rfl hfits
  cases hsame with
  | nothing =>
    rw [hv] at hread
    cases hread
  | @number x y h => exact ⟨hfits, x, y, hshown, hread, h⟩

end Value
end FormLogic
