import FormLogic.Proofs.Binary64.Shortest
import FormLogic.Proofs.Derived.NumberText

namespace FormLogic

open Formula Text

/-! ### Texts of numbers -/

theorem toList_toString_int (n : Int) : (toString n).toList =
    (if n < 0 then ['-'] else []) ++ Nat.toDigits 10 n.natAbs := by
  rw [Int.toString_eq_repr, Int.repr_eq_if]
  by_cases hn : n < 0
  · rw [if_pos hn, if_neg (not_le.2 hn), String.toList_append, Nat.toList_repr,
      show (-n).toNat = n.natAbs by omega]
    rfl
  · rw [if_neg hn, if_pos (not_lt.1 hn), Nat.toList_repr, show n.toNat = n.natAbs by omega]
    rfl

theorem isDigit_or_minus_of_mem_toString {n : Int} {c : Char} (h : c ∈ (toString n).toList) :
    Token.isDigit c = true ∨ c = '-' := by
  rw [toList_toString_int, List.mem_append] at h
  rcases h with h | h
  · split at h
    · exact .inr (List.mem_singleton.1 h)
    · exact absurd h List.not_mem_nil
  · exact .inl (Numeral.isDigit_of_mem_toDigits h)

/-- The text of a whole number is a numeral of its size, behind a minus if it is negative. -/
theorem exists_signedChars_int (n : Int) :
    ∃ m : Numeral, (toString n).toList = signedChars (if n < 0 then some true else none) m ∧
      m.toRat = n.natAbs := by
  obtain ⟨ds, hds, hvalue⟩ := Numeral.exists_digits n.natAbs
  have hne : ds ++ [] ≠ [] := by
    rw [List.append_nil]
    rintro rfl
    exact Nat.toDigits_ne_nil hds.symm
  have hchars : (⟨ds, none, hne⟩ : Numeral).chars = Nat.toDigits 10 n.natAbs := by
    rw [← hds]
    exact List.append_nil _
  refine ⟨⟨ds, none, hne⟩, ?_, ?_⟩
  · rw [toList_toString_int, signedChars_eq_append, hchars]
    split <;> rfl
  · rw [Numeral.toRat, Numeral.digits]
    simp [hvalue]

namespace Binary64

/-- A magnitude that is written plainly is a numeral of its value. -/
theorem exists_chars_eq_plainText {ds : List (Fin 10)} (hds : ds ≠ []) {point : Int}
    (hpoint : point ≤ 16) :
    ∃ m : Numeral, m.chars = plainText (ds.map Numeral.digitChar) point ∧
      m.whole.length ≤ 300 ∧
      m.toRat = scaled (Decimal.ofDigits (ds.map Fin.val), point - ds.length) := by
  have hzeros : ∀ k, List.replicate k '0' =
      (List.replicate k (0 : Fin 10)).map Numeral.digitChar := by
    intro k
    rw [List.map_replicate]
    rfl
  have hten : (10 : ℚ) ≠ 0 := by norm_num
  unfold plainText
  split
  -- the point stands in front of the digits, with zeros between
  · next hneg =>
    refine ⟨⟨[0], some (List.replicate (-point).toNat 0 ++ ds), by simp⟩, ?_, by simp, ?_⟩
    · rw [hzeros]
      simp only [Numeral.chars, List.map_append]
      rfl
    · have hvalue : Decimal.ofDigits
          ((0 :: (List.replicate (-point).toNat 0 ++ ds) : List (Fin 10)).map Fin.val) =
            Decimal.ofDigits (ds.map Fin.val) := by
        rw [← List.cons_append, ← List.replicate_succ, List.map_append, List.map_replicate,
          Numeral.ofDigits_append, Fin.val_zero, Numeral.ofDigits_zeros]
        omega
      have hexponent : point - ds.length = -(((-point).toNat + ds.length : Nat) : Int) := by
        omega
      simp only [Numeral.toRat, Numeral.digits, Option.getD_some, List.singleton_append, hvalue,
        List.length_append, List.length_replicate, scaled]
      rw [hexponent, zpow_neg, zpow_natCast, div_eq_mul_inv]
  · split
    -- zeros follow the digits, and one more behind the point
    · next hlen =>
      rw [List.length_map] at hlen
      refine ⟨⟨ds ++ List.replicate (point.toNat - ds.length) 0, some [0], by simp⟩, ?_, ?_, ?_⟩
      · rw [hzeros, List.length_map]
        simp only [Numeral.chars, List.map_append]
        rfl
      · rw [List.length_append, List.length_replicate]
        omega
      · have hvalue : Decimal.ofDigits
            ((ds ++ List.replicate (point.toNat - ds.length) 0 ++ [0]).map Fin.val) =
              Decimal.ofDigits (ds.map Fin.val) * 10 ^ (point.toNat - ds.length) * 10 := by
          rw [List.map_append, List.map_append, List.map_replicate, List.map_singleton,
            Fin.val_zero, Decimal.ofDigits_concat, Numeral.ofDigits_append,
            Numeral.ofDigits_zeros, List.length_replicate]
          ring
        have hexponent : point - ds.length = ((point.toNat - ds.length : Nat) : Int) := by
          omega
        simp only [Numeral.toRat, Numeral.digits, Option.getD_some, hvalue, List.length_singleton,
          scaled]
        rw [hexponent, zpow_natCast]
        push_cast
        rw [pow_one, mul_div_cancel_right₀ _ hten]
    -- the point stands among the digits
    · next hneg hlen =>
      rw [List.length_map] at hlen
      refine ⟨⟨ds.take point.toNat, some (ds.drop point.toNat), ?_⟩, ?_, ?_, ?_⟩
      · simpa using hds
      · simp only [Numeral.chars, List.map_take, List.map_drop]
      · rw [List.length_take]
        omega
      · have hexponent : point - ds.length = -((ds.length - point.toNat : Nat) : Int) := by
          omega
        simp only [Numeral.toRat, Numeral.digits, Option.getD_some, List.take_append_drop,
          List.length_drop, scaled]
        rw [hexponent, zpow_neg, zpow_natCast, div_eq_mul_inv]

theorem readExponent?_padded (negative : Bool) (width n : Nat) :
    Decimal.readExponent? Text.decimalDigit?
      ('e' :: (if negative then '-' else '+') :: Text.padded width n) =
        some (if negative then -(n : Int) else n) := by
  obtain ⟨ds, hds, hne, hvalue⟩ := Numeral.exists_digits_padded width n
  have hsign : Decimal.spanSign ((if negative then '-' else '+') :: Text.padded width n) =
      (negative, Text.padded width n) := by
    cases negative <;> rfl
  have hspan : Decimal.spanDigits Text.decimalDigit? (Text.padded width n) =
      (ds.map Fin.val, []) := by
    rw [← hds, ← List.append_nil (ds.map _)]
    exact Numeral.spanDigits_map_digitChar Numeral.decimalDigit?_digitChar ds (by simp)
  simp only [Decimal.readExponent?, true_or, if_true, hsign, hspan]
  cases ds with
  | nil => exact absurd rfl hne
  | cons d ds =>
    rw [List.map_cons] at hvalue
    simp only [List.map_cons, hvalue]

/-- A magnitude that is written with an exponent is a numeral that the exponent scales to its
value. -/
theorem exists_chars_eq_exponentText (width : Nat) {ds : List (Fin 10)} (hds : ds ≠ [])
    (point : Int) :
    ∃ (m : Numeral) (exponent : List Char),
      m.chars ++ 'e' :: exponent = exponentText width (ds.map Numeral.digitChar) point ∧
      m.whole.length ≤ 300 ∧
      Decimal.readExponent? Text.decimalDigit? ('e' :: exponent) = some (point - 1) ∧
      m.toRat * 10 ^ (point - 1) =
        scaled (Decimal.ofDigits (ds.map Fin.val), point - ds.length) := by
  have hpoint : some (if decide (point ≤ 0) = true then -((point - 1).natAbs : Int)
      else (point - 1).natAbs) = some (point - 1) := by
    congr 1
    by_cases h : point ≤ 0
    · rw [if_pos (by simpa using h)]
      omega
    · rw [if_neg (by simpa using h)]
      omega
  have hread := readExponent?_padded (decide (point ≤ 0)) width (point - 1).natAbs
  rw [hpoint] at hread
  have hten : (10 : ℚ) ≠ 0 := by norm_num
  obtain ⟨d, ds, rfl⟩ := List.exists_cons_of_ne_nil hds
  -- a single digit stands without a point
  cases ds with
  | nil =>
    refine ⟨⟨[d], none, by simp⟩, _, ?_, by simp, hread, ?_⟩
    · simp [Numeral.chars, exponentText]
    · simp [Numeral.toRat, Numeral.digits, scaled]
  | cons d' ds =>
    refine ⟨⟨[d], some (d' :: ds), by simp⟩, _, ?_, by simp, hread, ?_⟩
    · simp [Numeral.chars, exponentText]
    · have hexponent : point - ((d :: d' :: ds).length : Int) =
          point - 1 - ((d' :: ds).length : Nat) := by
        simp only [List.length_cons]
        omega
      simp only [Numeral.toRat, Numeral.digits, Option.getD_some, List.singleton_append, scaled,
        hexponent]
      rw [zpow_sub₀ hten _ (((d' :: ds).length : Nat) : Int), zpow_natCast]
      ring

/-- A magnitude is written as a numeral, which an exponent behind it scales to its value. -/
theorem exists_chars_eq_magnitudeText (units : Nat) :
    ∃ (m : Numeral) (rest : List Char) (e : Int),
      m.chars ++ rest = magnitudeText .standard units ∧ m.whole.length ≤ 300 ∧
      (∀ c ∈ rest.head?, c = 'e') ∧
      Decimal.readExponent? Text.decimalDigit? rest = some e ∧
      m.toRat * 10 ^ e = scaled (shortest units) := by
  simp only [magnitudeText]
  generalize shortest units = p
  obtain ⟨ds, hds, hvalue⟩ := Numeral.exists_digits p.1
  have hne : ds ≠ [] := by
    rintro rfl
    exact Nat.toDigits_ne_nil hds.symm
  have hscaled : scaled (Decimal.ofDigits (ds.map Fin.val), p.2 + ds.length - ds.length) =
      scaled p := by
    rw [hvalue, scaled_add_sub]
  rw [← hds, List.length_map]
  split
  · next hplain =>
    have hpoint : p.2 + ds.length ≤ 16 := Int.le_of_sub_one_lt hplain.2
    obtain ⟨m, hm, hlen, hrat⟩ := exists_chars_eq_plainText hne hpoint
    refine ⟨m, [], 0, ?_, hlen, by simp, rfl, ?_⟩
    · rw [List.append_nil, hm]
    · rw [zpow_zero, mul_one, hrat, hscaled]
  · obtain ⟨m, exponent, hm, hlen, hread, hrat⟩ :=
      exists_chars_eq_exponentText LiteralStyle.standard.exponentWidth hne (p.2 + ds.length)
    exact ⟨m, 'e' :: exponent, p.2 + ds.length - 1, hm, hlen, by simp, hread, by rw [hrat, hscaled]⟩

theorem exists_signedChars_literal (x : Finite) (hunits : x.units ≠ 0)
    (h : 'e' ∉ (literal (.finite x)).toList) :
    ∃ sign m, (literal (.finite x)).toList = signedChars sign m ∧ m.whole.length ≤ 300 := by
  obtain ⟨m, rest, -, hm, hlen, hrest, -⟩ := exists_chars_eq_magnitudeText x.units
  simp only [literal, if_neg hunits, String.toList_ofList, ← hm] at h ⊢
  -- without an exponent nothing stands behind the numeral
  have hnil : rest = [] := by
    cases rest with
    | nil => rfl
    | cons c rest =>
      obtain rfl := hrest c rfl
      split at h <;> simp at h
  rw [hnil, List.append_nil]
  cases x.negative with
  | false => exact ⟨none, m, (signedChars_none m).symm, hlen⟩
  | true => exact ⟨some true, m, (signedChars_some m true).symm, hlen⟩

/-- What a finite double is displayed as: zero without its sign, a whole number in full if it is
not too large, and all else as a literal. -/
inductive DisplayText (x : Finite) : String → Prop
  | zero (h : x.units = 0) : DisplayText x "0"
  | int {n : Int} (hunits : x.units ≠ 0) (hint : x.toInt? = some n)
      (hsmall : n.natAbs < displayLimit) : DisplayText x (toString n)
  | literal (hunits : x.units ≠ 0) : DisplayText x (literal (.finite x))

theorem displayText_display (x : Finite) : DisplayText x (display (.finite x)) := by
  simp only [display]
  split
  · next h => exact .zero h
  · next hunits =>
    split
    · next n hint =>
      split
      · next hsmall => exact .int hunits hint hsmall
      · exact .literal hunits
    · exact .literal hunits

/-- The display of a finite double is a numeral, behind a sign or not, unless it has an
exponent. -/
theorem exists_signedChars_display (x : Finite) (h : 'e' ∉ (display (.finite x)).toList) :
    ∃ sign m, (display (.finite x)).toList = signedChars sign m ∧ m.value.isFinite = true := by
  have htext := displayText_display x
  generalize display (.finite x) = text at h htext
  cases htext with
  | zero =>
    have hlen : (Numeral.ofDigit 0).whole.length ≤ 300 := by decide
    exact ⟨none, .ofDigit 0, by decide, Numeral.isFinite_value_of_length hlen⟩
  | @int n _ _ hsmall =>
    -- whole numbers are displayed in full, up to 10^21
    obtain ⟨m, hchars, hvalue⟩ := exists_signedChars_int n
    refine ⟨_, m, hchars, Numeral.isFinite_value ?_⟩
    calc m.toRat = n.natAbs := hvalue
      _ < 10 ^ 21 := by exact_mod_cast hsmall
      _ ≤ 10 ^ 300 := pow_le_pow_right₀ (by norm_num) (by norm_num)
      _ < overflow := Numeral.ten_pow_lt_overflow
  | literal hunits =>
    obtain ⟨sign, m, hchars, hlen⟩ := exists_signedChars_literal x hunits h
    exact ⟨sign, m, hchars, Numeral.isFinite_value_of_length hlen⟩

end Binary64

/-! ### Characters in texts of numbers -/

def IsNumberChar (c : Char) : Prop := Token.isDigit c = true ∨ c ∈ ['.', 'e', '+', '-']

namespace Binary64

theorem isNumberChar_of_mem_plainText {digits : List Char} {point : Int}
    (hdigits : ∀ c ∈ digits, Token.isDigit c = true) {c : Char}
    (h : c ∈ plainText digits point) : IsNumberChar c := by
  have hzeros : ∀ {k}, c ∈ List.replicate k '0' → IsNumberChar c := by
    intro k hc
    rw [List.eq_of_mem_replicate hc]
    exact .inl (by decide)
  have hpoint : c = '.' → IsNumberChar c := fun hc => .inr (by simp [hc])
  have hzero : c = '0' → IsNumberChar c := by
    rintro rfl
    exact .inl (by decide)
  unfold plainText at h
  split at h
  · simp only [List.cons_append, List.mem_cons, List.mem_append] at h
    rcases h with h | h | h | h
    · exact hzero h
    · exact hpoint h
    · exact hzeros h
    · exact .inl (hdigits c h)
  · split at h
    · simp only [List.mem_append, List.mem_cons, List.not_mem_nil, or_false] at h
      rcases h with (h | h) | h | h
      · exact .inl (hdigits c h)
      · exact hzeros h
      · exact hpoint h
      · exact hzero h
    · simp only [List.mem_append, List.mem_cons] at h
      rcases h with h | h | h
      · exact .inl (hdigits c (List.mem_of_mem_take h))
      · exact hpoint h
      · exact .inl (hdigits c (List.mem_of_mem_drop h))

theorem isNumberChar_of_mem_exponentText {width : Nat} {digits : List Char} {point : Int}
    (hdigits : ∀ c ∈ digits, Token.isDigit c = true) {c : Char}
    (h : c ∈ exponentText width digits point) : IsNumberChar c := by
  simp only [exponentText, Text.padded, List.mem_append, List.mem_cons] at h
  rcases h with (h | h) | h | h | h | h
  · exact .inl (hdigits c (List.mem_of_mem_take h))
  · split at h
    · cases h
    · rcases List.mem_cons.1 h with rfl | h
      · exact .inr (by decide)
      · exact .inl (hdigits c (List.mem_of_mem_drop h))
  · exact .inr (by simp [h])
  · refine .inr ?_
    rw [h]
    split <;> decide
  · rw [List.eq_of_mem_replicate h]
    exact .inl (by decide)
  · exact .inl (Numeral.isDigit_of_mem_toDigits h)

theorem isNumberChar_of_mem_magnitudeText {style : LiteralStyle} {units : Nat} {c : Char}
    (h : c ∈ magnitudeText style units) : IsNumberChar c := by
  have hdigits : ∀ c ∈ Nat.toDigits 10 (shortest units).1, Token.isDigit c = true := fun _ hc =>
    Numeral.isDigit_of_mem_toDigits hc
  simp only [magnitudeText] at h
  split at h
  · exact isNumberChar_of_mem_plainText hdigits h
  · exact isNumberChar_of_mem_exponentText hdigits h

theorem isNumberChar_of_mem_literal {x : Finite} {c : Char}
    (h : c ∈ (literal (.finite x)).toList) : IsNumberChar c := by
  have htext : c ∈ (if x.units = 0 then ['0', '.', '0'] else magnitudeText .standard x.units) →
      IsNumberChar c := by
    intro hc
    split at hc
    · have hzero : c = '0' ∨ c = '.' ∨ c = '0' := by simpa using hc
      rcases hzero with rfl | rfl | rfl
      · exact .inl (by decide)
      · exact .inr (by decide)
      · exact .inl (by decide)
    · exact isNumberChar_of_mem_magnitudeText hc
  simp only [literal, String.toList_ofList] at h
  split at h
  · rcases List.mem_cons.1 h with rfl | h
    · exact .inr (by decide)
    · exact htext h
  · exact htext h

theorem isNumberChar_of_mem_toString {n : Int} {c : Char} (h : c ∈ (toString n).toList) :
    IsNumberChar c := by
  rcases isDigit_or_minus_of_mem_toString h with hdigit | rfl
  · exact .inl hdigit
  · exact .inr (by decide)

theorem isNumberChar_of_mem_display {x : Finite} {c : Char}
    (h : c ∈ (display (.finite x)).toList) : IsNumberChar c := by
  have htext := displayText_display x
  generalize display (.finite x) = text at h htext
  cases htext with
  | zero =>
    have hzero : c = '0' := by simpa using h
    rw [hzero]
    exact .inl (by decide)
  | int => exact isNumberChar_of_mem_toString h
  | literal => exact isNumberChar_of_mem_literal h

end Binary64

/-! ### Characters in texts that are read as numbers -/

theorem not_mem_of_numberOfText? {c : Char} (hblank : Text.isBlank c = false)
    (hdigit : Text.decimalDigit? c = none) (huse : c ∉ ['-', '+', '.', 'e', 'E']) {s : String}
    {x : Binary64} (h : Value.numberOfText? s = some x) : c ∉ s.toList := by
  obtain ⟨gap, gap', hgap, hgap', htrim⟩ := Text.exists_trim s.toList
  unfold Value.numberOfText? at h
  split at h
  · next d hd =>
    rw [htrim]
    simp only [List.mem_append, not_or]
    obtain ⟨l, hchars, -⟩ := Literal.exists_of_read? hd
    rw [← hchars]
    exact ⟨hgap.not_mem hblank, l.not_mem_chars hdigit huse, hgap'.not_mem hblank⟩
  · cases h

/-! ### Answers that are numbers -/

namespace Value

theorem natAbs_lt_overflow {n : Int} (h : (Binary64.ofInt n).isFinite = true) :
    (n.natAbs : ℚ) < Binary64.overflow := by
  rw [Binary64.isFinite_ofInt_iff] at h
  rw [Binary64.overflow, lt_sub_iff_add_lt]
  exact_mod_cast h

/-- The text of a number that formulas can have is read as a number. -/
theorem exists_numberOfText? {v : Value} {x : Binary64} (h : v.number? = .ok (some x))
    (hv : ∀ c ∈ v.toText.toList, Derived.isFormulaChar c = true) :
    ∃ y, numberOfText? v.toText = some y := by
  cases v with
  | text s => exact ⟨x, Except.ok.inj h⟩
  | int n =>
    simp only [number?] at h
    split at h
    · next hfinite =>
      obtain ⟨m, hchars, hvalue⟩ := exists_signedChars_int n
      have hm : m.value.isFinite = true := by
        apply Numeral.isFinite_value
        rw [hvalue]
        exact natAbs_lt_overflow hfinite
      simp only [toText]
      exact ⟨_, numberOfText?_of_signedChars _ m hchars hm⟩
    · cases h
  | float y =>
    simp only [number?] at h
    split at h
    · next hfinite =>
      simp only [toText] at hv ⊢
      cases y with
      | finite y =>
        have he : 'e' ∉ (Binary64.display (.finite y)).toList := fun hmem =>
          absurd (hv 'e' hmem) (by decide)
        obtain ⟨sign, m, hchars, hm⟩ := Binary64.exists_signedChars_display y he
        exact ⟨_, numberOfText?_of_signedChars sign m hchars hm⟩
      | _ => cases hfinite
    · cases h
  | _ => cases h

/-- No number has a dollar sign in its text. -/
theorem dollar_not_mem_toText {v : Value} {x : Binary64} (h : v.number? = .ok (some x)) :
    '$' ∉ v.toText.toList := by
  have hdollar : ¬IsNumberChar '$' := by
    rintro (hdigit | hmem)
    · exact absurd hdigit (by decide)
    · exact absurd hmem (by decide)
  cases v with
  | text s =>
    exact not_mem_of_numberOfText? (by decide) (by decide) (by decide) (Except.ok.inj h)
  | int n =>
    simp only [toText]
    exact fun hmem => hdollar (Binary64.isNumberChar_of_mem_toString hmem)
  | float y =>
    simp only [toText]
    cases y with
    | finite y => exact fun hmem => hdollar (Binary64.isNumberChar_of_mem_display hmem)
    | _ => cases h
  | _ => cases h

end Value

end FormLogic
