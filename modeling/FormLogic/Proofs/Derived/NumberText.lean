import FormLogic.Proofs.Derived.Filter
import FormLogic.Proofs.Literal

namespace FormLogic

open Formula Text

theorem exists_digitChar_of_decimalDigit? {c : Char} {k : Nat}
    (h : Text.decimalDigit? c = some k) (hc : Derived.isFormulaChar c = true) :
    ∃ d, Numeral.digitChar d = c := by
  rcases Derived.isFormulaChar_iff.1 hc with hdigit | hblank | rfl | hsingle
  · exact Numeral.exists_digitChar_eq hdigit
  · rw [Text.decimalDigit?_of_isBlank hblank] at h
    cases h
  · cases h
  · obtain ⟨t, ht⟩ := Option.isSome_iff_exists.1 hsingle
    unfold Token.ofChar? at ht
    split at ht <;> contradiction

def signedOperand : Option Bool → Numeral → Tree Numeral .operand
  | none, n => .leaf n
  | some negative, n => .sign negative (.leaf n)

def signedChars (sign : Option Bool) (n : Numeral) : List Char :=
  (signedOperand sign n).tokens.flatMap Token.chars

def startsWithSign : List Char → Bool
  | '-' :: _ => true
  | '+' :: _ => true
  | _ => false

variable (sign : Option Bool) (n : Numeral)

theorem divisors_signedOperand : (signedOperand sign n).divisors = [] := by
  cases sign <;> rfl

theorem nesting_signedOperand :
    (signedOperand sign n).nesting (fun _ => 0) = if sign.isSome = true then 1 else 0 := by
  cases sign <;> rfl

theorem signedChars_none : signedChars none n = n.chars := List.append_nil _

theorem signedChars_some (negative : Bool) :
    signedChars (some negative) n = (if negative then '-' else '+') :: n.chars := by
  cases negative <;> exact congrArg (List.cons _) (List.append_nil _)

theorem spanSign_signedChars :
    Decimal.spanSign (signedChars sign n) = (sign == some true, n.chars) := by
  match sign with
  | none =>
    rw [signedChars_none]
    exact n.spanSign_chars
  | some true =>
    rw [signedChars_some]
    rfl
  | some false =>
    rw [signedChars_some]
    rfl

theorem read?_signedChars : Decimal.read? Text.decimalDigit? (signedChars sign n) =
    some (n.decimal (sign == some true)) :=
  Numeral.read?_of_spanSign Numeral.decimalDigit?_digitChar (by decide) n
    (spanSign_signedChars sign n)

theorem startsWithSign_signedChars : startsWithSign (signedChars sign n) = sign.isSome := by
  cases sign with
  | none =>
    rw [signedChars_none]
    unfold startsWithSign
    split
    · next cs h =>
      have hmem := n.mem_chars (c := '-') (by simp [h])
      exact absurd hmem (by decide)
    · next cs h =>
      have hmem := n.mem_chars (c := '+') (by simp [h])
      exact absurd hmem (by decide)
    · rfl
  | some negative =>
    rw [signedChars_some]
    cases negative <;> rfl

theorem toBinary64_decimal_true : (n.decimal true).toBinary64 = -n.value := by
  rw [n.value_eq]
  exact Binary64.ofUnits_true _

theorem value_signedOperand : (signedOperand sign n).value Numeral.value =
    (n.decimal (sign == some true)).toBinary64 := by
  match sign with
  | none => exact n.value_eq
  | some false => exact n.value_eq
  | some true => exact (toBinary64_decimal_true n).symm

theorem isBlank_of_mem_signedChars {c : Char} (h : c ∈ signedChars sign n) :
    Text.isBlank c = false := by
  have hnumeral : ∀ c ∈ n.chars, Text.isBlank c = false := by
    intro c hc
    rcases n.mem_chars hc with hdigit | rfl
    · exact Token.isBlank_of_isDigit hdigit
    · decide
  cases sign with
  | none =>
    rw [signedChars_none] at h
    exact hnumeral c h
  | some negative =>
    rw [signedChars_some] at h
    rcases List.mem_cons.1 h with rfl | h
    · cases negative <;> decide
    · exact hnumeral c h

theorem isFinite_signedOperand :
    ((signedOperand sign n).value Numeral.value).isFinite = n.value.isFinite := by
  match sign with
  | none => rfl
  | some false => rfl
  | some true => exact Binary64.isFinite_neg n.value

theorem numberOfText?_of_signedChars {s : String} (hs : s.toList = signedChars sign n)
    (hfinite : n.value.isFinite = true) :
    Value.numberOfText? s = some ((signedOperand sign n).value Numeral.value) := by
  have htrim : Text.trim s.toList = signedChars sign n := by
    rw [hs]
    exact Text.trim_eq_self fun c hc => isBlank_of_mem_signedChars sign n hc
  have hvalue := isFinite_signedOperand sign n
  rw [value_signedOperand, hfinite] at hvalue
  simp only [Value.numberOfText?, htrim, read?_signedChars, value_signedOperand]
  rw [if_pos hvalue]

theorem signedChars_eq_append : signedChars sign n = signChars sign ++ n.chars := by
  match sign with
  | none => exact signedChars_none n
  | some true => exact signedChars_some n true
  | some false => exact signedChars_some n false

/-- In formulas the digits of literals are those of numerals. -/
theorem exists_digits_of_formulaChars {ds : List Digit}
    (hds : ∀ c ∈ ds.map Digit.char, Derived.isFormulaChar c = true) :
    ∃ ds' : List (Fin 10), ds'.map Numeral.digitChar = ds.map Digit.char ∧
      (ds' = [] ↔ ds = []) := by
  have hdigits : ∀ c ∈ ds.map Digit.char, Token.isDigit c = true := by
    intro c hc
    obtain ⟨d, -, rfl⟩ := List.mem_map.1 hc
    obtain ⟨k, hk⟩ := exists_digitChar_of_decimalDigit? d.isDigit (hds _ hc)
    rw [← hk]
    exact Numeral.isDigit_digitChar k
  obtain ⟨ds', hds'⟩ := Numeral.exists_map_digitChar hdigits
  refine ⟨ds', hds', ?_⟩
  rw [← List.map_eq_nil_iff (f := Numeral.digitChar), hds', List.map_eq_nil_iff]

theorem exponent_eq_none {exponent : Option Exponent}
    (h : ∀ c ∈ Exponent.chars exponent, Derived.isFormulaChar c = true) : exponent = none := by
  cases exponent with
  | none => rfl
  | some e =>
    have hmark := h _ List.mem_cons_self
    split at hmark <;> exact absurd hmark (by decide)

/-- In a formula a text that is read as a number is a numeral, behind a sign or not. -/
theorem exists_signedChars {cs : List Char} {d : Decimal}
    (h : Decimal.read? Text.decimalDigit? cs = some d)
    (hcs : ∀ c ∈ cs, Derived.isFormulaChar c = true) :
    ∃ sign n, cs = signedChars sign n := by
  obtain ⟨⟨sign, whole, fraction, exponent, hne⟩, rfl, -⟩ := Literal.exists_of_read? h
  have hbody : ∀ c ∈ whole.map Digit.char ++
      (Literal.fractionChars fraction ++ Exponent.chars exponent),
      Derived.isFormulaChar c = true := fun c hc => hcs c (List.mem_append_right _ hc)
  rw [List.forall_mem_append, List.forall_mem_append] at hbody
  obtain ⟨hwhole, hfraction, hexponent⟩ := hbody
  obtain rfl := exponent_eq_none hexponent
  obtain ⟨ds, hds, hempty⟩ := exists_digits_of_formulaChars hwhole
  cases fraction with
  | none =>
    have hdigits : ds ++ [] ≠ [] := by simpa [hempty] using hne
    refine ⟨sign, ⟨ds, none, hdigits⟩, ?_⟩
    rw [signedChars_eq_append, Numeral.chars, hds]
    rfl
  | some ks =>
    obtain ⟨ds', hds', hempty'⟩ :=
      exists_digits_of_formulaChars (List.forall_mem_cons.1 hfraction).2
    have hdigits : ds ++ ds' ≠ [] := by simpa [hempty, hempty'] using hne
    refine ⟨sign, ⟨ds, some ds', hdigits⟩, ?_⟩
    simp only [signedChars_eq_append, Numeral.chars, hds, hds', Literal.chars, Literal.body,
      Literal.fractionChars, Exponent.chars, List.append_nil]

/-- In a formula a text that is read as a number is an operand with that value. -/
theorem exists_operand {s : String} {x : Binary64} (h : Value.numberOfText? s = some x)
    (hs : ∀ c ∈ s.toList, Derived.isFormulaChar c = true) :
    ∃ sign n, Spaced Token.chars (signedOperand sign n).tokens s.toList ∧
      (startsWithSign (Text.trim s.toList) = sign.isSome) ∧
      (signedOperand sign n).value Numeral.value = x := by
  obtain ⟨gap, gap', hgap, hgap', htrim⟩ := Text.exists_trim s.toList
  have hmem : ∀ c ∈ Text.trim s.toList, Derived.isFormulaChar c = true := by
    intro c hc
    apply hs
    rw [htrim]
    exact List.mem_append_right _ (List.mem_append_left _ hc)
  unfold Value.numberOfText? at h
  split at h
  · next d hd =>
    obtain ⟨sign, n, hchars⟩ := exists_signedChars hd hmem
    refine ⟨sign, n, ?spaced, ?starts, ?value⟩
    case spaced =>
      rw [htrim, hchars]
      have hspaced := Spaced.flatMap_chars Token.chars (signedOperand sign n).tokens
      have hend := (hspaced.append (.nil hgap')).gap_append hgap
      rwa [List.append_nil] at hend
    case starts => rw [hchars, startsWithSign_signedChars]
    case value =>
      rw [hchars, read?_signedChars] at hd
      cases hd
      split at h
      · rw [value_signedOperand]
        exact Option.some.inj h
      · cases h
  · cases h

end FormLogic
