import FormLogic.Proofs.Formula.Numeral

namespace FormLogic

open Formula (Numeral)

structure Digit where
  char : Char
  value : Nat
  isDigit : Text.decimalDigit? char = some value

theorem ne_of_decimalDigit? {c mark : Char} {n : Nat} (hc : Text.decimalDigit? c = some n)
    (hmark : Text.decimalDigit? mark = none) : c ≠ mark := by
  rintro rfl
  rw [hc] at hmark
  cases hmark

namespace Digit

theorem spanDigits_append (ds : List Digit) {rest : List Char}
    (hrest : ∀ c ∈ rest.head?, Text.decimalDigit? c = none) :
    Decimal.spanDigits Text.decimalDigit? (ds.map char ++ rest) = (ds.map value, rest) := by
  induction ds with
  | nil =>
    cases rest with
    | nil => rfl
    | cons c rest => simp [Decimal.spanDigits, hrest c (by simp)]
  | cons d ds ih => simp [Decimal.spanDigits, d.isDigit, ih]

theorem exists_spanDigits (cs : List Char) : ∃ (ds : List Digit) (rest : List Char),
    ds.map char ++ rest = cs ∧
      Decimal.spanDigits Text.decimalDigit? cs = (ds.map value, rest) := by
  induction cs with
  | nil => exact ⟨[], [], rfl, rfl⟩
  | cons c cs ih =>
    cases hdigit : Text.decimalDigit? c with
    | none => exact ⟨[], c :: cs, rfl, by simp [Decimal.spanDigits, hdigit]⟩
    | some n =>
      obtain ⟨ds, rest, hcs, hspan⟩ := ih
      refine ⟨⟨c, n, hdigit⟩ :: ds, rest, ?_, ?_⟩
      · rw [List.map_cons, List.cons_append, hcs]
      · simp [Decimal.spanDigits, hdigit, hspan]

end Digit

def signChars : Option Bool → List Char
  | none => []
  | some true => ['-']
  | some false => ['+']

structure Exponent where
  isCapital : Bool
  sign : Option Bool
  digits : List Digit
  digits_ne : digits ≠ []

/-- A number as answers write it: an optional sign, digits with a point among, behind or in front of
them, and an optional exponent. -/
structure Literal where
  sign : Option Bool
  whole : List Digit
  fraction : Option (List Digit)
  exponent : Option Exponent
  digits_ne : whole ++ fraction.getD [] ≠ []

namespace Exponent

def chars : Option Exponent → List Char
  | none => []
  | some e => (if e.isCapital then 'E' else 'e') :: (signChars e.sign ++ e.digits.map Digit.char)

def value : Option Exponent → Int
  | none => 0
  | some e =>
    if e.sign = some true then -(Decimal.ofDigits (e.digits.map Digit.value) : Int)
    else Decimal.ofDigits (e.digits.map Digit.value)

end Exponent

namespace Literal

def fractionChars : Option (List Digit) → List Char
  | none => []
  | some ds => '.' :: ds.map Digit.char

def body (l : Literal) : List Char :=
  l.whole.map Digit.char ++ (fractionChars l.fraction ++ Exponent.chars l.exponent)

def chars (l : Literal) : List Char := signChars l.sign ++ l.body

def toRat (l : Literal) : ℚ :=
  Binary64.signed (l.sign == some true)
    (Decimal.ofDigits ((l.whole ++ l.fraction.getD []).map Digit.value) /
      10 ^ (l.fraction.getD []).length * 10 ^ Exponent.value l.exponent)

def decimal (l : Literal) : Decimal :=
  .ofParts (l.sign == some true) (l.whole.map Digit.value)
    ((l.fraction.getD []).map Digit.value) (Exponent.value l.exponent)

/-- The double nearest to a literal. -/
def value (l : Literal) : Binary64 := l.decimal.toBinary64

theorem toRat_decimal (l : Literal) : l.decimal.toRat = l.toRat := by
  rw [decimal, Decimal.ofParts, Decimal.toRat, toRat, List.length_map, List.map_append,
    zpow_sub₀ (by norm_num), zpow_natCast]
  congr 1
  ring

theorem value_isRounded (l : Literal) : Binary64.IsRounded l.toRat l.value := by
  rw [← toRat_decimal]
  exact l.decimal.toBinary64_isRounded

end Literal

theorem spanSign_append (sign : Option Bool) {rest : List Char}
    (hrest : ∀ c ∈ rest.head?, c ≠ '-' ∧ c ≠ '+') :
    Decimal.spanSign (signChars sign ++ rest) = (sign == some true, rest) := by
  match sign with
  | none => exact Numeral.spanSign_of_head hrest
  | some true => rfl
  | some false => rfl

theorem exists_spanSign (cs : List Char) : ∃ (sign : Option Bool) (rest : List Char),
    signChars sign ++ rest = cs ∧ Decimal.spanSign cs = (sign == some true, rest) := by
  unfold Decimal.spanSign
  split
  · next rest => exact ⟨some true, rest, rfl, rfl⟩
  · next rest => exact ⟨some false, rest, rfl, rfl⟩
  · exact ⟨none, cs, rfl, rfl⟩

theorem spanFraction_of_head {cs : List Char} (h : ∀ c ∈ cs.head?, c ≠ '.') :
    Decimal.spanFraction Text.decimalDigit? cs = ([], cs) := by
  unfold Decimal.spanFraction
  split
  · exact absurd rfl (h '.' rfl)
  · rfl

theorem Exponent.head_chars {exponent : Option Exponent} {c : Char}
    (h : c ∈ (chars exponent).head?) : c = 'e' ∨ c = 'E' := by
  cases exponent with
  | none => cases h
  | some e =>
    have hc : (if e.isCapital then 'E' else 'e') = c := by simpa [chars] using h
    rw [← hc]
    split
    · exact .inr rfl
    · exact .inl rfl

/-- An exponent is read up to the end of a text. -/
theorem readExponent?_eq_some_iff (cs : List Char) (n : Int) :
    Decimal.readExponent? Text.decimalDigit? cs = some n ↔
      ∃ e : Option Exponent, Exponent.chars e = cs ∧ Exponent.value e = n := by
  constructor
  · intro h
    unfold Decimal.readExponent? at h
    split at h
    · exact ⟨none, rfl, Option.some.inj h⟩
    · next c cs =>
      split at h
      · next hmark =>
        obtain ⟨sign, rest, rfl, hsign⟩ := exists_spanSign cs
        obtain ⟨ds, rest, rfl, hspan⟩ := Digit.exists_spanDigits rest
        rw [hsign, hspan] at h
        split at h
        · next d ds' hpair =>
          obtain ⟨hds, rfl⟩ := Prod.mk.inj hpair
          have hne : ds ≠ [] := by
            rintro rfl
            cases hds
          refine ⟨some ⟨c == 'E', sign, ds, hne⟩, ?_, ?_⟩
          · rcases hmark with rfl | rfl <;> simp [Exponent.chars]
          · rw [← hds] at h
            simpa [Exponent.value] using h
        · cases h
      · cases h
  · rintro ⟨e, rfl, rfl⟩
    cases e with
    | none => rfl
    | some e =>
      obtain ⟨isCapital, sign, digits, hne⟩ := e
      obtain ⟨d, ds, rfl⟩ := List.exists_cons_of_ne_nil hne
      have hhead : ∀ c ∈ ((d :: ds).map Digit.char).head?, c ≠ '-' ∧ c ≠ '+' := by
        intro c hc
        obtain rfl : d.char = c := by simpa using hc
        exact ⟨ne_of_decimalDigit? d.isDigit (by decide), ne_of_decimalDigit? d.isDigit (by decide)⟩
      have hend : ∀ c ∈ ([] : List Char).head?, Text.decimalDigit? c = none := by simp
      have hspan := Digit.spanDigits_append (d :: ds) hend
      rw [List.append_nil] at hspan
      have hmark : (if isCapital then 'E' else 'e') = 'e' ∨
          (if isCapital then 'E' else 'e') = 'E' := by
        cases isCapital <;> simp
      rw [Exponent.chars, Decimal.readExponent?, if_pos hmark, spanSign_append sign hhead, hspan]
      simp [Exponent.value]

namespace Literal

theorem head_body (l : Literal) {c : Char} (h : c ∈ l.body.head?) :
    c = '.' ∨ ∃ n, Text.decimalDigit? c = some n := by
  obtain ⟨sign, whole, fraction, exponent, hne⟩ := l
  cases whole with
  | cons d ds =>
    obtain rfl : d.char = c := by simpa [body] using h
    exact .inr ⟨d.value, d.isDigit⟩
  | nil =>
    cases fraction with
    | none => exact absurd rfl hne
    | some ds =>
      obtain rfl : '.' = c := by simpa [body, fractionChars] using h
      exact .inl rfl

theorem spanSign_chars (l : Literal) :
    Decimal.spanSign l.chars = (l.sign == some true, l.body) := by
  apply spanSign_append
  intro c hc
  rcases l.head_body hc with rfl | ⟨n, hn⟩
  · decide
  · exact ⟨ne_of_decimalDigit? hn (by decide), ne_of_decimalDigit? hn (by decide)⟩

theorem spanFraction_append (fraction : Option (List Digit)) {rest : List Char}
    (hrest : ∀ c ∈ rest.head?, Text.decimalDigit? c = none ∧ c ≠ '.') :
    Decimal.spanFraction Text.decimalDigit? (fractionChars fraction ++ rest) =
      ((fraction.getD []).map Digit.value, rest) := by
  cases fraction with
  | none => exact spanFraction_of_head fun c hc => (hrest c hc).2
  | some ds => exact Digit.spanDigits_append ds fun c hc => (hrest c hc).1

theorem exists_spanFraction (cs : List Char) :
    ∃ (fraction : Option (List Digit)) (rest : List Char), fractionChars fraction ++ rest = cs ∧
      Decimal.spanFraction Text.decimalDigit? cs = ((fraction.getD []).map Digit.value, rest) := by
  unfold Decimal.spanFraction
  split
  · next cs =>
    obtain ⟨ds, rest, rfl, hspan⟩ := Digit.exists_spanDigits cs
    exact ⟨some ds, rest, rfl, hspan⟩
  · exact ⟨none, cs, rfl, rfl⟩

/-- A literal is read as the decimal it stands for. -/
theorem read?_chars (l : Literal) : Decimal.read? Text.decimalDigit? l.chars = some l.decimal := by
  have hexponent : ∀ c ∈ (Exponent.chars l.exponent).head?,
      Text.decimalDigit? c = none ∧ c ≠ '.' := by
    intro c hc
    rcases Exponent.head_chars hc with rfl | rfl <;> decide
  have hrest : ∀ c ∈ (fractionChars l.fraction ++ Exponent.chars l.exponent).head?,
      Text.decimalDigit? c = none := by
    intro c hc
    cases hfraction : l.fraction with
    | none =>
      rw [hfraction] at hc
      exact (hexponent c hc).1
    | some ds =>
      rw [hfraction] at hc
      obtain rfl : '.' = c := by simpa [fractionChars] using hc
      decide
  have hread := (readExponent?_eq_some_iff _ _).2 ⟨l.exponent, rfl, rfl⟩
  have hne : ¬(l.whole.map Digit.value = [] ∧ (l.fraction.getD []).map Digit.value = []) := by
    have hdigits := l.digits_ne
    rwa [ne_eq, List.append_eq_nil_iff, ← List.map_eq_nil_iff (f := Digit.value),
      ← List.map_eq_nil_iff (f := Digit.value) (l := l.fraction.getD [])] at hdigits
  simp only [Decimal.read?, l.spanSign_chars]
  rw [body, Digit.spanDigits_append _ hrest, spanFraction_append _ hexponent, if_neg hne, hread]
  rfl

/-- What is read is a literal. -/
theorem exists_of_read? {cs : List Char} {d : Decimal}
    (h : Decimal.read? Text.decimalDigit? cs = some d) :
    ∃ l : Literal, l.chars = cs ∧ l.decimal = d := by
  obtain ⟨sign, rest, rfl, hsign⟩ := exists_spanSign cs
  obtain ⟨whole, rest, rfl, hwhole⟩ := Digit.exists_spanDigits rest
  obtain ⟨fraction, rest, rfl, hfraction⟩ := exists_spanFraction rest
  simp only [Decimal.read?, hsign, hwhole, hfraction] at h
  split at h
  · cases h
  · next hne =>
    obtain ⟨n, hread, rfl⟩ := Option.map_eq_some_iff.1 h
    obtain ⟨exponent, rfl, rfl⟩ := (readExponent?_eq_some_iff _ _).1 hread
    have hdigits : whole ++ fraction.getD [] ≠ [] := by
      rw [ne_eq, List.append_eq_nil_iff]
      rintro ⟨rfl, hfraction⟩
      exact hne ⟨rfl, by rw [hfraction]; rfl⟩
    exact ⟨⟨sign, whole, fraction, exponent, hdigits⟩, rfl, rfl⟩

end Literal

theorem mem_signChars {sign : Option Bool} {c : Char} (h : c ∈ signChars sign) :
    c = '-' ∨ c = '+' := by
  match sign with
  | none => cases h
  | some true => exact .inl (List.mem_singleton.1 h)
  | some false => exact .inr (List.mem_singleton.1 h)

/-- Literals consist of digits, signs, points and the marks of exponents. -/
theorem Literal.mem_chars (l : Literal) {c : Char} (h : c ∈ l.chars) :
    (∃ d : Digit, d.char = c) ∨ c ∈ ['-', '+', '.', 'e', 'E'] := by
  have hdigits : ∀ ds : List Digit, c ∈ ds.map Digit.char → ∃ d : Digit, d.char = c := by
    intro ds hc
    obtain ⟨d, -, hd⟩ := List.mem_map.1 hc
    exact ⟨d, hd⟩
  have hsign : ∀ sign, c ∈ signChars sign → c ∈ ['-', '+', '.', 'e', 'E'] := by
    intro sign hc
    rcases mem_signChars hc with rfl | rfl <;> decide
  obtain ⟨sign, whole, fraction, exponent, hne⟩ := l
  simp only [chars, body, List.mem_append] at h
  rcases h with h | h | h | h
  · exact .inr (hsign sign h)
  · exact .inl (hdigits whole h)
  · cases fraction with
    | none => cases h
    | some ds =>
      rcases List.mem_cons.1 h with rfl | h
      · exact .inr (by decide)
      · exact .inl (hdigits ds h)
  · cases exponent with
    | none => cases h
    | some e =>
      rcases List.mem_cons.1 h with rfl | h
      · exact .inr (by split <;> decide)
      · rcases List.mem_append.1 h with h | h
        · exact .inr (hsign e.sign h)
        · exact .inl (hdigits e.digits h)

theorem Literal.not_mem_chars (l : Literal) {c : Char} (hdigit : Text.decimalDigit? c = none)
    (huse : c ∉ ['-', '+', '.', 'e', 'E']) : c ∉ l.chars := by
  intro h
  rcases l.mem_chars h with ⟨d, hd⟩ | hmark
  · exact ne_of_decimalDigit? d.isDigit hdigit hd
  · exact huse hmark

end FormLogic
