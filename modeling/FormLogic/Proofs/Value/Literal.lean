import FormLogic.Proofs.Derived.AnswerText

namespace FormLogic

open Formula (Numeral)

namespace Text

/-- The ASCII digit of the same value; what is no digit stays. -/
def plainDigit (c : Char) : Char :=
  match decimalDigit? c with
  | some n => Nat.digitChar n
  | none => c

theorem lt_of_decimalDigit? {c : Char} {n : Nat} (h : decimalDigit? c = some n) : n < 10 := by
  obtain ⟨first, hfind, rfl⟩ := Option.map_eq_some_iff.1 h
  have hrange := List.find?_some hfind
  rw [Bool.and_eq_true, decide_eq_true_eq, decide_eq_true_eq] at hrange
  omega

theorem plainDigit_of_none {c : Char} (h : decimalDigit? c = none) : plainDigit c = c := by
  rw [plainDigit, h]

theorem decimalDigit?_plainDigit (c : Char) : decimalDigit? (plainDigit c) = decimalDigit? c := by
  cases h : decimalDigit? c with
  | none => rw [plainDigit_of_none h, h]
  | some n =>
    rw [plainDigit, h]
    exact Numeral.decimalDigit?_digitChar ⟨n, lt_of_decimalDigit? h⟩

theorem isBlank_plainDigit (c : Char) : isBlank (plainDigit c) = isBlank c := by
  cases h : decimalDigit? c with
  | none => rw [plainDigit_of_none h]
  | some n =>
    have hnot : ∀ c', decimalDigit? c' = some n → isBlank c' = false := by
      intro c' hc'
      rw [Bool.eq_false_iff]
      intro hblank
      rw [decimalDigit?_of_isBlank hblank] at hc'
      cases hc'
    rw [hnot c h, hnot _ ((decimalDigit?_plainDigit c).trans h)]

theorem trim_map_plainDigit (cs : List Char) :
    trim (cs.map plainDigit) = (trim cs).map plainDigit := by
  have hdrop : ∀ ds : List Char,
      (ds.map plainDigit).dropWhile isBlank = (ds.dropWhile isBlank).map plainDigit := by
    intro ds
    have hblank : isBlank ∘ plainDigit = isBlank := funext isBlank_plainDigit
    rw [List.dropWhile_map, hblank]
  rw [trim, trim, trimBy, trimBy, hdrop, ← List.map_reverse, hdrop, List.map_reverse]

/-- A character that is no digit is the plain form of itself alone. -/
theorem plainDigit_eq_iff {c mark : Char} (hmark : decimalDigit? mark = none) :
    plainDigit c = mark ↔ c = mark := by
  constructor
  · rintro rfl
    rw [decimalDigit?_plainDigit] at hmark
    exact (plainDigit_of_none hmark).symm
  · rintro rfl
    exact plainDigit_of_none hmark

end Text

section
open Text

theorem spanDigits_map_plainDigit (cs : List Char) :
    Decimal.spanDigits decimalDigit? (cs.map plainDigit) =
      ((Decimal.spanDigits decimalDigit? cs).1,
        (Decimal.spanDigits decimalDigit? cs).2.map plainDigit) := by
  induction cs with
  | nil => rfl
  | cons c cs ih =>
    rw [List.map_cons, Decimal.spanDigits, Decimal.spanDigits, decimalDigit?_plainDigit]
    cases hdigit : decimalDigit? c with
    | none => rfl
    | some n => simp [ih]

theorem head_map_plainDigit {mark : Char} (hmark : decimalDigit? mark = none) {cs : List Char}
    (h : ∀ c ∈ cs.head?, c ≠ mark) : ∀ c ∈ (cs.map plainDigit).head?, c ≠ mark := by
  intro c hc
  rw [List.head?_map] at hc
  obtain ⟨c', hc', rfl⟩ := Option.mem_map.1 hc
  exact fun heq => h c' hc' ((plainDigit_eq_iff hmark).1 heq)

theorem spanSign_map_plainDigit (cs : List Char) : Decimal.spanSign (cs.map plainDigit) =
    ((Decimal.spanSign cs).1, (Decimal.spanSign cs).2.map plainDigit) := by
  by_cases h : ∀ c ∈ cs.head?, c ≠ '-' ∧ c ≠ '+'
  · have hminus := head_map_plainDigit (by decide) fun c hc => (h c hc).1
    have hplus := head_map_plainDigit (by decide) fun c hc => (h c hc).2
    rw [Numeral.spanSign_of_head h,
      Numeral.spanSign_of_head fun c hc => ⟨hminus c hc, hplus c hc⟩]
  · cases cs with
    | nil => rfl
    | cons c cs =>
      have hc : c = '-' ∨ c = '+' := by simpa [or_iff_not_imp_left] using h
      rcases hc with rfl | rfl <;> rw [List.map_cons, plainDigit_of_none (by decide)] <;> rfl

theorem spanFraction_map_plainDigit (cs : List Char) :
    Decimal.spanFraction decimalDigit? (cs.map plainDigit) =
      ((Decimal.spanFraction decimalDigit? cs).1,
        (Decimal.spanFraction decimalDigit? cs).2.map plainDigit) := by
  by_cases h : ∀ c ∈ cs.head?, c ≠ '.'
  · rw [spanFraction_of_head h, spanFraction_of_head (head_map_plainDigit (by decide) h)]
  · cases cs with
    | nil => rfl
    | cons c cs =>
      obtain rfl : c = '.' := by simpa using h
      rw [List.map_cons, plainDigit_of_none (by decide)]
      exact spanDigits_map_plainDigit cs

theorem readExponent?_map_plainDigit (cs : List Char) :
    Decimal.readExponent? decimalDigit? (cs.map plainDigit) =
      Decimal.readExponent? decimalDigit? cs := by
  cases cs with
  | nil => rfl
  | cons c cs =>
    have he : plainDigit c = 'e' ↔ c = 'e' := plainDigit_eq_iff (by decide)
    have hE : plainDigit c = 'E' ↔ c = 'E' := plainDigit_eq_iff (by decide)
    simp only [List.map_cons, Decimal.readExponent?, he, hE, spanSign_map_plainDigit,
      spanDigits_map_plainDigit]
    obtain ⟨ds, rest⟩ := Decimal.spanDigits decimalDigit? (Decimal.spanSign cs).2
    cases ds <;> cases rest <;> rfl

/-- A text is read by the values of its digits. -/
theorem read?_map_plainDigit (cs : List Char) :
    Decimal.read? decimalDigit? (cs.map plainDigit) = Decimal.read? decimalDigit? cs := by
  simp only [Decimal.read?, spanSign_map_plainDigit, spanDigits_map_plainDigit,
    spanFraction_map_plainDigit, readExponent?_map_plainDigit]

end

namespace Binary64

/-- The general conversion of texts to doubles. It allows blanks around a number and underscores
between digits, and it knows the names of the infinities and of `nan`. -/
def ofText? (cs : List Char) : Option Binary64 :=
  (Decimal.joinDigits? Text.decimalDigit? (Text.trim cs)).bind (read? Text.decimalDigit?)

theorem joinDigits?_of_not_mem {digit? : Char → Option Nat} {cs : List Char} (h : '_' ∉ cs) :
    Decimal.joinDigits? digit? cs = some cs := by
  fun_induction Decimal.joinDigits? digit? cs with
  | case1 => rfl
  | case2 cs => simp at h
  | case3 c d cs hdigits ih => simp at h
  | case4 c d cs hdigits => simp at h
  | case5 c cs hunderscore hnext ih =>
    rw [ih fun hmem => h (List.mem_cons_of_mem c hmem)]
    rfl

theorem ofName?_of_head {cs : List Char} (h : ∀ c ∈ cs.head?, c ≠ 'i' ∧ c ≠ 'n') :
    ofName? cs = none := by
  unfold ofName?
  split
  · exact absurd rfl (h 'i' rfl).1
  · exact absurd rfl (h 'i' rfl).1
  · exact absurd rfl (h 'n' rfl).2
  · rfl

end Binary64

theorem toLower_of_decimalDigit? {c : Char} {n : Nat} (h : Text.decimalDigit? c = some n) :
    c.toLower = c := by
  have hall : ∀ n ∈ List.range' 65 26,
      (Text.digitZeros.find? fun first => first ≤ n && n < first + 10) = none := by
    decide
  apply dif_neg
  rintro ⟨hlow, hhigh⟩
  have hcode : c.toNat ∈ List.range' 65 26 := by
    rw [List.mem_range'_1]
    exact ⟨hlow, Nat.lt_succ_of_le hhigh⟩
  rw [Text.decimalDigit?, hall _ hcode] at h
  cases h

namespace Literal

theorem isBlank_of_mem_chars (l : Literal) {c : Char} (h : c ∈ l.chars) :
    Text.isBlank c = false := by
  rw [Bool.eq_false_iff]
  intro hblank
  refine l.not_mem_chars (Text.decimalDigit?_of_isBlank hblank) ?_ h
  simp only [List.mem_cons, List.not_mem_nil, or_false]
  rintro (rfl | rfl | rfl | rfl | rfl) <;> exact absurd hblank (by decide)

/-- No literal is the name of an infinity or of `nan`. -/
theorem ofName?_chars (l : Literal) :
    Binary64.ofName? ((Decimal.spanSign l.chars).2.map Char.toLower) = none := by
  apply Binary64.ofName?_of_head
  intro c hc
  rw [l.spanSign_chars, List.head?_map] at hc
  obtain ⟨c, hhead, rfl⟩ := Option.mem_map.1 hc
  rcases l.head_body hhead with rfl | ⟨n, hn⟩
  · decide
  · rw [toLower_of_decimalDigit? hn]
    exact ⟨ne_of_decimalDigit? hn (by decide), ne_of_decimalDigit? hn (by decide)⟩

/-- The general conversion takes every literal, and gives the double nearest to it. -/
theorem ofText?_chars (l : Literal) : Binary64.ofText? l.chars = some l.value := by
  have htrim : Text.trim l.chars = l.chars :=
    Text.trim_eq_self fun _ hc => l.isBlank_of_mem_chars hc
  have hunderscore : '_' ∉ l.chars := l.not_mem_chars (by decide) (by decide)
  rw [Binary64.ofText?, htrim, Binary64.joinDigits?_of_not_mem hunderscore,
    Option.bind_some, Binary64.read?, l.ofName?_chars, l.read?_chars]
  rfl

end Literal

/-- What other notations of numbers have and literals have not: an underscore, a name of an
infinity or of `nan`, the mark of a hexadecimal number, a blank inside. -/
inductive IsForeign (cs : List Char) : Prop
  | underscore (h : '_' ∈ cs)
  | name {named : Bool → Binary64}
      (h : Binary64.ofName? ((Decimal.spanSign cs).2.map Char.toLower) = some named)
  | hexadecimal (h : 'x' ∈ cs ∨ 'X' ∈ cs)
  | blank {c : Char} (hc : Text.isBlank c = true) (h : c ∈ cs)

theorem Literal.not_isForeign_chars (l : Literal) : ¬IsForeign l.chars := by
  intro h
  cases h with
  | underscore h => exact l.not_mem_chars (by decide) (by decide) h
  | name h =>
    rw [l.ofName?_chars] at h
    cases h
  | hexadecimal h =>
    rcases h with h | h
    · exact l.not_mem_chars (by decide) (by decide) h
    · exact l.not_mem_chars (by decide) (by decide) h
  | blank hc h =>
    rw [l.isBlank_of_mem_chars h] at hc
    cases hc

namespace Value

theorem numberOfText?_eq_some_iff (s : String) (x : Binary64) : numberOfText? s = some x ↔
    ∃ l : Literal, l.chars = Text.trim s.toList ∧ l.value = x ∧ x.isFinite = true := by
  unfold numberOfText?
  constructor
  · intro h
    split at h
    · next d hd =>
      obtain ⟨l, hchars, rfl⟩ := Literal.exists_of_read? hd
      split at h
      · next hfinite =>
        obtain rfl := Option.some.inj h
        exact ⟨l, hchars, rfl, hfinite⟩
      · cases h
    · cases h
  · rintro ⟨l, hchars, rfl, hfinite⟩
    rw [← hchars, l.read?_chars]
    exact if_pos hfinite

theorem numberOfText?_eq_none_iff (s : String) : numberOfText? s = none ↔
    ∀ l : Literal, l.chars = Text.trim s.toList → l.value.isFinite = false := by
  rw [Option.eq_none_iff_forall_ne_some]
  constructor
  · intro h l hchars
    rw [Bool.eq_false_iff]
    intro hfinite
    exact h l.value ((numberOfText?_eq_some_iff s _).2 ⟨l, hchars, rfl, hfinite⟩)
  · intro h x hx
    obtain ⟨l, hchars, rfl, hfinite⟩ := (numberOfText?_eq_some_iff s x).1 hx
    rw [h l hchars] at hfinite
    cases hfinite

theorem numberOfText?_padded {before after : List Char} (hbefore : Text.Blanks before)
    (hafter : Text.Blanks after) (s : String) :
    numberOfText? (String.ofList (before ++ (s.toList ++ after))) = numberOfText? s := by
  rw [numberOfText?, numberOfText?, String.toList_ofList, Text.trim_padded hbefore hafter]

theorem numberOfText?_plainDigits (s : String) :
    numberOfText? (String.ofList (s.toList.map Text.plainDigit)) = numberOfText? s := by
  rw [numberOfText?, numberOfText?, String.toList_ofList, Text.trim_map_plainDigit,
    read?_map_plainDigit]

theorem numberOfText?_of_isForeign {s : String} (h : IsForeign (Text.trim s.toList)) :
    numberOfText? s = none := by
  rw [numberOfText?_eq_none_iff]
  intro l hchars
  rw [← hchars] at h
  exact absurd h l.not_isForeign_chars

/-- A text is read as a number exactly if it is a literal between blanks that has a finite double
nearest to it, and it is read as this double. Blanks around the text and the scripts of its digits
make no difference, the conversion takes every literal, and no other notation of numbers is read. -/
theorem number?_text_iff_literal (s : String) :
    (∀ x, (text s).number? = .ok (some x) ↔
      ∃ l : Literal, l.chars = Text.trim s.toList ∧ l.value = x ∧ x.isFinite = true) ∧
    ((text s).number? = .ok none ↔
      ∀ l : Literal, l.chars = Text.trim s.toList → l.value.isFinite = false) ∧
    (∀ l : Literal, Binary64.IsRounded l.toRat l.value ∧ Binary64.ofText? l.chars = some l.value) ∧
    (∀ before after, Text.Blanks before → Text.Blanks after →
      (text (String.ofList (before ++ (s.toList ++ after)))).number? = (text s).number?) ∧
    (text (String.ofList (s.toList.map Text.plainDigit))).number? = (text s).number? ∧
    (IsForeign (Text.trim s.toList) → (text s).number? = .ok none) := by
  have hread : ∀ read, (text s).number? = .ok read ↔ numberOfText? s = read := fun read =>
    ⟨Except.ok.inj, congrArg Except.ok⟩
  refine ⟨fun x => ?number, ?nothing, fun l => ⟨l.value_isRounded, l.ofText?_chars⟩, ?padding,
    ?digits, ?foreign⟩
  case number => rw [hread, numberOfText?_eq_some_iff]
  case nothing => rw [hread, numberOfText?_eq_none_iff]
  case padding =>
    exact fun before after hbefore hafter =>
      congrArg Except.ok (numberOfText?_padded hbefore hafter s)
  case digits => exact congrArg Except.ok (numberOfText?_plainDigits s)
  case foreign => exact fun h => congrArg Except.ok (numberOfText?_of_isForeign h)

/-- A literal with digits of two scripts between blanks is read, and one with an underscore is
not. -/
theorem number?_text_iff_literal_arabic :
    Text.Blanks [' ', '\u2003'] ∧ Text.Blanks ['\n'] ∧
      (text " \u2003\u0663.5E1\n").number? = .ok (some (Binary64.ofInt 35)) ∧
      (text "1_000").number? = .ok none := by
  let l : Literal := ⟨none, [⟨'\u0663', 3, by decide⟩], some [⟨'5', 5, by decide⟩],
    some ⟨true, none, [⟨'1', 1, by decide⟩], by simp⟩, by simp⟩
  have hafter : Text.Blanks ['\n'] := List.forall_mem_singleton.2 (by decide)
  have hbefore : Text.Blanks [' ', '\u2003'] :=
    List.forall_mem_cons.2 ⟨by decide, List.forall_mem_singleton.2 (by decide)⟩
  have hchars : l.chars = Text.trim "\u0663.5E1".toList := by decide +kernel
  have hvalue : l.value = Binary64.ofInt 35 := by decide +kernel
  obtain ⟨hread, -, -, hpadding, -⟩ := number?_text_iff_literal "\u0663.5E1"
  obtain ⟨-, -, -, -, -, hforeign⟩ := number?_text_iff_literal "1_000"
  refine ⟨hbefore, hafter, (hpadding _ _ hbefore hafter).trans ?_, ?_⟩
  · exact (hread _).2 ⟨l, hchars, hvalue, by decide +kernel⟩
  · exact hforeign (.underscore (by decide +kernel))

end Value
end FormLogic
