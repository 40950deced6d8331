import FormLogic.Derived
import FormLogic.Proofs.Formula.Splitting
import FormLogic.Proofs.Text.Pattern

namespace FormLogic.Derived

open Formula Text

theorem isSome_ofChar?_iff {c : Char} :
    (Token.ofChar? c).isSome = true ↔ c ∈ ['+', '-', '*', '/', '(', ')'] := by
  unfold Token.ofChar?
  split <;> simp_all

theorem isFormulaChar_iff {c : Char} : isFormulaChar c = true ↔
    Token.isDigit c = true ∨ Text.isBlank c = true ∨ c = '.' ∨
      (Token.ofChar? c).isSome = true := by
  rw [isSome_ofChar?_iff, isFormulaChar, Bool.or_eq_true, Bool.or_eq_true, List.contains_iff_mem,
    formulaMarks, List.mem_cons, or_assoc]

theorem isFormulaChar_of_isBlank {c : Char} (h : Text.isBlank c = true) :
    isFormulaChar c = true :=
  isFormulaChar_iff.2 (.inr (.inl h))

/-- The pattern refuses the empty text, and of the others those with a foreign character. -/
theorem startsText_formulaPattern_iff {text : String} : formulaPattern.startsText text = true ↔
    text ≠ "" ∧ ∀ c ∈ text.toList, isFormulaChar c = true := by
  have hempty : text ≠ "" ↔ 1 ≤ text.toList.length := by
    rw [Nat.one_le_iff_ne_zero, ne_eq, ne_eq, List.length_eq_zero_iff, String.toList_eq_nil_iff]
  rw [hempty, Pattern.startsText, formulaPattern,
    (Pattern.takes_atLeast 1 isFormulaChar).passes_textEnd]
  simp only [Pattern.mem_atLeast_single]
  constructor
  · rintro (h | ⟨part, ⟨-, hchars⟩, heq⟩)
    · exact h
    · -- the end of a line is a blank, which the pattern could have taken as well
      rw [← heq, List.length_append, List.forall_mem_append]
      exact ⟨Nat.le_add_left 1 _, hchars, by simpa using isFormulaChar_of_isBlank rfl⟩
  · exact .inl

theorem isFormulaChar_of_stands {rest : List Char} {t : Token} (h : Token.Stands rest t) :
    ∀ c ∈ t.chars, isFormulaChar c = true := by
  intro c hc
  cases h with
  | single ht =>
    obtain ⟨c', hchars, hsingle, -⟩ := Token.exists_chars_eq ht
    rw [hchars, List.mem_singleton] at hc
    exact isFormulaChar_iff.2 (.inr (.inr (.inr (by rw [hc, hsingle]; rfl))))
  | number n _ =>
    rcases n.mem_chars hc with hdigit | rfl
    · exact isFormulaChar_iff.2 (.inl hdigit)
    · rfl

theorem isFormulaChar_of_readAs {rest : List Char} {ts : List Token} {cs : List Char}
    (h : Token.ReadAs rest ts cs) : ∀ c ∈ cs, isFormulaChar c = true := by
  induction h with
  | nil hgap => exact fun c hc => isFormulaChar_of_isBlank (hgap c hc)
  | cons hgap ht _ ih =>
    intro c hc
    rcases List.mem_append.1 hc with hc | hc
    · exact isFormulaChar_of_isBlank (hgap c hc)
    · rcases List.mem_append.1 hc with hc | hc
      · exact isFormulaChar_of_stands ht c hc
      · exact ih c hc

variable {text : String}

theorem startsText_of_scan {ts : List Token} (h : Token.scan text = .ok ts) (hne : text ≠ "") :
    formulaPattern.startsText text = true :=
  startsText_formulaPattern_iff.2 ⟨hne, isFormulaChar_of_readAs (Token.readAs_of_scanFrom h)⟩

theorem exists_stray_of_scan {e : Error} (h : Token.scan text = .error e) :
    ∃ before c after ts, text.toList = before ++ c :: after ∧
      e = .strayCharacter c before.length ∧ Token.ReadAs (c :: after) ts before ∧
      Token.IsStray c after := by
  have hsplits := Token.splits_scanFrom 0 text.toList
  rw [← Token.scan, h] at hsplits
  cases hsplits with
  | @stray before c after ts hbefore hc hcs =>
    exact ⟨before, c, after, ts, hcs.symm, by rw [Nat.zero_add], hbefore, hc⟩

theorem exists_stray_of_startsText (hne : text ≠ "")
    (h : formulaPattern.startsText text = false) :
    ∃ c position, Token.scan text = .error (.strayCharacter c position) := by
  cases hscan : Token.scan text with
  | ok ts => rw [startsText_of_scan hscan hne] at h; cases h
  | error e =>
    obtain ⟨before, c, after, ts, -, rfl, -⟩ := exists_stray_of_scan hscan
    exact ⟨c, _, rfl⟩

theorem formulaValue_eq_evaluated {settings : Settings} (hblank : ¬Blanks text.toList)
    (hlength : settings.lengthLimit.exceeded? text.length = some false) :
    formulaValue settings text = evaluated settings.depthLimit text := by
  have hall : ¬text.toList.all Text.isBlank = true := fun h => hblank (List.all_eq_true.1 h)
  rw [formulaValue, if_neg hall, hlength]
  cases hpattern : formulaPattern.startsText text with
  | true => simp
  | false =>
    have hne : text ≠ "" := by
      rintro rfl
      exact hblank blanks_nil
    obtain ⟨c, position, hscan⟩ := exists_stray_of_startsText hne hpattern
    simp [evaluated, evaluate, hscan]

/-- A formula has the value that it would have without the pattern. What is refused by the pattern,
but for the empty text, cannot be split, and what can be split, but for the empty text, is not
refused. A text that is not refused and cannot be split has a stray point, which no number in front
of it has taken and which has no digit behind it. -/
theorem formulaPattern_agrees_scan (settings : Settings) (answers : Answers) (d : Derivation)
    (text : String) :
    let filled := substitute d.formula d.parents answers
    (¬Blanks filled.toList → settings.lengthLimit.exceeded? filled.length = some false →
      custom settings answers d = evaluated settings.depthLimit filled) ∧
    (formulaPattern.startsText text = false → text = "" ∨
      ∃ c position, Token.scan text = .error (.strayCharacter c position)) ∧
    (∀ ts, Token.scan text = .ok ts → text ≠ "" → formulaPattern.startsText text = true) ∧
    (∀ e, Token.scan text = .error e → formulaPattern.startsText text = true →
      ∃ before after ts, text.toList = before ++ '.' :: after ∧
        e = .strayCharacter '.' before.length ∧ Token.ReadAs ('.' :: after) ts before ∧
        ∀ c ∈ after.head?, Token.isDigit c = false) := by
  refine ⟨?value, ?refused, ?accepted, ?stray⟩
  case value => exact formulaValue_eq_evaluated
  case refused => exact fun h => or_iff_not_imp_left.2 fun hne => exists_stray_of_startsText hne h
  case accepted => exact fun ts => startsText_of_scan
  case stray =>
    intro e hscan hpattern
    obtain ⟨before, c, after, ts, hcs, rfl, hbefore, hc⟩ := exists_stray_of_scan hscan
    have hchar : isFormulaChar c = true :=
      (startsText_formulaPattern_iff.1 hpattern).2 c (by simp [hcs])
    obtain rfl : c = '.' := by
      simpa [isFormulaChar_iff, hc.notDigit, hc.notBlank, hc.notSingle] using hchar
    exact ⟨before, after, ts, hcs, rfl, hbefore, hc.noFraction rfl⟩

/-- A second point behind a number: the pattern takes it, and no token does. -/
theorem formulaPattern_agrees_scan_points :
    let answers := Answers.ofList [("a", .text "1.")]
    let d : Derivation := ⟨["a"], .custom, "${a}2."⟩
    custom {} answers d = evaluated (Settings.depthLimit {}) "1.2." ∧
    formulaPattern.startsText "1.2." = true ∧
    ∃ before after ts, "1.2.".toList = before ++ '.' :: after ∧
      Token.scan "1.2." = .error (.strayCharacter '.' before.length) ∧
      Token.ReadAs ('.' :: after) ts before ∧ ∀ c ∈ after.head?, Token.isDigit c = false := by
  intro answers d
  have hscan : Token.scan "1.2." = .error (.strayCharacter '.' 3) := by cbv
  have hpattern : formulaPattern.startsText "1.2." = true := by decide +kernel
  have hfilled : substitute d.formula d.parents answers = "1.2." := by decide +kernel
  obtain ⟨hvalue, -, -, hstray⟩ := formulaPattern_agrees_scan {} answers d "1.2."
  rw [hfilled] at hvalue
  have hblanks : ¬Blanks "1.2.".toList :=
    fun hblanks => absurd (hblanks '1' (by decide +kernel)) (by decide +kernel)
  obtain ⟨before, after, ts, hcs, he, hbefore, hafter⟩ := hstray _ hscan hpattern
  rw [he] at hscan
  exact ⟨hvalue hblanks (by decide +kernel), hpattern, before, after, ts, hcs, hscan, hbefore,
    hafter⟩

end FormLogic.Derived
