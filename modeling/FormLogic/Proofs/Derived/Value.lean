import FormLogic.Derived
import FormLogic.Proofs.Calendar.Anniversary
import FormLogic.Proofs.Field
import FormLogic.Proofs.Formula.Evaluation
import FormLogic.Proofs.Limit
import FormLogic.Proofs.Schema.Basic
import FormLogic.Proofs.Value.Display
import FormLogic.Proofs.Value.Number

namespace FormLogic

open Binary64

/-- What a value adds to a sum: its number, or zero if it has none. -/
def Value.summand (v : Value) : Binary64 :=
  match v.number? with
  | .ok (some x) => x
  | _ => .zero false

namespace Derived

def total (answers : Answers) (parents : List String) : Binary64 :=
  parents.foldl (fun sum parent => sum + (answers.get parent).summand) (.zero false)

/-- A sum is out of range: an answer is too large, or the total stops being finite on the way. -/
def SumFails (answers : Answers) (parents : List String) : Prop :=
  (∃ parent ∈ parents, (answers.get parent).IsTooLarge) ∨
    ∃ before, before <+: parents ∧ (total answers before).isFinite = false

section
variable (answers : Answers) (parents : List String)

theorem isFinite_of_foldl {start : Binary64}
    (h : (parents.foldl (fun sum parent => sum + (answers.get parent).summand) start).isFinite =
      true) : start.isFinite = true := by
  induction parents generalizing start with
  | nil => exact h
  | cons parent parents ih => exact isFinite_of_add (ih h)

/-- A total that was not finite on the way is not finite in the end. -/
theorem exists_not_finite_iff :
    (∃ before, before <+: parents ∧ (total answers before).isFinite = false) ↔
      (total answers parents).isFinite = false := by
  constructor
  · rintro ⟨before, ⟨after, rfl⟩, hbefore⟩
    by_contra h
    rw [total, List.foldl_append, Bool.not_eq_false] at h
    have hfinite : (total answers before).isFinite = true := isFinite_of_foldl answers after h
    rw [hfinite] at hbefore
    cases hbefore
  · exact fun h => ⟨parents, List.prefix_rfl, h⟩

/-- Numbers are added up unless one is too large. -/
theorem addNumbers_eq_ok_iff (start x : Binary64) :
    addNumbers start (parents.map answers.get) = .ok x ↔
      (∀ parent ∈ parents, ¬(answers.get parent).IsTooLarge) ∧
        parents.foldl (fun sum parent => sum + (answers.get parent).summand) start = x := by
  -- on the parents that are left, with any total so far
  induction parents generalizing start with
  | nil => simp [addNumbers]
  | cons parent parents ih =>
    rw [List.map_cons, addNumbers, List.forall_mem_cons, List.foldl_cons,
      ← Value.number?_fails_iff]
    cases hnumber : (answers.get parent).number? with
    | error e =>
      constructor
      · intro h
        cases h
      · rintro ⟨⟨hsmall, -⟩, -⟩
        exact absurd ⟨e, rfl⟩ hsmall
    | ok x? =>
      have hsummand : x?.getD (.zero false) = (answers.get parent).summand := by
        cases x? <;> simp [Value.summand, hnumber]
      simp [ih, hsummand]

theorem sum_of_sumFails (h : SumFails answers parents) :
    sum answers parents = calculationError := by
  rw [SumFails, exists_not_finite_iff] at h
  unfold sum
  split
  · rfl
  · next x hx =>
    obtain ⟨hsmall, rfl⟩ := (addNumbers_eq_ok_iff answers parents _ x).1 hx
    rcases h with ⟨parent, hparent, htoo⟩ | hfinite
    · exact absurd htoo (hsmall parent hparent)
    · exact if_neg (by simpa [total] using hfinite)

theorem exists_sum_of_not_sumFails (h : ¬SumFails answers parents) :
    ∃ x : Finite, total answers parents = .finite x ∧
      sum answers parents = display (.finite x) := by
  rw [SumFails, exists_not_finite_iff, not_or, Bool.not_eq_false] at h
  obtain ⟨hsmall, hfinite⟩ := h
  have hadd : addNumbers (.zero false) (parents.map answers.get) = .ok (total answers parents) :=
    (addNumbers_eq_ok_iff answers parents _ _).2 ⟨by simpa using hsmall, rfl⟩
  obtain ⟨x, htotal⟩ := exists_of_isFinite hfinite
  refine ⟨x, htotal, ?_⟩
  rw [sum, hadd, htotal]
  rfl

end

section
variable (settings : Settings) (today : Date) (answers : Answers)

inductive AgeText (birth? : Option Date) : String → Prop
  | unborn (h : ∀ birth, birth? = some birth → today < birth) : AgeText birth? ""
  | years {birth : Date} {n : Nat} (hbirth : birth? = some birth) (hborn : ¬today < birth)
      (hn : birth.yearsSince today = n) : AgeText birth? (toString n)

theorem ageText_age (parent : String) (rest : List String) :
    AgeText today (answers.get parent).day? (age today answers (parent :: rest)) := by
  rw [age]
  cases (answers.get parent).day? with
  | none => exact .unborn nofun
  | some birth =>
    simp only
    split
    · next hunborn =>
      apply AgeText.unborn
      rintro _ ⟨⟩
      exact hunborn
    · next hborn =>
      obtain ⟨n, hn⟩ := Int.eq_ofNat_of_zero_le (Date.yearsSince_bounds hborn).1
      rw [hn]
      exact .years rfl hborn hn

inductive SumText (parents : List String) : String → Prop
  | outOfRange (h : SumFails answers parents) : SumText parents calculationError
  | total {x : Finite} (h : ¬SumFails answers parents)
      (htotal : total answers parents = .finite x) : SumText parents (display (.finite x))

theorem sumText_sum (parents : List String) : SumText answers parents (sum answers parents) := by
  by_cases h : SumFails answers parents
  · rw [sum_of_sumFails answers parents h]
    exact .outOfRange h
  · obtain ⟨x, htotal, hsum⟩ := exists_sum_of_not_sumFails answers parents h
    rw [hsum]
    exact .total h htotal

inductive FormulaText (text : String) : String → Prop
  | blank (h : Text.Blanks text.toList) : FormulaText text ""
  | incomparable (h : ¬Text.Blanks text.toList)
      (hlimit : settings.lengthLimit = .incomparable ∨
        Formula.evaluate settings.depthLimit text = .error .depthIncomparable) :
      FormulaText text calculationError
  | refused (h : ¬Text.Blanks text.toList) : FormulaText text errorInCalculation
  | value {x : Finite} (h : ¬Text.Blanks text.toList)
      (hvalue : Formula.evaluate settings.depthLimit text = .ok (.finite x)) :
      FormulaText text (display (.finite x))

theorem formulaText_formulaValue (text : String) :
    FormulaText settings text (formulaValue settings text) := by
  have hblanks : text.toList.all Text.isBlank = true ↔ Text.Blanks text.toList := List.all_eq_true
  -- one case for each way out of the definition, in its order
  unfold formulaValue
  split
  · next h => exact .blank (hblanks.1 h)
  · next h =>
    rw [hblanks] at h
    split
    · next hlimit => exact .incomparable h (.inl (Limit.incomparable_of_exceeded? hlimit))
    · split
      · exact .refused h
      · unfold evaluated
        split
        · next hlimit => exact .incomparable h (.inr hlimit)
        · exact .refused h
        · next x hvalue =>
          obtain ⟨y, rfl⟩ := Formula.exists_finite_of_evaluate hvalue
          exact .value h hvalue

end

theorem numberOfText?_calculationError : Value.numberOfText? calculationError = none := by
  decide +kernel

theorem numberOfText?_errorInCalculation : Value.numberOfText? errorInCalculation = none := by
  decide +kernel

theorem numberOfText?_empty : Value.numberOfText? "" = none := by
  decide +kernel

theorem display_ne {text : String} (h : Value.numberOfText? text = none) (x : Finite) :
    display (.finite x) ≠ text := by
  rintro rfl
  obtain ⟨y, hy, -⟩ := Value.numberOfText?_display x
  rw [h] at hy
  cases hy

theorem numberOfText?_toString {n : Nat} (hn : n < 10000) :
    ∃ x : Finite, Value.numberOfText? (toString n) = some (.finite x) ∧ x.toRat = n := by
  have hsmall : (n : Int).natAbs ≤ significands := by
    rw [Int.natAbs_natCast]
    exact hn.le.trans (by decide)
  exact ⟨_, Value.numberOfText?_int hsmall, Finite.toRat_ofInt hsmall⟩

theorem toString_ne {text : String} (h : Value.numberOfText? text = none) {n : Nat}
    (hn : n < 10000) : toString n ≠ text := by
  rintro rfl
  obtain ⟨x, hx, -⟩ := numberOfText?_toString hn
  rw [h] at hx
  cases hx

section
variable (settings : Settings) (today : Date) (answers : Answers)

/-- An age is never an error. -/
theorem age_ne_error (parent : String) (rest : List String) :
    let text := age today answers (parent :: rest)
    text ≠ calculationError ∧ text ≠ errorInCalculation ∧
      (text = "" ∨ ∃ n : Nat, text = toString n) := by
  have htext := ageText_age today answers parent rest
  generalize age today answers (parent :: rest) = text at htext
  cases htext with
  | unborn => exact ⟨by decide, by decide, .inl rfl⟩
  | @years birth n _ hborn hn =>
    have hsmall := Date.lt_of_yearsSince hborn hn
    exact ⟨toString_ne numberOfText?_calculationError hsmall,
      toString_ne numberOfText?_errorInCalculation hsmall, .inr ⟨n, rfl⟩⟩

/-- A sum is an error exactly if it is out of range. -/
theorem sum_eq_calculationError_iff (parents : List String) :
    let text := sum answers parents
    (text = calculationError ↔ SumFails answers parents) ∧
      (text ≠ calculationError → text = (total answers parents).display) := by
  have htext := sumText_sum answers parents
  generalize sum answers parents = text at htext
  cases htext with
  | outOfRange h => exact ⟨⟨fun _ => h, fun _ => rfl⟩, fun hne => absurd rfl hne⟩
  | @total x h htotal =>
    have hne := display_ne numberOfText?_calculationError x
    exact ⟨⟨fun heq => absurd heq hne, fun hfails => absurd hfails h⟩, fun _ => by rw [htotal]⟩

/-- The value of a formula is empty exactly if the formula is blank. -/
theorem formulaValue_eq_empty_iff (formula : String) :
    formulaValue settings formula = "" ↔ Text.Blanks formula.toList := by
  have htext := formulaText_formulaValue settings formula
  generalize formulaValue settings formula = text at htext
  cases htext with
  | blank h => exact ⟨fun _ => h, fun _ => rfl⟩
  | incomparable h _ => exact ⟨fun heq => absurd heq (by decide), fun hblank => absurd hblank h⟩
  | refused h => exact ⟨fun heq => absurd heq (by decide), fun hblank => absurd hblank h⟩
  | @value x h _ =>
    exact ⟨fun heq => absurd heq (display_ne numberOfText?_empty x), fun hblank => absurd hblank h⟩

/-- The value of a formula is what it is evaluated to, if nothing is in the way of that. -/
theorem formulaValue_cases {maxLength maxDepth : Int}
    (hlength : settings.lengthLimit = .int maxLength)
    (hdepth : settings.depthLimit = .int maxDepth) (formula : String) :
    let text := formulaValue settings formula
    text = "" ∨ text = errorInCalculation ∨ ∃ x : Finite,
      Formula.evaluate (.int maxDepth) formula = .ok (.finite x) ∧ text = display (.finite x) := by
  have htext := formulaText_formulaValue settings formula
  generalize formulaValue settings formula = text at htext
  cases htext with
  | blank h => exact .inl rfl
  | incomparable h hlimit =>
    rw [hlength, hdepth] at hlimit
    rcases hlimit with hlimit | hlimit
    · cases hlimit
    · exact absurd hlimit (Formula.evaluate_ne_error maxDepth formula)
  | refused h => exact .inr (.inl rfl)
  | @value x h hvalue =>
    rw [hdepth] at hvalue
    exact .inr (.inr ⟨x, hvalue, rfl⟩)

end

/-- A derived value is always given, and the texts that stand for errors are given for errors
alone: one in place of a sum that is out of range, and the other in place of a formula that is
refused or has no value. -/
theorem exists_ofField?_cases {s : Schema} {f : Field} (hf : f ∈ s.derivedFields) {d : Derivation}
    (hd : f.derivation = some d) {settings : Settings} {maxLength maxDepth : Int}
    (hlength : settings.maxExpressionLength = .int maxLength)
    (hdepth : settings.maxExpressionDepth = .int maxDepth) (today : Date) (answers : Answers) :
    ∃ text, ofField? settings today answers f = some text ∧
      (d.logic = .age → text ≠ calculationError ∧ text ≠ errorInCalculation ∧
        (text = "" ∨ ∃ n : Nat, text = toString n)) ∧
      (d.logic = .sum → (text = calculationError ↔ SumFails answers d.parents) ∧
        (text ≠ calculationError → text = (total answers d.parents).display)) ∧
      (d.logic = .custom →
        (text = "" ↔ Text.Blanks (Formula.substitute d.formula d.parents answers).toList) ∧
        text ≠ calculationError ∧
        (text = "" ∨ text = errorInCalculation ∨ ∃ x : Finite,
          Formula.evaluate (.int maxDepth) (Formula.substitute d.formula d.parents answers) =
            .ok (.finite x) ∧ text = display (.finite x))) ∧
      (d.logic = .concat →
        text = " ".intercalate (d.parents.map fun parent => (answers.get parent).toText)) := by
  have hvalue : ofField? settings today answers f = some (value settings today answers d) := by
    rw [ofField?, hd, Option.map_some]
  refine ⟨_, hvalue, ?age, ?sum, ?custom, ?concat⟩
  case age =>
    intro hlogic
    obtain ⟨parent, rest, hcons⟩ :=
      s.exists_parents_eq_cons (Schema.mem_derivedFields.1 hf).1 hd hlogic
    simp only [value, hlogic, hcons]
    exact age_ne_error today answers parent rest
  case sum =>
    intro hlogic
    simp only [value, hlogic]
    exact sum_eq_calculationError_iff answers d.parents
  case custom =>
    intro hlogic
    simp only [value, hlogic, custom]
    have hlimits : settings.lengthLimit = .int maxLength ∧ settings.depthLimit = .int maxDepth := by
      rw [Settings.lengthLimit, Settings.depthLimit, hlength, hdepth]
      exact ⟨rfl, rfl⟩
    have hcases := formulaValue_cases settings hlimits.1 hlimits.2
      (Formula.substitute d.formula d.parents answers)
    refine ⟨formulaValue_eq_empty_iff settings _, ?_, hcases⟩
    rcases hcases with h | h | ⟨x, -, h⟩
    · rw [h]
      decide
    · rw [h]
      decide
    · rw [h]
      exact display_ne numberOfText?_calculationError x
  case concat =>
    intro hlogic
    simp only [value, hlogic, concat]

def amountFields : List Field :=
  [.ofNumber "price" none rfl, .ofNumber "tax" none rfl,
    .ofNumber "amount" (some ⟨["price", "tax"], .sum, ""⟩) rfl]

/-- Two numbers that are in range have a sum that is not. -/
theorem exists_ofField?_cases_amountFields :
    let today : Date :=
      ⟨2024, 2, 29, by decide, by decide, by decide, by decide, by decide, by decide⟩
    let answers : Answers := .ofList [("price", .text "1e308"), ("tax", .text "1.5e308")]
    ∃ s, Schema.compile true amountFields = .ok s ∧ ∃ f ∈ s.derivedFields,
      ofField? {} today answers f = some calculationError := by
  intro today answers
  have hs : Schema.compile true amountFields =
      .ok (Schema.ofConsistent amountFields (by decide)) := rfl
  have hf : Field.ofNumber "amount" (some ⟨["price", "tax"], .sum, ""⟩) rfl ∈
      Schema.derivedFields (Schema.ofConsistent amountFields (by decide)) := by
    simp [Schema.derivedFields, amountFields, Field.isDerived, Field.ofNumber]
  refine ⟨_, hs, _, hf, ?_⟩
  obtain ⟨text, htext, -, hsum, -⟩ := exists_ofField?_cases hf rfl
    (show ({} : Settings).maxExpressionLength = .int 1000 from rfl) rfl today answers
  have hfails : SumFails answers ["price", "tax"] :=
    .inr ⟨["price", "tax"], List.prefix_rfl, by decide +kernel⟩
  rw [htext, (hsum rfl).1.2 hfails]

end Derived

end FormLogic
