import FormLogic.Proofs.Derived.AnswerText
import FormLogic.Proofs.Field
import FormLogic.Proofs.Formula.Evaluation
import FormLogic.Proofs.Formula.Template
import FormLogic.Proofs.Limit

namespace FormLogic

open Formula Text

namespace Formula.Leaf

variable (answers : Answers)

def value (bound : String → Binary64) : Leaf → Binary64
  | .numeral n => n.value
  | .place id => bound id

/-- A sign in front of an answer nests. -/
def nesting : Leaf → Nat
  | .numeral _ => 0
  | .place id => if startsWithSign (Text.trim (answers.get id).toText.toList) then 1 else 0

def operand (operands : String → Option Bool × Numeral) : Leaf → Tree Numeral .operand
  | .numeral n => .leaf n
  | .place id => signedOperand (operands id).1 (operands id).2

theorem divisors_operand (operands : String → Option Bool × Numeral) (a : Leaf) :
    (a.operand operands).divisors = [] := by
  cases a with
  | numeral n => rfl
  | place id => exact divisors_signedOperand _ _

theorem value_operand (operands : String → Option Bool × Numeral) (a : Leaf) :
    (a.operand operands).value Numeral.value =
      a.value fun id => (signedOperand (operands id).1 (operands id).2).value Numeral.value := by
  cases a <;> rfl

end Formula.Leaf

namespace Derived

theorem exists_mem_chars {ts : List Token} (hts : OfNumerals ts) {u : Token} (hu : u ∈ ts) :
    ∃ c ∈ u.chars, Text.isBlank c = false := by
  cases hnumber : u.isNumber with
  | false =>
    obtain ⟨c, hchars, -, -, -, hblank⟩ := Token.exists_chars_eq hnumber
    exact ⟨c, by simp [hchars], hblank⟩
  | true =>
    cases u with
    | number lexeme =>
      obtain ⟨n, rfl⟩ := hts lexeme hu
      obtain ⟨c, hc⟩ := List.exists_mem_of_ne_nil _ n.chars_ne_nil
      exact ⟨c, hc, isBlank_of_mem_signedChars none n (by rwa [signedChars_none])⟩
    | _ => cases hnumber

def valueText {α : Type} {l : Level} (leafValue : α → Binary64) (t : Tree α l) : String :=
  if t.HasZeroDivisor leafValue ∨ (t.value leafValue).isFinite = false then errorInCalculation
  else (t.value leafValue).display

variable {settings : Settings}

/-- The text of a tree has the value of the tree. -/
theorem formulaValue_of_spaced (t : Tree Numeral (.chain .sum)) {text : String}
    (h : Spaced Token.chars t.tokens text.toList)
    (hlength : settings.lengthLimit.exceeded? text.length = some false)
    (hdepth : settings.depthLimit.exceeded? (t.nesting fun _ => 0) = some false) :
    formulaValue settings text = valueText Numeral.value t := by
  have hblank : ¬Blanks text.toList := by
    obtain ⟨u, hu⟩ := List.exists_mem_of_ne_nil _ t.tokens_ne_nil
    obtain ⟨c, hc, hcblank⟩ := exists_mem_chars t.ofNumerals_tokens hu
    intro hblanks
    rw [hblanks c ((h.mem_iff hcblank).2 ⟨u, hu, hc⟩)] at hcblank
    cases hcblank
  have hscan : evaluate settings.depthLimit text =
      evaluateTokens settings.depthLimit t.tokens := by
    unfold evaluate
    rw [t.scan_tokens h]
  have hevaluate := t.evaluateTokens_tokens settings.depthLimit
    (Limit.le_allowance hdepth t.nesting_le_length)
  rw [formulaValue_eq_evaluated hblank hlength, evaluated, hscan, hevaluate, valueText]
  by_cases hzero : t.HasZeroDivisor Numeral.value
  · simp [hzero]
  · by_cases hfinite : (t.value Numeral.value).isFinite = true
    · simp [hzero, hfinite]
    · simp [hzero, hfinite]

/-- A text with a character that formulas cannot have has no value. -/
theorem formulaValue_of_foreign {text : String} {c : Char} (hc : c ∈ text.toList)
    (hforeign : isFormulaChar c = false) (hlimit : settings.lengthLimit ≠ .incomparable) :
    formulaValue settings text = errorInCalculation := by
  have hblank : ¬text.toList.all Text.isBlank = true := by
    intro hall
    rw [isFormulaChar_of_isBlank (List.all_eq_true.1 hall c hc)] at hforeign
    cases hforeign
  have hpattern : formulaPattern.startsText text = false := by
    rw [← Bool.not_eq_true, startsText_formulaPattern_iff]
    rintro ⟨-, hchars⟩
    rw [hchars c hc] at hforeign
    cases hforeign
  unfold formulaValue
  rw [if_neg hblank]
  split
  · next hnone => exact absurd (Limit.incomparable_of_exceeded? hnone) hlimit
  · rw [if_pos (.inr (by simp [hpattern]))]

variable (answers : Answers)

/-- Every place of a formula has an answer that is a number. -/
def HasNumbers {l : Level} (t : Tree Leaf l) : Prop :=
  ∀ id, .place id ∈ t.leaves → ∃ x, (answers.get id).number? = .ok (some x)

structure IsOperand (id : String) (operand : Option Bool × Numeral) : Prop where
  spaced : Spaced Token.chars (signedOperand operand.1 operand.2).tokens
    (answers.get id).toText.toList
  nesting_eq : (signedOperand operand.1 operand.2).nesting (fun _ => 0) =
    (Leaf.place id).nesting answers
  number_eq : Value.numberOfText? (answers.get id).toText =
    some ((signedOperand operand.1 operand.2).value Numeral.value)

/-- The text of a number that formulas can have is that of an operand. -/
theorem exists_isOperand {id : String} {x : Binary64}
    (hnumber : (answers.get id).number? = .ok (some x))
    (hchars : ∀ c ∈ (answers.get id).toText.toList, isFormulaChar c = true) :
    ∃ operand, IsOperand answers id operand := by
  obtain ⟨y, hy⟩ := Value.exists_numberOfText? hnumber hchars
  obtain ⟨sign, n, hspaced, hsign, hvalue⟩ := exists_operand hy hchars
  refine ⟨(sign, n), hspaced, ?_, ?_⟩
  · rw [nesting_signedOperand, Leaf.nesting, hsign]
  · rw [hvalue, hy]

/-- The tokens of a part with operands in its place. -/
def partTokens (operands : String → Option Bool × Numeral) : Part → List Token
  | .token u => [u]
  | .place id => (Leaf.operand operands (.place id)).tokens

theorem tokens_bind {l : Level} (t : Tree Leaf l) (operands : String → Option Bool × Numeral) :
    (t.bind (Leaf.operand operands)).tokens = t.parts.flatMap (partTokens operands) := by
  have hmark : ∀ u, partTokens operands (.token u) = [id u] := fun _ => rfl
  rw [Tree.tokens, Tree.write_bind, Tree.parts, Tree.flatMap_write hmark]
  congr 1
  funext a
  cases a with
  | numeral n => rfl
  | place id => exact (List.append_nil _).symm

/-- The text with the answers filled in is that of the formula with operands at its places. -/
theorem spaced_bind {l : Level} {t : Tree Leaf l} {operands : String → Option Bool × Numeral}
    (hoperands : ∀ id, .place id ∈ t.leaves → IsOperand answers id (operands id)) {text : String}
    (h : Spaced (Part.filled answers) t.parts text.toList) :
    Spaced Token.chars (t.bind (Leaf.operand operands)).tokens text.toList := by
  rw [tokens_bind]
  apply h.flatMap
  apply Tree.forall_mem_parts
  · intro u hu
    exact Spaced.singleton Token.chars u
  · intro n
    exact Spaced.singleton Token.chars (.number n.chars)
  · intro id hid
    exact (hoperands id hid).spaced

/-- A formula with operands at its places has the value of the formula with their numbers. -/
theorem valueText_bind {l : Level} (t : Tree Leaf l) (operands : String → Option Bool × Numeral) :
    valueText Numeral.value (t.bind (Leaf.operand operands)) =
      valueText (Leaf.value fun id =>
        (signedOperand (operands id).1 (operands id).2).value Numeral.value) t := by
  have hleaves : (fun a => (Leaf.operand operands a).value Numeral.value) =
      Leaf.value fun id => (signedOperand (operands id).1 (operands id).2).value Numeral.value := by
    funext a
    exact a.value_operand operands
  have hzero := Tree.hasZeroDivisor_bind _ (Leaf.divisors_operand operands) Numeral.value t
  rw [hleaves] at hzero
  simp only [valueText, hzero, Tree.value_bind, hleaves]

theorem nesting_bind {l : Level} {t : Tree Leaf l} {operands : String → Option Bool × Numeral}
    (hoperands : ∀ id, .place id ∈ t.leaves → IsOperand answers id (operands id)) :
    (t.bind (Leaf.operand operands)).nesting (fun _ => 0) = t.nesting (Leaf.nesting answers) := by
  rw [Tree.nesting_bind]
  apply Tree.nesting_congr
  intro a ha
  cases a with
  | numeral n => rfl
  | place id => exact (hoperands id ha).nesting_eq

variable {answers} {t : Tree Leaf (.chain .sum)} {formula : String} {parents : List String}

theorem spaced_of_hasNumbers (hformula : t.IsWritten formula)
    (hplain : ∀ id ∈ parents, IsPlainId id)
    (hplaces : ∀ id, .place id ∈ t.leaves → id ∈ parents) (hnumbers : HasNumbers answers t) :
    Spaced (Part.filled answers) t.parts (substitute formula parents answers).toList := by
  apply t.spaced_substitute answers hformula hplain
  intro id hid
  obtain ⟨x, hx⟩ := hnumbers id hid
  exact ⟨hplaces id hid, Value.dollar_not_mem_toText hx⟩

theorem exists_operands (hnumbers : HasNumbers answers t)
    (hchars : ∀ id, .place id ∈ t.leaves →
      ∀ c ∈ (answers.get id).toText.toList, isFormulaChar c = true) :
    ∃ operands : String → Option Bool × Numeral,
      ∀ id, .place id ∈ t.leaves → IsOperand answers id (operands id) := by
  have hall : ∀ id, ∃ operand : Option Bool × Numeral,
      .place id ∈ t.leaves → IsOperand answers id operand := by
    intro id
    by_cases hid : .place id ∈ t.leaves
    · obtain ⟨x, hx⟩ := hnumbers id hid
      obtain ⟨operand, hoperand⟩ := exists_isOperand answers hx (hchars id hid)
      exact ⟨operand, fun _ => hoperand⟩
    · exact ⟨(none, .ofDigit 0), fun h => absurd h hid⟩
  exact ⟨fun id => (hall id).choose, fun id => (hall id).choose_spec⟩

/-- A formula over answers that are numbers has the value of its tree with these numbers at its
places, if their texts have no other characters than formulas. Otherwise it has none. -/
theorem ofField?_custom (settings : Settings) (today : Date) {f : Field} {d : Derivation}
    (hf : f.derivation = some d) (hlogic : d.logic = .custom)
    (hformula : t.IsWritten d.formula) (hplain : ∀ id ∈ d.parents, IsPlainId id)
    (hplaces : ∀ id, .place id ∈ t.leaves → id ∈ d.parents) (hnumbers : HasNumbers answers t) :
    ((∀ id, .place id ∈ t.leaves →
        ∀ c ∈ (answers.get id).toText.toList, isFormulaChar c = true) →
      settings.lengthLimit.exceeded? (substitute d.formula d.parents answers).length =
        some false →
      settings.depthLimit.exceeded? (t.nesting (Leaf.nesting answers)) = some false →
      ∃ bound : String → Binary64,
        (∀ id, .place id ∈ t.leaves →
          (Value.text (answers.get id).toText).number? = .ok (some (bound id))) ∧
        ofField? settings today answers f = some (valueText (Leaf.value bound) t)) ∧
    ((∃ id, .place id ∈ t.leaves ∧
        ∃ c ∈ (answers.get id).toText.toList, isFormulaChar c = false) →
      settings.lengthLimit ≠ .incomparable →
      ofField? settings today answers f = some errorInCalculation) := by
  have hspaced := spaced_of_hasNumbers hformula hplain hplaces hnumbers
  have hvalue : ofField? settings today answers f =
      some (formulaValue settings (substitute d.formula d.parents answers)) := by
    rw [ofField?, hf, Option.map_some, value, hlogic]
    rfl
  rw [hvalue]
  constructor
  · intro hchars hlength hdepth
    -- the text that is evaluated is that of the tree with the operands at its places
    obtain ⟨operands, hoperands⟩ := exists_operands hnumbers hchars
    rw [← nesting_bind answers hoperands] at hdepth
    refine ⟨fun id => (signedOperand (operands id).1 (operands id).2).value Numeral.value, ?_, ?_⟩
    · intro id hid
      exact congrArg Except.ok (hoperands id hid).number_eq
    · rw [← valueText_bind,
        formulaValue_of_spaced _ (spaced_bind answers hoperands hspaced) hlength hdepth]
  · rintro ⟨id, hid, c, hc, hforeign⟩ hlimit
    have hblank : Text.isBlank c = false := by
      by_contra hblank
      rw [isFormulaChar_of_isBlank (by simpa using hblank)] at hforeign
      cases hforeign
    have hpart : Part.place id ∈ t.parts := by
      unfold Tree.parts
      refine Tree.mem_write_of_mem_leaves ?_ t hid
      exact List.mem_singleton_self _
    rw [formulaValue_of_foreign ((hspaced.mem_iff hblank).2 ⟨_, hpart, hc⟩) hforeign hlimit]

def scaledDifference : Tree Leaf (.chain .sum) :=
  let two : Tree Leaf .operand := .leaf (.numeral (.ofDigit 2))
  let difference : Tree Leaf (.chain .sum) := .join (.first (.first two)) .minus
    (.first (.leaf (.place "b")))
  .first (.join (.first (.leaf (.place "a"))) .times (.group difference))

def scaledDifferenceField : Field :=
  let formula := String.ofList (scaledDifference.parts.flatMap Part.written)
  .ofNumber "scaled" (some ⟨["a", "b"], .custom, formula⟩) rfl

theorem ofField?_scaledDifference :
    let today : Date :=
      ⟨2024, 2, 29, by decide, by decide, by decide, by decide, by decide, by decide⟩
    let answers := Answers.ofList [("a", .text " -1.5 "), ("b", .int 4)]
    ∃ bound : String → Binary64,
      (∀ id, .place id ∈ scaledDifference.leaves →
        (Value.text (answers.get id).toText).number? = .ok (some (bound id))) ∧
      ofField? {} today answers scaledDifferenceField =
        some (valueText (Leaf.value bound) scaledDifference) := by
  intro today answers
  have hleaves : ∀ id, .place id ∈ scaledDifference.leaves → id = "a" ∨ id = "b" := by
    intro id hid
    simpa [scaledDifference, Tree.leaves] using hid
  have hwritten : scaledDifference.IsWritten
      (String.ofList (scaledDifference.parts.flatMap Part.written)) := by
    unfold Tree.IsWritten
    rw [String.toList_ofList]
    exact Spaced.flatMap_chars _ _
  have hnumbers : HasNumbers answers scaledDifference := by
    intro id hid
    rcases hleaves id hid with rfl | rfl
    · exact ⟨Value.numberOfText? " -1.5 " |>.getD .nan, by decide +kernel⟩
    · exact ⟨Binary64.ofInt 4, by decide +kernel⟩
  have hchars : ∀ id, .place id ∈ scaledDifference.leaves →
      ∀ c ∈ (answers.get id).toText.toList, isFormulaChar c = true := by
    intro id hid
    rcases hleaves id hid with rfl | rfl
    · exact List.all_eq_true.1 (by decide +kernel)
    · exact List.all_eq_true.1 (by decide +kernel)
  have hcustom := ofField?_custom {} today (f := scaledDifferenceField) rfl rfl hwritten
    (by unfold IsPlainId; decide) (fun id hid => by
      rcases hleaves id hid with rfl | rfl <;> decide) hnumbers
  exact hcustom.1 hchars (by decide +kernel) (by decide +kernel)

end Derived

end FormLogic
