import FormLogic.Proofs.Derived.Value
import FormLogic.Proofs.Schema.Sync
import FormLogic.Proofs.Schema.Validation

namespace FormLogic

open Binary64

namespace Derived

/-- There is nothing yet that a value could be computed from. -/
def Lacks (today : Date) (answers : Answers) (d : Derivation) : Prop :=
  match d.logic with
  | .age => ∃ parent rest, d.parents = parent :: rest ∧
      ∀ birth, (answers.get parent).day? = some birth → today < birth
  | .sum => False
  | .concat => d.parents = [] ∨ ∃ parent, d.parents = [parent] ∧ (answers.get parent).toText = ""
  | .custom => Text.Blanks (Formula.substitute d.formula d.parents answers).toList

/-- The number that a derivation comes to. -/
inductive Computes (settings : Settings) (today : Date) (answers : Answers) (d : Derivation) :
    ℚ → Prop
  | age {parent : String} {rest : List String} {birth : Date} (hlogic : d.logic = .age)
      (hparents : d.parents = parent :: rest) (hbirth : (answers.get parent).day? = some birth)
      (hborn : ¬today < birth) : Computes settings today answers d (birth.yearsSince today)
  | sum {x : Finite} (hlogic : d.logic = .sum) (hrange : ¬SumFails answers d.parents)
      (htotal : total answers d.parents = .finite x) : Computes settings today answers d x.toRat
  | custom {x : Finite} (hlogic : d.logic = .custom)
      (hvalue : Formula.evaluate settings.depthLimit
        (Formula.substitute d.formula d.parents answers) = .ok (.finite x)) :
      Computes settings today answers d x.toRat

variable (settings : Settings) (today : Date) (answers : Answers)

theorem age_eq_empty_iff (parent : String) (rest : List String) :
    age today answers (parent :: rest) = "" ↔
      ∀ birth, (answers.get parent).day? = some birth → today < birth := by
  have htext := ageText_age today answers parent rest
  generalize age today answers (parent :: rest) = text at htext
  cases htext with
  | unborn h => exact ⟨fun _ => h, fun _ => rfl⟩
  | years hbirth hborn hn =>
    constructor
    · intro h
      exact absurd h (toString_ne numberOfText?_empty (Date.lt_of_yearsSince hborn hn))
    · exact fun h => absurd (h _ hbirth) hborn

theorem sum_ne_empty (parents : List String) : sum answers parents ≠ "" := by
  have htext := sumText_sum answers parents
  generalize sum answers parents = text at htext
  cases htext with
  | outOfRange => decide
  | @total x _ _ => exact display_ne numberOfText?_empty x

theorem concat_eq_empty_iff (parents : List String) :
    concat answers parents = "" ↔
      parents = [] ∨ ∃ parent, parents = [parent] ∧ (answers.get parent).toText = "" := by
  cases parents with
  | nil => simp [concat]
  | cons parent parents =>
    cases parents with
    | nil => simp [concat]
    | cons parent' parents => simp [concat]

variable {d : Derivation}

/-- A derived value is empty exactly where there is nothing to compute it from. -/
theorem value_eq_empty_iff (hage : d.logic = .age → ∃ parent rest, d.parents = parent :: rest) :
    value settings today answers d = "" ↔ Lacks today answers d := by
  unfold value Lacks
  cases hlogic : d.logic with
  | age =>
    obtain ⟨parent, rest, hcons⟩ := hage hlogic
    simp only [hcons, age_eq_empty_iff]
    constructor
    · exact fun h => ⟨parent, rest, rfl, h⟩
    · rintro ⟨_, _, ⟨⟩, h⟩
      exact h
  | sum => exact iff_of_false (sum_ne_empty answers d.parents) id
  | concat => exact concat_eq_empty_iff answers d.parents
  | custom => exact formulaValue_eq_empty_iff settings _

variable {settings today answers}

def IsSentinel (text : String) : Prop := text = calculationError ∨ text = errorInCalculation

theorem numberOfText?_of_isSentinel {text : String} (h : IsSentinel text) :
    Value.numberOfText? text = none := by
  rcases h with rfl | rfl
  · exact numberOfText?_calculationError
  · exact numberOfText?_errorInCalculation

/-- A number that was computed is read back from the text that it was made into. -/
theorem exists_computes (hage : d.logic = .age → ∃ parent rest, d.parents = parent :: rest)
    (hlogic : d.logic ≠ .concat) (hpresent : ¬Lacks today answers d)
    (herror : ¬IsSentinel (value settings today answers d)) :
    ∃ (q : ℚ) (y : Finite), Computes settings today answers d q ∧
      Value.numberOfText? (value settings today answers d) = some (.finite y) ∧ y.toRat = q := by
  -- of the texts that a way of deriving has, those that are left display a number
  rw [← value_eq_empty_iff settings today answers hage] at hpresent
  unfold value at hpresent herror ⊢
  cases hd : d.logic with
  | concat => exact absurd hd hlogic
  | age =>
    obtain ⟨parent, rest, hcons⟩ := hage hd
    have htext := ageText_age today answers parent rest
    simp only [hd, hcons] at hpresent herror ⊢
    generalize age today answers (parent :: rest) = text at htext hpresent herror ⊢
    cases htext with
    | unborn => exact absurd rfl hpresent
    | @years birth n hbirth hborn hn =>
      obtain ⟨y, hread, hy⟩ := numberOfText?_toString (Date.lt_of_yearsSince hborn hn)
      refine ⟨_, y, .age hd hcons hbirth hborn, hread, ?_⟩
      rw [hy, hn]
      exact (Int.cast_natCast n).symm
  | sum =>
    have htext := sumText_sum answers d.parents
    simp only [hd] at hpresent herror ⊢
    generalize sum answers d.parents = text at htext hpresent herror ⊢
    cases htext with
    | outOfRange => exact absurd (.inl rfl) herror
    | @total x h htotal =>
      obtain ⟨y, hread, hy⟩ := Value.numberOfText?_display x
      exact ⟨_, y, .sum hd h htotal, hread, hy⟩
  | custom =>
    have htext := formulaText_formulaValue settings (Formula.substitute d.formula d.parents answers)
    simp only [hd, custom] at hpresent herror ⊢
    generalize formulaValue settings _ = text at htext hpresent herror ⊢
    cases htext with
    | blank => exact absurd rfl hpresent
    | incomparable => exact absurd (.inl rfl) herror
    | refused => exact absurd (.inr rfl) herror
    | @value x h hvalue =>
      obtain ⟨y, hread, hy⟩ := Value.numberOfText?_display x
      exact ⟨_, y, .custom hd hvalue, hread, hy⟩

end Derived

theorem FieldType.clean?_text {type : FieldType}
    (h : type ∈ [.text, .textarea, .select, .radio, .date]) (text : String) :
    type.clean? (.text text) = .ok (some (.text text)) := by
  simp only [List.mem_cons, List.not_mem_nil, or_false] at h
  rcases h with rfl | rfl | rfl | rfl | rfl <;> rfl

theorem FieldType.clean?_number_text {type : FieldType} (h : type = .number) (text : String) :
    type.clean? (.text text) = .ok ((Value.numberOfText? text).map .float) := by
  rw [h]
  rfl

def Outcome.IsError (errorType : String) (outcome : Outcome) : Prop :=
  ∃ failure message, outcome = .rejected failure message ∧ failure.code = errorType

theorem RuleKind.name_ne (kind : RuleKind) : kind.name ≠ "derived" ∧ kind.name ≠ "type" := by
  cases kind <;> decide

namespace Validator

theorem not_isError_tryChecks (v : Value) (checks : List Check) {errorType : String}
    (h : ∀ kind : RuleKind, kind.name ≠ errorType) : ¬(tryChecks v checks).IsError errorType := by
  induction checks with
  | nil =>
    rintro ⟨_, _, ⟨⟩, -⟩
  | cons c checks ih =>
    rw [tryChecks]
    split
    · exact ih
    · rintro ⟨_, _, ⟨⟩, hcode⟩
      exact h c.test.kind hcode

variable {val : Validator}

theorem run_of_empty (hderived : val.field.isDerived = true) :
    val.run (.text "") = .ok (.rejected .notCalculated notCalculatedMessage) := by
  rw [run, if_pos (by rfl), runEmpty, if_pos hderived]

/-- What a text under a derived field is told: that it has not been computed if it is empty, and
otherwise whether the field takes it. -/
theorem exists_run_text (hderived : val.field.isDerived = true) (text : String) :
    ∃ outcome, val.run (.text text) = .ok outcome ∧
      (outcome.IsError "derived" ↔ text = "") ∧
      (text ≠ "" → (outcome.IsError "type" ↔ val.field.type.clean? (.text text) = .ok none) ∧
        ∀ cleaned, val.field.type.clean? (.text text) = .ok (some cleaned) →
          outcome = tryChecks cleaned val.checks) := by
  by_cases hempty : text = ""
  · subst hempty
    refine ⟨_, run_of_empty hderived, ?_, fun h => absurd rfl h⟩
    exact ⟨fun _ => rfl, fun _ => ⟨_, _, rfl, rfl⟩⟩
  · have hvalue : (Value.text text).isEmpty = false := by simpa [Value.isEmpty] using hempty
    obtain ⟨cleaned?, hclean⟩ : ∃ cleaned?, val.field.type.clean? (.text text) = .ok cleaned? := by
      cases val.field.type <;> exact ⟨_, rfl⟩
    rw [hclean]
    cases cleaned? with
    | none =>
      refine ⟨_, run_of_clean?_eq_none hvalue hclean, ⟨?_, fun h => absurd h hempty⟩, fun _ => ?_⟩
      · rintro ⟨_, _, ⟨⟩, hcode⟩
        exact absurd hcode (by decide)
      · exact ⟨⟨fun _ => rfl, fun _ => ⟨_, _, rfl, rfl⟩⟩, nofun⟩
    | some cleaned =>
      refine ⟨_, run_of_clean?_eq_some hvalue hclean, ⟨?_, fun h => absurd h hempty⟩, fun _ => ?_⟩
      · exact fun h => absurd h (not_isError_tryChecks _ _ fun kind => kind.name_ne.1)
      · refine ⟨⟨fun h => absurd h ?_, nofun⟩, ?_⟩
        · exact not_isError_tryChecks _ _ fun kind => kind.name_ne.2
        · rintro _ ⟨⟩
          rfl

end Validator

namespace Schema

/-- Once a pass has stored the derived values, a derived field is told to be not computed exactly
where there is nothing to compute it from. Every other value is taken by fields of texts and dates
and refused by the type of a field of choices, and a number field takes what is no text for an
error. Its rules are tried on the number that was computed. -/
theorem exists_run_apply_patch (s : Schema) (settings : Settings) (today : Date)
    (answers : Answers) {f : Field} (hf : f ∈ s.derivedFields) {d : Derivation}
    (hd : f.derivation = some d) :
    ∃ val text outcome, s.validator? f.id = some val ∧
      Derived.ofField? settings today answers f = some text ∧
      val.run ((answers.apply (s.patch settings today answers)).get f.id) = .ok outcome ∧
      (outcome.IsError "derived" ↔ Derived.Lacks today answers d) ∧
      (¬Derived.Lacks today answers d →
        (f.type ∈ [.text, .textarea, .select, .radio, .date] → ¬outcome.IsError "type") ∧
        (f.type = .checkbox → outcome.IsError "type") ∧
        (f.type = .number → d.logic ≠ .concat →
          (¬outcome.IsError "type" ↔ ¬Derived.IsSentinel text) ∧
          (¬outcome.IsError "type" → ∃ (q : ℚ) (y : Finite),
            Derived.Computes settings today answers d q ∧ y.toRat = q ∧
            outcome = Validator.tryChecks (.float (.finite y)) val.checks))) := by
  obtain ⟨hmem, hderived⟩ := mem_derivedFields.1 hf
  have hvalue : Derived.ofField? settings today answers f =
      some (Derived.value settings today answers d) := by
    rw [Derived.ofField?, hd, Option.map_some]
  have hage := s.exists_parents_eq_cons hmem hd
  have hlacks := Derived.value_eq_empty_iff settings today answers hage
  obtain ⟨outcome, hrun, hempty, htype⟩ :=
    (Validator.ofField f).exists_run_text hderived (Derived.value settings today answers d)
  refine ⟨_, _, outcome, validator?_eq_some s hmem, hvalue, ?_, hempty.trans hlacks, ?_⟩
  -- whatever was stored under the field, the pass has put its value there
  · rw [get_apply_patch_of_derived settings today answers s hmem hvalue]
    exact hrun
  · intro hpresent
    obtain ⟨hrefused, htaken⟩ := htype fun h => hpresent (hlacks.1 h)
    have hfield : (Validator.ofField f).field.type = f.type := rfl
    rw [hfield] at hrefused htaken
    refine ⟨?texts, ?choices, ?numbers⟩
    case texts =>
      intro h
      rw [hrefused, FieldType.clean?_text h]
      simp
    case choices =>
      intro h
      rw [hrefused, h]
      rfl
    case numbers =>
      intro hnumber hlogic
      by_cases hsentinel : Derived.IsSentinel (Derived.value settings today answers d)
      · have herror : outcome.IsError "type" := by
          rw [hrefused, FieldType.clean?_number_text hnumber,
            Derived.numberOfText?_of_isSentinel hsentinel]
          rfl
        exact ⟨iff_of_false (not_not_intro herror) (not_not_intro hsentinel),
          fun h => absurd herror h⟩
      · obtain ⟨q, y, hcomputes, hread, hy⟩ :=
          Derived.exists_computes hage hlogic hpresent hsentinel
        have hclean := FieldType.clean?_number_text hnumber (Derived.value settings today answers d)
        rw [hread] at hclean
        have hpasses : ¬outcome.IsError "type" := by
          rw [hrefused, hclean]
          simp
        exact ⟨iff_of_true hpasses hsentinel, fun _ => ⟨q, y, hcomputes, hy, htaken _ hclean⟩⟩

/-- A sum of numbers with fractions is stored as a text, which the rules see as a number again. -/
theorem exists_run_apply_patch_amountFields :
    let today : Date :=
      ⟨2024, 2, 29, by decide, by decide, by decide, by decide, by decide, by decide⟩
    let answers : Answers := .ofList [("price", .text " 1.5 "), ("tax", .float (.ofInt 2))]
    ∃ s, compile true Derived.amountFields = .ok s ∧ ∃ val outcome,
      s.validator? "amount" = some val ∧
      val.run ((answers.apply (s.patch {} today answers)).get "amount") = .ok outcome ∧
      ¬outcome.IsError "derived" ∧ ∃ (q : ℚ) (y : Finite),
        Derived.Computes {} today answers ⟨["price", "tax"], .sum, ""⟩ q ∧ y.toRat = q ∧
        outcome = Validator.tryChecks (.float (.finite y)) val.checks := by
  intro today answers
  have hs : compile true Derived.amountFields =
      .ok (ofConsistent Derived.amountFields (by decide)) := rfl
  have hf : Field.ofNumber "amount" (some ⟨["price", "tax"], .sum, ""⟩) rfl ∈
      derivedFields (ofConsistent Derived.amountFields (by decide)) := by
    simp [derivedFields, Derived.amountFields, Field.isDerived, Field.ofNumber]
  obtain ⟨val, text, outcome, hval, htext, hrun, hderived, hpresent⟩ :=
    exists_run_apply_patch _ {} today answers hf rfl
  have hlacks : ¬Derived.Lacks today answers ⟨["price", "tax"], .sum, ""⟩ := id
  refine ⟨_, hs, val, outcome, hval, hrun, mt hderived.1 hlacks, ?_⟩
  have hnumber := (hpresent hlacks).2.2 rfl (by decide)
  have hsum : Derived.ofField? {} today answers
      (.ofNumber "amount" (some ⟨["price", "tax"], .sum, ""⟩) rfl) = some "3.5" := by
    decide +kernel
  obtain rfl := Option.some.inj (hsum.symm.trans htext)
  have hsentinel : ¬Derived.IsSentinel "3.5" := by
    rw [Derived.IsSentinel]
    decide
  exact hnumber.2 (hnumber.1.2 hsentinel)

end Schema

end FormLogic
