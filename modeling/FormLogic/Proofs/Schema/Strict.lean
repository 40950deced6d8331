import FormLogic.Proofs.Schema.Compile
import FormLogic.Proofs.Validation.Interpretation

namespace FormLogic

/-- The items of a list are kept, each as what a function makes of it, exactly if the function makes
something of all of them. -/
theorem forall₂_filterMap_iff {α β : Type} {g : α → Option β} {R : α → β → Prop}
    (h : ∀ x y, g x = some y → R x y) (xs : List α) :
    List.Forall₂ R xs (xs.filterMap g) ↔ ∀ x ∈ xs, (g x).isSome = true := by
  constructor
  · intro hall
    exact List.filterMap_length_eq_length.1 hall.length_eq.symm
  · intro hsome
    induction xs with
    | nil => exact .nil
    | cons x xs ih =>
      rw [List.forall_mem_cons] at hsome
      obtain ⟨y, hy⟩ := Option.isSome_iff_exists.1 hsome.1
      rw [List.filterMap_cons_some hy]
      exact .cons (h x y hy) (ih hsome.2)

/-- A check tests what a rule asks and tells of a failure what the rule tells. -/
def Check.IsFor (rule : Rule) (c : Check) : Prop :=
  Test.ofRule? rule = some c.test ∧ MessageOr rule.HasMessage rule.defaultMessage c.message

theorem Check.isFor_of_ofRule? {type : FieldType} {rule : Rule} {c : Check}
    (h : ofRule? type rule = some c) : c.IsFor rule := by
  obtain ⟨-, hmap⟩ := Option.ite_none_right_eq_some.1 h
  obtain ⟨test, htest, rfl⟩ := Option.map_eq_some_iff.1 hmap
  obtain ⟨-, -, -, hdefault⟩ := Test.of_ofRule? htest
  refine ⟨htest, (messageOr_iff rule.ownMessage?_eq_some_iff _ _).2 ?_⟩
  rw [hdefault]

theorem Rule.isOfUse_iff (type : FieldType) (rule : Rule) :
    rule.IsOfUse type ↔ rule.kind = .required ∨ (Check.ofRule? type rule).isSome = true := by
  constructor
  · rintro (hkind | ⟨happlies, hvalue⟩)
    · exact .inl hkind
    · by_cases hkind : rule.kind = .required
      · exact .inl hkind
      · obtain ⟨test, htest⟩ := Test.exists_ofRule? hkind hvalue
        rw [Check.ofRule?, if_pos happlies, htest]
        exact .inr rfl
  · rintro (hkind | hsome)
    · exact .inl hkind
    · obtain ⟨c, hc⟩ := Option.isSome_iff_exists.1 hsome
      obtain ⟨happlies, hmap⟩ := Option.ite_none_right_eq_some.1 hc
      obtain ⟨test, htest, -⟩ := Option.map_eq_some_iff.1 hmap
      exact .inr ⟨happlies, (Test.of_ofRule? htest).2.1⟩

namespace Field

def valueRules (f : Field) : List Rule := f.rules.filter (·.kind ≠ .required)

/-- A field without the rules that its validator passes over. -/
def trimmed (f : Field) : Field :=
  { f with rules := f.rules.filter fun rule =>
      rule.kind = .required || (Check.ofRule? f.type rule).isSome }

theorem isOfUse_of_mem_trimmed {f : Field} {rule : Rule} (h : rule ∈ f.trimmed.rules) :
    rule.IsOfUse f.trimmed.type := by
  have hkept := (List.mem_filter.1 h).2
  rw [Bool.or_eq_true, decide_eq_true_eq] at hkept
  exact (rule.isOfUse_iff f.type).2 hkept

end Field

namespace Validator

theorem compile_true_returns_iff (f : Field) :
    (∃ val, compile true f = .ok val) ↔ ∀ rule ∈ f.rules, rule.IsOfUse f.type := by
  have hnone : Schema.rulesError? f = none ↔ ∀ rule ∈ f.rules, rule.IsOfUse f.type := by
    simp only [Schema.rulesError?, List.findSome?_eq_none_iff, Schema.ruleError?_eq_none_iff]
  rw [← hnone, compile_eq, if_pos rfl]
  cases Schema.rulesError? f <;> simp

variable (f : Field)

theorem checks_ofField_eq :
    (ofField f).checks = f.valueRules.filterMap (Check.ofRule? f.type) := by
  rw [Field.valueRules, List.filterMap_filter]
  apply List.filterMap_congr
  intro rule _
  by_cases hkind : rule.kind = .required
  · simp [hkind, Check.ofRule?_of_required f.type hkind]
  · simp [hkind]

theorem forall₂_isFor_iff : List.Forall₂ Check.IsFor f.valueRules (ofField f).checks ↔
    ∀ rule ∈ f.rules, rule.IsOfUse f.type := by
  rw [checks_ofField_eq, forall₂_filterMap_iff fun _ _ => Check.isFor_of_ofRule?]
  simp only [Field.valueRules, List.mem_filter, decide_eq_true_eq, and_imp, Rule.isOfUse_iff,
    or_iff_not_imp_left, ne_eq]

theorem checks_trimmed : (ofField f.trimmed).checks = (ofField f).checks := by
  change (f.rules.filter _).filterMap (Check.ofRule? f.type) = f.rules.filterMap _
  rw [List.filterMap_filter]
  apply List.filterMap_congr
  intro rule _
  cases Check.ofRule? f.type rule <;> simp

theorem requiredMessage_trimmed :
    (ofField f.trimmed).requiredMessage = (ofField f).requiredMessage := by
  have hrequired : f.trimmed.rules.filter (·.kind = .required) =
      f.rules.filter (·.kind = .required) := by
    rw [Field.trimmed, List.filter_filter]
    apply List.filter_congr
    intro rule _
    by_cases hkind : rule.kind = .required <;> simp [hkind]
  rw [ofField, ofField, hrequired]

/-- Rules that are passed over change no outcome. -/
theorem run_trimmed (v : Value) : (ofField f.trimmed).run v = (ofField f).run v := by
  rw [run, run, runEmpty, runEmpty, checks_trimmed, requiredMessage_trimmed]
  rfl

end Validator

namespace Schema
variable {sources : List Field.Source} {s : Schema}

theorem exists_ofSources_false (h : ofSources true sources = .ok s) :
    ∃ s', ofSources false sources = .ok s' ∧ s'.fields = s.fields := by
  obtain ⟨fields, hread, hcompile⟩ := ofSources_eq_ok_iff.1 h
  obtain ⟨hconsistent, -⟩ := exists_compile_iff.1 ⟨s, hcompile⟩
  obtain ⟨s', hs'⟩ := exists_compile_iff.2 ⟨hconsistent, fun h => absurd h Bool.false_ne_true⟩
  refine ⟨s', ofSources_eq_ok_iff.2 ⟨fields, hread, hs'⟩, ?_⟩
  rw [fields_of_compile hcompile, fields_of_compile hs']

/-- The validators of a strict schema are those that its fields compile to strictly. -/
theorem exists_compile_true (h : ofSources true sources = .ok s) {f : Field} (hf : f ∈ s.fields) :
    ∃ val, Validator.compile true f = .ok val ∧ s.validator? f.id = some val := by
  obtain ⟨fields, -, hcompile⟩ := ofSources_eq_ok_iff.1 h
  obtain ⟨-, hrules⟩ := exists_compile_iff.1 ⟨s, hcompile⟩
  rw [fields_of_compile hcompile] at hf
  obtain ⟨val, hval⟩ := (Validator.compile_true_returns_iff f).2 (hrules rfl f hf)
  rw [← fields_of_compile hcompile] at hf
  exact ⟨val, hval, by rw [validator?_eq_some s hf, Validator.eq_ofField_of_compile hval]⟩

end Schema

namespace Validator

/-- Compiling strictly only refuses. Otherwise every field compiles, and strictly it does exactly if
every rule on values is kept then; the validator is the same. Without the rules that are passed over
a field compiles strictly, to a validator with the same outcomes. What becomes a schema strictly
becomes one otherwise too, and both have the same results. -/
theorem compile_true_returns_iff_isFor :
    (∀ f : Field, ∃ val, compile false f = .ok val ∧
      ((∃ val', compile true f = .ok val') ↔
        List.Forall₂ Check.IsFor f.valueRules val.checks) ∧
      (∀ val', compile true f = .ok val' → val' = val) ∧
      ∃ val', compile true f.trimmed = .ok val' ∧ val'.field.id = f.id ∧
        ∀ v, val'.run v = val.run v) ∧
    ∀ sources s, Schema.ofSources true sources = .ok s →
      (∀ f ∈ s.fields, ∃ val, compile true f = .ok val ∧ s.validator? f.id = some val) ∧
      ∃ s', Schema.ofSources false sources = .ok s' ∧
        ∀ answers, s'.validate answers = s.validate answers := by
  constructor
  · intro f
    refine ⟨ofField f, compile_false f, ?_, fun val' => eq_ofField_of_compile, ?_⟩
    · rw [compile_true_returns_iff, forall₂_isFor_iff]
    · obtain ⟨val', hval'⟩ := (compile_true_returns_iff f.trimmed).2 fun rule =>
        Field.isOfUse_of_mem_trimmed
      refine ⟨val', hval', ?_⟩
      obtain rfl := eq_ofField_of_compile hval'
      exact ⟨rfl, run_trimmed f⟩
  · intro sources s h
    refine ⟨fun f => Schema.exists_compile_true h, ?_⟩
    obtain ⟨s', hs', hfields⟩ := Schema.exists_ofSources_false h
    refine ⟨s', hs', ?_⟩
    intro answers
    rw [Schema.validate_eq, hfields, Schema.validate_eq]

/-- Of six rules two are passed over. Strictly the field is refused for the first of them, and
without them it is not. -/
theorem compile_true_returns_iff_isFor_nameField :
    compile true nameField = .error (.valuelessRule "name" .minLength) ∧
      nameField.trimmed.rules.length = 4 ∧
      (∃ val', compile true nameField.trimmed = .ok val' ∧
        ∀ v, val'.run v = (ofField nameField).run v) ∧
      ∃ s, Schema.ofSources true [.definition nameField.trimmed] = .ok s ∧
        ∃ s', Schema.ofSources false [.definition nameField.trimmed] = .ok s' ∧
          ∀ answers, s'.validate answers = s.validate answers := by
  obtain ⟨hfields, hschemas⟩ := compile_true_returns_iff_isFor
  obtain ⟨val, hval, -, -, val', hval', -, hrun⟩ := hfields nameField
  obtain rfl := eq_ofField_of_compile hval
  have hs : Schema.ofSources true [.definition nameField.trimmed] =
      .ok (Schema.ofConsistent [nameField.trimmed] (by decide)) := rfl
  obtain ⟨-, hlenient⟩ := hschemas _ _ hs
  exact ⟨rfl, rfl, ⟨val', hval', hrun⟩, _, hs, hlenient⟩

end Validator

end FormLogic
