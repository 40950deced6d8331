import FormLogic.Schema.Basic
import FormLogic.Proofs.Except

namespace FormLogic

namespace Schema

def ruleError? (f : Field) (rule : Rule) : Option SchemaError :=
  if rule.kind = .required then none
  else if !rule.kind.appliesTo f.type then some (.inapplicableRule f.id f.type rule.kind)
  else if rule.kind.needsValue ∧ rule.value = none then some (.valuelessRule f.id rule.kind)
  else none

/-- The first rule of a field that is refused strictly and passed over otherwise. -/
def rulesError? (f : Field) : Option SchemaError := f.rules.findSome? (ruleError? f)

end Schema

theorem Check.ofRule?_of_required {rule : Rule} (type : FieldType) (h : rule.kind = .required) :
    ofRule? type rule = none := by
  rw [ofRule?, h]
  cases type <;> rfl

theorem Check.ofRule?_of_valueless {rule : Rule} (type : FieldType)
    (h : rule.kind.needsValue = true) (hvalue : rule.value = none) : ofRule? type rule = none := by
  have htest : Test.ofRule? rule = none := by
    rw [Test.ofRule?, hvalue]
    cases hkind : rule.kind <;> first | rfl | (rw [hkind] at h; cases h)
  rw [ofRule?, htest, Option.map_none, ite_self]

namespace Validator

/-- What a field compiles to, unless a rule is refused: the checks of its rules in their order, and
for a missing answer the message of the last required rule that has one. -/
def ofField (f : Field) : Validator where
  field := f
  checks := f.rules.filterMap (Check.ofRule? f.type)
  requiredMessage :=
    ((f.rules.filter (·.kind = .required)).filterMap Rule.ownMessage?).getLast?.getD
      defaultRequiredMessage

def withRule (val : Validator) (rule : Rule) : Validator where
  field := val.field
  checks := val.checks ++ (Check.ofRule? val.field.type rule).toList
  requiredMessage :=
    (if rule.kind = .required then rule.ownMessage? else none).getD val.requiredMessage

theorem addRule_eq (strict : Bool) (val : Validator) (rule : Rule) :
    addRule strict val rule =
      (if strict then Schema.ruleError? val.field rule else none).elim
        (.ok (val.withRule rule)) .error := by
  rw [addRule, Schema.ruleError?, withRule]
  by_cases hkind : rule.kind = .required
  · simp [hkind, Check.ofRule?_of_required val.field.type hkind]
  · by_cases happlies : rule.kind.appliesTo val.field.type = true
    · by_cases hvalue : rule.kind.needsValue = true ∧ rule.value = none
      · have hnone := Check.ofRule?_of_valueless val.field.type hvalue.1 hvalue.2
        cases strict <;> simp [hkind, happlies, hvalue, hnone]
      · cases strict <;> simp [hkind, happlies, hvalue]
    · have hnone : Check.ofRule? val.field.type rule = none := if_neg happlies
      cases strict <;> simp [hkind, happlies, hnone]

/-- The loop over the rules ends at the first that is refused, or with all of them taken in. -/
theorem foldlM_addRule (strict : Bool) (val : Validator) (rules : List Rule) :
    rules.foldlM (addRule strict) val =
      (if strict then rules.findSome? (Schema.ruleError? val.field) else none).elim
        (.ok (rules.foldl withRule val)) .error := by
  induction rules generalizing val with
  | nil => cases strict <;> rfl
  | cons rule rules ih =>
    -- taking in a rule leaves the field as it is, and so what is refused behind it
    have hrest := ih (val.withRule rule)
    rw [List.foldlM_cons, addRule_eq, List.foldl_cons]
    cases strict with
    | false => exact hrest
    | true =>
      rw [if_pos rfl, if_pos rfl, List.findSome?_cons]
      cases Schema.ruleError? val.field rule with
      | some e => rfl
      | none => exact hrest

theorem foldl_withRule (val : Validator) (rules : List Rule) :
    rules.foldl withRule val =
      ⟨val.field, val.checks ++ rules.filterMap (Check.ofRule? val.field.type),
        ((rules.filter (·.kind = .required)).filterMap Rule.ownMessage?).getLast?.getD
          val.requiredMessage⟩ := by
  simp only [List.filterMap_filter, decide_eq_true_eq]
  induction rules generalizing val with
  | nil => simp
  | cons rule rules ih =>
    rw [List.foldl_cons, ih, withRule, List.append_assoc]
    congr 1
    · cases h : Check.ofRule? val.field.type rule <;> simp [h]
    · cases h : if rule.kind = .required then rule.ownMessage? else none <;>
        simp [h, List.getLast?_cons]

/-- Compiling a field refuses its first bad rule if it is strict, and makes the same validator in
both modes otherwise. -/
theorem compile_eq (strict : Bool) (f : Field) :
    compile strict f =
      (if strict then Schema.rulesError? f else none).elim (.ok (ofField f)) .error := by
  rw [compile, foldlM_addRule, foldl_withRule]
  rfl

theorem compile_false (f : Field) : compile false f = .ok (ofField f) := compile_eq false f

theorem eq_ofField_of_compile {strict : Bool} {f : Field} {val : Validator}
    (h : compile strict f = .ok val) : val = ofField f := by
  rw [compile_eq, elim_error_eq_ok_iff] at h
  exact h.2.symm

theorem mapM_compile (strict : Bool) (fields : List Field) :
    fields.mapM (compile strict) =
      (if strict then fields.findSome? Schema.rulesError? else none).elim
        (.ok (fields.map ofField)) .error := by
  rw [mapM_eq_elim (compile_eq strict)]
  cases strict with
  | false =>
    have hnone : (fields.findSome? fun _ => (none : Option SchemaError)) = none :=
      List.findSome?_eq_none_iff.2 fun _ _ => rfl
    simp only [Bool.false_eq_true, if_false, hnone]
  | true => rfl

end Validator
end FormLogic
