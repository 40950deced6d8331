import FormLogic.Schema.Validation
import FormLogic.Proofs.Except
import FormLogic.Proofs.Field
import FormLogic.Proofs.Schema.Basic
import FormLogic.Proofs.Value.Number

namespace FormLogic

theorem FieldType.clean?_fails_iff (type : FieldType) (v : Value) :
    (∃ e, type.clean? v = .error e) ↔ type = .number ∧ v.IsTooLarge := by
  cases type with
  | number =>
    rw [← Value.number?_fails_iff, clean?]
    cases v.number? <;> simp [Except.map]
  | _ => simp [clean?]

namespace Validator

theorem run_fails_iff (val : Validator) (v : Value) :
    (∃ e, val.run v = .error e) ↔ val.field.type = .number ∧ v.IsTooLarge := by
  rw [← FieldType.clean?_fails_iff, run]
  split
  -- an empty answer is not read, and none that is too large is empty
  · next hempty =>
    have hclean : ¬∃ e, val.field.type.clean? v = .error e := by
      rw [FieldType.clean?_fails_iff]
      rintro ⟨-, htoo⟩
      rw [Value.isEmpty_of_isTooLarge htoo] at hempty
      cases hempty
    simp only [hclean, iff_false]
    rintro ⟨e, h⟩
    cases h
  · cases val.field.type.clean? v <;> simp [Except.map]

section
variable {val : Validator} {v : Value} (hempty : v.isEmpty = false)
include hempty

theorem run_of_clean?_eq_none (hclean : val.field.type.clean? v = .ok none) :
    val.run v = .ok (.rejected .wrongType val.field.type.typeMessage) := by
  rw [run, if_neg (by simp [hempty]), hclean]
  rfl

theorem run_of_clean?_eq_some {cleaned : Value}
    (hclean : val.field.type.clean? v = .ok (some cleaned)) :
    val.run v = .ok (tryChecks cleaned val.checks) := by
  rw [run, if_neg (by simp [hempty]), hclean]
  rfl

theorem run_of_number?_eq_none (htype : val.field.type = .number) (h : v.number? = .ok none) :
    val.run v = .ok (.rejected .wrongType FieldType.number.typeMessage) := by
  have hclean : val.field.type.clean? v = .ok none := by
    rw [htype, FieldType.clean?, h]
    rfl
  rw [run_of_clean?_eq_none hempty hclean, htype]

end

end Validator

namespace Schema

/-- Some number field has an answer that is too large. -/
def HasTooLarge (fields : List Field) (answers : Answers) : Prop :=
  ∃ f ∈ fields, f.type = .number ∧ (answers.get f.id).IsTooLarge

theorem validateField_fails_iff (answers : Answers) (val : Validator) :
    (∃ e, validateField answers val = .error e) ↔
      val.field.type = .number ∧ (answers.get val.field.id).IsTooLarge := by
  rw [← val.run_fails_iff, validateField]
  cases val.run (answers.get val.field.id) <;> simp [Except.map]

theorem fieldId_of_validateField {answers : Answers} {val : Validator} {r : FieldResult}
    (h : validateField answers val = .ok r) : r.fieldId = val.field.id := by
  obtain ⟨outcome, -, rfl⟩ := exists_of_map_eq_ok h
  rfl

variable (s : Schema) (answers : Answers)

theorem validate_eq : s.validate answers =
    s.fields.mapM fun f => validateField answers (.ofField f) := by
  rw [validate, validators_eq, List.mapM_map]
  rfl

theorem validate_fails_iff :
    (∃ e, s.validate answers = .error e) ↔ HasTooLarge s.fields answers := by
  rw [validate_eq, mapM_fails_iff]
  simp only [validateField_fails_iff]
  rfl

theorem report_fails_iff :
    (∃ e, s.report answers = .error e) ↔ HasTooLarge s.fields answers := by
  rw [← validate_fails_iff, report]
  cases s.validate answers <;> simp [Except.map]

variable {s} {answers} {results : List FieldResult}

theorem map_fieldId_of_validate (h : s.validate answers = .ok results) :
    results.map (·.fieldId) = s.fields.map Field.id := by
  rw [validate_eq] at h
  symm
  rw [← List.forall₂_eq_eq_eq, List.forall₂_map_left_iff, List.forall₂_map_right_iff]
  exact (forall₂_of_mapM_eq_ok h).imp fun _ _ hr => (fieldId_of_validateField hr).symm

theorem nodup_fieldId_of_validate (h : s.validate answers = .ok results) :
    (results.map FieldResult.fieldId).Nodup := by
  rw [map_fieldId_of_validate h]
  exact s.nodup_ids

/-- An answer under a number field that is no number is told of by its type. -/
theorem exists_wrongType (h : s.validate answers = .ok results) {f : Field} (hf : f ∈ s.fields)
    (htype : f.type = .number) (hempty : (answers.get f.id).isEmpty = false)
    (hnumber : (answers.get f.id).number? = .ok none) :
    ∃ r ∈ results, r.fieldId = f.id ∧
      r.outcome = .rejected .wrongType FieldType.number.typeMessage := by
  rw [validate_eq] at h
  obtain ⟨r, hr, hvalidate⟩ := exists_of_mapM_eq_ok h hf
  have hrun : (Validator.ofField f).run (answers.get (Validator.ofField f).field.id) = _ :=
    Validator.run_of_number?_eq_none hempty htype hnumber
  rw [validateField, hrun] at hvalidate
  cases hvalidate
  exact ⟨_, hr, rfl, rfl⟩

theorem exists_typeError {report : Report} (h : s.report answers = .ok report) {f : Field}
    (hf : f ∈ s.fields) (htype : f.type = .number)
    (hempty : (answers.get f.id).isEmpty = false)
    (hnumber : (answers.get f.id).number? = .ok none) :
    ∃ e ∈ report.errors, e.fieldId = f.id ∧ e.errorType = "type" := by
  obtain ⟨results, hresults, rfl⟩ := exists_of_map_eq_ok h
  obtain ⟨r, hr, hid, houtcome⟩ := exists_wrongType hresults hf htype hempty hnumber
  have herror : fieldError? answers r =
      some ⟨r.fieldId, "type", FieldType.number.typeMessage, answers.get r.fieldId⟩ := by
    rw [fieldError?, houtcome]
    rfl
  exact ⟨_, List.mem_filterMap.2 ⟨r, hr, herror⟩, hid, rfl⟩

/-- Validation gives each field a result, in the order of the fields, and a report is made, unless
a number field has a whole number beyond all doubles for an answer. Any other answer under a
number field that is no number is told of by its type. -/
theorem validate_returns_iff {strict : Bool} {fields : List Field}
    (hs : compile strict fields = .ok s) (answers : Answers) :
    ((∃ results, s.validate answers = .ok results) ↔ ¬HasTooLarge fields answers) ∧
    ((∃ report, s.report answers = .ok report) ↔ ¬HasTooLarge fields answers) ∧
    (∀ results, s.validate answers = .ok results →
      results.map (·.fieldId) = fields.map Field.id) ∧
    ∀ f ∈ fields, f.type = .number → (answers.get f.id).isEmpty = false →
      (answers.get f.id).number? = .ok none →
      (∀ results, s.validate answers = .ok results → ∃ r ∈ results, r.fieldId = f.id ∧
        r.outcome = .rejected .wrongType FieldType.number.typeMessage) ∧
      ∀ report, s.report answers = .ok report →
        ∃ e ∈ report.errors, e.fieldId = f.id ∧ e.errorType = "type" := by
  obtain rfl := fields_of_compile hs
  refine ⟨?_, ?_, fun results h => map_fieldId_of_validate h, ?_⟩
  · rw [returns_iff_not_fails, validate_fails_iff]
  · rw [returns_iff_not_fails, report_fails_iff]
  · intro f hf htype hempty hnumber
    exact ⟨fun results h => exists_wrongType h hf htype hempty hnumber,
      fun report h => exists_typeError h hf htype hempty hnumber⟩

def numberFields : List Field := [.ofNumber "n" none rfl]

/-- A number that is too large is told of if it is a text, and ends the validation if it is a
whole number. -/
theorem validate_returns_iff_numberFields :
    ∃ s, compile true numberFields = .ok s ∧
      (∃ results, s.validate (.ofList [("n", .text "1e400")]) = .ok results ∧
        ∃ r ∈ results, r.fieldId = "n" ∧ r.outcome.isAccepted = false) ∧
      ¬∃ results, s.validate (.ofList [("n", .int (10 ^ 400))]) = .ok results := by
  have hs : compile true numberFields = .ok (ofConsistent numberFields (by decide)) := rfl
  refine ⟨_, hs, ?_, ?_⟩
  · have htext := validate_returns_iff hs (.ofList [("n", .text "1e400")])
    have hsmall : ¬HasTooLarge numberFields (.ofList [("n", .text "1e400")]) := by
      rintro ⟨f, hf, -, n, hn, -⟩
      obtain rfl := List.mem_singleton.1 hf
      cases hn
    obtain ⟨results, hresults⟩ := htext.1.2 hsmall
    obtain ⟨r, hr, hid, houtcome⟩ := (htext.2.2.2 _ List.mem_cons_self rfl rfl
      (by decide +kernel)).1 results hresults
    exact ⟨results, hresults, r, hr, hid, by rw [houtcome]; rfl⟩
  · have hint := validate_returns_iff hs (.ofList [("n", .int (10 ^ 400))])
    rw [hint.1, not_not]
    exact ⟨_, List.mem_cons_self, rfl, 10 ^ 400, rfl, by decide +kernel⟩

end Schema
end FormLogic
