import FormLogic.Schema.Basic
import FormLogic.Validation.Report

namespace FormLogic

structure FieldResult where
  fieldId : String
  outcome : Outcome

namespace Schema

def validateField (answers : Answers) (val : Validator) : Except NumberTooLarge FieldResult :=
  (val.run (answers.get val.field.id)).map fun outcome => ⟨val.field.id, outcome⟩

def validate (s : Schema) (answers : Answers) : Except NumberTooLarge (List FieldResult) :=
  s.validators.mapM (validateField answers)

def fieldError? (answers : Answers) (r : FieldResult) : Option FieldError :=
  match r.outcome with
  | .accepted _ => none
  | .rejected failure message =>
    some ⟨r.fieldId, failure.code, message, answers.get r.fieldId⟩

/-- The warnings for answers under ids that are no field's. -/
def unknownAnswers (s : Schema) (answers : Answers) : List String :=
  (answers.keys.filter fun key => (s.field? key).isNone).map fun key =>
    s!"Ignoring answer for unknown field '{key}'"

def gather (s : Schema) (answers : Answers) (results : List FieldResult) : Report where
  isValid := results.all (·.outcome.isAccepted)
  errors := results.filterMap (fieldError? answers)
  data :=
    if results.all (·.outcome.isAccepted) then
      some (.ofList (results.map fun r => (r.fieldId, r.outcome.value)))
    else none
  warnings := s.unknownAnswers answers

def report (s : Schema) (answers : Answers) : Except NumberTooLarge Report :=
  (s.validate answers).map (s.gather answers)

end Schema
end FormLogic
