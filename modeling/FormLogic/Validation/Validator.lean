import FormLogic.Validation.Check
import FormLogic.Value.Number
import FormLogic.Text.Quoted

namespace FormLogic

inductive Failure where
  | notCalculated
  | missing
  | wrongType
  | rule (kind : RuleKind)
  deriving DecidableEq, Repr

def Failure.code : Failure → String
  | .notCalculated => "derived"
  | .missing => "required"
  | .wrongType => "type"
  | .rule kind => kind.name

/-- The outcome for one answer: the cleaned value, or a failure and its message. -/
inductive Outcome where
  | accepted (value : Value)
  | rejected (failure : Failure) (message : String)

namespace Outcome

def isAccepted : Outcome → Bool
  | .accepted _ => true
  | .rejected _ _ => false

def value : Outcome → Value
  | .accepted v => v
  | .rejected _ _ => .null

end Outcome

namespace FieldType

def typeMessage : FieldType → String
  | .text => "Expected text"
  | .textarea => "Expected text"
  | .select => "Expected a single option value"
  | .radio => "Expected a single option value"
  | .number => "Not a valid number"
  | .date => "Expected a date"
  | .checkbox => "Expected a list of option values or a boolean"

def isTextValue : Value → Bool
  | .text _ => true
  | _ => false

/-- The value that a field type makes of an answer, if it takes it: numbers are read, and the
choices of a checkbox field become a list. -/
def clean? (type : FieldType) (v : Value) : Except NumberTooLarge (Option Value) :=
  match type with
  | .text | .textarea | .select | .radio => .ok (if isTextValue v then some v else none)
  | .number => v.number?.map (·.map .float)
  | .date =>
    .ok <| match v with
      | .text _ => some v
      | .date _ => some v
      | .moment _ => some v
      | _ => none
  | .checkbox =>
    .ok <| match v with
      | .bool _ => some v
      | .list items => if items.all isTextValue then some (.list items) else none
      | .tuple items => if items.all isTextValue then some (.list items) else none
      | _ => none

end FieldType

def defaultRequiredMessage : String := "This field is required"

def notCalculatedMessage : String := "Value has not been calculated"

structure Validator where
  field : Field
  checks : List Check
  requiredMessage : String

namespace Validator

/-- The validator of a field before any of its rules is taken in. -/
def ofType (f : Field) : Validator := ⟨f, [], defaultRequiredMessage⟩

def tryChecks (v : Value) : List Check → Outcome
  | [] => .accepted v
  | c :: cs => if c.test.holds v then tryChecks v cs else .rejected (.rule c.test.kind) c.message

/-- The outcome for an empty answer. -/
def runEmpty (val : Validator) (v : Value) : Outcome :=
  if val.field.isDerived then .rejected .notCalculated notCalculatedMessage
  else if val.field.required then .rejected .missing val.requiredMessage
  else .accepted v

/-- Validates an answer. An empty one is settled first. Any other is cleaned, which asks for the
kind of value that the field type takes, and the checks are tried in order, the first that fails
being told. -/
def run (val : Validator) (v : Value) : Except NumberTooLarge Outcome :=
  if v.isEmpty then .ok (val.runEmpty v)
  else
    (val.field.type.clean? v).map fun
      | none => .rejected .wrongType val.field.type.typeMessage
      | some cleaned => tryChecks cleaned val.checks

def summary (val : Validator) : String :=
  "FieldValidator(field_id=" ++ Text.quoted val.field.id ++
    ", type=" ++ Text.quoted val.field.type.name ++
    ", rules=" ++ Text.quotedList (val.checks.map (·.test.kind.name)) ++ ")"

end Validator
end FormLogic
