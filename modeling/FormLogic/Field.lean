import FormLogic.Value.Basic

namespace FormLogic

inductive FieldType where
  | text
  | number
  | textarea
  | select
  | radio
  | checkbox
  | date
  deriving DecidableEq, Repr

namespace FieldType

def all : List FieldType := [.text, .number, .textarea, .select, .radio, .checkbox, .date]

def name : FieldType → String
  | .text => "text"
  | .number => "number"
  | .textarea => "textarea"
  | .select => "select"
  | .radio => "radio"
  | .checkbox => "checkbox"
  | .date => "date"

def ofName? (s : String) : Option FieldType := all.find? (·.name == s)

def isChoice : FieldType → Bool
  | .select => true
  | .radio => true
  | .checkbox => true
  | _ => false

end FieldType

inductive RuleKind where
  | required
  | minLength
  | maxLength
  | email
  | password
  | min
  | max
  deriving DecidableEq, Repr

namespace RuleKind

def all : List RuleKind := [.required, .minLength, .maxLength, .email, .password, .min, .max]

def name : RuleKind → String
  | .required => "required"
  | .minLength => "minLength"
  | .maxLength => "maxLength"
  | .email => "email"
  | .password => "password"
  | .min => "min"
  | .max => "max"

def ofName? (s : String) : Option RuleKind := all.find? (·.name == s)

def needsValue : RuleKind → Bool
  | .minLength => true
  | .maxLength => true
  | .min => true
  | .max => true
  | _ => false

/-- Whether a rule can be applied to the values of a field type. That a value is required is
not a rule on values. -/
def appliesTo (kind : RuleKind) (type : FieldType) : Bool :=
  match type with
  | .text | .textarea | .select | .radio =>
    match kind with
    | .minLength | .maxLength | .email | .password => true
    | _ => false
  | .number =>
    match kind with
    | .min | .max => true
    | _ => false
  | .date | .checkbox => false

end RuleKind

structure Rule where
  kind : RuleKind
  value : Option Binary64
  message : Option String
  deriving DecidableEq

/-- The message of a rule, where it has one with any text. -/
def Rule.ownMessage? (rule : Rule) : Option String := rule.message.filter (· ≠ "")

structure Choice where
  label : String
  value : String
  deriving DecidableEq, Repr

inductive Logic where
  | age
  | sum
  | concat
  | custom
  deriving DecidableEq, Repr

namespace Logic

def all : List Logic := [.age, .sum, .concat, .custom]

def name : Logic → String
  | .age => "age"
  | .sum => "sum"
  | .concat => "concat"
  | .custom => "custom"

def ofName? (s : String) : Option Logic := all.find? (·.name == s)

end Logic

/-- The computation of a derived value from the answers to its parents. The formula is used by
custom logic alone. -/
structure Derivation where
  parents : List String
  logic : Logic
  formula : String
  deriving DecidableEq, Repr

/-- Choice fields offer choices, and other fields have none. -/
def choicesFit (type : FieldType) (choices : Option (List Choice)) : Bool :=
  if type.isChoice then choices.isSome else (choices.getD []).isEmpty

/-- The definition of a field. A field is derived if it has a derivation, and is entered
otherwise. -/
structure Field where
  id : String
  type : FieldType
  label : String
  required : Bool
  derivation : Option Derivation
  rules : List Rule
  choices : Option (List Choice)
  defaultValue : Value
  order : Int
  id_ne : id ≠ ""
  choices_fit : choicesFit type choices = true

namespace Field

def isDerived (f : Field) : Bool := f.derivation.isSome

def isChoice (f : Field) : Bool := f.type.isChoice

def parents (f : Field) : List String :=
  match f.derivation with
  | some d => d.parents
  | none => []

/-- Fields in the order in which they are shown; fields of equal order keep their places. -/
def sort (fields : List Field) : List Field := fields.mergeSort fun a b => a.order ≤ b.order

end Field
end FormLogic
