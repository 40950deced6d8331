import FormLogic.Validation.Validator

namespace FormLogic

inductive SchemaError where
  | duplicateId (id : String)
  | noBirthDate (id : String)
  | unknownParent (id parent : String)
  | derivedParent (id parent : String)
  | inapplicableRule (id : String) (type : FieldType) (kind : RuleKind)
  | valuelessRule (id : String) (kind : RuleKind)
  deriving DecidableEq, Repr

namespace SchemaError

def message : SchemaError → String
  | .duplicateId id => s!"Duplicate field id: '{id}'"
  | .noBirthDate id => s!"Derived field '{id}' uses age logic but has no birth date field"
  | .unknownParent id parent => s!"Derived field '{id}' references unknown field '{parent}'"
  | .derivedParent id parent => s!"Derived field '{id}' references derived field '{parent}'"
  | .inapplicableRule id type kind =>
    s!"Rule '{kind.name}' cannot apply to {type.name} field '{id}'"
  | .valuelessRule id kind => s!"Rule '{kind.name}' on field '{id}' needs a value"

def fieldId : SchemaError → String
  | .duplicateId id => id
  | .noBirthDate id => id
  | .unknownParent id _ => id
  | .derivedParent id _ => id
  | .inapplicableRule id _ _ => id
  | .valuelessRule id _ => id

def parentId? : SchemaError → Option String
  | .unknownParent _ parent => some parent
  | .derivedParent _ parent => some parent
  | _ => none

end SchemaError

namespace Schema

def duplicateId? (seen : List String) : List Field → Option SchemaError
  | [] => none
  | f :: fs =>
    if f.id ∈ seen then some (.duplicateId f.id) else duplicateId? (f.id :: seen) fs

def parentError? (fields : List Field) (id parent : String) : Option SchemaError :=
  match fields.find? (·.id == parent) with
  | none => some (.unknownParent id parent)
  | some p => if p.isDerived then some (.derivedParent id parent) else none

/-- What is wrong with the derivation of a field: that an age has no birth date, or else its
first bad parent. -/
def derivationError? (fields : List Field) (f : Field) : Option SchemaError :=
  match f.derivation with
  | none => none
  | some d =>
    if d.logic = .age ∧ d.parents = [] then some (.noBirthDate f.id)
    else d.parents.findSome? (parentError? fields f.id)

/-- The first violation of consistency: an id that is used twice, or else a derivation that cannot
be computed. -/
def violation? (fields : List Field) : Option SchemaError :=
  (duplicateId? [] fields).or (fields.findSome? (derivationError? fields))

end Schema

namespace Validator

/-- Takes in one more rule. A required rule only brings its message, if it has one. A rule that the
field type cannot apply, or that lacks the value it needs, is refused strictly and passed over
otherwise. -/
def addRule (strict : Bool) (val : Validator) (rule : Rule) : Except SchemaError Validator :=
  if rule.kind = .required then
    .ok { val with requiredMessage := rule.ownMessage?.getD val.requiredMessage }
  else if !rule.kind.appliesTo val.field.type then
    if strict then .error (.inapplicableRule val.field.id val.field.type rule.kind) else .ok val
  else if rule.kind.needsValue ∧ rule.value = none then
    if strict then .error (.valuelessRule val.field.id rule.kind) else .ok val
  else .ok { val with checks := val.checks ++ (Check.ofRule? val.field.type rule).toList }

/-- Compiles a field rule by rule, up to the first rule that is refused. -/
def compile (strict : Bool) (f : Field) : Except SchemaError Validator :=
  f.rules.foldlM (addRule strict) (ofType f)

end Validator

/-- A consistent list of fields, with the validators that they compile to. -/
structure Schema where
  fields : List Field
  validators : List Validator
  consistent : Schema.violation? fields = none
  compiled : ∃ strict, fields.mapM (Validator.compile strict) = .ok validators

namespace Schema

/-- Makes a schema of a list of fields. Its consistency comes before the rules of its fields. -/
def compile (strict : Bool) (fields : List Field) : Except SchemaError Schema :=
  match hconsistent : violation? fields with
  | some e => .error e
  | none =>
    match hcompiled : fields.mapM (Validator.compile strict) with
    | .error e => .error e
    | .ok validators => .ok ⟨fields, validators, hconsistent, strict, hcompiled⟩

def derivedFields (s : Schema) : List Field := s.fields.filter (·.isDerived)

def field? (s : Schema) (id : String) : Option Field := s.fields.find? (·.id == id)

def validator? (s : Schema) (id : String) : Option Validator :=
  s.validators.find? (·.field.id == id)

def summary (s : Schema) : String :=
  "SchemaValidator(fields=" ++ Text.quotedList (s.fields.map (·.id)) ++ ")"

end Schema
end FormLogic
