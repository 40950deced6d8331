import FormLogic.Definition.Reader
import FormLogic.Value.Plain

namespace FormLogic

namespace Rule

def kindKey : Key := { name := "kind", outside := "type", accepted := ["kind", "type"] }
def valueKey : Key := { name := "value" }
def messageKey : Key := { name := "message" }

def read : Value → Checked Rule :=
  Read.object fun entries =>
    Rule.mk <$> Read.required kindKey (Read.named RuleKind.ofName?) entries
      <*> Read.optional valueKey none (Read.nullable Read.float) entries
      <*> Read.optional messageKey none (Read.nullable Read.text) entries

def write (spelling : Spelling) (rule : Rule) : Value :=
  .record [
    (kindKey.spelled spelling, .text rule.kind.name),
    (valueKey.spelled spelling, (rule.value.map Value.float).getD .null),
    (messageKey.spelled spelling, (rule.message.map Value.text).getD .null)]

end Rule

namespace Choice

def labelKey : Key := { name := "label" }
def valueKey : Key := { name := "value" }

def read : Value → Checked Choice :=
  Read.object fun entries =>
    Choice.mk <$> Read.required labelKey Read.text entries
      <*> Read.required valueKey Read.text entries

def write (choice : Choice) : Value :=
  .record [(labelKey.name, .text choice.label), (valueKey.name, .text choice.value)]

end Choice

namespace Derivation

def parentsKey : Key :=
  { name := "parent_field_ids", outside := "parentFieldIds",
    accepted := ["parent_field_ids", "parentFieldIds", "parentFields"] }
def logicKey : Key := { name := "logic" }
def formulaKey : Key := { name := "formula" }

def read : Value → Checked Derivation :=
  Read.object fun entries =>
    Derivation.mk <$> Read.optional parentsKey [] (Read.list Read.text) entries
      <*> Read.required logicKey (Read.named Logic.ofName?) entries
      <*> Read.optional formulaKey "" Read.text entries

def write (spelling : Spelling) (d : Derivation) : Value :=
  .record [
    (parentsKey.spelled spelling, .list (d.parents.map Value.text)),
    (logicKey.spelled spelling, .text d.logic.name),
    (formulaKey.spelled spelling, .text d.formula)]

end Derivation

namespace Field

def idKey : Key := { name := "id" }
def typeKey : Key := { name := "type" }
def labelKey : Key := { name := "label" }
def requiredKey : Key := { name := "required" }
def isDerivedKey : Key := { name := "is_derived", outside := "isDerived" }
def derivationKey : Key := { name := "derived_config", outside := "derivedConfig" }
def rulesKey : Key := { name := "validation_rules", outside := "validationRules" }
def choicesKey : Key := { name := "options" }
def defaultValueKey : Key := { name := "default_value", outside := "defaultValue" }
def orderKey : Key := { name := "order" }

/-- The parts of a field definition, each in order by itself. -/
structure Draft where
  id : { s : String // s ≠ "" }
  type : FieldType
  label : String
  required : Bool
  isDerived : Bool
  derivation : Option Derivation
  rules : List Rule
  choices : Option (List Choice)
  defaultValue : Value
  order : Int

def Draft.read : Value → Checked Draft :=
  Read.object fun entries =>
    Draft.mk <$> Read.required idKey Read.nonemptyText entries
      <*> Read.required typeKey (Read.named FieldType.ofName?) entries
      <*> Read.optional labelKey "" Read.text entries
      <*> Read.optional requiredKey false Read.bool entries
      <*> Read.optional isDerivedKey false Read.bool entries
      <*> Read.optional derivationKey none (Read.nullable Derivation.read) entries
      <*> Read.optional rulesKey [] (Read.list Rule.read) entries
      <*> Read.optional choicesKey none (Read.nullable (Read.list Choice.read)) entries
      <*> Read.optional defaultValueKey .null Read.any entries
      <*> Read.optional orderKey 0 Read.int entries

def Draft.toField (d : Draft) : Checked Field :=
  if d.isDerived && d.derivation.isNone then .fault (.misfit (.derivationMissing d.id))
  else if !d.isDerived && d.derivation.isSome then
    .fault (.misfit (.derivationUnwanted d.id))
  else if h : choicesFit d.type d.choices = true then
    .ok ⟨d.id, d.type, d.label, d.required, d.derivation, d.rules, d.choices, d.defaultValue,
      d.order, d.id.2, h⟩
  else if d.type.isChoice then .fault (.misfit (.choicesMissing d.id d.type))
  else .fault (.misfit (.choicesUnwanted d.id d.type))

/-- Reads a field definition. Whether its parts fit together is asked only if each of them is
in order. -/
def read (v : Value) : Checked Field := (Draft.read v).andThen Draft.toField

def write (spelling : Spelling) (f : Field) : Value :=
  .record [
    (idKey.spelled spelling, .text f.id),
    (typeKey.spelled spelling, .text f.type.name),
    (labelKey.spelled spelling, .text f.label),
    (requiredKey.spelled spelling, .bool f.required),
    (isDerivedKey.spelled spelling, .bool f.isDerived),
    (derivationKey.spelled spelling, (f.derivation.map (Derivation.write spelling)).getD .null),
    (rulesKey.spelled spelling, .list (f.rules.map (Rule.write spelling))),
    (choicesKey.spelled spelling,
      (f.choices.map fun cs => Value.list (cs.map Choice.write)).getD .null),
    (defaultValueKey.spelled spelling, f.defaultValue.plain),
    (orderKey.spelled spelling, .int f.order)]

def write? (spelling : Spelling) (f : Field) : Option Value :=
  if f.defaultValue.isWritable then some (f.write spelling) else none

def readEach : List Value → Checked (List Field) := Checked.each read

/-- What a field of a form is made of: its definition, or the data of one. -/
inductive Source where
  | definition (f : Field)
  | data (v : Value)

def Source.read : Source → Checked Field
  | .definition f => .ok f
  | .data v => Field.read v

/-- What a form starts with in a field: its default value, else no choices for a checkbox
field and an empty text for the others. -/
def initialValue (f : Field) : Value :=
  match f.defaultValue with
  | .null => match f.type with
    | .checkbox => .list []
    | _ => .text ""
  | v => v

def initialAnswers (fields : List Field) : Answers :=
  .ofList (fields.map fun f => (f.id, f.initialValue))

end Field
end FormLogic
