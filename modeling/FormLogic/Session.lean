import FormLogic.Schema.Sync
import FormLogic.Schema.Validation
import FormLogic.Definition.Document

namespace FormLogic

inductive CompileError where
  | faulty (faults : List Fault)
  | inconsistent (e : SchemaError)

/-- Makes a schema of what its fields are made of. All of it is read before anything else is
asked. -/
def Schema.ofSources (strict : Bool) (sources : List Field.Source) :
    Except CompileError Schema :=
  match Checked.each Field.Source.read sources with
  | .faulty faults => .error (.faulty faults)
  | .ok fields => (Schema.compile strict fields).mapError .inconsistent

def Schema.ofData (strict : Bool) (data : List Value) : Except CompileError Schema :=
  Schema.ofSources strict (data.map .data)

/-- Makes a schema of the fields of a document, in the order in which they are shown. -/
def Document.compile (strict : Bool) (d : Document) : Except SchemaError Schema :=
  Schema.compile strict d.sortedFields

/-- A form while it is being filled in. A step that fails leaves it as it was, except that new field
data are kept even if no schema can be made of them. -/
structure Session where
  schema : Schema
  data : List Value
  answers : Answers
  today : Date
  settings : Settings

namespace Session

inductive Action where
  | compile (data : Option (List Value)) (strict : Option Bool)
  | configure (changes : List (String × Value))
  | setToday (today : Date)
  | set (id : String) (value : Value)
  | unset (id : String)
  | reset
  | apply (patch : Answers)
  | patch
  | sync
  | validate
  | report

inductive Reply where
  | compiled (schema : Schema)
  | notCompiled (e : CompileError)
  | configured (settings : Settings)
  | dated (today : Date)
  | answered (answers : Answers)
  | patched (patch : Answers)
  | synced (patch : Answers) (writes : List Write) (answers : Answers)
  | validated (results : List FieldResult)
  | reported (report : Report)
  | tooLarge (e : NumberTooLarge)

def start (settings : Settings) (today : Date) (answers : Answers) (strict : Option Bool)
    (data : List Value) : Except CompileError Session :=
  (Schema.ofData (strict.getD settings.isStrict) data).map fun schema =>
    ⟨schema, data, answers, today, settings⟩

def answer (s : Session) (answers : Answers) : Session × Reply :=
  ({ s with answers := answers }, .answered answers)

def currentPatch (s : Session) : Answers := s.schema.patch s.settings s.today s.answers

def step (s : Session) : Action → Session × Reply
  | .compile data strict =>
    let data := data.getD s.data
    match Schema.ofData (strict.getD s.settings.isStrict) data with
    | .ok schema => ({ s with schema := schema, data := data }, .compiled schema)
    | .error e => ({ s with data := data }, .notCompiled e)
  | .configure changes =>
    let settings := s.settings.update changes
    ({ s with settings := settings }, .configured settings)
  | .setToday today => ({ s with today := today }, .dated today)
  | .set id value => s.answer (s.answers.set id value)
  | .unset id => s.answer (s.answers.erase id)
  | .reset => s.answer (Field.initialAnswers s.schema.fields)
  | .apply patch => s.answer (s.answers.apply patch)
  | .patch => (s, .patched s.currentPatch)
  | .sync =>
    let ((writes, answers), patch) :=
      s.schema.sync s.settings s.today s.answers Answers.record ([], s.answers)
    ({ s with answers := answers }, .synced patch writes answers)
  | .validate =>
    match s.schema.validate s.answers with
    | .ok results => (s, .validated results)
    | .error e => (s, .tooLarge e)
  | .report =>
    match s.schema.report s.answers with
    | .ok report => (s, .reported report)
    | .error e => (s, .tooLarge e)

def run (s : Session) : List Action → List Reply
  | [] => []
  | a :: actions => (s.step a).2 :: run (s.step a).1 actions

end Session
end FormLogic
