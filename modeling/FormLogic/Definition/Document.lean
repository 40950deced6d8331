import FormLogic.Definition.Field

namespace FormLogic

/-- A form as it is stored. A time is kept where the document gives one. -/
structure Document where
  id : String
  name : String
  fields : List Field
  createdAt : Option Timestamp
  updatedAt : Option Timestamp

namespace Document

def idKey : Key := { name := "id" }
def nameKey : Key := { name := "name" }
def fieldsKey : Key := { name := "fields" }
def createdAtKey : Key := { name := "created_at", outside := "createdAt" }
def updatedAtKey : Key := { name := "updated_at", outside := "updatedAt" }

def read : Value → Checked Document :=
  Read.object fun entries =>
    Document.mk <$> Read.required idKey Read.text entries
      <*> Read.required nameKey Read.text entries
      <*> Read.optional fieldsKey [] (Read.list Field.read) entries
      <*> Read.optional createdAtKey none (fun v => some <$> Read.timestamp v) entries
      <*> Read.optional updatedAtKey none (fun v => some <$> Read.timestamp v) entries

def writeTime (key : String) (time : Option Timestamp) : List (String × Value) :=
  match time with
  | some t => [(key, .text (String.ofList t.text))]
  | none => []

def write (spelling : Spelling) (d : Document) : Value :=
  .record ([
    (idKey.spelled spelling, .text d.id),
    (nameKey.spelled spelling, .text d.name),
    (fieldsKey.spelled spelling, .list (d.fields.map (Field.write spelling)))] ++
    writeTime (createdAtKey.spelled spelling) d.createdAt ++
    writeTime (updatedAtKey.spelled spelling) d.updatedAt)

def write? (spelling : Spelling) (d : Document) : Option Value :=
  if d.fields.all (·.defaultValue.isWritable) then some (d.write spelling) else none

def sortedFields (d : Document) : List Field := Field.sort d.fields

def initialAnswers (d : Document) : Answers := Field.initialAnswers d.fields

end Document
end FormLogic
