import FormLogic.Definition.Reader

namespace FormLogic

/-- An error in the answer to one field, with the answer as it was received. -/
structure FieldError where
  fieldId : String
  errorType : String
  message : String
  received : Value

structure Report where
  isValid : Bool
  errors : List FieldError
  data : Option Answers
  warnings : List String

/-- Adds a message to the list of a key, which is made at the end if it is new. -/
def addMessage (key message : String) : List (String × List String) → List (String × List String)
  | [] => [(key, [message])]
  | (k, ms) :: entries =>
    if k = key then (k, ms ++ [message]) :: entries
    else (k, ms) :: addMessage key message entries

namespace Report

def errorCount (r : Report) : Nat := r.errors.length

def fieldErrors (r : Report) (id : String) : List FieldError :=
  r.errors.filter (·.fieldId == id)

/-- The messages of every field that has errors, in the order of their first errors. -/
def messagesByField (r : Report) : List (String × List String) :=
  r.errors.foldl (fun entries e => addMessage e.fieldId e.message entries) []

end Report

namespace FieldError

def fieldIdKey : Key := { name := "field_id" }
def errorTypeKey : Key := { name := "error_type" }
def messageKey : Key := { name := "message" }
def receivedKey : Key := { name := "received" }

def read : Value → Checked FieldError :=
  Read.object fun entries =>
    FieldError.mk <$> Read.required fieldIdKey Read.text entries
      <*> Read.required errorTypeKey Read.text entries
      <*> Read.required messageKey Read.text entries
      <*> Read.optional receivedKey .null Read.any entries

end FieldError

namespace Report

def isValidKey : Key := { name := "is_valid" }
def errorsKey : Key := { name := "errors" }
def dataKey : Key := { name := "validated_data" }
def warningsKey : Key := { name := "warnings" }

def read : Value → Checked Report :=
  Read.object fun entries =>
    Report.mk <$> Read.required isValidKey Read.bool entries
      <*> Read.optional errorsKey [] (Read.list FieldError.read) entries
      <*> Read.optional dataKey none (Read.nullable Read.answers) entries
      <*> Read.optional warningsKey [] (Read.list Read.text) entries

end Report
end FormLogic
