import FormLogic.Schema.Basic
import FormLogic.Derived

namespace FormLogic

/-- A value to be stored under an id, and what storing it brings about. -/
structure Write where
  id : String
  value : Value
  shouldDirty : Bool
  shouldTouch : Bool
  shouldValidate : Bool

/-- A write without any consequence. -/
def Write.silent (id : String) (value : Value) : Write := ⟨id, value, false, false, false⟩

namespace Schema

def change? (settings : Settings) (today : Date) (answers : Answers) (f : Field) :
    Option (String × Value) :=
  match Derived.ofField? settings today answers f with
  | none => none
  | some s => if (answers.get f.id).isText s then none else some (f.id, .text s)

/-- The derived values that differ from the stored ones, in the order of the fields. -/
def patch (s : Schema) (settings : Settings) (today : Date) (answers : Answers) : Answers :=
  .ofList (s.fields.filterMap (change? settings today answers))

def writes (patch : Answers) : List Write := patch.entries.map fun e => .silent e.1 e.2

/-- A pass computes every derived field from one and the same answer set, and hands the writes of
what differs to a writer, one after the other. It ends with what has become of the writer, and with
the patch. -/
def sync {σ : Type} (s : Schema) (settings : Settings) (today : Date) (answers : Answers)
    (write : σ → Write → σ) (writer : σ) : σ × Answers :=
  let patch := s.patch settings today answers
  ((writes patch).foldl write writer, patch)

end Schema

def Answers.write (a : Answers) (w : Write) : Answers := a.set w.id w.value

def Answers.record (done : List Write × Answers) (w : Write) : List Write × Answers :=
  (done.1 ++ [w], done.2.write w)

end FormLogic
