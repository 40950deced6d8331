import FormLogic.Binary64.Arithmetic
import FormLogic.Calendar.Date

namespace FormLogic

/-- A value of an answer. Lists and tuples differ only in that a tuple is fixed. The entries
of a record keep the order in which they were made. -/
inductive Value where
  | null
  | bool (b : Bool)
  | int (n : Int)
  | float (x : Binary64)
  | text (s : String)
  | list (items : List Value)
  | tuple (items : List Value)
  | date (d : Date)
  | moment (m : Moment)
  | record (entries : List (String × Value))

namespace Value

/-- Nothing was entered: no value, no text or no items. -/
def isEmpty : Value → Bool
  | .null => true
  | .text s => s.isEmpty
  | .list items => items.isEmpty
  | .tuple items => items.isEmpty
  | _ => false

/-- Whether a value counts as true: all do but null, false, zero and what is empty. -/
def isTrue : Value → Bool
  | .null => false
  | .bool b => b
  | .int n => n != 0
  | .float x => !x.isZero
  | .text s => !s.isEmpty
  | .list items => !items.isEmpty
  | .tuple items => !items.isEmpty
  | .record entries => !entries.isEmpty
  | .date _ => true
  | .moment _ => true

def isText (v : Value) (s : String) : Bool :=
  match v with
  | .text t => t == s
  | _ => false

def items? : Value → Option (List Value)
  | .list items => some items
  | .tuple items => some items
  | _ => none

end Value
end FormLogic
