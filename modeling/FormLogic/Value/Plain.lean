import FormLogic.Value.Basic

namespace FormLogic.Value

mutual

/-- A value without the kinds that written data cannot tell: days and moments become texts,
tuples become lists, and a number that is not finite becomes null. -/
def plain : Value → Value
  | .float x => if x.isFinite then .float x else .null
  | .tuple items => .list (plainItems items)
  | .list items => .list (plainItems items)
  | .date d => .text (String.ofList d.isoText)
  | .moment m => .text (String.ofList m.isoText)
  | .record entries => .record (plainEntries entries)
  | v => v

def plainItems : List Value → List Value
  | [] => []
  | v :: vs => plain v :: plainItems vs

def plainEntries : List (String × Value) → List (String × Value)
  | [] => []
  | (name, v) :: entries => (name, plain v) :: plainEntries entries

end

mutual

/-- How many values lie inside each other, counting the outermost and the innermost. -/
def depth : Value → Nat
  | .list items => 1 + depthItems items
  | .tuple items => 1 + depthItems items
  | .record entries => 1 + depthEntries entries
  | _ => 1

def depthItems : List Value → Nat
  | [] => 0
  | v :: vs => max (depth v) (depthItems vs)

def depthEntries : List (String × Value) → Nat
  | [] => 0
  | (_, v) :: entries => max (depth v) (depthEntries entries)

end

def writableDepth : Nat := 254

def isWritable (v : Value) : Bool := decide (v.depth ≤ writableDepth)

end FormLogic.Value
