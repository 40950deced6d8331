import FormLogic.Value.Basic
import FormLogic.Binary64.Text

namespace FormLogic

/-- What a count is compared with. Nothing can be compared with a limit that is no number. -/
inductive Limit where
  | int (n : Int)
  | bool (b : Bool)
  | float (x : Binary64)
  | incomparable
  deriving DecidableEq

namespace Limit

def ofValue : Value → Limit
  | .int n => .int n
  | .bool b => .bool b
  | .float x => .float x
  | _ => .incomparable

def exceeded? (count : Nat) : Limit → Option Bool
  | .int n => some (decide (n < count))
  | .bool b => some (decide (b.toNat < count))
  | .float x => some (x.ltCount count)
  | .incomparable => none

/-- The greatest count that is not above a limit, or the given one where all are allowed; zero
where none is. -/
def allowance (unbounded : Nat) : Limit → Nat
  | .int n => n.toNat
  | .bool b => b.toNat
  | .float .nan => unbounded
  | .float (.infinite negative) => if negative then 0 else unbounded
  | .float (.finite x) => x.floor.toNat
  | .incomparable => 0

def text : Limit → String
  | .int n => toString n
  | .bool b => if b then "True" else "False"
  | .float x => x.literal
  | .incomparable => ""

end Limit
end FormLogic
