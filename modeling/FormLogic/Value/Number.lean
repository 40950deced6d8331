import FormLogic.Value.Basic
import FormLogic.Binary64.Decimal
import FormLogic.Calendar.Iso
import FormLogic.Text.Blank

namespace FormLogic

structure NumberTooLarge where
  deriving DecidableEq, Repr

namespace Value

/-- Reads a numeral with digits of any script, after removing the blanks around it. A numeral
out of the range of the doubles is not a number. -/
def numberOfText? (s : String) : Option Binary64 :=
  match Decimal.read? Text.decimalDigit? (Text.trim s.toList) with
  | some d => if d.toBinary64.isFinite then some d.toBinary64 else none
  | none => none

/-- The finite number that an answer stands for. Whole numbers are taken to the nearest double,
and one beyond all doubles is refused. -/
def number? : Value → Except NumberTooLarge (Option Binary64)
  | .int n => if (Binary64.ofInt n).isFinite then .ok (some (Binary64.ofInt n)) else .error ⟨⟩
  | .float x => .ok (if x.isFinite then some x else none)
  | .text s => .ok (numberOfText? s)
  | _ => .ok none

def day? : Value → Option Date
  | .moment m => some m.date
  | .date d => some d
  | .text s => Calendar.dayOfText? (Text.trim s.toList)
  | _ => none

end Value
end FormLogic
