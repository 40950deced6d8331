import FormLogic.Limit
import FormLogic.Decimal
import FormLogic.Text.Blank

namespace FormLogic

/-- Whether rules that a field cannot apply are refused, and the limits on formulas. A setting keeps
any value that it is given; what the value means is asked where it is used. -/
structure Settings where
  strictRuleTypes : Value := .bool false
  maxExpressionLength : Value := .int 1000
  maxExpressionDepth : Value := .int 64

namespace Settings

def isStrict (s : Settings) : Bool := s.strictRuleTypes.isTrue

def lengthLimit (s : Settings) : Limit := .ofValue s.maxExpressionLength

def depthLimit (s : Settings) : Limit := .ofValue s.maxExpressionDepth

/-- Changes one setting. A name that is not that of a setting changes nothing. -/
def change (s : Settings) (name : String) (value : Value) : Settings :=
  match name with
  | "strict_rule_types" => { s with strictRuleTypes := value }
  | "max_expression_length" => { s with maxExpressionLength := value }
  | "max_expression_depth" => { s with maxExpressionDepth := value }
  | _ => s

def update (s : Settings) (changes : List (String × Value)) : Settings :=
  changes.foldl (fun s c => s.change c.1 c.2) s

/-- Reads a whole number in digits of any script, with single underscores between digits, an
optional sign, and white space around it. -/
def readInt? (text : String) : Option Int := do
  let cs ← Decimal.joinDigits? Text.decimalDigit? (Text.trimBy Text.isWhiteSpace text.toList)
  match Decimal.spanDigits Text.decimalDigit? (Decimal.spanSign cs).2 with
  | (d :: ds, []) =>
    let n : Int := Decimal.ofDigits (d :: ds)
    some (if (Decimal.spanSign cs).1 then -n else n)
  | _ => none

/-- A variable that should hold a whole number does not. -/
structure NotAnInteger where
  variableName : String
  deriving DecidableEq, Repr

def intVariable (environment : String → Option String) (name : String) (otherwise : Value) :
    Except NotAnInteger Value :=
  match environment name with
  | none => .ok otherwise
  | some text =>
    match readInt? text with
    | some n => .ok (.int n)
    | none => .error ⟨name⟩

def ofEnvironment (environment : String → Option String) : Except NotAnInteger Settings := do
  let standard : Settings := {}
  let strict := match environment "FORM_ENGINE_STRICT_RULE_TYPES" with
    | none => standard.strictRuleTypes
    | some text => .bool (text.toList.map Char.toLower == "true".toList)
  let length ←
    intVariable environment "FORM_ENGINE_MAX_EXPRESSION_LENGTH" standard.maxExpressionLength
  let depth ←
    intVariable environment "FORM_ENGINE_MAX_EXPRESSION_DEPTH" standard.maxExpressionDepth
  return ⟨strict, length, depth⟩

end Settings
end FormLogic
