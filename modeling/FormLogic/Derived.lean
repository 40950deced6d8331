import FormLogic.Settings
import FormLogic.Value.Number
import FormLogic.Formula.Evaluation
import FormLogic.Formula.Template
import FormLogic.Field
import FormLogic.Text.Pattern

namespace FormLogic.Derived

/-- Stands for a formula that was refused or has no value. -/
def errorInCalculation : String := "Error in calculation"

/-- Stands for a value that is out of range. -/
def calculationError : String := "Calculation Error"

/-- The age at a day of a person born on the day in the answer to the first parent; empty if the
answer is no day or lies ahead. -/
def age (today : Date) (answers : Answers) : List String → String
  | [] => calculationError
  | parent :: _ =>
    match (answers.get parent).day? with
    | none => ""
    | some birth => if today < birth then "" else toString (birth.yearsSince today)

/-- Adds the numbers of some values to a total from left to right; what is not a number counts
as zero. -/
def addNumbers (total : Binary64) : List Value → Except NumberTooLarge Binary64
  | [] => .ok total
  | v :: vs =>
    match v.number? with
    | .error e => .error e
    | .ok x => addNumbers (total + x.getD (.zero false)) vs

def sum (answers : Answers) (parents : List String) : String :=
  match addNumbers (.zero false) (parents.map answers.get) with
  | .error _ => calculationError
  | .ok total => if total.isFinite then total.display else calculationError

def concat (answers : Answers) (parents : List String) : String :=
  " ".intercalate (parents.map fun p => (answers.get p).toText)

def formulaMarks : List Char := ['.', '+', '-', '*', '/', '(', ')']

/-- The characters that a formula can consist of once the answers are filled in. -/
def isFormulaChar (c : Char) : Bool :=
  Formula.Token.isDigit c || Text.isBlank c || formulaMarks.contains c

/-- What a formula has to be once the answers are filled in, before it is evaluated. -/
def formulaPattern : Text.Pattern := .atLeast 1 isFormulaChar ++ .textEnd

def evaluated (depthLimit : Limit) (text : String) : String :=
  match Formula.evaluate depthLimit text with
  | .error .depthIncomparable => calculationError
  | .error _ => errorInCalculation
  | .ok x => x.display

/-- The value of a formula once the answers are filled in. With a limit that nothing can be
compared with there is no value as soon as it matters. -/
def formulaValue (settings : Settings) (text : String) : String :=
  if text.toList.all Text.isBlank then ""
  else
    match settings.lengthLimit.exceeded? text.length with
    | none => calculationError
    | some exceeded =>
      if exceeded ∨ !formulaPattern.startsText text then errorInCalculation
      else evaluated settings.depthLimit text

def custom (settings : Settings) (answers : Answers) (d : Derivation) : String :=
  formulaValue settings (Formula.substitute d.formula d.parents answers)

def value (settings : Settings) (today : Date) (answers : Answers) (d : Derivation) : String :=
  match d.logic with
  | .age => age today answers d.parents
  | .sum => sum answers d.parents
  | .concat => concat answers d.parents
  | .custom => custom settings answers d

/-- The value of a derived field at a day. It can always be given: where it cannot be computed, a
text stands in that says so, or an empty text while something has still to be entered. -/
def ofField? (settings : Settings) (today : Date) (answers : Answers) (f : Field) :
    Option String :=
  f.derivation.map (value settings today answers)

end FormLogic.Derived
