import FormLogic.Value.Basic
import FormLogic.Binary64.Text
import FormLogic.Text.Quoted

namespace FormLogic.Value

/-- A record inside brackets names the kind and the numbers of a day. -/
def dateNotation (d : Date) : String := s!"datetime.date({d.year}, {d.month}, {d.day})"

/-- The numbers of a moment; seconds and microseconds are left out from the end when zero. -/
def momentNotation (m : Moment) : String :=
  let clock := [m.hour, m.minute] ++
    if m.microsecond ≠ 0 then [m.second, m.microsecond]
    else if m.second ≠ 0 then [m.second]
    else []
  let numbers := [m.date.year, m.date.month, m.date.day] ++ clock
  "datetime.datetime(" ++ ", ".intercalate (numbers.map toString) ++ ")"

mutual

def bracketed : Value → String
  | .null => "None"
  | .bool b => if b then "True" else "False"
  | .int n => toString n
  | .float x => x.literal
  | .text s => Text.quoted s
  | .list items => "[" ++ ", ".intercalate (bracketedItems items) ++ "]"
  | .tuple [v] => "(" ++ bracketed v ++ ",)"
  | .tuple items => "(" ++ ", ".intercalate (bracketedItems items) ++ ")"
  | .date d => dateNotation d
  | .moment m => momentNotation m
  | .record entries => "\x7b" ++ ", ".intercalate (bracketedEntries entries) ++ "\x7d"

def bracketedItems : List Value → List String
  | [] => []
  | v :: vs => bracketed v :: bracketedItems vs

def bracketedEntries : List (String × Value) → List String
  | [] => []
  | (name, v) :: entries => (Text.quoted name ++ ": " ++ bracketed v) :: bracketedEntries entries

end

mutual

/-- The text of a value, as it is put into formulas and joined texts. The texts of the items of a
list are joined by commas, and a record is written out in brackets. -/
def toText : Value → String
  | .null => ""
  | .bool b => if b then "true" else "false"
  | .int n => toString n
  | .float x => x.display
  | .text s => s
  | .list items => ",".intercalate (itemTexts items)
  | .tuple items => ",".intercalate (itemTexts items)
  | .date d => String.ofList d.isoText
  | .moment m => String.ofList m.isoText
  | .record entries => "\x7b" ++ ", ".intercalate (bracketedEntries entries) ++ "\x7d"

def itemTexts : List Value → List String
  | [] => []
  | v :: vs => toText v :: itemTexts vs

end

end FormLogic.Value
