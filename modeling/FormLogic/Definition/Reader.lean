import FormLogic.Definition.Fault
import FormLogic.Answers
import FormLogic.Binary64.Decimal
import FormLogic.Calendar.Timestamp
import FormLogic.Text.Blank

namespace FormLogic

/-- A key of an object: its name, the name it has outside the library, and the names under
which it is looked up, the first that is present being taken. -/
structure Key where
  name : String
  outside : String := name
  accepted : List String := [outside, name]

inductive Spelling where
  | byName
  | byAlias
  deriving DecidableEq, Repr

namespace Key

/-- The name by which a key is reported when it is missing. -/
def reported (k : Key) : String := k.accepted.headD k.name

def spelled (k : Key) : Spelling → String
  | .byName => k.name
  | .byAlias => k.outside

def find? (k : Key) (entries : List (String × Value)) : Option (String × Value) :=
  k.accepted.findSome? fun s => (lookup? s entries).map (s, ·)

end Key

namespace Read

variable {α : Type}

def required (k : Key) (read : Value → Checked α) (entries : List (String × Value)) :
    Checked α :=
  match k.find? entries with
  | some (s, v) => (read v).under (.key s)
  | none => (Checked.fault .missing).under (.key k.reported)

def optional (k : Key) (absent : α) (read : Value → Checked α)
    (entries : List (String × Value)) : Checked α :=
  match k.find? entries with
  | some (s, v) => (read v).under (.key s)
  | none => .ok absent

def object (read : List (String × Value) → Checked α) : Value → Checked α
  | .record entries => read entries
  | _ => .fault .objectType

def nullable (read : Value → Checked α) : Value → Checked (Option α)
  | .null => .ok none
  | v => some <$> read v

def any (v : Value) : Checked Value := .ok v

def text : Value → Checked String
  | .text s => .ok s
  | _ => .fault .textType

def nonemptyText : Value → Checked { s : String // s ≠ "" }
  | .text s => if h : s ≠ "" then .ok ⟨s, h⟩ else .fault .textEmpty
  | _ => .fault .textType

def named (ofName? : String → Option α) : Value → Checked α
  | .text s =>
    match ofName? s with
    | some a => .ok a
    | none => .fault .unknownName
  | _ => .fault .unknownName

/-- Reads the items of a list or tuple, which start at an index. -/
def itemsFrom (read : Value → Checked α) (start : Nat) : List Value → Checked (List α)
  | [] => .ok []
  | v :: vs => List.cons <$> (read v).under (.index start) <*> itemsFrom read (start + 1) vs

def list (read : Value → Checked α) (v : Value) : Checked (List α) :=
  match v.items? with
  | some items => itemsFrom read 0 items
  | none => .fault .listType

def answers : Value → Checked Answers
  | .record entries => .ok (.ofList entries)
  | _ => .fault .recordType

def boolOfText? (s : String) : Option Bool :=
  let word := String.ofList (s.toList.map Char.toLower)
  if ["0", "off", "f", "false", "n", "no"].contains word then some false
  else if ["1", "on", "t", "true", "y", "yes"].contains word then some true
  else none

/-- Whether a number fits into a signed word of 64 bits. -/
def fitsWord (n : Int) : Bool :=
  decide (-9223372036854775808 ≤ n ∧ n < 9223372036854775808)

def boolOfInt (n : Int) : Checked Bool :=
  if n = 0 then .ok false
  else if n = 1 then .ok true
  else if fitsWord n then .fault .boolForm
  else .fault .boolType

/-- The whole number that a double equals. It has to lie strictly between the bounds of a signed
word of 64 bits. -/
def wholeOfFloat : Binary64 → Checked Int
  | .finite x =>
    match x.toInt? with
    | some n => if n.natAbs < 9223372036854775808 then .ok n else .fault .intSize
    | none => .fault .intFraction
  | _ => .fault .intNotFinite

def bool : Value → Checked Bool
  | .bool b => .ok b
  | .int n => boolOfInt n
  | .float x =>
    match wholeOfFloat x with
    | .ok n => boolOfInt n
    | .faulty _ => .fault .boolType
  | .text s =>
    match boolOfText? s with
    | some b => .ok b
    | none => .fault .boolForm
  | _ => .fault .boolType

/-- Removes zeros, and underscores among them, up to the last character in front of a point or
the end. A minus sign may follow them. -/
def dropZeros (last : Char) : List Char → Option (List Char)
  | [] => some [last]
  | c :: cs =>
    if c = '0' ∨ c = '_' then dropZeros c cs
    else if c = '.' then some (last :: c :: cs)
    else if c = '-' ∨ (Text.asciiDigit? c).isSome then some (c :: cs)
    else none

def dropLeadingZeros? : List Char → Option (List Char)
  | '0' :: cs => dropZeros '0' cs
  | c :: cs => if (Text.asciiDigit? c).isSome then some (c :: cs) else none
  | [] => none

def normalSign? : List Char → Option (List Char)
  | '-' :: cs => (dropLeadingZeros? cs).map ('-' :: ·)
  | '+' :: cs => dropLeadingZeros? cs
  | cs => dropLeadingZeros? cs

/-- Removes a point and the zeros behind it, of which there is one at least. -/
def dropPoint (cs : List Char) : List Char :=
  match cs.span (· != '.') with
  | (whole, _ :: fraction) =>
    if fraction ≠ [] ∧ fraction.all (· == '0') then whole else cs
  | (_, []) => cs

def hasTwoUnderscores : List Char → Bool
  | '_' :: '_' :: _ => true
  | _ :: cs => hasTwoUnderscores cs
  | [] => false

/-- Removes the underscores of a number: single ones, and none at either end. -/
def dropUnderscores? (cs : List Char) : Option (List Char) :=
  if cs.head? = some '_' ∨ cs.getLast? = some '_' ∨ hasTwoUnderscores cs then none
  else some (cs.filter (· != '_'))

/-- Reads ASCII digits behind an optional minus sign. Zero alone starts with the digit 0. -/
def signedDigits? (cs : List Char) : Option Int :=
  let digits := if cs.head? = some '-' then cs.drop 1 else cs
  match Decimal.spanDigits Text.asciiDigit? digits with
  | (0 :: _ :: _, _) => none
  | (d :: ds, []) =>
    let n : Int := Decimal.ofDigits (d :: ds)
    some (if cs.head? = some '-' then -n else n)
  | _ => none

/-- Reads a whole number: a sign, digits with single underscores between them, and a point with
zeros behind it, with white space around. A minus sign may stand behind leading zeros too. -/
def intOfText? (s : String) : Option Int := do
  let cs ← normalSign? (Text.trimBy Text.isWhiteSpace s.toList)
  let cs ← dropUnderscores? (dropPoint cs)
  signedDigits? cs

def int : Value → Checked Int
  | .int n => .ok n
  | .bool b => .ok (if b then 1 else 0)
  | .float x => wholeOfFloat x
  | .text s =>
    match intOfText? s with
    | some n => .ok n
    | none => .fault .intForm
  | _ => .fault .intType

/-- Reads a number in ASCII digits with white space around it; a number with underscores stands
alone. -/
def floatOfText? (s : String) : Option Binary64 :=
  Binary64.read? Text.asciiDigit? (Text.trimBy Text.isWhiteSpace s.toList) <|>
    (dropUnderscores? s.toList).bind (Binary64.read? Text.asciiDigit?)

def float : Value → Checked Binary64
  | .float x => .ok x
  | .int n => if (Binary64.ofInt n).isFinite then .ok (.ofInt n) else .fault .floatType
  | .bool b => .ok (.ofInt (if b then 1 else 0))
  | .text s =>
    match floatOfText? s with
    | some x => .ok x
    | none => .fault .floatForm
  | _ => .fault .floatType

def timestampOfText (s : String) : Checked Timestamp :=
  match Timestamp.ofText s.toList with
  | .ok t => .ok t
  | .error .yearZero => .fault .timestampRange
  | .error .unreadable => .fault .timestampForm

def timestampOfCount : Except Timestamp.Error Timestamp → Checked Timestamp
  | .ok t => .ok t
  | .error _ => .fault .timestampRange

/-- Counts that are whole numbers beyond a word of 64 bits are taken to the nearest double. -/
def timestamp : Value → Checked Timestamp
  | .moment m => .ok ⟨m, none⟩
  | .date d => .ok ⟨.midnight d, none⟩
  | .text s => timestampOfText s
  | .int n =>
    if fitsWord n then timestampOfCount (Timestamp.ofCount n)
    else if (Binary64.ofInt n).isFinite then timestampOfCount (Timestamp.ofFloat (.ofInt n))
    else .fault .timestampType
  | .float x => timestampOfCount (Timestamp.ofFloat x)
  | _ => .fault .timestampType

end Read
end FormLogic
