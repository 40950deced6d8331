import FormLogic.Calendar.Iso
import FormLogic.Binary64.Decimal

namespace FormLogic

/-- An offset from universal time in minutes, less than a day. -/
structure Offset where
  minutes : Int
  minutes_lt : minutes.natAbs < 1440
  deriving DecidableEq

namespace Offset

def of? (negative : Bool) (hours minutes : Nat) : Option Offset :=
  if h : hours < 24 ∧ minutes < 60 then
    let total : Int := hours * 60 + minutes
    some ⟨if negative then -total else total, by split <;> omega⟩
  else none

def zero : Offset := ⟨0, by decide⟩

def text (o : Offset) : List Char :=
  if o.minutes = 0 then ['Z']
  else (if o.minutes < 0 then '-' else '+') :: Text.padded 2 (o.minutes.natAbs / 60) ++
    ':' :: Text.padded 2 (o.minutes.natAbs % 60)

end Offset

/-- A moment, and the offset of its time zone if one is known. -/
structure Timestamp where
  moment : Moment
  offset : Option Offset
  deriving DecidableEq

namespace Timestamp

open Calendar

def takeDay? (cs : List Char) : Option (Date × List Char) := do
  let (year, rest) ← takeNumber? 4 cs
  let (month, rest) ← takeNumber? 2 (← takeHyphen? rest)
  let (day, rest) ← takeNumber? 2 (← takeHyphen? rest)
  some (← Date.of? year month day, rest)

/-- Reads the fraction of a second; digits beyond the sixth are cut off. -/
def takeFraction? (cs : List Char) : Option (Nat × List Char) :=
  let digits := Decimal.spanDigits Text.asciiDigit? cs
  let kept := digits.1.take 6
  if kept = [] then none else some (Decimal.ofDigits kept * Nat.pow 10 (6 - kept.length), digits.2)

def takeTime? (date : Date) (cs : List Char) : Option (Moment × List Char) := do
  let (hour, rest) ← takeNumber? 2 cs
  match rest with
  | ':' :: rest =>
    let (minute, rest) ← takeNumber? 2 rest
    match rest with
    | ':' :: rest =>
      let (second, rest) ← takeNumber? 2 rest
      let (micros, rest) ← match rest with
        | '.' :: rest => takeFraction? rest
        | ',' :: rest => takeFraction? rest
        | _ => some (0, rest)
      some (← Moment.of? date hour minute second micros, rest)
    | _ => some (← Moment.of? date hour minute 0 0, rest)
  | _ => none

def readOffset? : List Char → Option (Option Offset)
  | [] => some none
  | ['Z'] => some (some .zero)
  | ['z'] => some (some .zero)
  | c :: cs => do
    -- there is a minus sign of its own beside the hyphen
    let negative ←
      if c = '+' then some false else if c = '-' ∨ c.toNat = 0x2212 then some true else none
    let (hours, rest) ← takeNumber? 2 cs
    let rest := match rest with
      | ':' :: rest => rest
      | _ => rest
    let (minutes, rest) ← takeNumber? 2 rest
    if rest = [] then (Offset.of? negative hours minutes).map some else none

def isSeparator (c : Char) : Bool := c == 'T' || c == 't' || c == ' ' || c == '_'

/-- Reads a day and a time; a day alone means its midnight. -/
def ofNotation? (cs : List Char) : Option Timestamp := do
  let (date, rest) ← takeDay? cs
  match rest with
  | [] => some ⟨.midnight date, none⟩
  | c :: rest =>
    if isSeparator c then
      let (moment, rest) ← takeTime? date rest
      some ⟨moment, ← readOffset? rest⟩
    else none

inductive Error where
  /-- What is given is not the notation of a timestamp, or is out of reach. -/
  | unreadable
  /-- It lies in the year 0, in front of the first day of the calendar. -/
  | yearZero
  deriving DecidableEq, Repr

/-- Days from the beginning of the year 1 to that of 1970. -/
def epochDays : Nat := 719162

/-- The timestamp that lies a number of microseconds after the beginning of 1970. The year 0 is
a leap year. -/
def ofMicroseconds (n : Int) : Except Error Timestamp :=
  let total := n + epochDays * 86400000000
  if total < 0 then .error (if -(366 * 86400000000) ≤ total then .yearZero else .unreadable)
  else
    match Moment.ofMicroseconds? total.toNat with
    | some m => .ok ⟨m, some .zero⟩
    | none => .error .unreadable

/-- A count from which on milliseconds are counted. -/
def secondsLimit : Nat := 20000000000

def unit (inSeconds : Bool) : Nat := if inSeconds then 1000000 else 1000

def ofCount (count : Int) : Except Error Timestamp :=
  ofMicroseconds (count * unit (decide (count.natAbs ≤ secondsLimit)))

/-- The microseconds in a fraction of what is counted, given in the units of a double. The
product is a double, and a half of a microsecond counts as a whole one. -/
def micros (fraction unit : Nat) : Nat :=
  (2 * Binary64.roundUnits (fraction * unit) 1 + Binary64.one) / (2 * Binary64.one)

/-- The timestamp of a count with a fraction, which is what lies above the whole count below, as
a double. -/
def ofFloat : Binary64 → Except Error Timestamp
  | .finite x =>
    let unit := unit (decide (x.units ≤ secondsLimit * Binary64.one))
    let above := (x.value - x.floor * (Binary64.one : Int)).toNat
    ofMicroseconds (x.floor * unit + micros (Binary64.roundUnits above 1) unit)
  | _ => .error .unreadable

def countLimit : Nat := 9223372036854775808

/-- Reads a count: a sign and digits. Only with a point it may also have a fraction and an
exponent; the digits in front of the point stay in the range of whole counts then too. -/
def ofDigits (cs : List Char) : Except Error Timestamp :=
  let whole := Decimal.spanDigits Text.asciiDigit? (Decimal.spanSign cs).2
  if countLimit ≤ Decimal.ofDigits whole.1 then .error .unreadable
  else
    match whole with
    | (d :: ds, []) =>
      let n : Int := Decimal.ofDigits (d :: ds)
      ofCount (if (Decimal.spanSign cs).1 then -n else n)
    | (_, '.' :: _) =>
      match Decimal.read? Text.asciiDigit? cs with
      | some numeral => ofFloat numeral.toBinary64
      | none => .error .unreadable
    | _ => .error .unreadable

/-- Whether a text is the notation of a time in the year 0, which has the days of the year 400. -/
def isYearZero : List Char → Bool
  | '0' :: '0' :: '0' :: '0' :: cs => (ofNotation? ('0' :: '4' :: '0' :: '0' :: cs)).isSome
  | _ => false

def ofText (cs : List Char) : Except Error Timestamp :=
  match ofNotation? cs with
  | some t => .ok t
  | none => if isYearZero cs then .error .yearZero else ofDigits cs

def text (t : Timestamp) : List Char :=
  t.moment.isoText ++ (t.offset.map Offset.text).getD []

end Timestamp
end FormLogic
