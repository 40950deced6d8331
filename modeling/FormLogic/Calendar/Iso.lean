import FormLogic.Calendar.Date
import FormLogic.Decimal

namespace FormLogic.Calendar

def byteLength (cs : List Char) : Nat := (String.ofList cs).utf8ByteSize

def takeNumber? (n : Nat) (cs : List Char) : Option (Nat × List Char) := do
  let digits ← (cs.take n).mapM Text.asciiDigit?
  if digits.length = n then some (Decimal.ofDigits digits, cs.drop n) else none

def takeHyphen? : List Char → Option (List Char)
  | '-' :: cs => some cs
  | _ => none

/-- The weekday of the first of January, counted from Monday as 0. -/
def firstWeekday (year : Nat) : Nat :=
  let past := year - 1
  (past + past / 4 - past / 100 + past / 400) % 7

/-- A year has a week 53 if it starts on a Thursday, or on a Wednesday in a leap year. -/
def weeksInYear (year : Nat) : Nat :=
  if firstWeekday year = 3 ∨ (firstWeekday year = 2 ∧ isLeapYear year = true) then 53 else 52

/-- The day of a week date. Week 1 is the week with the first Thursday of the year, so it may
begin in the year before, and the last week may end in the year after. -/
def ofWeek? (year week weekday : Nat) : Option Date :=
  if 1 ≤ year ∧ 1 ≤ week ∧ week ≤ weeksInYear year ∧ 1 ≤ weekday ∧ weekday ≤ 7 then
    let first := firstWeekday year
    -- days from the Monday on or before the first of January
    let fromMonday := (if first ≤ 3 then 0 else 7) + (week - 1) * 7 + (weekday - 1)
    if fromMonday < first then
      Date.after? (year - 1) (daysInYear (year - 1) - (first - fromMonday))
    else Date.after? year (fromMonday - first)
  else none

/-- Reads the week and the weekday of a week date after its `W`; the text ends, or goes on with
a weekday. -/
def readWeek? (year : Nat) (hyphens : Bool) (cs : List Char) : Option Date := do
  let (week, rest) ← takeNumber? 2 cs
  match rest with
  | [] => ofWeek? year week 1
  | _ =>
    let rest ← if hyphens then takeHyphen? rest else some rest
    let (weekday, _) ← takeNumber? 1 rest
    ofWeek? year week weekday

def readMonthDay? (year : Nat) (hyphens : Bool) (cs : List Char) : Option Date := do
  let (month, rest) ← takeNumber? 2 cs
  let rest ← if hyphens then takeHyphen? rest else some rest
  let (day, _) ← takeNumber? 2 rest
  Date.of? year month day

/-- Reads the day that a text starts with: `YYYY-MM-DD`, `YYYYMMDD`, or a week date `YYYY-Www-D` or
`YYYYWwwD`, whose weekday may be missing. -/
def readDay? (cs : List Char) : Option Date := do
  let (year, rest) ← takeNumber? 4 cs
  let hyphens := rest.head? == some '-'
  let rest := if hyphens then rest.drop 1 else rest
  match rest with
  | 'W' :: week => readWeek? year hyphens week
  | _ => readMonthDay? year hyphens rest

/-- Reads a text that is a day alone. Its length, in bytes of UTF-8, has to be that of a day. -/
def dateOfText? (cs : List Char) : Option Date :=
  if byteLength cs = 7 ∨ byteLength cs = 8 ∨ byteLength cs = 10 then readDay? cs else none

/-- What was read of a time: its hours, minutes and seconds as far as they are given, the
microseconds, and whether characters are left over behind it. The character NUL ends a text, so
it is not left over. -/
structure Clock where
  parts : List Nat
  micros : Nat
  leftOver : Bool

/-- Reads the fraction of a second. Its first six digits count, and further digits are passed
over. -/
def readFraction? (cs : List Char) : Option Clock := do
  let digits ← (cs.take 6).mapM Text.asciiDigit?
  if digits = [] then none
  else
    let rest := (cs.drop 6).dropWhile fun c => (Text.asciiDigit? c).isSome
    some ⟨[], Decimal.ofDigits digits * Nat.pow 10 (6 - digits.length), rest.head?.any (· ≠ '\x00')⟩

/-- Reads a time behind one of its numbers, where so many more may follow. A single character
is left over. More of them have to be a separator and the next number; a time written without
colons has no separator. A point or comma, and whatever comes behind the seconds, begins the
fraction. -/
def readClockRest? (colons : Bool) : Nat → List Char → Option Clock
  | _, [] => some ⟨[], 0, false⟩
  | _, [c] => if c.utf8Size = 1 then some ⟨[], 0, c ≠ '\x00'⟩ else none
  | more, c :: c' :: cs =>
    if c = '.' ∨ c = ',' then readFraction? (c' :: cs)
    else if colons ∧ c ≠ ':' then none
    else
      let next := if colons then c' :: cs else c :: c' :: cs
      match more with
      | 0 => readFraction? next
      | more + 1 => do
        let (n, rest) ← takeNumber? 2 next
        let clock ← readClockRest? colons more rest
        some ⟨n :: clock.parts, clock.micros, clock.leftOver⟩

/-- Reads a time. It is written with colons if one follows the hours. -/
def readClock? (cs : List Char) : Option Clock := do
  let (hour, rest) ← takeNumber? 2 cs
  let clock ← readClockRest? (rest.head? == some ':') 2 rest
  some ⟨hour :: clock.parts, clock.micros, clock.leftOver⟩

def Clock.duration (clock : Clock) : Nat :=
  (clock.parts.getD 0 0 * 3600 + clock.parts.getD 1 0 * 60 + clock.parts.getD 2 0) * 1000000 +
    clock.micros

def Clock.on? (clock : Clock) (date : Date) : Option Moment :=
  Moment.of? date (clock.parts.getD 0 0) (clock.parts.getD 1 0) (clock.parts.getD 2 0)
    clock.micros

/-- An offset from universal time is less than a day, and nothing follows it. -/
def Clock.isOffset (clock : Clock) : Bool :=
  !clock.leftOver && clock.duration < 24 * 3600 * 1000000

/-- Reads a time of a day and its optional offset, which starts at the first sign. In front of
an offset characters may be left over. The offset itself is not kept. -/
def readTime? (date : Date) (cs : List Char) : Option Moment := do
  let isSign (c : Char) : Bool := c == '+' || c == '-'
  let clock ← readClock? (cs.takeWhile (!isSign ·))
  match cs.dropWhile (!isSign ·) with
  | [] => if clock.leftOver then none else clock.on? date
  | _ :: zone => do
    let offset ← readClock? zone
    if offset.isOffset then clock.on? date else none

/-- The length of the day that a moment starts with. The digits behind `YYYYWww` are a separator
and pairs of digits if their number is odd, and begin with a weekday otherwise; a single digit
is a weekday too. -/
def dayLength? (cs : List Char) : Option Nat :=
  let isDigit (c : Char) : Bool := (Text.asciiDigit? c).isSome
  if cs.length = 7 then some 7
  else
    match cs.drop 4 with
    | '-' :: 'W' :: _ =>
      if cs[8]? = some '-' then
        if cs.length = 9 then none
        else if (cs[10]?).any isDigit then some 8 else some 10
      else some 8
    | '-' :: _ => some 10
    | 'W' :: _ =>
      let digits := ((cs.drop 7).takeWhile isDigit).length
      if digits < 2 then some (7 + digits) else if digits % 2 = 1 then some 7 else some 8
    | _ => some 8

/-- Reads a text that is a day with a time. The letter `Z` is the offset zero. -/
def momentOfText? (cs : List Char) : Option Moment := do
  let cs := cs.flatMap fun c => if c = 'Z' then ['+', '0', '0', ':', '0', '0'] else [c]
  let length ← dayLength? cs
  let date ← readDay? (cs.take length)
  match cs.drop length with
  | [] => some (.midnight date)
  | _ :: time => readTime? date time

/-- The day that a text names, as a day alone or as the day of a moment. -/
def dayOfText? (cs : List Char) : Option Date :=
  dateOfText? cs <|> (momentOfText? cs).map Moment.date

end FormLogic.Calendar
