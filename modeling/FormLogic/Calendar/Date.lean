import FormLogic.Text.Digit

namespace FormLogic

def isLeapYear (year : Nat) : Bool := year % 4 == 0 && (year % 100 != 0 || year % 400 == 0)

def monthLengths (year : Nat) : List Nat :=
  [31, if isLeapYear year then 29 else 28, 31, 30, 31, 30, 31, 31, 30, 31, 30, 31]

def daysInYear (year : Nat) : Nat := if isLeapYear year then 366 else 365

/-- The length of a month; zero if there is no such month. -/
def daysInMonth (year month : Nat) : Nat :=
  if month = 0 then 0 else (monthLengths year).getD (month - 1) 0

structure Date where
  year : Nat
  month : Nat
  day : Nat
  year_pos : 1 ≤ year
  year_le : year ≤ 9999
  month_pos : 1 ≤ month
  month_le : month ≤ 12
  day_pos : 1 ≤ day
  day_le : day ≤ daysInMonth year month
  deriving DecidableEq

namespace Date

def of? (year month day : Nat) : Option Date :=
  if h : (1 ≤ year ∧ year ≤ 9999) ∧ (1 ≤ month ∧ month ≤ 12) ∧
      1 ≤ day ∧ day ≤ daysInMonth year month then
    some ⟨year, month, day, h.1.1, h.1.2, h.2.1.1, h.2.1.2, h.2.2.1, h.2.2.2⟩
  else none

theorem of?_self (d : Date) : of? d.year d.month d.day = some d := by
  rw [of?, dif_pos ⟨⟨d.year_pos, d.year_le⟩, ⟨d.month_pos, d.month_le⟩, d.day_pos, d.day_le⟩]

def Earlier (month day month' day' : Nat) : Prop :=
  month < month' ∨ (month = month' ∧ day < day')

instance (m d m' d' : Nat) : Decidable (Earlier m d m' d') :=
  inferInstanceAs (Decidable (_ ∨ _))

instance : LT Date :=
  ⟨fun a b => a.year < b.year ∨ (a.year = b.year ∧ Earlier a.month a.day b.month b.day)⟩

instance (a b : Date) : Decidable (a < b) :=
  inferInstanceAs (Decidable (a.year < b.year ∨ (a.year = b.year ∧
    Earlier a.month a.day b.month b.day)))

/-- Whole years from a birth to a day: one less until the anniversary is reached. -/
def yearsSince (birth today : Date) : Int :=
  (today.year : Int) - birth.year -
    if Earlier today.month today.day birth.month birth.day then 1 else 0

def isoText (d : Date) : List Char :=
  Text.padded 4 d.year ++ '-' :: Text.padded 2 d.month ++ '-' :: Text.padded 2 d.day

/-- The month and day that lie a number of days after the start of a list of months. -/
def monthDay? (month : Nat) : List Nat → Nat → Option (Nat × Nat)
  | [], _ => none
  | length :: lengths, n =>
    if n < length then some (month, n + 1) else monthDay? (month + 1) lengths (n - length)

def after? (year days : Nat) : Option Date :=
  if 9999 < year then none
  else if days < daysInYear year then
    (monthDay? 1 (monthLengths year) days).bind fun p => of? year p.1 p.2
  else after? (year + 1) (days - daysInYear year)
termination_by 10000 - year

end Date

/-- A day and a time on it, without a time zone. -/
structure Moment where
  date : Date
  hour : Nat
  minute : Nat
  second : Nat
  microsecond : Nat
  hour_lt : hour < 24
  minute_lt : minute < 60
  second_lt : second < 60
  microsecond_lt : microsecond < 1000000
  deriving DecidableEq

namespace Moment

def of? (date : Date) (hour minute second microsecond : Nat) : Option Moment :=
  if h : (hour < 24 ∧ minute < 60) ∧ second < 60 ∧ microsecond < 1000000 then
    some ⟨date, hour, minute, second, microsecond, h.1.1, h.1.2, h.2.1, h.2.2⟩
  else none

def midnight (date : Date) : Moment :=
  ⟨date, 0, 0, 0, 0, by decide, by decide, by decide, by decide⟩

/-- The moment that lies a number of microseconds after the beginning of the year 1. -/
def ofMicroseconds? (n : Nat) : Option Moment :=
  let seconds := n / 1000000
  (Date.after? 1 (seconds / 86400)).bind fun date =>
    of? date (seconds % 86400 / 3600) (seconds % 3600 / 60) (seconds % 60) (n % 1000000)

/-- The moment as `YYYY-MM-DDThh:mm:ss`, with six places of a second if they are not zero. -/
def isoText (m : Moment) : List Char :=
  m.date.isoText ++ 'T' :: Text.padded 2 m.hour ++ ':' :: Text.padded 2 m.minute ++
    ':' :: Text.padded 2 m.second ++
    if m.microsecond = 0 then [] else '.' :: Text.padded 6 m.microsecond

end Moment
end FormLogic
