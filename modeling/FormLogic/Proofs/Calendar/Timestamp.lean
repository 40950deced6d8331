import FormLogic.Calendar.Timestamp
import FormLogic.Proofs.Formula.Numeral

namespace FormLogic

open Formula Calendar

/-- A number that fits a width is written in just so many digits. -/
theorem exists_digits_of_lt {width n : Nat} (hwidth : 0 < width) (h : n < 10 ^ width) :
    ∃ ds : List (Fin 10), ds.map Numeral.digitChar = Text.padded width n ∧ ds.length = width ∧
      Decimal.ofDigits (ds.map Fin.val) = n := by
  obtain ⟨ds, hds, -, hvalue⟩ := Numeral.exists_digits_padded width n
  refine ⟨ds, hds, ?_, hvalue⟩
  have hlength := congrArg List.length hds
  have hle : (Nat.toDigits 10 n).length ≤ width :=
    (Nat.length_toDigits_le_iff (by decide) hwidth).2 h
  rw [List.length_map, Text.padded, List.length_append, List.length_replicate] at hlength
  omega

theorem mapM_asciiDigit?_map_digitChar (ds : List (Fin 10)) :
    (ds.map Numeral.digitChar).mapM Text.asciiDigit? = some (ds.map Fin.val) := by
  induction ds with
  | nil => rfl
  | cons d ds ih =>
    rw [List.map_cons, List.mapM_cons, Numeral.asciiDigit?_digitChar, ih]
    rfl

theorem takeNumber?_padded {width n : Nat} (hwidth : 0 < width) (h : n < 10 ^ width)
    (rest : List Char) : takeNumber? width (Text.padded width n ++ rest) = some (n, rest) := by
  obtain ⟨ds, hds, hlength, hvalue⟩ := exists_digits_of_lt hwidth h
  have hmap : (ds.map Numeral.digitChar).length = width := by rw [List.length_map, hlength]
  have htake : (ds.map Numeral.digitChar ++ rest).take width = ds.map Numeral.digitChar :=
    List.take_left' hmap
  have hdrop : (ds.map Numeral.digitChar ++ rest).drop width = rest := List.drop_left' hmap
  rw [← hds, takeNumber?, htake, hdrop, mapM_asciiDigit?_map_digitChar]
  simp [hlength, hvalue]

theorem daysInMonth_le (year month : Nat) : daysInMonth year month ≤ 31 := by
  have hlengths : ∀ length ∈ monthLengths year, length ≤ 31 := by
    unfold monthLengths
    cases isLeapYear year <;> decide
  rw [daysInMonth]
  split
  · exact Nat.zero_le 31
  · rw [List.getD_eq_getElem?_getD]
    cases hlength : (monthLengths year)[month - 1]? with
    | none => exact Nat.zero_le 31
    | some length => exact hlengths length (List.mem_of_getElem? hlength)

section
variable (d : Date)

theorem Date.year_lt : d.year < 10 ^ 4 := Nat.lt_succ_of_le d.year_le

theorem Date.month_lt : d.month < 10 ^ 2 := by
  have := d.month_le
  omega

theorem Date.day_lt : d.day < 10 ^ 2 := by
  have := d.day_le
  have := daysInMonth_le d.year d.month
  omega

end

namespace Timestamp

theorem takeDay?_isoText (d : Date) (rest : List Char) :
    takeDay? (d.isoText ++ rest) = some (d, rest) := by
  simp only [takeDay?, Date.isoText, List.append_assoc, List.cons_append,
    takeNumber?_padded (by decide) d.year_lt,
    takeNumber?_padded (by decide) d.month_lt,
    takeNumber?_padded (by decide) d.day_lt, takeHyphen?, Option.bind_eq_bind,
    Option.bind_some, Date.of?_self]

end Timestamp

namespace Moment
variable (m : Moment)

def fractionText : List Char :=
  if m.microsecond = 0 then [] else '.' :: Text.padded 6 m.microsecond

def clockText : List Char :=
  Text.padded 2 m.hour ++ ':' :: (Text.padded 2 m.minute ++
    ':' :: (Text.padded 2 m.second ++ m.fractionText))

theorem isoText_eq : m.isoText = m.date.isoText ++ 'T' :: m.clockText := by
  simp only [isoText, clockText, fractionText, List.append_assoc, List.cons_append]

theorem of?_self : of? m.date m.hour m.minute m.second m.microsecond = some m := by
  rw [of?, dif_pos ⟨⟨m.hour_lt, m.minute_lt⟩, m.second_lt, m.microsecond_lt⟩]

theorem clock_lt : m.hour < 10 ^ 2 ∧ m.minute < 10 ^ 2 ∧ m.second < 10 ^ 2 := by
  have := m.hour_lt
  have := m.minute_lt
  have := m.second_lt
  omega

end Moment

namespace Timestamp

theorem takeFraction?_padded {micros : Nat} (h : micros < 10 ^ 6) {rest : List Char}
    (hrest : ∀ c ∈ rest.head?, Text.asciiDigit? c = none) :
    takeFraction? (Text.padded 6 micros ++ rest) = some (micros, rest) := by
  obtain ⟨ds, hds, hlength, hvalue⟩ := exists_digits_of_lt (by decide) h
  have hspan : Decimal.spanDigits Text.asciiDigit? (Text.padded 6 micros ++ rest) =
      (ds.map Fin.val, rest) := by
    rw [← hds]
    exact Numeral.spanDigits_map_digitChar Numeral.asciiDigit?_digitChar ds hrest
  have hmap : (ds.map Fin.val).length = 6 := by rw [List.length_map, hlength]
  have hkept : (ds.map Fin.val).take 6 = ds.map Fin.val := List.take_of_length_le hmap.le
  have hne : ds.map Fin.val ≠ [] := by
    intro hnil
    rw [hnil] at hmap
    cases hmap
  rw [takeFraction?, hspan]
  simp only [hkept, if_neg hne, hmap, hvalue]
  simp

/-- What starts with nothing that a time could go on with. -/
def EndsTime (cs : List Char) : Prop :=
  ∀ c ∈ cs.head?, Text.asciiDigit? c = none ∧ c ≠ '.' ∧ c ≠ ','

theorem takeTime?_clockText (m : Moment) {zone : List Char} (hzone : EndsTime zone) :
    takeTime? m.date (m.clockText ++ zone) = some (m, zone) := by
  obtain ⟨hhour, hminute, hsecond⟩ := m.clock_lt
  simp only [takeTime?, Moment.clockText, Moment.fractionText, List.append_assoc,
    List.cons_append, takeNumber?_padded (by decide) hhour,
    takeNumber?_padded (by decide) hminute,
    takeNumber?_padded (by decide) hsecond, Option.bind_eq_bind,
    Option.bind_some]
  by_cases hmicro : m.microsecond = 0
  · have hself := m.of?_self
    rw [hmicro] at hself
    rw [if_pos hmicro, List.nil_append]
    split
    · exact absurd rfl (hzone '.' rfl).2.1
    · exact absurd rfl (hzone ',' rfl).2.2
    · rw [hself, Option.bind_some]
  · have hfraction := takeFraction?_padded m.microsecond_lt fun c hc => (hzone c hc).1
    rw [if_neg hmicro, List.cons_append]
    simp only [hfraction, Option.bind_some, m.of?_self]

theorem endsTime_text (o : Option Offset) : EndsTime ((o.map Offset.text).getD []) := by
  cases o with
  | none => simp [EndsTime]
  | some o =>
    rw [Option.map_some, Option.getD_some, Offset.text]
    split
    · simp [EndsTime]
      decide
    · split <;> simp [EndsTime] <;> decide

theorem readOffset?_signed (negative : Bool) {hours minutes : Nat} (hhours : hours < 10 ^ 2)
    (hminutes : minutes < 10 ^ 2) :
    readOffset? ((if negative then '-' else '+') :: (Text.padded 2 hours ++
      ':' :: Text.padded 2 minutes)) = (Offset.of? negative hours minutes).map some := by
  have hlast := takeNumber?_padded (by decide) hminutes []
  rw [List.append_nil] at hlast
  cases negative <;>
    simp [readOffset?, takeNumber?_padded (by decide) hhours, hlast]

theorem readOffset?_text (o : Option Offset) :
    readOffset? ((o.map Offset.text).getD []) = some o := by
  cases o with
  | none => rfl
  | some o =>
    obtain ⟨minutes, hminutes⟩ := o
    rw [Option.map_some, Option.getD_some, Offset.text]
    by_cases hzero : minutes = 0
    · subst hzero
      rfl
    · have hhours : minutes.natAbs / 60 < 10 ^ 2 := by omega
      have hrest : minutes.natAbs % 60 < 10 ^ 2 := by omega
      have hof : Offset.of? (decide (minutes < 0)) (minutes.natAbs / 60) (minutes.natAbs % 60) =
          some ⟨minutes, hminutes⟩ := by
        rw [Offset.of?, dif_pos (by omega)]
        simp only [decide_eq_true_eq, Option.some.injEq, Offset.mk.injEq]
        split <;> omega
      have hread := readOffset?_signed (decide (minutes < 0)) hhours hrest
      rw [hof] at hread
      rw [if_neg hzero]
      simpa only [decide_eq_true_eq, List.cons_append, Option.map_some] using hread

/-- A timestamp is read back from the text that it is written as. -/
theorem ofNotation?_text (t : Timestamp) : ofNotation? t.text = some t := by
  obtain ⟨m, o⟩ := t
  have htime := takeTime?_clockText m (endsTime_text o)
  simp only [ofNotation?, text, m.isoText_eq, List.append_assoc, List.cons_append,
    takeDay?_isoText, Option.bind_eq_bind, Option.bind_some]
  rw [if_pos (by decide), htime]
  simp only [Option.bind_some, readOffset?_text]

end Timestamp

end FormLogic
