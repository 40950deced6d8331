import FormLogic.Proofs.Calendar.Timestamp
import FormLogic.Proofs.Formula.Scanning

namespace FormLogic

open Formula

/-- A digit, or one of some marks. -/
def IsDigitOr (marks : List Char) (c : Char) : Prop := Token.isDigit c = true ∨ c ∈ marks

theorem IsDigitOr.ne {marks : List Char} {c mark : Char} (h : IsDigitOr marks c)
    (hdigit : Token.isDigit mark = false) (hmark : mark ∉ marks) : c ≠ mark := by
  rintro rfl
  rcases h with h | h
  · rw [hdigit] at h
    cases h
  · exact hmark h

theorem forall_isDigitOr_padded (marks : List Char) (width n : Nat) :
    ∀ c ∈ Text.padded width n, IsDigitOr marks c := fun _ hc =>
  .inl (Numeral.isDigit_of_mem_padded hc)

def isoMarks : List Char := ['-', ':', '.', 'T']

theorem isBlank_of_iso {c : Char} (h : IsDigitOr isoMarks c) : Text.isBlank c = false := by
  rcases h with h | h
  · exact Token.isBlank_of_isDigit h
  · have hmarks : isoMarks.all (fun mark => !Text.isBlank mark) = true := by decide
    simpa using List.all_eq_true.1 hmarks c h

theorem utf8Size_of_iso {c : Char} (h : IsDigitOr isoMarks c) : c.utf8Size = 1 := by
  rcases h with h | h
  · obtain ⟨d, rfl⟩ := Numeral.exists_digitChar_eq h
    revert d
    decide
  · have hmarks : isoMarks.all (fun mark => mark.utf8Size == 1) = true := by decide
    simpa using List.all_eq_true.1 hmarks c h

namespace Calendar

theorem byteLength_eq_length {cs : List Char} (h : ∀ c ∈ cs, c.utf8Size = 1) :
    byteLength cs = cs.length := by
  induction cs with
  | nil => rfl
  | cons c cs ih =>
    rw [List.forall_mem_cons] at h
    have hrest : (String.ofList cs).utf8ByteSize = cs.length := ih h.2
    rw [byteLength, String.ofList_cons, String.utf8ByteSize_append, String.utf8ByteSize_singleton,
      h.1, hrest, List.length_cons, Nat.add_comm]

end Calendar

theorem Text.length_padded {width n : Nat} (hwidth : 0 < width) (h : n < 10 ^ width) :
    (padded width n).length = width := by
  obtain ⟨ds, hds, hlength, -⟩ := exists_digits_of_lt hwidth h
  rw [← hds, List.length_map, hlength]

namespace Date
variable (d : Date)

theorem length_isoText : d.isoText.length = 10 := by
  simp only [isoText, List.length_append, List.length_cons,
    Text.length_padded (by decide) d.year_lt, Text.length_padded (by decide) d.month_lt,
    Text.length_padded (by decide) d.day_lt]

theorem forall_iso_isoText : ∀ c ∈ d.isoText, IsDigitOr isoMarks c := by
  have hnumber := forall_isDigitOr_padded isoMarks
  have hhyphen : IsDigitOr isoMarks '-' := .inr (by decide)
  simp only [isoText, List.forall_mem_append, List.forall_mem_cons]
  exact ⟨⟨hnumber 4 _, hhyphen, hnumber 2 _⟩, hhyphen, hnumber 2 _⟩

end Date

namespace Calendar

theorem head_padded_ne {width n : Nat} {c : Char} {cs : List Char}
    (h : Text.padded width n = c :: cs) {mark : Char} (hmark : Token.isDigit mark = false) :
    c ≠ mark := by
  have hmem : c ∈ Text.padded width n := by
    rw [h]
    exact List.mem_cons_self
  rintro rfl
  rw [Numeral.isDigit_of_mem_padded hmem] at hmark
  cases hmark

theorem readDay?_isoText (d : Date) : readDay? d.isoText = some d := by
  have hday := takeNumber?_padded (by decide) d.day_lt []
  rw [List.append_nil] at hday
  have hmonthDay : readMonthDay? d.year true
      (Text.padded 2 d.month ++ '-' :: Text.padded 2 d.day) = some d := by
    simp [readMonthDay?, takeNumber?_padded (by decide) d.month_lt, takeHyphen?, hday, d.of?_self]
  obtain ⟨c, cs, hmonth⟩ := List.exists_cons_of_length_pos (l := Text.padded 2 d.month)
    (by rw [Text.length_padded (by decide) d.month_lt]; decide)
  have hweek : c ≠ 'W' := head_padded_ne hmonth (by decide)
  rw [hmonth, List.cons_append] at hmonthDay
  simp only [readDay?, Date.isoText, List.append_assoc, List.cons_append,
    takeNumber?_padded (by decide) d.year_lt, Option.bind_eq_bind, Option.bind_some,
    List.head?_cons, hmonth, BEq.rfl, if_true, List.drop_succ_cons, List.drop_zero]
  split
  · next week heq => exact absurd (List.cons.inj heq).1 hweek
  · exact hmonthDay

theorem readClockRest?_number {n : Nat} (h : n < 10 ^ 2) (more : Nat) (rest : List Char) :
    readClockRest? true (more + 1) (':' :: (Text.padded 2 n ++ rest)) =
      (readClockRest? true more rest).map fun clock =>
        ⟨n :: clock.parts, clock.micros, clock.leftOver⟩ := by
  have hnumber := takeNumber?_padded (by decide) h rest
  obtain ⟨c, cs, hcs⟩ := List.exists_cons_of_length_pos (l := Text.padded 2 n)
    (by rw [Text.length_padded (by decide) h]; decide)
  rw [hcs, List.cons_append] at hnumber ⊢
  simp only [readClockRest?]
  rw [if_neg (by decide), if_neg (by simp), if_pos trivial, hnumber, Option.bind_eq_bind,
    Option.bind_some]
  cases readClockRest? true more rest <;> rfl

theorem readFraction?_padded {micros : Nat} (h : micros < 10 ^ 6) :
    readFraction? (Text.padded 6 micros) = some ⟨[], micros, false⟩ := by
  obtain ⟨ds, hds, hlength, hvalue⟩ := exists_digits_of_lt (by decide) h
  have hmap : (ds.map Numeral.digitChar).length = 6 := by rw [List.length_map, hlength]
  have hne : ds ≠ [] := by
    rintro rfl
    cases hlength
  rw [← hds, readFraction?, List.take_of_length_le hmap.le, List.drop_of_length_le hmap.le,
    mapM_asciiDigit?_map_digitChar]
  simp [hne, hlength, hvalue]

end Calendar

namespace Moment

variable (m : Moment)

theorem forall_clockText : ∀ c ∈ m.clockText, IsDigitOr [':', '.'] c := by
  have hnumber := forall_isDigitOr_padded [':', '.']
  have hcolon : IsDigitOr [':', '.'] ':' := .inr (by decide)
  have hfraction : ∀ c ∈ m.fractionText, IsDigitOr [':', '.'] c := by
    unfold fractionText
    split
    · exact fun _ hc => absurd hc List.not_mem_nil
    · exact List.forall_mem_cons.2 ⟨.inr (by decide), hnumber 6 _⟩
  simp only [clockText, List.forall_mem_append, List.forall_mem_cons]
  exact ⟨hnumber 2 _, hcolon, hnumber 2 _, hcolon, hnumber 2 _, hfraction⟩

theorem forall_iso_isoText : ∀ c ∈ m.isoText, IsDigitOr isoMarks c := by
  have hmarks : [':', '.'] ⊆ isoMarks := by decide
  rw [isoText_eq, List.forall_mem_append, List.forall_mem_cons]
  exact ⟨m.date.forall_iso_isoText, .inr (by decide),
    fun c hc => (m.forall_clockText c hc).imp_right fun h => hmarks h⟩

end Moment

namespace Calendar
variable (m : Moment)

theorem readClockRest?_fractionText :
    readClockRest? true 0 m.fractionText = some ⟨[], m.microsecond, false⟩ := by
  have hmicro : m.microsecond < 10 ^ 6 := m.microsecond_lt
  have hfraction := readFraction?_padded hmicro
  obtain ⟨c, cs, hcs⟩ := List.exists_cons_of_length_pos (l := Text.padded 6 m.microsecond)
    (by rw [Text.length_padded (by decide) hmicro]; decide)
  unfold Moment.fractionText
  split
  · next hzero =>
    rw [hzero]
    rfl
  · rw [hcs] at hfraction ⊢
    simp only [readClockRest?]
    rw [if_pos (by decide), hfraction]

theorem readClock?_clockText :
    readClock? m.clockText = some ⟨[m.hour, m.minute, m.second], m.microsecond, false⟩ := by
  obtain ⟨hhour, hminute, hsecond⟩ := m.clock_lt
  simp only [readClock?, Moment.clockText, takeNumber?_padded (by decide) hhour,
    Option.bind_eq_bind, Option.bind_some, List.head?_cons, BEq.rfl,
    readClockRest?_number hminute, readClockRest?_number hsecond, readClockRest?_fractionText,
    Option.map_some]

def universalOffset : List Char := ['+', '0', '0', ':', '0', '0']

/-- A time is read back, for universal time or without a zone. -/
theorem readTime?_clockText {zone : List Char} (hzone : zone = [] ∨ zone = universalOffset) :
    readTime? m.date (m.clockText ++ zone) = some m := by
  have hsign : ∀ c ∈ m.clockText, (!(c == '+' || c == '-')) = true := by
    intro c hc
    have hchar := m.forall_clockText c hc
    have hplus : c ≠ '+' := hchar.ne (by decide) (by decide)
    have hminus : c ≠ '-' := hchar.ne (by decide) (by decide)
    simp [hplus, hminus]
  have htake : (m.clockText ++ zone).takeWhile (fun c => !(c == '+' || c == '-')) =
      m.clockText := by
    rw [List.takeWhile_append_of_pos hsign]
    rcases hzone with rfl | rfl <;> exact List.append_nil _
  have hdrop : (m.clockText ++ zone).dropWhile (fun c => !(c == '+' || c == '-')) = zone := by
    rw [List.dropWhile_append_of_pos hsign]
    rcases hzone with rfl | rfl <;> rfl
  have hclock : (⟨[m.hour, m.minute, m.second], m.microsecond, false⟩ : Clock).on? m.date =
      some m := m.of?_self
  simp only [readTime?, htake, hdrop, readClock?_clockText, Option.bind_eq_bind, Option.bind_some]
  rcases hzone with rfl | rfl
  · exact hclock
  · have hoffset : readClock? ['0', '0', ':', '0', '0'] = some ⟨[0, 0], 0, false⟩ := rfl
    simp only [universalOffset, hoffset, Option.bind_some]
    rw [if_pos (by decide), hclock]

theorem dayLength?_isoText (d : Date) (rest : List Char) :
    dayLength? (d.isoText ++ 'T' :: rest) = some 10 := by
  have hlength : (d.isoText ++ 'T' :: rest).length ≠ 7 := by
    rw [List.length_append, d.length_isoText]
    omega
  obtain ⟨c, cs, hmonth⟩ := List.exists_cons_of_length_pos (l := Text.padded 2 d.month)
    (by rw [Text.length_padded (by decide) d.month_lt]; decide)
  have hdrop : (d.isoText ++ 'T' :: rest).drop 4 =
      '-' :: c :: (cs ++ '-' :: (Text.padded 2 d.day ++ 'T' :: rest)) := by
    rw [Date.isoText, List.append_assoc, List.append_assoc,
      List.drop_left' (Text.length_padded (by decide) d.year_lt), hmonth]
    simp
  rw [dayLength?, if_neg hlength, hdrop]
  split
  · next heq => exact absurd (List.cons.inj (List.cons.inj heq).2).1 (head_padded_ne hmonth (by decide))
  · rfl
  · next heq => cases heq
  · next hno _ => exact absurd rfl (hno _)

/-- A text that is longer than any day is not read as a day alone. -/
theorem dateOfText?_of_length {cs : List Char} (h : ∀ c ∈ cs, c.utf8Size = 1)
    (hlength : 10 < cs.length) : dateOfText? cs = none := by
  rw [dateOfText?, byteLength_eq_length h]
  exact if_neg (by omega)

theorem dayOfText?_date (d : Date) : dayOfText? d.isoText = some d := by
  have hlength := byteLength_eq_length fun c hc => utf8Size_of_iso (d.forall_iso_isoText c hc)
  have hdate : dateOfText? d.isoText = some d := by
    rw [dateOfText?, hlength, d.length_isoText, if_pos (by decide), readDay?_isoText]
  rw [dayOfText?, hdate]
  rfl

theorem momentOfText?_of_flatMap {cs zone : List Char}
    (hspelled : cs.flatMap (fun c => if c = 'Z' then universalOffset else [c]) =
      m.date.isoText ++ 'T' :: (m.clockText ++ zone))
    (hzone : zone = [] ∨ zone = universalOffset) : momentOfText? cs = some m := by
  have htake : (m.date.isoText ++ 'T' :: (m.clockText ++ zone)).take 10 = m.date.isoText :=
    List.take_left' m.date.length_isoText
  have hdrop : (m.date.isoText ++ 'T' :: (m.clockText ++ zone)).drop 10 =
      'T' :: (m.clockText ++ zone) := List.drop_left' m.date.length_isoText
  unfold universalOffset at hspelled
  simp only [momentOfText?, hspelled, dayLength?_isoText, Option.bind_eq_bind, Option.bind_some,
    htake, hdrop, readDay?_isoText, readTime?_clockText m hzone]

/-- A moment is read back, with the letter of universal time behind it or without. -/
theorem momentOfText?_isoText {zone : List Char} (hzone : zone = [] ∨ zone = ['Z']) :
    momentOfText? (m.isoText ++ zone) = some m := by
  have hself : m.isoText.flatMap (fun c => if c = 'Z' then universalOffset else [c]) =
      m.isoText := by
    rw [List.flatMap_congr (g := fun c => [c]), List.flatMap_singleton']
    intro c hc
    exact if_neg ((m.forall_iso_isoText c hc).ne (by decide) (by decide))
  rcases hzone with rfl | rfl
  · refine momentOfText?_of_flatMap m ?_ (.inl (Eq.refl []))
    rw [List.append_nil, hself, List.append_nil, m.isoText_eq]
  · apply momentOfText?_of_flatMap m _ (.inr rfl)
    rw [List.flatMap_append, hself, m.isoText_eq, List.append_assoc]
    rfl

/-- A moment is read as its day, with the letter of universal time behind it or without. -/
theorem dayOfText?_moment {zone : List Char} (hzone : zone = [] ∨ zone = ['Z']) :
    dayOfText? (m.isoText ++ zone) = some m.date := by
  have hsize : ∀ c ∈ m.isoText ++ zone, c.utf8Size = 1 := by
    refine List.forall_mem_append.2 ⟨fun c hc => utf8Size_of_iso (m.forall_iso_isoText c hc), ?_⟩
    rcases hzone with rfl | rfl
    · exact List.forall_mem_nil _
    · exact List.forall_mem_singleton.2 (by decide)
  have hdate : dateOfText? (m.isoText ++ zone) = none := by
    apply dateOfText?_of_length hsize
    rw [m.isoText_eq, List.length_append, List.length_append, m.date.length_isoText,
      List.length_cons]
    omega
  rw [dayOfText?, hdate, momentOfText?_isoText m hzone]
  rfl

end Calendar

end FormLogic
