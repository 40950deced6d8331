import FormLogic.Proofs.Calendar.Timestamp
import Mathlib.Data.Prod.Lex
import Mathlib.Order.Cover
import Mathlib.Order.Interval.Finset.Nat
import Mathlib.Tactic.IntervalCases

namespace FormLogic

theorem daysInMonth_february (year : Nat) :
    daysInMonth year 2 = if isLeapYear year = true then 29 else 28 := rfl

theorem daysInMonth_december (year : Nat) : daysInMonth year 12 = 31 := rfl

theorem daysInMonth_of_ne {month : Nat} (h : month ≠ 2) (year year' : Nat) :
    daysInMonth year month = daysInMonth year' month := by
  match month with
  | 0 => rfl
  | 1 => rfl
  | 2 => exact absurd rfl h
  | _ + 3 => rfl

/-- A day of a month is missing in another year if it is the 29th of February, and that year is
common. -/
theorem daysInMonth_lt_iff {year year' month day : Nat} (h : day ≤ daysInMonth year' month) :
    daysInMonth year month < day ↔ month = 2 ∧ day = 29 ∧ isLeapYear year = false := by
  by_cases hmonth : month = 2
  · rw [hmonth, daysInMonth_february] at h ⊢
    have hday : day ≤ 29 := h.trans (by split <;> decide)
    cases isLeapYear year <;> simp <;> omega
  · rw [daysInMonth_of_ne hmonth year year']
    simp only [hmonth, false_and, iff_false]
    omega

theorem daysInMonth_pos {month : Nat} (hpos : 1 ≤ month) (hle : month ≤ 12) (year : Nat) :
    1 ≤ daysInMonth year month := by
  by_cases h : month = 2
  · rw [h, daysInMonth_february]
    split <;> decide
  · rw [daysInMonth_of_ne h year 1]
    interval_cases month <;> decide

namespace Date

theorem lt_iff (a b : Date) : a < b ↔
    a.year < b.year ∨ a.year = b.year ∧
      (a.month < b.month ∨ a.month = b.month ∧ a.day < b.day) := Iff.rfl

theorem eq_of_numbers {a b : Date} (hyear : a.year = b.year) (hmonth : a.month = b.month)
    (hday : a.day = b.day) : a = b := by
  cases a
  cases b
  simp_all

/-- The day after a day, which the last day of the calendar does not have. -/
def next? (d : Date) : Option Date :=
  if d.day < daysInMonth d.year d.month then of? d.year d.month (d.day + 1)
  else if d.month < 12 then of? d.year (d.month + 1) 1
  else of? (d.year + 1) 1 1

/-- How the numbers of a day change to those of the day after. -/
inductive IsFollowedBy (d d' : Date) : Prop
  | inMonth (hyear : d'.year = d.year) (hmonth : d'.month = d.month) (hday : d'.day = d.day + 1)
  | newMonth (hlast : d.day = daysInMonth d.year d.month) (hyear : d'.year = d.year)
      (hmonth : d'.month = d.month + 1) (hday : d'.day = 1)
  | newYear (hdecember : d.month = 12) (hlast : d.day = 31) (hyear : d'.year = d.year + 1)
      (hmonth : d'.month = 1) (hday : d'.day = 1)

theorem numbers_of_of? {year month day : Nat} {d : Date} (h : of? year month day = some d) :
    d.year = year ∧ d.month = month ∧ d.day = day := by
  obtain ⟨_, hd⟩ := Option.dite_none_right_eq_some.1 h
  obtain rfl := Option.some.inj hd
  exact ⟨rfl, rfl, rfl⟩

theorem isFollowedBy_of_next? {d d' : Date} (h : d.next? = some d') : d.IsFollowedBy d' := by
  have hday := d.day_le
  unfold next? at h
  split at h
  · obtain ⟨hyear, hmonth, hnext⟩ := numbers_of_of? h
    exact .inMonth hyear hmonth hnext
  · have hlast : d.day = daysInMonth d.year d.month := by omega
    split at h
    · obtain ⟨hyear, hmonth, hnext⟩ := numbers_of_of? h
      exact .newMonth hlast hyear hmonth hnext
    · obtain ⟨hyear, hmonth, hnext⟩ := numbers_of_of? h
      have hdecember : d.month = 12 := by
        have := d.month_le
        omega
      rw [hdecember, daysInMonth_december] at hlast
      exact .newYear hdecember hlast hyear hmonth hnext

theorem exists_of? {year month day : Nat} (hyear : 1 ≤ year ∧ year ≤ 9999)
    (hmonth : 1 ≤ month ∧ month ≤ 12) (hday : 1 ≤ day ∧ day ≤ daysInMonth year month) :
    ∃ d, of? year month day = some d :=
  ⟨_, dif_pos ⟨hyear, hmonth, hday⟩⟩

theorem exists_next? {d d' : Date} (h : d < d') : ∃ next, d.next? = some next := by
  have hyear := d.year_pos
  have hyear' := d'.year_le
  have hmonth := d.month_pos
  have hday := d.day_pos
  rw [lt_iff] at h
  unfold next?
  split
  · next hbefore => exact exists_of? ⟨hyear, d.year_le⟩ ⟨hmonth, d.month_le⟩ ⟨by omega, hbefore⟩
  · split
    · next hlast hnovember =>
      have hlength := daysInMonth_pos (Nat.le_add_left 1 d.month) hnovember d.year
      exact exists_of? ⟨hyear, d.year_le⟩ ⟨by omega, hnovember⟩ ⟨le_rfl, hlength⟩
    · next hlast hdecember =>
      have hnext : d.year + 1 ≤ 9999 := by
        have hmonth' := d'.month_le
        have hday' := d'.day_le
        by_contra hlimit
        have hsame : d'.year = d.year ∧ d'.month = d.month ∧ d.day < d'.day := by omega
        rw [hsame.1, hsame.2.1] at hday'
        omega
      exact exists_of? ⟨by omega, hnext⟩ ⟨le_rfl, by decide⟩
        ⟨le_rfl, daysInMonth_pos le_rfl (by decide) _⟩

/-- No day lies between a day and the one after it. -/
theorem IsFollowedBy.covBy {d d' : Date} (h : d.IsFollowedBy d') : d ⋖ d' := by
  refine ⟨?later, fun c hc hc' => ?between⟩
  case later =>
    rw [lt_iff]
    cases h <;> omega
  case between =>
    have hmonth := c.month_pos
    have hmonth' := c.month_le
    have hpos := c.day_pos
    have hday := c.day_le
    rw [lt_iff] at hc hc'
    cases h with
    | inMonth hyear hsame hnext => omega
    | newMonth hlast hyear hnext hfirst =>
      have hsame : c.year = d.year ∧ c.month = d.month ∧ d.day < c.day := by omega
      rw [hsame.1, hsame.2.1, ← hlast] at hday
      omega
    | newYear hdecember hlast hyear hjanuary hfirst =>
      have hdecember' : c.month = 12 ∧ d.day < c.day := by omega
      rw [hdecember'.1, daysInMonth_december] at hday
      omega

/-- The day after a day is the next one in the order of days. -/
theorem next?_eq_some_iff_covBy (d d' : Date) : d.next? = some d' ↔ d ⋖ d' := by
  constructor
  · exact fun h => (isFollowedBy_of_next? h).covBy
  · intro h
    obtain ⟨next, hnext⟩ := exists_next? h.1
    have hcov := (isFollowedBy_of_next? hnext).covBy
    have hge : ¬next < d' := h.2 hcov.1
    have hle : ¬d' < next := hcov.2 h.1
    rw [lt_iff] at hge hle
    rw [hnext, eq_of_numbers (a := next) (b := d') (by omega) (by omega) (by omega)]

/-- The last year is not counted before the month and day of the birth. -/
theorem yearsSince_cases (birth today : Date) :
    (today.month < birth.month ∨ today.month = birth.month ∧ today.day < birth.day) ∧
        birth.yearsSince today = today.year - birth.year - 1 ∨
      ¬(today.month < birth.month ∨ today.month = birth.month ∧ today.day < birth.day) ∧
        birth.yearsSince today = today.year - birth.year := by
  unfold yearsSince
  split
  · next h => exact .inl ⟨h, rfl⟩
  · next h => exact .inr ⟨h, sub_zero _⟩

/-- The years after that of a birth in which its month and day have come. -/
def anniversaries (birth today : Date) : Finset Nat :=
  (Finset.Ioc birth.year today.year).filter fun year =>
    toLex (year, toLex (birth.month, birth.day)) ≤ toLex (today.year, toLex (today.month, today.day))

section
variable {birth birth' today later : Date}

theorem mem_anniversaries {year : Nat} : year ∈ anniversaries birth today ↔
    (birth.year < year ∧ year ≤ today.year) ∧
      (year < today.year ∨ year = today.year ∧
        (birth.month < today.month ∨ birth.month = today.month ∧ birth.day ≤ today.day)) := by
  simp only [anniversaries, Finset.mem_filter, Finset.mem_Ioc, Prod.Lex.toLex_le_toLex]

theorem yearsSince_bounds (h : ¬today < birth) :
    0 ≤ birth.yearsSince today ∧ birth.yearsSince today < 10000 := by
  have hbirth := birth.year_pos
  have htoday := today.year_le
  have hcases := yearsSince_cases birth today
  rw [lt_iff] at h
  omega

theorem lt_of_yearsSince (h : ¬today < birth) {n : Nat} (hn : birth.yearsSince today = n) :
    n < 10000 := by
  have hbounds := (yearsSince_bounds h).2
  rw [hn] at hbounds
  exact_mod_cast hbounds

/-- The anniversaries are those of the first years after the birth. -/
theorem anniversaries_eq_Ioc (h : ¬today < birth) :
    anniversaries birth today =
      Finset.Ioc birth.year (birth.year + (birth.yearsSince today).toNat) := by
  have hcases := yearsSince_cases birth today
  have hbounds := yearsSince_bounds h
  ext year
  rw [mem_anniversaries, Finset.mem_Ioc]
  omega

theorem yearsSince_eq_card (h : ¬today < birth) :
    birth.yearsSince today = (anniversaries birth today).card := by
  have hbounds := yearsSince_bounds h
  rw [anniversaries_eq_Ioc h, Nat.card_Ioc]
  omega

theorem yearsSince_le_of_later (h : ¬later < today) :
    birth.yearsSince today ≤ birth.yearsSince later := by
  have hcases := yearsSince_cases birth today
  have hcases' := yearsSince_cases birth later
  rw [lt_iff] at h
  omega

theorem yearsSince_le_of_earlier_birth (h : ¬birth' < birth) :
    birth'.yearsSince today ≤ birth.yearsSince today := by
  have hcases := yearsSince_cases birth today
  have hcases' := yearsSince_cases birth' today
  rw [lt_iff] at h
  omega

end

/-- A day on which somebody gets a year older: the month and day of the birth, or the first of March
in a year that has no day of the birth. -/
def IsBirthday (birth day : Date) : Prop :=
  (day.month = birth.month ∧ day.day = birth.day) ∨
    (day.month = 3 ∧ day.day = 1 ∧ isLeapYear day.year = false ∧
      birth.month = 2 ∧ birth.day = 29)

instance (birth day : Date) : Decidable (IsBirthday birth day) :=
  inferInstanceAs (Decidable (_ ∨ _))

section
variable {birth today next : Date} (h : today.IsFollowedBy next)
include h

theorem yearsSince_of_isBirthday (hbirthday : birth.IsBirthday next) :
    birth.yearsSince next = birth.yearsSince today + 1 := by
  have hpos := today.day_pos
  have hmonth := birth.month_le
  have hlength := birth.day_le
  have hday := birth.day_pos
  have hcases := yearsSince_cases birth today
  have hcases' := yearsSince_cases birth next
  rcases hbirthday with hbirthday | ⟨hmarch, hfirst, hleap, hfebruary, hbirth⟩
  · cases h <;> omega
  · cases h with
    | inMonth hyear hsame hnext => omega
    | newMonth hlast hyear hnext _ =>
      have hshort := (daysInMonth_lt_iff hlength).2 ⟨hfebruary, hbirth, hleap⟩
      have hsame : birth.month = today.month := by omega
      rw [hyear, hsame, ← hlast] at hshort
      omega
    | newYear hdecember hlast hyear hjanuary _ => omega

theorem yearsSince_of_not_isBirthday (hother : ¬birth.IsBirthday next) :
    birth.yearsSince next = birth.yearsSince today := by
  have hmonth := birth.month_pos
  have hmonth' := birth.month_le
  have hlength := birth.day_le
  have hday := birth.day_pos
  have hcases := yearsSince_cases birth today
  have hcases' := yearsSince_cases birth next
  obtain ⟨hday', hleap⟩ := not_or.1 hother
  cases h with
  | inMonth hyear hsame hnext => omega
  | newMonth hlast hyear hnext hfirst =>
    by_cases hsame : birth.month = today.month
    -- a birth later in the month than its last day would be on the 29th of February
    · have hborn : birth.day ≤ today.day := by
        by_contra hlate
        rw [hlast, not_le, ← hsame, ← hyear, daysInMonth_lt_iff hlength] at hlate
        exact hleap ⟨by omega, hfirst, hlate.2.2, hlate.1, hlate.2.1⟩
      omega
    · omega
  | newYear hdecember hlast hyear hjanuary hfirst =>
    have hlate : birth.day ≤ 31 := hlength.trans (daysInMonth_le _ _)
    omega

end

/-- Up to any day there are as many years since a birth as there are anniversaries. The years grow
with the day and shrink with the birth, and from one day to the next they grow by one on a birthday
and by nothing on other days. -/
theorem yearsSince_counts_anniversaries {birth today : Date} (h : ¬today < birth) :
    0 ≤ birth.yearsSince today ∧
      birth.yearsSince today = (anniversaries birth today).card ∧
      (∀ later, ¬later < today → birth.yearsSince today ≤ birth.yearsSince later) ∧
      (∀ birth', ¬birth' < birth → birth'.yearsSince today ≤ birth.yearsSince today) ∧
      ∀ next, (today.next? = some next ↔ today ⋖ next) ∧
        (today.next? = some next →
          (birth.IsBirthday next → birth.yearsSince next = birth.yearsSince today + 1) ∧
          (¬birth.IsBirthday next → birth.yearsSince next = birth.yearsSince today)) := by
  refine ⟨(yearsSince_bounds h).1, yearsSince_eq_card h, fun later => yearsSince_le_of_later,
    fun birth' => yearsSince_le_of_earlier_birth, fun next => ?_⟩
  refine ⟨next?_eq_some_iff_covBy today next, fun hnext => ?_⟩
  have hfollowed := isFollowedBy_of_next? hnext
  exact ⟨yearsSince_of_isBirthday hfollowed, yearsSince_of_not_isBirthday hfollowed⟩

/-- A person born on the 29th of February gets a year older on the first of March of a common
year. -/
theorem yearsSince_counts_anniversaries_leapDay :
    let birth : Date :=
      ⟨2004, 2, 29, by decide, by decide, by decide, by decide, by decide, by decide⟩
    let today : Date :=
      ⟨2007, 2, 28, by decide, by decide, by decide, by decide, by decide, by decide⟩
    let next : Date :=
      ⟨2007, 3, 1, by decide, by decide, by decide, by decide, by decide, by decide⟩
    ¬today < birth ∧ (anniversaries birth today).card = 2 ∧ today ⋖ next ∧
      birth.yearsSince next = 3 := by
  intro birth today next
  have h : ¬today < birth := by decide
  have htoday : birth.yearsSince today = 2 := by decide
  have hnext : today.next? = some next := by decide
  obtain ⟨-, hcount, -, -, hstep⟩ := yearsSince_counts_anniversaries h
  refine ⟨h, ?_, (hstep next).1.1 hnext, ?_⟩
  · rw [htoday] at hcount
    exact_mod_cast hcount.symm
  · rw [((hstep next).2 hnext).1 (by decide), htoday]
    rfl

end Date
end FormLogic
