import FormLogic.Derived
import FormLogic.Proofs.Calendar.Iso
import FormLogic.Proofs.Field
import FormLogic.Proofs.Text.Blank

namespace FormLogic

namespace Value

inductive IsOn (d : Date) : Value → Prop
  | date : IsOn d (.date d)
  | moment {m : Moment} (h : m.date = d) : IsOn d (.moment m)

/-- An answer that gives a day: a value on it, or a text of such a value with blanks around it, to
which a moment can add that it is in universal time. -/
inductive Gives (d : Date) : Value → Prop
  | value {v : Value} (h : v.IsOn d) : Gives d v
  | text {v : Value} (h : v.IsOn d) {before after : List Char} (hbefore : Text.Blanks before)
      (hafter : Text.Blanks after) :
      Gives d (.text (String.ofList (before ++ (v.toText.toList ++ after))))
  | universal {m : Moment} (h : m.date = d) {before after : List Char}
      (hbefore : Text.Blanks before) (hafter : Text.Blanks after) :
      Gives d (.text (String.ofList
        (before ++ (((Value.moment m).toText.toList ++ ['Z']) ++ after))))

theorem day?_padded {before after cs : List Char} (hbefore : Text.Blanks before)
    (hafter : Text.Blanks after) (hcs : ∀ c ∈ cs, Text.isBlank c = false) :
    (text (String.ofList (before ++ (cs ++ after)))).day? = Calendar.dayOfText? cs := by
  rw [day?, String.toList_ofList, Text.trim_padded hbefore hafter, Text.trim_eq_self hcs]

theorem isBlank_of_mem_isoText (m : Moment) : ∀ c ∈ m.isoText, Text.isBlank c = false :=
  fun c hc => isBlank_of_iso (m.forall_iso_isoText c hc)

/-- The day of a birth is read, however it is given. -/
theorem Gives.day?_eq {d : Date} {v : Value} (h : v.Gives d) : v.day? = some d := by
  cases h with
  | value h =>
    cases h with
    | date => rfl
    | moment h => exact congrArg some h
  | text h hbefore hafter =>
    cases h with
    | date =>
      simp only [toText, String.toList_ofList]
      rw [day?_padded hbefore hafter fun c hc => isBlank_of_iso (d.forall_iso_isoText c hc),
        Calendar.dayOfText?_date]
    | @moment m h =>
      have hday := Calendar.dayOfText?_moment m (.inl rfl)
      rw [List.append_nil] at hday
      simp only [toText, String.toList_ofList]
      rw [day?_padded hbefore hafter (isBlank_of_mem_isoText m), hday, h]
  | @universal m h _ _ hbefore hafter =>
    have hblank : ∀ c ∈ m.isoText ++ ['Z'], Text.isBlank c = false :=
      List.forall_mem_append.2
        ⟨isBlank_of_mem_isoText m, List.forall_mem_singleton.2 (by decide)⟩
    simp only [toText, String.toList_ofList]
    rw [day?_padded hbefore hafter hblank, Calendar.dayOfText?_moment m (.inr rfl), h]

end Value

namespace Derived

/-- The age of somebody born on a day, which is empty as long as this day lies ahead. -/
def ageText (birth today : Date) : String :=
  if today < birth then "" else toString (birth.yearsSince today)

theorem age_of_gives {answers : Answers} {parent : String} {d : Date}
    (h : (answers.get parent).Gives d) (today : Date) (rest : List String) :
    age today answers (parent :: rest) = ageText d today := by
  rw [age, h.day?_eq, ageText]

/-- An answer that gives the day of a birth is read as this day, and the age that is computed from it
is that of the day. Two answers that give one day cannot be told apart by it. -/
theorem ofField?_age_of_gives {f : Field} {derivation : Derivation} {parent : String}
    {rest : List String} (hf : f.derivation = some derivation) (hlogic : derivation.logic = .age)
    (hparents : derivation.parents = parent :: rest) {d : Date} {answers answers' : Answers}
    (h : (answers.get parent).Gives d) (h' : (answers'.get parent).Gives d)
    (settings : Settings) (today : Date) :
    (answers.get parent).day? = some d ∧
      ofField? settings today answers f = some (ageText d today) ∧
      ofField? settings today answers f = ofField? settings today answers' f := by
  have hvalue : ∀ answers : Answers, (answers.get parent).Gives d →
      ofField? settings today answers f = some (ageText d today) := by
    intro answers h
    rw [ofField?, hf, Option.map_some, value, hlogic, hparents]
    exact congrArg some (age_of_gives h today rest)
  exact ⟨h.day?_eq, hvalue answers h, (hvalue answers h).trans (hvalue answers' h').symm⟩

/-- A moment shortly before midnight, written for universal time between blanks, gives the age that
its day gives. -/
theorem ofField?_age_of_gives_lateMoment :
    let birth : Date :=
      ⟨2004, 2, 29, by decide, by decide, by decide, by decide, by decide, by decide⟩
    let today : Date :=
      ⟨2024, 2, 28, by decide, by decide, by decide, by decide, by decide, by decide⟩
    let f : Field := .ofNumber "age" (some ⟨["birth"], .age, ""⟩) rfl
    let written : Value := .text "\u2003 2004-02-29T23:59:59.000001Z\n"
    let answers : Answers := .ofList [("birth", written)]
    let answers' : Answers := .ofList [("birth", .date birth)]
    (answers.get "birth").Gives birth ∧ (answers'.get "birth").Gives birth ∧
      written.day? = some birth ∧ ofField? {} today answers f = some "19" ∧
      ofField? {} today answers f = ofField? {} today answers' f := by
  intro birth today f written answers answers'
  let late : Moment :=
    ⟨birth, 23, 59, 59, 1, by decide, by decide, by decide, by decide⟩
  have hbefore : Text.Blanks ['\u2003', ' '] :=
    List.forall_mem_cons.2 ⟨by decide, List.forall_mem_singleton.2 (by decide)⟩
  have hafter : Text.Blanks ['\n'] := List.forall_mem_singleton.2 (by decide)
  have hwritten : "\u2003 2004-02-29T23:59:59.000001Z\n" = String.ofList
      (['\u2003', ' '] ++ (((Value.moment late).toText.toList ++ ['Z']) ++ ['\n'])) := by
    decide +kernel
  have hget : answers.get "birth" = .text "\u2003 2004-02-29T23:59:59.000001Z\n" := rfl
  have h : (answers.get "birth").Gives birth := by
    rw [hget, hwritten]
    exact .universal (m := late) rfl hbefore hafter
  have h' : (answers'.get "birth").Gives birth := .value .date
  have hnineteen : ageText birth today = "19" := by decide +kernel
  obtain ⟨hday, hage, hsame⟩ :=
    ofField?_age_of_gives (f := f) rfl rfl rfl h h' {} today
  rw [hnineteen] at hage
  exact ⟨h, h', hday, hage, hsame⟩

end Derived
end FormLogic
