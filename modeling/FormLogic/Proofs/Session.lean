import FormLogic.Session
import FormLogic.Proofs.Schema.Pass
import FormLogic.Proofs.Schema.Validation

namespace FormLogic

namespace Session

/-- The data that an action brings. A session keeps them even if no schema can be made of them. -/
def Action.newData? : Action → Option (List Value)
  | .compile data _ => data
  | _ => none

def Action.UsesData : Action → Prop
  | .compile none _ => True
  | _ => False

/-- The action does nothing but look at the answers and bring the derived ones up to date. -/
def Action.IsQuiet : Action → Prop
  | .patch => True
  | .sync => True
  | .validate => True
  | .report => True
  | _ => False

def Reply.IsFailure : Reply → Prop
  | .notCompiled _ => True
  | .tooLarge _ => True
  | _ => False

/-- What a session is after a reply, as far as the reply tells. -/
def told (s : Session) : Reply → Session
  | .compiled schema => { s with schema := schema }
  | .configured settings => { s with settings := settings }
  | .dated today => { s with today := today }
  | .answered answers => { s with answers := answers }
  | .synced _ _ answers => { s with answers := answers }
  | _ => s

def after (s : Session) (actions : List Action) : Session :=
  actions.foldl (fun s a => (s.step a).1) s

variable {s : Session} {a : Action} {actions : List Action}

theorem told_of_isFailure {r : Reply} (h : r.IsFailure) : s.told r = s := by
  cases r with
  | notCompiled | tooLarge => rfl
  | _ => cases h

theorem step_sync (s : Session) :
    s.step .sync = ({ s with answers := s.answers.apply s.currentPatch },
      .synced s.currentPatch (Schema.writes s.currentPatch)
        (s.answers.apply s.currentPatch)) := by
  simp only [step, Schema.sync, Schema.foldl_record, Schema.foldl_write_writes, List.nil_append,
    currentPatch]

theorem fst_step_validate (s : Session) : (s.step .validate).1 = s := by
  rw [step]
  split <;> rfl

theorem fst_step_report (s : Session) : (s.step .report).1 = s := by
  rw [step]
  split <;> rfl

/-- An action fails if its data are no schema or if its answers cannot be validated. -/
theorem isFailure_step_iff (s : Session) (a : Action) : (s.step a).2.IsFailure ↔
    (∃ data strict, a = .compile data strict ∧
      ∃ e, Schema.ofData (strict.getD s.settings.isStrict) (data.getD s.data) = .error e) ∨
    ((a = .validate ∨ a = .report) ∧ Schema.HasTooLarge s.schema.fields s.answers) := by
  cases a with
  | compile data strict =>
    rw [step]
    cases hdata : Schema.ofData (strict.getD s.settings.isStrict) (data.getD s.data) <;>
      simp [Reply.IsFailure, hdata]
  | validate =>
    rw [← Schema.validate_fails_iff, step]
    cases s.schema.validate s.answers with
    | ok results => simp [Reply.IsFailure]
    | error e => exact iff_of_true trivial (.inr ⟨.inl rfl, e, rfl⟩)
  | report =>
    rw [← Schema.report_fails_iff, step]
    cases s.schema.report s.answers with
    | ok report => simp [Reply.IsFailure]
    | error e => exact iff_of_true trivial (.inr ⟨.inr rfl, e, rfl⟩)
  | _ => simp [step, answer, Reply.IsFailure]

/-- A step changes what its reply tells, and keeps the data that come with the action. -/
theorem fst_step (s : Session) (a : Action) :
    (s.step a).1 = { s.told (s.step a).2 with data := a.newData?.getD s.data } := by
  cases a with
  | compile data strict =>
    rw [step]
    cases Schema.ofData (strict.getD s.settings.isStrict) (data.getD s.data) <;> rfl
  | validate =>
    rw [step]
    cases s.schema.validate s.answers <;> rfl
  | report =>
    rw [step]
    cases s.schema.report s.answers <;> rfl
  | _ => rfl

/-- A failed action leaves the session as it was, but for the data. -/
theorem fst_step_of_isFailure (h : (s.step a).2.IsFailure) :
    (s.step a).1 = { s with data := a.newData?.getD s.data } := by
  rw [fst_step, told_of_isFailure h]

theorem told_with_data (s : Session) (data : List Value) (r : Reply) :
    { s with data := data }.told r = { s.told r with data := data } := by
  cases r <;> rfl

theorem snd_step_with_data (s : Session) (data : List Value) (h : ¬a.UsesData) :
    ({ s with data := data }.step a).2 = (s.step a).2 := by
  cases a with
  | compile new strict =>
    cases new with
    | none => exact absurd trivial h
    | some new => simp only [step, Option.getD_some]
  | validate =>
    simp only [step]
    cases s.schema.validate s.answers <;> rfl
  | report =>
    simp only [step]
    cases s.schema.report s.answers <;> rfl
  | _ => rfl

theorem length_run (s : Session) (actions : List Action) :
    (s.run actions).length = actions.length := by
  induction actions generalizing s with
  | nil => rfl
  | cons a actions ih => rw [run, List.length_cons, ih, List.length_cons]

theorem after_cons (s : Session) (a : Action) (actions : List Action) :
    s.after (a :: actions) = (s.step a).1.after actions := rfl

theorem run_append (s : Session) (actions actions' : List Action) :
    s.run (actions ++ actions') = s.run actions ++ (s.after actions).run actions' := by
  induction actions generalizing s with
  | nil => rfl
  | cons a actions ih => rw [List.cons_append, run, ih, run, after_cons, List.cons_append]

/-- What every step keeps whose reply is of a kind, a run keeps whose replies are all of the
kind. -/
theorem after_induction {P : Session → Prop} {R : Reply → Prop}
    (hstep : ∀ s a, R (s.step a).2 → P s → P (s.step a).1) (hs : P s)
    (hrun : ∀ r ∈ s.run actions, R r) : P (s.after actions) := by
  induction actions generalizing s with
  | nil => exact hs
  | cons a actions ih =>
    rw [run, List.forall_mem_cons] at hrun
    exact ih (hstep s a hrun.1 hs) hrun.2

theorem foldl_told_with_data (s : Session) (data : List Value) (rs : List Reply) :
    rs.foldl told { s with data := data } = { rs.foldl told s with data := data } := by
  induction rs generalizing s with
  | nil => rfl
  | cons r rs ih => rw [List.foldl_cons, told_with_data, ih, List.foldl_cons]

/-- The replies tell what a run makes of a session, but for the data, which are the last ones that
came with an action. -/
theorem after_eq_foldl_told (s : Session) (actions : List Action) :
    s.after actions = { (s.run actions).foldl told s with
      data := actions.foldl (fun data a => a.newData?.getD data) s.data } := by
  induction actions generalizing s with
  | nil => rfl
  | cons a actions ih =>
    rw [after_cons, ih, run, List.foldl_cons, List.foldl_cons, fst_step, foldl_told_with_data]

theorem after_of_isFailure (h : ∀ r ∈ s.run actions, r.IsFailure) :
    s.after actions =
      { s with data := actions.foldl (fun data a => a.newData?.getD data) s.data } := by
  have htold : (s.run actions).foldl told s = s :=
    List.foldlRecOn (s.run actions) told (motive := (· = s)) rfl
      fun t ht r hr => by rw [ht, told_of_isFailure (h r hr)]
  rw [after_eq_foldl_told, htold]

theorem run_with_data (s : Session) (data : List Value) (h : ∀ a ∈ actions, ¬a.UsesData) :
    { s with data := data }.run actions = s.run actions := by
  induction actions generalizing s data with
  | nil => rfl
  | cons a actions ih =>
    rw [List.forall_mem_cons] at h
    -- the two sessions go on with the same reply, so they differ in their data again
    have hreply := snd_step_with_data s data h.1
    have hnext : ({ s with data := data }.step a).1 =
        { (s.step a).1 with data := a.newData?.getD data } := by
      rw [fst_step, hreply, told_with_data, fst_step s]
    rw [run, run, hreply, hnext, ih _ _ h.2]

/-- A failed action does not show in the replies to the others: they are those of the run without
it, as long as no data are compiled that were kept. -/
theorem run_of_isFailure {before : List Action}
    (hfailure : ((s.after before).step a).2.IsFailure) (h : ∀ a ∈ actions, ¬a.UsesData) :
    s.run (before ++ a :: actions) = s.run before ++ ((s.after before).step a).2 ::
      (s.run (before ++ actions)).drop before.length := by
  have hrest : (s.run (before ++ actions)).drop before.length = (s.after before).run actions := by
    rw [run_append, List.drop_left' (length_run s before)]
  rw [run_append, run, fst_step_of_isFailure hfailure, run_with_data _ _ h, hrest]

/-- The schema is made of the data that are kept. -/
def IsCurrent (s : Session) : Prop := ∃ strict, Schema.ofData strict s.data = .ok s.schema

theorem isCurrent_start {settings : Settings} {today : Date} {answers : Answers}
    {strict : Option Bool} {data : List Value}
    (h : start settings today answers strict data = .ok s) : s.IsCurrent := by
  obtain ⟨schema, hschema, rfl⟩ := exists_of_map_eq_ok h
  exact ⟨_, hschema⟩

/-- A step makes a schema of the data that it keeps, or goes on with the schema there is: over other
data only if these are refused. -/
theorem schema_step (s : Session) (a : Action) : (s.step a).1.IsCurrent ∨
    (s.step a).1.schema = s.schema ∧
      ((s.step a).1.data = s.data ∨ ∃ e, (s.step a).2 = .notCompiled e) := by
  cases a with
  | compile data strict =>
    rw [step]
    cases hdata : Schema.ofData (strict.getD s.settings.isStrict) (data.getD s.data) with
    | error e => exact .inr ⟨rfl, .inr ⟨e, rfl⟩⟩
    | ok schema => exact .inl ⟨_, hdata⟩
  | validate =>
    rw [fst_step_validate]
    exact .inr ⟨rfl, .inl rfl⟩
  | report =>
    rw [fst_step_report]
    exact .inr ⟨rfl, .inl rfl⟩
  | _ => exact .inr ⟨rfl, .inl rfl⟩

theorem isCurrent_step (hreply : ∀ e, (s.step a).2 ≠ .notCompiled e) (h : s.IsCurrent) :
    (s.step a).1.IsCurrent := by
  rcases schema_step s a with hcurrent | ⟨hschema, hdata | ⟨e, he⟩⟩
  · exact hcurrent
  · rwa [IsCurrent, hschema, hdata]
  · exact absurd he (hreply e)

/-- As long as no data were refused, the schema of a session is made of the data that it keeps. -/
theorem isCurrent_after {settings : Settings} {today : Date} {answers : Answers}
    {strict : Option Bool} {data : List Value}
    (hstart : start settings today answers strict data = .ok s)
    (hrun : ∀ r ∈ s.run actions, ∀ e, r ≠ .notCompiled e) : (s.after actions).IsCurrent :=
  after_induction (fun _ _ => isCurrent_step) (isCurrent_start hstart) hrun

def IsMade (s : Session) : Prop := ∃ strict data, Schema.ofData strict data = .ok s.schema

theorem isMade_step (a : Action) (h : s.IsMade) : (s.step a).1.IsMade := by
  rcases schema_step s a with ⟨strict, hcurrent⟩ | ⟨hschema, -⟩
  · exact ⟨strict, _, hcurrent⟩
  · rwa [IsMade, hschema]

/-- Whatever is done in a session, its schema has been made of some data. -/
theorem isMade_after {settings : Settings} {today : Date} {answers : Answers}
    {strict : Option Bool} {data : List Value}
    (hstart : start settings today answers strict data = .ok s) (actions : List Action) :
    (s.after actions).IsMade := by
  obtain ⟨strict, hcurrent⟩ := isCurrent_start hstart
  exact after_induction (R := fun _ => True) (fun _ a _ => isMade_step a) ⟨strict, _, hcurrent⟩
    fun _ _ => trivial

def IsSettled (s : Session) : Prop := s.schema.IsSettled s.settings s.today s.answers

theorem isSettled_step_sync (s : Session) : (s.step .sync).1.IsSettled := by
  rw [step_sync]
  exact Schema.isSettled_apply_patch s.schema s.settings s.today s.answers

theorem step_sync_of_isSettled (h : s.IsSettled) :
    s.step .sync = (s, .synced .empty [] s.answers) := by
  have hpatch : s.currentPatch = .empty := Schema.patch_eq_empty_iff.2 h
  rw [step_sync, hpatch]
  rfl

theorem fst_step_of_isSettled (h : s.IsSettled) (ha : a.IsQuiet) : (s.step a).1 = s := by
  cases a with
  | sync => rw [step_sync_of_isSettled h]
  | patch => rfl
  | validate => exact fst_step_validate s
  | report => exact fst_step_report s
  | _ => cases ha

/-- Quiet actions leave a settled session as it is, and each is answered as if it were alone. -/
theorem run_of_isSettled (h : s.IsSettled) (hquiet : ∀ a ∈ actions, a.IsQuiet) :
    s.after actions = s ∧ s.run actions = actions.map fun a => (s.step a).2 := by
  induction actions with
  | nil => exact ⟨rfl, rfl⟩
  | cons a actions ih =>
    rw [List.forall_mem_cons] at hquiet
    have hstep := fst_step_of_isSettled h hquiet.1
    rw [after_cons, run, hstep, List.map_cons, (ih hquiet.2).2]
    exact ⟨(ih hquiet.2).1, rfl⟩

/-- Once the derived answers are brought up to date, they stay so under quiet actions: what a
session is after one pass it is after any number of them, with any validations between. -/
theorem after_sync (s : Session) (hquiet : ∀ a ∈ actions, a.IsQuiet) :
    s.after (.sync :: actions) = (s.step .sync).1 :=
  (run_of_isSettled s.isSettled_step_sync hquiet).1

end Session
end FormLogic
