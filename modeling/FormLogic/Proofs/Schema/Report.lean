import FormLogic.Proofs.Answers
import FormLogic.Proofs.Schema.Validation

namespace FormLogic

/-- An error tells of a result what was found, and of the answers what was received. -/
inductive FieldError.Tells (answers : Answers) : FieldResult → FieldError → Prop
  | intro (id : String) (failure : Failure) (message : String) :
      Tells answers ⟨id, .rejected failure message⟩
        ⟨id, failure.code, message, answers.get id⟩

namespace Schema
variable {s : Schema} {answers : Answers} {results : List FieldResult}

theorem forall₂_fieldError? (answers : Answers) (results : List FieldResult) :
    List.Forall₂ (FieldError.Tells answers) (results.filter (!·.outcome.isAccepted))
      (results.filterMap (fieldError? answers)) := by
  induction results with
  | nil => exact .nil
  | cons r results ih =>
    obtain ⟨id, outcome⟩ := r
    cases outcome with
    -- an accepted result is left out on both sides
    | accepted v => exact ih
    | rejected failure message => exact .cons (.intro id failure message) ih

theorem map_fieldId_errors_gather (s : Schema) (answers : Answers) (results : List FieldResult) :
    (s.gather answers results).errors.map FieldError.fieldId =
      (results.filter (!·.outcome.isAccepted)).map FieldResult.fieldId := by
  symm
  rw [← List.forall₂_eq_eq_eq, List.forall₂_map_left_iff, List.forall₂_map_right_iff]
  refine (forall₂_fieldError? answers results).imp ?_
  rintro _ _ ⟨⟩
  rfl

/-- No field has two errors in the report on an answer set. -/
theorem nodup_fieldId_errors {report : Report} (h : s.report answers = .ok report) :
    (report.errors.map FieldError.fieldId).Nodup := by
  obtain ⟨results, hresults, rfl⟩ := exists_of_map_eq_ok h
  rw [map_fieldId_errors_gather]
  exact (nodup_fieldId_of_validate hresults).sublist (List.filter_sublist.map _)

theorem data_gather_eq_none_iff (s : Schema) (answers : Answers) (results : List FieldResult) :
    (s.gather answers results).data = none ↔ ∃ r ∈ results, r.outcome.isAccepted = false := by
  simp [gather]

/-- The cleaned answers are those of the results, each under the id of its field. -/
theorem entries_of_data_gather (h : s.validate answers = .ok results) {data : Answers}
    (hdata : (s.gather answers results).data = some data) :
    data.entries = results.map fun r => (r.fieldId, r.outcome.value) := by
  obtain ⟨-, hpairs⟩ := Option.ite_none_right_eq_some.1 hdata
  rw [← Option.some.inj hpairs]
  apply Answers.entries_ofList
  rw [List.map_map]
  exact nodup_fieldId_of_validate h

theorem isNone_field?_iff (s : Schema) (key : String) :
    (s.field? key).isNone = true ↔ key ∉ s.fields.map Field.id := by
  rw [Option.isNone_iff_eq_none, field?, List.find?_eq_none]
  simp

/-- The keys that belong to no field are warned of, in their order. -/
theorem exists_unknownAnswers (s : Schema) (answers : Answers) :
    ∃ unknown : List String, unknown.Sublist answers.keys ∧ unknown.Nodup ∧
      (∀ key, key ∈ unknown ↔ key ∈ answers.keys ∧ key ∉ s.fields.map Field.id) ∧
      s.unknownAnswers answers =
        unknown.map fun key => s!"Ignoring answer for unknown field '{key}'" := by
  refine ⟨_, List.filter_sublist, answers.nodup.sublist List.filter_sublist, ?_, rfl⟩
  intro key
  rw [List.mem_filter, isNone_field?_iff]

/-- The answers under the ids of the fields are the only ones that are validated. -/
theorem validate_congr {b : Answers} (h : ∀ f ∈ s.fields, b.get? f.id = answers.get? f.id) :
    s.validate b = s.validate answers := by
  rw [validate_eq, validate_eq]
  apply mapM_congr
  intro f hf
  have hget : b.get (Validator.ofField f).field.id = answers.get (Validator.ofField f).field.id :=
    Answers.get_congr (h f hf)
  rw [validateField, validateField, hget]

/-- Answers that agree under the ids of the fields are reported on alike, but for the warnings. -/
theorem gather_congr {b : Answers} (h : ∀ f ∈ s.fields, b.get? f.id = answers.get? f.id)
    (hresults : s.validate answers = .ok results) :
    (s.gather b results).isValid = (s.gather answers results).isValid ∧
      (s.gather b results).errors = (s.gather answers results).errors ∧
      (s.gather b results).data = (s.gather answers results).data := by
  refine ⟨rfl, ?_, rfl⟩
  apply List.filterMap_congr
  intro r hr
  -- every result is that of a field, so its answer is the same
  have hid : r.fieldId ∈ s.fields.map Field.id := by
    rw [← map_fieldId_of_validate hresults]
    exact List.mem_map_of_mem hr
  obtain ⟨f, hf, hfid⟩ := List.mem_map.1 hid
  have hget : b.get r.fieldId = answers.get r.fieldId := by
    rw [← hfid]
    exact Answers.get_congr (h f hf)
  rw [fieldError?, fieldError?, hget]

/-- The results are those of the validators of the fields, in the order of the fields. -/
theorem forall₂_run_of_validate (h : s.validate answers = .ok results) :
    List.Forall₂ (fun f r => r.fieldId = f.id ∧
      (Validator.ofField f).run (answers.get f.id) = .ok r.outcome) s.fields results := by
  rw [validate_eq] at h
  refine (forall₂_of_mapM_eq_ok h).imp ?_
  intro f r hr
  obtain ⟨outcome, houtcome, rfl⟩ := exists_of_map_eq_ok hr
  exact ⟨rfl, houtcome⟩

theorem isValid_gather_iff (s : Schema) (answers : Answers) (results : List FieldResult) :
    (s.gather answers results).isValid = true ↔
      ∀ r ∈ results, r.outcome.isAccepted = true :=
  List.all_eq_true

/-- Where validation comes to an end, the report gathers exactly what was found: the result of
every field, the errors of those that are refused, the cleaned answers if none is, and a warning
for each answer that belongs to no field. Such answers change nothing but the warnings. -/
theorem exists_report_of_validate {strict : Bool} {fields : List Field}
    (hs : compile strict fields = .ok s) (h : s.validate answers = .ok results) :
    ∃ report, s.report answers = .ok report ∧
      List.Forall₂ (fun f r => r.fieldId = f.id ∧
        (Validator.ofField f).run (answers.get f.id) = .ok r.outcome) fields results ∧
      (report.isValid = true ↔ ∀ r ∈ results, r.outcome.isAccepted = true) ∧
      List.Forall₂ (FieldError.Tells answers) (results.filter (!·.outcome.isAccepted))
        report.errors ∧
      (report.data = none ↔ ∃ r ∈ results, r.outcome.isAccepted = false) ∧
      (∀ data, report.data = some data → data.keys = fields.map Field.id ∧
        data.entries = results.map fun r => (r.fieldId, r.outcome.value)) ∧
      (∃ unknown : List String, unknown.Sublist answers.keys ∧ unknown.Nodup ∧
        (∀ key, key ∈ unknown ↔ key ∈ answers.keys ∧ key ∉ fields.map Field.id) ∧
        report.warnings = unknown.map fun key => s!"Ignoring answer for unknown field '{key}'") ∧
      ∀ b : Answers, (∀ f ∈ fields, b.get? f.id = answers.get? f.id) →
        ∃ report', s.report b = .ok report' ∧ report'.isValid = report.isValid ∧
          report'.errors = report.errors ∧ report'.data = report.data := by
  obtain rfl := fields_of_compile hs
  refine ⟨s.gather answers results, ?_, forall₂_run_of_validate h,
    isValid_gather_iff s answers results, forall₂_fieldError? answers results,
    data_gather_eq_none_iff s answers results, ?_, exists_unknownAnswers s answers, ?_⟩
  · rw [report, h]
    rfl
  · intro data hdata
    have hentries := entries_of_data_gather h hdata
    refine ⟨?_, hentries⟩
    rw [← map_fieldId_of_validate h, Answers.keys, hentries, List.map_map]
    rfl
  -- the results of the other answers are the same
  · intro b hb
    refine ⟨s.gather b results, ?_, gather_congr hb h⟩
    rw [report, validate_congr hb, h]
    rfl

/-- An answer that is no number is told of as it is, and one that belongs to no field is warned
of. -/
theorem exists_report_of_validate_numberFields :
    ∃ s report, compile true numberFields = .ok s ∧
      s.report (.ofList [("x", .int 1), ("n", .text "many")]) = .ok report ∧
      report.errors = [⟨"n", "type", "Not a valid number", .text "many"⟩] ∧ report.data = none ∧
      report.warnings = ["Ignoring answer for unknown field 'x'"] := by
  have hs : compile true numberFields = .ok (ofConsistent numberFields (by decide)) := rfl
  have hvalidate : validate (ofConsistent numberFields (by decide))
      (.ofList [("x", .int 1), ("n", .text "many")]) =
        .ok [⟨"n", .rejected .wrongType "Not a valid number"⟩] := by
    have hrun : (Validator.ofField (.ofNumber "n" none rfl)).run (.text "many") = _ :=
      Validator.run_of_number?_eq_none rfl rfl (by decide +kernel)
    change [Validator.ofField (.ofNumber "n" none rfl)].mapM (validateField _) = _
    rw [List.mapM_cons, validateField]
    change (Except.map _ ((Validator.ofField (.ofNumber "n" none rfl)).run (.text "many"))).bind _ =
      _
    rw [hrun]
    rfl
  obtain ⟨report, hreport, -, -, herrors, hdata, -, ⟨unknown, -, hnodup, hunknown, hwarnings⟩, -⟩ :=
    exists_report_of_validate hs hvalidate
  refine ⟨_, report, hs, hreport, ?_, ?_, ?_⟩
  · generalize report.errors = errors at herrors
    change List.Forall₂ _ [_] errors at herrors
    obtain _ | ⟨⟨⟩, ⟨⟩⟩ := herrors
    rfl
  · exact hdata.2 ⟨_, List.mem_singleton_self _, rfl⟩
  · have hx : unknown.Perm ["x"] := by
      rw [List.perm_ext_iff_of_nodup hnodup (List.nodup_singleton "x")]
      intro key
      have hkeys : (Answers.ofList [("x", .int 1), ("n", .text "many")]).keys = ["x", "n"] := rfl
      have hids : numberFields.map Field.id = ["n"] := rfl
      rw [hunknown, hkeys, hids]
      simp only [List.mem_cons, List.not_mem_nil, or_false]
      constructor
      · rintro ⟨h | h, hn⟩
        · exact h
        · exact absurd h hn
      · rintro rfl
        exact ⟨.inl rfl, by decide⟩
    rw [hwarnings, List.perm_singleton.1 hx]
    rfl

end Schema
end FormLogic
