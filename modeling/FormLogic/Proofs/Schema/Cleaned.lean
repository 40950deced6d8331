import FormLogic.Proofs.Schema.Report
import FormLogic.Proofs.Validation.Interpretation

namespace FormLogic

/-- A cleaned value is taken by its field type as it is. -/
theorem FieldType.Takes.cleaned {type : FieldType} {v cleaned : Value}
    (h : type.Takes v cleaned) : type.Takes cleaned cleaned := by
  cases h with
  | text htype s => exact .text htype s
  | @number v x hnumber =>
    have hfinite := Value.isFinite_of_number? hnumber
    exact .number (by rw [Value.number?, if_pos hfinite])
  | dayText s => exact .dayText s
  | date d => exact .date d
  | moment m => exact .moment m
  | bool b => exact .bool b
  | list hitems => exact .list hitems
  | tuple hitems => exact .list hitems

theorem FieldType.Takes.isEmpty_cleaned {type : FieldType} {v cleaned : Value}
    (h : type.Takes v cleaned) (hv : v.isEmpty = false) : cleaned.isEmpty = false := by
  cases h with
  | number => rfl
  | _ => exact hv

namespace Validator
variable {val : Validator} {v w : Value}

theorem eq_of_runEmpty (h : val.runEmpty v = .accepted w) : w = v := by
  unfold runEmpty at h
  split at h
  · cases h
  · split at h
    · cases h
    · exact (Outcome.accepted.inj h).symm

/-- A validator accepts what it made of an answer, and makes nothing else of it. -/
theorem run_of_run_eq_accepted (h : val.run v = .ok (.accepted w)) :
    val.run w = .ok (.accepted w) := by
  cases hempty : v.isEmpty with
  | true =>
    rw [run, if_pos hempty] at h
    obtain rfl := eq_of_runEmpty (Except.ok.inj h)
    rw [run, if_pos hempty, h]
  | false =>
    rw [run, if_neg (by simp [hempty])] at h
    obtain ⟨cleaned?, hclean, houtcome⟩ := exists_of_map_eq_ok h
    cases cleaned? with
    | none => cases houtcome
    | some cleaned =>
      obtain rfl := eq_of_tryChecks houtcome
      have htakes := (FieldType.clean?_eq_some_iff val.field.type v w).1 hclean
      have hagain := (FieldType.clean?_eq_some_iff val.field.type w w).2 htakes.cleaned
      rw [run_of_clean?_eq_some (htakes.isEmpty_cleaned hempty) hagain]
      exact congrArg Except.ok houtcome

end Validator

namespace Schema
variable {s : Schema} {answers data : Answers} {results : List FieldResult}

theorem get_data_gather (h : s.validate answers = .ok results)
    (hdata : (s.gather answers results).data = some data) {r : FieldResult} (hr : r ∈ results) :
    data.get r.fieldId = r.outcome.value := by
  have hentries := entries_of_data_gather h hdata
  have hmem : (r.fieldId, r.outcome.value) ∈ data.entries := by
    rw [hentries]
    exact List.mem_map_of_mem hr
  rw [Answers.get, Answers.get?, lookup?_of_mem data.nodup hmem, Option.getD_some]

theorem isAccepted_of_data_gather (hdata : (s.gather answers results).data = some data) :
    ∀ r ∈ results, r.outcome.isAccepted = true :=
  List.all_eq_true.1 (Option.ite_none_right_eq_some.1 hdata).1

/-- Cleaned answers have the results that the answers had. -/
theorem validate_data_gather (h : s.validate answers = .ok results)
    (hdata : (s.gather answers results).data = some data) : s.validate data = .ok results := by
  have hresults := h
  rw [validate] at hresults ⊢
  rw [← hresults]
  apply mapM_congr
  intro val hval
  obtain ⟨r, hr, hvalidate⟩ := exists_of_mapM_eq_ok hresults hval
  rw [hvalidate]
  obtain ⟨outcome, hrun, rfl⟩ := exists_of_map_eq_ok hvalidate
  have hget : data.get val.field.id = outcome.value := get_data_gather h hdata hr
  cases outcome with
  | rejected failure message => cases isAccepted_of_data_gather hdata _ hr
  | accepted w =>
    rw [validateField, hget, Outcome.value, Validator.run_of_run_eq_accepted hrun]
    rfl

theorem unknownAnswers_data_gather (h : s.validate answers = .ok results)
    (hdata : (s.gather answers results).data = some data) : s.unknownAnswers data = [] := by
  obtain ⟨unknown, -, -, hunknown, hwarnings⟩ := exists_unknownAnswers s data
  have hnil : unknown = [] := by
    rw [List.eq_nil_iff_forall_not_mem]
    intro key hkey
    obtain ⟨hmem, hfields⟩ := (hunknown key).1 hkey
    rw [Answers.keys, entries_of_data_gather h hdata, List.map_map] at hmem
    rw [← map_fieldId_of_validate h] at hfields
    exact hfields hmem
  rw [hwarnings, hnil, List.map_nil]

/-- Cleaned answers are valid, and they are their own cleaned answers: a form that was found valid
is found valid again from what was made of it, without errors and without warnings. -/
theorem report_data {report : Report} (h : s.report answers = .ok report)
    (hvalid : report.isValid = true) :
    ∃ data, report.data = some data ∧
      s.report data = .ok { isValid := true, errors := [], data := some data, warnings := [] } := by
  obtain ⟨results, hresults, rfl⟩ := exists_of_map_eq_ok h
  obtain ⟨data, hdata⟩ : ∃ data, (s.gather answers results).data = some data :=
    ⟨_, if_pos hvalid⟩
  refine ⟨data, hdata, ?_⟩
  have herrors : results.filterMap (fieldError? data) = [] := by
    rw [List.filterMap_eq_nil_iff]
    intro r hr
    have haccepted := isAccepted_of_data_gather hdata r hr
    obtain ⟨id, outcome⟩ := r
    cases outcome with
    | accepted w => rfl
    | rejected failure message => cases haccepted
  -- the results are the same, so what is gathered of them alone is the same too
  have hgather : s.gather data results =
      ⟨(s.gather answers results).isValid, results.filterMap (fieldError? data),
        (s.gather answers results).data, s.unknownAnswers data⟩ := rfl
  rw [report, validate_data_gather hresults hdata, Except.map, hgather, hvalid, herrors, hdata,
    unknownAnswers_data_gather hresults hdata]

def parcelFields : List Field :=
  [{ id := "extras", type := .checkbox, label := "Extras", required := true, derivation := none,
     rules := [], choices := some [⟨"Gift wrap", "gift"⟩], defaultValue := .null, order := 0,
     id_ne := by decide, choices_fit := rfl },
    .ofNumber "parcels" none rfl]

/-- The choices become a list and the text becomes a number, and both stay so. -/
theorem report_data_parcelFields :
    let answers : Answers :=
      .ofList [("parcels", .text " 2 "), ("x", .null), ("extras", .tuple [.text "gift"])]
    ∃ s, compile true parcelFields = .ok s ∧ ∃ report data, s.report answers = .ok report ∧
      report.isValid = true ∧ report.warnings = ["Ignoring answer for unknown field 'x'"] ∧
      report.data = some data ∧
      data.entries = [("extras", .list [.text "gift"]), ("parcels", .float (.ofInt 2))] ∧
      s.report data = .ok { isValid := true, errors := [], data := some data, warnings := [] } := by
  intro answers
  have hs : compile true parcelFields = .ok (ofConsistent parcelFields (by decide)) := rfl
  have hnumber : Value.numberOfText? " 2 " = some (.ofInt 2) := by decide +kernel
  have hclean : FieldType.number.clean? (.text " 2 ") = .ok (some (.float (.ofInt 2))) := by
    rw [FieldType.clean?, Value.number?, hnumber]
    rfl
  have hparcels : validateField answers (.ofField (.ofNumber "parcels" none rfl)) =
      .ok ⟨"parcels", .accepted (.float (.ofInt 2))⟩ :=
    congrArg (Except.map _) (Validator.run_of_clean?_eq_some rfl hclean)
  have hvalidate : validate (ofConsistent parcelFields (by decide)) answers =
      .ok [⟨"extras", .accepted (.list [.text "gift"])⟩,
        ⟨"parcels", .accepted (.float (.ofInt 2))⟩] := by
    change [_, Validator.ofField (.ofNumber "parcels" none rfl)].mapM (validateField answers) = _
    rw [List.mapM_cons, List.mapM_cons, hparcels]
    rfl
  have hreport : report (ofConsistent parcelFields (by decide)) answers =
      .ok (gather _ answers _) :=
    congrArg (Except.map _) hvalidate
  obtain ⟨data, hdata, hagain⟩ := report_data hreport rfl
  refine ⟨_, hs, _, data, hreport, rfl, ?_, hdata, ?_, hagain⟩
  · rfl
  · exact entries_of_data_gather hvalidate hdata

end Schema
end FormLogic
