import FormLogic.Session
import FormLogic.Proofs.Schema.Basic
import Mathlib.Data.List.Forall2

namespace FormLogic

namespace Checked

variable {α β : Type} {read : α → Checked β}

theorem each_eq_ok_iff {as : List α} {bs : List β} :
    each read as = .ok bs ↔ List.Forall₂ (fun a b => read a = .ok b) as bs := by
  induction as generalizing bs with
  | nil => simp [each, eq_comm]
  | cons a as ih =>
    rw [each, List.forall₂_cons_left_iff]
    simp only [← ih]
    cases read a with
    | faulty es => simp [andThen]
    | ok b => cases each read as <;> simp [andThen, eq_comm]

theorem each_eq_faulty_iff {as : List α} {faults : List Fault} :
    each read as = .faulty faults ↔ FirstAmong (fun a es => read a = .faulty es) as faults := by
  induction as with
  | nil => simp [each, not_firstAmong_nil]
  | cons a as ih =>
    rw [each, firstAmong_cons, ← ih]
    cases read a with
    | faulty es => simp [andThen]
    | ok b => cases each read as <;> simp [andThen]

end Checked

namespace Schema

theorem ofSources_eq_ok_iff {strict : Bool} {sources : List Field.Source} {s : Schema} :
    ofSources strict sources = .ok s ↔
      ∃ fields, Checked.each Field.Source.read sources = .ok fields ∧
        compile strict fields = .ok s := by
  rw [ofSources]
  cases Checked.each Field.Source.read sources with
  | faulty faults => simp
  | ok fields => cases hcompile : compile strict fields <;> simp [Except.mapError, hcompile]

/-- A list of sources becomes a schema of the fields they are for, in the same order, exactly if
each can be read, the fields are consistent, and strictly all their rules are of use. It is refused
for its first source that is faulty, and where there is none for the first violation of the
fields. -/
theorem ofSources_eq_iff (strict : Bool) (sources : List Field.Source) :
    (∀ faults, ofSources strict sources = .error (.faulty faults) ↔
      FirstAmong (fun source es => source.read = .faulty es) sources faults) ∧
    (∀ e, ofSources strict sources = .error (.inconsistent e) ↔
      ∃ fields, List.Forall₂ (fun source f => source.read = .ok f) sources fields ∧
        FirstViolation strict fields e) ∧
    ∀ fields, (∃ s, ofSources strict sources = .ok s ∧ s.fields = fields) ↔
      List.Forall₂ (fun source f => source.read = .ok f) sources fields ∧ Consistent fields ∧
        (strict = true → ∀ f ∈ fields, ∀ rule ∈ f.rules, rule.IsOfUse f.type) := by
  simp only [← Checked.each_eq_ok_iff, ← Checked.each_eq_faulty_iff, ← compile_eq_error_iff,
    ← exists_compile_iff]
  cases hread : Checked.each Field.Source.read sources with
  | faulty es => simp [ofSources, hread]
  | ok fields =>
    simp only [ofSources, hread]
    cases hcompile : compile strict fields with
    | error e => simp [Except.mapError, hcompile]
    | ok s => simp [Except.mapError, hcompile, fields_of_compile hcompile]

end Schema
end FormLogic
