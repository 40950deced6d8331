import FormLogic.Field

namespace FormLogic.Field

theorem derivation_eq_none {f : Field} (h : f.isDerived = false) : f.derivation = none := by
  simpa [isDerived] using h

theorem mem_parents_iff {f : Field} {parent : String} :
    parent ∈ f.parents ↔ ∃ d, f.derivation = some d ∧ parent ∈ d.parents := by
  unfold parents
  cases f.derivation <;> simp

def HasLogic (logic : Logic) (f : Field) : Prop := ∃ d, f.derivation = some d ∧ d.logic = logic

def ofNumber (id : String) (derivation : Option Derivation) (hid : id.isEmpty = false) :
    Field where
  id := id
  type := .number
  label := id
  required := false
  derivation := derivation
  rules := []
  choices := none
  defaultValue := .null
  order := 0
  id_ne := by
    rintro rfl
    cases hid
  choices_fit := rfl

end FormLogic.Field
