import FormLogic.Proofs.Field
import FormLogic.Proofs.Schema.Violation

namespace FormLogic.Schema

variable (s : Schema)

theorem nodup_ids : (s.fields.map Field.id).Nodup :=
  ((violation?_eq_none_iff s.fields).1 s.consistent).nodup_ids

/-- The parents of a derived field are ids of fields that are entered. -/
theorem exists_parent {f : Field} (hf : f ∈ s.fields) {parent : String}
    (hparent : parent ∈ f.parents) : ∃ p ∈ s.fields, p.id = parent ∧ p.isDerived = false := by
  obtain ⟨d, hd, hmem⟩ := Field.mem_parents_iff.1 hparent
  exact (((violation?_eq_none_iff s.fields).1 s.consistent).fits f hf d hd).entered parent hmem

theorem exists_parents_eq_cons {f : Field} (hf : f ∈ s.fields) {d : Derivation}
    (hd : f.derivation = some d) (hlogic : d.logic = .age) :
    ∃ parent rest, d.parents = parent :: rest :=
  List.exists_cons_of_ne_nil
    ((((violation?_eq_none_iff s.fields).1 s.consistent).fits f hf d hd).birthDate hlogic)

/-- The validators are those of the fields, in whichever mode they were compiled. -/
theorem validators_eq : s.validators = s.fields.map .ofField := by
  obtain ⟨strict, hcompiled⟩ := s.compiled
  rw [Validator.mapM_compile, elim_error_eq_ok_iff] at hcompiled
  exact hcompiled.2.symm

theorem validator?_eq_some {f : Field} (hf : f ∈ s.fields) :
    s.validator? f.id = some (.ofField f) := by
  have hfind : s.fields.find? (·.id == f.id) = some f :=
    (find?_id_eq_some_iff s.nodup_ids).2 ⟨hf, rfl⟩
  rw [validator?, validators_eq, List.find?_map]
  exact congrArg (Option.map Validator.ofField) hfind

def ofConsistent (fields : List Field) (h : violation? fields = none) : Schema where
  fields := fields
  validators := fields.map .ofField
  consistent := h
  compiled := ⟨false, Validator.mapM_compile false fields⟩

@[simp] theorem fields_ofConsistent (fields : List Field) (h : violation? fields = none) :
    (ofConsistent fields h).fields = fields := rfl

variable {s}

theorem mem_derivedFields {f : Field} :
    f ∈ s.derivedFields ↔ f ∈ s.fields ∧ f.isDerived = true := by
  simp [derivedFields]

theorem id_ne_of_mem_parents {f : Field} (hf : f ∈ s.fields) {parent : String}
    (hparent : parent ∈ f.parents) {g : Field} (hg : g ∈ s.derivedFields) : g.id ≠ parent := by
  obtain ⟨p, hp, rfl, hentered⟩ := s.exists_parent hf hparent
  rw [mem_derivedFields] at hg
  intro hid
  rw [eq_of_id_eq s.nodup_ids hg.1 hp hid, hentered] at hg
  cases hg.2

section
variable {strict : Bool} {fields : List Field}

theorem fields_of_compile {s : Schema} (h : compile strict fields = .ok s) : s.fields = fields := by
  unfold compile at h
  split at h
  · cases h
  · split at h
    · cases h
    · rw [← Except.ok.inj h]

theorem compile_of_violation {e : SchemaError} (h : violation? fields = some e) :
    compile strict fields = .error e := by
  unfold compile
  split
  · next e' he => rw [← Option.some.inj (he.symm.trans h)]
  · next hnone =>
    rw [hnone] at h
    cases h

/-- Of consistent fields strict compiling refuses the first bad rule, and both modes make the same
schema otherwise. -/
theorem compile_of_consistent (h : violation? fields = none) :
    compile strict fields =
      (if strict then fields.findSome? rulesError? else none).elim
        (.ok (ofConsistent fields h)) .error := by
  have hcompiled := Validator.mapM_compile strict fields
  unfold compile
  split
  · next e he =>
    rw [h] at he
    cases he
  · split
    · next e he =>
      rw [hcompiled, elim_error_eq_error_iff] at he
      rw [he]
      rfl
    · next validators hvalidators =>
      rw [hcompiled, elim_error_eq_ok_iff] at hvalidators
      obtain ⟨hnone, rfl⟩ := hvalidators
      rw [hnone]
      rfl

/-- A list is refused for its first violation. -/
theorem compile_eq_error_iff {e : SchemaError} :
    compile strict fields = .error e ↔ FirstViolation strict fields e := by
  have hrules := findSome?_eq_some_iff_firstAmong rulesError?_eq_some_iff fields e
  cases hviolation : violation? fields with
  | some e' =>
    rw [compile_of_violation hviolation, Except.error.injEq, ← Option.some.injEq, ← hviolation,
      violation?_eq_some_iff]
    constructor
    · exact .inconsistent
    · rintro (h | ⟨-, hconsistent, -⟩)
      · exact h
      · rw [(violation?_eq_none_iff fields).2 hconsistent] at hviolation
        cases hviolation
  | none =>
    rw [compile_of_consistent hviolation, elim_error_eq_error_iff]
    constructor
    · intro h
      cases strict with
      | false => cases h
      | true => exact .rule rfl ((violation?_eq_none_iff fields).1 hviolation) (hrules.1 h)
    · rintro (h | ⟨rfl, -, h⟩)
      · rw [(violation?_eq_some_iff fields e).2 h] at hviolation
        cases hviolation
      · exact hrules.2 h

/-- A list becomes a schema if it is consistent and, strictly, all its rules are of use. -/
theorem exists_compile_iff :
    (∃ s, compile strict fields = .ok s) ↔
      Consistent fields ∧
        (strict = true → ∀ f ∈ fields, ∀ rule ∈ f.rules, rule.IsOfUse f.type) := by
  rw [← violation?_eq_none_iff, ← findSome?_rulesError?_eq_none_iff]
  cases hviolation : violation? fields with
  | some e => simp [compile_of_violation hviolation]
  | none =>
    simp only [compile_of_consistent hviolation, elim_error_eq_ok_iff]
    cases strict <;> simp

end

end FormLogic.Schema
