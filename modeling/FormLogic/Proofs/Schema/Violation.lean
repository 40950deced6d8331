import FormLogic.Proofs.Keyed
import FormLogic.Proofs.Validation.Compile

namespace FormLogic

/-- What the first item with a violation is in violation of. -/
def FirstAmong {α ε : Type} (violates : α → ε → Prop) (xs : List α) (e : ε) : Prop :=
  ∃ before x after, xs = before ++ x :: after ∧ violates x e ∧ ∀ y ∈ before, ∀ e', ¬violates y e'

section
variable {α ε : Type} {violates : α → ε → Prop}

theorem not_firstAmong_nil (e : ε) : ¬FirstAmong violates [] e := by
  rintro ⟨before, x, after, h, -⟩
  simp at h

theorem firstAmong_cons {x : α} {xs : List α} {e : ε} :
    FirstAmong violates (x :: xs) e ↔
      violates x e ∨ ((∀ e', ¬violates x e') ∧ FirstAmong violates xs e) := by
  constructor
  · rintro ⟨before, y, after, h, hy, hbefore⟩
    cases before with
    | nil =>
      obtain ⟨rfl, -⟩ := List.cons.inj h
      exact .inl hy
    | cons x' before =>
      obtain ⟨rfl, hxs⟩ := List.cons.inj h
      rw [List.forall_mem_cons] at hbefore
      exact .inr ⟨hbefore.1, before, y, after, hxs, hy, hbefore.2⟩
  · rintro (hx | ⟨hx, before, y, after, rfl, hy, hbefore⟩)
    · exact ⟨[], x, xs, rfl, hx, by simp⟩
    · exact ⟨x :: before, y, after, rfl, hy, List.forall_mem_cons.2 ⟨hx, hbefore⟩⟩

theorem findSome?_eq_some_iff_firstAmong {error? : α → Option ε}
    (h : ∀ x e, error? x = some e ↔ violates x e) (xs : List α) (e : ε) :
    xs.findSome? error? = some e ↔ FirstAmong violates xs e := by
  have hnone : ∀ x, error? x = none ↔ ∀ e', ¬violates x e' := by
    intro x
    simp only [← h, Option.eq_none_iff_forall_ne_some, ne_eq]
  simp only [FirstAmong, List.findSome?_eq_some_iff, h, hnone]

end

/-- A derivation that can be computed over some fields: an age has a parent, and every parent is
the id of a field that is entered. -/
structure Derivation.FitsIn (fields : List Field) (d : Derivation) : Prop where
  birthDate : d.logic = .age → d.parents ≠ []
  entered : ∀ parent ∈ d.parents, ∃ p ∈ fields, p.id = parent ∧ p.isDerived = false

/-- A rule that a validator does not pass over. -/
def Rule.IsOfUse (type : FieldType) (rule : Rule) : Prop :=
  rule.kind = .required ∨
    (rule.kind.appliesTo type = true ∧ (rule.kind.needsValue = true → rule.value ≠ none))

/-- No id is used twice, and all derivations can be computed. -/
structure Consistent (fields : List Field) : Prop where
  nodup_ids : (fields.map Field.id).Nodup
  fits : ∀ f ∈ fields, ∀ d, f.derivation = some d → d.FitsIn fields

namespace Schema

inductive BadParent (fields : List Field) (id parent : String) : SchemaError → Prop
  | unknown (h : ∀ p ∈ fields, p.id ≠ parent) :
      BadParent fields id parent (.unknownParent id parent)
  | derived {p : Field} (hp : p ∈ fields) (hid : p.id = parent) (h : p.isDerived = true) :
      BadParent fields id parent (.derivedParent id parent)

inductive BadDerivation (fields : List Field) (f : Field) : SchemaError → Prop
  | noBirthDate {d : Derivation} (hd : f.derivation = some d) (hlogic : d.logic = .age)
      (hparents : d.parents = []) : BadDerivation fields f (.noBirthDate f.id)
  | parent {d : Derivation} {e : SchemaError} (hd : f.derivation = some d)
      (h : FirstAmong (BadParent fields f.id) d.parents e) : BadDerivation fields f e

inductive BadRule (f : Field) (rule : Rule) : SchemaError → Prop
  | inapplicable (hkind : rule.kind ≠ .required) (h : rule.kind.appliesTo f.type = false) :
      BadRule f rule (.inapplicableRule f.id f.type rule.kind)
  | valueless (happlies : rule.kind.appliesTo f.type = true) (hneeds : rule.kind.needsValue = true)
      (h : rule.value = none) : BadRule f rule (.valuelessRule f.id rule.kind)

/-- The violation for which a list of fields is inconsistent: the earliest field whose id is used
before it, and otherwise the first bad derivation. -/
inductive FirstInconsistency (fields : List Field) : SchemaError → Prop
  | duplicateId {before after : List Field} {f : Field} (hfields : fields = before ++ f :: after)
      (hused : f.id ∈ before.map Field.id) (hearliest : (before.map Field.id).Nodup) :
      FirstInconsistency fields (.duplicateId f.id)
  | derivation {e : SchemaError} (hnodup : (fields.map Field.id).Nodup)
      (h : FirstAmong (BadDerivation fields) fields e) : FirstInconsistency fields e

/-- The violation for which a list of fields is refused. Rules are looked at strictly, and only
where the list is consistent. -/
inductive FirstViolation (strict : Bool) (fields : List Field) : SchemaError → Prop
  | inconsistent {e : SchemaError} (h : FirstInconsistency fields e) :
      FirstViolation strict fields e
  | rule {e : SchemaError} (hstrict : strict = true) (hconsistent : Consistent fields)
      (h : FirstAmong (fun f => FirstAmong (BadRule f) f.rules) fields e) :
      FirstViolation strict fields e

theorem duplicateId?_eq_none_iff (seen : List String) (fields : List Field) :
    duplicateId? seen fields = none ↔
      (fields.map Field.id).Nodup ∧ ∀ f ∈ fields, f.id ∉ seen := by
  induction fields generalizing seen with
  | nil => simp [duplicateId?]
  | cons f fields ih =>
    rw [duplicateId?]
    split
    · next hused => simp [hused]
    · next hnew =>
      simp only [ih, List.map_cons, List.nodup_cons, List.mem_cons, not_or, forall_eq_or_imp,
        forall_and, List.mem_map, not_exists, not_and]
      tauto

/-- The earliest field is told of whose id is used before it. The ids of the fields that are passed
come to those that are seen, the latest first. -/
theorem duplicateId?_eq_some_iff {seen : List String} (hseen : seen.Nodup) (fields : List Field)
    (e : SchemaError) :
    duplicateId? seen fields = some e ↔
      ∃ before f after, fields = before ++ f :: after ∧
        f.id ∈ (before.map Field.id).reverse ++ seen ∧
        ((before.map Field.id).reverse ++ seen).Nodup ∧ e = .duplicateId f.id := by
  induction fields generalizing seen with
  | nil => simp [duplicateId?]
  | cons f fields ih =>
    -- a field that is passed adds its id to those that are seen
    have hpassed : ∀ before : List Field, ((f :: before).map Field.id).reverse ++ seen =
        (before.map Field.id).reverse ++ f.id :: seen := by simp
    rw [duplicateId?]
    split
    · next hused =>
      constructor
      · intro h
        exact ⟨[], f, fields, rfl, hused, hseen, (Option.some.inj h).symm⟩
      · rintro ⟨before, g, after, hfields, -, hnodup, rfl⟩
        cases before with
        | nil => rw [(List.cons.inj hfields).1]
        | cons f' before =>
          obtain ⟨rfl, -⟩ := List.cons.inj hfields
          rw [hpassed] at hnodup
          exact absurd hused (List.nodup_cons.1 hnodup.of_append_right).1
    · next hnew =>
      rw [ih (List.nodup_cons.2 ⟨hnew, hseen⟩)]
      constructor
      · rintro ⟨before, g, after, rfl, hg, hnodup, rfl⟩
        rw [← hpassed] at hg hnodup
        exact ⟨f :: before, g, after, rfl, hg, hnodup, rfl⟩
      · rintro ⟨before, g, after, hfields, hg, hnodup, rfl⟩
        cases before with
        | nil =>
          obtain ⟨rfl, -⟩ := List.cons.inj hfields
          exact absurd hg hnew
        | cons f' before =>
          obtain ⟨rfl, hrest⟩ := List.cons.inj hfields
          rw [hpassed] at hg hnodup
          exact ⟨before, g, after, hrest, hg, hnodup, rfl⟩

section
variable {fields : List Field} (hnodup : (fields.map Field.id).Nodup)
include hnodup

theorem eq_of_id_eq {f g : Field} (hf : f ∈ fields) (hg : g ∈ fields) (hid : f.id = g.id) :
    f = g :=
  List.inj_on_of_nodup_map hnodup hf hg hid

theorem find?_id_eq_some_iff {id : String} {p : Field} :
    fields.find? (·.id == id) = some p ↔ p ∈ fields ∧ p.id = id :=
  find?_key_eq_some_iff hnodup

theorem parentError?_eq_some_iff (id parent : String) (e : SchemaError) :
    parentError? fields id parent = some e ↔ BadParent fields id parent e := by
  rw [parentError?]
  cases hfind : fields.find? (·.id == parent) with
  | none =>
    have hunknown : ∀ p ∈ fields, p.id ≠ parent := by
      simpa using List.find?_eq_none.1 hfind
    constructor
    · intro h
      obtain rfl := Option.some.inj h
      exact .unknown hunknown
    · rintro (- | ⟨hp, hid, -⟩)
      · rfl
      · exact absurd hid (hunknown _ hp)
  | some p =>
    obtain ⟨hp, hid⟩ := (find?_id_eq_some_iff hnodup).1 hfind
    constructor
    · intro h
      simp only at h
      split at h
      · next hderived =>
        obtain rfl := Option.some.inj h
        exact .derived hp hid hderived
      · cases h
    · rintro (hunknown | ⟨hq, hid', hderived⟩)
      · exact absurd hid (hunknown p hp)
      · obtain rfl := eq_of_id_eq hnodup hq hp (hid'.trans hid.symm)
        exact if_pos hderived

theorem derivationError?_eq_some_iff (f : Field) (e : SchemaError) :
    derivationError? fields f = some e ↔ BadDerivation fields f e := by
  have hparents := findSome?_eq_some_iff_firstAmong (parentError?_eq_some_iff hnodup f.id)
  rw [derivationError?]
  cases hd : f.derivation with
  | none =>
    constructor
    · intro h
      cases h
    · rintro (⟨hd', -, -⟩ | ⟨hd', -⟩) <;> simp [hd] at hd'
  | some d =>
    simp only
    split
    · next hage =>
      constructor
      · intro h
        obtain rfl := Option.some.inj h
        exact .noBirthDate hd hage.1 hage.2
      · rintro (- | ⟨hd', h⟩)
        · rfl
        · obtain rfl := Option.some.inj (hd.symm.trans hd')
          -- an age without parents has no bad parent
          obtain ⟨before, x, after, hsplit, -⟩ := h
          simp [hage.2] at hsplit
    · next hage =>
      rw [hparents]
      constructor
      · exact fun h => .parent hd h
      · rintro (⟨hd', hlogic, hnil⟩ | ⟨hd', h⟩)
        · obtain rfl := Option.some.inj (hd.symm.trans hd')
          exact absurd ⟨hlogic, hnil⟩ hage
        · obtain rfl := Option.some.inj (hd.symm.trans hd')
          exact h

theorem parentError?_eq_none_iff (id parent : String) :
    parentError? fields id parent = none ↔ ∃ p ∈ fields, p.id = parent ∧ p.isDerived = false := by
  rw [parentError?]
  constructor
  · intro h
    cases hfind : fields.find? (·.id == parent) with
    | none => simp [hfind] at h
    | some p =>
      obtain ⟨hp, hid⟩ := (find?_id_eq_some_iff hnodup).1 hfind
      exact ⟨p, hp, hid, by simpa [hfind] using h⟩
  · rintro ⟨p, hp, hid, hentered⟩
    rw [(find?_id_eq_some_iff hnodup).2 ⟨hp, hid⟩]
    simp [hentered]

theorem derivationError?_eq_none_iff (f : Field) :
    derivationError? fields f = none ↔ ∀ d, f.derivation = some d → d.FitsIn fields := by
  rw [derivationError?]
  cases hd : f.derivation with
  | none => simp
  | some d =>
    simp only [Option.some.injEq, forall_eq']
    split
    · next hage => simpa using fun hfits : d.FitsIn fields => hfits.birthDate hage.1 hage.2
    · next hage =>
      simp only [List.findSome?_eq_none_iff, parentError?_eq_none_iff hnodup]
      exact ⟨fun h => ⟨fun hlogic hnil => hage ⟨hlogic, hnil⟩, h⟩, Derivation.FitsIn.entered⟩

end

theorem violation?_eq_none_iff (fields : List Field) :
    violation? fields = none ↔ Consistent fields := by
  rw [violation?, Option.or_eq_none_iff, duplicateId?_eq_none_iff, List.findSome?_eq_none_iff]
  constructor
  · rintro ⟨⟨hnodup, -⟩, h⟩
    exact ⟨hnodup, fun f hf => (derivationError?_eq_none_iff hnodup f).1 (h f hf)⟩
  · rintro ⟨hnodup, h⟩
    exact ⟨⟨hnodup, by simp⟩, fun f hf => (derivationError?_eq_none_iff hnodup f).2 (h f hf)⟩

theorem violation?_eq_some_iff (fields : List Field) (e : SchemaError) :
    violation? fields = some e ↔ FirstInconsistency fields e := by
  rw [violation?, Option.or_eq_some_iff, duplicateId?_eq_none_iff,
    duplicateId?_eq_some_iff List.nodup_nil]
  simp only [List.append_nil, List.mem_reverse, List.nodup_reverse]
  constructor
  · rintro (⟨before, f, after, hfields, hused, hearliest, rfl⟩ | ⟨⟨hnodup, -⟩, h⟩)
    · exact .duplicateId hfields hused hearliest
    · have hfirst := findSome?_eq_some_iff_firstAmong (derivationError?_eq_some_iff hnodup) fields e
      exact .derivation hnodup (hfirst.1 h)
  · rintro (⟨hfields, hused, hearliest⟩ | ⟨hnodup, h⟩)
    · exact .inl ⟨_, _, _, hfields, hused, hearliest, rfl⟩
    · have hfirst := findSome?_eq_some_iff_firstAmong (derivationError?_eq_some_iff hnodup) fields e
      exact .inr ⟨⟨hnodup, by simp⟩, hfirst.2 h⟩

theorem ruleError?_eq_some_iff (f : Field) (rule : Rule) (e : SchemaError) :
    ruleError? f rule = some e ↔ BadRule f rule e := by
  rw [ruleError?]
  constructor
  · intro h
    split at h
    · cases h
    · next hkind =>
      split at h
      · next happlies =>
        obtain rfl := Option.some.inj h
        exact .inapplicable hkind (by simpa using happlies)
      · next happlies =>
        split at h
        · next hvalue =>
          obtain rfl := Option.some.inj h
          exact .valueless (by simpa using happlies) hvalue.1 hvalue.2
        · cases h
  · rintro (⟨hkind, happlies⟩ | ⟨happlies, hneeds, hvalue⟩)
    · simp [hkind, happlies]
    · have hkind : rule.kind ≠ .required := by
        intro hkind
        rw [hkind] at hneeds
        cases hneeds
      simp [hkind, happlies, hneeds, hvalue]

theorem ruleError?_eq_none_iff (f : Field) (rule : Rule) :
    ruleError? f rule = none ↔ rule.IsOfUse f.type := by
  rw [ruleError?, Rule.IsOfUse]
  by_cases hkind : rule.kind = .required
  · simp [hkind]
  · cases happlies : rule.kind.appliesTo f.type <;> simp [hkind]

theorem rulesError?_eq_some_iff (f : Field) (e : SchemaError) :
    rulesError? f = some e ↔ FirstAmong (BadRule f) f.rules e :=
  findSome?_eq_some_iff_firstAmong (ruleError?_eq_some_iff f) f.rules e

theorem findSome?_rulesError?_eq_none_iff (fields : List Field) :
    fields.findSome? rulesError? = none ↔ ∀ f ∈ fields, ∀ rule ∈ f.rules, rule.IsOfUse f.type := by
  simp only [List.findSome?_eq_none_iff, rulesError?, ruleError?_eq_none_iff]

end Schema
end FormLogic
