import FormLogic.Proofs.Schema.Settled
import Mathlib.Data.Set.Defs

namespace FormLogic.Schema

variable {s : Schema} {settings settings' : Settings} {today today' : Date} {a b : Answers}

/-- What is under the ids of a patch are derived fields that do not hold their values. -/
theorem exists_of_mem_keys_patch {id : String} (h : id ∈ (s.patch settings today a).keys) :
    ∃ f ∈ s.derivedFields, f.id = id ∧ ¬Holds settings today a f := by
  rw [Answers.mem_keys_iff] at h
  by_contra hnone
  apply h
  by_cases hid : ∃ f ∈ s.derivedFields, f.id = id
  · obtain ⟨f, hf, rfl⟩ := hid
    have hholds : Holds settings today a f := by
      by_contra hholds
      exact hnone ⟨f, hf, rfl, hholds⟩
    rw [get?_patch_of_mem settings today a s (mem_derivedFields.1 hf).1,
      (change?_eq_none_iff_holds hf).2 hholds, Option.map_none]
  · exact get?_patch_eq_none settings today a s fun f hf hfid => hid ⟨f, hf, hfid⟩

/-- Over answers that were settled before a change, what is under the ids of a patch are derived
fields whose stored answers or whose values have changed. -/
theorem exists_changed_of_mem_keys_patch (hsettled : s.IsSettled settings today a) {id : String}
    (h : id ∈ (s.patch settings' today' b).keys) :
    ∃ f ∈ s.derivedFields, f.id = id ∧ (b.get? f.id = a.get? f.id →
      Derived.ofField? settings' today' b f ≠ Derived.ofField? settings today a f) := by
  obtain ⟨f, hf, rfl, hnot⟩ := exists_of_mem_keys_patch h
  refine ⟨f, hf, rfl, ?_⟩
  intro hstored hvalue
  apply hnot
  rw [Holds, hstored, hvalue]
  exact hsettled f hf

/-- An edit leaves the values that have no edited parent as they are. -/
theorem ofField?_eq_of_edits {edits : Set String} (hb : ∀ id ∉ edits, b.get? id = a.get? id)
    {f : Field} (hparents : ∀ parent ∈ f.parents, parent ∉ edits) :
    Derived.ofField? settings today b f = Derived.ofField? settings today a f := by
  refine Derived.ofField?_congr ?_ (fun _ => rfl) (fun _ => rfl)
  intro parent hparent
  exact Answers.get_congr (hb parent (hparents parent hparent))

/-- After an edit of settled answers a pass stores nothing but values of derived fields that are
edited or have an edited parent, and a derived field without an edited parent ends with the answer
it had. On another day a pass stores nothing but ages, and with other settings nothing but values
of formulas. -/
theorem exists_dependent_of_mem_keys_patch (s : Schema) {settings : Settings} {today : Date}
    {a : Answers} (hsettled : s.patch settings today a = .empty) :
    (∀ (edits : Set String) (b : Answers), (∀ id ∉ edits, b.get? id = a.get? id) →
      (∀ id ∈ (s.patch settings today b).keys, ∃ f ∈ s.derivedFields, f.id = id ∧
        (id ∈ edits ∨ ∃ parent ∈ f.parents, parent ∈ edits)) ∧
      ∀ f ∈ s.derivedFields, (∀ parent ∈ f.parents, parent ∉ edits) →
        Derived.ofField? settings today b f = Derived.ofField? settings today a f ∧
        (b.apply (s.patch settings today b)).get? f.id = a.get? f.id) ∧
    (∀ today', ∀ id ∈ (s.patch settings today' a).keys,
      ∃ f ∈ s.derivedFields, f.id = id ∧ f.HasLogic .age) ∧
    ∀ settings', ∀ id ∈ (s.patch settings' today a).keys,
      ∃ f ∈ s.derivedFields, f.id = id ∧ f.HasLogic .custom := by
  rw [patch_eq_empty_iff] at hsettled
  refine ⟨?_, ?_, ?_⟩
  · intro edits b hb
    constructor
    · intro id hid
      obtain ⟨f, hf, rfl, hchanged⟩ := exists_changed_of_mem_keys_patch hsettled hid
      refine ⟨f, hf, rfl, ?_⟩
      -- what is not edited, itself or at a parent, has not changed
      by_contra hnone
      simp only [not_or, not_exists, not_and] at hnone
      exact hchanged (hb f.id hnone.1) (ofField?_eq_of_edits hb hnone.2)
    · intro f hf hparents
      have hvalue : Derived.ofField? settings today b f = Derived.ofField? settings today a f :=
        ofField?_eq_of_edits hb hparents
      refine ⟨hvalue, ?_⟩
      rw [isSettled_apply_patch s settings today b f hf, hsettled f hf,
        ofField?_apply_patch settings today b s (mem_derivedFields.1 hf).1, hvalue]
  · intro today' id hid
    obtain ⟨f, hf, rfl, hchanged⟩ := exists_changed_of_mem_keys_patch hsettled hid
    refine ⟨f, hf, rfl, ?_⟩
    by_contra hage
    exact hchanged rfl
      (Derived.ofField?_congr (fun _ _ => rfl) (fun h => absurd h hage) fun _ => rfl)
  · intro settings' id hid
    obtain ⟨f, hf, rfl, hchanged⟩ := exists_changed_of_mem_keys_patch hsettled hid
    refine ⟨f, hf, rfl, ?_⟩
    by_contra hcustom
    exact hchanged rfl
      (Derived.ofField?_congr (fun _ _ => rfl) (fun _ => rfl) fun h => absurd h hcustom)

/-- An edit of the field that is summed up wakes the sum, and not the text of the other field.
Another day wakes nothing. -/
theorem exists_dependent_of_mem_keys_patch_pairFields :
    let today : Date :=
      ⟨2024, 2, 29, by decide, by decide, by decide, by decide, by decide, by decide⟩
    let start : Answers := .ofList [("a", .int 7), ("b", .text "x"), ("total", .text "8")]
    ∃ s, compile true pairFields = .ok s ∧
      let a := start.apply (s.patch {} today start)
      s.patch {} today a = .empty ∧
      (∀ id, id ∈ (s.patch {} today (a.set "a" (.int 8))).keys ↔ id = "total") ∧
      ∀ today', (s.patch {} today' a).keys = [] := by
  intro today start
  have hs : compile true pairFields = .ok (ofConsistent pairFields (by decide)) := rfl
  refine ⟨_, hs, ?_⟩
  intro a
  have hsettled : patch (ofConsistent pairFields (by decide)) {} today a = .empty :=
    patch_eq_empty_iff.2
      (isSettled_apply_patch (ofConsistent pairFields (by decide)) {} today start)
  have hderived : ∀ f ∈ derivedFields (ofConsistent pairFields (by decide)),
      f = .ofNumber "total" (some ⟨["a", "a"], .sum, ""⟩) rfl ∨
      f = .ofNumber "shown" (some ⟨["b"], .concat, ""⟩) rfl := by
    simp [derivedFields, pairFields, Field.isDerived, Field.ofNumber]
  have hdependent := exists_dependent_of_mem_keys_patch _ hsettled
  refine ⟨hsettled, ?_, ?_⟩
  · intro id
    constructor
    · intro hid
      have hedit := hdependent.1 {"a"} (a.set "a" (.int 8)) fun id hid => by
        rw [Answers.get?_set, if_neg (Ne.symm hid)]
      obtain ⟨f, hf, rfl, hedited⟩ := hedit.1 id hid
      rcases hderived f hf with rfl | rfl
      · rfl
      · simp [Field.ofNumber, Field.parents] at hedited
    · rintro rfl
      decide +kernel
  · intro today'
    rw [List.eq_nil_iff_forall_not_mem]
    intro id hid
    obtain ⟨f, hf, -, hage⟩ := hdependent.2.1 today' id hid
    rcases hderived f hf with rfl | rfl <;> simp [Field.ofNumber, Field.HasLogic] at hage

end FormLogic.Schema
