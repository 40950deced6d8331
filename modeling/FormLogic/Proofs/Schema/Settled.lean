import FormLogic.Proofs.Schema.Sync

namespace FormLogic

namespace Schema

/-- A field holds the value that is derived from the answers. -/
def Holds (settings : Settings) (today : Date) (answers : Answers) (f : Field) : Prop :=
  answers.get? f.id = (Derived.ofField? settings today answers f).map .text

variable (s : Schema)

def IsSettled (settings : Settings) (today : Date) (answers : Answers) : Prop :=
  ∀ f ∈ s.derivedFields, Holds settings today answers f

/-- Two answer sets have the same answers under all ids but those of derived fields. -/
def AgreeOnEntered (a b : Answers) : Prop :=
  ∀ id, (∀ f ∈ s.derivedFields, f.id ≠ id) → a.get? id = b.get? id

variable {s} {settings : Settings} {today : Date} {a b c : Answers}

theorem AgreeOnEntered.symm (h : s.AgreeOnEntered a b) : s.AgreeOnEntered b a :=
  fun id hid => (h id hid).symm

theorem AgreeOnEntered.trans (h : s.AgreeOnEntered a b) (h' : s.AgreeOnEntered b c) :
    s.AgreeOnEntered a c :=
  fun id hid => (h id hid).trans (h' id hid)

theorem AgreeOnEntered.ofField?_eq (h : s.AgreeOnEntered a b) {f : Field} (hf : f ∈ s.fields) :
    Derived.ofField? settings today a f = Derived.ofField? settings today b f := by
  refine Derived.ofField?_congr ?_ (fun _ => rfl) (fun _ => rfl)
  intro parent hparent
  exact Answers.get_congr (h parent fun g hg => id_ne_of_mem_parents hf hparent hg)

/-- A settled answer set is determined by the answers that are entered. -/
theorem get?_eq_of_isSettled (h : s.AgreeOnEntered a b) (ha : s.IsSettled settings today a)
    (hb : s.IsSettled settings today b) (id : String) : a.get? id = b.get? id := by
  by_cases hid : ∃ f ∈ s.derivedFields, f.id = id
  · obtain ⟨f, hf, rfl⟩ := hid
    rw [ha f hf, hb f hf, h.ofField?_eq (mem_derivedFields.1 hf).1]
  · exact h id fun f hf hfid => hid ⟨f, hf, hfid⟩

theorem change?_eq_none_iff_holds {f : Field} (hf : f ∈ s.derivedFields) :
    change? settings today a f = none ↔ Holds settings today a f := by
  obtain ⟨text, htext⟩ := Derived.exists_ofField? settings today a (mem_derivedFields.1 hf).2
  rw [change?_eq_none_iff settings today a htext, Holds, htext, Answers.get_eq_text_iff]
  rfl

/-- A pass has nothing to store exactly over a settled answer set. -/
theorem patch_eq_empty_iff : s.patch settings today a = .empty ↔ s.IsSettled settings today a := by
  constructor
  · intro h f hf
    have hpatch := get?_patch_of_mem settings today a s (mem_derivedFields.1 hf).1
    rw [h, Answers.get?_empty, eq_comm, Option.map_eq_none_iff] at hpatch
    exact (change?_eq_none_iff_holds hf).1 hpatch
  · intro h
    have hnone : s.fields.filterMap (change? settings today a) = [] := by
      rw [List.filterMap_eq_nil_iff]
      intro f hf
      cases hderived : f.isDerived with
      | false => exact change?_of_entered settings today a hderived
      | true =>
        have hmem := mem_derivedFields.2 ⟨hf, hderived⟩
        exact (change?_eq_none_iff_holds hmem).2 (h f hmem)
    rw [patch, hnone]
    rfl

theorem agreeOnEntered_apply_patch (s : Schema) (settings : Settings) (today : Date) (a : Answers) :
    s.AgreeOnEntered a (a.apply (s.patch settings today a)) :=
  fun _ hid => (get?_apply_patch_of_entered settings today a s hid).symm

theorem isSettled_apply_patch (s : Schema) (settings : Settings) (today : Date) (a : Answers) :
    s.IsSettled settings today (a.apply (s.patch settings today a)) := by
  intro f hf
  have hchange := change?_apply_patch settings today a s (mem_derivedFields.1 hf).1
  exact (change?_eq_none_iff_holds hf).1 hchange

def refresh (settings : Settings) (today : Date) (answers : Answers) (f : Field) : Answers :=
  answers.set f.id (((Derived.ofField? settings today answers f).map .text).getD .null)

theorem agreeOnEntered_refresh {f : Field} (hf : f ∈ s.derivedFields) :
    s.AgreeOnEntered a (refresh settings today a f) := by
  intro id hid
  rw [refresh, Answers.get?_set, if_neg (hid f hf)]

/-- A write puts a field in order, and leaves those in order that are. -/
theorem holds_refresh {f g : Field} (hf : f ∈ s.derivedFields) (hg : g ∈ s.derivedFields)
    (h : f = g ∨ Holds settings today a f) :
    Holds settings today (refresh settings today a g) f := by
  have hvalue : Derived.ofField? settings today a f =
      Derived.ofField? settings today (refresh settings today a g) f :=
    (agreeOnEntered_refresh hg).ofField?_eq (mem_derivedFields.1 hf).1
  rw [Holds, ← hvalue, refresh, Answers.get?_set]
  split
  · next hid =>
    obtain rfl := eq_of_id_eq s.nodup_ids (mem_derivedFields.1 hg).1 (mem_derivedFields.1 hf).1 hid
    obtain ⟨text, htext⟩ := Derived.exists_ofField? settings today a (mem_derivedFields.1 hg).2
    rw [htext]
    rfl
  · next hid =>
    rcases h with rfl | h
    · exact absurd rfl hid
    · exact h

/-- A run of writes puts every field in order that it chooses, and leaves those in order that
are. -/
theorem holds_foldl_refresh {steps : List Field} (hsteps : ∀ g ∈ steps, g ∈ s.derivedFields)
    {f : Field} (hf : f ∈ s.derivedFields) (h : f ∈ steps ∨ Holds settings today a f) :
    Holds settings today (steps.foldl (refresh settings today) a) f := by
  induction steps generalizing a with
  | nil => exact h.resolve_left List.not_mem_nil
  | cons g steps ih =>
    rw [List.forall_mem_cons] at hsteps
    apply ih hsteps.2
    rcases h with h | h
    · rcases List.mem_cons.1 h with rfl | h
      · exact .inr (holds_refresh hf hsteps.1 (.inl rfl))
      · exact .inl h
    · exact .inr (holds_refresh hf hsteps.1 (.inr h))

theorem agreeOnEntered_foldl_refresh {steps : List Field}
    (hsteps : ∀ g ∈ steps, g ∈ s.derivedFields) :
    s.AgreeOnEntered a (steps.foldl (refresh settings today) a) := by
  induction steps generalizing a with
  | nil => exact fun id _ => rfl
  | cons g steps ih =>
    rw [List.forall_mem_cons] at hsteps
    exact (agreeOnEntered_refresh hsteps.1).trans (ih hsteps.2)

/-- Single writes end as one pass does, in whatever order and how often the derived fields are
chosen, if each of them is chosen at all. What is stored under their ids at the start, and how it
came there, does not matter: the outcome is that of any answer set with the same other answers. -/
theorem get?_foldl_refresh (s : Schema) (settings : Settings) (today : Date) (a : Answers) :
    (∀ steps : List Field, (∀ f ∈ steps, f ∈ s.derivedFields) → (∀ f ∈ s.derivedFields, f ∈ steps) →
      ∀ id, (steps.foldl (refresh settings today) a).get? id =
        (a.apply (s.patch settings today a)).get? id) ∧
    ∀ b, s.AgreeOnEntered a b → ∀ id, (a.apply (s.patch settings today a)).get? id =
      (b.apply (s.patch settings today b)).get? id := by
  have hpass := agreeOnEntered_apply_patch s settings today a
  have hsettled := isSettled_apply_patch s settings today a
  constructor
  · intro steps hsteps hall
    have hrun : s.AgreeOnEntered a (steps.foldl (refresh settings today) a) :=
      agreeOnEntered_foldl_refresh hsteps
    have hholds : s.IsSettled settings today (steps.foldl (refresh settings today) a) :=
      fun f hf => holds_foldl_refresh hsteps hf (.inl (hall f hf))
    exact get?_eq_of_isSettled (hrun.symm.trans hpass) hholds hsettled
  · intro b hb
    have hpass' := agreeOnEntered_apply_patch s settings today b
    exact get?_eq_of_isSettled (hpass.symm.trans (hb.trans hpass')) hsettled
      (isSettled_apply_patch s settings today b)

/-- The derived fields are chosen backwards and once more, and stale answers are of no account. -/
theorem get?_foldl_refresh_pairFields :
    let today : Date :=
      ⟨2024, 2, 29, by decide, by decide, by decide, by decide, by decide, by decide⟩
    let a : Answers := .ofList [("shown", .int 3), ("a", .int 7), ("total", .text "8")]
    let b : Answers := .ofList [("a", .int 7)]
    ∃ s, compile true pairFields = .ok s ∧ ∀ id,
      ((s.derivedFields.reverse ++ s.derivedFields).foldl (refresh {} today) a).get? id =
        (b.apply (s.patch {} today b)).get? id := by
  intro today a b
  have hs : compile true pairFields = .ok (ofConsistent pairFields (by decide)) := rfl
  refine ⟨_, hs, ?_⟩
  intro id
  have hagree : AgreeOnEntered (ofConsistent pairFields (by decide)) a b := by
    intro id hid
    have hshown : "shown" ≠ id := hid (.ofNumber "shown" (some ⟨["b"], .concat, ""⟩) rfl)
      (by simp [derivedFields, pairFields, Field.isDerived, Field.ofNumber])
    have htotal : "total" ≠ id := hid (.ofNumber "total" (some ⟨["a", "a"], .sum, ""⟩) rfl)
      (by simp [derivedFields, pairFields, Field.isDerived, Field.ofNumber])
    simp [a, b, Answers.ofList, Answers.get?_set, hshown, htotal]
  rw [← (get?_foldl_refresh _ {} today a).2 b hagree]
  exact (get?_foldl_refresh _ {} today a).1 _ (by simp) (by simp) id

end Schema
end FormLogic
