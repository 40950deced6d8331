import FormLogic.Schema.Sync
import FormLogic.Proofs.Answers
import FormLogic.Proofs.Derived.Dependence
import FormLogic.Proofs.Schema.Basic

namespace FormLogic

namespace Schema

variable (settings : Settings) (today : Date) (answers : Answers)

theorem change?_eq_some {f : Field} {e : String × Value}
    (h : change? settings today answers f = some e) :
    e.1 = f.id ∧ ∃ s, Derived.ofField? settings today answers f = some s ∧ e.2 = .text s := by
  unfold change? at h
  split at h
  · cases h
  · next s hs =>
    split at h
    · cases h
    · obtain rfl := Option.some.inj h
      exact ⟨rfl, s, hs, rfl⟩

theorem change?_of_entered {f : Field} (h : f.isDerived = false) :
    change? settings today answers f = none := by
  unfold change? Derived.ofField?
  rw [Field.derivation_eq_none h]
  rfl

/-- A pass has nothing to change exactly where the derived value is stored. -/
theorem change?_eq_none_iff {f : Field} {s : String}
    (hs : Derived.ofField? settings today answers f = some s) :
    change? settings today answers f = none ↔ answers.get f.id = .text s := by
  unfold change?
  rw [hs]
  cases hv : answers.get f.id with
  | text t => simp [Value.isText]
  | _ => simp [Value.isText]

theorem map_fst_filterMap_sublist {change : Field → Option (String × Value)}
    (hchange : ∀ f e, change f = some e → e.1 = f.id) (fields : List Field) :
    ((fields.filterMap change).map Prod.fst).Sublist (fields.map Field.id) := by
  induction fields with
  | nil => exact List.Sublist.slnil
  | cons f fields ih =>
    cases hf : change f with
    | none =>
      rw [List.filterMap_cons_none hf]
      exact ih.cons f.id
    | some e =>
      rw [List.filterMap_cons_some hf, List.map_cons, List.map_cons, hchange f e hf]
      exact ih.cons_cons f.id

theorem lookup?_filterMap {change : Field → Option (String × Value)}
    (hchange : ∀ f e, change f = some e → e.1 = f.id) {fields : List Field}
    (hnodup : (fields.map Field.id).Nodup) {f : Field} (hf : f ∈ fields) :
    lookup? f.id (fields.filterMap change) = (change f).map Prod.snd := by
  induction fields with
  | nil => cases hf
  | cons g fields ih =>
    rw [List.map_cons, List.nodup_cons] at hnodup
    have hsublist := map_fst_filterMap_sublist hchange fields
    rcases List.mem_cons.1 hf with rfl | hf
    -- no later change is under this id, which is used once
    · have hnone : lookup? f.id (fields.filterMap change) = none :=
        lookup?_eq_none_iff.2 fun hmem => hnodup.1 (hsublist.subset hmem)
      cases hg : change f with
      | none => rw [List.filterMap_cons_none hg, hnone]; rfl
      | some e =>
        obtain ⟨id, v⟩ := e
        rw [List.filterMap_cons_some hg, lookup?, if_pos (hchange f _ hg)]
        rfl
    · have hne : g.id ≠ f.id := by
        intro hid
        exact hnodup.1 (hid ▸ List.mem_map_of_mem hf)
      cases hg : change g with
      | none => rw [List.filterMap_cons_none hg, ih hnodup.2 hf]
      | some e =>
        obtain ⟨id, v⟩ := e
        obtain rfl : id = g.id := hchange g _ hg
        rw [List.filterMap_cons_some hg, lookup?, if_neg hne, ih hnodup.2 hf]

variable (s : Schema)

theorem get?_patch (id : String) :
    (s.patch settings today answers).get? id =
      lookup? id (s.fields.filterMap (change? settings today answers)) := by
  have hchange : ∀ f e, change? settings today answers f = some e → e.1 = f.id :=
    fun f e he => (change?_eq_some settings today answers he).1
  exact Answers.get?_ofList (s.nodup_ids.sublist (map_fst_filterMap_sublist hchange s.fields)) id

/-- The patch of a pass has the change of each field under its id. -/
theorem get?_patch_of_mem {f : Field} (hf : f ∈ s.fields) :
    (s.patch settings today answers).get? f.id =
      (change? settings today answers f).map Prod.snd := by
  rw [get?_patch]
  exact lookup?_filterMap (fun f e he => (change?_eq_some settings today answers he).1)
    s.nodup_ids hf

theorem get?_patch_eq_none {id : String} (h : ∀ f ∈ s.derivedFields, f.id ≠ id) :
    (s.patch settings today answers).get? id = none := by
  rw [get?_patch, lookup?_eq_none_iff]
  intro hmem
  obtain ⟨e, he, rfl⟩ := List.mem_map.1 hmem
  obtain ⟨f, hf, hchange⟩ := List.mem_filterMap.1 he
  have hderived : f.isDerived = true := by
    by_contra hentered
    rw [change?_of_entered settings today answers (by simpa using hentered)] at hchange
    cases hchange
  refine h f (mem_derivedFields.2 ⟨hf, hderived⟩) ?_
  exact (change?_eq_some settings today answers hchange).1.symm

theorem get?_apply_patch {f : Field} (hf : f ∈ s.fields) :
    (answers.apply (s.patch settings today answers)).get? f.id =
      ((change? settings today answers f).map Prod.snd).or (answers.get? f.id) := by
  rw [Answers.get?_apply, get?_patch_of_mem settings today answers s hf]

/-- A pass leaves everything as it is that is not the answer to a derived field. -/
theorem get?_apply_patch_of_entered {id : String} (h : ∀ f ∈ s.derivedFields, f.id ≠ id) :
    (answers.apply (s.patch settings today answers)).get? id = answers.get? id := by
  rw [Answers.get?_apply, get?_patch_eq_none settings today answers s h, Option.none_or]

theorem get_apply_patch_of_derived {f : Field} (hf : f ∈ s.fields) {text : String}
    (h : Derived.ofField? settings today answers f = some text) :
    (answers.apply (s.patch settings today answers)).get f.id = .text text := by
  rw [Answers.get, get?_apply_patch settings today answers s hf]
  cases hchange : change? settings today answers f with
  | none => exact (change?_eq_none_iff settings today answers h).1 hchange
  | some e =>
    obtain ⟨-, text', h', hvalue⟩ := change?_eq_some settings today answers hchange
    rw [h] at h'
    rw [Option.some.inj h']
    exact hvalue

/-- A pass does not change what any field derives its value from. -/
theorem ofField?_apply_patch {f : Field} (hf : f ∈ s.fields) :
    Derived.ofField? settings today (answers.apply (s.patch settings today answers)) f =
      Derived.ofField? settings today answers f := by
  refine Derived.ofField?_congr ?_ (fun _ => rfl) (fun _ => rfl)
  -- parents are entered, so the patch has nothing under their ids
  intro parent hparent
  apply Answers.get_congr
  exact get?_apply_patch_of_entered settings today answers s fun g =>
    id_ne_of_mem_parents hf hparent

theorem change?_apply_patch {f : Field} (hf : f ∈ s.fields) :
    change? settings today (answers.apply (s.patch settings today answers)) f = none := by
  have hvalue := ofField?_apply_patch settings today answers s hf
  cases hderived : Derived.ofField? settings today answers f with
  | none =>
    rw [hderived] at hvalue
    unfold change?
    rw [hvalue]
  | some text =>
    rw [hderived] at hvalue
    rw [change?_eq_none_iff settings today _ hvalue]
    exact get_apply_patch_of_derived settings today answers s hf hderived

/-- One pass settles: over the answers that it leaves, a second one has nothing to change, and
every derived field holds its value. -/
theorem patch_settles {strict : Bool} {fields : List Field} {s : Schema}
    (hs : compile strict fields = .ok s) :
    s.patch settings today (answers.apply (s.patch settings today answers)) = .empty ∧
    ∀ f ∈ fields, ∀ text, Derived.ofField? settings today answers f = some text →
      (answers.apply (s.patch settings today answers)).get f.id = .text text := by
  constructor
  · have hnone : s.fields.filterMap
        (change? settings today (answers.apply (s.patch settings today answers))) = [] := by
      rw [List.filterMap_eq_nil_iff]
      intro f hf
      exact change?_apply_patch settings today answers s hf
    rw [patch, hnone]
    rfl
  · intro f hf text htext
    rw [← fields_of_compile hs] at hf
    exact get_apply_patch_of_derived settings today answers s hf htext

def sumFields : List Field :=
  [.ofNumber "a" none rfl, .ofNumber "total" (some ⟨["a"], .sum, ""⟩) rfl]

/-- The stored sum is out of date, and one pass sets it right. -/
theorem patch_settles_sumFields :
    let today : Date :=
      ⟨2024, 2, 29, by decide, by decide, by decide, by decide, by decide, by decide⟩
    let answers : Answers := .ofList [("a", .int 7), ("total", .text "8")]
    ∃ s, compile true sumFields = .ok s ∧
      s.patch {} today (answers.apply (s.patch {} today answers)) = .empty := by
  intro today answers
  have hs : compile true sumFields = .ok (ofConsistent sumFields (by decide)) := rfl
  exact ⟨_, hs, (patch_settles {} today answers hs).1⟩

def pairFields : List Field :=
  [.ofNumber "a" none rfl, .ofNumber "b" none rfl,
    .ofNumber "total" (some ⟨["a", "a"], .sum, ""⟩) rfl,
    .ofNumber "shown" (some ⟨["b"], .concat, ""⟩) rfl]

end Schema
end FormLogic
