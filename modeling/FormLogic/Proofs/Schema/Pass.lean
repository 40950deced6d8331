import FormLogic.Proofs.Schema.Settled

namespace FormLogic

/-- The items that a partial map keeps, beside what it maps them to. -/
theorem forall₂_filter_filterMap {α β : Type} (f : α → Option β) (as : List α) :
    List.Forall₂ (fun a b => f a = some b) (as.filter fun a => (f a).isSome) (as.filterMap f) := by
  induction as with
  | nil => exact .nil
  | cons a as ih =>
    cases ha : f a with
    | none =>
      rw [List.filter_cons_of_neg (by simp [ha]), List.filterMap_cons_none ha]
      exact ih
    | some b =>
      rw [List.filter_cons_of_pos (by simp [ha]), List.filterMap_cons_some ha]
      exact .cons ha ih

namespace Schema

variable (s : Schema) (settings : Settings) (today : Date) (answers : Answers)

theorem entries_patch : (s.patch settings today answers).entries =
    s.fields.filterMap (change? settings today answers) := by
  apply Answers.entries_ofList
  exact s.nodup_ids.sublist
    (map_fst_filterMap_sublist (fun _ _ h => (change?_eq_some settings today answers h).1) s.fields)

def changed : List Field := s.fields.filter fun f => (change? settings today answers f).isSome

theorem changed_sublist : (s.changed settings today answers).Sublist s.derivedFields := by
  have hderived : (s.changed settings today answers).filter (·.isDerived) =
      s.changed settings today answers := by
    rw [List.filter_eq_self]
    intro f hf
    by_contra hentered
    have hnone := change?_of_entered settings today answers (by simpa using hentered)
    rw [changed, List.mem_filter, hnone] at hf
    cases hf.2
  rw [← hderived]
  exact List.filter_sublist.filter _

theorem mem_changed_iff {f : Field} (hf : f ∈ s.derivedFields) :
    f ∈ s.changed settings today answers ↔ ¬Holds settings today answers f := by
  rw [changed, List.mem_filter, ← change?_eq_none_iff_holds hf, Option.isSome_iff_ne_none]
  exact and_iff_right (mem_derivedFields.1 hf).1

variable (patch : Answers)

/-- To store the writes of a patch is to apply it. -/
theorem foldl_write_writes : (writes patch).foldl Answers.write answers = answers.apply patch := by
  rw [writes, List.foldl_map]
  rfl

/-- A writer that keeps a record stores what one without does, and has put all writes down. -/
theorem foldl_record (ws : List Write) (done : List Write × Answers) :
    ws.foldl Answers.record done = (done.1 ++ ws, ws.foldl Answers.write done.2) := by
  induction ws generalizing done with
  | nil => simp
  | cons w ws ih =>
    rw [List.foldl_cons, ih, Answers.record, List.append_assoc]
    rfl

/-- The patch of a pass has exactly the derived fields whose values differ from the stored answers,
in the order of the fields, each with the value that it has over the answers as they were; that
nothing is stored differs from an empty text. A pass makes one silent write for each entry of its
patch, in that order. A writer that stores what it is given ends with the patch applied: the
answers outside of the patch stay, the ids that were there keep their positions, and the new ones
follow in the order of the patch. -/
theorem patch_and_writes (s : Schema) (settings : Settings) (today : Date) (answers : Answers) :
    let patch := s.patch settings today answers
    let calls := patch.entries.map fun e => Write.mk e.1 e.2 false false false
    (∃ fields : List Field, fields.Sublist s.derivedFields ∧
      List.Forall₂ (fun f e => e.1 = f.id ∧
        ∃ text, Derived.ofField? settings today answers f = some text ∧ e.2 = .text text)
        fields patch.entries ∧
      ∀ f ∈ s.derivedFields, f ∈ fields ↔ ∃ text,
        Derived.ofField? settings today answers f = some text ∧
        answers.get? f.id ≠ some (.text text)) ∧
    (∀ {σ : Type} (write : σ → Write → σ) (writer : σ),
      s.sync settings today answers write writer = (calls.foldl write writer, patch)) ∧
    s.sync settings today answers Answers.record ([], answers) =
      ((calls, answers.apply patch), patch) ∧
    (∀ id, (answers.apply patch).get? id =
      if id ∈ patch.keys then patch.get? id else answers.get? id) ∧
    (answers.apply patch).keys = answers.keys ++ patch.keys.filter (· ∉ answers.keys) := by
  intro patch calls
  have hcalls : writes patch = calls := rfl
  refine ⟨⟨s.changed settings today answers, ?sublist, ?values, ?differs⟩, ?writer, ?record, ?get,
    Answers.keys_apply answers patch⟩
  case sublist => exact s.changed_sublist settings today answers
  case values =>
    rw [s.entries_patch settings today answers]
    exact (forall₂_filter_filterMap (change? settings today answers) s.fields).imp
      fun f e h => change?_eq_some settings today answers h
  case differs =>
    intro f hf
    obtain ⟨text, htext⟩ :=
      Derived.exists_ofField? settings today answers (mem_derivedFields.1 hf).2
    rw [mem_changed_iff s settings today answers hf, Holds, htext]
    simp
  case writer =>
    intro σ write writer
    rfl
  case record =>
    rw [sync, foldl_record, foldl_write_writes, hcalls]
    rfl
  case get =>
    intro id
    rw [Answers.get?_apply]
    split
    · next hid =>
      obtain ⟨v, hv⟩ := Option.ne_none_iff_exists'.1 (Answers.mem_keys_iff.1 hid)
      rw [hv, Option.some_or]
    · next hid =>
      rw [Answers.mem_keys_iff, not_not] at hid
      rw [hid, Option.none_or]

end Schema
end FormLogic
