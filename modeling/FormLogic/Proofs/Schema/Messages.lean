import FormLogic.Proofs.Schema.Report
import Mathlib.Algebra.BigOperators.Group.List.Lemmas

namespace FormLogic

section
variable {α : Type} [DecidableEq α]

/-- The first occurrence of one value stands in front of that of another. -/
def OccursBefore (as : List α) (a b : α) : Prop := as.idxOf a < as.idxOf b

theorem OccursBefore.append {as : List α} {a b : α} (h : OccursBefore as a b) (ha : a ∈ as)
    (hb : b ∈ as) (bs : List α) : OccursBefore (as ++ bs) a b := by
  rwa [OccursBefore, List.idxOf_append_of_mem ha, List.idxOf_append_of_mem hb]

theorem occursBefore_append_singleton {as : List α} {a b : α} (ha : a ∈ as) (hb : b ∉ as) :
    OccursBefore (as ++ [b]) a b :=
  calc (as ++ [b]).idxOf a = as.idxOf a := List.idxOf_append_of_mem ha
    _ < as.length := List.idxOf_lt_length_of_mem ha
    _ ≤ (as ++ [b]).idxOf b := by
      rw [List.idxOf_append_of_notMem hb]
      exact Nat.le_add_right _ _

theorem eraseDups_append_singleton (as : List α) (a : α) :
    (as ++ [a]).eraseDups = if a ∈ as then as.eraseDups else as.eraseDups ++ [a] := by
  rw [List.eraseDups_append]
  by_cases h : a ∈ as <;> simp [List.removeAll, List.eraseDups_cons, h]

/-- What is left when repetitions are dropped stands in the order of the first occurrences. -/
theorem pairwise_occursBefore_eraseDups (as : List α) :
    as.eraseDups.Pairwise (OccursBefore as) := by
  induction as using List.reverseRecOn with
  | nil => exact .nil
  | append_singleton as a ih =>
    have hbefore : as.eraseDups.Pairwise (OccursBefore (as ++ [a])) :=
      ih.imp_of_mem fun hb hc h =>
        h.append (List.mem_eraseDups.1 hb) (List.mem_eraseDups.1 hc) [a]
    rw [eraseDups_append_singleton]
    split
    · exact hbefore
    · next hnew =>
      refine List.pairwise_append.2 ⟨hbefore, List.pairwise_singleton _ a, ?_⟩
      intro b hb c hc
      obtain rfl := List.mem_singleton.1 hc
      exact occursBefore_append_singleton (List.mem_eraseDups.1 hb) hnew

theorem nodup_eraseDups (as : List α) : as.eraseDups.Nodup := by
  refine (pairwise_occursBefore_eraseDups as).imp ?_
  rintro a _ hbefore rfl
  exact lt_irrefl _ hbefore

/-- Counted once under every value that occurs, everything is counted. -/
theorem sum_count_eraseDups (as : List α) : (as.eraseDups.map (as.count ·)).sum = as.length := by
  have hperm : as.eraseDups.Perm as.dedup := by
    rw [List.perm_ext_iff_of_nodup (nodup_eraseDups as) as.nodup_dedup]
    intro a
    rw [List.mem_eraseDups, List.mem_dedup]
  rw [(hperm.map _).sum_eq, List.sum_map_count_dedup_eq_length]

end

theorem addMessage_map (key message : String) {keys : List String} (hkeys : keys.Nodup)
    {messages : String → List String} (hnew : key ∉ keys → messages key = []) :
    addMessage key message (keys.map fun k => (k, messages k)) =
      (if key ∈ keys then keys else keys ++ [key]).map fun k =>
        (k, if k = key then messages k ++ [message] else messages k) := by
  induction keys with
  | nil => simp [addMessage, hnew]
  | cons k keys ih =>
    rw [List.nodup_cons] at hkeys
    rw [List.map_cons, addMessage]
    by_cases hk : k = key
    -- the key is not among those behind it
    · subst hk
      have hrest : ∀ k' ∈ keys, k' ≠ k := fun k' hk' heq => hkeys.1 (heq ▸ hk')
      rw [if_pos rfl, if_pos List.mem_cons_self, List.map_cons, if_pos rfl]
      congr 1
      apply List.map_congr_left
      intro k' hk'
      rw [if_neg (hrest k' hk')]
    · have hmem : key ∈ k :: keys ↔ key ∈ keys := by simp [Ne.symm hk]
      rw [if_neg hk, ih hkeys.2 fun h => hnew (mt hmem.1 h)]
      by_cases h : key ∈ keys <;> simp [hk, hmem, h]

namespace Report

def messagesOf (errors : List FieldError) (id : String) : List String :=
  (errors.filter (·.fieldId == id)).map FieldError.message

theorem messagesOf_append_singleton (errors : List FieldError) (e : FieldError) (id : String) :
    messagesOf (errors ++ [e]) id =
      if id = e.fieldId then messagesOf errors id ++ [e.message] else messagesOf errors id := by
  rw [messagesOf, List.filter_append, List.map_append]
  by_cases h : id = e.fieldId
  · simp [messagesOf, h]
  · simp [messagesOf, h, Ne.symm h]

theorem length_messagesOf (errors : List FieldError) (id : String) :
    (messagesOf errors id).length = (errors.map FieldError.fieldId).count id := by
  rw [messagesOf, List.length_map, List.count, List.countP_map, List.countP_eq_length_filter]
  rfl

theorem messagesOf_eq_nil_iff (errors : List FieldError) (id : String) :
    messagesOf errors id = [] ↔ id ∉ errors.map FieldError.fieldId := by
  rw [← List.length_eq_zero_iff, length_messagesOf, List.count_eq_zero]

/-- The messages of every field that is in error, in the order of the first errors. -/
def groups (errors : List FieldError) : List (String × List String) :=
  (errors.map FieldError.fieldId).eraseDups.map fun id => (id, messagesOf errors id)

/-- One more error adds its message to the groups. -/
theorem addMessage_groups (errors : List FieldError) (e : FieldError) :
    addMessage e.fieldId e.message (groups errors) = groups (errors ++ [e]) := by
  have hnew : e.fieldId ∉ (errors.map FieldError.fieldId).eraseDups →
      messagesOf errors e.fieldId = [] := by
    rw [List.mem_eraseDups, messagesOf_eq_nil_iff]
    exact id
  rw [groups, addMessage_map _ _ (nodup_eraseDups _) hnew, groups, List.map_append,
    List.map_singleton, eraseDups_append_singleton]
  simp only [List.mem_eraseDups, messagesOf_append_singleton]

theorem foldl_addMessage (errors : List FieldError) :
    errors.foldl (fun entries e => addMessage e.fieldId e.message entries) [] = groups errors := by
  induction errors using List.reverseRecOn with
  | nil => rfl
  | append_singleton errors e ih =>
    rw [List.foldl_append, ih, List.foldl_cons, List.foldl_nil, addMessage_groups]

/-- Every field in error has the messages of its errors. -/
theorem messagesByField_eq (r : Report) :
    r.messagesByField = (r.errors.map FieldError.fieldId).eraseDups.map fun id =>
      (id, (r.fieldErrors id).map FieldError.message) :=
  foldl_addMessage r.errors

theorem map_fst_messagesByField (r : Report) :
    r.messagesByField.map Prod.fst = (r.errors.map FieldError.fieldId).eraseDups := by
  rw [messagesByField_eq, List.map_map]
  exact List.map_id _

/-- No error is lost, and none is told of twice. -/
theorem sum_length_messagesByField (r : Report) :
    (r.messagesByField.map fun entry => entry.2.length).sum = r.errorCount := by
  have hlengths : (r.messagesByField.map fun entry => entry.2.length) =
      (r.errors.map FieldError.fieldId).eraseDups.map
        ((r.errors.map FieldError.fieldId).count ·) := by
    rw [messagesByField_eq, List.map_map]
    exact List.map_congr_left fun id _ => length_messagesOf r.errors id
  rw [hlengths, sum_count_eraseDups, List.length_map, errorCount]

theorem length_of_mem_messagesByField {r : Report}
    (hids : (r.errors.map FieldError.fieldId).Nodup) {entry : String × List String}
    (hentry : entry ∈ r.messagesByField) : entry.2.length = 1 := by
  rw [messagesByField_eq] at hentry
  obtain ⟨id, hid, rfl⟩ := List.mem_map.1 hentry
  calc (messagesOf r.errors id).length = (r.errors.map FieldError.fieldId).count id :=
        length_messagesOf r.errors id
    _ = 1 := List.count_eq_one_of_mem hids (List.mem_eraseDups.1 hid)

theorem fieldErrors_ne_nil_iff (r : Report) (id : String) :
    r.fieldErrors id ≠ [] ↔ id ∈ r.errors.map FieldError.fieldId := by
  rw [← not_iff_not, ← messagesOf_eq_nil_iff, messagesOf, List.map_eq_nil_iff, not_not]
  rfl

/-- The two views of the errors of a report agree. The messages by field are kept under the ids that
have errors, each with the messages of its errors in their order; the ids come in the order of their
first errors, and every error is counted once. In the report on an answer set every id that has
messages has one alone. -/
theorem messagesByField_agrees (r : Report) :
    (∀ id, id ∈ r.messagesByField.map Prod.fst ↔ r.fieldErrors id ≠ []) ∧
    (∀ id messages, (id, messages) ∈ r.messagesByField →
      messages = (r.fieldErrors id).map FieldError.message) ∧
    (r.messagesByField.map Prod.fst).Pairwise (OccursBefore (r.errors.map FieldError.fieldId)) ∧
    (r.messagesByField.map fun entry => entry.2.length).sum = r.errorCount ∧
    ∀ (s : Schema) (answers : Answers), s.report answers = .ok r →
      ∀ entry ∈ r.messagesByField, entry.2.length = 1 := by
  refine ⟨?_, ?_, ?_, ?_, ?_⟩
  · intro id
    rw [map_fst_messagesByField, List.mem_eraseDups, fieldErrors_ne_nil_iff]
  · intro id messages hentry
    rw [messagesByField_eq] at hentry
    obtain ⟨id', -, heq⟩ := List.mem_map.1 hentry
    cases heq
    rfl
  · rw [map_fst_messagesByField]
    exact pairwise_occursBefore_eraseDups _
  · exact r.sum_length_messagesByField
  · intro s answers h entry hentry
    exact length_of_mem_messagesByField (Schema.nodup_fieldId_errors h) hentry

def sizeFields : List Field :=
  [{ Field.ofNumber "width" none rfl with required := true },
    { Field.ofNumber "height" none rfl with required := true }]

theorem messagesByField_agrees_sizeFields :
    ∃ s r, Schema.compile true sizeFields = .ok s ∧ s.report .empty = .ok r ∧
      r.messagesByField.map Prod.fst = ["width", "height"] ∧
      ∀ entry ∈ r.messagesByField, entry.2.length = 1 := by
  have hs : Schema.compile true sizeFields = .ok (Schema.ofConsistent sizeFields (by decide)) := rfl
  obtain ⟨r, hr⟩ :
      ∃ r, Schema.report (Schema.ofConsistent sizeFields (by decide)) .empty = .ok r := ⟨_, rfl⟩
  refine ⟨_, r, hs, hr, ?_, (messagesByField_agrees r).2.2.2.2 _ _ hr⟩
  cases hr
  rfl

/-- Errors of one field that others stand between. -/
example :
    messagesByField
      ⟨false,
        [⟨"email", "email", "Invalid email format", .text "jane"⟩,
          ⟨"age", "min", "Must be at least 18", .int 7⟩,
          ⟨"email", "required", "Email is required", .text "jane"⟩], none, []⟩ =
      [("email", ["Invalid email format", "Email is required"]),
        ("age", ["Must be at least 18"])] :=
  rfl

end Report
end FormLogic
