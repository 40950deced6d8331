import FormLogic.Answers
import FormLogic.Proofs.Keyed

namespace FormLogic

theorem lookup?_eq_none_iff {key : String} {entries : List (String × Value)} :
    lookup? key entries = none ↔ key ∉ entries.map Prod.fst := by
  induction entries with
  | nil => simp [lookup?]
  | cons e entries ih =>
    rw [lookup?, List.map_cons, List.mem_cons, not_or, ← ih]
    by_cases hkey : e.1 = key
    · simp [hkey]
    · simp [hkey, Ne.symm hkey]

theorem lookup?_eq_find? (key : String) (entries : List (String × Value)) :
    lookup? key entries = (entries.find? (·.1 == key)).map Prod.snd := by
  induction entries with
  | nil => rfl
  | cons e entries ih =>
    rw [lookup?, List.find?_cons]
    by_cases hkey : e.1 = key
    · simp [hkey]
    · have hbeq : (e.1 == key) = false := beq_false_of_ne hkey
      simp [hkey, hbeq, ih]

theorem lookup?_of_mem {entries : List (String × Value)} (h : (entries.map Prod.fst).Nodup)
    {e : String × Value} (he : e ∈ entries) : lookup? e.1 entries = some e.2 := by
  rw [lookup?_eq_find?, (find?_key_eq_some_iff h).2 ⟨he, rfl⟩, Option.map_some]

theorem lookup?_of_perm {es es' : List (String × Value)} (h : (es.map Prod.fst).Nodup)
    (hperm : es.Perm es') (key : String) : lookup? key es = lookup? key es' := by
  have h' : (es'.map Prod.fst).Nodup := (hperm.map Prod.fst).nodup_iff.1 h
  rw [lookup?_eq_find?, lookup?_eq_find?, find?_key_congr h h' (fun e => hperm.mem_iff)]

theorem setEntry_of_not_mem {key : String} {entries : List (String × Value)}
    (h : key ∉ entries.map Prod.fst) (v : Value) :
    setEntry key v entries = entries ++ [(key, v)] := by
  induction entries with
  | nil => rfl
  | cons e entries ih =>
    rw [List.map_cons, List.mem_cons, not_or] at h
    rw [setEntry, if_neg (Ne.symm h.1), ih h.2, List.cons_append]

theorem setEntry_of_mem {key : String} {entries : List (String × Value)}
    (hnodup : (entries.map Prod.fst).Nodup) (h : key ∈ entries.map Prod.fst) (v : Value) :
    setEntry key v entries = entries.map fun e => (e.1, if e.1 = key then v else e.2) := by
  induction entries with
  | nil => cases h
  | cons e entries ih =>
    obtain ⟨k, w⟩ := e
    rw [List.map_cons, List.nodup_cons] at hnodup
    by_cases hk : k = key
    -- the key is used once, so the entries behind it stay
    · subst hk
      have hrest : entries.map (fun e => (e.1, if e.1 = k then v else e.2)) = entries := by
        conv_rhs => rw [← List.map_id entries]
        apply List.map_congr_left
        intro e he
        have hne : e.1 ≠ k := by
          rintro rfl
          exact hnodup.1 (List.mem_map.2 ⟨e, he, rfl⟩)
        simp [hne]
      rw [setEntry, if_pos rfl, List.map_cons, if_pos rfl, hrest]
    · rw [setEntry, if_neg hk, List.map_cons, if_neg hk,
        ih hnodup.2 ((List.mem_cons.1 h).resolve_left (Ne.symm hk))]

namespace Answers

theorem mem_keys_iff {a : Answers} {id : String} : id ∈ a.keys ↔ a.get? id ≠ none := by
  rw [get?, ne_eq, lookup?_eq_none_iff, Decidable.not_not, keys]

theorem get_congr {a b : Answers} {id : String} (h : a.get? id = b.get? id) :
    a.get id = b.get id := by
  rw [get, get, h]

theorem get_eq_text_iff {a : Answers} {id text : String} :
    a.get id = .text text ↔ a.get? id = some (.text text) := by
  unfold get
  cases a.get? id <;> simp

theorem get_set (a : Answers) (id id' : String) (v : Value) :
    (a.set id v).get id' = if id = id' then v else a.get id' := by
  rw [get, get?_set]
  split <;> rfl

/-- Stored pairs come before what was there, if no key is stored twice. -/
theorem get?_setAll (a : Answers) {ps : List (String × Value)} (h : (ps.map Prod.fst).Nodup)
    (id : String) : (a.setAll ps).get? id = (lookup? id ps).or (a.get? id) := by
  induction ps generalizing a with
  | nil => rfl
  | cons p ps ih =>
    obtain ⟨key, v⟩ := p
    rw [List.map_cons, List.nodup_cons] at h
    rw [setAll_cons, ih _ h.2, get?_set, lookup?]
    by_cases hkey : key = id
    · subst hkey
      rw [lookup?_eq_none_iff.2 h.1, if_pos rfl, if_pos rfl]
      rfl
    · rw [if_neg hkey, if_neg hkey]

theorem get?_ofList {ps : List (String × Value)} (h : (ps.map Prod.fst).Nodup) (id : String) :
    (ofList ps).get? id = lookup? id ps := by
  rw [ofList, get?_setAll empty h, get?_empty, Option.or_none]

theorem entries_set_of_mem {a : Answers} {id : String} (h : id ∈ a.keys) (v : Value) :
    (a.set id v).entries = a.entries.map fun e => (e.1, if e.1 = id then v else e.2) :=
  setEntry_of_mem a.nodup h v

theorem entries_set_of_not_mem {a : Answers} {id : String} (h : id ∉ a.keys) (v : Value) :
    (a.set id v).entries = a.entries ++ [(id, v)] :=
  setEntry_of_not_mem h v

/-- Stored pairs change the values of the ids that are present, and the others are appended. -/
theorem entries_setAll (a : Answers) {ps : List (String × Value)} (h : (ps.map Prod.fst).Nodup) :
    (a.setAll ps).entries = a.entries.map (fun e => (e.1, (lookup? e.1 ps).getD e.2)) ++
      ps.filter (·.1 ∉ a.keys) := by
  induction ps generalizing a with
  | nil => simp [lookup?]
  | cons p ps ih =>
    obtain ⟨id, v⟩ := p
    rw [List.map_cons, List.nodup_cons] at h
    have hnone : lookup? id ps = none := lookup?_eq_none_iff.2 h.1
    rw [setAll_cons, ih _ h.2]
    by_cases hid : id ∈ a.keys
    · have hkeys : (a.set id v).keys = a.keys := by
        rw [keys, entries_set_of_mem hid, List.map_map]
        rfl
      rw [hkeys, entries_set_of_mem hid, List.map_map, List.filter_cons_of_neg (by simpa using hid)]
      congr 1
      apply List.map_congr_left
      intro e _
      by_cases he : e.1 = id
      · simp [lookup?, he, hnone]
      · simp [lookup?, he, Ne.symm he]
    · have hkeys : (a.set id v).keys = a.keys ++ [id] := by
        rw [keys, entries_set_of_not_mem hid, List.map_append]
        rfl
      have hold : ∀ e ∈ a.entries, e.1 ≠ id := by
        rintro e he rfl
        exact hid (List.mem_map_of_mem he)
      have hnew : ∀ p ∈ ps, p.1 ≠ id := by
        rintro p hp rfl
        exact h.1 (List.mem_map.2 ⟨p, hp, rfl⟩)
      rw [hkeys, entries_set_of_not_mem hid, List.map_append, List.append_assoc,
        List.filter_cons_of_pos (by simpa using hid)]
      congr 1
      · apply List.map_congr_left
        intro e he
        simp [lookup?, Ne.symm (hold e he)]
      · rw [List.map_singleton, hnone, Option.getD_none, List.singleton_append]
        congr 1
        apply List.filter_congr
        intro p hp
        simp [hnew p hp]

theorem entries_ofList {ps : List (String × Value)} (h : (ps.map Prod.fst).Nodup) :
    (ofList ps).entries = ps := by
  rw [ofList, entries_setAll empty h]
  simp [empty, keys]

/-- Under a patch the ids that were there keep their positions, and new ones are appended. -/
theorem keys_apply (a patch : Answers) :
    (a.apply patch).keys = a.keys ++ patch.keys.filter (· ∉ a.keys) := by
  rw [keys, apply, entries_setAll a patch.nodup, List.map_append, List.map_map, keys, keys,
    List.filter_map]
  rfl

/-- A patch comes before what was there. -/
theorem get?_apply (a patch : Answers) (id : String) :
    (a.apply patch).get? id = (patch.get? id).or (a.get? id) :=
  get?_setAll a patch.nodup id

end Answers
end FormLogic
