import FormLogic.Definition.Reader
import FormLogic.Proofs.Calendar.Timestamp

namespace FormLogic

namespace Key

variable {k : Key} {entries : List (String × Value)}

theorem find?_eq_none_iff :
    k.find? entries = none ↔ ∀ s ∈ k.accepted, lookup? s entries = none := by
  simp [find?, List.findSome?_eq_none_iff]

theorem find?_cons_of_not_mem {e : String × Value} (h : e.1 ∉ k.accepted) :
    k.find? (e :: entries) = k.find? entries := by
  have hskip : ∀ s ∈ k.accepted, lookup? s (e :: entries) = lookup? s entries :=
    fun s hs => if_neg (ne_of_mem_of_not_mem hs h).symm
  rw [find?, find?]
  generalize k.accepted = names at hskip
  induction names with
  | nil => rfl
  | cons s names ih =>
    rw [List.forall_mem_cons] at hskip
    rw [List.findSome?_cons, List.findSome?_cons, hskip.1, ih hskip.2]

theorem find?_cons_of_mem {e : String × Value} (h : e.1 ∈ k.accepted)
    (hrest : k.find? entries = none) : k.find? (e :: entries) = some e := by
  rw [find?_eq_none_iff] at hrest
  cases hfound : k.find? (e :: entries) with
  | none =>
    have hnone := find?_eq_none_iff.1 hfound e.1 h
    rw [lookup?, if_pos rfl] at hnone
    cases hnone
  | some found =>
    obtain ⟨s, hs, hlookup⟩ := List.exists_of_findSome?_eq_some hfound
    rw [lookup?, hrest s hs] at hlookup
    split at hlookup
    · next hname =>
      subst hname
      exact hlookup.symm
    · cases hlookup

theorem find?_eq_none (h : ∀ e ∈ entries, e.1 ∉ k.accepted) : k.find? entries = none := by
  induction entries with
  | nil => exact find?_eq_none_iff.2 fun _ _ => rfl
  | cons e entries ih =>
    rw [List.forall_mem_cons] at h
    rw [find?_cons_of_not_mem h.1, ih h.2]

/-- Keys whose entries can stand in one object: both names of each are looked up for it, and no
name is looked up for two of them. -/
structure Apart (ks : List Key) : Prop where
  names : ∀ k ∈ ks, k.name ∈ k.accepted ∧ k.outside ∈ k.accepted
  disjoint : ks.Pairwise fun k k' => ∀ s ∈ k.accepted, s ∉ k'.accepted

theorem Apart.spelled_mem {ks : List Key} (h : Apart ks) (hk : k ∈ ks) (spelling : Spelling) :
    k.spelled spelling ∈ k.accepted := by
  cases spelling with
  | byName => exact (h.names k hk).1
  | byAlias => exact (h.names k hk).2

theorem Apart.tail {ks : List Key} (h : Apart (k :: ks)) : Apart ks :=
  ⟨fun k hk => h.names k (List.mem_cons_of_mem _ hk), (List.pairwise_cons.1 h.disjoint).2⟩

def written (spelling : Spelling) (parts : List (Key × Option Value)) : List (String × Value) :=
  parts.filterMap fun p => p.2.map (p.1.spelled spelling, ·)

theorem written_cons (spelling : Spelling) (p : Key × Option Value)
    (parts : List (Key × Option Value)) :
    written spelling (p :: parts) =
      match p.2 with
      | some v => (p.1.spelled spelling, v) :: written spelling parts
      | none => written spelling parts := by
  rw [written, List.filterMap_cons]
  cases p.2 <;> rfl

theorem exists_spelled_of_mem_written {spelling : Spelling} {parts : List (Key × Option Value)}
    {e : String × Value} (he : e ∈ written spelling parts) :
    ∃ k ∈ parts.map Prod.fst, k.spelled spelling = e.1 := by
  obtain ⟨p, hp, hentry⟩ := List.mem_filterMap.1 he
  obtain ⟨v, -, rfl⟩ := Option.map_eq_some_iff.1 hentry
  exact ⟨p.1, List.mem_map_of_mem hp, rfl⟩

theorem find?_written {parts : List (Key × Option Value)} (h : Apart (parts.map Prod.fst))
    {v? : Option Value} (hmem : (k, v?) ∈ parts) (spelling : Spelling) :
    k.find? (written spelling parts) = v?.map (k.spelled spelling, ·) := by
  induction parts with
  | nil => cases hmem
  | cons p parts ih =>
    rw [List.map_cons] at h
    have hapart := (List.pairwise_cons.1 h.disjoint).1
    rw [written_cons]
    rcases List.mem_cons.1 hmem with rfl | hmem
    · have hrest : k.find? (written spelling parts) = none := by
        apply find?_eq_none
        intro e he hname
        obtain ⟨k', hk', hspelled⟩ := exists_spelled_of_mem_written he
        apply hapart k' hk' e.1 hname
        rw [← hspelled]
        exact h.tail.spelled_mem hk' spelling
      cases v? with
      | none => exact hrest
      | some v => exact find?_cons_of_mem (h.spelled_mem List.mem_cons_self spelling) hrest
    -- the entry in front is not looked up for this key
    · have hskip : p.1.spelled spelling ∉ k.accepted :=
        hapart k (List.mem_map_of_mem hmem) _ (h.spelled_mem List.mem_cons_self spelling)
      have hrest := ih h.tail hmem
      cases p.2 with
      | none => exact hrest
      | some v => exact (find?_cons_of_not_mem hskip).trans hrest

end Key

namespace Read

open Key

variable {α β : Type} {read : Value → Checked α}

section
variable {parts : List (Key × Option Value)} {spelling : Spelling} {i : Nat} {k : Key}
  {v : Value} {a absent : α}

theorem required_written (h : Apart (parts.map Prod.fst)) (hi : parts[i]? = some (k, some v))
    (hread : read v = .ok a) : required k read (written spelling parts) = .ok a := by
  rw [required, find?_written h (List.mem_of_getElem? hi), Option.map_some]
  simp only [hread, Checked.under]

theorem optional_written (h : Apart (parts.map Prod.fst)) (hi : parts[i]? = some (k, some v))
    (hread : read v = .ok a) : optional k absent read (written spelling parts) = .ok a := by
  rw [optional, find?_written h (List.mem_of_getElem? hi), Option.map_some]
  simp only [hread, Checked.under]

theorem optional_written_absent (h : Apart (parts.map Prod.fst))
    (hi : parts[i]? = some (k, none)) :
    optional k absent read (written spelling parts) = .ok absent := by
  rw [optional, find?_written h (List.mem_of_getElem? hi), Option.map_none]

end

/-- What may be null is read back if nothing is written as null itself. -/
theorem nullable_written {write : α → Value} (hread : ∀ a, read (write a) = .ok a)
    (hnull : ∀ a, write a ≠ .null) (a? : Option α) :
    nullable read ((a?.map write).getD .null) = .ok a? := by
  cases a? with
  | none => rfl
  | some a =>
    have hsome : nullable read (write a) = some <$> read (write a) := by
      cases hv : write a with
      | null => exact absurd hv (hnull a)
      | _ => rfl
    rw [Option.map_some, Option.getD_some, hsome, hread]
    rfl

theorem itemsFrom_written {write : β → Value} {load : β → α}
    (hread : ∀ b, read (write b) = .ok (load b)) (bs : List β) (start : Nat) :
    itemsFrom read start (bs.map write) = .ok (bs.map load) := by
  induction bs generalizing start with
  | nil => rfl
  | cons b bs ih =>
    rw [List.map_cons, itemsFrom, hread, ih]
    rfl

theorem list_written {write : β → Value} {load : β → α}
    (hread : ∀ b, read (write b) = .ok (load b)) (bs : List β) :
    list read (.list (bs.map write)) = .ok (bs.map load) :=
  itemsFrom_written hread bs 0

theorem list_written_self {write : α → Value} (hread : ∀ a, read (write a) = .ok a)
    (as : List α) : list read (.list (as.map write)) = .ok as := by
  have h : list read (.list (as.map write)) = .ok (as.map id) := list_written hread as
  rwa [List.map_id] at h

theorem any_eq (v : Value) : any v = .ok v := rfl

theorem text_text (s : String) : text (.text s) = .ok s := rfl

theorem bool_bool (b : Bool) : bool (.bool b) = .ok b := rfl

theorem int_int (n : Int) : int (.int n) = .ok n := rfl

theorem float_float (x : Binary64) : float (.float x) = .ok x := rfl

theorem named_text {ofName? : String → Option α} {name : String} {a : α}
    (h : ofName? name = some a) : named ofName? (.text name) = .ok a := by
  rw [named, h]

theorem nonemptyText_text {s : String} (h : s ≠ "") :
    nonemptyText (.text s) = .ok ⟨s, h⟩ := by
  rw [nonemptyText, dif_pos h]

theorem timestamp_text (t : Timestamp) : timestamp (.text (String.ofList t.text)) = .ok t := by
  rw [timestamp, timestampOfText, String.toList_ofList, Timestamp.ofText,
    Timestamp.ofNotation?_text]

end Read
end FormLogic
