import FormLogic.Value.Basic

namespace FormLogic

def lookup? (key : String) : List (String × Value) → Option Value
  | [] => none
  | (k, v) :: entries => if k = key then some v else lookup? key entries

/-- Changes the value of a key in place, or appends the key. -/
def setEntry (key : String) (value : Value) : List (String × Value) → List (String × Value)
  | [] => [(key, value)]
  | (k, v) :: entries =>
    if k = key then (k, value) :: entries else (k, v) :: setEntry key value entries

theorem lookup?_setEntry (key key' : String) (value : Value) (es : List (String × Value)) :
    lookup? key' (setEntry key value es) = if key = key' then some value else lookup? key' es := by
  induction es with
  | nil => simp [setEntry, lookup?]
  | cons e es ih =>
    obtain ⟨k, v⟩ := e
    by_cases h : k = key
    · subst h
      by_cases h' : k = key' <;> simp [setEntry, lookup?, h']
    · simp only [setEntry, if_neg h, lookup?, ih]
      split
      · next hk => rw [if_neg (fun hkk => h (hk.trans hkk.symm))]
      · rfl

theorem mem_map_fst_setEntry (key key' : String) (value : Value) (es : List (String × Value)) :
    key' ∈ (setEntry key value es).map Prod.fst ↔ key' = key ∨ key' ∈ es.map Prod.fst := by
  induction es with
  | nil => simp [setEntry]
  | cons e es ih =>
    obtain ⟨k, v⟩ := e
    by_cases h : k = key
    · subst h
      simp [setEntry]
    · simp only [setEntry, if_neg h, List.map_cons, List.mem_cons, ih]
      exact or_left_comm

theorem nodup_setEntry (key : String) (value : Value) {es : List (String × Value)}
    (h : (es.map Prod.fst).Nodup) : ((setEntry key value es).map Prod.fst).Nodup := by
  induction es with
  | nil => simp [setEntry]
  | cons e es ih =>
    obtain ⟨k, v⟩ := e
    rw [List.map_cons, List.nodup_cons] at h
    by_cases hk : k = key
    · subst hk
      simpa [setEntry] using h
    · simp only [setEntry, if_neg hk, List.map_cons, List.nodup_cons]
      refine ⟨fun hmem => ?_, ih h.2⟩
      rcases (mem_map_fst_setEntry key k value es).1 hmem with h' | h'
      · exact hk h'
      · exact h.1 h'

/-- An answer set: the value stored under each id, in the order in which the ids were set first. -/
structure Answers where
  entries : List (String × Value)
  nodup : (entries.map Prod.fst).Nodup

namespace Answers

def empty : Answers := ⟨[], List.nodup_nil⟩

def keys (a : Answers) : List String := a.entries.map Prod.fst

def get? (a : Answers) (id : String) : Option Value := lookup? id a.entries

/-- The value stored under an id; nothing is stored as no value. -/
def get (a : Answers) (id : String) : Value := (a.get? id).getD .null

def set (a : Answers) (id : String) (value : Value) : Answers :=
  ⟨setEntry id value a.entries, nodup_setEntry id value a.nodup⟩

def erase (a : Answers) (id : String) : Answers :=
  ⟨a.entries.filter (·.1 ≠ id), a.nodup.sublist (List.filter_sublist.map _)⟩

def setAll (a : Answers) (pairs : List (String × Value)) : Answers :=
  pairs.foldl (fun a p => a.set p.1 p.2) a

/-- The answer set of a list of pairs. An id that is repeated keeps its first position and its
last value. -/
def ofList (pairs : List (String × Value)) : Answers := empty.setAll pairs

def apply (a patch : Answers) : Answers := a.setAll patch.entries

@[simp] theorem get?_empty (id : String) : empty.get? id = none := rfl

theorem get?_set (a : Answers) (id id' : String) (value : Value) :
    (a.set id value).get? id' = if id = id' then some value else a.get? id' :=
  lookup?_setEntry id id' value a.entries

@[simp] theorem setAll_nil (a : Answers) : a.setAll [] = a := rfl

@[simp] theorem setAll_cons (a : Answers) (p : String × Value) (ps : List (String × Value)) :
    a.setAll (p :: ps) = (a.set p.1 p.2).setAll ps := rfl

end Answers
end FormLogic
