import Mathlib.Data.List.Forall2

namespace FormLogic

variable {ε α β : Type}

theorem exists_of_map_eq_ok {f : α → β} {x : Except ε α} {b : β} (h : x.map f = .ok b) :
    ∃ a, x = .ok a ∧ f a = b := by
  cases x with
  | error e => cases h
  | ok a => exact ⟨a, rfl, Except.ok.inj h⟩

theorem exists_of_bind_eq_ok {f : α → Except ε β} {x : Except ε α} {b : β}
    (h : x.bind f = .ok b) : ∃ a, x = .ok a ∧ f a = .ok b := by
  cases x with
  | error e => cases h
  | ok a => exact ⟨a, rfl, h⟩

theorem error_ne_error {x : Except ε α} {e e' : ε} (h : x ≠ .error e) (hx : x = .error e') :
    (.error e' : Except ε β) ≠ .error e := by
  intro he
  apply h
  rw [hx, Except.error.inj he]

theorem map_ne_error {f : α → β} {x : Except ε α} {e : ε} (h : x ≠ .error e) :
    x.map f ≠ .error e := by
  cases x with
  | error e' => exact error_ne_error h rfl
  | ok a => simp [Except.map]

theorem returns_iff_not_fails (x : Except ε α) : (∃ a, x = .ok a) ↔ ¬∃ e, x = .error e := by
  cases x with
  | error e =>
    constructor
    · rintro ⟨a, h⟩
      cases h
    · exact fun h => absurd ⟨e, rfl⟩ h
  | ok a =>
    constructor
    · rintro _ ⟨e, h⟩
      cases h
    · exact fun _ => ⟨a, rfl⟩

/-- Of the results for a list none is an error, and they come in the order of the list. -/
theorem forall₂_of_mapM_eq_ok {f : α → Except ε β} {xs : List α} {ys : List β}
    (h : xs.mapM f = .ok ys) : List.Forall₂ (fun x y => f x = .ok y) xs ys := by
  induction xs generalizing ys with
  | nil =>
    obtain rfl : [] = ys := Except.ok.inj h
    exact .nil
  | cons x xs ih =>
    rw [List.mapM_cons] at h
    obtain ⟨y, hy, hrest⟩ := exists_of_bind_eq_ok h
    obtain ⟨ys', hys', hcons⟩ := exists_of_bind_eq_ok hrest
    obtain rfl : y :: ys' = ys := Except.ok.inj hcons
    exact .cons hy (ih hys')

theorem exists_of_mapM_eq_ok {f : α → Except ε β} {xs : List α} {ys : List β}
    (h : xs.mapM f = .ok ys) {x : α} (hx : x ∈ xs) : ∃ y ∈ ys, f x = .ok y := by
  have hall := forall₂_of_mapM_eq_ok h
  clear h
  induction hall with
  | nil => cases hx
  | @cons x' y xs ys hy _ ih =>
    rcases List.mem_cons.1 hx with rfl | hx
    · exact ⟨y, List.mem_cons_self, hy⟩
    · obtain ⟨y', hy', h⟩ := ih hx
      exact ⟨y', List.mem_cons_of_mem y hy', h⟩

theorem exists_of_mem_of_mapM_eq_ok {f : α → Except ε β} {xs : List α} {ys : List β}
    (h : xs.mapM f = .ok ys) {y : β} (hy : y ∈ ys) : ∃ x ∈ xs, f x = .ok y := by
  have hall := forall₂_of_mapM_eq_ok h
  clear h
  induction hall with
  | nil => cases hy
  | @cons x y' xs ys hx _ ih =>
    rcases List.mem_cons.1 hy with rfl | hy
    · exact ⟨x, List.mem_cons_self, hx⟩
    · obtain ⟨x', hx', h⟩ := ih hy
      exact ⟨x', List.mem_cons_of_mem x hx', h⟩

theorem mapM_congr {f g : α → Except ε β} {xs : List α} (h : ∀ x ∈ xs, f x = g x) :
    xs.mapM f = xs.mapM g := by
  induction xs with
  | nil => rfl
  | cons x xs ih =>
    rw [List.forall_mem_cons] at h
    rw [List.mapM_cons, List.mapM_cons, h.1, ih h.2]

section
variable {error? : Option ε} {a b : α}

theorem elim_error_eq_ok_iff :
    error?.elim (.ok a : Except ε α) .error = .ok b ↔ error? = none ∧ a = b := by
  cases error? <;> simp

theorem elim_error_eq_error_iff {e : ε} :
    error?.elim (.ok a : Except ε α) .error = .error e ↔ error? = some e := by
  cases error? <;> simp

end

/-- A list fails with the first error of an element, and has all values otherwise. -/
theorem mapM_eq_elim {f : α → Except ε β} {error? : α → Option ε} {value : α → β}
    (h : ∀ x, f x = (error? x).elim (.ok (value x)) .error) (xs : List α) :
    xs.mapM f = (xs.findSome? error?).elim (.ok (xs.map value)) .error := by
  induction xs with
  | nil => rfl
  | cons x xs ih =>
    rw [List.mapM_cons, h, ih, List.findSome?_cons, List.map_cons]
    cases error? x with
    | some e => rfl
    | none => cases xs.findSome? error? <;> rfl

theorem mapM_fails_iff {f : α → Except ε β} {xs : List α} :
    (∃ e, xs.mapM f = .error e) ↔ ∃ x ∈ xs, ∃ e, f x = .error e := by
  induction xs with
  | nil => simp [pure, Except.pure]
  | cons x xs ih =>
    simp only [List.mapM_cons, List.mem_cons, exists_eq_or_imp, ← ih]
    cases hx : f x with
    | error e => simp [bind, Except.bind]
    | ok y => cases hxs : xs.mapM f <;> simp [bind, Except.bind, pure, Except.pure]

end FormLogic
