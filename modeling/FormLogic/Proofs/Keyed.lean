import Mathlib.Data.List.Nodup

namespace FormLogic

section
variable {α : Type} {key : α → String} {xs ys : List α}

theorem find?_key_eq_some_iff (hxs : (xs.map key).Nodup) {k : String} {x : α} :
    xs.find? (fun x => key x == k) = some x ↔ x ∈ xs ∧ key x = k := by
  constructor
  · intro h
    exact ⟨List.mem_of_find?_eq_some h, by simpa using List.find?_some h⟩
  · rintro ⟨hx, rfl⟩
    cases h : xs.find? (fun y => key y == key x) with
    | none =>
      have hne := List.find?_eq_none.1 h x hx
      simp at hne
    | some y =>
      have hy : key y = key x := by simpa using List.find?_some h
      rw [List.inj_on_of_nodup_map hxs (List.mem_of_find?_eq_some h) hx hy]

theorem find?_key_congr (hxs : (xs.map key).Nodup) (hys : (ys.map key).Nodup)
    (h : ∀ x, x ∈ xs ↔ x ∈ ys) (k : String) :
    xs.find? (fun x => key x == k) = ys.find? (fun x => key x == k) := by
  apply Option.ext
  intro x
  rw [find?_key_eq_some_iff hxs, find?_key_eq_some_iff hys, h]

end

end FormLogic
