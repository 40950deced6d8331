import FormLogic.Value.Plain

namespace FormLogic.Value

mutual

theorem plain_plain : ∀ v : Value, v.plain.plain = v.plain
  | .float x => by
    by_cases hfinite : x.isFinite
    · simp [plain, hfinite]
    · simp [plain, hfinite]
  | .list items => by rw [plain, plain, plainItems_plainItems items]
  | .tuple items => by rw [plain, plain, plainItems_plainItems items]
  | .record entries => by rw [plain, plain, plainEntries_plainEntries entries]
  | .null | .bool _ | .int _ | .text _ | .date _ | .moment _ => rfl

theorem plainItems_plainItems : ∀ vs : List Value, plainItems (plainItems vs) = plainItems vs
  | [] => rfl
  | v :: vs => by rw [plainItems, plainItems, plain_plain v, plainItems_plainItems vs]

theorem plainEntries_plainEntries : ∀ entries : List (String × Value),
    plainEntries (plainEntries entries) = plainEntries entries
  | [] => rfl
  | (_, v) :: entries => by
    rw [plainEntries, plainEntries, plain_plain v, plainEntries_plainEntries entries]

end

mutual

theorem depth_plain : ∀ v : Value, v.plain.depth = v.depth
  | .float x => by
    by_cases hfinite : x.isFinite
    · simp [plain, hfinite, depth]
    · simp [plain, hfinite, depth]
  | .list items => by rw [plain, depth, depth, depthItems_plainItems items]
  | .tuple items => by rw [plain, depth, depth, depthItems_plainItems items]
  | .record entries => by rw [plain, depth, depth, depthEntries_plainEntries entries]
  | .null | .bool _ | .int _ | .text _ | .date _ | .moment _ => rfl

theorem depthItems_plainItems : ∀ vs : List Value, depthItems (plainItems vs) = depthItems vs
  | [] => rfl
  | v :: vs => by
    rw [plainItems, depthItems, depthItems, depth_plain v, depthItems_plainItems vs]

theorem depthEntries_plainEntries : ∀ entries : List (String × Value),
    depthEntries (plainEntries entries) = depthEntries entries
  | [] => rfl
  | (_, v) :: entries => by
    rw [plainEntries, depthEntries, depthEntries, depth_plain v,
      depthEntries_plainEntries entries]

end

end FormLogic.Value
