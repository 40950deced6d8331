import FormLogic.Formula.Template
import FormLogic.Proofs.Formula.Scanning

namespace FormLogic.Formula

open Text

section
variable {pattern new cs : List Char}

theorem replaceAll_cons {c : Char} (h : ¬pattern <+: c :: cs) :
    replaceAll pattern new (c :: cs) = c :: replaceAll pattern new cs := by
  rw [replaceAll, replaceFrom, if_neg (fun hp => h (List.isPrefixOf_iff_prefix.1 hp))]
  rfl

theorem replaceAll_append_self (h : pattern ≠ []) :
    replaceAll pattern new (pattern ++ cs) = new ++ replaceAll pattern new cs := by
  cases pattern with
  | nil => exact absurd rfl h
  | cons c pattern =>
    have hprefix : c :: pattern <+: c :: (pattern ++ cs) := List.prefix_append (c :: pattern) cs
    rw [replaceAll, List.cons_append, replaceFrom, if_pos (List.isPrefixOf_iff_prefix.2 hprefix),
      replaceFrom_eq_drop]
    simp

/-- What lacks the first character of a pattern is passed over. -/
theorem replaceAll_append_of_not_mem {c : Char} {piece : List Char} (h : c ∉ piece) :
    replaceAll (c :: pattern) new (piece ++ cs) = piece ++ replaceAll (c :: pattern) new cs := by
  induction piece with
  | nil => rfl
  | cons c' piece ih =>
    rw [List.mem_cons, not_or] at h
    have hprefix : ¬c :: pattern <+: c' :: (piece ++ cs) := by
      rw [List.cons_prefix_cons]
      exact fun hp => h.1 hp.1
    rw [List.cons_append, replaceAll_cons hprefix, ih h.2]
    rfl

end

/-- An id whose place cannot be taken for a part of another one. -/
def IsPlainId (id : String) : Prop := '$' ∉ id.toList ∧ '}' ∉ id.toList

theorem takeWhile_closed {cs : List Char} (h : '}' ∉ cs) (cs' : List Char) :
    (cs ++ '}' :: cs').takeWhile (· != '}') = cs := by
  rw [List.takeWhile_append_of_pos]
  · simp
  · rintro c hc
    rw [bne_iff_ne]
    rintro rfl
    exact h hc

theorem placeholder_prefix_iff {id id' : String} (hid : IsPlainId id) (hid' : IsPlainId id')
    (cs : List Char) : placeholder id <+: placeholder id' ++ cs ↔ id = id' := by
  constructor
  · rintro ⟨cs', h⟩
    have hids : id.toList ++ '}' :: cs' = id'.toList ++ '}' :: cs := by
      simpa [placeholder] using h
    have hspan := congrArg (List.takeWhile (· != '}')) hids
    rw [takeWhile_closed hid.2, takeWhile_closed hid'.2] at hspan
    exact String.toList_inj.1 hspan
  · rintro rfl
    exact List.prefix_append _ _

/-- The place of another field is passed over. -/
theorem replaceAll_placeholder {id id' : String} (hid : IsPlainId id) (hid' : IsPlainId id')
    (hne : id ≠ id') (new cs : List Char) :
    replaceAll (placeholder id) new (placeholder id' ++ cs) =
      placeholder id' ++ replaceAll (placeholder id) new cs := by
  have hprefix : ¬placeholder id <+: '$' :: ('{' :: id'.toList ++ ['}'] ++ cs) := by
    change ¬placeholder id <+: placeholder id' ++ cs
    rw [placeholder_prefix_iff hid hid']
    exact hne
  have hrest : '$' ∉ '{' :: id'.toList ++ ['}'] := by
    simpa using hid'.1
  change replaceAll (placeholder id) new ('$' :: ('{' :: id'.toList ++ ['}'] ++ cs)) = _
  rw [replaceAll_cons hprefix]
  exact congrArg ('$' :: ·) (replaceAll_append_of_not_mem hrest)

inductive Piece where
  | literal (cs : List Char)
  | place (id : String)

namespace Piece

def written : Piece → List Char
  | .literal cs => cs
  | .place id => placeholder id

/-- A piece that cannot be taken for a part of a place, or for another place. -/
def IsPlain : Piece → Prop
  | .literal cs => '$' ∉ cs
  | .place id => IsPlainId id

variable (answers : Answers)

def chars (filled : List String) : Piece → List Char
  | .literal cs => cs
  | .place id => if id ∈ filled then (answers.get id).toText.toList else placeholder id

/-- No dollar sign comes in with the answer to one of some fields. -/
def IsClean (filled : List String) : Piece → Prop
  | .literal _ => True
  | .place id => id ∈ filled → '$' ∉ (answers.get id).toText.toList

variable {answers}

theorem IsClean.mono {filled filled' : List String} (h : filled ⊆ filled') {a : Piece}
    (ha : a.IsClean answers filled') : a.IsClean answers filled := by
  cases a with
  | literal cs => trivial
  | place id => exact fun hid => ha (h hid)

theorem chars_nil : chars answers [] = written := by
  funext a
  cases a <;> simp [chars, written]

theorem chars_congr {filled filled' : List String} (h : ∀ id, id ∈ filled ↔ id ∈ filled')
    (a : Piece) : a.chars answers filled = a.chars answers filled' := by
  cases a <;> simp [chars, h]

end Piece

/-- A text in which a dollar sign stands at places alone, all of which can be told apart. -/
def IsTemplate (formula : String) : Prop :=
  ∃ pieces : List Piece, formula.toList = pieces.flatMap Piece.written ∧ ∀ a ∈ pieces, a.IsPlain

section
variable {answers : Answers}

theorem fillIn_piece {id : String} (hid : IsPlainId id) (filled : List String) {a : Piece}
    (hplain : a.IsPlain) (hclean : a.IsClean answers filled) (cs : List Char) :
    fillIn answers (a.chars answers filled ++ cs) id =
      a.chars answers (id :: filled) ++ fillIn answers cs id := by
  cases a with
  | literal cs' => exact replaceAll_append_of_not_mem hplain
  | place id' =>
    by_cases hfilled : id' ∈ filled
    -- no place is found in the text of an answer, as that has no dollar sign
    · simp only [Piece.chars, if_pos hfilled, if_pos (List.mem_cons_of_mem id hfilled)]
      exact replaceAll_append_of_not_mem (hclean hfilled)
    · by_cases heq : id' = id
      · subst heq
        simp only [Piece.chars, if_neg hfilled, if_pos List.mem_cons_self]
        exact replaceAll_append_self (by simp [placeholder])
      · have hmem : id' ∉ id :: filled := by simp [heq, hfilled]
        simp only [Piece.chars, if_neg hfilled, if_neg hmem]
        exact replaceAll_placeholder hid hplain (Ne.symm heq) _ _

theorem fillIn_flatMap {id : String} (hid : IsPlainId id) (filled : List String)
    {pieces : List Piece} (hplain : ∀ a ∈ pieces, a.IsPlain)
    (hclean : ∀ a ∈ pieces, a.IsClean answers filled) :
    fillIn answers (pieces.flatMap (Piece.chars answers filled)) id =
      pieces.flatMap (Piece.chars answers (id :: filled)) := by
  induction pieces with
  | nil => rfl
  | cons a pieces ih =>
    rw [List.forall_mem_cons] at hplain hclean
    rw [List.flatMap_cons, List.flatMap_cons, fillIn_piece hid filled hplain.1 hclean.1,
      ih hplain.2 hclean.2]

theorem foldl_fillIn_flatMap {parents : List String} (hparents : ∀ id ∈ parents, IsPlainId id)
    (filled : List String) {pieces : List Piece} (hplain : ∀ a ∈ pieces, a.IsPlain)
    (hclean : ∀ a ∈ pieces, a.IsClean answers (parents ++ filled)) :
    parents.foldl (fillIn answers) (pieces.flatMap (Piece.chars answers filled)) =
      pieces.flatMap (Piece.chars answers (parents ++ filled)) := by
  induction parents generalizing filled with
  | nil => rfl
  | cons id parents ih =>
    rw [List.forall_mem_cons] at hparents
    have hfilled : filled ⊆ id :: parents ++ filled := List.subset_append_right _ _
    have hmem : ∀ id', id' ∈ parents ++ id :: filled ↔ id' ∈ id :: parents ++ filled := by
      simp [or_left_comm]
    rw [List.foldl_cons,
      fillIn_flatMap hparents.1 filled hplain fun a ha => (hclean a ha).mono hfilled,
      ih hparents.2 (id :: filled) fun a ha => (hclean a ha).mono fun id' => (hmem id').1]
    congr 1
    funext a
    exact a.chars_congr hmem

/-- In a template every place of a parent is filled with the text of its own answer. -/
theorem toList_substitute {pieces : List Piece} (hplain : ∀ a ∈ pieces, a.IsPlain)
    {parents : List String} (hparents : ∀ id ∈ parents, IsPlainId id)
    (hclean : ∀ a ∈ pieces, a.IsClean answers parents) {formula : String}
    (hformula : formula.toList = pieces.flatMap Piece.written) :
    (substitute formula parents answers).toList =
      pieces.flatMap (Piece.chars answers parents) := by
  have hfilled := foldl_fillIn_flatMap hparents [] hplain (by simpa using hclean)
  rw [Piece.chars_nil, List.append_nil] at hfilled
  rw [substitute, String.toList_ofList, hformula, hfilled]

variable (answers) in
/-- A template keeps its literal pieces and the places of all other fields, and has the text of
the answer in every place of a parent. Neither the order of the parents nor how often one is
given makes a difference. -/
theorem substitute_template {pieces : List Piece} (hplain : ∀ a ∈ pieces, a.IsPlain)
    {parents : List String} (hparents : ∀ id ∈ parents, IsPlainId id)
    (htexts : ∀ id ∈ parents, .place id ∈ pieces → '$' ∉ (answers.get id).toText.toList)
    {formula : String} (hformula : formula.toList = pieces.flatMap Piece.written) :
    (substitute formula parents answers).toList = pieces.flatMap (Piece.chars answers parents) ∧
      ∀ parents' : List String, (∀ id, id ∈ parents' ↔ id ∈ parents) →
        substitute formula parents' answers = substitute formula parents answers := by
  have hclean : ∀ a ∈ pieces, a.IsClean answers parents := by
    rintro (cs | id) ha
    · trivial
    · exact fun hid => htexts id hid ha
  have hfilled := toList_substitute hplain hparents hclean hformula
  refine ⟨hfilled, fun parents' hsame => ?_⟩
  have hparents' : ∀ id ∈ parents', IsPlainId id := fun id hid => hparents id ((hsame id).1 hid)
  have hclean' : ∀ a ∈ pieces, a.IsClean answers parents' := fun a ha =>
    (hclean a ha).mono fun id hid => (hsame id).1 hid
  rw [← String.toList_inj, hfilled, toList_substitute hplain hparents' hclean' hformula]
  exact List.flatMap_congr fun a _ => a.chars_congr hsame

/-- Two ids of which one starts with the other, a parent without an answer, and a field that is no
parent. -/
theorem substitute_template_prices :
    let formula := "$\x7bprice\x7d * $\x7bprice2\x7d - $\x7brebate\x7d$\x7btax\x7d"
    let answers := Answers.ofList [("price2", .text "7"), ("price", .int 12), ("tax", .int 3)]
    substitute formula ["price", "rebate", "price2", "price"] answers =
        "12 * 7 - $\x7btax\x7d" ∧
      substitute formula ["price2", "rebate", "price"] answers = "12 * 7 - $\x7btax\x7d" := by
  intro formula answers
  let pieces : List Piece := [.place "price", .literal " * ".toList, .place "price2",
    .literal " - ".toList, .place "rebate", .place "tax"]
  have hparents : ∀ id ∈ ["price", "rebate", "price2", "price"], IsPlainId id := by
    unfold IsPlainId
    decide
  have htexts : ∀ id ∈ ["price", "rebate", "price2", "price"],
      '$' ∉ (answers.get id).toText.toList := by
    decide +kernel
  have hformula : formula.toList = pieces.flatMap Piece.written := by decide +kernel
  have htemplate := substitute_template answers
    (by simp [pieces, Piece.IsPlain, IsPlainId]) hparents (fun id hid _ => htexts id hid) hformula
  have hfilled : substitute formula ["price", "rebate", "price2", "price"] answers =
      "12 * 7 - $\x7btax\x7d" := by
    rw [← String.toList_inj, htemplate.1]
    decide +kernel
  refine ⟨hfilled, ?_⟩
  rw [htemplate.2 _ (by simp [or_left_comm]), hfilled]

end

inductive Leaf where
  | numeral (n : Numeral)
  | place (id : String)

inductive Part where
  | token (t : Token)
  | place (id : String)

def Leaf.part : Leaf → Part
  | .numeral n => .token (.number n.chars)
  | .place id => .place id

variable (answers : Answers)

def Part.chars (filled : List String) : Part → List Char
  | .token t => t.chars
  | .place id => if id ∈ filled then (answers.get id).toText.toList else placeholder id

def Part.IsClean : Part → Prop
  | .token t => '$' ∉ t.chars
  | .place id => IsPlainId id ∧ '$' ∉ (answers.get id).toText.toList

theorem replaceAll_part {id : String} (hid : IsPlainId id) (filled : List String) {a : Part}
    (ha : a.IsClean answers) (cs : List Char) :
    fillIn answers (a.chars answers filled ++ cs) id =
      a.chars answers (id :: filled) ++ fillIn answers cs id := by
  cases a with
  | token t =>
    have hplain : (Piece.literal t.chars).IsPlain := ha
    exact fillIn_piece hid filled hplain trivial cs
  | place id' =>
    have hplain : (Piece.place id').IsPlain := ha.1
    exact fillIn_piece hid filled hplain (fun _ => ha.2) cs

theorem spaced_fillIn {id : String} (hid : IsPlainId id) {filled : List String} {as : List Part}
    {cs : List Char} (h : Spaced (Part.chars answers filled) as cs)
    (has : ∀ a ∈ as, a.IsClean answers) :
    Spaced (Part.chars answers (id :: filled)) as (fillIn answers cs id) := by
  induction h with
  | @nil gap hgap =>
    have hcopy : fillIn answers (gap ++ []) id = gap ++ fillIn answers [] id :=
      replaceAll_append_of_not_mem (hgap.not_mem (by decide))
    rw [List.append_nil] at hcopy
    rw [hcopy, show fillIn answers [] id = [] from rfl, List.append_nil]
    exact .nil hgap
  | @cons gap a as cs hgap _ ih =>
    have hcopy : fillIn answers (gap ++ (a.chars answers filled ++ cs)) id =
        gap ++ fillIn answers (a.chars answers filled ++ cs) id :=
      replaceAll_append_of_not_mem (hgap.not_mem (by decide))
    rw [hcopy, replaceAll_part answers hid filled (has a List.mem_cons_self)]
    exact .cons hgap (ih fun b hb => has b (List.mem_cons_of_mem a hb))

/-- Filling in the answers to some fields, one after the other. -/
theorem spaced_foldl {parents : List String} (hparents : ∀ id ∈ parents, IsPlainId id)
    {filled : List String} {as : List Part} {cs : List Char}
    (h : Spaced (Part.chars answers filled) as cs) (has : ∀ a ∈ as, a.IsClean answers) :
    Spaced (Part.chars answers (parents.reverse ++ filled)) as
      (parents.foldl (fillIn answers) cs) := by
  induction parents generalizing filled cs with
  | nil => exact h
  | cons id parents ih =>
    rw [List.reverse_cons, List.append_assoc]
    exact ih (fun id' hid' => hparents id' (List.mem_cons_of_mem id hid'))
      (spaced_fillIn answers (hparents id List.mem_cons_self) h has)

def Part.written : Part → List Char
  | .token t => t.chars
  | .place id => placeholder id

def Part.filled : Part → List Char
  | .token t => t.chars
  | .place id => (answers.get id).toText.toList

namespace Tree

variable {l : Level}

def parts (t : Tree Leaf l) : List Part := t.write .token fun a => [a.part]

/-- A formula is written as a text, with blanks between and around its parts. -/
def IsWritten (t : Tree Leaf l) (formula : String) : Prop :=
  Spaced Part.written t.parts formula.toList

theorem forall_mem_parts {P : Part → Prop}
    (htoken : ∀ u : Token, u.isNumber = false → P (.token u))
    (hnumeral : ∀ n : Numeral, P (.token (.number n.chars))) (t : Tree Leaf l)
    (hplace : ∀ id, .place id ∈ t.leaves → P (.place id)) : ∀ a ∈ t.parts, P a := by
  apply forall_mem_write htoken
  intro a ha b hb
  obtain rfl := List.mem_singleton.1 hb
  cases a with
  | numeral n => exact hnumeral n
  | place id => exact hplace id ha

theorem dollar_not_mem_numeral (n : Numeral) : '$' ∉ n.chars := by
  intro h
  rcases n.mem_chars h with h | h
  · exact absurd h (by decide)
  · exact absurd h (by decide)

theorem dollar_not_mem_token {u : Token} (hu : u.isNumber = false) : '$' ∉ u.chars := by
  obtain ⟨c, hchars, hc, -⟩ := Token.exists_chars_eq hu
  rw [hchars, List.mem_singleton]
  rintro rfl
  exact absurd hc (by simp [Token.ofChar?])

/-- A formula with the answers to all its places filled in. -/
theorem spaced_substitute (t : Tree Leaf l) {formula : String} (hformula : t.IsWritten formula)
    {parents : List String} (hparents : ∀ id ∈ parents, IsPlainId id)
    (hplaces : ∀ id, .place id ∈ t.leaves →
      id ∈ parents ∧ '$' ∉ (answers.get id).toText.toList) :
    Spaced (Part.filled answers) t.parts (substitute formula parents answers).toList := by
  have hstart : Spaced (Part.chars answers []) t.parts formula.toList := by
    apply hformula.congr
    rintro (u | id) _
    · rfl
    · simp [Part.written, Part.chars]
  have hclean : ∀ a ∈ t.parts, a.IsClean answers := by
    apply forall_mem_parts
    · intro u hu
      exact dollar_not_mem_token hu
    · exact dollar_not_mem_numeral
    · intro id hid
      exact ⟨hparents id (hplaces id hid).1, (hplaces id hid).2⟩
  -- every place has a parent's id, so none is left once all parents are filled in
  have hfilled := spaced_foldl answers hparents hstart hclean
  rw [substitute, String.toList_ofList]
  apply hfilled.congr
  apply forall_mem_parts
  · intro u hu
    rfl
  · intro n
    rfl
  · intro id hid
    simp [Part.chars, Part.filled, (hplaces id hid).1]

end Tree
end FormLogic.Formula
