import FormLogic.Proofs.Formula.Template
import FormLogic.Proofs.Answers

namespace FormLogic.Formula

section
variable {pattern new cs : List Char}

theorem replaceAll_of_not_infix (h : ¬pattern <:+: cs) : replaceAll pattern new cs = cs := by
  induction cs with
  | nil => rfl
  | cons c cs ih =>
    rw [replaceAll_cons fun hprefix => h hprefix.isInfix,
      ih fun hrest => h (hrest.trans (List.suffix_cons c cs).isInfix)]

/-- What a pattern is replaced by comes in with its first occurrence. -/
theorem infix_replaceAll (hpattern : pattern ≠ []) (h : pattern <:+: cs) :
    new <:+: replaceAll pattern new cs := by
  induction cs with
  | nil => exact absurd (List.infix_nil.1 h) hpattern
  | cons c cs ih =>
    by_cases hprefix : pattern <+: c :: cs
    · obtain ⟨rest, hrest⟩ := hprefix
      rw [← hrest, replaceAll_append_self hpattern]
      exact (List.prefix_append new _).isInfix
    · have htail : pattern <:+: cs := (List.infix_cons_iff.1 h).resolve_left hprefix
      rw [replaceAll_cons hprefix]
      exact (ih htail).trans (List.suffix_cons c _).isInfix

end

theorem placeholder_ne_nil (id : String) : placeholder id ≠ [] := by simp [placeholder]

theorem brace_mem_of_append {id : String} {cs cs' : List Char} (h : cs ++ cs' = placeholder id)
    (hne : cs' ≠ []) : '}' ∈ cs' := by
  have hlast : (placeholder id).getLast? = some '}' := List.getLast?_concat
  rw [← h, List.getLast?_append_of_ne_nil cs hne] at hlast
  exact List.mem_of_getLast? hlast

/-- A text that has nothing of a place in it, and that no place goes around. -/
structure IsSolid (id : String) (block : List Char) : Prop where
  dollar : '$' ∉ block
  brace : '}' ∉ block
  long : (placeholder id).length ≤ block.length

namespace IsSolid

variable {id : String} {block : List Char} (hblock : IsSolid id block)
include hblock

theorem prefix_of_prefix_append {before after : List Char}
    (h : placeholder id <+: before ++ (block ++ after)) : placeholder id <+: before := by
  have hbefore : before <+: before ++ (block ++ after) := List.prefix_append _ _
  rcases Nat.le_total (placeholder id).length before.length with hle | hle
  · exact List.prefix_of_prefix_length_le h hbefore hle
  · obtain ⟨rest, hrest⟩ := List.prefix_of_prefix_length_le hbefore h hle
    cases rest with
    | nil => rw [← hrest, List.append_nil]
    | cons c rest =>
      have hlength : (c :: rest).length ≤ block.length := by
        have hsum := congrArg List.length hrest
        have hlong := hblock.long
        rw [List.length_append] at hsum
        omega
      rw [← hrest, List.prefix_append_right_inj] at h
      have hinside : c :: rest <+: block :=
        List.prefix_of_prefix_length_le h (List.prefix_append block after) hlength
      exact absurd (hinside.subset (brace_mem_of_append hrest (by simp))) hblock.brace

theorem infix_replaceAll (new : List Char) {cs : List Char} (h : block <:+: cs) :
    block <:+: replaceAll (placeholder id) new cs := by
  obtain ⟨before, after, rfl⟩ := h
  rw [List.append_assoc]
  induction hlength : before.length using Nat.strong_induction_on generalizing before with
  | _ n ih =>
    by_cases hprefix : placeholder id <+: before ++ (block ++ after)
    · obtain ⟨rest, rfl⟩ := hblock.prefix_of_prefix_append hprefix
      have hshorter : rest.length < n := by
        rw [← hlength, List.length_append]
        have := List.length_pos_iff.2 (placeholder_ne_nil id)
        omega
      rw [List.append_assoc, replaceAll_append_self (placeholder_ne_nil id)]
      exact (ih _ hshorter rest rfl).trans (List.suffix_append new _).isInfix
    · cases before with
      | nil =>
        have hcopy : replaceAll (placeholder id) new (block ++ after) =
            block ++ replaceAll (placeholder id) new after :=
          replaceAll_append_of_not_mem hblock.dollar
        rw [List.nil_append, hcopy]
        exact (List.prefix_append block _).isInfix
      | cons c before =>
        rw [List.cons_append] at hprefix ⊢
        rw [replaceAll_cons hprefix]
        exact (ih _ (by simp [← hlength]) before rfl).trans (List.suffix_cons c _).isInfix

end IsSolid

theorem infix_foldl_fillIn (answers : Answers) {block : List Char} {parents : List String}
    (hblock : ∀ id ∈ parents, IsSolid id block) {cs : List Char} (h : block <:+: cs) :
    block <:+: parents.foldl (fillIn answers) cs := by
  induction parents generalizing cs with
  | nil => exact h
  | cons id parents ih =>
    rw [List.forall_mem_cons] at hblock
    exact ih hblock.2 (hblock.1.infix_replaceAll _ h)

/-- There are solid texts of any length. -/
theorem exists_isSolid (parents : List String) (n : Nat) :
    ∃ block : List Char, n < block.length ∧ ∀ id ∈ parents, IsSolid id block := by
  let m := (parents.map fun id => (placeholder id).length).sum
  refine ⟨List.replicate (n + m + 1) 'x', by rw [List.length_replicate]; omega, ?_⟩
  intro id hid
  have hlength : (placeholder id).length ≤ m := List.le_sum_of_mem (List.mem_map_of_mem hid)
  exact ⟨by simp, by simp, by rw [List.length_replicate]; omega⟩

/-- The place of a field stands in a formula. -/
def Mentions (formula id : String) : Prop := placeholder id <:+: formula.toList

instance (formula id : String) : Decidable (Mentions formula id) :=
  inferInstanceAs (Decidable (_ <:+: _))

/-- The answer to a field is read: it is a parent, and its place stands in what is left by the
parents before it. -/
def Reads (formula : String) (parents : List String) (answers : Answers) (id : String) : Prop :=
  ∃ before after, parents = before ++ id :: after ∧
    Mentions (substitute formula before answers) id

variable {formula id : String} {parents : List String} {answers answers' : Answers}

theorem substitute_cons (formula id : String) (parents : List String) (answers : Answers) :
    substitute formula (id :: parents) answers =
      substitute (substitute formula [id] answers) parents answers := by
  simp [substitute]

theorem substitute_singleton_of_not_mentions (h : ¬Mentions formula id) :
    substitute formula [id] answers = formula := by
  simp [substitute, fillIn, replaceAll_of_not_infix h]

theorem substitute_singleton_congr (h : Mentions formula id → answers.get id = answers'.get id) :
    substitute formula [id] answers = substitute formula [id] answers' := by
  by_cases hmentions : Mentions formula id
  · simp [substitute, fillIn, h hmentions]
  · rw [substitute_singleton_of_not_mentions hmentions,
      substitute_singleton_of_not_mentions hmentions]

/-- A parent is read in its turn, which is the first one or a later one. -/
theorem reads_cons_iff {parent : String} :
    Reads formula (parent :: parents) answers id ↔
      (parent = id ∧ Mentions formula id) ∨
        Reads (substitute formula [parent] answers) parents answers id := by
  constructor
  · rintro ⟨before, after, hsplit, hmentions⟩
    cases before with
    | nil =>
      obtain ⟨rfl, -⟩ := List.cons.inj hsplit
      exact .inl ⟨rfl, by simpa [substitute] using hmentions⟩
    | cons parent' before =>
      obtain ⟨rfl, hrest⟩ := List.cons.inj hsplit
      rw [substitute_cons] at hmentions
      exact .inr ⟨before, after, hrest, hmentions⟩
  · rintro (⟨rfl, hmentions⟩ | ⟨before, after, rfl, hmentions⟩)
    · exact ⟨[], parents, rfl, by simpa [substitute] using hmentions⟩
    · exact ⟨parent :: before, after, rfl, by rwa [substitute_cons]⟩

theorem mem_of_reads (h : Reads formula parents answers id) : id ∈ parents := by
  obtain ⟨before, after, rfl, -⟩ := h
  simp

/-- The result depends on the answers that are read alone. -/
theorem substitute_congr_of_reads
    (h : ∀ id, Reads formula parents answers id → answers.get id = answers'.get id) :
    substitute formula parents answers = substitute formula parents answers' := by
  induction parents generalizing formula with
  | nil => rfl
  | cons parent parents ih =>
    simp only [reads_cons_iff] at h
    have hfirst : substitute formula [parent] answers = substitute formula [parent] answers' :=
      substitute_singleton_congr fun hmentions => h parent (.inl ⟨rfl, hmentions⟩)
    rw [substitute_cons formula parent parents, substitute_cons formula parent parents, ← hfirst]
    exact ih fun id hid => h id (.inr hid)

theorem infix_substitute_set {block : List Char} (hblock : ∀ parent ∈ parents, IsSolid parent block)
    (h : Reads formula parents answers id) :
    block <:+:
      (substitute formula parents (answers.set id (.text (String.ofList block)))).toList := by
  induction parents generalizing formula with
  | nil => exact absurd (mem_of_reads h) List.not_mem_nil
  | cons parent parents ih =>
    rw [List.forall_mem_cons] at hblock
    rw [substitute_cons formula parent parents]
    by_cases hfirst : parent = id ∧ Mentions formula id
    · obtain ⟨rfl, hmentions⟩ := hfirst
      have hinside : block <:+:
          replaceAll (placeholder parent) block formula.toList :=
        infix_replaceAll (placeholder_ne_nil parent) hmentions
      have hfill : fillIn (answers.set parent (.text (String.ofList block))) formula.toList parent =
          replaceAll (placeholder parent) block formula.toList := by
        rw [fillIn, Answers.get_set, if_pos rfl, Value.toText, String.toList_ofList]
      simp only [substitute, List.foldl_cons, List.foldl_nil, String.toList_ofList, hfill]
      exact infix_foldl_fillIn _ hblock.2 hinside
    -- the answer is read later, so the first parent is filled in as before
    · have hsame : substitute formula [parent] answers =
          substitute formula [parent] (answers.set id (.text (String.ofList block))) := by
        apply substitute_singleton_congr
        intro hmentions
        rw [Answers.get_set, if_neg]
        rintro rfl
        exact hfirst ⟨rfl, hmentions⟩
      rw [← hsame]
      exact ih hblock.2 ((reads_cons_iff.1 h).resolve_left hfirst)

/-- The result depends on every answer that is read. -/
theorem exists_substitute_ne (h : Reads formula parents answers id) :
    ∃ v, substitute formula parents (answers.set id v) ≠ substitute formula parents answers := by
  obtain ⟨block, hlong, hblock⟩ := exists_isSolid parents
    (substitute formula parents answers).toList.length
  refine ⟨.text (String.ofList block), ?_⟩
  intro heq
  have hfound := infix_substitute_set hblock h
  rw [heq] at hfound
  exact absurd hfound.length_le (Nat.not_le.2 hlong)

/-- Some answer sets agree with an answer set where a formula mentions a parent; the texts they
give are the same exactly if no parent is read that the formula does not mention. -/
theorem forall_substitute_eq_iff :
    (∀ answers', (∀ id ∈ parents, Mentions formula id → answers.get id = answers'.get id) →
      substitute formula parents answers = substitute formula parents answers') ↔
    ∀ id, Reads formula parents answers id → Mentions formula id := by
  constructor
  · intro h id hreads
    by_contra hmentions
    obtain ⟨v, hne⟩ := exists_substitute_ne hreads
    apply hne
    symm
    apply h
    intro id' _ hmentions'
    rw [Answers.get_set, if_neg]
    rintro rfl
    exact hmentions hmentions'
  · intro h answers' hagree
    exact substitute_congr_of_reads fun id hid => hagree id (mem_of_reads hid) (h id hid)

theorem mentions_of_mem {pieces : List Piece}
    (hformula : formula.toList = pieces.flatMap Piece.written)
    (h : .place id ∈ pieces) : Mentions formula id := by
  obtain ⟨before, after, rfl⟩ := List.append_of_mem h
  refine ⟨before.flatMap Piece.written, after.flatMap Piece.written, ?_⟩
  simp [hformula, Piece.written]

/-- A template reads the answers alone that it mentions, unless one of them has a dollar sign. -/
theorem mentions_of_reads_template (htemplate : IsTemplate formula)
    (hparents : ∀ id ∈ parents, IsPlainId id)
    (htexts : ∀ id ∈ parents, Mentions formula id → '$' ∉ (answers.get id).toText.toList)
    (hreads : Reads formula parents answers id) : Mentions formula id := by
  obtain ⟨pieces, hformula, hplain⟩ := htemplate
  -- it is enough that answers which agree where they are mentioned give one text
  refine forall_substitute_eq_iff.1 ?_ id hreads
  intro answers' hagree
  have hget : ∀ id, .place id ∈ pieces → id ∈ parents → answers.get id = answers'.get id :=
    fun id ha hid => hagree id hid (mentions_of_mem hformula ha)
  have hclean : ∀ a ∈ pieces, a.IsClean answers parents := by
    rintro (cs | id) ha
    · trivial
    · exact fun hid => htexts id hid (mentions_of_mem hformula ha)
  have hclean' : ∀ a ∈ pieces, a.IsClean answers' parents := by
    rintro (cs | id) ha
    · trivial
    · intro hid
      rw [← hget id ha hid]
      exact hclean _ ha hid
  have hsame : ∀ a ∈ pieces, a.chars answers parents = a.chars answers' parents := by
    rintro (cs | id) ha
    · rfl
    · by_cases hid : id ∈ parents
      · simp only [Piece.chars, hget id ha hid]
      · simp only [Piece.chars, if_neg hid]
  rw [← String.toList_inj, toList_substitute hplain hparents hclean hformula,
    toList_substitute hplain hparents hclean' hformula]
  exact List.flatMap_congr hsame

/-- The texts that a formula gives for answer sets which agree wherever it mentions a parent are
the same exactly if no parent is read that it does not mention. None is where the formula is a
template, and no answer that it mentions has a dollar sign. -/
theorem substitute_congr_iff (formula : String) (parents : List String) (answers : Answers) :
    ((∀ answers', (∀ id ∈ parents, Mentions formula id → answers.get id = answers'.get id) →
      substitute formula parents answers = substitute formula parents answers') ↔
      ∀ id, Reads formula parents answers id → Mentions formula id) ∧
    (IsTemplate formula → (∀ id ∈ parents, IsPlainId id) →
      (∀ id ∈ parents, Mentions formula id → '$' ∉ (answers.get id).toText.toList) →
      ∀ id, Reads formula parents answers id → Mentions formula id) :=
  ⟨forall_substitute_eq_iff, fun htemplate hparents htexts _ =>
    mentions_of_reads_template htemplate hparents htexts⟩

/-- The answer to the one parent that is mentioned is the place of the other one. With a text that
is no place the formula reads nothing else. -/
theorem substitute_congr_iff_single :
    let formula := String.ofList (placeholder "a")
    let answers := Answers.ofList [("a", .text (String.ofList (placeholder "b"))), ("b", .int 5)]
    let harmless := Answers.ofList [("a", .text "7"), ("b", .int 5)]
    (¬∀ answers', (∀ id ∈ ["a", "b"], Mentions formula id → answers.get id = answers'.get id) →
      substitute formula ["a", "b"] answers = substitute formula ["a", "b"] answers') ∧
    ∀ id, Reads formula ["a", "b"] harmless id → Mentions formula id := by
  intro formula answers harmless
  constructor
  · rw [(substitute_congr_iff formula ["a", "b"] answers).1]
    intro h
    have hreads : Reads formula ["a", "b"] answers "b" := ⟨["a"], [], rfl, by decide +kernel⟩
    exact absurd (h "b" hreads) (by decide +kernel)
  · apply (substitute_congr_iff formula ["a", "b"] harmless).2
    · exact ⟨[.place "a"], by decide +kernel, by simp [Piece.IsPlain, IsPlainId]⟩
    · unfold IsPlainId
      decide
    · decide +kernel

end FormLogic.Formula
