import FormLogic.Proofs.Formula.Scanning

namespace FormLogic.Formula.Token

open Text

/-- A token stands in front of a rest of a text: a number is as long as it can be there. -/
inductive Stands (rest : List Char) : Token → Prop where
  | single {t : Token} (ht : t.isNumber = false) : Stands rest t
  | number (n : Numeral) (h : Numeral.IsLongest n.chars rest) : Stands rest (.number n.chars)

/-- A part of a text consists of tokens with blanks between and around them. Each token stands
where it does in front of all that follows, the rest of the text behind the part included. -/
inductive ReadAs (rest : List Char) : List Token → List Char → Prop where
  | nil {gap : List Char} (hgap : Blanks gap) : ReadAs rest [] gap
  | cons {gap : List Char} {t : Token} {ts : List Token} {cs : List Char} (hgap : Blanks gap)
    (ht : Stands (cs ++ rest) t) (h : ReadAs rest ts cs) :
    ReadAs rest (t :: ts) (gap ++ (t.chars ++ cs))

structure IsStray (c : Char) (after : List Char) : Prop where
  notBlank : Text.isBlank c = false
  notDigit : isDigit c = false
  notSingle : ofChar? c = none
  noFraction : c = '.' → ∀ d ∈ after.head?, isDigit d = false

theorem chars_of_ofChar? {c : Char} {t : Token} (h : ofChar? c = some t) :
    t.chars = [c] ∧ t.isNumber = false := by
  unfold ofChar? at h
  split at h
  case h_7 => cases h
  all_goals
    cases h
    exact ⟨rfl, rfl⟩

/-- What no number starts with is neither a digit nor a point in front of a digit. -/
theorem not_digit_of_spanNumber? {c : Char} {cs : List Char} (h : spanNumber? (c :: cs) = none) :
    isDigit c = false ∧ (c = '.' → ∀ d ∈ cs.head?, isDigit d = false) := by
  have hnone : ∀ (n : Numeral) (rest : List Char), n.chars ++ rest ≠ c :: cs := by
    intro n rest heq
    obtain ⟨lexeme, rest', hspan, -⟩ := n.exists_spanNumber? rest
    rw [heq, h] at hspan
    cases hspan
  constructor
  · by_contra hdigit
    obtain ⟨d, rfl⟩ := Numeral.exists_digitChar_eq (by simpa using hdigit)
    exact hnone ⟨[d], none, by simp⟩ cs rfl
  · rintro rfl c hc
    by_contra hdigit
    obtain ⟨d, rfl⟩ := Numeral.exists_digitChar_eq (by simpa using hdigit)
    obtain ⟨rest, rfl⟩ := List.head?_eq_some_iff.1 hc
    exact hnone ⟨[], some [d], by simp⟩ rest rfl

namespace Stands

variable {rest : List Char} {t : Token}

theorem scanFrom_append (h : Stands rest t) (position : Nat) :
    scanFrom position (t.chars ++ rest) =
      (scanFrom (position + t.chars.length) rest).map (t :: ·) := by
  cases h with
  | single ht =>
    obtain ⟨c, hchars, -⟩ := exists_chars_eq ht
    rw [scanFrom_single ht, hchars]
    rfl
  | number n h => exact scanFrom_numeral n position h

theorem mono {rest' : List Char} (h : Stands rest t) (hrest : rest' <+: rest) :
    Stands rest' t := by
  cases h with
  | single ht => exact .single ht
  | number n h =>
    refine .number n fun n' hstart => h n' (hstart.trans ?_)
    exact (List.prefix_append_right_inj _).2 hrest

theorem of_endsNumeral (h : Stands [] t) (hrest : Numeral.EndsNumeral rest) : Stands rest t := by
  cases h with
  | single ht => exact .single ht
  | number n _ => exact .number n (n.isLongest_of_endsNumeral hrest)

theorem isBlank_of_mem (h : Stands rest t) {c : Char} (hc : c ∈ t.chars) :
    Text.isBlank c = false := by
  cases h with
  | single ht =>
    obtain ⟨c', hchars, -, -, -, hblank⟩ := exists_chars_eq ht
    rw [hchars, List.mem_singleton] at hc
    rwa [hc]
  | number n _ =>
    rcases n.mem_chars hc with hdigit | rfl
    · exact isBlank_of_isDigit hdigit
    · decide

end Stands

namespace ReadAs

variable {rest : List Char} {ts : List Token} {cs : List Char}

theorem gap_append {gap : List Char} (hgap : Blanks gap) (h : ReadAs rest ts cs) :
    ReadAs rest ts (gap ++ cs) := by
  cases h with
  | nil hgap' => exact .nil (hgap.append hgap')
  | cons hgap' ht hrest =>
    rw [← List.append_assoc]
    exact .cons (hgap.append hgap') ht hrest

/-- The tokens of a part come first, and what is behind the part is split as if it stood alone. -/
theorem scanFrom_append (h : ReadAs rest ts cs) (position : Nat) :
    scanFrom position (cs ++ rest) =
      (scanFrom (position + cs.length) rest).map (ts ++ ·) := by
  induction h generalizing position with
  | nil hgap =>
    rw [scanFrom_blanks hgap]
    cases scanFrom _ rest <;> rfl
  | @cons gap t ts cs hgap ht _ ih =>
    rw [List.append_assoc, List.append_assoc, scanFrom_blanks hgap, ht.scanFrom_append, ih,
      List.length_append, List.length_append, Nat.add_assoc, Nat.add_assoc]
    cases scanFrom _ rest <;> rfl

theorem scanFrom_eq (h : ReadAs [] ts cs) (position : Nat) : scanFrom position cs = .ok ts := by
  have happend := h.scanFrom_append position
  rw [List.append_nil, scanFrom_nil] at happend
  rw [happend]
  exact congrArg Except.ok (List.append_nil ts)

theorem mono {rest' : List Char} (h : ReadAs rest ts cs) (hrest : rest' <+: rest) :
    ReadAs rest' ts cs := by
  induction h with
  | nil hgap => exact .nil hgap
  | cons hgap ht _ ih => exact .cons hgap (ht.mono ((List.prefix_append_right_inj _).2 hrest)) ih

theorem flatMap_chars (h : ReadAs rest ts cs) :
    ts.flatMap chars = cs.filter fun c => !Text.isBlank c := by
  induction h with
  | nil hgap =>
    rw [eq_comm, List.flatMap_nil, List.filter_eq_nil_iff]
    intro c hc
    simp [hgap c hc]
  | @cons gap t ts cs hgap ht _ ih =>
    have hnone : gap.filter (fun c => !Text.isBlank c) = [] := by
      rw [List.filter_eq_nil_iff]
      intro c hc
      simp [hgap c hc]
    have hall : t.chars.filter (fun c => !Text.isBlank c) = t.chars := by
      rw [List.filter_eq_self]
      intro c hc
      simp [ht.isBlank_of_mem hc]
    rw [List.flatMap_cons, List.filter_append, List.filter_append, hnone, hall, ih,
      List.nil_append]

theorem stands_of_mem (h : ReadAs rest ts cs) {t : Token} (ht : t ∈ ts) : Stands [] t := by
  induction h with
  | nil hgap => cases ht
  | cons hgap hstands _ ih =>
    rcases List.mem_cons.1 ht with rfl | ht
    · exact hstands.mono List.nil_prefix
    · exact ih ht

theorem exists_split {us : List Token} {t : Token} {vs : List Token}
    (h : ReadAs rest (us ++ t :: vs) cs) : ∃ before after, before ++ (t.chars ++ after) = cs ∧
      ReadAs (t.chars ++ after ++ rest) us before ∧ Stands (after ++ rest) t ∧
      ReadAs rest vs after := by
  induction us generalizing cs with
  | nil =>
    cases h with
    | @cons gap _ _ after hgap ht hrest => exact ⟨gap, after, rfl, .nil hgap, ht, hrest⟩
  | cons u us ih =>
    cases h with
    | @cons gap _ _ cs hgap hu hrest =>
      obtain ⟨before, after, rfl, hus, ht, hvs⟩ := ih hrest
      refine ⟨gap ++ (u.chars ++ before), after, by simp, .cons hgap ?_ hus, ht, hvs⟩
      simpa using hu

/-- Tokens that are joined by blanks are read again. -/
theorem intercalate {gap : List Char} (hgap : Blanks gap) (hne : gap ≠ [])
    (hts : ∀ t ∈ ts, Stands [] t) : ReadAs [] ts (gap.intercalate (ts.map chars)) := by
  induction ts with
  | nil => exact .nil blanks_nil
  | cons t ts ih =>
    rw [List.forall_mem_cons] at hts
    cases ts with
    | nil =>
      have h := ReadAs.cons blanks_nil hts.1 (.nil blanks_nil)
      simpa using h
    | cons t' ts =>
      have hends : Numeral.EndsNumeral (gap ++ gap.intercalate ((t' :: ts).map chars)) :=
        endsNumeral_append hgap fun h => absurd h hne
      have h := ReadAs.cons blanks_nil (by simpa using hts.1.of_endsNumeral hends)
        ((ih hts.2).gap_append hgap)
      simpa using h

end ReadAs

inductive Splits (position : Nat) (cs : List Char) : Except Error (List Token) → Prop where
  | read {ts : List Token} (h : ReadAs [] ts cs) : Splits position cs (.ok ts)
  | stray {before : List Char} {c : Char} {after : List Char} {ts : List Token}
    (h : ReadAs (c :: after) ts before) (hc : IsStray c after) (hcs : before ++ c :: after = cs) :
    Splits position cs (.error (.strayCharacter c (position + before.length)))

theorem Splits.token_append {position : Nat} {t : Token} {cs : List Char}
    {result : Except Error (List Token)} (ht : Stands cs t)
    (h : Splits (position + t.chars.length) cs result) :
    Splits position (t.chars ++ cs) (result.map (t :: ·)) := by
  cases h with
  | read h => exact .read (.cons blanks_nil (by rwa [List.append_nil]) h)
  | @stray before c after ts h hc hcs =>
    subst hcs
    rw [Nat.add_assoc, ← List.length_append]
    exact .stray (.cons blanks_nil ht h) hc (List.append_assoc _ _ _)

theorem Splits.blank_cons {position : Nat} {c : Char} {cs : List Char}
    {result : Except Error (List Token)} (hc : Text.isBlank c = true)
    (h : Splits (position + 1) cs result) : Splits position (c :: cs) result := by
  have hgap : Blanks [c] := by simpa [Blanks] using hc
  cases h with
  | read h => exact .read (h.gap_append hgap)
  | @stray before c' after ts h hc' hcs =>
    subst hcs
    rw [Nat.add_assoc, Nat.add_comm 1, ← List.length_cons (a := c)]
    exact .stray (h.gap_append hgap) hc' rfl

theorem splits_scanFrom (position : Nat) (cs : List Char) :
    Splits position cs (scanFrom position cs) := by
  -- one case for each way out of the definition, in its order
  fun_induction scanFrom position cs with
  | case1 => exact .read (.nil blanks_nil)
  | case2 position c rest hblank ih => exact ih.blank_cons hblank
  | case3 position c rest hblank lexeme rest' hfound ih =>
    obtain ⟨hcs, ⟨n, rfl⟩, hlongest⟩ := Numeral.spanNumber?_eq_some_iff.1 hfound
    rw [← hcs]
    exact ih.token_append (t := .number n.chars) (.number n hlongest)
  | case4 position c rest hblank hnone t ht ih =>
    obtain ⟨hchars, hnumber⟩ := chars_of_ofChar? ht
    have hsplits : Splits position (t.chars ++ rest) _ :=
      Splits.token_append (.single hnumber) (by rwa [hchars, List.length_singleton])
    simpa [hchars] using hsplits
  | case5 position c rest hblank hnone ht =>
    obtain ⟨hdigit, hfraction⟩ := not_digit_of_spanNumber? hnone
    exact .stray (.nil blanks_nil) ⟨by simpa using hblank, hdigit, ht, hfraction⟩ rfl

theorem readAs_of_scanFrom {position : Nat} {cs : List Char} {ts : List Token}
    (h : scanFrom position cs = .ok ts) : ReadAs [] ts cs := by
  have hsplits := splits_scanFrom position cs
  rw [h] at hsplits
  cases hsplits with
  | read h => exact h

/-- A text is split without loss. Its tokens are single characters and numerals, together they are
the text without its blanks, each number is as long as it can be where it stands, and with any
blanks between them the tokens are read again. A text that is not split has a stray character,
which is no blank, digit, operator or parenthesis, nor a point in front of a digit; the error tells
its position, and the text before it is split. -/
theorem scan_lossless (text : String) :
    match scan text with
    | .ok ts =>
      (∀ t ∈ ts, (∃ c ∈ ['+', '-', '*', '/', '(', ')'], t.chars = [c]) ∨
        ∃ n : Numeral, t = .number n.chars) ∧
      ts.flatMap chars = text.toList.filter (fun c => !Text.isBlank c) ∧
      (∀ us lexeme vs, ts = us ++ .number lexeme :: vs → ∃ before after,
        text.toList = before ++ (lexeme ++ after) ∧ Numeral.IsLongest lexeme after ∧
        scan (String.ofList before) = .ok us ∧ scan (String.ofList after) = .ok vs) ∧
      ∀ gap, gap ≠ [] → Blanks gap →
        scan (String.ofList (gap.intercalate (ts.map chars))) = .ok ts
    | .error e => ∃ before c after ts,
      text.toList = before ++ c :: after ∧ e = .strayCharacter c before.length ∧
      scan (String.ofList before) = .ok ts ∧ Text.isBlank c = false ∧ isDigit c = false ∧
      ofChar? c = none ∧ (c = '.' → ∀ d ∈ after.head?, isDigit d = false) := by
  have hscan : ∀ {ts cs}, ReadAs [] ts cs → scan (String.ofList cs) = .ok ts := by
    intro ts cs h
    rw [scan, String.toList_ofList, h.scanFrom_eq]
  have hsplits := splits_scanFrom 0 text.toList
  rw [← scan] at hsplits
  generalize scan text = result at hsplits
  cases hsplits with
  | @read ts h =>
    refine ⟨?tokens, h.flatMap_chars, ?longest, ?joined⟩
    case tokens =>
      intro t ht
      cases h.stands_of_mem ht with
      | single hsingle => exact .inl (by cases t <;> simp_all [chars, isNumber])
      | number n _ => exact .inr ⟨n, rfl⟩
    case longest =>
      rintro us lexeme vs rfl
      obtain ⟨before, after, hcs, hus, hstands, hvs⟩ := h.exists_split
      refine ⟨before, after, hcs.symm, ?_, hscan (hus.mono List.nil_prefix), hscan hvs⟩
      rw [List.append_nil] at hstands
      cases hstands with
      | single hsingle => cases hsingle
      | number n hlongest => exact hlongest
    case joined =>
      intro gap hne hgap
      exact hscan (.intercalate hgap hne fun t => h.stands_of_mem)
  | @stray before c after ts h hc hcs =>
    refine ⟨before, c, after, ts, hcs.symm, ?_, hscan (h.mono List.nil_prefix), hc.notBlank,
      hc.notDigit, hc.notSingle, hc.noFraction⟩
    rw [Nat.zero_add]

end FormLogic.Formula.Token
