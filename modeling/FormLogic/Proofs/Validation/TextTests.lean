import FormLogic.Proofs.Text.Pattern
import FormLogic.Validation.Check
import Mathlib.Data.List.Chain

namespace FormLogic.Text

open Pattern
open scoped Computability

namespace Email

variable {c : Char} {cs l d : List Char}

/-- Latin letters of either case, dotted `I`, dotless `i`, long `s` and the sign of the kelvin. -/
def Letter (c : Char) : Prop :=
  c.isAlpha = true ∨ c ∈ ['\u0130', '\u0131', '\u017f', '\u212a']
  deriving Decidable

def LetterOrDigit (c : Char) : Prop := Letter c ∨ c.isDigit = true
  deriving Decidable

def LocalEnd (c : Char) : Prop := LetterOrDigit c ∨ c ∈ ['_', '+', '-']
  deriving Decidable

def Local (c : Char) : Prop := LocalEnd c ∨ c ∈ ['\x27', '.']
  deriving Decidable

/-- One of two neighbours is not a dot. -/
def Apart (a b : Char) : Prop := ¬(a = '.' ∧ b = '.')

structure IsLocalPart (l : List Char) : Prop where
  chars : ∃ init last, init ++ [last] = l ∧ (∀ c ∈ init, Local c) ∧ LocalEnd last
  start : l.head? ≠ some '.'
  apart : l.IsChain Apart

def IsLabel : List Char → Prop
  | [] => False
  | c :: cs => LetterOrDigit c ∧ ∀ d ∈ cs, LetterOrDigit d ∨ d = '-'

def IsTopLabel (cs : List Char) : Prop := 2 ≤ cs.length ∧ ∀ c ∈ cs, Letter c

/-- What stands behind the `@`. Split at its dots, it has at least two labels. -/
def IsDomain (d : List Char) : Prop :=
  ∃ labels top, d.splitOn '.' = labels ++ [top] ∧ labels ≠ [] ∧
    (∀ label ∈ labels, IsLabel label) ∧ IsTopLabel top

/-- A local part and a domain with the only `@` between them. -/
def IsAddress (cs : List Char) : Prop :=
  ∃ l d, l ++ '@' :: d = cs ∧ '@' ∉ l ∧ '@' ∉ d ∧ IsLocalPart l ∧ IsDomain d

theorem isLetter_iff : isLetter c = true ↔ Letter c := by
  simp only [isLetter, Letter, Bool.or_eq_true, beq_iff_eq, List.mem_cons, List.not_mem_nil,
    ← Char.toNat_inj, or_assoc, or_false]
  rfl

theorem isLetterOrDigit_iff : isLetterOrDigit c = true ↔ LetterOrDigit c := by
  rw [isLetterOrDigit, Bool.or_eq_true, isLetter_iff, LetterOrDigit]

theorem isLocalEnd_iff : isLocalEnd c = true ↔ LocalEnd c := by
  simp [isLocalEnd, LocalEnd, isLetterOrDigit_iff, or_assoc]

theorem isLocal_iff : isLocal c = true ↔ Local c := by
  simp [isLocal, Local, isLocalEnd_iff, or_assoc]

theorem isLabelChar_iff : isLabelChar c = true ↔ LetterOrDigit c ∨ c = '-' := by
  simp [isLabelChar, isLetterOrDigit_iff]

def localParts : Language Char := (single isLocal)∗ * single isLocalEnd

def dottedLabels : Language Char :=
  single isLetterOrDigit * (single isLabelChar)∗ * single (· == '.')

def domains : Language Char :=
  dottedLabels * dottedLabels∗ * (single isLetter ^ 2 * (single isLetter)∗)

theorem takes_parts : Takes parts (localParts * single (· == '@') * domains) := by
  have hlabel : Takes label dottedLabels :=
    ((takes_oneOf _).append (takes_manyOf _)).append (takes_oneOf _)
  exact (((takes_manyOf _).append (takes_oneOf _)).append (takes_oneOf _)).append
    ((hlabel.append hlabel.many).append (takes_atLeast 2 isLetter))

theorem mem_parts : cs ∈ localParts * single (· == '@') * domains ↔
    ∃ l d, l ++ '@' :: d = cs ∧ l ∈ localParts ∧ d ∈ domains := by
  constructor
  · rintro ⟨_, ⟨l, hl, _, ⟨c, hc, rfl⟩, rfl⟩, d, hd, rfl⟩
    rw [beq_iff_eq.1 hc]
    exact ⟨l, d, by simp, hl, hd⟩
  · rintro ⟨l, d, rfl, hl, hd⟩
    have hat : ['@'] ∈ single (· == '@') := ⟨'@', beq_self_eq_true _, rfl⟩
    simpa using Language.append_mem_mul (Language.append_mem_mul hl hat) hd

theorem mem_localParts : l ∈ localParts ↔
    ∃ init last, init ++ [last] = l ∧ (∀ c ∈ init, Local c) ∧ LocalEnd last := by
  constructor
  · rintro ⟨init, hinit, _, ⟨last, hlast, rfl⟩, rfl⟩
    exact ⟨init, last, rfl, fun c hc => isLocal_iff.1 (mem_kstar_single.1 hinit c hc),
      isLocalEnd_iff.1 hlast⟩
  · rintro ⟨init, last, rfl, hinit, hlast⟩
    exact Language.append_mem_mul
      (mem_kstar_single.2 fun c hc => isLocal_iff.2 (hinit c hc))
      ⟨last, isLocalEnd_iff.2 hlast, rfl⟩

theorem mem_dottedLabels : cs ∈ dottedLabels ↔ ∃ label, IsLabel label ∧ label ++ ['.'] = cs := by
  constructor
  · rintro ⟨_, ⟨_, ⟨c, hc, rfl⟩, rest, hrest, rfl⟩, _, ⟨dot, hdot, rfl⟩, rfl⟩
    rw [beq_iff_eq.1 hdot]
    exact ⟨c :: rest, ⟨isLetterOrDigit_iff.1 hc,
      fun d hd => isLabelChar_iff.1 (mem_kstar_single.1 hrest d hd)⟩, rfl⟩
  · rintro ⟨label, hlabel, rfl⟩
    cases label with
    | nil => exact hlabel.elim
    | cons c rest =>
      refine Language.append_mem_mul ?_ ⟨'.', beq_self_eq_true _, rfl⟩
      exact cons_mem_single_mul.2 ⟨isLetterOrDigit_iff.2 hlabel.1,
        mem_kstar_single.2 fun d hd => isLabelChar_iff.2 (hlabel.2 d hd)⟩

theorem mem_topLabels : cs ∈ single isLetter ^ 2 * (single isLetter)∗ ↔ IsTopLabel cs := by
  simp only [mem_atLeast_single, isLetter_iff, IsTopLabel]

theorem mem_domains : d ∈ domains ↔ ∃ labels top, labels ≠ [] ∧
    (∀ label ∈ labels, IsLabel label) ∧ IsTopLabel top ∧
      (labels.map (· ++ ['.'])).flatten ++ top = d := by
  constructor
  · rintro ⟨_, hfront, top, htop, rfl⟩
    obtain ⟨parts, hne, hparts, rfl⟩ := mem_mul_kstar.1 hfront
    have hdot : ∀ part ∈ parts, IsLabel part.dropLast ∧ part.dropLast ++ ['.'] = part := by
      intro part hpart
      obtain ⟨label, hlabel, rfl⟩ := mem_dottedLabels.1 (hparts part hpart)
      rw [List.dropLast_concat]
      exact ⟨hlabel, rfl⟩
    have hmap : (parts.map List.dropLast).map (· ++ ['.']) = parts := by
      rw [List.map_map]
      exact (List.map_congr_left fun part hpart => (hdot part hpart).2).trans (List.map_id' parts)
    refine ⟨parts.map List.dropLast, top, ?_, ?_, mem_topLabels.1 htop, by rw [hmap]⟩
    · exact fun hnil => hne (List.map_eq_nil_iff.1 hnil)
    · simpa using fun part hpart => (hdot part hpart).1
  · rintro ⟨labels, top, hne, hlabels, htop, rfl⟩
    refine Language.append_mem_mul (mem_mul_kstar.2 ⟨_, ?_, ?_, rfl⟩) (mem_topLabels.2 htop)
    · exact fun hnil => hne (List.map_eq_nil_iff.1 hnil)
    · intro part hpart
      obtain ⟨label, hlabel, rfl⟩ := List.mem_map.1 hpart
      exact mem_dottedLabels.2 ⟨label, hlabels label hlabel, rfl⟩

theorem IsLabel.chars {label : List Char} (h : IsLabel label) :
    ∀ c ∈ label, LetterOrDigit c ∨ c = '-' := by
  cases label with
  | nil => exact h.elim
  | cons c cs => exact List.forall_mem_cons.2 ⟨.inl h.1, h.2⟩

theorem IsLabel.dot_not_mem {label : List Char} (h : IsLabel label) : '.' ∉ label :=
  fun hdot => absurd (h.chars '.' hdot) (by decide)

theorem IsTopLabel.dot_not_mem {top : List Char} (h : IsTopLabel top) : '.' ∉ top :=
  fun hdot => absurd (h.2 '.' hdot) (by decide)

theorem intercalate_concat (x : Char) (parts : List (List Char)) (last : List Char) :
    [x].intercalate (parts ++ [last]) = (parts.map (· ++ [x])).flatten ++ last := by
  induction parts with
  | nil => simp [List.intercalate]
  | cons part parts ih =>
    cases h : parts ++ [last] with
    | nil => exact absurd h (by simp)
    | cons part' parts' =>
      rw [List.cons_append, h, List.intercalate_cons_cons, ← h, ih]
      simp

theorem isDomain_iff : IsDomain d ↔ d ∈ domains := by
  rw [mem_domains]
  constructor
  · rintro ⟨labels, top, hsplit, hne, hlabels, htop⟩
    refine ⟨labels, top, hne, hlabels, htop, ?_⟩
    rw [← intercalate_concat, ← hsplit, List.intercalate_splitOn]
  · rintro ⟨labels, top, hne, hlabels, htop, rfl⟩
    refine ⟨labels, top, ?_, hne, hlabels, htop⟩
    rw [← intercalate_concat, List.splitOn_intercalate '.' _ (by simp)]
    intro label hlabel
    rcases List.mem_append.1 hlabel with hlabel | hlabel
    · exact (hlabels label hlabel).dot_not_mem
    · rw [List.mem_singleton.1 hlabel]
      exact htop.dot_not_mem

theorem isChain_apart_of_not_mem (h : '.' ∉ cs) : cs.IsChain Apart := by
  rw [List.isChain_iff_forall_rel_of_append_cons_cons]
  rintro a b before after rfl ⟨rfl, -⟩
  simp at h

/-- Labels are not empty, so that the dots behind them stand apart. -/
theorem isChain_apart_labels {labels : List (List Char)} {top : List Char}
    (hlabels : ∀ label ∈ labels, IsLabel label) (htop : IsTopLabel top) :
    ((labels.map (· ++ ['.'])).flatten ++ top).head? ≠ some '.' ∧
      ((labels.map (· ++ ['.'])).flatten ++ top).IsChain Apart := by
  induction labels with
  | nil =>
    exact ⟨fun hhead => htop.dot_not_mem (List.mem_of_head? hhead),
      isChain_apart_of_not_mem htop.dot_not_mem⟩
  | cons label labels ih =>
    obtain ⟨hlabel, hlabels⟩ := List.forall_mem_cons.1 hlabels
    obtain ⟨hhead, hchain⟩ := ih hlabels
    have hdot := hlabel.dot_not_mem
    simp only [List.map_cons, List.flatten_cons, List.append_assoc, List.singleton_append]
    constructor
    · cases label with
      | nil => exact hlabel.elim
      | cons c cs =>
        rintro ⟨⟩
        exact hdot List.mem_cons_self
    · refine List.isChain_append.2 ⟨isChain_apart_of_not_mem hdot, ?_, ?_⟩
      · refine List.isChain_cons.2 ⟨?_, hchain⟩
        rintro _ hnext ⟨-, rfl⟩
        exact hhead hnext
      · rintro _ hlast _ - ⟨rfl, -⟩
        exact hdot (List.mem_of_getLast? hlast)

/-- The search for two dots sees a text without line ends as a whole. -/
theorem passes_twoDots (hline : '\n' ∉ cs) :
    twoDots.passes (fun _ => true) cs = false ↔ cs.IsChain Apart := by
  have hdots : Takes (char '.' ++ char '.') (single (· == '.') * single (· == '.')) :=
    (takes_oneOf _).append (takes_oneOf _)
  rw [← Bool.not_eq_true, twoDots, hdots.passes_anyChars hline,
    List.isChain_iff_forall_rel_of_append_cons_cons]
  constructor
  · rintro hnone _ _ before after rfl ⟨rfl, rfl⟩
    exact hnone ⟨_, Language.append_mem_mul ⟨'.', rfl, rfl⟩ ⟨'.', rfl, rfl⟩, before, after, by simp⟩
  · rintro hchain ⟨_, ⟨_, ⟨a, ha, rfl⟩, _, ⟨b, hb, rfl⟩, rfl⟩, before, after, rfl⟩
    refine hchain (?_ : _ = before ++ a :: b :: after) ⟨beq_iff_eq.1 ha, beq_iff_eq.1 hb⟩
    simp

theorem local_of_mem_localParts (h : l ∈ localParts) : ∀ c ∈ l, Local c := by
  obtain ⟨init, last, rfl, hinit, hlast⟩ := mem_localParts.1 h
  intro c hc
  rcases List.mem_append.1 hc with hc | hc
  · exact hinit c hc
  · rw [List.mem_singleton.1 hc]
    exact .inl hlast

theorem chars_of_mem_domains (h : d ∈ domains) : ∀ c ∈ d, LetterOrDigit c ∨ c ∈ ['-', '.'] := by
  obtain ⟨labels, top, -, hlabels, htop, rfl⟩ := mem_domains.1 h
  intro c hc
  rcases List.mem_append.1 hc with hc | hc
  · obtain ⟨_, hpart, hc⟩ := List.mem_flatten.1 hc
    obtain ⟨label, hlabel, rfl⟩ := List.mem_map.1 hpart
    rcases List.mem_append.1 hc with hc | hc
    · exact ((hlabels label hlabel).chars c hc).imp_right fun hdash => by simp [hdash]
    · exact .inr (List.mem_cons_of_mem _ hc)
  · exact .inl (.inl (htop.2 c hc))

theorem newline_not_mem (hl : l ∈ localParts) (hd : d ∈ domains) : '\n' ∉ l ++ '@' :: d := by
  intro hnewline
  rcases List.mem_append.1 hnewline with hnewline | hnewline
  · exact absurd (local_of_mem_localParts hl _ hnewline) (by decide)
  · rcases List.mem_cons.1 hnewline with hnewline | hnewline
    · exact absurd hnewline (by decide)
    · exact absurd (chars_of_mem_domains hd _ hnewline) (by decide)

theorem isChain_apart_append (hd : d ∈ domains) :
    (l ++ '@' :: d).IsChain Apart ↔ l.IsChain Apart := by
  obtain ⟨labels, top, -, hlabels, htop, rfl⟩ := mem_domains.1 hd
  rw [List.isChain_append]
  refine ⟨And.left, fun hl => ⟨hl, List.isChain_cons.2 ⟨?_, ?_⟩, ?_⟩⟩
  · rintro _ - ⟨hat, -⟩
    exact absurd hat (by decide)
  · exact (isChain_apart_labels hlabels htop).2
  · rintro _ - _ ⟨⟩ ⟨-, hat⟩
    exact absurd hat (by decide)

/-- In a local part, an `@` and a domain, what must not follow is told from the local part. -/
theorem not_ahead_iff (hl : l ∈ localParts) (hd : d ∈ domains) :
    (char '.').passes (fun _ => true) (l ++ '@' :: d) = false ∧
        twoDots.passes (fun _ => true) (l ++ '@' :: d) = false ↔
      l.head? ≠ some '.' ∧ l.IsChain Apart := by
  have hne : l ≠ [] := by
    obtain ⟨init, last, rfl, -⟩ := mem_localParts.1 hl
    simp
  rw [← Bool.not_eq_true, passes_char, passes_twoDots (newline_not_mem hl hd),
    isChain_apart_append hd, List.head?_append_of_ne_nil l hne]

theorem isAddress_iff {s : String} : isAddress s = true ↔ IsAddress s.toList := by
  rw [isAddress, isWholeText, pattern, passes_notAhead_append, passes_notAhead_append,
    takes_parts.passes_isEmpty, mem_parts]
  constructor
  · rintro ⟨hstart, hdots, l, d, hcs, hl, hd⟩
    rw [← hcs] at hstart hdots
    obtain ⟨hstart, hapart⟩ := (not_ahead_iff hl hd).1 ⟨hstart, hdots⟩
    refine ⟨l, d, hcs, ?_, ?_, ⟨mem_localParts.1 hl, hstart, hapart⟩, isDomain_iff.2 hd⟩
    · exact fun hat => absurd (local_of_mem_localParts hl _ hat) (by decide)
    · exact fun hat => absurd (chars_of_mem_domains hd _ hat) (by decide)
  · rintro ⟨l, d, hcs, -, -, ⟨hl, hstart, hapart⟩, hd⟩
    obtain ⟨hstart, hdots⟩ :=
      (not_ahead_iff (mem_localParts.2 hl) (isDomain_iff.1 hd)).2 ⟨hstart, hapart⟩
    rw [hcs] at hstart hdots
    exact ⟨hstart, hdots, l, d, hcs, mem_localParts.2 hl, isDomain_iff.1 hd⟩

theorem IsAddress.newline_not_mem (h : IsAddress cs) : '\n' ∉ cs := by
  obtain ⟨l, d, rfl, -, -, hl, hd⟩ := h
  exact Email.newline_not_mem (mem_localParts.2 hl.chars) (isDomain_iff.1 hd)

end Email

namespace Password

variable {cs : List Char}

/-- Eight characters or more of an alphabet, with a letter and a digit. -/
structure IsStrong (cs : List Char) : Prop where
  length : 8 ≤ cs.length
  chars : ∀ c ∈ cs, c.isAlphanum = true ∨ c ∈ ['@', '$', '!', '%', '*', '#', '?', '&']
  letter : ∃ c ∈ cs, c.isAlpha = true
  digit : ∃ c ∈ cs, c.isDigit = true

theorem IsStrong.newline_not_mem (h : IsStrong cs) : '\n' ∉ cs :=
  fun hnewline => absurd (h.chars _ hnewline) (by decide)

theorem isPasswordChar_iff {c : Char} : isPasswordChar c = true ↔
    c.isAlphanum = true ∨ c ∈ ['@', '$', '!', '%', '*', '#', '?', '&'] := by
  rw [isPasswordChar, Bool.or_eq_true, List.contains_iff_mem, marks]

theorem passes_oneOf {isClass : Char → Bool} (hline : '\n' ∉ cs) :
    (anyChars ++ oneOf isClass).passes (fun _ => true) cs = true ↔
      ∃ c ∈ cs, isClass c = true := by
  rw [(takes_oneOf isClass).passes_anyChars hline]
  constructor
  · rintro ⟨_, ⟨c, hc, rfl⟩, hinfix⟩
    exact ⟨c, (List.singleton_infix_iff _ _).1 hinfix, hc⟩
  · rintro ⟨c, hmem, hc⟩
    exact ⟨[c], ⟨c, hc, rfl⟩, (List.singleton_infix_iff _ _).2 hmem⟩

theorem isStrong_iff {s : String} : isStrong s = true ↔ IsStrong s.toList := by
  rw [isStrong, isWholeText, pattern, passes_ahead_append, passes_ahead_append,
    (takes_atLeast 8 _).passes_isEmpty, mem_atLeast_single]
  simp only [isPasswordChar_iff]
  constructor
  · rintro ⟨hletter, hdigit, hlength, hchars⟩
    have hline : '\n' ∉ s.toList := fun hnewline => absurd (hchars _ hnewline) (by decide)
    exact ⟨hlength, hchars, (passes_oneOf hline).1 hletter,
      (passes_oneOf hline).1 hdigit⟩
  · intro h
    exact ⟨(passes_oneOf h.newline_not_mem).2 h.letter,
      (passes_oneOf h.newline_not_mem).2 h.digit, h.length, h.chars⟩

end Password
end FormLogic.Text

namespace FormLogic.Test

/-- The tests of texts are passed by exactly the e-mail addresses and by exactly the strong
passwords. Neither is passed by a text that ends a line. -/
theorem email_password_holds_iff (s : String) :
    (Test.email.holds (.text s) = true ↔ Text.Email.IsAddress s.toList) ∧
    (Test.password.holds (.text s) = true ↔ Text.Password.IsStrong s.toList) ∧
    Test.email.holds (.text (s ++ "\n")) = false ∧
    Test.password.holds (.text (s ++ "\n")) = false := by
  have hend : '\n' ∈ (s ++ "\n").toList := by simp
  refine ⟨Text.Email.isAddress_iff, Text.Password.isStrong_iff, ?_, ?_⟩
  · rw [← Bool.not_eq_true]
    exact fun h => (Text.Email.isAddress_iff.1 h).newline_not_mem hend
  · rw [← Bool.not_eq_true]
    exact fun h => (Text.Password.isStrong_iff.1 h).newline_not_mem hend

end FormLogic.Test
