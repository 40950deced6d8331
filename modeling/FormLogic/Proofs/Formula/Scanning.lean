import FormLogic.Proofs.Formula.Tree
import FormLogic.Proofs.Text.Blank

namespace FormLogic.Formula

open Text

/-- A text consists of parts with blanks between and around them. -/
inductive Spaced {α : Type} (chars : α → List Char) : List α → List Char → Prop where
  | nil {gap : List Char} (hgap : Blanks gap) : Spaced chars [] gap
  | cons {gap : List Char} {a : α} {as : List α} {cs : List Char} (hgap : Blanks gap)
    (hrest : Spaced chars as cs) : Spaced chars (a :: as) (gap ++ (chars a ++ cs))

namespace Spaced

variable {α β : Type} {chars : α → List Char} {as : List α} {cs : List Char}

theorem gap_append {gap : List Char} (hgap : Blanks gap) (h : Spaced chars as cs) :
    Spaced chars as (gap ++ cs) := by
  cases h with
  | nil hgap' => exact .nil (hgap.append hgap')
  | cons hgap' hrest =>
    rw [← List.append_assoc]
    exact .cons (hgap.append hgap') hrest

theorem append {as' : List α} {cs' : List Char} (h : Spaced chars as cs)
    (h' : Spaced chars as' cs') : Spaced chars (as ++ as') (cs ++ cs') := by
  induction h with
  | nil hgap => exact h'.gap_append hgap
  | cons hgap _ ih =>
    rw [List.append_assoc, List.append_assoc]
    exact .cons hgap ih

theorem singleton (chars : α → List Char) (a : α) : Spaced chars [a] (chars a) := by
  rw [← List.append_nil (chars a)]
  exact .cons blanks_nil (.nil blanks_nil)

theorem congr {chars' : α → List Char} (h : Spaced chars as cs)
    (hchars : ∀ a ∈ as, chars a = chars' a) : Spaced chars' as cs := by
  induction h with
  | nil hgap => exact .nil hgap
  | @cons gap a as cs hgap _ ih =>
    rw [hchars a List.mem_cons_self]
    exact .cons hgap (ih fun b hb => hchars b (List.mem_cons_of_mem a hb))

theorem flatMap_chars (chars : α → List Char) (as : List α) :
    Spaced chars as (as.flatMap chars) := by
  induction as with
  | nil => exact .nil blanks_nil
  | cons a as ih => exact (singleton chars a).append ih

theorem flatMap {chars' : β → List Char} {f : α → List β} (h : Spaced chars as cs)
    (hf : ∀ a ∈ as, Spaced chars' (f a) (chars a)) : Spaced chars' (as.flatMap f) cs := by
  induction h with
  | nil hgap => exact .nil hgap
  | @cons gap a as cs hgap _ ih =>
    rw [List.flatMap_cons]
    have hrest := ih fun b hb => hf b (List.mem_cons_of_mem a hb)
    exact ((hf a List.mem_cons_self).append hrest).gap_append hgap

theorem mem_iff (h : Spaced chars as cs) {c : Char} (hc : Text.isBlank c = false) :
    c ∈ cs ↔ ∃ a ∈ as, c ∈ chars a := by
  induction h with
  | nil hgap => simpa using hgap.not_mem hc
  | cons hgap _ ih => simp [hgap.not_mem hc, ih]

end Spaced

namespace Token

def Separated (ts : List Token) : Prop :=
  ts.IsChain fun t t' => t.isNumber = true → t'.isNumber = false

theorem isBlank_of_isDigit {c : Char} (h : isDigit c = true) : Text.isBlank c = false := by
  rw [Numeral.isDigit_iff] at h
  simp only [Text.isBlank, Text.isWhiteSpace, Bool.or_eq_false_iff, Bool.and_eq_false_iff,
    decide_eq_false_iff_not, beq_eq_false_iff_ne]
  omega

theorem exists_chars_eq {t : Token} (h : t.isNumber = false) :
    ∃ c, t.chars = [c] ∧ ofChar? c = some t ∧ isDigit c = false ∧ c ≠ '.' ∧
      Text.isBlank c = false := by
  cases t with
  | number lexeme => cases h
  | plus => exact ⟨'+', rfl, by decide⟩
  | minus => exact ⟨'-', rfl, by decide⟩
  | times => exact ⟨'*', rfl, by decide⟩
  | divide => exact ⟨'/', rfl, by decide⟩
  | openParen => exact ⟨'(', rfl, by decide⟩
  | closeParen => exact ⟨')', rfl, by decide⟩

theorem spanNumber?_eq_none {c : Char} (hdigit : isDigit c = false) (hpoint : c ≠ '.')
    (cs : List Char) : spanNumber? (c :: cs) = none := by
  have htake : (c :: cs).takeWhile isDigit = [] := by simp [hdigit]
  have hdrop : (c :: cs).dropWhile isDigit = c :: cs := by simp [hdigit]
  simp only [spanNumber?, htake, hdrop]
  split
  · next heq => exact absurd (List.cons.inj heq).1 hpoint
  · rfl

theorem scanFrom_nil (position : Nat) : scanFrom position [] = .ok [] := by
  unfold scanFrom
  rfl

theorem scanFrom_blank {c : Char} (h : Text.isBlank c = true) (position : Nat) (cs : List Char) :
    scanFrom position (c :: cs) = scanFrom (position + 1) cs := by
  conv => lhs; unfold scanFrom
  exact if_pos h

theorem scanFrom_number {c : Char} (hblank : Text.isBlank c = false) (position : Nat)
    {cs lexeme rest : List Char} (h : spanNumber? (c :: cs) = some (lexeme, rest)) :
    scanFrom position (c :: cs) =
      (scanFrom (position + lexeme.length) rest).map (.number lexeme :: ·) := by
  conv => lhs; unfold scanFrom
  simp only [hblank, Bool.false_eq_true, if_false]
  split
  · next lexeme' rest' hfound =>
    rw [h] at hfound
    cases hfound
    rfl
  · next hfound =>
    rw [h] at hfound
    cases hfound

theorem scanFrom_ofChar? {c : Char} (hblank : Text.isBlank c = false) (position : Nat)
    {cs : List Char} (h : spanNumber? (c :: cs) = none) {t : Token} (ht : ofChar? c = some t) :
    scanFrom position (c :: cs) = (scanFrom (position + 1) cs).map (t :: ·) := by
  conv => lhs; unfold scanFrom
  simp only [hblank, Bool.false_eq_true, if_false]
  split
  · next lexeme rest hfound =>
    rw [h] at hfound
    cases hfound
  · rw [ht]

theorem scanFrom_blanks {gap : List Char} (hgap : Blanks gap) (position : Nat) (cs : List Char) :
    scanFrom position (gap ++ cs) = scanFrom (position + gap.length) cs := by
  induction gap generalizing position with
  | nil => rfl
  | cons c gap ih =>
    rw [List.cons_append, scanFrom_blank (hgap c List.mem_cons_self),
      ih (fun c' hc' => hgap c' (List.mem_cons_of_mem c hc')), List.length_cons, Nat.add_right_comm,
      Nat.add_assoc]

theorem scanFrom_single {t : Token} (ht : t.isNumber = false) (position : Nat)
    (cs : List Char) :
    scanFrom position (t.chars ++ cs) = (scanFrom (position + 1) cs).map (t :: ·) := by
  obtain ⟨c, hchars, hc, hdigit, hpoint, hblank⟩ := exists_chars_eq ht
  rw [hchars, List.singleton_append]
  exact scanFrom_ofChar? hblank position (spanNumber?_eq_none hdigit hpoint cs) hc

theorem scanFrom_numeral (n : Numeral) (position : Nat) {cs : List Char}
    (hcs : Numeral.IsLongest n.chars cs) :
    scanFrom position (n.chars ++ cs) =
      (scanFrom (position + n.chars.length) cs).map (.number n.chars :: ·) := by
  have hspan := Numeral.spanNumber?_eq_some_iff.2 ⟨rfl, ⟨n, rfl⟩, hcs⟩
  have hmem : ∀ c ∈ n.chars, isDigit c = true ∨ c = '.' := fun c hc => n.mem_chars hc
  cases hchars : n.chars with
  | nil => exact absurd hchars n.chars_ne_nil
  | cons c lexeme =>
    have hblank : Text.isBlank c = false := by
      rw [hchars] at hmem
      rcases hmem c List.mem_cons_self with h | rfl
      · exact isBlank_of_isDigit h
      · decide
    rw [hchars, List.cons_append] at hspan
    exact scanFrom_number hblank position hspan

theorem endsNumeral_append {gap cs : List Char} (hgap : Blanks gap)
    (h : gap = [] → Numeral.EndsNumeral cs) : Numeral.EndsNumeral (gap ++ cs) := by
  cases gap with
  | nil => exact h rfl
  | cons c gap =>
    intro c' hc'
    obtain rfl : c = c' := by simpa using hc'
    have hblank := hgap c List.mem_cons_self
    constructor
    · by_contra hdigit
      rw [isBlank_of_isDigit (by simpa using hdigit)] at hblank
      cases hblank
    · rintro rfl
      exact absurd hblank (by decide)

/-- A text of tokens in which no number comes first cannot go on with a number. -/
theorem endsNumeral_of_spaced {ts : List Token} {cs : List Char} (h : Spaced chars ts cs)
    (hts : ∀ t ∈ ts.head?, t.isNumber = false) : Numeral.EndsNumeral cs := by
  cases h with
  | nil hgap =>
    rw [← List.append_nil cs]
    exact endsNumeral_append hgap fun _ => by simp [Numeral.EndsNumeral]
  | @cons gap t ts cs hgap hrest =>
    apply endsNumeral_append hgap
    rintro - c hc
    obtain ⟨c', hchars, -, hdigit, hpoint, -⟩ := exists_chars_eq (hts t rfl)
    obtain rfl : c' = c := by simpa [hchars] using hc
    exact ⟨hdigit, hpoint⟩

/-- A text of tokens, of which no two in a row are numbers, is split into these tokens. -/
theorem scanFrom_spaced {ts : List Token} {cs : List Char} (h : Spaced chars ts cs)
    (hnumerals : OfNumerals ts) (hseparated : Separated ts) (position : Nat) :
    scanFrom position cs = .ok ts := by
  induction h generalizing position with
  | @nil gap hgap =>
    rw [← List.append_nil gap, scanFrom_blanks hgap, scanFrom_nil]
  | @cons gap t ts cs hgap hrest ih =>
    rw [scanFrom_blanks hgap]
    have hnumerals' : OfNumerals ts := @OfNumerals.of_append [t] ts hnumerals
    have hchain := List.isChain_cons.1 hseparated
    cases ht : t.isNumber with
    | false =>
      rw [scanFrom_single ht, ih hnumerals' hchain.2]
      rfl
    | true =>
      -- the next token is no number, so the digits end with this one
      have hends := endsNumeral_of_spaced hrest fun t' ht' => hchain.1 t' ht' ht
      cases t with
      | number lexeme =>
        obtain ⟨n, rfl⟩ := hnumerals lexeme List.mem_cons_self
        have hlongest := n.isLongest_of_endsNumeral hends
        rw [show (Token.number n.chars).chars = n.chars from rfl, scanFrom_numeral n _ hlongest,
          ih hnumerals' hchain.2]
        rfl
      | _ => cases ht

end Token

namespace Tree

variable {l : Level}

theorem ofNumerals_tokens (t : Tree Numeral l) : OfNumerals t.tokens := by
  have hnumber : ∀ u ∈ t.tokens, ∀ lexeme, u = .number lexeme →
      ∃ n : Numeral, n.chars = lexeme := by
    apply forall_mem_write
    · rintro u hu lexeme rfl
      cases hu
    · intro n _ u hu lexeme h
      obtain rfl := List.mem_singleton.1 hu
      exact ⟨n, Token.number.inj h⟩
  intro lexeme hmem
  exact hnumber _ hmem lexeme rfl

open Token in
theorem separated_cons {t : Token} (ht : t.isNumber = false) {ts : List Token}
    (hts : Separated ts) : Separated (t :: ts) :=
  List.isChain_cons.2 ⟨fun _ _ h => absurd h (by simp [ht]), hts⟩

open Token in
theorem separated_append {t : Token} (ht : t.isNumber = false) {ts ts' : List Token}
    (hts : Separated ts) (hts' : Separated ts') : Separated (ts ++ t :: ts') := by
  refine List.isChain_append.2 ⟨hts, separated_cons ht hts', ?_⟩
  intro u _ u' hu' _
  obtain rfl : t = u' := by simpa using hu'
  exact ht

theorem separated_tokens (t : Tree Numeral l) : Token.Separated t.tokens := by
  induction t with
  | leaf n => exact List.isChain_singleton _
  | sign negative t ih => exact separated_cons (isNumber_signToken negative) ih
  | group t ih => exact separated_cons rfl (separated_append rfl ih List.isChain_nil)
  | first t ih => exact ih
  | join l j t ihl iht => exact separated_append j.isNumber_token ihl iht

/-- A text that consists of the tokens of a tree is split into these tokens. -/
theorem scan_tokens (t : Tree Numeral l) {text : String}
    (h : Spaced Token.chars t.tokens text.toList) : Token.scan text = .ok t.tokens :=
  Token.scanFrom_spaced h t.ofNumerals_tokens t.separated_tokens 0

end Tree
end FormLogic.Formula
