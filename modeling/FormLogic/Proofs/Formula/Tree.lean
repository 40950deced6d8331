import FormLogic.Formula.Evaluation
import FormLogic.Proofs.Formula.Numeral

namespace FormLogic.Formula

/-- The two kinds of chains: products of operands, and sums of products. -/
inductive Rank where
  | product
  | sum
  deriving DecidableEq

inductive Level where
  | operand
  | chain (r : Rank)
  deriving DecidableEq

def Rank.item : Rank → Level
  | .product => .operand
  | .sum => .chain .product

inductive Joint : Rank → Type where
  | times : Joint .product
  | divide : Joint .product
  | plus : Joint .sum
  | minus : Joint .sum

namespace Joint

def token {r : Rank} : Joint r → Token
  | .times => .times
  | .divide => .divide
  | .plus => .plus
  | .minus => .minus

def apply {r : Rank} : Joint r → Binary64 → Binary64 → Binary64
  | .times, x, y => x * y
  | .divide, x, y => x / y
  | .plus, x, y => x + y
  | .minus, x, y => x - y

def operator {r : Rank} : Joint r → Operator
  | .times => fun x y => .ok (x * y)
  | .divide => Formula.divide
  | .plus => fun x y => .ok (x + y)
  | .minus => fun x y => .ok (x - y)

theorem token_injective {r : Rank} {j j' : Joint r} (h : j.token = j'.token) : j = j' := by
  cases j <;> cases j' <;> first | rfl | cases h

end Joint

/-- A tree of the grammar:

    sum     ::= product | sum ("+" | "-") product
    product ::= operand | product ("*" | "/") operand
    operand ::= ("+" | "-") operand | "(" sum ")" | leaf

Chains grow to the right, so their operators associate to the left. -/
inductive Tree (α : Type) : Level → Type where
  | leaf (a : α) : Tree α .operand
  | sign (negative : Bool) (t : Tree α .operand) : Tree α .operand
  | group (t : Tree α (.chain .sum)) : Tree α .operand
  | first {r : Rank} (t : Tree α r.item) : Tree α (.chain r)
  | join {r : Rank} (l : Tree α (.chain r)) (j : Joint r) (t : Tree α r.item) : Tree α (.chain r)

def Joint.divisor {α : Type} : {r : Rank} → Joint r → Tree α r.item → List (Tree α .operand)
  | _, .divide, t => [t]
  | _, .times, _ => []
  | _, .plus, _ => []
  | _, .minus, _ => []

def signToken (negative : Bool) : Token := if negative then .minus else .plus

def Token.isNumber : Token → Bool
  | .number _ => true
  | _ => false

theorem isNumber_signToken (negative : Bool) : (signToken negative).isNumber = false := by
  cases negative <;> rfl

theorem Joint.isNumber_token {r : Rank} (j : Joint r) : j.token.isNumber = false := by
  cases j <;> rfl

namespace Tree

variable {α β : Type} {l : Level}

def value (leafValue : α → Binary64) : {l : Level} → Tree α l → Binary64
  | _, .leaf a => leafValue a
  | _, .sign negative t => if negative then -t.value leafValue else t.value leafValue
  | _, .group t => t.value leafValue
  | _, .first t => t.value leafValue
  | _, .join l j t => j.apply (l.value leafValue) (t.value leafValue)

def divisors : {l : Level} → Tree α l → List (Tree α .operand)
  | _, .leaf _ => []
  | _, .sign _ t => t.divisors
  | _, .group t => t.divisors
  | _, .first t => t.divisors
  | _, .join l j t => l.divisors ++ (j.divisor t ++ t.divisors)

/-- The greatest number of signs and parentheses on a path to a leaf, where a leaf may count
for some itself. -/
def nesting (leafNesting : α → Nat) : {l : Level} → Tree α l → Nat
  | _, .leaf a => leafNesting a
  | _, .sign _ t => t.nesting leafNesting + 1
  | _, .group t => t.nesting leafNesting + 1
  | _, .first t => t.nesting leafNesting
  | _, .join l _ t => max (l.nesting leafNesting) (t.nesting leafNesting)

def write (mark : Token → β) (leaf : α → List β) : {l : Level} → Tree α l → List β
  | _, .leaf a => leaf a
  | _, .sign negative t => mark (signToken negative) :: t.write mark leaf
  | _, .group t => mark .openParen :: t.write mark leaf ++ [mark .closeParen]
  | _, .first t => t.write mark leaf
  | _, .join l j t => l.write mark leaf ++ mark j.token :: t.write mark leaf

def leaves : {l : Level} → Tree α l → List α
  | _, .leaf a => [a]
  | _, .sign _ t => t.leaves
  | _, .group t => t.leaves
  | _, .first t => t.leaves
  | _, .join l _ t => l.leaves ++ t.leaves

def bind (f : α → Tree β .operand) : {l : Level} → Tree α l → Tree β l
  | _, .leaf a => f a
  | _, .sign negative t => .sign negative (t.bind f)
  | _, .group t => .group (t.bind f)
  | _, .first t => .first (t.bind f)
  | _, .join l j t => .join (l.bind f) j (t.bind f)

/-- Something is divided by zero. -/
def HasZeroDivisor (leafValue : α → Binary64) (t : Tree α l) : Prop :=
  ∃ d ∈ t.divisors, (d.value leafValue).isZero = true

instance (leafValue : α → Binary64) (t : Tree α l) : Decidable (t.HasZeroDivisor leafValue) :=
  inferInstanceAs (Decidable (∃ d ∈ t.divisors, (d.value leafValue).isZero = true))

/-- The value of a tree, or the division by zero that it has none for. -/
def result (leafValue : α → Binary64) (t : Tree α l) : Except Error Binary64 :=
  if t.HasZeroDivisor leafValue then .error .divisionByZero else .ok (t.value leafValue)

/-! ### Values -/

theorem hasZeroDivisor_join {r : Rank} (leafValue : α → Binary64) (l : Tree α (.chain r))
    (j : Joint r) (t : Tree α r.item) :
    (join l j t).HasZeroDivisor leafValue ↔ l.HasZeroDivisor leafValue ∨
      (∃ d ∈ j.divisor t, (d.value leafValue).isZero = true) ∨ t.HasZeroDivisor leafValue := by
  simp only [HasZeroDivisor, divisors, List.mem_append]
  grind

theorem operator_value {r : Rank} (leafValue : α → Binary64) (j : Joint r) (x : Binary64)
    (t : Tree α r.item) :
    j.operator x (t.value leafValue) =
      if ∃ d ∈ j.divisor t, (d.value leafValue).isZero = true then .error .divisionByZero
      else .ok (j.apply x (t.value leafValue)) := by
  cases j with
  | divide =>
    change Tree α .operand at t
    simp only [Joint.divisor, List.mem_singleton, exists_eq_left]
    rfl
  | _ => simp [Joint.operator, Joint.divisor, Joint.apply]

/-- Values are put together from the left, and a division by zero ends it. -/
theorem result_join {r : Rank} (leafValue : α → Binary64) (l : Tree α (.chain r)) (j : Joint r)
    (t : Tree α r.item) :
    (join l j t).result leafValue =
      (l.result leafValue).bind fun x => (t.result leafValue).bind (j.operator x) := by
  have hjoin := hasZeroDivisor_join leafValue l j t
  unfold result
  by_cases hl : l.HasZeroDivisor leafValue
  · rw [if_pos hl, if_pos (hjoin.2 (.inl hl))]
    rfl
  · by_cases ht : t.HasZeroDivisor leafValue
    · rw [if_neg hl, if_pos ht, if_pos (hjoin.2 (.inr (.inr ht)))]
      rfl
    · rw [if_neg hl, if_neg ht]
      simp only [Except.bind, operator_value, hjoin, hl, ht, false_or, or_false]
      rfl

theorem result_sign (leafValue : α → Binary64) (negative : Bool) (t : Tree α .operand) :
    (sign negative t).result leafValue =
      (t.result leafValue).map fun x => if negative then -x else x := by
  unfold result
  by_cases ht : t.HasZeroDivisor leafValue
  · rw [if_pos ht, if_pos (show (sign negative t).HasZeroDivisor leafValue from ht)]
    rfl
  · rw [if_neg ht, if_neg (show ¬(sign negative t).HasZeroDivisor leafValue from ht)]
    rfl

/-! ### Writing -/

section
variable {γ : Type} {mark : Token → β} {leaf : α → List β}

theorem forall_mem_write {P : β → Prop} (hmark : ∀ t : Token, t.isNumber = false → P (mark t))
    (t : Tree α l) (hleaf : ∀ a ∈ t.leaves, ∀ b ∈ leaf a, P b) : ∀ b ∈ t.write mark leaf, P b := by
  intro b hb
  induction t with
  | leaf a => exact hleaf a List.mem_cons_self b hb
  | sign negative t ih =>
    rcases List.mem_cons.1 hb with rfl | hb
    · exact hmark _ (isNumber_signToken negative)
    · exact ih hleaf hb
  | group t ih =>
    rcases List.mem_append.1 hb with hb | hb
    · rcases List.mem_cons.1 hb with rfl | hb
      · exact hmark _ rfl
      · exact ih hleaf hb
    · obtain rfl := List.mem_singleton.1 hb
      exact hmark _ rfl
  | first t ih => exact ih hleaf hb
  | join l j t ihl iht =>
    rcases List.mem_append.1 hb with hb | hb
    · exact ihl (fun a ha => hleaf a (List.mem_append_left _ ha)) hb
    · rcases List.mem_cons.1 hb with rfl | hb
      · exact hmark _ j.isNumber_token
      · exact iht (fun a ha => hleaf a (List.mem_append_right _ ha)) hb

theorem mem_write_of_mem_leaves {a : α} {b : β} (hb : b ∈ leaf a) (t : Tree α l)
    (ha : a ∈ t.leaves) : b ∈ t.write mark leaf := by
  induction t with
  | leaf a' =>
    obtain rfl := List.mem_singleton.1 ha
    exact hb
  | sign negative t ih => exact List.mem_cons_of_mem _ (ih ha)
  | group t ih => exact List.mem_append_left _ (List.mem_cons_of_mem _ (ih ha))
  | first t ih => exact ih ha
  | join l j t ihl iht =>
    rcases List.mem_append.1 ha with ha | ha
    · exact List.mem_append_left _ (ihl ha)
    · exact List.mem_append_right _ (List.mem_cons_of_mem _ (iht ha))

theorem flatMap_write {mark' : Token → γ} {g : β → List γ} (hmark : ∀ t, g (mark t) = [mark' t])
    (t : Tree α l) : (t.write mark leaf).flatMap g = t.write mark' fun a => (leaf a).flatMap g := by
  induction t with
  | leaf a => rfl
  | sign negative t ih => simp only [write, List.flatMap_cons, hmark, ih, List.singleton_append]
  | group t ih =>
    simp only [write, List.flatMap_append, List.flatMap_cons, List.flatMap_nil, hmark, ih,
      List.singleton_append, List.append_nil]
  | first t ih => exact ih
  | join l j t ihl iht =>
    simp only [write, List.flatMap_append, List.flatMap_cons, hmark, ihl, iht,
      List.singleton_append]

end

/-! ### Operands in the place of leaves -/

variable (f : α → Tree β .operand)

theorem write_bind {γ : Type} (mark : Token → γ) (leaf : β → List γ) (t : Tree α l) :
    (t.bind f).write mark leaf = t.write mark fun a => (f a).write mark leaf := by
  induction t with
  | leaf a => rfl
  | sign negative t ih => simp only [bind, write, ih]
  | group t ih => simp only [bind, write, ih]
  | first t ih => exact ih
  | join l j t ihl iht => simp only [bind, write, ihl, iht]

theorem value_bind (leafValue : β → Binary64) (t : Tree α l) :
    (t.bind f).value leafValue = t.value fun a => (f a).value leafValue := by
  induction t with
  | leaf a => rfl
  | sign negative t ih => simp only [bind, value, ih]
  | group t ih => exact ih
  | first t ih => exact ih
  | join l j t ihl iht => simp only [bind, value, ihl, iht]

theorem nesting_bind (leafNesting : β → Nat) (t : Tree α l) :
    (t.bind f).nesting leafNesting = t.nesting fun a => (f a).nesting leafNesting := by
  induction t with
  | leaf a => rfl
  | sign negative t ih => simp only [bind, nesting, ih]
  | group t ih => simp only [bind, nesting, ih]
  | first t ih => exact ih
  | join l j t ihl iht => simp only [bind, nesting, ihl, iht]

theorem nesting_congr {leafNesting leafNesting' : α → Nat} (t : Tree α l)
    (h : ∀ a ∈ t.leaves, leafNesting a = leafNesting' a) :
    t.nesting leafNesting = t.nesting leafNesting' := by
  induction t with
  | leaf a => exact h a List.mem_cons_self
  | sign negative t ih => simp only [nesting, ih h]
  | group t ih => simp only [nesting, ih h]
  | first t ih => exact ih h
  | join l j t ihl iht =>
    simp only [nesting, ihl fun a ha => h a (List.mem_append_left _ ha),
      iht fun a ha => h a (List.mem_append_right _ ha)]

theorem divisors_bind (hf : ∀ a, (f a).divisors = []) (t : Tree α l) :
    (t.bind f).divisors = t.divisors.map (·.bind f) := by
  induction t with
  | leaf a => exact hf a
  | sign negative t ih => exact ih
  | group t ih => exact ih
  | first t ih => exact ih
  | join l j t ihl iht =>
    have hj : j.divisor (t.bind f) = (j.divisor t).map (·.bind f) := by cases j <;> rfl
    simp only [bind, divisors, ihl, iht, hj, List.map_append]

theorem hasZeroDivisor_bind (hf : ∀ a, (f a).divisors = []) (leafValue : β → Binary64)
    (t : Tree α l) :
    (t.bind f).HasZeroDivisor leafValue ↔
      t.HasZeroDivisor fun a => (f a).value leafValue := by
  simp only [HasZeroDivisor, divisors_bind f hf, List.mem_map, exists_exists_and_eq_and,
    value_bind]

end Tree

/-! ### Where trees end -/

/-- Whether a token goes on with a chain of some level or of a tighter one. -/
def Level.continues : Level → Token → Bool
  | .chain _, .times => true
  | .chain _, .divide => true
  | .chain .sum, .plus => true
  | .chain .sum, .minus => true
  | _, _ => false

def Level.Ends (l : Level) (ts : List Token) : Prop := ∀ t ∈ ts.head?, l.continues t = false

theorem Level.ends_nil (l : Level) : l.Ends [] := by
  simp [Level.Ends]

theorem Level.ends_closeParen (l : Level) (ts : List Token) : l.Ends (.closeParen :: ts) := by
  intro t ht
  obtain rfl : Token.closeParen = t := by simpa using ht
  cases l <;> rfl

theorem Rank.ends_item {r : Rank} {ts : List Token} (h : (Level.chain r).Ends ts) :
    r.item.Ends ts := by
  intro t ht
  have hc := h t ht
  cases r <;> cases t <;> first | rfl | exact hc

theorem Joint.ends_item {r : Rank} (j : Joint r) (ts : List Token) :
    r.item.Ends (j.token :: ts) := by
  intro t ht
  obtain rfl : j.token = t := by simpa using ht
  cases j <;> rfl

theorem Joint.continues {r : Rank} (j : Joint r) : (Level.chain r).continues j.token = true := by
  cases j <;> rfl

namespace Tree

variable {l : Level}

def tokens (t : Tree Numeral l) : List Token := t.write id fun n => [.number n.chars]

theorem tokens_ne_nil (t : Tree Numeral l) : t.tokens ≠ [] := by
  induction t with
  | first t ih => exact ih
  | _ => simp [tokens, write]

theorem nesting_le_length (t : Tree Numeral l) : t.nesting (fun _ => 0) ≤ t.tokens.length := by
  induction t with
  | leaf n => exact Nat.zero_le _
  | sign negative t ih => exact Nat.succ_le_succ ih
  | group t ih =>
    have hlen : (group t).tokens.length = t.tokens.length + 1 + 1 := by simp [tokens, write]
    rw [hlen]
    exact (Nat.succ_le_succ ih).trans (Nat.le_succ _)
  | first t ih => exact ih
  | join l j t ihl iht =>
    have hlen : (join l j t).tokens.length = l.tokens.length + (t.tokens.length + 1) := by
      simp [tokens, write]
    rw [nesting, hlen]
    omega

/-! ### Chains from the left -/

def joins {r : Rank} (t : Tree Numeral (.chain r)) (tail : List (Joint r × Tree Numeral r.item)) :
    Tree Numeral (.chain r) :=
  tail.foldl (fun t p => .join t p.1 p.2) t

def tailTokens {r : Rank} (tail : List (Joint r × Tree Numeral r.item)) : List Token :=
  tail.flatMap fun p => p.1.token :: p.2.tokens

theorem exists_joins {r : Rank} : (t : Tree Numeral (.chain r)) → ∃ x tail, t = (first x).joins tail
  | .first x => ⟨x, [], rfl⟩
  | .join l j t => by
    obtain ⟨x, tail, rfl⟩ := exists_joins l
    exact ⟨x, tail ++ [(j, t)], by rw [joins, joins, List.foldl_append]; rfl⟩

theorem tokens_joins {r : Rank} (t : Tree Numeral (.chain r))
    (tail : List (Joint r × Tree Numeral r.item)) :
    (t.joins tail).tokens = t.tokens ++ tailTokens tail := by
  induction tail generalizing t with
  | nil => rw [tailTokens, List.flatMap_nil, List.append_nil]; rfl
  | cons p tail ih =>
    change ((join t p.1 p.2).joins tail).tokens = _
    rw [ih, tailTokens, tailTokens, List.flatMap_cons, ← List.append_assoc]
    rfl

theorem ends_tailTokens {r : Rank} (tail : List (Joint r × Tree Numeral r.item))
    {ts : List Token} (h : (Level.chain r).Ends ts) : r.item.Ends (tailTokens tail ++ ts) := by
  cases tail with
  | nil => exact Rank.ends_item h
  | cons p tail => exact p.1.ends_item _

/-! ### No two trees are written alike -/

/-- Up to a number of tokens, the trees of a level are told by their tokens, whatever follows
that does not go on with them. -/
def Told (l : Level) (n : Nat) : Prop :=
  ∀ (t t' : Tree Numeral l) (ts ts' : List Token), t.tokens.length ≤ n → l.Ends ts → l.Ends ts' →
    t.tokens ++ ts = t'.tokens ++ ts' → t = t' ∧ ts = ts'

theorem told_tail {r : Rank} {n : Nat} (hitem : Told r.item n)
    (tail tail' : List (Joint r × Tree Numeral r.item)) {ts ts' : List Token}
    (hlen : (tailTokens tail).length ≤ n) (hts : (Level.chain r).Ends ts)
    (hts' : (Level.chain r).Ends ts') (h : tailTokens tail ++ ts = tailTokens tail' ++ ts') :
    tail = tail' ∧ ts = ts' := by
  induction tail generalizing tail' with
  | nil =>
    cases tail' with
    | nil => exact ⟨rfl, h⟩
    | cons p' tail' =>
      -- a tail that is longer starts with an operator, where `ts` may not go on
      rw [show ts = p'.1.token :: (p'.2.tokens ++ tailTokens tail' ++ ts') by
        simpa [tailTokens] using h] at hts
      exact absurd p'.1.continues (by simp [hts _ rfl])
  | cons p tail ih =>
    cases tail' with
    | nil =>
      rw [show ts' = p.1.token :: (p.2.tokens ++ tailTokens tail ++ ts) by
        simpa [tailTokens] using h.symm] at hts'
      exact absurd p.1.continues (by simp [hts' _ rfl])
    | cons p' tail' =>
      obtain ⟨j, t⟩ := p
      obtain ⟨j', t'⟩ := p'
      have hcons : j.token :: (t.tokens ++ (tailTokens tail ++ ts)) =
          j'.token :: (t'.tokens ++ (tailTokens tail' ++ ts')) := by
        simpa [tailTokens] using h
      have hlen' : t.tokens.length + (tailTokens tail).length + 1 ≤ n := by
        simpa [tailTokens, Nat.add_right_comm] using hlen
      obtain rfl := Joint.token_injective (List.cons.inj hcons).1
      obtain ⟨rfl, hrest⟩ := hitem t t' _ _ (by omega) (ends_tailTokens tail hts)
        (ends_tailTokens tail' hts') (List.cons.inj hcons).2
      obtain ⟨rfl, hend⟩ := ih tail' (by omega) hrest
      exact ⟨rfl, hend⟩

theorem told_chain {r : Rank} {n : Nat} (hitem : Told r.item n) : Told (.chain r) n := by
  intro t t' ts ts' hlen hts hts' h
  obtain ⟨x, tail, rfl⟩ := exists_joins t
  obtain ⟨x', tail', rfl⟩ := exists_joins t'
  rw [tokens_joins, tokens_joins, List.append_assoc, List.append_assoc] at h
  rw [tokens_joins, List.length_append] at hlen
  have hx : (first x).tokens.length ≤ n := by omega
  obtain ⟨rfl, hrest⟩ := hitem x x' _ _ hx (ends_tailTokens tail hts)
    (ends_tailTokens tail' hts') h
  obtain ⟨rfl, hend⟩ := told_tail hitem tail tail' (by omega) hts hts' hrest
  exact ⟨rfl, hend⟩

theorem told_operand {n : Nat} (ih : Told .operand n) : Told .operand (n + 1) := by
  have hsum : Told (.chain .sum) n := told_chain (told_chain ih)
  intro t t' ts ts' hlen hts hts' h
  -- operands of two kinds differ in their first tokens
  cases t with
  | leaf a =>
    cases t' with
    | leaf a' =>
      obtain ⟨hnumber, hrest⟩ := List.cons.inj h
      rw [Numeral.chars_injective (Token.number.inj hnumber)]
      exact ⟨rfl, hrest⟩
    | sign negative' t' => cases negative' <;> cases (List.cons.inj h).1
    | group t' => cases (List.cons.inj h).1
  | sign negative t =>
    have htokens : t.tokens.length ≤ n := Nat.le_of_succ_le_succ hlen
    cases t' with
    | leaf a' => cases negative <;> cases (List.cons.inj h).1
    | sign negative' t' =>
      have hsign : negative = negative' := by
        cases negative <;> cases negative' <;> first | rfl | cases (List.cons.inj h).1
      obtain ⟨rfl, hrest⟩ := ih t t' ts ts' htokens hts hts' (List.cons.inj h).2
      rw [hsign]
      exact ⟨rfl, hrest⟩
    | group t' => cases negative <;> cases (List.cons.inj h).1
  | group t =>
    cases t' with
    | leaf a' => cases (List.cons.inj h).1
    | sign negative' t' => cases negative' <;> cases (List.cons.inj h).1
    | group t' =>
      have htokens : t.tokens.length ≤ n := by
        have : t.tokens.length + 1 + 1 ≤ n + 1 := by
          simpa [tokens, write] using hlen
        omega
      have hinner : t.tokens ++ .closeParen :: ts = t'.tokens ++ .closeParen :: ts' := by
        simpa [tokens, write] using h
      obtain ⟨rfl, hrest⟩ := hsum t t' _ _ htokens (Level.ends_closeParen _ _)
        (Level.ends_closeParen _ _) hinner
      exact ⟨rfl, (List.cons.inj hrest).2⟩

theorem told (l : Level) (n : Nat) : Told l n := by
  -- behind its first token an operand has fewer tokens, whatever its level
  have hoperand : Told .operand n := by
    induction n with
    | zero =>
      intro t t' ts ts' hlen
      exact absurd (List.eq_nil_of_length_eq_zero (Nat.le_zero.1 hlen)) t.tokens_ne_nil
    | succ n ih => exact told_operand ih
  match l with
  | .operand => exact hoperand
  | .chain .product => exact told_chain hoperand
  | .chain .sum => exact told_chain (told_chain hoperand)

/-- No two trees are written alike. -/
theorem tokens_injective {t t' : Tree Numeral l} (h : t.tokens = t'.tokens) : t = t' :=
  (told l t.tokens.length t t' [] [] (Nat.le_refl _) l.ends_nil l.ends_nil (by rw [h])).1

end Tree
end FormLogic.Formula
