import FormLogic.Proofs.Formula.Scanning

namespace FormLogic.Formula

/-- What is read from the start of a list of tokens, and the tokens behind it. -/
def consume (read : Reader) (ts : List Token) : Except Error (Binary64 × List Token) :=
  (read ts).map fun p => (p.1, p.2.1)

def consumeRest (item : Reader) (operator? : Token → Option Operator) (x : Binary64)
    (ts : List Token) : Except Error (Binary64 × List Token) :=
  (chainRest item operator? x ts).map fun p => (p.1, p.2.1)

/-! ### What the readers do -/

section
variable (item : Reader) (operator? : Token → Option Operator)

theorem consume_chain (ts : List Token) :
    consume (chain item operator?) ts =
      (consume item ts).bind fun p => consumeRest item operator? p.1 p.2 := by
  unfold consume chain
  cases hitem : item ts with
  | error e => rfl
  | ok p =>
    obtain ⟨x, rest, hrest⟩ := p
    simp only [Except.map, Except.bind, consumeRest]
    cases chainRest item operator? x rest <;> rfl

theorem consumeRest_nil (x : Binary64) : consumeRest item operator? x [] = .ok (x, []) := by
  unfold consumeRest chainRest
  rfl

variable {operator?}

theorem consumeRest_of_none (x : Binary64) {t : Token} (ts : List Token) (h : operator? t = none) :
    consumeRest item operator? x (t :: ts) = .ok (x, t :: ts) := by
  unfold consumeRest chainRest
  rw [h]
  rfl

theorem consumeRest_of_some (x : Binary64) {t : Token} {operator : Operator} (ts : List Token)
    (h : operator? t = some operator) :
    consumeRest item operator? x (t :: ts) =
      (consume item ts).bind fun p =>
        (operator x p.1).bind fun y => consumeRest item operator? y p.2 := by
  rw [consumeRest, chainRest, h]
  unfold consume
  cases hitem : item ts with
  | error e => rfl
  | ok p =>
    obtain ⟨y, rest, hrest⟩ := p
    simp only [Except.map, Except.bind, consumeRest]
    cases operator x y with
    | error e => rfl
    | ok z =>
      simp only
      cases chainRest item operator? z rest <;> rfl

end

def closeGroup : Binary64 × List Token → Except Error (Binary64 × List Token)
  | (x, .closeParen :: rest) => .ok (x, rest)
  | _ => .error .unclosed

variable (limit : Limit) (depth : Nat)

theorem consume_operand_number (lexeme : List Char) (ts : List Token) :
    consume (operand limit depth) (.number lexeme :: ts) =
      .ok (Token.numberValue lexeme, ts) := by
  unfold consume operand
  rfl

theorem consume_operand_sign (negative : Bool) (ts : List Token) :
    consume (operand limit (depth + 1)) (signToken negative :: ts) =
      (consume (operand limit depth) ts).map fun p => (if negative then -p.1 else p.1, p.2) := by
  cases negative with
  | false =>
    change (operand limit (depth + 1) (.plus :: ts)).map _ = _
    simp only [consume, operand]
    cases operand limit depth ts <;> rfl
  | true =>
    change (operand limit (depth + 1) (.minus :: ts)).map _ = _
    simp only [consume, operand]
    cases operand limit depth ts <;> rfl

theorem consume_operand_openParen (ts : List Token) :
    consume (operand limit (depth + 1)) (.openParen :: ts) =
      (consume (sum (operand limit depth)) ts).bind closeGroup := by
  simp only [consume, operand]
  cases sum (operand limit depth) ts with
  | error e => rfl
  | ok p =>
    obtain ⟨x, rest, hrest⟩ := p
    cases rest with
    | nil => rfl
    | cons t rest => cases t <;> rfl

/-! ### Levels -/

def Rank.operator? : Rank → Token → Option Operator
  | .product => productOperator?
  | .sum => sumOperator?

theorem Joint.operator?_token {r : Rank} (j : Joint r) : r.operator? j.token = some j.operator := by
  cases j <;> rfl

theorem Joint.exists_of_operator? {r : Rank} {t : Token} {operator : Operator}
    (h : r.operator? t = some operator) : ∃ j : Joint r, j.token = t ∧ j.operator = operator := by
  cases r with
  | product =>
    cases t with
    | times => exact ⟨.times, rfl, Option.some.inj h⟩
    | divide => exact ⟨.divide, rfl, Option.some.inj h⟩
    | _ => cases h
  | sum =>
    cases t with
    | plus => exact ⟨.plus, rfl, Option.some.inj h⟩
    | minus => exact ⟨.minus, rfl, Option.some.inj h⟩
    | _ => cases h

theorem Rank.operator?_eq_none {r : Rank} {t : Token} (h : (Level.chain r).continues t = false) :
    r.operator? t = none := by
  cases r <;> cases t <;> first | rfl | cases h

namespace Level

def reader : Level → Reader
  | .operand => Formula.operand limit depth
  | .chain .product => product (Formula.operand limit depth)
  | .chain .sum => sum (Formula.operand limit depth)

theorem reader_chain (r : Rank) :
    reader limit depth (.chain r) = Formula.chain (reader limit depth r.item) r.operator? := by
  cases r <;> rfl

/-- What a reader of the level does behind a first value. -/
def goOn (l : Level) (x : Binary64) (ts : List Token) : Except Error (Binary64 × List Token) :=
  match l with
  | .operand => .ok (x, ts)
  | .chain r => consumeRest (reader limit depth r.item) r.operator? x ts

theorem goOn_of_ends {l : Level} (x : Binary64) {ts : List Token} (h : l.Ends ts) :
    l.goOn limit depth x ts = .ok (x, ts) := by
  cases l with
  | operand => rfl
  | chain r =>
    cases ts with
    | nil => exact consumeRest_nil _ _ x
    | cons t ts => exact consumeRest_of_none _ x ts (Rank.operator?_eq_none (h t rfl))

def inner : Level → Level
  | .operand => .operand
  | .chain r => r.item

theorem ends_inner {l : Level} {ts : List Token} (h : l.Ends ts) : l.inner.Ends ts := by
  cases l with
  | operand => exact h
  | chain r => exact Rank.ends_item h

end Level

/-! ### Trees are read -/

/-- Reading the tokens of a tree gives its result, whatever follows that does not go on with its
last item. -/
theorem Tree.consume_tokens {l : Level} (t : Tree Numeral l) {depth : Nat} {ts : List Token}
    (hdepth : t.nesting (fun _ => 0) ≤ depth) (hends : l.inner.Ends ts) :
    consume (l.reader limit depth) (t.tokens ++ ts) =
      (t.result Numeral.value).bind fun x => l.goOn limit depth x ts := by
  -- what follows differs for the parts: a parenthesis for a sum, an operator for a chain
  induction t generalizing depth ts with
  | leaf n => exact consume_operand_number limit depth n.chars ts
  | sign negative t ih =>
    cases depth with
    | zero => cases hdepth
    | succ depth =>
      change consume (operand limit (depth + 1)) (signToken negative :: (t.tokens ++ ts)) = _
      rw [consume_operand_sign, result_sign]
      have hoperand := ih (Nat.le_of_succ_le_succ hdepth) hends
      rw [show consume (operand limit depth) (t.tokens ++ ts) = _ from hoperand]
      cases t.result Numeral.value <;> rfl
  | group t ih =>
    cases depth with
    | zero => cases hdepth
    | succ depth =>
      have htokens : (group t).tokens ++ ts = .openParen :: (t.tokens ++ .closeParen :: ts) := by
        simp [tokens, write]
      have hsum := ih (Nat.le_of_succ_le_succ hdepth) (Level.ends_closeParen _ ts)
      rw [htokens]
      change consume (operand limit (depth + 1)) _ = _
      rw [consume_operand_openParen,
        show consume (sum (operand limit depth)) (t.tokens ++ .closeParen :: ts) = _ from hsum]
      change _ = (t.result Numeral.value).bind _
      cases t.result Numeral.value with
      | error e => rfl
      | ok x =>
        simp only [Except.bind, Level.goOn_of_ends limit depth x (Level.ends_closeParen _ ts)]
        rfl
  | @first r t ih =>
    have hends' : r.item.Ends ts := hends
    have hitem := ih hdepth (Level.ends_inner hends')
    rw [Level.reader_chain, consume_chain]
    change (consume _ (t.tokens ++ ts)).bind _ = (t.result Numeral.value).bind _
    rw [hitem]
    cases t.result Numeral.value with
    | error e => rfl
    | ok x =>
      simp only [Except.bind, Level.goOn_of_ends limit depth x hends']
      rfl
  | @join r l j t ihl iht =>
    have htokens : (join l j t).tokens ++ ts = l.tokens ++ j.token :: (t.tokens ++ ts) := by
      simp [tokens, write]
    have hends' : r.item.Ends ts := hends
    -- the chain is read up to the operator, and going on from there reads the item
    have hchain := ihl ((Nat.le_max_left _ _).trans hdepth) (j.ends_item (t.tokens ++ ts))
    have hitem := iht ((Nat.le_max_right _ _).trans hdepth) (Level.ends_inner hends')
    rw [htokens, hchain, result_join]
    cases l.result Numeral.value with
    | error e => rfl
    | ok x =>
      simp only [Except.bind, Level.goOn]
      rw [consumeRest_of_some _ x _ j.operator?_token, hitem]
      cases t.result Numeral.value with
      | error e => rfl
      | ok y =>
        simp only [Except.bind, Level.goOn_of_ends limit depth y hends']

/-! ### What is read is a tree -/

/-- Whatever the reader of a level reads is a tree with that value. -/
def Level.ReadsTrees (l : Level) : Prop :=
  ∀ ts x rest, OfNumerals ts → consume (l.reader limit depth) ts = .ok (x, rest) →
    ∃ t : Tree Numeral l, t.tokens ++ rest = ts ∧ t.nesting (fun _ => 0) ≤ depth ∧
      t.result Numeral.value = .ok x

variable {limit} {depth}

/-- A tree in front of a chain grows with every item that is read. -/
theorem exists_tree_of_consumeRest {r : Rank} (hitem : r.item.ReadsTrees limit depth)
    (l : Tree Numeral (.chain r)) {x y : Binary64} {ts rest : List Token} (hts : OfNumerals ts)
    (hdepth : l.nesting (fun _ => 0) ≤ depth) (hl : l.result Numeral.value = .ok x)
    (h : consumeRest (r.item.reader limit depth) r.operator? x ts = .ok (y, rest)) :
    ∃ t : Tree Numeral (.chain r), t.tokens ++ rest = l.tokens ++ ts ∧
      t.nesting (fun _ => 0) ≤ depth ∧ t.result Numeral.value = .ok y := by
  -- on the number of tokens, as an item takes more than one of them
  induction hn : ts.length using Nat.strongRecOn generalizing ts l x with
  | ind n ih =>
    cases ts with
    | nil =>
      rw [consumeRest_nil] at h
      cases h
      exact ⟨l, rfl, hdepth, hl⟩
    | cons t ts =>
      cases hop : r.operator? t with
      | none =>
        rw [consumeRest_of_none _ x ts hop] at h
        cases h
        exact ⟨l, rfl, hdepth, hl⟩
      | some operator =>
        rw [consumeRest_of_some _ x ts hop] at h
        obtain ⟨⟨v, rest'⟩, hread, hjoined⟩ := exists_of_bind_eq_ok h
        obtain ⟨z, hz, hrest⟩ := exists_of_bind_eq_ok hjoined
        obtain ⟨j, rfl, rfl⟩ := Joint.exists_of_operator? hop
        have hts' : OfNumerals ts := @OfNumerals.of_append [j.token] _ hts
        obtain ⟨u, rfl, hu, hv⟩ := hitem ts v rest' hts' hread
        have hjoin : (Tree.join l j u).result Numeral.value = .ok z := by
          rw [Tree.result_join, hl, hv]
          exact hz
        have hlen : rest'.length < n := by
          rw [← hn, List.length_cons, List.length_append]
          omega
        obtain ⟨t, ht, htdepth, htresult⟩ :=
          ih _ hlen (.join l j u) hts'.of_append (Nat.max_le.2 ⟨hdepth, hu⟩) hjoin hrest rfl
        refine ⟨t, ?_, htdepth, htresult⟩
        rw [ht]
        simp [Tree.tokens, Tree.write]

theorem readsTrees_chain {r : Rank} (hitem : r.item.ReadsTrees limit depth) :
    (Level.chain r).ReadsTrees limit depth := by
  intro ts x rest hts h
  rw [Level.reader_chain, consume_chain] at h
  obtain ⟨⟨v, rest'⟩, hread, hrest⟩ := exists_of_bind_eq_ok h
  obtain ⟨t, rfl, htdepth, htresult⟩ := hitem ts v rest' hts hread
  exact exists_tree_of_consumeRest hitem (.first t) hts.of_append htdepth htresult hrest

theorem exists_of_closeGroup {p : Binary64 × List Token} {x : Binary64} {rest : List Token}
    (h : closeGroup p = .ok (x, rest)) : p = (x, .closeParen :: rest) := by
  unfold closeGroup at h
  split at h
  · cases h
    rfl
  · cases h

section
variable {ts rest : List Token} {x : Binary64}

theorem exists_leaf {lexeme : List Char} (hts : OfNumerals (.number lexeme :: ts))
    (h : consume (operand limit depth) (.number lexeme :: ts) = .ok (x, rest)) :
    ∃ t : Tree Numeral .operand, t.tokens ++ rest = .number lexeme :: ts ∧
      t.nesting (fun _ => 0) ≤ depth ∧ t.result Numeral.value = .ok x := by
  rw [consume_operand_number] at h
  cases h
  obtain ⟨n, rfl⟩ := hts lexeme List.mem_cons_self
  exact ⟨.leaf n, rfl, Nat.zero_le _, rfl⟩

theorem exists_sign (negative : Bool) (hoperand : Level.operand.ReadsTrees limit depth)
    (hts : OfNumerals ts)
    (h : consume (operand limit (depth + 1)) (signToken negative :: ts) = .ok (x, rest)) :
    ∃ t : Tree Numeral .operand, t.tokens ++ rest = signToken negative :: ts ∧
      t.nesting (fun _ => 0) ≤ depth + 1 ∧ t.result Numeral.value = .ok x := by
  rw [consume_operand_sign] at h
  obtain ⟨⟨y, rest'⟩, hread, hsign⟩ := exists_of_map_eq_ok h
  obtain ⟨hx, rfl⟩ := Prod.mk.inj hsign
  obtain ⟨t, rfl, htdepth, htresult⟩ := hoperand ts y rest' hts hread
  refine ⟨.sign negative t, rfl, Nat.succ_le_succ htdepth, ?_⟩
  rw [Tree.result_sign, htresult, ← hx]
  rfl

theorem exists_group (hsum : (Level.chain .sum).ReadsTrees limit depth) (hts : OfNumerals ts)
    (h : consume (operand limit (depth + 1)) (.openParen :: ts) = .ok (x, rest)) :
    ∃ t : Tree Numeral .operand, t.tokens ++ rest = .openParen :: ts ∧
      t.nesting (fun _ => 0) ≤ depth + 1 ∧ t.result Numeral.value = .ok x := by
  rw [consume_operand_openParen] at h
  obtain ⟨p, hread, hclose⟩ := exists_of_bind_eq_ok h
  obtain rfl := exists_of_closeGroup hclose
  obtain ⟨t, rfl, htdepth, htresult⟩ := hsum ts x (.closeParen :: rest) hts hread
  refine ⟨.group t, ?_, Nat.succ_le_succ htdepth, htresult⟩
  simp [Tree.tokens, Tree.write]

end

theorem readsTrees_operand : Level.operand.ReadsTrees limit depth := by
  -- a sum in parentheses is made of operands that nest one level less
  induction depth with
  | zero =>
    intro ts x rest hts h
    change consume (operand limit 0) ts = _ at h
    cases ts with
    | nil => cases h
    | cons t ts =>
      cases t with
      | number lexeme => exact exists_leaf hts h
      | _ => cases h
  | succ depth ih =>
    intro ts x rest hts h
    change consume (operand limit (depth + 1)) ts = _ at h
    cases ts with
    | nil => cases h
    | cons t ts =>
      have hts' : OfNumerals ts := @OfNumerals.of_append [t] _ hts
      cases t with
      | number lexeme => exact exists_leaf hts h
      | plus => exact exists_sign false ih hts' h
      | minus => exact exists_sign true ih hts' h
      | openParen => exact exists_group (readsTrees_chain (readsTrees_chain ih)) hts' h
      | _ => cases h

theorem readsTrees (l : Level) : l.ReadsTrees limit depth := by
  match l with
  | .operand => exact readsTrees_operand
  | .chain .product => exact readsTrees_chain readsTrees_operand
  | .chain .sum => exact readsTrees_chain (readsTrees_chain readsTrees_operand)

/-! ### What is refused -/

section
variable {item : Reader} {operator? : Token → Option Operator} {e : Error}

/-- A chain fails with errors of its items and operators alone. -/
theorem chainRest_ne_error (hitem : ∀ ts, item ts ≠ .error e)
    (hoperator : ∀ t operator, operator? t = some operator → ∀ x y, operator x y ≠ .error e)
    (x : Binary64) (ts : List Token) : chainRest item operator? x ts ≠ .error e := by
  fun_induction chainRest item operator? x ts with
  | case1 => simp
  | case2 => simp
  | case3 x t rest operator hop e' hread => exact error_ne_error (hitem rest) hread
  | case4 x t rest operator hop v rest' hlt hread e' hvalue =>
    exact error_ne_error (hoperator t operator hop x v) hvalue
  | case5 x t rest operator hop v rest' hlt hread acc' hvalue e' hrest ih =>
    exact error_ne_error ih hrest
  | case6 => simp

theorem chain_ne_error (hitem : ∀ ts, item ts ≠ .error e)
    (hoperator : ∀ t operator, operator? t = some operator → ∀ x y, operator x y ≠ .error e)
    (ts : List Token) : chain item operator? ts ≠ .error e := by
  unfold chain
  split
  · next e' hread => exact error_ne_error (hitem ts) hread
  · next v rest hlt hread =>
    split
    · next e' hvalue =>
      exact error_ne_error (chainRest_ne_error hitem hoperator v rest) hvalue
    · simp

end

theorem Rank.operator_ne_error (r : Rank) (t : Token) (operator : Operator)
    (h : r.operator? t = some operator) (x y : Binary64) :
    operator x y ≠ .error .depthIncomparable := by
  obtain ⟨j, rfl, rfl⟩ := Joint.exists_of_operator? h
  cases j with
  | divide =>
    change Formula.divide x y ≠ _
    unfold divide
    split <;> simp
  | _ => simp [Joint.operator]

theorem sum_ne_error {operand : Reader} (h : ∀ ts, operand ts ≠ .error .depthIncomparable)
    (ts : List Token) : sum operand ts ≠ .error .depthIncomparable :=
  chain_ne_error (chain_ne_error h (Rank.operator_ne_error .product))
    (Rank.operator_ne_error .sum) ts

theorem operand_ne_error (n : Int) (depth : Nat) (ts : List Token) :
    operand (.int n) depth ts ≠ .error .depthIncomparable := by
  induction depth generalizing ts with
  | zero =>
    cases ts with
    | nil => simp [operand]
    | cons t ts => cases t <;> simp [operand, nestingError]
  | succ depth ih =>
    cases ts with
    | nil => simp [operand]
    | cons t ts =>
      cases t with
      | plus =>
        unfold operand
        split
        · next e h => exact error_ne_error (ih ts) h
        · simp
      | minus =>
        unfold operand
        split
        · next e h => exact error_ne_error (ih ts) h
        · simp
      | openParen =>
        unfold operand
        split
        · next e h => exact error_ne_error (sum_ne_error ih ts) h
        · simp
        · simp
      | _ => simp [operand]

theorem scanFrom_ne_error (position : Nat) (cs : List Char) :
    Token.scanFrom position cs ≠ .error .depthIncomparable := by
  fun_induction Token.scanFrom position cs with
  | case1 => simp
  | case2 position c rest hblank ih => exact ih
  | case3 position c rest hblank lexeme rest' hfound ih => exact map_ne_error ih
  | case4 position c rest hblank hnone t ht ih => exact map_ne_error ih
  | case5 => simp

/-! ### Formulas -/

def finish : Binary64 × List Token → Except Error Binary64
  | (x, []) => if x.isFinite then .ok x else .error .notFinite
  | (_, t :: _) => .error (.strayToken t.text)

theorem evaluateTokens_eq (limit : Limit) {ts : List Token} (hts : ts ≠ []) :
    evaluateTokens limit ts =
      (consume (sum (operand limit (limit.allowance ts.length))) ts).bind finish := by
  cases ts with
  | nil => exact absurd rfl hts
  | cons t ts =>
    unfold evaluateTokens consume
    simp only
    cases sum (operand limit (limit.allowance (t :: ts).length)) (t :: ts) with
    | error e => rfl
    | ok p =>
      obtain ⟨x, rest, hrest⟩ := p
      cases rest <;> rfl

/-- A formula that is written as a tree has the value of the tree, unless that divides by zero or
is not finite. -/
theorem Tree.evaluateTokens_tokens (limit : Limit) (t : Tree Numeral (.chain .sum))
    (hdepth : t.nesting (fun _ => 0) ≤ limit.allowance t.tokens.length) :
    evaluateTokens limit t.tokens =
      if t.HasZeroDivisor Numeral.value then .error .divisionByZero
      else if (t.value Numeral.value).isFinite then .ok (t.value Numeral.value)
      else .error .notFinite := by
  have hread := t.consume_tokens limit hdepth (Level.ends_nil _)
  rw [List.append_nil] at hread
  rw [evaluateTokens_eq limit t.tokens_ne_nil]
  change (consume ((Level.chain .sum).reader limit _) t.tokens).bind finish = _
  rw [hread, result]
  split
  · rfl
  · simp only [Except.bind, Level.goOn_of_ends limit _ _ (Level.ends_nil _)]
    rfl

/-- A formula that has a value is written as a tree. -/
theorem exists_tree_of_evaluateTokens {limit : Limit} {ts : List Token} {x : Binary64}
    (hts : OfNumerals ts) (h : evaluateTokens limit ts = .ok x) :
    ∃ t : Tree Numeral (.chain .sum), t.tokens = ts ∧
      t.nesting (fun _ => 0) ≤ limit.allowance ts.length ∧ t.result Numeral.value = .ok x := by
  have hne : ts ≠ [] := by
    rintro rfl
    cases h
  rw [evaluateTokens_eq limit hne] at h
  obtain ⟨⟨y, rest⟩, hread, hfinish⟩ := exists_of_bind_eq_ok h
  obtain ⟨t, ht, htdepth, htresult⟩ := readsTrees (.chain .sum) ts y rest hts hread
  cases rest with
  | cons t rest => cases hfinish
  | nil =>
    have hy : y = x := by
      simp only [finish] at hfinish
      split at hfinish
      · exact Except.ok.inj hfinish
      · cases hfinish
    exact ⟨t, by simpa using ht, htdepth, by rw [htresult, hy]⟩

theorem evaluateTokens_ne_error (n : Int) (ts : List Token) :
    evaluateTokens (.int n) ts ≠ .error .depthIncomparable := by
  unfold evaluateTokens
  split
  · simp
  · next t ts =>
    split
    · next e h => exact error_ne_error (sum_ne_error (operand_ne_error n _) _) h
    · simp
    · split <;> simp

/-- A tree is the derivation of a text: it writes the tokens of the text, and it nests no deeper
than allowed. -/
structure Derives (maxDepth : Nat) (text : String) (t : Tree Numeral (.chain .sum)) : Prop where
  scan_eq : Token.scan text = .ok t.tokens
  nesting_le : t.nesting (fun _ => 0) ≤ maxDepth

theorem Derives.evaluate_eq {maxDepth : Nat} {text : String} {t : Tree Numeral (.chain .sum)}
    (h : Derives maxDepth text t) :
    evaluate (.int maxDepth) text =
      if t.HasZeroDivisor Numeral.value then .error .divisionByZero
      else if (t.value Numeral.value).isFinite then .ok (t.value Numeral.value)
      else .error .notFinite := by
  unfold evaluate
  rw [h.scan_eq]
  exact t.evaluateTokens_tokens (.int maxDepth) h.nesting_le

/-- An error in the way a formula is written, or a value that is not finite. -/
def Error.IsMalformed (e : Error) : Prop := e ≠ .divisionByZero ∧ e ≠ .depthIncomparable

theorem exists_derives_of_evaluate {maxDepth : Nat} {text : String} {x : Binary64}
    (h : evaluate (.int maxDepth) text = .ok x) : ∃ t, Derives maxDepth text t := by
  unfold evaluate at h
  cases hscan : Token.scan text with
  | error e =>
    rw [hscan] at h
    cases h
  | ok ts =>
    rw [hscan] at h
    obtain ⟨t, rfl, hdepth, -⟩ := exists_tree_of_evaluateTokens (ofNumerals_of_scanFrom hscan) h
    exact ⟨t, ⟨hscan, hdepth⟩⟩

theorem evaluate_ne_error (n : Int) (text : String) :
    evaluate (.int n) text ≠ .error .depthIncomparable := by
  unfold evaluate
  split
  · next e h => exact error_ne_error (scanFrom_ne_error 0 text.toList) h
  · next ts h => exact evaluateTokens_ne_error n ts

theorem exists_finite_of_evaluate {limit : Limit} {text : String} {x : Binary64}
    (h : evaluate limit text = .ok x) : ∃ y : Binary64.Finite, x = .finite y := by
  apply Binary64.exists_of_isFinite
  unfold evaluate at h
  split at h
  · cases h
  · unfold evaluateTokens at h
    split at h
    · cases h
    · split at h
      · cases h
      · cases h
      · split at h
        · next hfinite => rwa [← Except.ok.inj h]
        · cases h

theorem Derives.evaluate_eq_ok_iff {maxDepth : Nat} {text : String}
    {t : Tree Numeral (.chain .sum)} (h : Derives maxDepth text t) (x : Binary64) :
    evaluate (.int maxDepth) text = .ok x ↔ ¬t.HasZeroDivisor Numeral.value ∧
      (t.value Numeral.value).isFinite = true ∧ t.value Numeral.value = x := by
  rw [h.evaluate_eq]
  split
  · next hzero => simp [hzero]
  · next hzero =>
    split
    · next hfinite => simp [hzero, hfinite]
    · next hfinite => simp [hzero, hfinite]

theorem Derives.evaluate_eq_divisionByZero_iff {maxDepth : Nat} {text : String}
    {t : Tree Numeral (.chain .sum)} (h : Derives maxDepth text t) :
    evaluate (.int maxDepth) text = .error .divisionByZero ↔
      t.HasZeroDivisor Numeral.value := by
  rw [h.evaluate_eq]
  split
  · next hzero => simp [hzero]
  · next hzero =>
    split
    · simp [hzero]
    · simp [hzero]

theorem Derives.unique {maxDepth : Nat} {text : String} {t t' : Tree Numeral (.chain .sum)}
    (h : Derives maxDepth text t) (h' : Derives maxDepth text t') : t' = t :=
  Tree.tokens_injective (Except.ok.inj (h'.scan_eq.symm.trans h.scan_eq))

/-- A text has a value exactly if it has a derivation that divides by nothing that is zero, with a
finite value, and it has that value. It is refused for a division by zero if its derivation
divides by zero, and else as malformed. It has no two derivations, and each number in it is the
double that its digits are rounded to. -/
theorem evaluate_eq_derivation (maxDepth : Nat) (text : String) :
    (∀ x, evaluate (.int maxDepth) text = .ok x ↔
      ∃ t, Derives maxDepth text t ∧ ¬t.HasZeroDivisor Numeral.value ∧
        (t.value Numeral.value).isFinite = true ∧ t.value Numeral.value = x) ∧
    (∀ e, evaluate (.int maxDepth) text = .error e → e = .divisionByZero ∨ e.IsMalformed) ∧
    (∀ t, Derives maxDepth text t →
      (evaluate (.int maxDepth) text = .error .divisionByZero ↔
        t.HasZeroDivisor Numeral.value) ∧
      ∀ t', Derives maxDepth text t' → t' = t) ∧
    ∀ n : Numeral, Binary64.IsRounded n.toRat n.value := by
  refine ⟨?value, ?error, ?zero, Numeral.value_isRounded⟩
  case value =>
    intro x
    constructor
    · intro h
      obtain ⟨t, ht⟩ := exists_derives_of_evaluate h
      exact ⟨t, ht, (ht.evaluate_eq_ok_iff x).1 h⟩
    · rintro ⟨t, ht, hx⟩
      exact (ht.evaluate_eq_ok_iff x).2 hx
  -- the limit is a number, so every depth can be compared with it
  case error =>
    intro e h
    by_cases he : e = .divisionByZero
    · exact .inl he
    · refine .inr ⟨he, ?_⟩
      rintro rfl
      exact evaluate_ne_error maxDepth text h
  case zero =>
    intro t ht
    exact ⟨ht.evaluate_eq_divisionByZero_iff, fun t' ht' => ht.unique ht'⟩

def Tree.overDifference : Tree Numeral (.chain .sum) :=
  let one : Tree Numeral .operand := .leaf (.ofDigit 1)
  let two : Tree Numeral .operand := .leaf (.ofDigit 2)
  .first (.join (.first two) .divide (.group (.join (.first (.first one)) .minus (.first one))))

theorem evaluate_overDifference :
    Derives 1 "2/(1-1)" Tree.overDifference ∧
      evaluate (.int 1) "2/(1-1)" = .error .divisionByZero := by
  have htree : Derives 1 "2/(1-1)" Tree.overDifference := by
    constructor
    · apply Tree.scan_tokens
      exact Spaced.flatMap_chars Token.chars Tree.overDifference.tokens
    · decide
  have hzero : Tree.overDifference.HasZeroDivisor Numeral.value := by decide +kernel
  have hall := evaluate_eq_derivation 1 "2/(1-1)"
  exact ⟨htree, (hall.2.2.1 Tree.overDifference htree).1.2 hzero⟩

end FormLogic.Formula
