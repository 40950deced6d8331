import FormLogic.Formula.Token
import FormLogic.Binary64.Arithmetic

namespace FormLogic.Formula

/-- Reads a value from the start of a list of tokens. What is left is shorter, so a chain of
operands is read by recursion on the tokens, and nesting by recursion on the depth that is left. -/
abbrev Reader :=
  (ts : List Token) → Except Error (Binary64 × { rest : List Token // rest.length < ts.length })

/-- An operator of a chain, which may refuse its operands. -/
abbrev Operator := Binary64 → Binary64 → Except Error Binary64

/-- Reads the operators and items that follow a first value, and joins them from the left. -/
def chainRest (item : Reader) (operator? : Token → Option Operator) (acc : Binary64)
    (ts : List Token) :
    Except Error (Binary64 × { rest : List Token // rest.length ≤ ts.length }) :=
  match ts with
  | [] => .ok (acc, ⟨[], Nat.le_refl _⟩)
  | t :: rest =>
    match operator? t with
    | none => .ok (acc, ⟨t :: rest, Nat.le_refl _⟩)
    | some operator =>
      match item rest with
      | .error e => .error e
      | .ok (v, ⟨rest', h⟩) =>
        match operator acc v with
        | .error e => .error e
        | .ok acc' =>
          match chainRest item operator? acc' rest' with
          | .error e => .error e
          | .ok (v', ⟨rest'', h'⟩) =>
            .ok (v', ⟨rest'', by simp only [List.length_cons]; omega⟩)
termination_by ts.length
decreasing_by simp only [List.length_cons]; omega

def chain (item : Reader) (operator? : Token → Option Operator) : Reader := fun ts =>
  match item ts with
  | .error e => .error e
  | .ok (v, ⟨rest, h⟩) =>
    match chainRest item operator? v rest with
    | .error e => .error e
    | .ok (v', ⟨rest', h'⟩) => .ok (v', ⟨rest', by omega⟩)

def divide (x y : Binary64) : Except Error Binary64 :=
  if y.isZero then .error .divisionByZero else .ok (x / y)

def productOperator? : Token → Option Operator
  | .times => some fun x y => .ok (x * y)
  | .divide => some divide
  | _ => none

def sumOperator? : Token → Option Operator
  | .plus => some fun x y => .ok (x + y)
  | .minus => some fun x y => .ok (x - y)
  | _ => none

def product (operand : Reader) : Reader := chain operand productOperator?

def sum (operand : Reader) : Reader := chain (product operand) sumOperator?

def nestingError : Limit → Error
  | .incomparable => .depthIncomparable
  | limit => .tooDeep limit

/-- Reads an operand; `depth` signs and parentheses may still be nested. The limit itself is
named in the error alone. -/
def operand (limit : Limit) : Nat → Reader
  | _, [] => .error .unfinished
  | _, .number lexeme :: rest =>
    .ok (Token.numberValue lexeme, ⟨rest, Nat.lt_succ_self _⟩)
  | 0, .plus :: _ => .error (nestingError limit)
  | 0, .minus :: _ => .error (nestingError limit)
  | 0, .openParen :: _ => .error (nestingError limit)
  | depth + 1, .plus :: ts =>
    match operand limit depth ts with
    | .error e => .error e
    | .ok (v, ⟨rest, h⟩) => .ok (v, ⟨rest, by simp only [List.length_cons]; omega⟩)
  | depth + 1, .minus :: ts =>
    match operand limit depth ts with
    | .error e => .error e
    | .ok (v, ⟨rest, h⟩) => .ok (-v, ⟨rest, by simp only [List.length_cons]; omega⟩)
  | depth + 1, .openParen :: ts =>
    match sum (operand limit depth) ts with
    | .error e => .error e
    | .ok (v, ⟨.closeParen :: rest, h⟩) =>
      .ok (v, ⟨rest, by simp only [List.length_cons] at h ⊢; omega⟩)
    | .ok _ => .error .unclosed
  | _, t :: _ => .error (.strayToken t.text)

/-- The value of a list of tokens:

    sum     ::= product (("+" | "-") product)*
    product ::= operand (("*" | "/") operand)*
    operand ::= ("+" | "-") operand | "(" sum ")" | number

Operators of one level associate to the left. The value has to be finite, and nothing may be left
over. No formula nests deeper than it has tokens. -/
def evaluateTokens (limit : Limit) : List Token → Except Error Binary64
  | [] => .error .empty
  | t :: ts =>
    match sum (operand limit (limit.allowance (t :: ts).length)) (t :: ts) with
    | .error e => .error e
    | .ok (_, ⟨t' :: _, _⟩) => .error (.strayToken t'.text)
    | .ok (v, ⟨[], _⟩) => if v.isFinite then .ok v else .error .notFinite

def evaluate (limit : Limit) (text : String) : Except Error Binary64 :=
  match Token.scan text with
  | .error e => .error e
  | .ok ts => evaluateTokens limit ts

end FormLogic.Formula
