import FormLogic.Text.Blank
import FormLogic.Text.Quoted
import FormLogic.Binary64.Decimal
import FormLogic.Limit

namespace FormLogic.Formula

inductive Error where
  | empty
  | strayCharacter (c : Char) (position : Nat)
  | strayToken (text : String)
  | unfinished
  | unclosed
  | tooDeep (limit : Limit)
  | depthIncomparable
  | divisionByZero
  | notFinite
  deriving DecidableEq

def Error.message : Error → String
  | .empty => "Empty expression"
  | .strayCharacter c position =>
    s!"Unexpected character {Text.quoted (String.singleton c)} at {position}"
  | .strayToken text => s!"Unexpected token {Text.quoted text}"
  | .unfinished => "Unexpected end of expression"
  | .unclosed => "Missing closing parenthesis"
  | .tooDeep limit => "Expression nested deeper than " ++ limit.text
  | .depthIncomparable => "The limit on nesting is not a number"
  | .divisionByZero => "Division by zero"
  | .notFinite => "Result is not a finite number"

inductive Token where
  | number (lexeme : List Char)
  | plus
  | minus
  | times
  | divide
  | openParen
  | closeParen
  deriving DecidableEq

namespace Token

def chars : Token → List Char
  | .number lexeme => lexeme
  | .plus => ['+']
  | .minus => ['-']
  | .times => ['*']
  | .divide => ['/']
  | .openParen => ['(']
  | .closeParen => [')']

def text (t : Token) : String := String.ofList t.chars

def ofChar? : Char → Option Token
  | '+' => some .plus
  | '-' => some .minus
  | '*' => some .times
  | '/' => some .divide
  | '(' => some .openParen
  | ')' => some .closeParen
  | _ => none

def isDigit (c : Char) : Bool := (Text.asciiDigit? c).isSome

/-- Splits off the number that a text starts with: digits with an optional point and further
digits, or a point with digits behind it. -/
def spanNumber? (cs : List Char) : Option (List Char × List Char) :=
  let whole := cs.takeWhile isDigit
  match cs.dropWhile isDigit with
  | '.' :: rest =>
    if whole = [] ∧ rest.takeWhile isDigit = [] then none
    else some (whole ++ '.' :: rest.takeWhile isDigit, rest.dropWhile isDigit)
  | rest => if whole = [] then none else some (whole, rest)

theorem spanNumber?_eq_append {cs lexeme rest : List Char}
    (h : spanNumber? cs = some (lexeme, rest)) : lexeme ++ rest = cs := by
  have hcs := List.takeWhile_append_dropWhile (p := isDigit) (l := cs)
  unfold spanNumber? at h
  simp only at h
  split at h
  · next r hr =>
    split at h
    · exact absurd h (by simp)
    · rw [Option.some.injEq, Prod.mk.injEq] at h
      rw [← h.1, ← h.2, List.append_assoc, List.cons_append, List.takeWhile_append_dropWhile,
        ← hr, hcs]
  · split at h
    · exact absurd h (by simp)
    · rw [Option.some.injEq, Prod.mk.injEq] at h
      rw [← h.1, ← h.2, hcs]

theorem lexeme_ne_nil {cs lexeme rest : List Char}
    (h : spanNumber? cs = some (lexeme, rest)) : lexeme ≠ [] := by
  unfold spanNumber? at h
  simp only at h
  split at h
  · split at h
    · exact absurd h (by simp)
    · rw [Option.some.injEq, Prod.mk.injEq] at h
      rw [← h.1]
      simp
  · split at h
    · exact absurd h (by simp)
    · next hw =>
      rw [Option.some.injEq, Prod.mk.injEq] at h
      rw [← h.1]
      exact hw

theorem length_rest_lt {cs lexeme rest : List Char}
    (h : spanNumber? cs = some (lexeme, rest)) : rest.length < cs.length := by
  rw [← spanNumber?_eq_append h, List.length_append]
  have := List.length_pos_iff.2 (lexeme_ne_nil h)
  omega

/-- Splits the text from a position on into tokens. -/
def scanFrom (position : Nat) (cs : List Char) : Except Error (List Token) :=
  match cs with
  | [] => .ok []
  | c :: rest =>
    if Text.isBlank c then scanFrom (position + 1) rest
    else
      match _found : spanNumber? (c :: rest) with
      | some (lexeme, rest') =>
        (scanFrom (position + lexeme.length) rest').map (.number lexeme :: ·)
      | none =>
        match ofChar? c with
        | some t => (scanFrom (position + 1) rest).map (t :: ·)
        | none => .error (.strayCharacter c position)
termination_by cs.length
decreasing_by
  · simp
  · exact length_rest_lt _found
  · simp

def scan (text : String) : Except Error (List Token) := scanFrom 0 text.toList

def numberValue (lexeme : List Char) : Binary64 :=
  ((Decimal.read? Text.asciiDigit? lexeme).map Decimal.toBinary64).getD .nan

end Token
end FormLogic.Formula
