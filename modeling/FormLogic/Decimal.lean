import FormLogic.Text.Digit

namespace FormLogic

/-- The number `± coefficient · 10 ^ exponent`. -/
structure Decimal where
  negative : Bool
  coefficient : Nat
  exponent : Int
  deriving DecidableEq, Repr

namespace Decimal

def ofDigits (digits : List Nat) : Nat := digits.foldl (fun n d => 10 * n + d) 0

@[simp] theorem ofDigits_nil : ofDigits [] = 0 := rfl

theorem ofDigits_concat (ds : List Nat) (d : Nat) :
    ofDigits (ds ++ [d]) = 10 * ofDigits ds + d := by
  simp [ofDigits]

def ofParts (negative : Bool) (whole fraction : List Nat) (exponent : Int) : Decimal :=
  ⟨negative, ofDigits (whole ++ fraction), exponent - fraction.length⟩

def spanDigits (digit? : Char → Option Nat) : List Char → List Nat × List Char
  | [] => ([], [])
  | c :: cs =>
    match digit? c with
    | some d => (d :: (spanDigits digit? cs).1, (spanDigits digit? cs).2)
    | none => ([], c :: cs)

/-- Removes the underscores of a text, each of which has to stand between two digits. -/
def joinDigits? (digit? : Char → Option Nat) : List Char → Option (List Char)
  | [] => some []
  | '_' :: _ => none
  | c :: '_' :: d :: cs =>
    if (digit? c).isSome ∧ (digit? d).isSome then (joinDigits? digit? (d :: cs)).map (c :: ·)
    else none
  | c :: cs => (joinDigits? digit? cs).map (c :: ·)

/-- Splits off a sign; the answer tells whether it was a minus. -/
def spanSign : List Char → Bool × List Char
  | '-' :: cs => (true, cs)
  | '+' :: cs => (false, cs)
  | cs => (false, cs)

def readExponent? (digit? : Char → Option Nat) : List Char → Option Int
  | [] => some 0
  | c :: cs =>
    if c = 'e' ∨ c = 'E' then
      match spanDigits digit? (spanSign cs).2 with
      | (d :: ds, []) =>
        some (if (spanSign cs).1 then -(ofDigits (d :: ds) : Int) else ofDigits (d :: ds))
      | _ => none
    else none

def spanFraction (digit? : Char → Option Nat) : List Char → List Nat × List Char
  | '.' :: cs => spanDigits digit? cs
  | cs => ([], cs)

/-- Reads a numeral: an optional sign, digits with an optional point among or beside them, and an
optional exponent. The class of digits is a parameter: one grammar serves digits of every script and
ASCII digits alone. -/
def read? (digit? : Char → Option Nat) (cs : List Char) : Option Decimal :=
  let whole := spanDigits digit? (spanSign cs).2
  let fraction := spanFraction digit? whole.2
  if whole.1 = [] ∧ fraction.1 = [] then none
  else (readExponent? digit? fraction.2).map (ofParts (spanSign cs).1 whole.1 fraction.1)

end Decimal
end FormLogic
