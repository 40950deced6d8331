import FormLogic.Binary64.Shortest

namespace FormLogic.Binary64

/-- Where a literal changes from plain to exponent notation, and how wide an exponent is. -/
structure LiteralStyle where
  /-- The least power of ten whose numbers are written plainly. -/
  leastPlain : Int
  /-- The least power of ten from which an exponent is written. -/
  leastLarge : Int
  exponentWidth : Nat

/-- Literals are plain from 0.0001 up to below 10^16, and an exponent has at least two digits. -/
def LiteralStyle.standard : LiteralStyle := ⟨-4, 16, 2⟩

/-- Writes `0.d₁d₂… · 10 ^ point` with a point among the digits. -/
def plainText (digits : List Char) (point : Int) : List Char :=
  if point ≤ 0 then '0' :: '.' :: List.replicate (-point).toNat '0' ++ digits
  else if digits.length ≤ point.toNat then
    digits ++ List.replicate (point.toNat - digits.length) '0' ++ ['.', '0']
  else digits.take point.toNat ++ '.' :: digits.drop point.toNat

/-- Writes `0.d₁d₂… · 10 ^ point` as `d₁.d₂…e±x`. -/
def exponentText (width : Nat) (digits : List Char) (point : Int) : List Char :=
  digits.take 1 ++ (if digits.length ≤ 1 then [] else '.' :: digits.drop 1) ++
    'e' :: (if point ≤ 0 then '-' else '+') ::
    Text.padded width (point - 1).natAbs

def magnitudeText (style : LiteralStyle) (units : Nat) : List Char :=
  let digits := Nat.toDigits 10 (shortest units).1
  let point := (shortest units).2 + digits.length
  if style.leastPlain ≤ point - 1 ∧ point - 1 < style.leastLarge then plainText digits point
  else exponentText style.exponentWidth digits point

/-- The literal of a double shows that it is one: it has a point or an exponent, and zero keeps its
sign. -/
def literal : Binary64 → String
  | .nan => "nan"
  | .infinite s => if s then "-inf" else "inf"
  | .finite x =>
    let text := if x.units = 0 then ['0', '.', '0'] else magnitudeText .standard x.units
    String.ofList (if x.negative then '-' :: text else text)

def displayLimit : Nat := Nat.pow 10 21

/-- The text that shows a number to people: whole numbers are written out below a limit, and all
else is written as a literal. -/
def display (x : Binary64) : String :=
  match x with
  | .nan => "NaN"
  | .infinite s => if s then "-Infinity" else "Infinity"
  | .finite y =>
    if y.units = 0 then "0"
    else
      match y.toInt? with
      | some n => if n.natAbs < displayLimit then toString n else literal x
      | none => literal x

end FormLogic.Binary64
