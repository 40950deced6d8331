import FormLogic.Binary64.Decimal

namespace FormLogic.Binary64

/-- The position of the decimal point of a magnitude: the `k` with `10^(k-1) ≤ x < 10^k`. Every
positive double is above 10^-400. -/
def decimalPoint (units : Nat) : Int :=
  (Nat.toDigits 10 (units * Nat.pow 10 400 / one)).length - 400

/-- The two coefficients next to a magnitude on the grid of multiples of `10 ^ exponent`, the
nearer one first. -/
def neighbours (units : Nat) (exponent : Int) : List Nat :=
  let num := units * Nat.pow 10 (-exponent).toNat
  let den := one * Nat.pow 10 exponent.toNat
  let below := num / den
  if 2 * (num % den) < den ∨ (2 * (num % den) = den ∧ below % 2 = 0) then [below, below + 1]
  else [below + 1, below]

def coefficientAt? (units : Nat) (exponent : Int) : Option Nat :=
  (neighbours units exponent).find? fun c => Decimal.units c exponent == units

def dropZeros (coefficient : Nat) (exponent : Int) : Nat × Int :=
  if coefficient ≠ 0 ∧ coefficient % 10 = 0 then dropZeros (coefficient / 10) (exponent + 1)
  else (coefficient, exponent)
termination_by coefficient
decreasing_by omega

/-- The first grid with a coefficient that reads back. All digits of the magnitude stand in
where no grid has one. -/
def firstGrid (units : Nat) : List Int → Nat × Int
  | [] => (units * Nat.pow 5 unitBits, -unitBits)
  | e :: es =>
    match coefficientAt? units e with
    | some c => (c, e)
    | none => firstGrid units es

/-- Coefficient and exponent of the shortest decimal that reads back as a magnitude. The decimals
with `n` digits form a grid; of the two points next to the magnitude the nearer one that reads back
is taken, on the first of the grids with 1 to 17 digits that has one. -/
def shortest (units : Nat) : Nat × Int :=
  let grids := (List.range 17).map fun (n : Nat) => decimalPoint units - (n + 1 : Nat)
  dropZeros (firstGrid units grids).1 (firstGrid units grids).2

end FormLogic.Binary64
