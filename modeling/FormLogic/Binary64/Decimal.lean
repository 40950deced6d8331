import FormLogic.Binary64.Basic
import FormLogic.Decimal

namespace FormLogic

/-- The magnitude `coefficient · 10 ^ exponent` in units, rounded; out of range it is at least
the limit. A coefficient has at most `log2 + 1` digits, so below the exponent `-400 - log2` the
magnitude is less than 10^-399. -/
def Decimal.units (coefficient : Nat) (exponent : Int) : Nat :=
  if coefficient = 0 ∨ exponent + coefficient.log2 < -400 then 0
  else if 400 < exponent then Binary64.limit
  else Binary64.roundUnits (coefficient * Nat.pow 10 exponent.toNat * Binary64.one)
    (Nat.pow 10 (-exponent).toNat)

theorem Decimal.spacing_dvd_units (coefficient : Nat) (exponent : Int) :
    Binary64.spacing (units coefficient exponent) ∣ units coefficient exponent := by
  unfold units
  split
  · exact Nat.dvd_zero _
  · split
    · exact Binary64.spacing_dvd_limit
    · exact Binary64.spacing_dvd_roundUnits _ _

def Decimal.toBinary64 (d : Decimal) : Binary64 :=
  Binary64.ofUnits d.negative (units d.coefficient d.exponent)
    (spacing_dvd_units d.coefficient d.exponent)

namespace Binary64

def ofName? : List Char → Option (Bool → Binary64)
  | ['i', 'n', 'f'] => some infinite
  | ['i', 'n', 'f', 'i', 'n', 'i', 't', 'y'] => some infinite
  | ['n', 'a', 'n'] => some fun _ => nan
  | _ => none

/-- Reads a numeral, or the name of an infinity or of `nan` in letters of any case. -/
def read? (digit? : Char → Option Nat) (cs : List Char) : Option Binary64 :=
  match ofName? ((Decimal.spanSign cs).2.map Char.toLower) with
  | some named => some (named (Decimal.spanSign cs).1)
  | none => (Decimal.read? digit? cs).map Decimal.toBinary64

end Binary64
end FormLogic
