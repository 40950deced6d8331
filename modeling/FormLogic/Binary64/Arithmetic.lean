import FormLogic.Binary64.Basic

namespace FormLogic.Binary64

/-- The double nearest to a signed number of units; an exact zero takes the given sign. -/
def ofValue (zeroSign : Bool) (value : Int) : Binary64 :=
  if value = 0 then zero zeroSign else ofQuotient (value < 0) value.natAbs 1

def neg : Binary64 → Binary64
  | .nan => .nan
  | .infinite s => .infinite !s
  | .finite x => .finite ⟨!x.negative, x.units, x.onGrid, x.bounded⟩

/-- A sum. A zero sum is negative only if both terms are. -/
def add : Binary64 → Binary64 → Binary64
  | .nan, _ => .nan
  | _, .nan => .nan
  | .infinite s, .infinite t => if s = t then .infinite s else .nan
  | .infinite s, .finite _ => .infinite s
  | .finite _, .infinite t => .infinite t
  | .finite x, .finite y => ofValue (x.negative && y.negative) (x.value + y.value)

def sub (x y : Binary64) : Binary64 := add x (neg y)

def mul : Binary64 → Binary64 → Binary64
  | .nan, _ => .nan
  | _, .nan => .nan
  | .infinite s, .infinite t => .infinite (s != t)
  | .infinite s, .finite y => if y.units = 0 then .nan else .infinite (s != y.negative)
  | .finite x, .infinite t => if x.units = 0 then .nan else .infinite (x.negative != t)
  | .finite x, .finite y => ofQuotient (x.negative != y.negative) (x.units * y.units) one

def div : Binary64 → Binary64 → Binary64
  | .nan, _ => .nan
  | _, .nan => .nan
  | .infinite _, .infinite _ => .nan
  | .infinite s, .finite y => .infinite (s != y.negative)
  | .finite x, .infinite t => zero (x.negative != t)
  | .finite x, .finite y =>
    if y.units = 0 then
      if x.units = 0 then .nan else .infinite (x.negative != y.negative)
    else ofQuotient (x.negative != y.negative) (x.units * one) y.units

instance : Neg Binary64 := ⟨neg⟩
instance : Add Binary64 := ⟨add⟩
instance : Sub Binary64 := ⟨sub⟩
instance : Mul Binary64 := ⟨mul⟩
instance : Div Binary64 := ⟨div⟩

/-- The order of doubles; `nan` is neither below nor above anything. -/
def le : Binary64 → Binary64 → Bool
  | .nan, _ => false
  | _, .nan => false
  | .infinite s, .infinite t => s || !t
  | .infinite s, .finite _ => s
  | .finite _, .infinite t => !t
  | .finite x, .finite y => decide (x.value ≤ y.value)

def ltCount : Binary64 → Nat → Bool
  | .nan, _ => false
  | .infinite s, _ => s
  | .finite x, n => decide (x.value < ((n * one : Nat) : Int))

def leCount : Binary64 → Nat → Bool
  | .nan, _ => false
  | .infinite s, _ => s
  | .finite x, n => decide (x.value ≤ ((n * one : Nat) : Int))

def countLe : Nat → Binary64 → Bool
  | _, .nan => false
  | _, .infinite s => !s
  | n, .finite x => decide (((n * one : Nat) : Int) ≤ x.value)

end FormLogic.Binary64
