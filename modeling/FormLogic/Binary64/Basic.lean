namespace FormLogic

/-- The distance between neighbouring doubles at a magnitude, in units of the least positive double,
2^-1074. -/
def Binary64.spacing (units : Nat) : Nat := 1 <<< (units.log2 - 52)

/-- The number one is 2 to this power units. -/
def Binary64.unitBits : Nat := 1074

/-- The least power of two beyond the doubles, 2^1024, is 2 to this power units. -/
def Binary64.rangeBits : Nat := 2098

def Binary64.significands : Nat := 1 <<< 53

def Binary64.one : Nat := 1 <<< unitBits

def Binary64.limit : Nat := 1 <<< rangeBits

theorem Binary64.one_pos : 0 < one := by
  rw [one, Nat.one_shiftLeft]
  exact Nat.two_pow_pos unitBits

theorem Binary64.limit_pos : 0 < limit := by
  rw [limit, Nat.one_shiftLeft]
  exact Nat.two_pow_pos rangeBits

theorem Binary64.spacing_dvd_limit : spacing limit ∣ limit := by
  simp only [spacing, limit, Nat.one_shiftLeft, Nat.log2_two_pow]
  exact Nat.pow_dvd_pow 2 (by omega)

/-- A finite double: a sign and a magnitude in units. The magnitudes are those below 2^2098 whose
binary expansion has at most 53 significant digits. Zero has both signs. -/
structure Binary64.Finite where
  negative : Bool
  units : Nat
  onGrid : Binary64.spacing units ∣ units
  bounded : units < Binary64.limit
  deriving DecidableEq

inductive Binary64 where
  | nan
  | infinite (negative : Bool)
  | finite (x : Binary64.Finite)
  deriving DecidableEq

namespace Binary64

/-- A quotient to the nearest whole number, a half going to the even neighbour. -/
def halfEven (num den : Nat) : Nat :=
  if 2 * (num % den) < den then num / den
  else if den < 2 * (num % den) then num / den + 1
  else num / den + num / den % 2

theorem halfEven_le (num den : Nat) : halfEven num den ≤ num / den + 1 := by
  unfold halfEven
  split
  · omega
  · split <;> omega

theorem le_halfEven (num den : Nat) : num / den ≤ halfEven num den := by
  unfold halfEven
  split
  · omega
  · split <;> omega

/-- A number of units, given as a quotient, to the nearest magnitude with 53 binary digits. -/
def roundUnits (num den : Nat) : Nat :=
  halfEven num (den * spacing (num / den)) * spacing (num / den)

theorem spacing_dvd_mul_spacing {n : Nat} (h : n ≤ significands) (q : Nat) :
    spacing (n * spacing q) ∣ n * spacing q := by
  simp only [spacing, significands, Nat.one_shiftLeft] at *
  generalize q.log2 - 52 = j
  rcases Nat.lt_or_eq_of_le h with h | rfl
  · by_cases h0 : n * 2 ^ j = 0
    · simp [h0]
    · have hlt : (n * 2 ^ j).log2 < 53 + j := by
        rw [Nat.log2_lt h0, Nat.pow_add]
        exact Nat.mul_lt_mul_of_pos_right h (Nat.two_pow_pos j)
      exact Nat.dvd_trans (Nat.pow_dvd_pow 2 (by omega)) (Nat.dvd_mul_left _ _)
  · rw [← Nat.pow_add, Nat.log2_two_pow]
    exact Nat.pow_dvd_pow 2 (by omega)

theorem div_spacing_lt (q : Nat) : q / spacing q < significands := by
  simp only [spacing, significands, Nat.one_shiftLeft]
  rw [Nat.div_lt_iff_lt_mul (Nat.two_pow_pos _), ← Nat.pow_add]
  exact Nat.lt_of_lt_of_le Nat.lt_log2_self (Nat.pow_le_pow_right (by omega) (by omega))

/-- What rounding gives has at most 53 significant binary digits. -/
theorem spacing_dvd_roundUnits (num den : Nat) :
    spacing (roundUnits num den) ∣ roundUnits num den := by
  apply spacing_dvd_mul_spacing
  have h := halfEven_le num (den * spacing (num / den))
  rw [← Nat.div_div_eq_div_mul] at h
  have := div_spacing_lt (num / den)
  omega

/-- The double of a rounded magnitude; a magnitude out of range gives an infinity. -/
def ofUnits (negative : Bool) (units : Nat) (onGrid : spacing units ∣ units) : Binary64 :=
  if h : units < limit then .finite ⟨negative, units, onGrid, h⟩ else .infinite negative

def ofQuotient (negative : Bool) (num den : Nat) : Binary64 :=
  ofUnits negative (roundUnits num den) (spacing_dvd_roundUnits num den)

def zero (negative : Bool) : Binary64 :=
  .finite ⟨negative, 0, Nat.dvd_zero _, limit_pos⟩

def ofInt (n : Int) : Binary64 := ofQuotient (n < 0) (n.natAbs * one) 1

def isFinite : Binary64 → Bool
  | .finite _ => true
  | _ => false

/-- The units of a finite double, counted with its sign. -/
def Finite.value (x : Finite) : Int := if x.negative then -(x.units : Int) else x.units

def Finite.floor (x : Finite) : Int := x.value / (one : Int)

def isZero : Binary64 → Bool
  | .finite x => x.units == 0
  | _ => false

def Finite.toInt? (x : Finite) : Option Int :=
  if one ∣ x.units then some (x.value / (one : Int)) else none

end Binary64
end FormLogic
