import SearchExpr.Number.Binary64

/-! # Shortest decimals

The decimal with the fewest digits that lies nearer to a binary64 number than to any other one,
and of those the nearest to the number itself.
-/

namespace SearchExpr

/-- The decimal `coefficient · 10 ^ exponent`. -/
structure Decimal where
  coefficient : Nat
  exponent : Int
  deriving DecidableEq, Inhabited

namespace Magnitude

/-! Quarters of a unit are fine enough to name the middle between two neighbouring numbers. -/

def quartersPerOne : Nat := 4 * unitsPerOne

def quarters (m : Magnitude) : Nat := 4 * m.units

/-- The middle between a number and the next larger one. -/
def upperEnd (m : Magnitude) : Nat :=
  m.quarters + 2 * twoPow m.scale

/-- The middle between a number and the next smaller one, which is nearer at a change of scale. -/
def lowerEnd (m : Magnitude) : Nat :=
  if m.mantissa = twoPow 52 ∧ m.scale ≠ 0 then m.quarters - twoPow m.scale
  else m.quarters - 2 * twoPow m.scale

/-- Whether `num / den` quarters round to the number; a middle does if the mantissa is even. -/
def isNearest (m : Magnitude) (num den : Nat) : Bool :=
  if m.mantissa % 2 = 0 then m.lowerEnd * den ≤ num && num ≤ m.upperEnd * den
  else m.lowerEnd * den < num && num < m.upperEnd * den

/-- The power of ten just above a positive number. -/
def decimalSize (m : Magnitude) : Int :=
  if quartersPerOne ≤ m.quarters then
    (Nat.toDigits 10 (m.quarters / quartersPerOne)).length
  else 1 - ((Nat.toDigits 10 ((quartersPerOne - 1) / m.quarters)).length : Int)

/-- The multiple of `10 ^ exponent` nearest to the number, of its two neighbours on that grid, if
one of them rounds to the number. -/
def onGrid? (m : Magnitude) (exponent : Int) : Option Decimal :=
  let step : Nat × Nat :=
    match exponent with
    | .ofNat e => (quartersPerOne * tenPow e, 1)
    | .negSucc e => (quartersPerOne, tenPow (e + 1))
  let value := m.quarters * step.2
  let below := value / step.1
  let fits (k : Nat) := m.isNearest (k * step.1) step.2
  let nearer := roundQuotient value step.1
  let other := if nearer = below then below + 1 else below
  if fits nearer then some ⟨nearer, exponent⟩
  else if fits other then some ⟨other, exponent⟩
  else none

/-- Tries one digit, two digits and so on; seventeen always suffice. -/
def shortestFrom (m : Magnitude) (size : Int) : (digits fuel : Nat) → Decimal
  | _, 0 => ⟨0, 0⟩
  | digits, fuel + 1 => (m.onGrid? (size - digits)).getD (shortestFrom m size (digits + 1) fuel)

def shortest (m : Magnitude) : Decimal :=
  if m.isZero then ⟨0, 0⟩ else shortestFrom m m.decimalSize 1 17

end Magnitude

end SearchExpr
