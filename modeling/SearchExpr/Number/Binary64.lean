/-! # Binary floating point

The binary64 numbers as exact quantities. Every finite one is a whole number of units of
`2 ^ -1074`, so comparisons and roundings are done on integers.
-/

namespace SearchExpr

def twoPow (n : Nat) : Nat := Nat.pow 2 n

def tenPow (n : Nat) : Nat := Nat.pow 10 n

/-- The number `mantissa · 2 ^ scale` units, with the largest mantissa that the format allows. -/
structure Magnitude where
  mantissa : Nat
  scale : Nat
  mantissa_lt : mantissa < twoPow 53
  scale_le : scale ≤ 2045
  normal : scale = 0 ∨ twoPow 52 ≤ mantissa
  deriving DecidableEq

/-- Zeros keep their sign. Not-a-number equals no other number, so the occurrences of it are told
apart. -/
inductive Binary64 where
  | finite (negative : Bool) (magnitude : Magnitude)
  | infinite (negative : Bool)
  | nan (occurrence : Nat)
  deriving DecidableEq

namespace Magnitude

/-- Units of `2 ^ -1074`. -/
def units (m : Magnitude) : Nat :=
  m.mantissa * twoPow m.scale

def unitsPerOne : Nat := twoPow 1074

def zero : Magnitude :=
  ⟨0, 0, by decide, by decide, .inl rfl⟩

def isZero (m : Magnitude) : Bool :=
  m.mantissa == 0

end Magnitude

/-- The whole number nearest to a quotient, an even one if two are equally near. -/
def roundQuotient (num den : Nat) : Nat :=
  let q := num / den
  let r := num % den
  if 2 * r < den then q else if den < 2 * r then q + 1 else q + q % 2

namespace Binary64

/-- Reads a mantissa and a scale, which must be in the format's normal form; what is too large for
the format is infinite. -/
def ofParts (negative : Bool) (mantissa scale : Nat) : Binary64 :=
  if h : mantissa < twoPow 53 ∧ scale ≤ 2045 ∧ (scale = 0 ∨ twoPow 52 ≤ mantissa) then
    .finite negative ⟨mantissa, scale, h.1, h.2.1, h.2.2⟩
  else .infinite negative

/-- The number nearest to `num / den` for a positive `den`, of two equally near ones the one with
an even mantissa. -/
def ofRatio (negative : Bool) (num den : Nat) : Binary64 :=
  let num := num * Magnitude.unitsPerOne
  let scale := (num / den).log2 - 52
  let mantissa := roundQuotient num (den * twoPow scale)
  if mantissa = twoPow 53 then ofParts negative (twoPow 52) (scale + 1)
  else ofParts negative mantissa scale

/-- The units of the number nearest to `num / den`, which must not be too large for the format. -/
def nearestUnits (num den : Nat) : Nat :=
  match ofRatio false num den with
  | .finite _ m => m.units
  | _ => 0

/-- The number nearest to `coefficient · 10 ^ exponent`. -/
def ofDecimal (negative : Bool) (coefficient : Nat) (exponent : Int) : Binary64 :=
  if coefficient = 0 then .finite negative .zero
  else
    let places := ((Nat.toDigits 10 coefficient).length : Int) + exponent
    if 310 < places then .infinite negative
    else if places < -330 then .finite negative .zero
    else
      match exponent with
      | .ofNat e => ofRatio negative (coefficient * tenPow e) 1
      | .negSucc e => ofRatio negative coefficient (tenPow (e + 1))

end Binary64

/-- The place of a number on the extended number line; the place of a not-a-number is its own. -/
inductive Place where
  | units (n : Int)
  | infinite (negative : Bool)
  | nowhere (occurrence : Nat)
  deriving DecidableEq

def Place.ofInt (n : Int) : Place :=
  .units (n * Magnitude.unitsPerOne)

/-- The two zeros have one place. -/
def Binary64.place : Binary64 → Place
  | .finite negative m => .units (if negative then -m.units else m.units)
  | .infinite negative => .infinite negative
  | .nan occurrence => .nowhere occurrence

end SearchExpr
