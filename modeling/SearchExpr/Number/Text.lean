import SearchExpr.Number.Shortest

/-! # Number text

A whole number is written in decimal digits unless it has too many of them. Floating point numbers
are written with their shortest decimal: in positional notation between `10 ^ -4` and `10 ^ 16`,
otherwise in scientific notation with a signed exponent of two digits or more.
-/

namespace SearchExpr

/-- The most digits with which a whole number is written. -/
def mostDigits : Nat := 4300

def intText? (n : Int) : Option String :=
  if n.natAbs < tenPow mostDigits then some (toString n) else none

/-- The digits of a decimal without trailing zeros, and the exponent of the first of them. -/
def Decimal.scientific (d : Decimal) : List Char × Int :=
  let all := Nat.toDigits 10 d.coefficient
  let digits := (all.reverse.dropWhile (· == '0')).reverse
  (if digits.isEmpty then ['0'] else digits, d.exponent + all.length - 1)

/-- A point after the digit of the units, with at least one digit on either side. -/
def positionalText (digits : List Char) (exponent : Int) : List Char :=
  match exponent with
  | .ofNat e =>
    let whole := digits.take (e + 1)
    let fraction := digits.drop (e + 1)
    whole ++ List.replicate (e + 1 - whole.length) '0' ++
      '.' :: (if fraction.isEmpty then ['0'] else fraction)
  | .negSucc e => '0' :: '.' :: List.replicate e '0' ++ digits

def exponentText (exponent : Int) : List Char :=
  let digits := Nat.toDigits 10 exponent.natAbs
  (if exponent < 0 then '-' else '+') :: List.replicate (2 - digits.length) '0' ++ digits

def scientificText (digits : List Char) (exponent : Int) : List Char :=
  let fraction := digits.drop 1
  digits.take 1 ++ (if fraction.isEmpty then [] else '.' :: fraction) ++ 'e' :: exponentText exponent

def Magnitude.text (m : Magnitude) : List Char :=
  let (digits, exponent) := m.shortest.scientific
  if -4 ≤ exponent ∧ exponent < 16 then positionalText digits exponent
  else scientificText digits exponent

def Binary64.text : Binary64 → String
  | .finite negative m => String.ofList (if negative then '-' :: m.text else m.text)
  | .infinite negative => if negative then "-inf" else "inf"
  | .nan _ => "nan"

/-! ## Reading -/

def isDigit (c : Char) : Bool :=
  '0' ≤ c && c ≤ '9'

/-- The number that a row of digits spells. -/
def natOfDigits (s : List Char) : Nat :=
  s.foldl (fun n c => 10 * n + (c.toNat - 0x30)) 0

/-- Digits, all of them and at least one. -/
def digits? (s : List Char) : Option Nat :=
  if !s.isEmpty && s.all isDigit then some (natOfDigits s) else none

/-- A sign, if there is one, and the rest. -/
def splitSign : List Char → Bool × List Char
  | '-' :: rest => (true, rest)
  | '+' :: rest => (false, rest)
  | s => (false, s)

def signedDigits? (s : List Char) : Option Int :=
  let (negative, rest) := splitSign s
  (digits? rest).map fun n => if negative then -n else n

/-- Reads digits with at most one point among them, and an exponent if there is one. -/
def decimal? (s : List Char) : Option Decimal := do
  let isMark (c : Char) := c == 'e' || c == 'E'
  let exponent ←
    match s.dropWhile (!isMark ·) with
    | [] => some 0
    | _ :: rest => signedDigits? rest
  let body := s.takeWhile (!isMark ·)
  let whole := body.takeWhile (· != '.')
  let fraction := (body.dropWhile (· != '.')).drop 1
  let coefficient ← digits? (whole ++ fraction)
  return ⟨coefficient, exponent - fraction.length⟩

/-- Reads a number; a not-a-number is given the occurrence `occurrence`. -/
def Binary64.ofText? (text : String) (occurrence : Nat) : Option Binary64 :=
  let (negative, rest) := splitSign text.toList
  match String.ofList rest with
  | "inf" | "infinity" | "Infinity" => some (.infinite negative)
  | "nan" | "NaN" => some (.nan occurrence)
  | _ => (decimal? rest).map fun d => .ofDecimal negative d.coefficient d.exponent

end SearchExpr
