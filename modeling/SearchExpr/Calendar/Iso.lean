import SearchExpr.Calendar.DateTime
import SearchExpr.Number.Text

/-! # ISO text of dates and times -/

namespace SearchExpr

/-- A number with zeros in front up to a width. -/
def padded (width n : Nat) : String :=
  let digits := Nat.toDigits 10 n
  String.ofList (List.replicate (width - digits.length) '0' ++ digits)

def Date.isoText (d : Date) : String :=
  padded 4 d.year ++ "-" ++ padded 2 d.month ++ "-" ++ padded 2 d.day

namespace WallTime

def clockText (w : WallTime) : String :=
  padded 2 w.hour ++ ":" ++ padded 2 w.minute ++ ":" ++ padded 2 w.secondOfMinute

def fractionText (w : WallTime) : String :=
  if w.micro.val = 0 then "" else "." ++ padded 6 w.micro

end WallTime

/-- An offset in seconds: hours and minutes, and seconds if there are any. -/
def offsetText (offset : Int) : String :=
  let n := offset.natAbs
  (if offset < 0 then "-" else "+") ++ padded 2 (n / 3600) ++ ":" ++ padded 2 (n / 60 % 60) ++
    (if n % 60 = 0 then "" else ":" ++ padded 2 (n % 60))

/-- An offset in microseconds. A fraction of a second follows the seconds. -/
def microOffsetText (offset : Int) : String :=
  let seconds := offset.natAbs / 1000000
  let micros := offset.natAbs % 1000000
  if micros = 0 then offsetText (if offset < 0 then -seconds else seconds)
  else
    (if offset < 0 then "-" else "+") ++ padded 2 (seconds / 3600) ++ ":" ++
      padded 2 (seconds / 60 % 60) ++ ":" ++ padded 2 (seconds % 60) ++ "." ++ padded 6 micros

def DateTime.isoText (t : DateTime) (separator : String) : String :=
  t.date.isoText ++ separator ++ t.clockText ++ t.fractionText ++
    (t.offset?.map microOffsetText).getD ""

/-- The form sent to the search engine: whole seconds and an offset. -/
def ZonedTime.isoText (t : ZonedTime) : String :=
  t.date.isoText ++ "T" ++ t.clockText ++ offsetText t.offset

/-! ## Reading -/

def twoDigits? : List Char → Option (Nat × List Char)
  | a :: b :: rest => (digits? [a, b]).map (·, rest)
  | _ => none

/-- `YYYY-MM-DD` in front of a text: the three numbers and the rest. -/
def datePart? (s : List Char) : Option ((Nat × Nat × Nat) × List Char) := do
  let year ← if s.length < 4 then none else digits? (s.take 4)
  let '-' :: s := s.drop 4 | none
  let (month, s) ← twoDigits? s
  let '-' :: s := s | none
  let (day, s) ← twoDigits? s
  return ((year, month, day), s)

def Date.ofIso? (s : String) : Option Date := do
  let ((year, month, day), []) ← datePart? s.toList | none
  Date.ofYearMonthDay? year month day

/-- The first six digits of a fraction as millionths. -/
def millionths (digits : List Char) : Nat :=
  natOfDigits ((digits ++ List.replicate 6 '0').take 6)

/-- A sign, hours, minutes and perhaps seconds, and nothing after. -/
def wholeOffset? (s : List Char) : Option Int := do
  let sign ← match s.head? with
    | some '+' => some (1 : Int)
    | some '-' => some (-1)
    | _ => none
  let (hour, s) ← twoDigits? (s.drop 1)
  let ':' :: s := s | none
  let (minute, s) ← twoDigits? s
  let second ←
    match s with
    | [] => some 0
    | ':' :: s => do
      let (second, []) ← twoDigits? s | none
      some second
    | _ => none
  return sign * (hour * 3600 + minute * 60 + second)

/-- Reads what `isoText` writes, and fractions of any length. -/
def DateTime.ofIso? (text : String) (fold : Bool) : Option DateTime := do
  let ((year, month, day), s) ← datePart? text.toList
  let 'T' :: s := s | none
  let date ← Date.ofYearMonthDay? year month day
  let (hour, s) ← twoDigits? s
  let ':' :: s := s | none
  let (minute, s) ← twoDigits? s
  let ':' :: s := s | none
  let (second, s) ← twoDigits? s
  let (fraction, s) :=
    match s with
    | '.' :: s => (s.takeWhile isDigit, s.dropWhile isDigit)
    | s => ([], s)
  let clock ←
    if s.isEmpty then some .unknown
    else (wholeOffset? s).map fun offset => .fixed (offset * 1000000)
  let micro := millionths fraction
  if h : hour < 24 ∧ minute < 60 ∧ second < 60 ∧ micro < 1000000 then
    some { date, second := ⟨hour * 3600 + minute * 60 + second, by omega⟩
           micro := ⟨micro, h.2.2.2⟩, fold, clock }
  else none

end SearchExpr
