import SearchExpr.Calendar.Iso

/-! # Reading days

A day can be given as text, as a number of seconds or milliseconds since 1970, or as a date with a
time, which has to be midnight then.
-/

namespace SearchExpr

inductive DayReading where
  | onDay (d : Date)
  /-- A date with a time after midnight. -/
  | laterThanMidnight
  /-- A day of the year before the first one. -/
  | yearZero
  | unreadable

namespace DayReading

/-! Numbers reach from the beginning of the year before the first one to the end of the calendar. -/

def firstSecond : Int := -62167219200

def lastSecond : Int := 253402300799

/-- Beyond this size a number counts milliseconds. -/
def largestSeconds : Nat := 20000000000

/-- `micros` are counted up from the whole number. -/
def ofUnixTime (n : Int) (micros : Nat) : DayReading :=
  let inSeconds := n.natAbs ≤ largestSeconds
  let micros := micros + if inSeconds then 0 else (n % 1000).toNat * 1000
  let seconds := (if inSeconds then n else n / 1000) + (micros / 1000000 : Nat)
  if seconds < firstSecond || lastSecond < seconds then unreadable
  else if seconds % 86400 ≠ 0 || micros % 1000000 ≠ 0 then laterThanMidnight
  else
    match Date.ofEpochDay? (seconds / 86400) with
    | some d => onDay d
    | none => yearZero

/-- The whole number below a number, and how far the number is above it, in units. The distance is
rounded as binary64 numbers are and can come out as one for a number just below zero. -/
def splitFloor (negative : Bool) (m : Magnitude) : Int × Nat :=
  let whole := m.units / Magnitude.unitsPerOne
  let rest := m.units % Magnitude.unitsPerOne
  if negative && rest ≠ 0 then
    (-(whole + 1 : Nat), Binary64.nearestUnits (Magnitude.unitsPerOne - rest) Magnitude.unitsPerOne)
  else (if negative then -whole else whole, rest)

/-- The millionths in a part of one, multiplied as binary64 numbers are and then rounded to a whole
number, upwards from the middle. -/
def microsIn (units : Nat) : Nat :=
  let micros := Binary64.nearestUnits (units * 1000000) Magnitude.unitsPerOne
  (2 * micros + Magnitude.unitsPerOne) / (2 * Magnitude.unitsPerOne)

def ofUnixFloat : Binary64 → DayReading
  | .finite negative m =>
    let (floor, rest) := splitFloor negative m
    ofUnixTime floor (microsIn rest)
  | .infinite _ => unreadable
  | .nan _ => unreadable

def ofDecimalText (s : List Char) : DayReading :=
  match signedDigits? s with
  | some n => ofUnixTime n 0
  | none =>
    let (negative, s) := splitSign s
    let whole := s.takeWhile isDigit
    match whole.isEmpty, s.dropWhile isDigit with
    | false, '.' :: fraction =>
      if fraction.all isDigit then
        ofUnixFloat (.ofDecimal negative (natOfDigits (whole ++ fraction)) (-fraction.length))
      else unreadable
    | _, _ => unreadable

/-- A fraction after a point or a comma, if there is one; it may have any number of digits. -/
def fractionPart? : List Char → Option (List Char × List Char)
  | [] => some ([], [])
  | mark :: rest =>
    if mark == '.' || mark == ',' then
      if (rest.takeWhile isDigit).isEmpty then none
      else some (rest.takeWhile isDigit, rest.dropWhile isDigit)
    else some ([], mark :: rest)

/-- Whether a time of day is midnight, and what follows it. Seconds can be left out, a fraction can
follow them only. -/
def clockPart? (s : List Char) : Option (Bool × List Char) := do
  let (hour, s) ← twoDigits? s
  let ':' :: s := s | none
  let (minute, s) ← twoDigits? s
  let (second, fraction, s) ←
    match s with
    | ':' :: s => do
      let (second, s) ← twoDigits? s
      let (fraction, s) ← fractionPart? s
      some (second, fraction, s)
    | s => some (0, [], s)
  if hour < 24 ∧ minute < 60 ∧ second < 60 then
    some (hour == 0 && minute == 0 && second == 0 && millionths fraction == 0, s)
  else none

/-- Nothing, the letter of UTC, or a sign with hours and minutes below a day. -/
def isOffset : List Char → Bool
  | [] => true
  | ['Z'] | ['z'] => true
  | sign :: rest =>
    (sign == '+' || sign == '-' || sign.toNat == 0x2212) &&
      match twoDigits? rest with
      | none => false
      | some (hour, rest) =>
        match twoDigits? (if rest.head? == some ':' then rest.drop 1 else rest) with
        | some (minute, []) => hour < 24 && minute < 60
        | _ => false

def ofDateParts (year month day : Nat) : DayReading :=
  if year = 0 then
    if (Date.ofYearMonthDay? 400 month day).isSome then yearZero else unreadable
  else
    match Date.ofYearMonthDay? year month day with
    | some d => onDay d
    | none => unreadable

/-- What may stand between a date and a time. -/
def dateTimeSeparators : List Char :=
  ['T', 't', '_', ' ']

/-- A date, or a date and a time with a letter, an underscore or a space between them. The offset
of the time is not looked at. -/
def ofIso? (s : List Char) : Option DayReading := do
  let ((year, month, day), rest) ← datePart? s
  let date := ofDateParts year month day
  match rest with
  | [] => some date
  | separator :: rest =>
    if !dateTimeSeparators.contains separator then none
    else
      let (isMidnight, rest) ← clockPart? rest
      if !isOffset rest then none
      else
        match date with
        | .unreadable => none
        | date => if isMidnight then some date else some laterThanMidnight

def ofText (s : String) : DayReading :=
  (ofIso? s.toList).getD (ofDecimalText s.toList)

end DayReading

end SearchExpr
