/-! # Calendar days

Days of the Gregorian calendar from 1 January of the year 1 to 31 December of the year 9999,
counted from the first.
-/

namespace SearchExpr

structure Date where
  /-- Days since the first day of the calendar. -/
  ordinal : Fin 3652059
  deriving DecidableEq

namespace Date

def isLeapYear (year : Nat) : Bool :=
  year % 4 == 0 && (year % 100 != 0 || year % 400 == 0)

def monthLengths (year : Nat) : List Nat :=
  [31, if isLeapYear year then 29 else 28, 31, 30, 31, 30, 31, 31, 30, 31, 30, 31]

/-- Days in the first `years` years of the calendar. -/
def daysInYears (years : Nat) : Nat :=
  365 * years + years / 4 - years / 100 + years / 400

/-- The years that have passed, by cycles of 400, 100, 4 and 1 years, and the days since. The last
cycle of 100 years and the last year of 4 are a day longer than the others. -/
def splitYears (ordinal : Nat) : Nat × Nat :=
  let centuries := min 3 (ordinal % 146097 / 36524)
  let inCentury := ordinal % 146097 - 36524 * centuries
  let years := min 3 (inCentury % 1461 / 365)
  (400 * (ordinal / 146097) + 100 * centuries + 4 * (inCentury / 1461) + years,
    inCentury % 1461 - 365 * years)

/-- Days in the first `months` months of a year, from the lengths of its months. -/
def daysInMonths : List Nat → (months : Nat) → Nat
  | [], _ => 0
  | _, 0 => 0
  | length :: lengths, months + 1 => length + daysInMonths lengths months

/-- The months that have passed and the days since. -/
def splitMonths : List Nat → Nat → Nat × Nat
  | [], days => (0, days)
  | length :: lengths, days =>
    if days < length then (0, days)
    else
      let (months, rest) := splitMonths lengths (days - length)
      (months + 1, rest)

def year (d : Date) : Nat :=
  (splitYears d.ordinal).1 + 1

def dayOfYear (d : Date) : Nat :=
  (splitYears d.ordinal).2

def month (d : Date) : Nat :=
  (splitMonths (monthLengths d.year) d.dayOfYear).1 + 1

def day (d : Date) : Nat :=
  (splitMonths (monthLengths d.year) d.dayOfYear).2 + 1

def ofOrdinal? (n : Int) : Option Date :=
  if h : 0 ≤ n ∧ n.toNat < 3652059 then some ⟨n.toNat, h.2⟩ else none

/-- The day with this number in this month, if there is one and the year is in the calendar. -/
def ofYearMonthDay? (year month day : Nat) : Option Date :=
  if year = 0 ∨ month = 0 ∨ day = 0 then none
  else
    match (monthLengths year)[month - 1]? with
    | none => none
    | some length =>
      if length < day then none
      else
        ofOrdinal?
          (daysInYears (year - 1) + daysInMonths (monthLengths year) (month - 1) + (day - 1) : Nat)

def addDays? (d : Date) (days : Int) : Option Date :=
  ofOrdinal? (d.ordinal + days)

def next? (d : Date) : Option Date :=
  d.addDays? 1

def previous? (d : Date) : Option Date :=
  d.addDays? (-1)

/-- Days since 1 January 1970. -/
def epochDay (d : Date) : Int :=
  d.ordinal - 719162

def ofEpochDay? (n : Int) : Option Date :=
  ofOrdinal? (n + 719162)

end Date

end SearchExpr
