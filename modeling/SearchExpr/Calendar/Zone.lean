import SearchExpr.Calendar.WallTime

/-! # Time zones

A zone is the list of the instants at which its clocks are set, each with the offset from UTC that
holds from then on. The times shown around a change are looked up from both sides: an instant has
one offset, a wall time may be shown twice or never.
-/

namespace SearchExpr

/-- Instants are counted in seconds since 1970 began in UTC. -/
structure ClockChange where
  instant : Int
  offset : Int
  deriving DecidableEq

/-- Changes come in the order of time. Two zones are told apart by their keys even if their clocks
always show the same. -/
structure Zone where
  key : String
  initialOffset : Int
  changes : List ClockChange
  deriving DecidableEq

namespace Zone

/-- The offset in force at an instant, and whether the clock shows the time for the second time:
that is so until `repeatsEnd`, the end of the time by which the clock was set back. -/
def readingFrom (instant offset repeatsEnd : Int) : List ClockChange → Int × Bool
  | [] => (offset, instant < repeatsEnd)
  | c :: rest =>
    if c.instant ≤ instant then readingFrom instant c.offset (c.instant + (offset - c.offset)) rest
    else (offset, instant < repeatsEnd)

def reading (z : Zone) (instant : Int) : Int × Bool :=
  readingFrom instant z.initialOffset instant z.changes

/-- A change is seen on the clock when its hands pass the later of the two readings at that
instant, or the earlier one for the second of two equal readings. -/
def offsetFrom (wall : Int) (fold : Bool) (offset : Int) : List ClockChange → Int
  | [] => offset
  | c :: rest =>
    let seen := c.instant + if fold then min offset c.offset else max offset c.offset
    if seen ≤ wall then offsetFrom wall fold c.offset rest else offset

def offsetOf (z : Zone) (w : WallTime) : Int :=
  offsetFrom w.seconds w.fold z.initialOffset z.changes

/-- Takes a wall time as shown in the zone, also one that is never shown. -/
def ofWall (z : Zone) (w : WallTime) : ZonedTime :=
  { w with offset := z.offsetOf w }

def startOfDay (z : Zone) (d : Date) : ZonedTime :=
  z.ofWall (.midnight d)

/-- What the zone's clocks show at an instant, if that is in the calendar. Only the reading is kept:
its offset is looked up as for any other time on these clocks. -/
def ofInstant? (z : Zone) (instant : Int) (micro : Fin 1000000) : Option ZonedTime :=
  let (offset, again) := z.reading instant
  (WallTime.ofSeconds? (instant + offset) micro again).map z.ofWall

/-! ## Regular zones -/

def OffsetsWithin (lo hi : Int) (z : Zone) : Prop :=
  (lo ≤ z.initialOffset ∧ z.initialOffset ≤ hi) ∧ ∀ c ∈ z.changes, lo ≤ c.offset ∧ c.offset ≤ hi

/-- From an offset on, the times that are shown twice or never at one change are over when those at
the next change begin. -/
def SpacedFrom (offset : Int) : List ClockChange → Prop
  | [] => True
  | c :: cs =>
    (∀ d ∈ cs.head?, c.instant + max offset c.offset ≤ d.instant + min c.offset d.offset) ∧
      SpacedFrom c.offset cs

/-- Offsets of less than a day, and changes that do not interfere with each other. -/
structure IsRegular (z : Zone) : Prop where
  offsets : z.OffsetsWithin (-86399) 86399
  spaced : SpacedFrom z.initialOffset z.changes

end Zone

structure RegularZone extends Zone where
  isRegular : toZone.IsRegular
  deriving DecidableEq

/-! ## Yearly rules -/

/-- The `week`-th `weekday` of a month (0 is Sunday, the fifth is the last) at a time on the clock. -/
structure YearlyDate where
  month : Nat
  week : Nat
  weekday : Nat
  second : Int

namespace YearlyDate

/-- Days from 1970 to the rule's day in a year. -/
def epochDay (r : YearlyDate) (year : Nat) : Int :=
  let lengths := Date.monthLengths year
  let first : Int :=
    (Date.daysInYears (year - 1) + Date.daysInMonths lengths (r.month - 1) : Nat) - 719162
  let length : Int := lengths.getD (r.month - 1) 0
  let ahead := (r.weekday - (first + 4)) % 7
  let day := ahead + 7 * (r.week - 1)
  first + if day < length then day else day - 7

/-- The instant at which a clock with an offset shows the rule's date and time. -/
def instant (r : YearlyDate) (year : Nat) (offset : Int) : Int :=
  r.epochDay year * 86400 + r.second - offset

end YearlyDate

/-- Clocks are put ahead by the `summer` rule and back by the `winter` rule of each year. -/
structure YearlyRule where
  standardOffset : Int
  summerOffset : Int
  summer : YearlyDate
  winter : YearlyDate

namespace YearlyRule

def changesIn (r : YearlyRule) (year : Nat) : List ClockChange :=
  let ahead : ClockChange := ⟨r.summer.instant year r.standardOffset, r.summerOffset⟩
  let back : ClockChange := ⟨r.winter.instant year r.summerOffset, r.standardOffset⟩
  if ahead.instant < back.instant then [ahead, back] else [back, ahead]

/-- The changes after an instant up to the end of the calendar. -/
def changesAfter (r : YearlyRule) (instant : Int) : List ClockChange :=
  ((List.range 8100).flatMap fun n => r.changesIn (1900 + n)).filter (instant < ·.instant)

end YearlyRule

/-- A zone given by the changes of the past and the rule for all later years. -/
def Zone.withRule (key : String) (initialOffset : Int) (changes : List ClockChange)
    (rule : YearlyRule) : Zone :=
  let last := (changes.getLast?.map (·.instant)).getD 0
  ⟨key, initialOffset, changes ++ rule.changesAfter last⟩

end SearchExpr
