import SearchExpr.Calendar.Date

/-! # Times on clocks

A wall time is what a clock with a calendar shows.
-/

namespace SearchExpr

structure WallTime where
  date : Date
  /-- Seconds since midnight. -/
  second : Fin 86400
  micro : Fin 1000000
  /-- Of two equal readings after the clock was set back, the second one. -/
  fold : Bool
  deriving DecidableEq

/-- A date with a time, on a clock that is ahead of UTC by a number of seconds. -/
structure ZonedTime extends WallTime where
  offset : Int
  deriving DecidableEq

namespace WallTime

def midnight (d : Date) : WallTime :=
  ⟨d, 0, 0, false⟩

/-- Seconds between midnight of 1 January 1970 and the same reading of a clock never set. -/
def seconds (w : WallTime) : Int :=
  w.date.epochDay * 86400 + w.second

/-- The reading after a number of seconds, if it is in the calendar. -/
def ofSeconds? (seconds : Int) (micro : Fin 1000000) (fold : Bool) : Option WallTime :=
  (Date.ofEpochDay? (seconds / 86400)).map fun d =>
    ⟨d, ⟨(seconds % 86400).toNat, by omega⟩, micro, fold⟩

def hour (w : WallTime) : Nat := w.second / 3600

def minute (w : WallTime) : Nat := w.second / 60 % 60

def secondOfMinute (w : WallTime) : Nat := w.second % 60

end WallTime

end SearchExpr
