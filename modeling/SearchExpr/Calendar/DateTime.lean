import SearchExpr.Calendar.Zone

/-! # Dates with a time of day

A date with a time denotes an instant if something is known about the clock that shows it: by how
much it is ahead of UTC, or the zone whose clock it is.
-/

namespace SearchExpr

/-- A fixed offset is counted in microseconds. -/
inductive Clock where
  | unknown
  | fixed (offset : Int)
  | zone (z : RegularZone)
  deriving DecidableEq

structure DateTime extends WallTime where
  clock : Clock
  deriving DecidableEq

/-- How far a clock is ahead of UTC when it shows a time, in microseconds. -/
def Clock.offset? (w : WallTime) : Clock → Option Int
  | unknown => none
  | fixed offset => some offset
  | zone z => some (z.offsetOf w * 1000000)

namespace DateTime

def midnight (d : Date) : DateTime :=
  { WallTime.midnight d with clock := .unknown }

def offset? (t : DateTime) : Option Int :=
  t.clock.offset? t.toWallTime

/-- The instant in microseconds since 1970, where it is known. -/
def instant? (t : DateTime) : Option Int :=
  t.offset?.map fun offset => t.seconds * 1000000 + t.micro - offset

/-- The clock of a zone shows the time twice or never, so that it depends on the fold which instant
is meant. -/
def isDoubtful (t : DateTime) : Bool :=
  t.clock.offset? { t.toWallTime with fold := false } !=
    t.clock.offset? { t.toWallTime with fold := true }

/-- Two times on one clock are compared by what it shows. Times on different clocks are compared as
instants, and a doubtful one equals none. -/
def same (t u : DateTime) : Bool :=
  if t.clock = u.clock then t.date == u.date && t.second == u.second && t.micro == u.micro
  else
    match t.instant?, u.instant? with
    | some i, some j => i == j && !t.isDoubtful && !u.isDoubtful
    | _, _ => false

end DateTime

def ZonedTime.toDateTime (t : ZonedTime) : DateTime :=
  { t.toWallTime with clock := .fixed (t.offset * 1000000) }

/-- The microseconds of an instant since its last whole second. -/
def microOf (instant : Int) : Fin 1000000 :=
  ⟨(instant % 1000000).toNat, by omega⟩

namespace Zone

/-- A time with a clock of the zone is taken as shown in the zone, and so is one without a clock. -/
def owns (z : Zone) : Clock → Bool
  | .unknown => true
  | .fixed _ => false
  | .zone own => own.toZone = z

/-- The same instant in the zone. The time in UTC must be in the calendar too, except for a time that
needs no conversion. -/
def ofDateTime? (z : Zone) (t : DateTime) : Option ZonedTime :=
  if z.owns t.clock then some (z.ofWall t.toWallTime)
  else
    t.instant?.bind fun instant =>
      (WallTime.ofSeconds? (instant / 1000000) (microOf instant) false).bind fun _ =>
        z.ofInstant? (instant / 1000000) (microOf instant)

end Zone

end SearchExpr
