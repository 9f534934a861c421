import SearchExpr.Calendar.Iso
import SearchExpr.Calendar.ZoneTable
import SearchExpr.Failure

/-! # Dates in a time zone

A date is sent to the search engine as an instant: the one at which it begins in a time zone, which
is named by its key.
-/

namespace SearchExpr

/-- The time zones that there are, by their keys. -/
abbrev ZoneDatabase := String → Option Zone

/-- The zones of the table. -/
def ZoneDatabase.tabulated : ZoneDatabase := fun key =>
  Zone.tabulated.find? (·.key == key)

/-- A key and where it is looked up. -/
structure ZoneKey where
  zones : ZoneDatabase
  key : String

def defaultZoneKey : String := "Europe/Berlin"

namespace ZoneKey

def tabulated (key : String) : ZoneKey :=
  ⟨.tabulated, key⟩

/-- The key itself, the default one if it is empty. -/
def given (k : ZoneKey) : String :=
  if k.key.isEmpty then defaultZoneKey else k.key

end ZoneKey

/-- A key is a relative path without empty parts and without steps to the same or the parent
folder. -/
def Zone.isKey (key : String) : Bool :=
  key == "." ||
    !(key.toList.splitOn '/').any fun part => [[], ['.'], ['.', '.']].contains part

/-- The zone with a key, the default one for no key. -/
def Zone.ofKey (k : ZoneKey) : Except Failure Zone :=
  if !isKey k.given then .error (.malformedZoneKey k.given)
  else
    match k.zones k.given with
    | some zone => .ok zone
    | none => .error (.unknownZone k.given)

def Date.startIn (d : Date) (zoneKey : ZoneKey) : Except Failure ZonedTime := do
  return (← Zone.ofKey zoneKey).startOfDay d

/-- The start of the day after. -/
def Date.endIn (d : Date) (zoneKey : ZoneKey) : Except Failure ZonedTime :=
  match d.next? with
  | some next => next.startIn zoneKey
  | none => .error .beyondCalendar

namespace Value

/-- The day of a date, with a time or without. -/
def day? : Value → Option Date
  | date d => some d
  | dateTime t => some t.date
  | _ => none

def toZoned (v : Value) (zoneKey : ZoneKey) : Except Failure ZonedTime := do
  let zone ← Zone.ofKey zoneKey
  match v with
  | date d => return zone.startOfDay d
  | dateTime t =>
    match zone.ofDateTime? t with
    | some zoned => return zoned
    | none => throw .beyondCalendar
  | _ => throw .wrongType

def startOfDay (v : Value) (zoneKey : ZoneKey) : Except Failure ZonedTime :=
  match v.day? with
  | some d => d.startIn zoneKey
  | none => v.toZoned zoneKey

def startOfNextDay (v : Value) (zoneKey : ZoneKey) : Except Failure ZonedTime :=
  match v.day? with
  | some d => d.endIn zoneKey
  | none => .error .wrongType

def isoText (v : Value) (zoneKey : ZoneKey) : Except Failure String := do
  return (← v.toZoned zoneKey).isoText

/-- The value as it is sent: dates as text, all others as they are. -/
def wire (v : Value) (zoneKey : ZoneKey) : Except Failure Value :=
  if v.isDate then (v.isoText zoneKey).map str else .ok v

end Value

end SearchExpr
