import SearchExpr.Calendar.DayText
import SearchExpr.Check
import SearchExpr.Text.Case
import SearchExpr.Text.Utf8

/-! # Values of an expected type

How a given value is taken for a text, a truth value, one of several words or a day.
-/

namespace SearchExpr.Value

def toText : Value → Check String
  | str s => .valid s
  | bytes bs | byteArray bs =>
    match Text.ofUtf8? bs with
    | some s => .valid s
    | none => .problem .notUtf8
  | _ => .problem .notText

def boolWords : List (String × Bool) :=
  [ ("0", false), ("off", false), ("f", false), ("false", false), ("n", false), ("no", false),
    ("1", true), ("on", true), ("t", true), ("true", true), ("y", true), ("yes", true) ]

def boolOfWord (s : String) : Check Bool :=
  match boolWords.lookup (Text.lower s) with
  | some b => .valid b
  | none => .problem .unreadableBool

/-- Of the numbers only the whole ones can be meant as truth values, and of them only 0 and 1 are. -/
def boolOfPlace : Place → Check Bool
  | .units n =>
    if n = 0 then .valid false
    else if n = Magnitude.unitsPerOne then .valid true
    else if n % Magnitude.unitsPerOne = 0 then .problem .unreadableBool
    else .problem .notBool
  | _ => .problem .notBool

def toBool : Value → Check Bool
  | bool b => .valid b
  | int n => boolOfPlace (.ofInt n)
  | float x => boolOfPlace x.place
  | str s => boolOfWord s
  | bytes bs =>
    match Text.ofUtf8? bs with
    | some s => boolOfWord s
    | none => .problem .unreadableBool
  | _ => .problem .notBool

def toOptionalBool : Value → Check (Option Bool)
  | null => .valid none
  | v => v.toBool.map some

/-- Reads one of the words that an option knows. -/
def toOption {α : Type} (options : List (String × α)) : Value → Check α
  | str s =>
    match options.lookup s with
    | some a => .valid a
    | none => .problem .notAmongOptions
  | _ => .problem .notAmongOptions

def ofDayReading : DayReading → Check Date
  | .onDay d => .valid d
  | .laterThanMidnight => .problem .notMidnight
  | .yearZero => .problem .yearZero
  | .unreadable => .problem .unreadableDay

/-- Of a date with a time its own day is taken. -/
def toDay : Value → Check Date
  | date d => .valid d
  | dateTime t => .valid t.date
  | int n => ofDayReading (.ofUnixTime n 0)
  | float x => ofDayReading (.ofUnixFloat x)
  | str s => ofDayReading (.ofText s)
  | bytes bs =>
    match Text.ofUtf8? bs with
    | some s => ofDayReading (.ofText s)
    | none => .problem .unreadableDay
  | _ => .problem .notDay

def toTuple (v : Value) : Check (List Value) :=
  match v.elements? with
  | some xs => .valid xs
  | none => .problem .notTuple

end SearchExpr.Value
