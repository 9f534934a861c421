import SearchExpr.Calendar.Iso
import SearchExpr.Number.Text
import SearchExpr.Text.Quoted
import SearchExpr.Value.Basic

/-! # Text of values

The literal of a value names it unambiguously in a message. Its plain text, as it is put into a
query, differs for character strings, which stand for themselves, and for dates. A value has neither
if a whole number in it has too many digits.
-/

namespace SearchExpr

def commaSeparated (items : List String) : String :=
  ", ".intercalate items

namespace Date

def literal (d : Date) : String :=
  s!"datetime.date({d.year}, {d.month}, {d.day})"

end Date

/-- A number of microseconds that is less than a day, by its days, seconds and microseconds. -/
def durationLiteral (micros : Int) : String :=
  let parts : List (String × Int) :=
    [ ("days", micros / 86400000000), ("seconds", micros / 1000000 % 86400),
      ("microseconds", micros % 1000000) ]
  let arguments := (parts.filter (·.2 ≠ 0)).map fun (name, n) => name ++ "=" ++ toString n
  "datetime.timedelta(" ++ commaSeparated arguments ++ ")"

/-- An unknown clock is not mentioned. -/
def Clock.literal? : Clock → Option String
  | unknown => none
  | fixed offset =>
    if offset = 0 then some "datetime.timezone.utc"
    else some ("datetime.timezone(" ++ durationLiteral offset ++ ")")
  | zone z => some ("zoneinfo.ZoneInfo(key=" ++ Text.quoted z.key ++ ")")

namespace DateTime

def literal (t : DateTime) : String :=
  let parts := [t.date.year, t.date.month, t.date.day, t.hour, t.minute].map toString
  let seconds :=
    if t.micro.val ≠ 0 then [toString t.secondOfMinute, toString t.micro]
    else if t.secondOfMinute ≠ 0 then [toString t.secondOfMinute] else []
  let fold := if t.fold then ["fold=1"] else []
  let clock := t.clock.literal?.toList.map ("tzinfo=" ++ ·)
  "datetime.datetime(" ++ commaSeparated (parts ++ seconds ++ fold ++ clock) ++ ")"

end DateTime

namespace Value

def boolText (b : Bool) : String :=
  if b then "True" else "False"

def tupleText : List String → String
  | [x] => "(" ++ x ++ ",)"
  | xs => "(" ++ commaSeparated xs ++ ")"

def braced (items : List String) : String :=
  "\x7b" ++ commaSeparated items ++ "\x7d"

mutual

/-- The literal of a value, unless a number in it has too many digits. -/
def literal? : Value → Option String
  | null => some "None"
  | bool b => some (boolText b)
  | int n => intText? n
  | float x => some x.text
  | str s => some (Text.quoted s)
  | bytes bs => some (Text.quotedBytes bs)
  | byteArray bs => some ("bytearray(" ++ Text.quotedMutableBytes bs ++ ")")
  | date d => some d.literal
  | dateTime t => some t.literal
  | list xs => (literals? xs).map fun items => "[" ++ commaSeparated items ++ "]"
  | tuple xs => (literals? xs).map tupleText
  | set xs => (literals? xs).map fun items => if xs.isEmpty then "set()" else braced items
  | frozenSet xs =>
    (literals? xs).map fun items =>
      "frozenset(" ++ (if xs.isEmpty then "" else braced items) ++ ")"
  | dict entries => (entryLiterals? entries).map braced

def literals? : List Value → Option (List String)
  | [] => some []
  | x :: xs => do
    let item ← literal? x
    let items ← literals? xs
    return item :: items

def entryLiterals? : List (Value × Value) → Option (List String)
  | [] => some []
  | (key, x) :: rest => do
    let name ← literal? key
    let item ← literal? x
    let items ← entryLiterals? rest
    return (name ++ ": " ++ item) :: items

end

def text? : Value → Option String
  | str s => some s
  | date d => some d.isoText
  | dateTime t => some (t.isoText " ")
  | v => v.literal?

end Value

end SearchExpr
