import SearchExpr.Compiler.Basic
import SearchExpr.Value.Phrase

/-! # Compiling conditions on one field

The queries for comparisons with values and days. Values are prepared and dates written as text on
the way; which filter is used is decided on the value before its date is written.
-/

namespace SearchExpr.Compiler

/-- A value on its way into the query for a comparison. -/
structure PreparedValue where
  target : Target
  value : Value
  wire : Value
  context : FilterContext
  builder : FilterBuilder

/-- Chooses the filter for a prepared value and writes the value. -/
def dispatch (c : Compiler) (target : Target) (value : Value) (phrase : Bool) :
    Except Failure PreparedValue := do
  let context : FilterContext :=
    { field := target.field, phrase, nestedScope := false
      defaultOperator := c.defaultOperator, zoneKey := c.zoneKey }
  let builder ← FilterBuilder.select c.builders value context
  let wire ← value.wire c.zoneKey
  return { target, value, wire, context, builder }

/-- Values marked as phrases are not prepared, values written as phrases are. -/
def prepareValue (c : Compiler) (target : Target) (v : Value) (phrase : Bool) :
    Except Failure PreparedValue := do
  c.dispatch target (← v.prepare c.preparers phrase) (phrase || v.isPhrase)

namespace PreparedValue

def equality (p : PreparedValue) : Except Failure Query :=
  p.builder.build p.target.name p.value p.context

def textQuery (p : PreparedValue) (query : String) : Query :=
  .queryString query [p.target.name] none false

def bounded (p : PreparedValue) (key : RangeKey) : Query :=
  .rangeOn p.target.name [(key, p.wire)]

/-- Patterns are compared with whole values, which the field has to keep. -/
def pattern (p : PreparedValue) (comparison : Comparison) (patternFor : String → String) :
    Except Failure Query :=
  if p.target.field.any (·.hasWholeValues) then
    p.wire.written.map fun text =>
      .wildcardOn (keywordName p.target.field p.target.name p.value) (patternFor text)
  else .error (.fault (.keywordUnsupported p.target.name comparison.word))

def query (p : PreparedValue) : Comparison → Except Failure Query
  | .eq => p.equality
  | .ne => p.equality.map .not
  | .like => p.wire.written.map p.textQuery
  | .notLike => p.wire.written.map fun text => p.textQuery ("NOT (" ++ text ++ ")")
  | .gt => .ok (p.bounded .gt)
  | .ge => .ok (p.bounded .gte)
  | .lt => .ok (p.bounded .lt)
  | .le => .ok (p.bounded .lte)
  | .startsWith => p.pattern .startsWith (· ++ "*")
  | .endsWith => p.pattern .endsWith ("*" ++ ·)
  | .wildcard => p.pattern .wildcard id

end PreparedValue

def compileValue (c : Compiler) (target : Target) (comparison : Comparison) (v : Value)
    (phrase : Bool) : Except Failure Query := do
  (← c.prepareValue target v phrase).query comparison

/-- A value of a set or a bound, as it is sent. -/
def wireValue (c : Compiler) (v : Value) : Except Failure Value := do
  (← v.prepare c.preparers false).wire c.zoneKey

def compileChoices (c : Compiler) (target : Target) (values : List Value) : Except Failure Query := do
  return .termsOn target.name (← values.mapM c.wireValue)

def lowerKey : LowerComparison → RangeKey
  | .gt => .gt
  | .ge => .gte

def upperKey : UpperComparison → RangeKey
  | .lt => .lt
  | .le => .lte

def compileRange (c : Compiler) (target : Target) (lower : LowerComparison) (low : Value)
    (upper : UpperComparison) (high : Value) : Except Failure Query := do
  let low ← c.wireValue low
  let high ← c.wireValue high
  return .rangeOn target.name [(lowerKey lower, low), (upperKey upper, high)]

/-- The instants at which the first of some days begins and the last one ends. -/
def daySpan (c : Compiler) (first last : Date) : Except Failure (Value × Value) := do
  let start ← first.startIn c.zoneKey
  let stop ← last.endIn c.zoneKey
  return (.str start.isoText, .str stop.isoText)

/-- The bounds on an instant for a comparison of its day, none if days are not compared so. -/
def dayBounds? (start stop : Value) : Comparison → Option (List (RangeKey × Value))
  | .eq | .ne => some [(.gte, start), (.lt, stop)]
  | .gt => some [(.gte, stop)]
  | .ge => some [(.gte, start)]
  | .lt => some [(.lt, start)]
  | .le => some [(.lt, stop)]
  | _ => none

def compileDay (c : Compiler) (target : Target) (comparison : Comparison) (d : Date) :
    Except Failure Query := do
  let (start, stop) ← c.daySpan d d
  match dayBounds? start stop comparison with
  | none => throw (.fault (.dayComparisonUnsupported target.name (.str comparison.word)))
  | some bounds =>
    let query := Query.rangeOn target.name bounds
    return if comparison = .ne then query.not else query

def compileDayRange (c : Compiler) (target : Target) (first last : Date) :
    Except Failure Query := do
  let (start, stop) ← c.daySpan first last
  return .rangeOn target.name [(.gte, start), (.lt, stop)]

end SearchExpr.Compiler
