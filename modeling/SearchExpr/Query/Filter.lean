import SearchExpr.Mapping.Basic
import SearchExpr.Query.Basic
import SearchExpr.Text.Phrase
import SearchExpr.Value.Zoned

/-! # Filters

The query for equality of a field and a value depends on what is known about the field and on the
value. It is made by the first builder of a list that supports both.
-/

namespace SearchExpr

/-- What a builder looks at besides the name of the field and the value. In a nested scope a query
is on the objects of a nested field already. -/
structure FilterContext where
  field : Option Field
  phrase : Bool
  nestedScope : Bool
  defaultOperator : Connective
  zoneKey : ZoneKey

/-- The builders of queries that are not nested. -/
inductive FlatBuilder where
  | absence | phrase | queryString | term
  deriving DecidableEq

inductive FilterBuilder where
  | nested
  | flat (builder : FlatBuilder)
  deriving DecidableEq

namespace FlatBuilder

def name : FlatBuilder → String
  | absence => "BooleanAbsenceFilterBuilder"
  | phrase => "PhraseMatchFilterBuilder"
  | queryString => "QueryStringFilterBuilder"
  | term => "TermFilterBuilder"

def isFalse : Value → Bool
  | .bool b => !b
  | _ => false

def isText : Value → Bool
  | .str _ => true
  | _ => false

def supports (b : FlatBuilder) (v : Value) (context : FilterContext) : Bool :=
  match b with
  | absence => context.field.any (·.treatsAbsenceAsFalse) && isFalse v
  | phrase => isText v && context.phrase
  | queryString => isText v
  | term => true

/-- The value is false, or the field is absent. -/
def falseOrAbsent (field : String) (v : Value) : Query :=
  .bool .should [.termOn field v, .not (.present field)]

def build (b : FlatBuilder) (field : String) (v : Value) (context : FilterContext) :
    Except Failure Query :=
  match b with
  | absence => .ok (falseOrAbsent field v)
  | phrase => v.written.map fun text => .queryString (Text.quotePhrase text) [field] none false
  | queryString =>
    v.written.map fun text => .queryString text [field] (some context.defaultOperator) false
  | term => (v.wire context.zoneKey).map (.termOn field)

/-- The order in which builders are asked. -/
def standard : List FlatBuilder :=
  [absence, phrase, queryString, term]

/-- The first builder that supports the value; the last one supports all. -/
def select (v : Value) (context : FilterContext) : FlatBuilder :=
  (standard.find? (·.supports v context)).getD term

end FlatBuilder

/-- What follows a path and a dot in a name, nothing if the name starts otherwise. -/
def nameAfter (path name : String) : String :=
  let start := path.toList ++ ['.']
  if start.isPrefixOf name.toList then String.ofList (name.toList.drop start.length) else ""

namespace FilterBuilder

def name : FilterBuilder → String
  | nested => "NestedFilterBuilder"
  | flat b => b.name

def literal (b : FilterBuilder) : String :=
  "<" ++ b.name ++ ">"

/-- The path of the nested field that a query has to be put into. -/
def scope? (context : FilterContext) : Option Field :=
  if context.nestedScope then none else context.field.filter (·.isNested)

def supports (b : FilterBuilder) (v : Value) (context : FilterContext) : Bool :=
  match b with
  | nested => (scope? context).isSome
  | flat b => b.supports v context

/-- Builds the query on the field of the nested objects that the name leads to. -/
def buildNested (scope : Field) (field : String) (v : Value) (context : FilterContext) :
    Except Failure Query :=
  let inner :=
    { context with nestedScope := true, field := scope.nestedField? (nameAfter scope.name field) }
  ((FlatBuilder.select v inner).build field v inner).map (.nested scope.name)

def build (b : FilterBuilder) (field : String) (v : Value) (context : FilterContext) :
    Except Failure Query :=
  match b with
  | flat b => b.build field v context
  | nested =>
    match context.field with
    | some scope => buildNested scope field v context
    | none => .error .missingPart

def standard : List FilterBuilder :=
  nested :: FlatBuilder.standard.map flat

/-- The first of some builders that supports the value. -/
def select (builders : List FilterBuilder) (v : Value) (context : FilterContext) :
    Except Failure FilterBuilder :=
  match builders.find? (·.supports v context) with
  | some b => .ok b
  | none => .error (.ofFault (.noBuilder v))

end FilterBuilder

namespace FilterContext

open Check

def toField : Value → Check (Option Field)
  | .null => valid none
  | v => (Field.ofDescription v).map some

def ofDescription (zones : ZoneDatabase) : Value → Check FilterContext
  | .dict entries =>
    FilterContext.mk <$> optional entries "field_config" none toField <*>
      optional entries "match_phrase" false Value.toBool <*>
      optional entries "nested_query" false Value.toBool <*>
      optional entries "default_operator" .and (Value.toOption Connective.words) <*>
      ZoneKey.mk zones <$> optional entries "time_zone" defaultZoneKey Value.toText
  | _ => problem .notModel

end FilterContext

end SearchExpr
