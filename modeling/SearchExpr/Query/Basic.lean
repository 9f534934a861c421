import SearchExpr.Expr.Basic
import SearchExpr.Text.Path

/-! # Queries

The queries of the search engine that expressions are compiled to, and their form in its query
language.
-/

namespace SearchExpr

inductive Clause where
  | must | should | mustNot
  deriving DecidableEq

inductive RangeKey where
  | gt | gte | lt | lte
  deriving DecidableEq

inductive Query where
  | matchAll
  | matchNone
  | bool (clause : Clause) (queries : List Query)
  | term (field : String) (value : Value)
  | terms (field : String) (values : List Value)
  | range (field : String) (bounds : List (RangeKey × Value))
  | wildcard (field pattern : String)
  | queryString (query : String) (fields : List String) (defaultOperator : Option Connective)
      (analyzeWildcard : Bool)
  | nested (path : String) (query : Query)
  | present (field : String)

def Clause.word : Clause → String
  | must => "must"
  | should => "should"
  | mustNot => "must_not"

def RangeKey.word : RangeKey → String
  | gt => "gt"
  | gte => "gte"
  | lt => "lt"
  | lte => "lte"

namespace Query

def not (q : Query) : Query :=
  bool .mustNot [q]

/-! ## Fields named by parameters -/

/-- Where a field is named by a parameter, two underscores stand for a dot, and the name that would
be a reserved word is written with an underscore after it. -/
def parameterName (field : String) : String :=
  let name := Text.dottedName field
  if name == "from_" then "from" else name

def termOn (field : String) (value : Value) : Query :=
  term (parameterName field) value

def termsOn (field : String) (values : List Value) : Query :=
  terms (parameterName field) values

def rangeOn (field : String) (bounds : List (RangeKey × Value)) : Query :=
  range (parameterName field) bounds

def wildcardOn (field pattern : String) : Query :=
  wildcard (parameterName field) pattern

/-! ## The query language -/

/-- A dictionary with one entry. -/
def single (key : String) (v : Value) : Value :=
  .dict [(.str key, v)]

def boundsBody (bounds : List (RangeKey × Value)) : Value :=
  .dict (bounds.map fun (key, v) => (.str key.word, v))

mutual

def body : Query → Value
  | matchAll => single "match_all" (.dict [])
  | matchNone => single "match_none" (.dict [])
  | bool clause queries => single "bool" (single clause.word (.list (bodies queries)))
  | term field value => single "term" (single field value)
  | terms field values => single "terms" (single field (.list values))
  | range field bounds => single "range" (single field (boundsBody bounds))
  | wildcard field pattern => single "wildcard" (single field (single "value" (.str pattern)))
  | queryString query fields defaultOperator analyzeWildcard =>
    single "query_string" <| .dict <|
      [(.str "query", .str query)] ++
      (if analyzeWildcard then [(.str "analyze_wildcard", .bool true)] else []) ++
      (match defaultOperator with
        | some operator => [(.str "default_operator", .str operator.word)]
        | none => []) ++
      [(.str "fields", .list (fields.map .str))]
  | nested path query =>
    single "nested" <| .dict
      [(.str "path", .str path), (.str "query", body query), (.str "score_mode", .str "none")]
  | present field => single "exists" (single "field" (.str field))

def bodies : List Query → List Value
  | [] => []
  | q :: qs => body q :: bodies qs

end

end Query

end SearchExpr
