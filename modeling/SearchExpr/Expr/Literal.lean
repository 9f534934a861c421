import SearchExpr.Expr.Basic
import SearchExpr.Value.Literal

/-! # Literals of expressions

The form in which a message shows an expression: each node with all its parts.
-/

namespace SearchExpr.Expr

def typeName : Expr → String
  | value .. => "ValueExpression"
  | day .. => "DayExpression"
  | isIn .. => "InExpression"
  | range .. => "RangeValueExpression"
  | dayRange .. => "DayRangeExpression"
  | operation .. => "OperationExpression"
  | mustNot _ => "MustNotExpression"
  | empty => "EmptyExpression"
  | everything => "TrueExpression"
  | nothing => "FalseExpression"
  | fulltext _ => "FulltextExpression"

/-- A name and its arguments, each with its own name. -/
def callLiteral (name : String) (arguments : List (String × String)) : String :=
  name ++ "(" ++ commaSeparated (arguments.map fun (a, v) => a ++ "=" ++ v) ++ ")"

def boundLiteral? (comparison : Comparison) (value : Value) : Option String :=
  value.literal?.map fun v =>
    callLiteral "RangeBound" [("comparison", Text.quoted comparison.word), ("value", v)]

/-- The literal of a node from the arguments after its kind. -/
def literalWith (e : Expr) (arguments : List (String × String)) : String :=
  callLiteral e.typeName (("kind", Text.quoted e.kindWord) :: arguments)

mutual

def arguments? : Expr → Option (List (String × String))
  | value field comparison v phrase => do
    let v ← v.literal?
    return [ ("field_name", Text.quoted field), ("comparison", Text.quoted comparison.word),
      ("value", v), ("match_phrase", Value.boolText phrase) ]
  | day field comparison d =>
    some [ ("field_name", Text.quoted field), ("comparison", Text.quoted comparison.word),
      ("value", d.literal) ]
  | isIn field choices => do
    let values ← (Value.tuple choices.toList).literal?
    return [("field_name", Text.quoted field), ("values", values)]
  | range field lower low upper high => do
    let low ← boundLiteral? lower.toComparison low
    let high ← boundLiteral? upper.toComparison high
    return [("field_name", Text.quoted field), ("lower_bound", low), ("upper_bound", high)]
  | dayRange field first last =>
    some [ ("field_name", Text.quoted field), ("from_day", first.literal),
      ("until_day", last.literal) ]
  | operation connective operands => do
    let operands ← literals? operands
    return [ ("operator", Text.quoted connective.word), ("operands", Value.tupleText operands) ]
  | mustNot operand => do
    let parts ← arguments? operand
    return [("expression", operand.literalWith parts)]
  | empty | everything | nothing => some []
  | fulltext text => some [("text", Text.quoted text)]

def literals? : List Expr → Option (List String)
  | [] => some []
  | e :: es => do
    let parts ← arguments? e
    let rest ← literals? es
    return e.literalWith parts :: rest

end

/-- The literal of an expression, unless a number in it has too many digits. -/
def literal? (e : Expr) : Option String :=
  e.arguments?.map e.literalWith

end SearchExpr.Expr
