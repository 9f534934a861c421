import SearchExpr.Criteria.Key
import SearchExpr.Expr.Description
import SearchExpr.Expr.Literal

/-! # Criteria

Criteria are written with filter keys and combined with connectives; what they ask for is an
expression. An expression itself cannot take part in criteria, which shows when they are converted.
-/

namespace SearchExpr

inductive Criteria where
  /-- Several filters are all asked for. -/
  | filters (filters : List (String × Value)) (negated : Bool)
  | joined (connective : Connective) (left right : Criteria) (negated : Bool)
  | foreign (e : Expr)

namespace Criteria

def negated : Criteria → Bool
  | filters _ negated | joined _ _ _ negated => negated
  | foreign _ => false

def and (a b : Criteria) : Criteria :=
  joined .and a b false

def or (a b : Criteria) : Criteria :=
  joined .or a b false

/-- Negation turns over the mark of the criteria as a whole. -/
def negate : Criteria → Criteria
  | filters fs negated => filters fs !negated
  | joined connective a b negated => joined connective a b !negated
  | foreign e => foreign e

/-- The condition of a set of values, from the word for it and the values. -/
def choicesFor (word field : String) (v : Value) : Except Failure Expr :=
  match v.elements? with
  | none => .error (.fault (.valuesExpected word field))
  | some values =>
    match Choices.ofList? values with
    | some choices => .ok (.isIn field choices)
    | none => .error (.fault .noValues)

def filterExpr (key : String) (v : Value) : Except Failure Expr :=
  let (field, lookup) := splitKey key
  match lookup with
  | .compare comparison => .ok (.value field comparison v false)
  | .phrase => .ok (.value field .eq v true)
  | .oneOf => choicesFor "in" field v
  | .noneOf => (choicesFor "nin" field v).map .mustNot

/-- No conditions restrict nothing, one stands for itself. -/
def conjunction : List Expr → Expr
  | [] => .empty
  | [e] => e
  | es => .operation .and es

def negateIf (negated : Bool) (e : Expr) : Expr :=
  if negated then .mustNot e else e

def toExpr : Criteria → Except Failure Expr
  | filters fs negated => do
    let es ← fs.mapM fun (key, v) => filterExpr key v
    return negateIf negated (conjunction es)
  | joined connective a b negated => do
    let a ← toExpr a
    let b ← toExpr b
    return negateIf negated (.operation connective [a, b])
  | foreign _ => .error .missingPart

/-- Filters given by name, of which `negate` is the mark of negation if that is not given too. -/
def ofFilters (negate : Option Bool) (entries : List (String × Value)) :
    Except Failure Criteria :=
  let filters := entries.filter (·.1 != "negate")
  match negate, entries.lookup "negate" with
  | some _, some _ => .error .wrongType
  | some negated, none => .ok (.filters filters negated)
  | none, some v => .ok (.filters filters v.isGiven)
  | none, none => .ok (.filters filters false)

def text (q : Criteria) : Except Failure String := do
  (← q.toExpr).description.written

def literal (q : Criteria) : Except Failure String := do
  match (← q.toExpr).literal? with
  | some literal => return "<Q: " ++ literal ++ ">"
  | none => throw .tooManyDigits

end Criteria

/-- What a compiler can be asked to compile. -/
inductive Source where
  | expr (e : Expr)
  | criteria (q : Criteria)
  | description (v : Value)

def Source.toExpr : Source → Except Failure Expr
  | expr e => .ok e
  | criteria q => q.toExpr
  | description (.dict entries) => (Expr.ofDescription (.dict entries)).toExcept
  | description v => .error (.notAnExpression v.kind)

/-! ## Operators -/

/-- A connective of operands some of which may be criteria, which are no expressions. -/
def Expr.join (connective : Connective) (operands : List (Except Failure Expr)) :
    Except Failure Expr :=
  (operands.mapM id).map (.operation connective)

end SearchExpr
