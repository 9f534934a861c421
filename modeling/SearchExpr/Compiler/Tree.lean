import SearchExpr.Compiler.Leaf
import SearchExpr.Expr.Optimize

/-! # Compiling trees

An expression is compiled to a query, or to none when it does not restrict the search. Operands
without a query are dropped.
-/

namespace SearchExpr.Compiler

def sentinel : Connective → Query
  | .and => .matchAll
  | .or => .matchNone

def clause : Connective → Clause
  | .and => .must
  | .or => .should

/-- The query for the queries of the operands, of which some may be missing. -/
def combine (connective : Connective) (queries : List (Option Query)) : Option Query :=
  match queries.filterMap id with
  | [] => none
  | [q] => some q
  | qs => some (.bool (clause connective) qs)

mutual

/-- Compiles a tree as it is. An operation of empty operands only counts as one without any. -/
def compileTree (c : Compiler) (m : Mapping) (locale : Option String) :
    Expr → Except Failure (Option Query)
  | .empty => .ok none
  | .everything => .ok (some .matchAll)
  | .nothing => .ok (some .matchNone)
  | .operation connective operands =>
    if operands.all (·.isEmpty) then .ok (some (sentinel connective))
    else (compileEach c m locale operands).map (combine connective)
  | .mustNot operand => (compileTree c m locale operand).map fun q => q.map .not
  | .fulltext text => c.fulltext.build (.str text) Comparison.eq.word
  | .value field comparison v phrase =>
    if field = fulltextField then c.fulltext.build v comparison.word
    else (c.compileValue (m.target locale field) comparison v phrase).map some
  | .day field comparison d => (c.compileDay (m.target locale field) comparison d).map some
  | .isIn field choices => (c.compileChoices (m.target locale field) choices.toList).map some
  | .range field lower low upper high =>
    (c.compileRange (m.target locale field) lower low upper high).map some
  | .dayRange field first last =>
    (c.compileDayRange (m.target locale field) first last).map some

def compileEach (c : Compiler) (m : Mapping) (locale : Option String) :
    List Expr → Except Failure (List (Option Query))
  | [] => .ok []
  | e :: es => do
    let q ← compileTree c m locale e
    let qs ← compileEach c m locale es
    return q :: qs

end

/-- The tree that is compiled for an expression. -/
def tree (c : Compiler) (e : Expr) : Except Failure Expr :=
  if !c.optimizes then .ok e
  else
    match e.optimize? with
    | some e => .ok e
    | none => .error .beyondCalendar

def compile (c : Compiler) (m : Mapping) (locale : Option String) (e : Expr) :
    Except Failure (Option Query) := do
  c.compileTree m locale (← c.tree e)

end SearchExpr.Compiler

namespace SearchExpr

/-- The body of a search request; without a restriction it asks for all documents. -/
def searchBody (query : Option Query) : Value :=
  Query.single "query" (query.getD .matchAll).body

end SearchExpr
