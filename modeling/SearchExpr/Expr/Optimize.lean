import SearchExpr.Expr.Simplify

/-! # Optimizing expressions

Every operation and negation of a tree is simplified, the operands before the operation. The result
is absent only when joining two day bounds would leave the calendar.
-/

namespace SearchExpr.Expr

mutual

def optimize? : Expr → Option Expr
  | operation c operands => do simplify? c (← optimizeAll? operands)
  | mustNot operand => (optimize? operand).map negate
  | e => some e

def optimizeAll? : List Expr → Option (List Expr)
  | [] => some []
  | e :: es => do
    let e ← optimize? e
    let es ← optimizeAll? es
    return e :: es

end

end SearchExpr.Expr
