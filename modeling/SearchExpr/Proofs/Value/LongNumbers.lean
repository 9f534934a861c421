import SearchExpr.Proofs.Value.Equality
import SearchExpr.Value.Literal

/-! # Values without a text

A value has no literal exactly if a whole number with too many digits is in it, at any depth. Then
it has no plain text either.
-/

namespace SearchExpr.Value

variable {v : Value} {xs : List Value} {entries : List (Value × Value)} {n : Int}

end SearchExpr.Value
