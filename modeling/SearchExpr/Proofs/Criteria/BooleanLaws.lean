import SearchExpr.Proofs.Criteria.Conversion
import SearchExpr.Proofs.Expr.CalendarLimits
import SearchExpr.Proofs.Expr.Meaning

/-! # Criteria as a Boolean algebra

Criteria are combined by building trees, and negated by turning over a mark. What they ask for has
the truth value that the connectives and the negation of truth values give; criteria without any
filter have none and are left out where others are combined.
-/

namespace SearchExpr

namespace Connective

end Connective

namespace Expr

variable {c : Connective} {x y : Expr} {leaf : Expr → Bool}

theorem truth_negateIf (negated : Bool) (e : Expr) :
    truth leaf (Criteria.negateIf negated e) = (truth leaf e).map (negated ^^ ·) := by
  cases negated <;> cases h : truth leaf e <;> simp [Criteria.negateIf, truth, h]

end Expr

namespace Criteria

open SearchExpr.Expr

variable {q a b : Criteria} {e x y : Expr} {leaf : Expr → Bool}

/-- The truth value of what criteria ask for. -/
def truth (leaf : Expr → Bool) (q : Criteria) : Except Failure (Option Bool) :=
  q.toExpr.map (Expr.truth leaf)

theorem truth_eq (leaf : Expr → Bool) (q : Criteria) :
    q.truth leaf = q.stated.map fun e => (e.truth leaf).map (q.negated ^^ ·) := by
  rw [truth, toExpr_eq]
  cases q.stated with
  | error failure => rfl
  | ok e => exact congrArg Except.ok (Expr.truth_negateIf q.negated e)

theorem truth_negate (leaf : Expr → Bool) (q : Criteria) :
    q.negate.truth leaf = (q.truth leaf).map (·.map (!·)) := by
  rw [truth, toExpr_negate, truth_eq]
  cases q.stated with
  | error failure => rfl
  | ok e =>
    simp only [Except.map, truth_negateIf, Option.map_map, Function.comp_def, Bool.not_xor]

end Criteria

end SearchExpr
