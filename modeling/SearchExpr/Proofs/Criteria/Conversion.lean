import SearchExpr.Criteria.Basic
import SearchExpr.Proofs.Outcome

/-! # Converting criteria

A filter becomes a condition on one field or the exclusion of some values. Criteria become the same
tree with and without their mark of negation, but for that mark.
-/

namespace SearchExpr.Criteria

open SearchExpr.Expr

variable {e : Expr} {key : String} {v : Value}

theorem choicesFor_eq_ok {word field : String} (h : choicesFor word field v = .ok e) :
    ∃ choices, e = isIn field choices := by
  unfold choicesFor at h
  split at h
  case h_1 => contradiction
  case h_2 values hvalues =>
    split at h
    case h_1 choices hchoices =>
      cases h
      exact ⟨choices, rfl⟩
    case h_2 => contradiction

theorem filterExpr_eq_ok (h : filterExpr key v = .ok e) :
    (∃ field comparison phrase, e = value field comparison v phrase) ∨
      ∃ field choices, e = isIn field choices ∨ e = mustNot (isIn field choices) := by
  unfold filterExpr at h
  generalize splitKey key = parts at h
  obtain ⟨field, lookup⟩ := parts
  cases lookup with
  | compare | phrase =>
    cases h
    exact Or.inl ⟨_, _, _, rfl⟩
  | oneOf =>
    obtain ⟨choices, rfl⟩ := choicesFor_eq_ok h
    exact Or.inr ⟨field, choices, Or.inl rfl⟩
  | noneOf =>
    obtain ⟨x, hx, rfl⟩ := map_eq_ok.mp h
    obtain ⟨choices, rfl⟩ := choicesFor_eq_ok hx
    exact Or.inr ⟨field, choices, Or.inr rfl⟩

theorem toExpr_filters (fs : List (String × Value)) (negated : Bool) :
    (filters fs negated).toExpr =
      (fs.mapM fun f => filterExpr f.1 f.2).map fun es => negateIf negated (conjunction es) := by
  have hbind : (filters fs negated).toExpr =
      (fs.mapM fun f => filterExpr f.1 f.2) >>= fun es =>
        .ok (negateIf negated (conjunction es)) := rfl
  rw [hbind]
  cases (fs.mapM fun f => filterExpr f.1 f.2 : Except Failure (List Expr)) <;> rfl

/-- What criteria ask for without their mark of negation. -/
def stated : Criteria → Except Failure Expr
  | filters fs _ => (fs.mapM fun f => filterExpr f.1 f.2).map conjunction
  | joined connective a b _ => do return .operation connective [← a.toExpr, ← b.toExpr]
  | foreign _ => .error .missingPart

theorem toExpr_eq (q : Criteria) : q.toExpr = q.stated.map (negateIf q.negated) := by
  cases q with
  | filters fs negated =>
    rw [toExpr_filters, stated]
    cases (fs.mapM fun f => filterExpr f.1 f.2 : Except Failure (List Expr)) <;> rfl
  | joined connective a b => rw [toExpr, stated]; cases a.toExpr <;> cases b.toExpr <;> rfl
  | foreign => rfl

theorem toExpr_negate (q : Criteria) : q.negate.toExpr = q.stated.map (negateIf (!q.negated)) := by
  rw [toExpr_eq]
  cases q <;> rfl

end SearchExpr.Criteria
