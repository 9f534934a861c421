import SearchExpr.Proofs.Expr.NormalForm

/-! # Optimizing in any order

A normal tree is optimized to itself, so a part of a tree can be optimized before the whole: the
outcome is the same, also where there is none.
-/

namespace SearchExpr.Expr

variable {c : Connective} {es : List Expr} {e s s' t t' : Expr} {L : Expr → Prop}

/-! ## Normal trees -/

theorem simplify?_of_isCore (hlength : 2 ≤ es.length) (hmerged : Merged c es)
    (h : ∀ x ∈ es, IsCore L x) : simplify? c es = some (operation c es) := by
  have hconstant : ∀ x ∈ es, x.isConstant = false := fun x hx => (h x hx).not_isConstant
  rw [simplify?_of_noConstant hconstant, mergeAll?_eq_self hmerged, Option.map_some,
    settle_of_noConstant hconstant]
  match es with
  | _ :: _ :: _ => rfl

theorem optimize?_of_isCore (h : IsCore L e) : optimize? e = some e := by
  induction h with
  | leaf he => exact optimize?_base (Or.inl he)
  | @operation c es hlength hmerged h ih =>
    have hself : List.Forall₂ (fun x x' => optimize? x = some x') es es :=
      List.forall₂_same.mpr ih
    exact optimize?_operation_eq_some.mpr ⟨es, hself, simplify?_of_isCore hlength hmerged h⟩
  | mustNot h ih => exact optimize?_mustNot_eq_some.mpr ⟨_, ih, negate_eq h.not_isConstant⟩

theorem optimize?_of_isNormal (h : IsNormal L e) : optimize? e = some e := by
  rcases h with h | h
  · exact optimize?_base (Or.inr h)
  · exact optimize?_of_isCore h

theorem optimize?_idem (h : optimize? s = some s') : optimize? s' = some s' :=
  optimize?_of_isNormal (isNormal_optimize? leafClosed_true (fun _ _ _ => trivial) h)

/-! ## Parts -/

/-- The second tree is the first one with the second part in the place of the first part. -/
inductive Replaced (s s' : Expr) : Expr → Expr → Prop where
  | whole : Replaced s s' s s'
  | operand {t t' : Expr} (c : Connective) (before after : List Expr) (h : Replaced s s' t t') :
    Replaced s s' (operation c (before ++ t :: after)) (operation c (before ++ t' :: after))
  | negated {t t' : Expr} (h : Replaced s s' t t') : Replaced s s' (mustNot t) (mustNot t')

theorem optimizeAll?_congr (h : optimize? t' = optimize? t) (before after : List Expr) :
    optimizeAll? (before ++ t' :: after) = optimizeAll? (before ++ t :: after) := by
  induction before with
  | nil => simp only [List.nil_append, optimizeAll?, h]
  | cons x before ih => simp only [List.cons_append, optimizeAll?, ih]

theorem Replaced.optimize?_eq (h : Replaced s s' t t') (hs : optimize? s' = optimize? s) :
    optimize? t' = optimize? t := by
  induction h with
  | whole => exact hs
  | operand c before after _ ih =>
    simp only [optimize?, optimizeAll?_congr ih before after]
  | negated _ ih => simp only [optimize?, ih]

/-- Optimizing a part of a tree first, or a whole tree again, makes no difference. -/
theorem optimize?_confluent (h : optimize? s = some s') :
    optimize? s' = some s' ∧ ∀ t t', Replaced s s' t t' → optimize? t' = optimize? t := by
  refine ⟨optimize?_idem h, fun t t' hreplaced => ?_⟩
  exact hreplaced.optimize?_eq ((optimize?_idem h).trans h.symm)

/-- The merged choices of a part meet other choices around it. -/
theorem optimize?_confluent_of_choices :
    optimize? (operation .or [isIn "tag" ⟨.str "a", []⟩, nothing, isIn "tag" ⟨.str "b", []⟩]) =
      some (isIn "tag" ⟨.str "a", [.str "b"]⟩) ∧
    optimize? (operation .and [isIn "tag" ⟨.str "b", []⟩, isIn "tag" ⟨.str "a", [.str "b"]⟩]) =
      optimize? (operation .and [isIn "tag" ⟨.str "b", []⟩,
        operation .or [isIn "tag" ⟨.str "a", []⟩, nothing, isIn "tag" ⟨.str "b", []⟩]]) := by
  have h : optimize? (operation .or [isIn "tag" ⟨.str "a", []⟩, nothing,
      isIn "tag" ⟨.str "b", []⟩]) = some (isIn "tag" ⟨.str "a", [.str "b"]⟩) := by cbv
  exact ⟨h, (optimize?_confluent h).2 _ _ (.operand .and [_] [] .whole)⟩

end SearchExpr.Expr
