import SearchExpr.Proofs.Expr.Confluence
import SearchExpr.Proofs.Expr.Insertion

/-! # Interchangeable parts

A relation of trees that are put together alike, and of which the rules for operations tell apart
none but equal ones, is kept by optimizing: the outcomes are related, or there are none.
-/

namespace SearchExpr.Expr

variable {c : Connective} {es out : List Expr} {e x y s s' t t' : Expr} {R : Expr → Expr → Prop}

/-- A condition that no rule for operations looks at. -/
structure IsPlain (e : Expr) : Prop where
  constant : e.isConstant = false
  choices : choices? e = none
  exclusions : exclusions? e = none
  values : valueBounds.bound? e = none
  days : dayBounds.bound? e = none

theorem IsPlain.isEmpty (h : IsPlain e) : e.isEmpty = false := by
  have hconstant := h.constant
  cases e <;> simp_all [isConstant, Expr.isEmpty]

theorem IsPlain.operation (c : Connective) (es : List Expr) : IsPlain (operation c es) :=
  ⟨rfl, rfl, rfl, rfl, rfl⟩

theorem IsPlain.mustNot (h : IsPlain e) : IsPlain (mustNot e) where
  constant := rfl
  choices := rfl
  exclusions := by
    have hchoices := h.choices
    cases e <;> simp_all [exclusions?, choices?]
  values := rfl
  days := rfl

/-- Trees with related parts are related, and those that rules look at only to themselves. -/
structure Interchange (R : Expr → Expr → Prop) : Prop where
  refl : ∀ e, R e e
  operation : ∀ {c es out}, List.Forall₂ R es out → R (operation c es) (operation c out)
  mustNot : ∀ {x y}, R x y → R (mustNot x) (mustNot y)
  eq_or_plain : ∀ {x y}, R x y → x = y ∨ IsPlain x ∧ IsPlain y

namespace Interchange

theorem forall₂_refl (hR : Interchange R) (es : List Expr) : List.Forall₂ R es es :=
  List.forall₂_same.mpr fun e _ => hR.refl e

/-- What is read off no plain condition is read alike off related trees. -/
theorem apply_eq {β : Type} {g : Expr → β} {b : β} (hR : Interchange R)
    (hg : ∀ e, IsPlain e → g e = b) (h : R x y) : g y = g x := by
  rcases hR.eq_or_plain h with rfl | ⟨hx, hy⟩
  · rfl
  · rw [hg x hx, hg y hy]

theorem filterMap_eq {β : Type} {g : Expr → Option β} (hR : Interchange R)
    (hg : ∀ e, IsPlain e → g e = none) (h : List.Forall₂ R es out) :
    out.filterMap g = es.filterMap g := by
  induction h with
  | nil => rfl
  | cons hxy _ ih => rw [List.filterMap_cons, List.filterMap_cons, hR.apply_eq hg hxy, ih]

theorem any_eq {p : Expr → Bool} {b : Bool} (hR : Interchange R)
    (hp : ∀ e, IsPlain e → p e = b) (h : List.Forall₂ R es out) : out.any p = es.any p := by
  induction h with
  | nil => rfl
  | cons hxy _ ih => rw [List.any_cons, List.any_cons, hR.apply_eq hp hxy, ih]

/-! ## Merging -/

theorem forall₂_mergeChoicesFrom {part? : Expr → Option (String × Choices)}
    {merge : String → Choices → List Choices → Expr} {done : List String} (hR : Interchange R)
    (hpart : ∀ e, IsPlain e → part? e = none) (h : List.Forall₂ R es out) :
    List.Forall₂ R (mergeChoicesFrom part? merge done es)
      (mergeChoicesFrom part? merge done out) := by
  induction h generalizing done with
  | nil => exact .nil
  | @cons x y es out hxy hrest ih =>
    have hfield (field : String) :
        out.filterMap (onField part? field) = es.filterMap (onField part? field) :=
      hR.filterMap_eq (fun e he => by rw [onField, hpart e he]) hrest
    rw [mergeChoicesFrom, mergeChoicesFrom]
    rcases hR.eq_or_plain hxy with rfl | ⟨hx, hy⟩
    · cases part? x with
      | none => exact .cons hxy ih
      | some p =>
        simp only [hfield]
        split
        · exact ih
        · exact .cons (hR.refl _) ih
    · rw [hpart x hx, hpart y hy]
      exact .cons hxy ih

variable {α : Type} {form : BoundForm α} {before before' : List Expr}

theorem sameBounds (hR : Interchange R) (hplain : ∀ e, IsPlain e → form.bound? e = none)
    (h : List.Forall₂ R es out) : form.SameBounds es out := fun field =>
  ⟨hR.filterMap_eq (fun e he => by rw [BoundForm.lowerOn?, hplain e he]) h,
    hR.filterMap_eq (fun e he => by rw [BoundForm.upperOn?, hplain e he]) h⟩

theorem outcome?_eq (hR : Interchange R) (hplain : ∀ e, IsPlain e → form.bound? e = none)
    (hbefore : form.SameBounds before before') (hxy : R x y) (hafter : List.Forall₂ R es out) :
    form.outcome? before' y out = form.outcome? before x es := by
  rcases hR.eq_or_plain hxy with rfl | ⟨hx, hy⟩
  · exact BoundForm.outcome?_congr hbefore (hR.sameBounds hplain hafter)
  · rw [BoundForm.outcome?_of_none (hplain x hx), BoundForm.outcome?_of_none (hplain y hy)]

theorem forall₂_apply (hR : Interchange R) (hxy : R x y) (o : BoundForm.Outcome) :
    List.Forall₂ R (o.apply x) (o.apply y) := by
  cases o with
  | kept => exact .cons hxy .nil
  | joined e => exact hR.forall₂_refl [e]
  | dropped => exact .nil

theorem rel_mergeFrom? (hR : Interchange R) (hplain : ∀ e, IsPlain e → form.bound? e = none)
    (hbefore : form.SameBounds before before') (h : List.Forall₂ R es out) :
    Option.Rel (List.Forall₂ R) (form.mergeFrom? before es) (form.mergeFrom? before' out) := by
  induction h generalizing before before' with
  | nil => exact .some .nil
  | @cons x y es out hxy hrest ih =>
    -- The operands may differ, but their bounds do not, and no more of them is looked at later on.
    have hnext : form.SameBounds (before ++ [x]) (before' ++ [y]) := by
      intro field
      have hbounds := hR.sameBounds hplain (List.Forall₂.cons hxy .nil) field
      simp only [List.filterMap_append, (hbefore field).1, (hbefore field).2, hbounds.1, hbounds.2,
        and_self]
    rw [BoundForm.mergeFrom?, BoundForm.mergeFrom?, hR.outcome?_eq hplain hbefore hxy hrest]
    cases form.outcome? before x es with
    | none => exact .none
    | some o =>
      rw [Option.bind_eq_bind, Option.bind_some, Option.bind_eq_bind, Option.bind_some]
      exact rel_bind (ih hnext) fun _ _ h => .some (List.rel_append (hR.forall₂_apply hxy o) h)

theorem rel_merge? (hR : Interchange R) (hplain : ∀ e, IsPlain e → form.bound? e = none)
    (h : List.Forall₂ R es out) :
    Option.Rel (List.Forall₂ R) (form.merge? es) (form.merge? out) :=
  hR.rel_mergeFrom? hplain (fun _ => ⟨rfl, rfl⟩) h

theorem rel_mergeAll? (hR : Interchange R) (c : Connective) (h : List.Forall₂ R es out) :
    Option.Rel (List.Forall₂ R) (mergeAll? c es) (mergeAll? c out) := by
  have hsets : List.Forall₂ R (mergeExclusions c (mergeChoices c es))
      (mergeExclusions c (mergeChoices c out)) := by
    rw [mergeChoices_eq, mergeChoices_eq, mergeExclusions_eq, mergeExclusions_eq]
    exact hR.forall₂_mergeChoicesFrom (fun _ he => he.exclusions)
      (hR.forall₂_mergeChoicesFrom (fun _ he => he.choices) h)
  cases c with
  | or => exact .some hsets
  | and =>
    exact rel_bind (hR.rel_merge? (fun _ he => he.values) hsets) fun _ _ h =>
      hR.rel_merge? (fun _ he => he.days) h

/-! ## Simplifying and optimizing -/

theorem forall₂_dropNeutral (hR : Interchange R) (c : Connective) (h : List.Forall₂ R es out) :
    List.Forall₂ R (c.dropNeutral es) (c.dropNeutral out) := by
  have hplain (e : Expr) (he : IsPlain e) : c.isNeutral e = false := by
    have hconstant := he.constant
    cases c <;> cases e <;> simp_all [isConstant, Connective.isNeutral]
  refine List.rel_filter (fun x y hxy => ?_) h
  simp only [hR.apply_eq hplain hxy]

theorem any_isAbsorbing (hR : Interchange R) (c : Connective) (h : List.Forall₂ R es out) :
    out.any c.isAbsorbing = es.any c.isAbsorbing := by
  refine hR.any_eq (b := false) (fun e he => ?_) h
  have hconstant := he.constant
  cases c <;> cases e <;> simp_all [isConstant, Connective.isAbsorbing]

theorem collapse (hR : Interchange R) (c : Connective) (h : List.Forall₂ R es out) :
    R (collapse c es) (collapse c out) := by
  match h with
  | .nil => exact hR.refl _
  | .cons hxy .nil => exact hxy
  | .cons hxy (.cons hxy' h) => exact hR.operation (.cons hxy (.cons hxy' h))

theorem settle (hR : Interchange R) (c : Connective) (h : List.Forall₂ R es out) :
    R (settle c es) (settle c out) := by
  rw [Expr.settle, Expr.settle, hR.any_isAbsorbing c h]
  split
  · exact hR.refl _
  · exact hR.collapse c (hR.forall₂_dropNeutral c h)

theorem rel_simplify? (hR : Interchange R) (c : Connective) (h : List.Forall₂ R es out) :
    Option.Rel R (simplify? c es) (simplify? c out) := by
  have hany := hR.any_isAbsorbing c h
  cases hes : es.any c.isAbsorbing with
  | true =>
    rw [simplify?_of_absorbing hes, simplify?_of_absorbing (hany.trans hes)]
    exact .some (hR.refl _)
  | false =>
    rw [simplify?_of_not_absorbing hes, simplify?_of_not_absorbing (hany.trans hes)]
    exact rel_map (hR.rel_mergeAll? c (hR.forall₂_dropNeutral c h)) fun _ _ h => hR.settle c h

theorem negate (hR : Interchange R) (h : R x y) : R (negate x) (negate y) := by
  rcases hR.eq_or_plain h with rfl | ⟨hx, hy⟩
  · exact hR.refl _
  · rw [negate_eq hx.constant, negate_eq hy.constant]
    exact hR.mustNot h

theorem of_replaced (hR : Interchange R) (hs : R s s') (h : Replaced s s' t t') : R t t' := by
  induction h with
  | whole => exact hs
  | operand c before after _ ih =>
    exact hR.operation (List.rel_append (hR.forall₂_refl before) (.cons ih (hR.forall₂_refl after)))
  | negated _ ih => exact hR.mustNot ih

theorem rel_refl (hR : Interchange R) (o : Option Expr) : Option.Rel R o o := by
  cases o with
  | none => exact .none
  | some e => exact .some (hR.refl e)

theorem rel_optimizeAll?
    (h : List.Forall₂ (fun x y => Option.Rel R (optimize? x) (optimize? y)) es out) :
    Option.Rel (List.Forall₂ R) (optimizeAll? es) (optimizeAll? out) := by
  induction h with
  | nil => exact .some .nil
  | cons hxy _ ih =>
    rw [optimizeAll?, optimizeAll?]
    exact rel_bind hxy fun _ _ hxy => rel_bind ih fun _ _ hrest => .some (.cons hxy hrest)

/-- Putting a related part in the place of a part leads to a related outcome. -/
theorem rel_optimize? (hR : Interchange R) (hs : Option.Rel R (optimize? s) (optimize? s'))
    (h : Replaced s s' t t') : Option.Rel R (optimize? t) (optimize? t') := by
  induction h with
  | whole => exact hs
  | operand c before after _ ih =>
    have hself (es : List Expr) :
        List.Forall₂ (fun x y => Option.Rel R (optimize? x) (optimize? y)) es es :=
      List.forall₂_same.mpr fun x _ => hR.rel_refl _
    have hoperands := rel_optimizeAll? (List.rel_append (hself before) (.cons ih (hself after)))
    rw [optimize?, optimize?]
    exact rel_bind hoperands fun _ _ hout => hR.rel_simplify? c hout
  | negated _ ih =>
    rw [optimize?, optimize?]
    exact rel_map ih fun _ _ hxy => hR.negate hxy

end Interchange

end SearchExpr.Expr
