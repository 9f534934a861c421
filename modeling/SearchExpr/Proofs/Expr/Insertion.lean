import SearchExpr.Proofs.Expr.Simplifying
import SearchExpr.Proofs.Expr.Trees

/-! # Inserting an operand

An operand that no merge looks at is still there after the others have been merged, and these come
to the same with it as without it. So an operation that is not decided is simplified to the same
operands with and without the inserted one.
-/

namespace SearchExpr.Expr

variable {c : Connective} {es out rest : List Expr} {e x z : Expr}

/-- The second list is the first one with one more element at some place. -/
inductive Inserted (z : Expr) : List Expr → List Expr → Prop where
  | here {es : List Expr} : Inserted z es (z :: es)
  | there {x : Expr} {es out : List Expr} (h : Inserted z es out) : Inserted z (x :: es) (x :: out)

/-- A leaf that no merge looks at. -/
structure IsUnmerged (z : Expr) : Prop where
  leaf : z.isLeaf = true
  choices : choices? z = none
  exclusions : exclusions? z = none
  values : valueBounds.bound? z = none
  days : dayBounds.bound? z = none

namespace Inserted

theorem append_left (h : Inserted z es out) (before : List Expr) :
    Inserted z (before ++ es) (before ++ out) := by
  induction before with
  | nil => exact h
  | cons x before ih => exact .there ih

theorem of_append (before after : List Expr) :
    Inserted z (before ++ after) (before ++ z :: after) :=
  append_left .here before

theorem mem_iff (h : Inserted z es out) : x ∈ out ↔ x = z ∨ x ∈ es := by
  induction h with
  | here => exact List.mem_cons
  | there _ ih => rw [List.mem_cons, List.mem_cons, ih, or_left_comm]

theorem filterMap_eq {β : Type} {g : Expr → Option β} (hz : g z = none) (h : Inserted z es out) :
    out.filterMap g = es.filterMap g := by
  induction h with
  | here => rw [List.filterMap_cons, hz]
  | there _ ih => rw [List.filterMap_cons, List.filterMap_cons, ih]

theorem any_eq {p : Expr → Bool} (hz : p z = false) (h : Inserted z es out) :
    out.any p = es.any p := by
  induction h with
  | here => rw [List.any_cons, hz, Bool.false_or]
  | there _ ih => rw [List.any_cons, List.any_cons, ih]

theorem filter {p : Expr → Bool} (hz : p z = true) (h : Inserted z es out) :
    Inserted z (es.filter p) (out.filter p) := by
  induction h with
  | here =>
    rw [List.filter_cons_of_pos hz]
    exact .here
  | @there x es out _ ih =>
    rw [List.filter_cons, List.filter_cons]
    split
    · exact .there ih
    · exact ih

theorem exists_forall₂ {r : Expr → Expr → Prop} (hz : r z z) (h : Inserted z es out)
    (hes : List.Forall₂ r es rest) : ∃ rest', List.Forall₂ r out rest' ∧ Inserted z rest rest' := by
  induction h generalizing rest with
  | here => exact ⟨z :: rest, .cons hz hes, .here⟩
  | there _ ih =>
    cases hes with
    | cons hx hes =>
      obtain ⟨rest', hrest', hinserted⟩ := ih hes
      exact ⟨_, .cons hx hrest', .there hinserted⟩

/-! ## Merging -/

theorem mergeChoicesFrom {part? : Expr → Option (String × Choices)}
    {merge : String → Choices → List Choices → Expr} {done : List String} (hz : part? z = none)
    (h : Inserted z es out) :
    Inserted z (mergeChoicesFrom part? merge done es) (mergeChoicesFrom part? merge done out) := by
  induction h generalizing done with
  | here =>
    rw [Expr.mergeChoicesFrom, hz]
    exact .here
  | @there x es out h ih =>
    have hfield (field : String) :
        out.filterMap (onField part? field) = es.filterMap (onField part? field) :=
      h.filterMap_eq (by rw [onField, hz])
    rw [Expr.mergeChoicesFrom, Expr.mergeChoicesFrom]
    cases part? x with
    | none => exact .there ih
    | some p =>
      simp only [hfield]
      split
      · exact ih
      · exact .there ih

end Inserted

namespace BoundForm

variable {α : Type} {form : BoundForm α} {before before' after after' : List Expr}

/-- Two lists have the same bounds on every field. -/
def SameBounds (form : BoundForm α) (es out : List Expr) : Prop :=
  ∀ field, out.filterMap (form.lowerOn? field) = es.filterMap (form.lowerOn? field) ∧
    out.filterMap (form.upperOn? field) = es.filterMap (form.upperOn? field)

theorem SameBounds.append_right (h : form.SameBounds es out) (after : List Expr) :
    form.SameBounds (es ++ after) (out ++ after) := by
  intro field
  simp only [List.filterMap_append, (h field).1, (h field).2, and_self]

theorem sameBounds_of_inserted (hz : form.bound? z = none) (h : Inserted z es out) :
    form.SameBounds es out :=
  fun field => ⟨h.filterMap_eq (by rw [lowerOn?, hz]), h.filterMap_eq (by rw [upperOn?, hz])⟩

/-- What becomes of an operand depends on the bounds before and after it only. -/
theorem outcome?_congr (hbefore : form.SameBounds before before')
    (hafter : form.SameBounds after after') :
    form.outcome? before' x after' = form.outcome? before x after := by
  unfold outcome?
  cases form.bound? x with
  | none => rfl
  | some b =>
    cases b with
    | lower field lower low => simp only [(hbefore field).1, (hbefore field).2, (hafter field).2]
    | upper field upper high => simp only [(hbefore field).1, (hbefore field).2, (hafter field).1]

theorem mergeFrom?_congr (h : form.SameBounds before before') (es : List Expr) :
    form.mergeFrom? before' es = form.mergeFrom? before es := by
  induction es generalizing before before' with
  | nil => rfl
  | cons e es ih =>
    rw [mergeFrom?, mergeFrom?, outcome?_congr h fun _ => ⟨rfl, rfl⟩, ih (h.append_right [e])]

theorem exists_mergeFrom?_of_inserted (hz : form.bound? z = none) (h : Inserted z es out)
    (hes : form.mergeFrom? before es = some rest) :
    ∃ rest', form.mergeFrom? before out = some rest' ∧ Inserted z rest rest' := by
  induction h generalizing before rest with
  | @here es =>
    have hbefore : form.SameBounds before (before ++ [z]) :=
      sameBounds_of_inserted hz (by simpa using Inserted.of_append (z := z) before [])
    refine ⟨z :: rest, ?_, .here⟩
    exact mergeFrom?_cons.mpr ⟨.kept, rest, outcome?_of_none hz,
      (mergeFrom?_congr hbefore es).trans hes, rfl⟩
  | @there x es out h ih =>
    obtain ⟨o, rest, ho, hrest, rfl⟩ := mergeFrom?_cons.mp hes
    obtain ⟨rest', hrest', hinserted⟩ := ih hrest
    refine ⟨o.apply x ++ rest', ?_, hinserted.append_left _⟩
    refine mergeFrom?_cons.mpr ⟨o, rest', ?_, hrest', rfl⟩
    rw [outcome?_congr (fun _ => ⟨rfl, rfl⟩) (sameBounds_of_inserted hz h), ho]

end BoundForm

namespace Inserted

theorem exists_mergeAll? (hz : IsUnmerged z) (h : Inserted z es out)
    (hes : mergeAll? c es = some rest) :
    ∃ rest', mergeAll? c out = some rest' ∧ Inserted z rest rest' := by
  have hsets : Inserted z (mergeExclusions c (mergeChoices c es))
      (mergeExclusions c (mergeChoices c out)) := by
    rw [mergeChoices_eq, mergeChoices_eq, mergeExclusions_eq, mergeExclusions_eq]
    exact (h.mergeChoicesFrom hz.choices).mergeChoicesFrom hz.exclusions
  cases c with
  | or => exact ⟨_, rfl, mergeAll?_or_eq_some.mp hes ▸ hsets⟩
  | and =>
    obtain ⟨mid, hmid, hrest⟩ := mergeAll?_and_eq_some.mp hes
    obtain ⟨mid', hmid', hinserted⟩ :=
      BoundForm.exists_mergeFrom?_of_inserted hz.values hsets hmid
    obtain ⟨rest', hrest', hinserted⟩ :=
      BoundForm.exists_mergeFrom?_of_inserted hz.days hinserted hrest
    exact ⟨rest', mergeAll?_and_eq_some.mpr ⟨mid', hmid', hrest'⟩, hinserted⟩

/-! ## Simplifying -/

theorem dropNeutral (hz : z.isLeaf = true) (h : Inserted z es out) :
    Inserted z (c.dropNeutral es) (c.dropNeutral out) := by
  refine h.filter ?_
  cases c <;> cases z <;> simp_all [isLeaf, Connective.isNeutral]

theorem any_isAbsorbing (hz : z.isLeaf = true) (h : Inserted z es out) :
    out.any c.isAbsorbing = es.any c.isAbsorbing := by
  refine h.any_eq ?_
  cases c <;> cases z <;> simp_all [isLeaf, Connective.isAbsorbing]

/-- An operation is decided with and without the inserted operand, or this is inserted in what is
left of the operation. -/
theorem exists_simplify? (hz : IsUnmerged z) (h : Inserted z es out)
    (hes : simplify? c es = some e) :
    ∃ e', simplify? c out = some e' ∧
      (e = c.absorbing ∧ e' = c.absorbing ∨
        ∃ rest rest', Inserted z rest rest' ∧ (∀ x ∈ rest, x ≠ empty ∧ x ≠ c.identity) ∧
          e = collapse c rest ∧ e' = collapse c rest') := by
  -- Whether an operand decides is asked twice, and neither answer depends on the inserted one.
  cases hany : es.any c.isAbsorbing with
  | true =>
    have hany' := h.any_isAbsorbing (c := c) hz.leaf
    rw [hany] at hany'
    rw [simplify?_of_absorbing hany, Option.some.injEq] at hes
    exact ⟨_, simplify?_of_absorbing hany', Or.inl ⟨hes.symm, rfl⟩⟩
  | false =>
    have hany' := h.any_isAbsorbing (c := c) hz.leaf
    rw [hany] at hany'
    rw [simplify?_of_not_absorbing hany] at hes
    obtain ⟨merged, hmerged, rfl⟩ := Option.map_eq_some_iff.mp hes
    obtain ⟨merged', hmerged', hinserted⟩ := (h.dropNeutral hz.leaf).exists_mergeAll? hz hmerged
    rw [simplify?_of_not_absorbing hany', hmerged']
    refine ⟨_, rfl, ?_⟩
    unfold settle
    rw [hinserted.any_isAbsorbing hz.leaf]
    split
    case isTrue => exact Or.inl ⟨rfl, rfl⟩
    case isFalse =>
      exact Or.inr ⟨_, _, hinserted.dropNeutral hz.leaf, fun x hx => (mem_dropNeutral.mp hx).2,
        rfl, rfl⟩

end Inserted

end SearchExpr.Expr
