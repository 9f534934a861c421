import SearchExpr.Proofs.Expr.NormalForm

/-! # Trees of two leaves

What the smallest operations come to: two sets on one field, two bounds that meet, and a leaf beside
what is neutral.
-/

namespace SearchExpr.Expr

variable {x y : Expr} {field : String}

theorem optimize?_pair {connective : Connective} (hx : x.isLeaf = true) (hy : y.isLeaf = true) :
    optimize? (operation connective [x, y]) =
      (mergeAll? connective [x, y]).map (settle connective) := by
  have hconstant : ∀ z ∈ [x, y], z.isConstant = false := by
    intro z hz
    rcases List.mem_pair.mp hz with rfl | rfl
    · exact isConstant_of_isLeaf hx
    · exact isConstant_of_isLeaf hy
  rw [optimize?, optimizeAll?, optimizeAll?, optimizeAll?, optimize?_base (Or.inl hx),
    optimize?_base (Or.inl hy)]
  exact simplify?_of_noConstant hconstant connective

theorem mergeAll?_choices_pair (connective : Connective) (cs cs' : Choices) :
    mergeAll? connective [isIn field cs, isIn field cs'] =
      some [mergedChoices connective field cs [cs']] := by
  have hmerge : mergeChoices connective [isIn field cs, isIn field cs'] =
      mergeChoices connective [mergedChoices connective field cs [cs']] := by
    rw [mergeChoices_eq, mergeChoices_eq,
      mergeChoicesFrom_eq_self (merged_singleton connective _).choices (by simp)]
    simp [mergeChoicesFrom, choices?, onField]
  rw [mergeAll?, hmerge]
  exact mergeAll?_eq_self (merged_singleton connective _)

theorem optimize?_choices_pair (connective : Connective) (cs cs' : Choices) :
    optimize? (operation connective [isIn field cs, isIn field cs']) =
      some (mergedChoices connective field cs [cs']) := by
  rw [optimize?_pair rfl rfl, mergeAll?_choices_pair, Option.map_some, Option.some.injEq]
  cases connective with
  | and =>
    simp only [mergedChoices, isInAll]
    cases cs.intersect? [cs'] <;> rfl
  | or => rfl

theorem mergeChoices_of_none {connective : Connective} {es : List Expr}
    (hchoices : ∀ z ∈ es, choices? z = none) (hexclusions : ∀ z ∈ es, exclusions? z = none) :
    mergeExclusions connective (mergeChoices connective es) = es := by
  have hfields {part? : Expr → Option (String × Choices)} (h : ∀ z ∈ es, part? z = none) :
      fieldsOf part? es = [] := by
    rw [fieldsOf, List.filterMap_eq_nil_iff]
    intro z hz
    rw [h z hz, Option.map_none]
  rw [mergeChoices_eq, mergeChoicesFrom_eq_self (by simp [hfields hchoices]) (by simp),
    mergeExclusions_eq, mergeChoicesFrom_eq_self (by simp [hfields hexclusions]) (by simp)]

theorem InEitherOrder.forall_mem {P : Expr → Prop} {lower upper : Expr}
    (h : InEitherOrder lower upper x y) (hlower : P lower) (hupper : P upper) :
    ∀ z ∈ [x, y], P z := by
  rcases h with ⟨rfl, rfl⟩ | ⟨rfl, rfl⟩
  · simp [hlower, hupper]
  · simp [hlower, hupper]

theorem BoundForm.merge?_inEitherOrder {α : Type} {form : BoundForm α} {below above : Expr}
    {lower : LowerComparison} {low : α} {upper : UpperComparison} {high : α}
    (horder : InEitherOrder below above x y)
    (hlower : form.bound? below = some (.lower field lower low))
    (hupper : form.bound? above = some (.upper field upper high)) :
    form.merge? [x, y] = (form.join field lower low upper high).map ([·]) := by
  rcases horder with ⟨rfl, rfl⟩ | ⟨rfl, rfl⟩
  · exact merge?_pair hlower hupper
  · exact merge?_pair_of_upper_first hupper hlower

/-- A lower and an upper bound on the values of a field come to the range between them. -/
theorem optimize?_valueBounds_pair (hfield : field ≠ fulltextField) {lower : LowerComparison}
    {upper : UpperComparison} {low high : Value} {phrase phrase' : Bool}
    (horder : InEitherOrder (value field lower.toComparison low phrase)
      (value field upper.toComparison high phrase') x y) :
    optimize? (operation .and [x, y]) = some (range field lower low upper high) := by
  have hjoin : valueBounds.merge? [x, y] = some [range field lower low upper high] :=
    BoundForm.merge?_inEitherOrder horder (valueBounds_eq_lower.mpr ⟨hfield, phrase, rfl⟩)
      (valueBounds_eq_upper.mpr ⟨hfield, phrase', rfl⟩)
  have hmerge : mergeAll? .and [x, y] = some [range field lower low upper high] := by
    rw [mergeAll?_and_eq_some,
      mergeChoices_of_none (horder.forall_mem rfl rfl) (horder.forall_mem rfl rfl)]
    exact ⟨_, hjoin, BoundForm.merge?_eq_self (BoundForm.oneSided_singleton _)⟩
  obtain ⟨hx, hy⟩ := isLeaf_of_inEitherOrder horder rfl rfl
  rw [optimize?_pair hx hy, hmerge]
  rfl

theorem optimize?_values_pair (hfield : field ≠ fulltextField) (lower : LowerComparison)
    (upper : UpperComparison) (low high : Value) (phrase phrase' : Bool) :
    optimize? (operation .and [value field lower.toComparison low phrase,
        value field upper.toComparison high phrase']) =
      some (range field lower low upper high) :=
  optimize?_valueBounds_pair hfield (Or.inl ⟨rfl, rfl⟩)

/-- A lower and an upper bound on the day of a field come to the range of days between them. -/
theorem optimize?_dayBounds_pair (hfield : field ≠ fulltextField) {lower : LowerComparison}
    {upper : UpperComparison} {low high : Date}
    (horder : InEitherOrder (day field lower.toComparison low) (day field upper.toComparison high)
      x y) :
    optimize? (operation .and [x, y]) = dayBounds.join field lower low upper high := by
  have hjoin : dayBounds.merge? [x, y] =
      (dayBounds.join field lower low upper high).map ([·]) :=
    BoundForm.merge?_inEitherOrder horder (dayBounds_eq_lower.mpr ⟨hfield, rfl⟩)
      (dayBounds_eq_upper.mpr ⟨hfield, rfl⟩)
  have hnone : ∀ z ∈ [x, y], valueBounds.bound? z = none := horder.forall_mem rfl rfl
  have hvalues : valueBounds.merge? [x, y] = some [x, y] :=
    BoundForm.merge?_eq_self fun z hz b hb => by simp [hnone z hz] at hb
  have hmerge : mergeAll? .and [x, y] = (dayBounds.join field lower low upper high).map ([·]) := by
    rw [mergeAll?, mergeChoices_of_none (horder.forall_mem rfl rfl) (horder.forall_mem rfl rfl),
      mergeBounds?, hvalues]
    exact hjoin
  obtain ⟨hx, hy⟩ := isLeaf_of_inEitherOrder horder rfl rfl
  rw [optimize?_pair hx hy, hmerge, Option.map_map]
  -- What is joined is a range of days, which is neither neutral nor deciding.
  cases hrange : dayBounds.join field lower low upper high with
  | none => rfl
  | some e =>
    obtain ⟨first, -, last, -, rfl⟩ : ∃ first, firstDay? lower low = some first ∧
        ∃ last, lastDay? upper high = some last ∧ dayRange field first last = e := by
      simpa [dayBounds, Option.bind_eq_some_iff] using hrange
    rfl

theorem optimize?_days_pair (hfield : field ≠ fulltextField) (lower : LowerComparison)
    (low high : Date) (hhigh : high.previous? = none) :
    optimize? (operation .and [day field lower.toComparison low, day field .lt high]) = none := by
  have hjoin : optimize? (operation .and [day field lower.toComparison low, day field .lt high]) =
      dayBounds.join field lower low .lt high :=
    optimize?_dayBounds_pair hfield (Or.inl ⟨rfl, rfl⟩)
  rw [hjoin]
  simp [dayBounds, lastDay?, hhigh]

theorem optimize?_with_everything (hx : x.isLeaf = true) :
    optimize? (operation .and [x, everything]) = some x := by
  have hsettle : settle .and [x] = x ∧ Connective.and.dropNeutral [x, everything] = [x] := by
    cases x <;> first | exact ⟨rfl, rfl⟩ | simp [isLeaf] at hx
  have habsorbing : [x, everything].any Connective.and.isAbsorbing = false := by
    cases x <;> first | rfl | simp [isLeaf] at hx
  rw [optimize?, optimizeAll?, optimizeAll?, optimizeAll?, optimize?_base (Or.inl hx),
    optimize?_base (Or.inr rfl)]
  refine (simplify?_of_not_absorbing habsorbing).trans ?_
  rw [hsettle.2, mergeAll?_eq_self (merged_singleton .and x), Option.map_some, hsettle.1]

end SearchExpr.Expr
