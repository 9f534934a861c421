import SearchExpr.Expr.Optimize
import SearchExpr.Proofs.Expr.BoundMerging
import SearchExpr.Proofs.Expr.ChoiceMerging

/-! # The merging steps of a simplification

The operands of an operation pass through the merging of choices, of exclusions and of bounds. What
each of these puts in place of operands is named here, so that a property can be carried through
all of them at once.
-/

namespace SearchExpr.Expr

variable {c : Connective} {es out : List Expr} {e e' x y z : Expr} {field : String}

/-! ## Choices and exclusions -/

theorem choices?_eq_some {cs : Choices} : choices? e = some (field, cs) ↔ e = isIn field cs := by
  unfold choices?
  split <;> simp_all

theorem exclusions?_eq_some {cs : Choices} :
    exclusions? e = some (field, cs) ↔ e = mustNot (isIn field cs) := by
  unfold exclusions?
  split <;> simp_all

/-- The merged choices on a field under a connective. -/
def mergedChoices : Connective → String → Choices → List Choices → Expr
  | .and => isInAll
  | .or => isInAny

def mergedExclusions : Connective → String → Choices → List Choices → Expr
  | .and => isInNone
  | .or => isNotInAll

theorem mergeChoices_eq (c : Connective) (es : List Expr) :
    mergeChoices c es = mergeChoicesFrom choices? (mergedChoices c) [] es := by
  cases c <;> rfl

theorem mergeExclusions_eq (c : Connective) (es : List Expr) :
    mergeExclusions c es = mergeChoicesFrom exclusions? (mergedExclusions c) [] es := by
  cases c <;> rfl

/-- What is read off neither sets nor constants is not changed by merging sets. -/
theorem filterMap_mergeSets {β : Type} {g : Expr → Option β}
    (hsets : ∀ field cs, g (isIn field cs) = none ∧ g (mustNot (isIn field cs)) = none)
    (hconstants : g everything = none ∧ g nothing = none) (c : Connective) (es : List Expr) :
    (mergeExclusions c (mergeChoices c es)).filterMap g = es.filterMap g := by
  have hnone {part? : Expr → Option (String × Choices)}
      (hpart : ∀ e field cs, part? e = some (field, cs) → g e = none) (e : Expr)
      (h : part? e ≠ none) : g e = none := by
    obtain ⟨⟨field, cs⟩, h⟩ := Option.ne_none_iff_exists'.mp h
    exact hpart e field cs h
  rw [mergeExclusions_eq, filterMap_mergeChoicesFrom, mergeChoices_eq, filterMap_mergeChoicesFrom]
  · refine hnone fun e field cs h => ?_
    rw [choices?_eq_some.mp h]
    exact (hsets field cs).1
  · intro field cs others
    cases c with
    | and =>
      simp only [mergedChoices, isInAll]
      split
      · exact (hsets _ _).1
      · exact hconstants.2
    | or => exact (hsets _ _).1
  · refine hnone fun e field cs h => ?_
    rw [exclusions?_eq_some.mp h]
    exact (hsets field cs).2
  · intro field cs others
    cases c with
    | and => exact (hsets _ _).2
    | or =>
      simp only [mergedExclusions, isNotInAll]
      split
      · exact (hsets _ _).2
      · exact hconstants.1

/-! ## Bounds -/

theorem boundOf?_eq_lower {α : Type} {field field' : String} {comparison : Comparison} {v w : α}
    {lower : LowerComparison} :
    boundOf? field comparison v = some (.lower field' lower w) ↔
      field ≠ fulltextField ∧ field = field' ∧ comparison = lower.toComparison ∧ v = w := by
  unfold boundOf?
  cases comparison <;> cases lower <;>
    simp [Comparison.lower?, Comparison.upper?, LowerComparison.toComparison]

theorem boundOf?_eq_upper {α : Type} {field field' : String} {comparison : Comparison} {v w : α}
    {upper : UpperComparison} :
    boundOf? field comparison v = some (.upper field' upper w) ↔
      field ≠ fulltextField ∧ field = field' ∧ comparison = upper.toComparison ∧ v = w := by
  unfold boundOf?
  cases comparison <;> cases upper <;>
    simp [Comparison.lower?, Comparison.upper?, UpperComparison.toComparison]

theorem valueBounds_eq_lower {lower : LowerComparison} {v : Value} :
    valueBounds.bound? e = some (.lower field lower v) ↔
      field ≠ fulltextField ∧ ∃ phrase, e = value field lower.toComparison v phrase := by
  cases e <;> simp [valueBounds, boundOf?_eq_lower]
  grind

theorem valueBounds_eq_upper {upper : UpperComparison} {v : Value} :
    valueBounds.bound? e = some (.upper field upper v) ↔
      field ≠ fulltextField ∧ ∃ phrase, e = value field upper.toComparison v phrase := by
  cases e <;> simp [valueBounds, boundOf?_eq_upper]
  grind

theorem dayBounds_eq_lower {lower : LowerComparison} {d : Date} :
    dayBounds.bound? e = some (.lower field lower d) ↔
      field ≠ fulltextField ∧ e = day field lower.toComparison d := by
  cases e <;> simp [dayBounds, boundOf?_eq_lower]
  grind

theorem dayBounds_eq_upper {upper : UpperComparison} {d : Date} :
    dayBounds.bound? e = some (.upper field upper d) ↔
      field ≠ fulltextField ∧ e = day field upper.toComparison d := by
  cases e <;> simp [dayBounds, boundOf?_eq_upper]
  grind

/-- Two bounds on one field, whose sides are told by the first two arguments, in either order. -/
def InEitherOrder (lower upper x z : Expr) : Prop :=
  (x = lower ∧ z = upper) ∨ (x = upper ∧ z = lower)

theorem BoundForm.joins_cases {α : Type} {form : BoundForm α} (h : form.Joins x z y) :
    ∃ field lower low upper high, form.join field lower low upper high = some y ∧
      ((form.bound? x = some (.lower field lower low) ∧
        form.bound? z = some (.upper field upper high)) ∨
      (form.bound? x = some (.upper field upper high) ∧
        form.bound? z = some (.lower field lower low))) := by
  obtain ⟨b, b', hx, hz, hjoin⟩ := h
  cases b <;> cases b' <;>
    simp only [joinBounds?, Option.ite_none_right_eq_some, reduceCtorEq] at hjoin
  case lower.upper field lower low field' upper high =>
    obtain ⟨rfl, hjoin⟩ := hjoin
    exact ⟨_, lower, low, upper, high, hjoin, Or.inl ⟨hx, hz⟩⟩
  case upper.lower field upper high field' lower low =>
    obtain ⟨rfl, hjoin⟩ := hjoin
    exact ⟨_, lower, low, upper, high, hjoin, Or.inr ⟨hx, hz⟩⟩

theorem valueBounds_joins (h : valueBounds.Joins x z y) :
    ∃ field lower low upper high phrase phrase', field ≠ fulltextField ∧
      y = range field lower low upper high ∧
      InEitherOrder (value field lower.toComparison low phrase)
        (value field upper.toComparison high phrase') x z := by
  obtain ⟨field, lower, low, upper, high, hjoin, hsides⟩ := BoundForm.joins_cases h
  obtain rfl : range field lower low upper high = y := by simpa [valueBounds] using hjoin
  rw [valueBounds_eq_lower, valueBounds_eq_lower, valueBounds_eq_upper, valueBounds_eq_upper]
    at hsides
  rcases hsides with
    ⟨⟨hfield, phrase, rfl⟩, -, phrase', rfl⟩ | ⟨⟨hfield, phrase', rfl⟩, -, phrase, rfl⟩
  · exact ⟨field, lower, low, upper, high, phrase, phrase', hfield, rfl, Or.inl ⟨rfl, rfl⟩⟩
  · exact ⟨field, lower, low, upper, high, phrase, phrase', hfield, rfl, Or.inr ⟨rfl, rfl⟩⟩

theorem dayBounds_joins (h : dayBounds.Joins x z y) :
    ∃ field lower low upper high first last, field ≠ fulltextField ∧
      firstDay? lower low = some first ∧ lastDay? upper high = some last ∧
      y = dayRange field first last ∧
      InEitherOrder (day field lower.toComparison low) (day field upper.toComparison high) x z := by
  obtain ⟨field, lower, low, upper, high, hjoin, hsides⟩ := BoundForm.joins_cases h
  simp only [dayBounds, Option.bind_eq_bind, Option.bind_eq_some_iff, Option.pure_def,
    Option.some.injEq] at hjoin
  obtain ⟨first, hfirst, last, hlast, rfl⟩ := hjoin
  rw [dayBounds_eq_lower, dayBounds_eq_lower, dayBounds_eq_upper, dayBounds_eq_upper] at hsides
  refine ⟨field, lower, low, upper, high, first, last, ?_, hfirst, hlast, rfl, ?_⟩
  · rcases hsides with ⟨⟨hfield, -⟩, -⟩ | ⟨⟨hfield, -⟩, -⟩ <;> exact hfield
  · exact hsides.imp (fun h => ⟨h.1.2, h.2.2⟩) fun h => ⟨h.1.2, h.2.2⟩

/-! ## One simplification -/

/-- The operands of an operation after all merges. -/
def mergeAll? (c : Connective) (es : List Expr) : Option (List Expr) :=
  mergeBounds? c (mergeExclusions c (mergeChoices c es))

/-- What becomes of an operation with merged operands. -/
def settle (c : Connective) (es : List Expr) : Expr :=
  if es.any c.isAbsorbing then c.absorbing else collapse c (c.dropNeutral es)

theorem simplify?_of_absorbing (h : es.any c.isAbsorbing = true) :
    simplify? c es = some c.absorbing := by
  simp [simplify?, h]

theorem simplify?_of_not_absorbing (h : es.any c.isAbsorbing = false) :
    simplify? c es = (mergeAll? c (c.dropNeutral es)).map (settle c) := by
  unfold simplify? mergeAll? settle
  rw [h]
  cases mergeBounds? c (mergeExclusions c (mergeChoices c (c.dropNeutral es))) with
  | none => rfl
  | some out => exact (apply_ite some _ _ _).symm

theorem isAbsorbing_iff : c.isAbsorbing e = true ↔ e = c.absorbing := by
  cases c <;> cases e <;> simp [Connective.isAbsorbing, Connective.absorbing]

theorem isNeutral_iff : c.isNeutral e = true ↔ e = empty ∨ e = c.identity := by
  cases c <;> cases e <;> simp [Connective.isNeutral, Connective.identity]

theorem any_isAbsorbing_iff : es.any c.isAbsorbing = true ↔ c.absorbing ∈ es := by
  simp [isAbsorbing_iff]

theorem mem_dropNeutral : e ∈ c.dropNeutral es ↔ e ∈ es ∧ e ≠ empty ∧ e ≠ c.identity := by
  simp [Connective.dropNeutral, ← Bool.not_eq_true, isNeutral_iff]

/-- What is read off no neutral operand is not changed by dropping those. -/
theorem filterMap_dropNeutral {β : Type} {g : Expr → Option β} (hempty : g empty = none)
    (hidentity : g c.identity = none) (es : List Expr) :
    (c.dropNeutral es).filterMap g = es.filterMap g := by
  rw [Connective.dropNeutral, List.filterMap_filter]
  congr 1
  funext x
  cases hneutral : c.isNeutral x with
  | false => rfl
  | true =>
    rcases isNeutral_iff.mp hneutral with rfl | rfl
    · exact hempty.symm
    · exact hidentity.symm

theorem dropNeutral_sublist (c : Connective) (es : List Expr) :
    (c.dropNeutral es).Sublist es :=
  List.filter_sublist

theorem mergeAll?_and_eq_some :
    mergeAll? .and es = some out ↔
      ∃ mid, valueBounds.merge? (mergeExclusions .and (mergeChoices .and es)) = some mid ∧
        dayBounds.merge? mid = some out := by
  simp [mergeAll?, mergeBounds?, Option.bind_eq_some_iff]

theorem mergeAll?_or_eq_some :
    mergeAll? .or es = some out ↔ mergeExclusions .or (mergeChoices .or es) = out := by
  simp [mergeAll?, mergeBounds?]

/-! ## Disjunctions that are false -/

theorem not_forall_isNeutral (h : es.any c.isAbsorbing = true) :
    ¬ ∀ x ∈ es, c.isNeutral x = true := by
  intro hall
  have hneutral := hall _ (any_isAbsorbing_iff.mp h)
  cases c <;> simp [Connective.absorbing, Connective.isNeutral] at hneutral

/-- No set is neutral under `or`, and what several sets are merged to is not either. -/
theorem forall_isNeutral_mergeAll?_or (h : mergeAll? .or es = some out) :
    (∀ y ∈ out, Connective.or.isNeutral y = true) ↔ ∀ x ∈ es, Connective.or.isNeutral x = true := by
  rw [← mergeAll?_or_eq_some.mp h, mergeExclusions_eq, mergeChoices_eq,
    forall_mem_mergeChoicesFrom (H := fun _ _ => False),
    forall_mem_mergeChoicesFrom (H := fun _ _ => False)]
  · simp
  · intro x _ field cs hpart
    rw [choices?_eq_some.mp hpart]
    simp [Connective.isNeutral]
  · intro field cs others _
    refine iff_of_false ?_ fun h => h cs List.mem_cons_self
    simp [mergedChoices, isInAny, Connective.isNeutral]
  · intro x _ field cs hpart
    rw [exclusions?_eq_some.mp hpart]
    simp [Connective.isNeutral]
  · intro field cs others _
    refine iff_of_false ?_ fun h => h cs List.mem_cons_self
    simp only [mergedExclusions, isNotInAll]
    split <;> simp [Connective.isNeutral]

theorem collapse_or_eq_nothing (h : nothing ∉ es) : collapse .or es = nothing ↔ es = [] := by
  match es with
  | [] => simp [collapse, Connective.identity]
  | [e] =>
    rw [List.mem_singleton, eq_comm] at h
    simp [collapse, h]
  | _ :: _ :: _ => simp [collapse]

theorem settle_or_eq_nothing :
    settle .or es = nothing ↔ ∀ x ∈ es, Connective.or.isNeutral x = true := by
  have hnil : Connective.or.dropNeutral es = [] ↔ ∀ x ∈ es, Connective.or.isNeutral x = true := by
    simp [Connective.dropNeutral]
  rw [settle]
  split
  case isTrue hany => simp [Connective.absorbing, not_forall_isNeutral hany]
  case isFalse =>
    rw [← hnil, collapse_or_eq_nothing]
    intro hnothing
    exact (mem_dropNeutral.mp hnothing).2.2 rfl

/-- A disjunction is simplified to what is false only if it has no operand but such ones. -/
theorem simplify?_or_eq_nothing :
    simplify? .or es = some nothing ↔ ∀ x ∈ es, x = empty ∨ x = nothing := by
  have hneutral (x : Expr) : Connective.or.isNeutral x = true ↔ x = empty ∨ x = nothing :=
    isNeutral_iff
  simp only [← hneutral]
  cases hany : es.any Connective.or.isAbsorbing with
  | true => simp [simplify?_of_absorbing hany, Connective.absorbing, not_forall_isNeutral hany]
  | false =>
    obtain ⟨out, hout⟩ : ∃ out, mergeAll? .or (Connective.or.dropNeutral es) = some out := ⟨_, rfl⟩
    rw [simplify?_of_not_absorbing hany, hout, Option.map_some, Option.some.injEq,
      settle_or_eq_nothing, forall_isNeutral_mergeAll?_or hout]
    simp only [mem_dropNeutral, hneutral, Connective.identity]
    refine forall_congr' fun x => ?_
    tauto

end SearchExpr.Expr
