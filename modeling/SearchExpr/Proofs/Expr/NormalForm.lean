import SearchExpr.Proofs.Expr.Simplifying
import SearchExpr.Proofs.Expr.Trees

/-! # The normal form of optimized trees

Constants remain only as whole trees, every operation has several operands, and nothing among the
operands is left to merge. The trees are built over given leaves, so that what is known about the
leaves of a tree can be kept while it is optimized.
-/

namespace SearchExpr.Expr

variable {c : Connective} {es out : List Expr} {e e' s x : Expr} {L : Expr → Prop}

/-! ## Merged operands -/

/-- Nothing among the operands of an operation can be merged. -/
structure Merged (c : Connective) (es : List Expr) : Prop where
  choices : (fieldsOf choices? es).Nodup
  exclusions : (fieldsOf exclusions? es).Nodup
  values : c = .and → valueBounds.OneSided es
  days : c = .and → dayBounds.OneSided es

theorem Merged.sublist (h : Merged c out) (hsub : es.Sublist out) : Merged c es where
  choices := h.choices.sublist (hsub.filterMap _)
  exclusions := h.exclusions.sublist (hsub.filterMap _)
  values hc x hx b hb z hz := h.values hc x (hsub.subset hx) b hb z (hsub.subset hz)
  days hc x hx b hb z hz := h.days hc x (hsub.subset hx) b hb z (hsub.subset hz)

theorem merged_singleton (c : Connective) (e : Expr) : Merged c [e] where
  choices := by cases h : choices? e <;> simp [fieldsOf, h]
  exclusions := by cases h : exclusions? e <;> simp [fieldsOf, h]
  values _ := BoundForm.oneSided_singleton e
  days _ := BoundForm.oneSided_singleton e

theorem choices?_mergedChoices (c : Connective) (field : String) (cs : Choices)
    (others : List Choices) (p : String × Choices)
    (h : choices? (mergedChoices c field cs others) = some p) : p.1 = field := by
  cases c with
  | and =>
    simp only [mergedChoices, isInAll] at h
    split at h
    · exact Option.some.inj h ▸ rfl
    · contradiction
  | or => exact Option.some.inj h ▸ rfl

theorem exclusions?_mergedExclusions (c : Connective) (field : String) (cs : Choices)
    (others : List Choices) (p : String × Choices)
    (h : exclusions? (mergedExclusions c field cs others) = some p) : p.1 = field := by
  cases c with
  | and => exact Option.some.inj h ▸ rfl
  | or =>
    simp only [mergedExclusions, isNotInAll] at h
    split at h
    · exact Option.some.inj h ▸ rfl
    · contradiction

theorem choices?_mergedExclusions (c : Connective) (field : String) (cs : Choices)
    (others : List Choices) : choices? (mergedExclusions c field cs others) = none := by
  cases c with
  | and => rfl
  | or =>
    simp only [mergedExclusions, isNotInAll]
    split <;> rfl

theorem filterMap_mergeBounds? {β : Type} {g : Expr → Option β}
    (hvalue : ∀ x, valueBounds.bound? x ≠ none → g x = none)
    (hday : ∀ x, dayBounds.bound? x ≠ none → g x = none)
    (hrange : ∀ field lower low upper high, g (range field lower low upper high) = none)
    (hdayRange : ∀ field first last, g (dayRange field first last) = none)
    (h : mergeBounds? c es = some out) : out.filterMap g = es.filterMap g := by
  cases c with
  | or => rw [← Option.some.inj h]
  | and =>
    obtain ⟨mid, hmid, hout⟩ := Option.bind_eq_some_iff.mp h
    rw [BoundForm.filterMap_merge? hday _ hout, BoundForm.filterMap_merge? hvalue _ hmid]
    · intro x z y hjoins
      obtain ⟨_, _, _, _, _, _, _, -, rfl, -⟩ := valueBounds_joins hjoins
      exact hrange ..
    · intro x z y hjoins
      obtain ⟨_, _, _, _, _, _, _, -, -, -, rfl, -⟩ := dayBounds_joins hjoins
      exact hdayRange ..

/-- Choices and exclusions are no bounds. -/
theorem fieldsOf_mergeBounds? {part? : Expr → Option (String × Choices)}
    (hpart : ∀ x, part? x ≠ none → ∃ field cs, x = isIn field cs ∨ x = mustNot (isIn field cs))
    (h : mergeBounds? c es = some out) : fieldsOf part? out = fieldsOf part? es := by
  have hnone : ∀ x, (∀ field cs, x ≠ isIn field cs ∧ x ≠ mustNot (isIn field cs)) →
      (part? x).map (·.1) = none := by
    intro x hx
    rw [Option.map_eq_none_iff]
    by_contra hne
    obtain ⟨field, cs, rfl | rfl⟩ := hpart x hne
    · exact (hx field cs).1 rfl
    · exact (hx field cs).2 rfl
  refine filterMap_mergeBounds? (fun x hx => hnone x ?_) (fun x hx => hnone x ?_)
    (fun _ _ _ _ _ => hnone _ (by simp)) (fun _ _ _ => hnone _ (by simp)) h
  · rintro field cs
    exact ⟨fun h => hx (h ▸ rfl), fun h => hx (h ▸ rfl)⟩
  · rintro field cs
    exact ⟨fun h => hx (h ▸ rfl), fun h => hx (h ▸ rfl)⟩

/-- Once merged, nothing is left to merge: no merge brings forth what an earlier one looks for. -/
theorem merged_mergeAll? (h : mergeAll? c es = some out) : Merged c out where
  choices := by
    rw [fieldsOf_mergeBounds? _ h, mergeExclusions_eq, fieldsOf, filterMap_mergeChoicesFrom,
      mergeChoices_eq]
    · exact (nodup_fieldsOf_mergeChoicesFrom (choices?_mergedChoices c)).1
    · intro x hx
      obtain ⟨⟨field, cs⟩, hx⟩ := Option.ne_none_iff_exists'.mp hx
      rw [exclusions?_eq_some.mp hx]
      rfl
    · intro field cs others
      rw [choices?_mergedExclusions, Option.map_none]
    · intro x hx
      obtain ⟨⟨field, cs⟩, hx⟩ := Option.ne_none_iff_exists'.mp hx
      exact ⟨field, cs, Or.inl (choices?_eq_some.mp hx)⟩
  exclusions := by
    rw [fieldsOf_mergeBounds? _ h, mergeExclusions_eq]
    · exact (nodup_fieldsOf_mergeChoicesFrom (exclusions?_mergedExclusions c)).1
    · intro x hx
      obtain ⟨⟨field, cs⟩, hx⟩ := Option.ne_none_iff_exists'.mp hx
      exact ⟨field, cs, Or.inr (exclusions?_eq_some.mp hx)⟩
  values := by
    rintro rfl
    obtain ⟨mid, hmid, hout⟩ := mergeAll?_and_eq_some.mp h
    have hside : valueBounds.OneSided mid := BoundForm.oneSided_merge? hmid fun x z y hjoins => by
      obtain ⟨_, _, _, _, _, _, _, -, rfl, -⟩ := valueBounds_joins hjoins
      rfl
    have hframe : out.filterMap valueBounds.bound? = mid.filterMap valueBounds.bound? := by
      refine BoundForm.filterMap_merge? (fun x hx => ?_) (fun x z y hjoins => ?_) hout
      · cases x <;> simp [dayBounds, valueBounds] at hx ⊢
      · obtain ⟨_, _, _, _, _, _, _, -, -, -, rfl, -⟩ := dayBounds_joins hjoins
        rfl
    rwa [BoundForm.oneSided_iff, hframe, ← BoundForm.oneSided_iff]
  days := by
    rintro rfl
    obtain ⟨mid, hmid, hout⟩ := mergeAll?_and_eq_some.mp h
    refine BoundForm.oneSided_merge? hout fun x z y hjoins => ?_
    obtain ⟨_, _, _, _, _, _, _, -, -, -, rfl, -⟩ := dayBounds_joins hjoins
    rfl

/-- Merged operands stay as they are. -/
theorem mergeAll?_eq_self (h : Merged c es) : mergeAll? c es = some es := by
  have hchoices : mergeChoices c es = es := by
    rw [mergeChoices_eq, mergeChoicesFrom_eq_self h.choices (by simp)]
  have hexclusions : mergeExclusions c es = es := by
    rw [mergeExclusions_eq, mergeChoicesFrom_eq_self h.exclusions (by simp)]
  cases c with
  | and =>
    rw [mergeAll?_and_eq_some, hchoices, hexclusions]
    exact ⟨es, BoundForm.merge?_eq_self (h.values rfl), BoundForm.merge?_eq_self (h.days rfl)⟩
  | or => rw [mergeAll?_or_eq_some, hchoices, hexclusions]

/-! ## Simplifying operands without constants -/

section

variable (h : ∀ x ∈ es, x.isConstant = false)

include h

theorem not_mem_of_isConstant {k : Expr} (hk : k.isConstant = true) : k ∉ es := by
  intro hmem
  rw [h k hmem] at hk
  contradiction

theorem any_isAbsorbing_of_noConstant (c : Connective) : es.any c.isAbsorbing = false := by
  rw [← Bool.not_eq_true, any_isAbsorbing_iff]
  exact not_mem_of_isConstant h (by cases c <;> rfl)

theorem dropNeutral_of_noConstant (c : Connective) : c.dropNeutral es = es := by
  refine List.filter_eq_self.mpr fun x hx => ?_
  rw [Bool.not_eq_true', ← Bool.not_eq_true, isNeutral_iff]
  rintro (rfl | rfl)
  · exact not_mem_of_isConstant h rfl hx
  · exact not_mem_of_isConstant h (by cases c <;> rfl) hx

theorem simplify?_of_noConstant (c : Connective) :
    simplify? c es = (mergeAll? c es).map (settle c) := by
  rw [simplify?_of_not_absorbing (any_isAbsorbing_of_noConstant h c),
    dropNeutral_of_noConstant h c]

theorem settle_of_noConstant (c : Connective) : settle c es = collapse c es := by
  rw [settle, any_isAbsorbing_of_noConstant h c, dropNeutral_of_noConstant h c]
  rfl

end

/-! ## Normal trees -/

/-- A sort of leaves that merges do not leave. -/
structure LeafClosed (L : Expr → Prop) : Prop where
  union : ∀ field cs others, (∀ o ∈ cs :: others, L (isIn field o)) →
    L (isIn field (cs.union others))
  common : ∀ field cs others common, (∀ o ∈ cs :: others, L (isIn field o)) →
    cs.intersect? others = some common → L (isIn field common)
  range : ∀ x z y, valueBounds.Joins x z y → L x → L z → L y
  dayRange : ∀ x z y, dayBounds.Joins x z y → L x → L z → L y

/-- The normal trees without constants, over leaves of one sort. -/
inductive IsCore (L : Expr → Prop) : Expr → Prop where
  | leaf {e : Expr} (he : e.isLeaf = true) (h : L e) : IsCore L e
  | operation {c : Connective} {es : List Expr} (hlength : 2 ≤ es.length) (hmerged : Merged c es)
    (h : ∀ x ∈ es, IsCore L x) : IsCore L (operation c es)
  | mustNot {e : Expr} (h : IsCore L e) : IsCore L (mustNot e)

def IsNormal (L : Expr → Prop) (e : Expr) : Prop :=
  e.isConstant = true ∨ IsCore L e

theorem IsCore.not_isConstant (h : IsCore L e) : e.isConstant = false := by
  cases h with
  | leaf he => exact isConstant_of_isLeaf he
  | operation | mustNot => rfl

theorem IsNormal.of_isLeaf (h : IsNormal L e) (he : e.isLeaf = true) : L e := by
  rcases h with h | h
  · simp [isConstant_of_isLeaf he] at h
  · cases h with
    | leaf _ h => exact h
    | operation | mustNot => simp [isLeaf] at he

theorem IsNormal.of_mustNot (h : IsNormal L (mustNot e)) : IsCore L e := by
  rcases h with h | h
  · simp [isConstant] at h
  · cases h with
    | leaf he => simp [isLeaf] at he
    | mustNot h => exact h

theorem IsNormal.of_isIn {field : String} {cs : Choices} (hL : L (isIn field cs)) :
    IsNormal L (isIn field cs) ∧ IsNormal L (mustNot (isIn field cs)) :=
  ⟨Or.inr (.leaf rfl hL), Or.inr (.mustNot (.leaf rfl hL))⟩

theorem leaf_of_foundIn_choices {field : String} {all : List Choices}
    (hes : ∀ x ∈ es, IsNormal L x) (hfound : FoundIn choices? es field all) :
    ∀ o ∈ all, L (isIn field o) := by
  intro o ho
  obtain ⟨x, hx, hpart⟩ := hfound o ho
  obtain rfl := choices?_eq_some.mp hpart
  exact (hes _ hx).of_isLeaf rfl

theorem leaf_of_foundIn_exclusions {field : String} {all : List Choices}
    (hes : ∀ x ∈ es, IsNormal L x) (hfound : FoundIn exclusions? es field all) :
    ∀ o ∈ all, L (isIn field o) := by
  intro o ho
  obtain ⟨x, hx, hpart⟩ := hfound o ho
  obtain rfl := exclusions?_eq_some.mp hpart
  exact IsNormal.of_isLeaf (Or.inr (hes _ hx).of_mustNot) rfl

theorem isNormal_mergedChoices (hclosed : LeafClosed L) (c : Connective) {field : String}
    {cs : Choices} {others : List Choices} (h : ∀ o ∈ cs :: others, L (isIn field o)) :
    IsNormal L (mergedChoices c field cs others) ∧
      IsNormal L (mergedExclusions c field cs others) := by
  have hunion := IsNormal.of_isIn (hclosed.union field cs others h)
  cases c with
  | and =>
    refine ⟨?_, hunion.2⟩
    simp only [mergedChoices, isInAll]
    split
    case h_1 common hcommon => exact (IsNormal.of_isIn (hclosed.common _ _ _ _ h hcommon)).1
    case h_2 => exact Or.inl rfl
  | or =>
    refine ⟨hunion.1, ?_⟩
    simp only [mergedExclusions, isNotInAll]
    split
    case h_1 common hcommon => exact (IsNormal.of_isIn (hclosed.common _ _ _ _ h hcommon)).2
    case h_2 => exact Or.inl rfl

theorem isNormal_merge? {α : Type} {form : BoundForm α}
    (hjoin : ∀ x z y, form.Joins x z y → IsNormal L x → IsNormal L z → IsNormal L y)
    (h : form.merge? es = some out) (hes : ∀ x ∈ es, IsNormal L x) : ∀ y ∈ out, IsNormal L y := by
  intro y hy
  rcases BoundForm.mem_of_mem_merge? h hy with hy | ⟨x, hx, z, hz, hjoins⟩
  · exact hes y hy
  · exact hjoin x z y hjoins (hes x hx) (hes z hz)

theorem isLeaf_of_inEitherOrder {lower upper x z : Expr} (h : InEitherOrder lower upper x z)
    (hlower : lower.isLeaf = true) (hupper : upper.isLeaf = true) :
    x.isLeaf = true ∧ z.isLeaf = true := by
  rcases h with ⟨rfl, rfl⟩ | ⟨rfl, rfl⟩
  · exact ⟨hlower, hupper⟩
  · exact ⟨hupper, hlower⟩

theorem isNormal_of_valueBounds_joins (hclosed : LeafClosed L) {x z y : Expr}
    (h : valueBounds.Joins x z y) (hx : IsNormal L x) (hz : IsNormal L z) : IsNormal L y := by
  obtain ⟨_, _, _, _, _, _, _, -, rfl, horder⟩ := valueBounds_joins h
  obtain ⟨hleaf, hleaf'⟩ := isLeaf_of_inEitherOrder horder rfl rfl
  exact Or.inr (.leaf rfl (hclosed.range x z _ h (hx.of_isLeaf hleaf) (hz.of_isLeaf hleaf')))

theorem isNormal_of_dayBounds_joins (hclosed : LeafClosed L) {x z y : Expr}
    (h : dayBounds.Joins x z y) (hx : IsNormal L x) (hz : IsNormal L z) : IsNormal L y := by
  obtain ⟨_, _, _, _, _, _, _, -, -, -, rfl, horder⟩ := dayBounds_joins h
  obtain ⟨hleaf, hleaf'⟩ := isLeaf_of_inEitherOrder horder rfl rfl
  exact Or.inr (.leaf rfl (hclosed.dayRange x z _ h (hx.of_isLeaf hleaf) (hz.of_isLeaf hleaf')))

theorem isNormal_mergeChoices (hclosed : LeafClosed L) (hes : ∀ x ∈ es, IsNormal L x) :
    ∀ x ∈ mergeChoices c es, IsNormal L x := by
  intro x hx
  rw [mergeChoices_eq] at hx
  rcases mem_mergeChoicesFrom hx with hx | ⟨field, cs, others, rfl, hfound⟩
  · exact hes x hx
  · refine (isNormal_mergedChoices hclosed c fun o ho => ?_).1
    exact leaf_of_foundIn_choices hes hfound o ho

theorem isNormal_mergeExclusions (hclosed : LeafClosed L) (hes : ∀ x ∈ es, IsNormal L x) :
    ∀ x ∈ mergeExclusions c es, IsNormal L x := by
  intro x hx
  rw [mergeExclusions_eq] at hx
  rcases mem_mergeChoicesFrom hx with hx | ⟨field, cs, others, rfl, hfound⟩
  · exact hes x hx
  · refine (isNormal_mergedChoices hclosed c fun o ho => ?_).2
    exact leaf_of_foundIn_exclusions hes hfound o ho

theorem isNormal_mergeAll? (hclosed : LeafClosed L) (hes : ∀ x ∈ es, IsNormal L x)
    (h : mergeAll? c es = some out) : ∀ y ∈ out, IsNormal L y := by
  have hexclusions : ∀ x ∈ mergeExclusions c (mergeChoices c es), IsNormal L x :=
    isNormal_mergeExclusions hclosed (isNormal_mergeChoices hclosed hes)
  cases c with
  | or => exact mergeAll?_or_eq_some.mp h ▸ hexclusions
  | and =>
    obtain ⟨mid, hmid, hout⟩ := mergeAll?_and_eq_some.mp h
    have hmidNormal := isNormal_merge? (fun _ _ _ => isNormal_of_valueBounds_joins hclosed) hmid
      hexclusions
    exact isNormal_merge? (fun _ _ _ => isNormal_of_dayBounds_joins hclosed) hout hmidNormal

/-- What is left of normal operands besides what decides and what is neutral. -/
theorem isCore_of_mem_dropNeutral (hes : ∀ x ∈ es, IsNormal L x) (habsorbing : c.absorbing ∉ es)
    (hx : x ∈ c.dropNeutral es) : IsCore L x := by
  obtain ⟨hx, hempty, hidentity⟩ := mem_dropNeutral.mp hx
  refine (hes x hx).resolve_left fun hconstant => ?_
  have hne : x ≠ c.absorbing := fun h => habsorbing (h ▸ hx)
  cases c <;> cases x <;> simp_all [isConstant, Connective.identity, Connective.absorbing]

theorem isNormal_collapse (hmerged : Merged c es) (hes : ∀ x ∈ es, IsCore L x) :
    IsNormal L (collapse c es) := by
  match es with
  | [] => cases c <;> exact Or.inl rfl
  | [e] => exact Or.inr (hes e List.mem_cons_self)
  | e :: e' :: es => exact Or.inr (.operation (by simp) hmerged hes)

theorem isNormal_simplify? (hclosed : LeafClosed L) (hes : ∀ x ∈ es, IsNormal L x)
    (h : simplify? c es = some e) : IsNormal L e := by
  have habsorbing : IsNormal L c.absorbing := by cases c <;> exact Or.inl rfl
  cases hany : es.any c.isAbsorbing with
  | true =>
    rw [simplify?_of_absorbing hany, Option.some.injEq] at h
    exact h ▸ habsorbing
  | false =>
    rw [simplify?_of_not_absorbing hany] at h
    obtain ⟨out, hout, rfl⟩ := Option.map_eq_some_iff.mp h
    have hnormal := isNormal_mergeAll? hclosed
      (fun x hx => hes x (mem_dropNeutral.mp hx).1) hout
    unfold settle
    split
    case isTrue => exact habsorbing
    case isFalse hnot =>
      rw [any_isAbsorbing_iff] at hnot
      exact isNormal_collapse ((merged_mergeAll? hout).sublist (dropNeutral_sublist c out))
        fun x hx => isCore_of_mem_dropNeutral hnormal hnot hx

theorem negate_eq (h : e.isConstant = false) : negate e = mustNot e := by
  cases e <;> simp_all [isConstant, negate]

theorem isNormal_negate (h : IsNormal L e) : IsNormal L (negate e) := by
  rcases h with h | h
  · cases e <;> simp_all [isConstant, negate, IsNormal]
  · rw [negate_eq h.not_isConstant]
    exact Or.inr (.mustNot h)

/-- An optimized tree is normal. -/
theorem isNormal_optimize? (hclosed : LeafClosed L) (hleaves : LeavesIn L e)
    (h : optimize? e = some e') : IsNormal L e' := by
  induction e using treeInduction generalizing e' with
  | base e he =>
    rw [optimize?_base he, Option.some.injEq] at h
    subst h
    exact he.symm.imp_right fun hleaf => .leaf hleaf (hleaves e .whole hleaf)
  | operation c es ih =>
    obtain ⟨out, hout, h⟩ := optimize?_operation_eq_some.mp h
    refine isNormal_simplify? hclosed (fun x' hx' => ?_) h
    obtain ⟨x, hx, hopt⟩ := exists_left_of_forall₂ hout hx'
    exact ih x hx (hleaves.operand hx) hopt
  | mustNot e ih =>
    obtain ⟨x, hx, rfl⟩ := optimize?_mustNot_eq_some.mp h
    exact isNormal_negate (ih hleaves.negated hx)

/-! ## Trees that are optimized -/

/-- Day bounds that meet can be joined, and joining does not leave the leaves. -/
structure DaysJoin (L : Expr → Prop) : Prop extends LeafClosed L where
  joins : ∀ field (lower : LowerComparison) (upper : UpperComparison) low high,
    field ≠ fulltextField → L (day field lower.toComparison low) →
      L (day field upper.toComparison high) →
        firstDay? lower low ≠ none ∧ lastDay? upper high ≠ none

theorem dayBounds_merge?_ne_none (hjoin : DaysJoin L) (hes : ∀ x ∈ es, IsNormal L x) :
    dayBounds.merge? es ≠ none := by
  refine BoundForm.merge?_ne_none fun x hx z hz field lower low upper high hlower hupper => ?_
  obtain ⟨hfield, rfl⟩ := dayBounds_eq_lower.mp hlower
  obtain ⟨-, rfl⟩ := dayBounds_eq_upper.mp hupper
  obtain ⟨hfirst, hlast⟩ := hjoin.joins field lower upper low high hfield
    ((hes _ hx).of_isLeaf rfl) ((hes _ hz).of_isLeaf rfl)
  obtain ⟨first, hfirst⟩ := Option.ne_none_iff_exists'.mp hfirst
  obtain ⟨last, hlast⟩ := Option.ne_none_iff_exists'.mp hlast
  simp [dayBounds, hfirst, hlast]

theorem valueBounds_merge?_ne_none (es : List Expr) : valueBounds.merge? es ≠ none :=
  BoundForm.merge?_ne_none fun _ _ _ _ _ _ _ _ _ _ _ => by simp [valueBounds]

theorem simplify?_ne_none (hjoin : DaysJoin L) (hes : ∀ x ∈ es, IsNormal L x) :
    simplify? c es ≠ none := by
  cases hany : es.any c.isAbsorbing with
  | true => simp [simplify?_of_absorbing hany]
  | false =>
    rw [simplify?_of_not_absorbing hany, ne_eq, Option.map_eq_none_iff]
    have hdropped : ∀ x ∈ c.dropNeutral es, IsNormal L x :=
      fun x hx => hes x (mem_dropNeutral.mp hx).1
    have hexclusions : ∀ x ∈ mergeExclusions c (mergeChoices c (c.dropNeutral es)), IsNormal L x :=
      isNormal_mergeExclusions hjoin.toLeafClosed
        (isNormal_mergeChoices hjoin.toLeafClosed hdropped)
    cases c with
    | or => simp [mergeAll?, mergeBounds?]
    | and =>
      obtain ⟨mid, hmid⟩ := Option.ne_none_iff_exists'.mp (valueBounds_merge?_ne_none
        (mergeExclusions .and (mergeChoices .and (Connective.and.dropNeutral es))))
      have hmidNormal := isNormal_merge? (fun _ _ _ => isNormal_of_valueBounds_joins
        hjoin.toLeafClosed) hmid hexclusions
      obtain ⟨out, hout⟩ :=
        Option.ne_none_iff_exists'.mp (dayBounds_merge?_ne_none hjoin hmidNormal)
      simp [mergeAll?_and_eq_some.mpr ⟨mid, hmid, hout⟩]

/-- A tree whose day bounds can be joined is optimized. -/
theorem optimize?_ne_none (hjoin : DaysJoin L) (hleaves : LeavesIn L e) : optimize? e ≠ none := by
  induction e using treeInduction with
  | base e he => simp [optimize?_base he]
  | operation c es ih =>
    have hall : ∃ out, List.Forall₂ (fun x x' => optimize? x = some x') es out :=
      exists_forall₂ fun x hx => Option.ne_none_iff_exists'.mp (ih x hx (hleaves.operand hx))
    obtain ⟨out, hout⟩ := hall
    have hnormal : ∀ x' ∈ out, IsNormal L x' := by
      intro x' hx'
      obtain ⟨x, hx, hopt⟩ := exists_left_of_forall₂ hout hx'
      exact isNormal_optimize? hjoin.toLeafClosed (hleaves.operand hx) hopt
    obtain ⟨e', he'⟩ : ∃ e', simplify? c out = some e' :=
      Option.ne_none_iff_exists'.mp (simplify?_ne_none hjoin hnormal)
    simp [optimize?_operation_eq_some.mpr ⟨out, hout, he'⟩]
  | mustNot e ih =>
    obtain ⟨e', he'⟩ := Option.ne_none_iff_exists'.mp (ih hleaves.negated)
    simp [optimize?_mustNot_eq_some.mpr ⟨e', he', rfl⟩]

/-! ## What can be seen of a normal tree -/

theorem IsCore.within (h : IsCore L e) (hs : Within s e) : IsCore L s := by
  induction hs with
  | whole => exact h
  | operand hx _ ih =>
    cases h with
    | leaf he => simp [isLeaf] at he
    | operation _ _ h => exact ih (h _ hx)
  | negated _ ih =>
    cases h with
    | leaf he => simp [isLeaf] at he
    | mustNot h => exact ih h

theorem IsNormal.of_operation (h : IsNormal L e) (hs : Within (operation c es) e) :
    2 ≤ es.length ∧ Merged c es := by
  rcases h with h | h
  · have heq := eq_of_within_base (Or.inr h) hs
    simp [← heq, isConstant] at h
  · cases h.within hs with
    | leaf he => simp [isLeaf] at he
    | operation hlength hmerged => exact ⟨hlength, hmerged⟩

/-- No part of the tree can be folded or merged any more. -/
structure IsReduced (e : Expr) : Prop where
  constants : ∀ s, Within s e → s.isConstant = true → s = e
  several : ∀ c es, Within (operation c es) e → 2 ≤ es.length
  choices : ∀ c es, Within (operation c es) e → (fieldsOf choices? es).Nodup
  exclusions : ∀ c es, Within (operation c es) e → (fieldsOf exclusions? es).Nodup
  values : ∀ es, Within (operation .and es) e → ∀ field ≠ fulltextField,
    ∀ (lower : LowerComparison) (upper : UpperComparison) low high phrase phrase',
      value field lower.toComparison low phrase ∈ es →
        value field upper.toComparison high phrase' ∉ es
  days : ∀ es, Within (operation .and es) e → ∀ field ≠ fulltextField,
    ∀ (lower : LowerComparison) (upper : UpperComparison) low high,
      day field lower.toComparison low ∈ es → day field upper.toComparison high ∉ es

theorem IsNormal.isReduced (h : IsNormal L e) : IsReduced e where
  constants s hs hconstant := by
    rcases h with h | h
    · exact eq_of_within_base (Or.inr h) hs
    · rw [(h.within hs).not_isConstant] at hconstant
      contradiction
  several _ _ hs := (h.of_operation hs).1
  choices _ _ hs := (h.of_operation hs).2.choices
  exclusions _ _ hs := (h.of_operation hs).2.exclusions
  values es hs field hfield lower upper low high phrase phrase' hlow hhigh := by
    have hlower : valueBounds.bound? (value field lower.toComparison low phrase) =
        some (.lower field lower low) := valueBounds_eq_lower.mpr ⟨hfield, phrase, rfl⟩
    have hupper : valueBounds.bound? (value field upper.toComparison high phrase') =
        some (.upper field upper high) := valueBounds_eq_upper.mpr ⟨hfield, phrase', rfl⟩
    exact ((h.of_operation hs).2.values rfl).not_both hlow hhigh hlower hupper
  days es hs field hfield lower upper low high hlow hhigh := by
    have hlower : dayBounds.bound? (day field lower.toComparison low) =
        some (.lower field lower low) := dayBounds_eq_lower.mpr ⟨hfield, rfl⟩
    have hupper : dayBounds.bound? (day field upper.toComparison high) =
        some (.upper field upper high) := dayBounds_eq_upper.mpr ⟨hfield, rfl⟩
    exact ((h.of_operation hs).2.days rfl).not_both hlow hhigh hlower hupper

theorem leafClosed_true : LeafClosed fun _ => True :=
  ⟨fun _ _ _ _ => trivial, fun _ _ _ _ _ _ => trivial, fun _ _ _ _ _ _ => trivial,
    fun _ _ _ _ _ _ => trivial⟩

/-- Optimizing reaches a tree that is reduced at every depth. -/
theorem optimize?_isReduced (h : optimize? e = some e') : IsReduced e' :=
  (isNormal_optimize? leafClosed_true (fun _ _ _ => trivial) h).isReduced

/-- Choices that meet only after a constant is dropped and an operation unwrapped are merged. -/
theorem isReduced_and_of_choices :
    optimize? (operation .and [isIn "tag" ⟨.str "a", [.str "b"]⟩, mustNot nothing,
        operation .or [nothing, isIn "tag" ⟨.str "b", []⟩], fulltext "word"]) =
      some (operation .and [isIn "tag" ⟨.str "b", []⟩, fulltext "word"]) ∧
    IsReduced (operation .and [isIn "tag" ⟨.str "b", []⟩, fulltext "word"]) := by
  have h : optimize? (operation .and [isIn "tag" ⟨.str "a", [.str "b"]⟩, mustNot nothing,
        operation .or [nothing, isIn "tag" ⟨.str "b", []⟩], fulltext "word"]) =
      some (operation .and [isIn "tag" ⟨.str "b", []⟩, fulltext "word"]) := by cbv
  exact ⟨h, optimize?_isReduced h⟩

end SearchExpr.Expr
