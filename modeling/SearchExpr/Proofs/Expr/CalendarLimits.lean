import SearchExpr.Proofs.Calendar.Days
import SearchExpr.Proofs.Criteria.Conversion
import SearchExpr.Proofs.Expr.NormalForm

/-! # Optimizing at the ends of the calendar

Two bounds on a day are joined to the first and the last day that meet them. A bound after the last
day of the calendar, or before its first day, is met by no day, and an operation in which it has a
counterpart cannot be optimized. Nothing else keeps a tree from being optimized.
-/

namespace SearchExpr

namespace Expr

variable {c : Connective} {es out mid : List Expr} {e s x : Expr} {field : String}
  {lower : LowerComparison} {upper : UpperComparison} {d low high : Date}

/-! ## Bounds that no day meets -/

theorem firstDay?_eq_none : firstDay? lower d = none ↔ lower = .gt ∧ d = Date.latest := by
  cases lower with
  | ge => simp [firstDay?]
  | gt => simp [firstDay?, Date.next?_eq_none]

theorem lastDay?_eq_none : lastDay? upper d = none ↔ upper = .lt ∧ d = Date.earliest := by
  cases upper with
  | le => simp [lastDay?]
  | lt => simp [lastDay?, Date.previous?_eq_none]

theorem dayBounds_join_eq_none :
    dayBounds.join field lower low upper high = none ↔
      lower = .gt ∧ low = Date.latest ∨ upper = .lt ∧ high = Date.earliest := by
  rw [← firstDay?_eq_none, ← lastDay?_eq_none]
  cases hfirst : firstDay? lower low <;> cases hlast : lastDay? upper high <;>
    simp [dayBounds, hfirst, hlast]

/-- On some field, a lower and an upper day bound have the same number among those of their side,
and no day meets one of the two. -/
def LeavesCalendar (es : List Expr) : Prop :=
  ∃ field, ∃ k : Nat, ∃ lower low upper high,
    (es.filterMap (dayBounds.lowerOn? field))[k]? = some (lower, low) ∧
      (es.filterMap (dayBounds.upperOn? field))[k]? = some (upper, high) ∧
        (lower = .gt ∧ low = Date.latest ∨ upper = .lt ∧ high = Date.earliest)

theorem dayBounds_merge?_eq_none : dayBounds.merge? es = none ↔ LeavesCalendar es := by
  rw [BoundForm.merge?_eq_none_iff]
  simp only [dayBounds_join_eq_none]
  rfl

/-! ## Simplifying -/

/-- What is read off day bounds only is there to be read when these are merged. -/
theorem filterMap_dayBounds_eq {β : Type} {g : Expr → Option β}
    (hg : ∀ e, dayBounds.bound? e = none → g e = none)
    (h : valueBounds.merge? (mergeExclusions c (mergeChoices c (c.dropNeutral es))) = some mid) :
    mid.filterMap g = es.filterMap g := by
  have hvalue : ∀ x, valueBounds.bound? x ≠ none → g x = none := by
    intro x hx
    refine hg x ?_
    cases x <;> simp [valueBounds, dayBounds] at hx ⊢
  have hrange : ∀ x z y, valueBounds.Joins x z y → g y = none := by
    intro x z y hjoins
    obtain ⟨_, _, _, _, _, _, _, -, rfl, -⟩ := valueBounds_joins hjoins
    exact hg _ rfl
  rw [BoundForm.filterMap_merge? hvalue hrange h,
    filterMap_mergeSets (fun _ _ => ⟨hg _ rfl, hg _ rfl⟩) ⟨hg _ rfl, hg _ rfl⟩,
    filterMap_dropNeutral (hg _ rfl) (by cases c <;> exact hg _ rfl)]

theorem leavesCalendar_iff_of_merged
    (h : valueBounds.merge? (mergeExclusions c (mergeChoices c (c.dropNeutral es))) = some mid) :
    LeavesCalendar mid ↔ LeavesCalendar es := by
  have hlower (field : String) : mid.filterMap (dayBounds.lowerOn? field) =
      es.filterMap (dayBounds.lowerOn? field) :=
    filterMap_dayBounds_eq (fun e he => by rw [BoundForm.lowerOn?, he]) h
  have hupper (field : String) : mid.filterMap (dayBounds.upperOn? field) =
      es.filterMap (dayBounds.upperOn? field) :=
    filterMap_dayBounds_eq (fun e he => by rw [BoundForm.upperOn?, he]) h
  simp only [LeavesCalendar, hlower, hupper]

/-- An operation that is not decided cannot be simplified if its day bounds leave the calendar. -/
theorem simplify?_eq_none_iff :
    simplify? c es = none ↔ c = .and ∧ nothing ∉ es ∧ LeavesCalendar es := by
  cases hany : es.any c.isAbsorbing with
  | true =>
    rw [simplify?_of_absorbing hany]
    simp only [reduceCtorEq, false_iff, not_and]
    rintro rfl hnothing
    exact absurd (any_isAbsorbing_iff.mp hany) hnothing
  | false =>
    rw [simplify?_of_not_absorbing hany, Option.map_eq_none_iff]
    rw [← Bool.not_eq_true, any_isAbsorbing_iff] at hany
    cases c with
    | or => simp [mergeAll?, mergeBounds?]
    | and =>
      -- Value bounds can always be joined, so the merging fails with the day bounds or not at all.
      obtain ⟨mid, hmid⟩ := Option.ne_none_iff_exists'.mp (valueBounds_merge?_ne_none
        (mergeExclusions .and (mergeChoices .and (Connective.and.dropNeutral es))))
      have hmerge : mergeAll? .and (Connective.and.dropNeutral es) = dayBounds.merge? mid := by
        rw [mergeAll?, mergeBounds?, hmid, Option.bind_some]
      rw [hmerge, dayBounds_merge?_eq_none, leavesCalendar_iff_of_merged hmid]
      simp only [true_and]
      exact (and_iff_right hany).symm

/-! ## Optimizing -/

/-- Somewhere in a tree, day bounds leave the calendar once the operands around them are optimized,
and none of these is false. -/
def MeetsEnd (e : Expr) : Prop :=
  ∃ es out, Within (operation .and es) e ∧
    List.Forall₂ (fun x x' => optimize? x = some x') es out ∧ nothing ∉ out ∧ LeavesCalendar out

theorem meetsEnd_operation :
    MeetsEnd (operation c es) ↔ (∃ x ∈ es, MeetsEnd x) ∨
      ∃ out, List.Forall₂ (fun x x' => optimize? x = some x') es out ∧
        c = .and ∧ nothing ∉ out ∧ LeavesCalendar out := by
  constructor
  · rintro ⟨es', out, hs, h⟩
    rcases within_operation.mp hs with heq | ⟨x, hx, hs⟩
    · cases heq
      exact Or.inr ⟨out, h.1, rfl, h.2⟩
    · exact Or.inl ⟨x, hx, es', out, hs, h⟩
  · rintro (⟨x, hx, es', out, hs, h⟩ | ⟨out, hout, rfl, h⟩)
    · exact ⟨es', out, .operand hx hs, h⟩
    · exact ⟨es, out, .whole, hout, h⟩

theorem meetsEnd_mustNot : MeetsEnd (mustNot e) ↔ MeetsEnd e := by
  simp only [MeetsEnd, within_mustNot, reduceCtorEq, false_or]

theorem not_meetsEnd_base (he : e.isLeaf = true ∨ e.isConstant = true) : ¬ MeetsEnd e := by
  rintro ⟨es, out, hs, -⟩
  rw [← eq_of_within_base he hs] at he
  simp [isLeaf, isConstant] at he

theorem optimize?_eq_none_iff : optimize? e = none ↔ MeetsEnd e := by
  induction e using treeInduction with
  | base e he => simp [optimize?_base he, not_meetsEnd_base he]
  | operation c es ih =>
    rw [optimize?_operation_eq_none, meetsEnd_operation]
    simp only [simplify?_eq_none_iff]
    exact or_congr (exists_congr fun x => and_congr_right fun hx => ih x hx) Iff.rfl
  | mustNot e ih => rw [meetsEnd_mustNot, ← ih, optimize?, Option.map_eq_none_iff]

/-! ## Criteria -/

/-- A leaf that is no comparison of a day with another one. -/
def IsTimeless (e : Expr) : Prop :=
  ∀ field comparison d, e ≠ day field comparison d

theorem daysJoin_isTimeless : DaysJoin IsTimeless where
  union _ _ _ _ _ _ _ := by simp
  common _ _ _ _ _ _ _ _ _ := by simp
  range _ _ _ hjoins _ _ _ _ _ := by
    obtain ⟨_, _, _, _, _, _, _, -, rfl, -⟩ := valueBounds_joins hjoins
    simp
  dayRange _ _ _ hjoins _ _ _ _ _ := by
    obtain ⟨_, _, _, _, _, _, _, -, -, -, rfl, -⟩ := dayBounds_joins hjoins
    simp
  joins field lower _ low _ _ hlower _ := absurd rfl (hlower field lower.toComparison low)

end Expr

open SearchExpr.Expr

namespace Criteria

variable {q : Criteria} {e : Expr} {es : List Expr} {key : String} {v : Value}

theorem leavesIn_filterExpr (h : filterExpr key v = .ok e) : LeavesIn IsTimeless e := by
  rcases filterExpr_eq_ok h with ⟨field, comparison, phrase, rfl⟩ | ⟨field, choices, rfl | rfl⟩
  · exact leavesIn_of_isLeaf (by simp [IsTimeless]) rfl
  · exact leavesIn_of_isLeaf (by simp [IsTimeless]) rfl
  · exact leavesIn_mustNot.mpr (leavesIn_of_isLeaf (by simp [IsTimeless]) rfl)

theorem leavesIn_conjunction (h : ∀ x ∈ es, LeavesIn IsTimeless x) :
    LeavesIn IsTimeless (conjunction es) := by
  match es with
  | [] => exact leavesIn_of_isConstant rfl
  | [x] => exact h x List.mem_cons_self
  | x :: x' :: es => exact leavesIn_operation.mpr h

theorem leavesIn_negateIf {negated : Bool} (h : LeavesIn IsTimeless e) :
    LeavesIn IsTimeless (negateIf negated e) := by
  cases negated with
  | true => exact leavesIn_mustNot.mpr h
  | false => exact h

theorem leavesIn_toExpr (h : q.toExpr = .ok e) : LeavesIn IsTimeless e := by
  induction q generalizing e with
  | filters fs negated =>
    rw [toExpr_filters, map_eq_ok] at h
    obtain ⟨es, hes, rfl⟩ := h
    refine leavesIn_negateIf (leavesIn_conjunction fun x hx => ?_)
    obtain ⟨f, -, hf⟩ := exists_left_of_forall₂ (mapM_eq_ok.mp hes) hx
    exact leavesIn_filterExpr hf
  | joined connective a b negated iha ihb =>
    simp only [toExpr, bind_eq_ok, pure, Except.pure, Except.ok.injEq] at h
    obtain ⟨x, hx, y, hy, rfl⟩ := h
    refine leavesIn_negateIf (leavesIn_operation.mpr ?_)
    simp only [List.mem_cons, List.not_mem_nil, or_false]
    rintro z (rfl | rfl)
    · exact iha hx
    · exact ihb hy
  | foreign => simp [toExpr] at h

end Criteria

namespace Expr

/-- A tree is optimized unless its day bounds leave the calendar, which those of criteria do not. -/
theorem optimize?_fails_iff (e : Expr) :
    (optimize? e = none ↔ MeetsEnd e) ∧
      ∀ q : Criteria, q.toExpr = .ok e → ∃ e', optimize? e = some e' := by
  refine ⟨optimize?_eq_none_iff, fun q hq => ?_⟩
  exact Option.ne_none_iff_exists'.mp
    (optimize?_ne_none daysJoin_isTimeless (Criteria.leavesIn_toExpr hq))

/-- In criteria, the last day of the calendar is a value as others are. -/
theorem exists_optimize?_of_criteria :
    let q : Criteria := .filters [("on__gt", .date .latest), ("on__lte", .date .latest)] false
    let e := operation .and
      [value "on" .gt (.date .latest) false, value "on" .le (.date .latest) false]
    q.toExpr = .ok e ∧ ∃ e', optimize? e = some e' := by
  intro q e
  have hq : q.toExpr = .ok e := rfl
  exact ⟨hq, (optimize?_fails_iff e).2 q hq⟩

/-- Two bounds on a day, as they are described, of which one is after the last day. -/
theorem optimize?_eq_none_of_latest :
    let e := operation .and [day "on" .gt .latest, day "on" .le .latest]
    (ofDescription e.description).toExcept = .ok e ∧ optimize? e = none := by
  intro e
  have hmeets : MeetsEnd e :=
    ⟨_, [day "on" .gt .latest, day "on" .le .latest], .whole, .cons rfl (.cons rfl .nil), by simp,
      "on", 0, .gt, .latest, .le, .latest, rfl, rfl, Or.inl ⟨rfl, rfl⟩⟩
  exact ⟨rfl, optimize?_eq_none_iff.mpr hmeets⟩

end Expr

end SearchExpr
