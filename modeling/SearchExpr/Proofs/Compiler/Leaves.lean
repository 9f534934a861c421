import SearchExpr.Proofs.Calendar.Days
import SearchExpr.Proofs.Compiler.Matching
import SearchExpr.Proofs.Expr.Simplifying
import SearchExpr.Proofs.Outcome

/-! # Compiling sets and bounds

What the leaves that can be merged are compiled to: sets to the values that are sent, bounds to
ranges with one bound, and ranges to both.
-/

namespace SearchExpr

open SearchExpr.Expr

theorem FlatBuilder.supports_select (v : Value) (context : FilterContext) :
    (select v context).supports v context = true := by
  rw [select]
  cases hfind : standard.find? (·.supports v context) with
  | none => rfl
  | some b => exact (List.find?_some hfind :)

namespace FilterBuilder

theorem scope?_eq_some {context : FilterContext} {scope : Field} :
    scope? context = some scope ↔
      context.nestedScope = false ∧ context.field = some scope ∧ scope.isNested = true := by
  unfold scope?
  split
  case isTrue hinside => simp [hinside]
  case isFalse houtside =>
    rw [Bool.not_eq_true] at houtside
    rw [Option.filter_eq_some_iff]
    exact (and_iff_right houtside).symm

/-- A nested field outside its scope is left to the nested filter, all else to one that is not. -/
theorem select_standard (v : Value) (context : FilterContext) :
    select standard v context =
      .ok (if (scope? context).isSome then nested else flat (FlatBuilder.select v context)) := by
  have hfind : standard.find? (·.supports v context) =
      if (scope? context).isSome then some nested
      else (FlatBuilder.standard.find? (·.supports v context)).map flat := by
    rw [standard, List.find?_cons, List.find?_map]
    cases hscope : (scope? context).isSome <;> simp only [supports, hscope] <;> rfl
  obtain ⟨filter, hfilter⟩ : ∃ filter,
      FlatBuilder.standard.find? (·.supports v context) = some filter := by
    rw [← Option.isSome_iff_exists, List.find?_isSome]
    exact ⟨.term, by simp [FlatBuilder.standard], rfl⟩
  rw [select, hfind, hfilter, FlatBuilder.select, hfilter]
  split_ifs <;> rfl

theorem exists_select_standard (v : Value) (context : FilterContext) :
    ∃ b, select standard v context = .ok b :=
  ⟨_, select_standard v context⟩

end FilterBuilder

namespace Compiler

variable {c : Compiler} {m : Mapping} {locale : Option String} {doc : IndexedDocument}
  {field : String} {cs : Choices} {lower : LowerComparison} {upper : UpperComparison}
  {v low high : Value} {phrase : Bool} {d first last : Date} {answer : Option Query}

/-! ## Values as they are sent -/

/-- A value as it is sent if it is compared as it is written, or if it is prepared. -/
def wireAs (c : Compiler) (phrase : Bool) (v : Value) : Except Failure Value := do
  (← v.prepare c.preparers phrase).wire c.zoneKey

/-- The name under which a field is found in the index. -/
def indexName (m : Mapping) (locale : Option String) (field : String) : String :=
  Query.parameterName (m.target locale field).name

theorem compileTree_isIn :
    c.compileTree m locale (isIn field cs) = .ok answer ↔
      ∃ ws, List.Forall₂ (fun v w => c.wireValue v = .ok w) cs.toList ws ∧
        some (.terms (indexName m locale field) ws) = answer := by
  rw [compileTree, map_eq_ok]
  simp only [compileChoices, bind_eq_ok, mapM_eq_ok, pure, Except.pure, Except.ok.injEq]
  constructor
  · rintro ⟨_, ⟨ws, hws, rfl⟩, rfl⟩
    exact ⟨ws, hws, rfl⟩
  · rintro ⟨ws, hws, rfl⟩
    exact ⟨_, ⟨ws, hws, rfl⟩, rfl⟩

theorem prepareValue_eq_ok (hbuilders : c.builders = FilterBuilder.standard) (target : Target)
    {w : Value} :
    (∃ p, c.prepareValue target v phrase = .ok p ∧ p.target = target ∧ p.wire = w) ↔
      c.wireAs phrase v = .ok w := by
  simp only [prepareValue, dispatch, wireAs, bind_eq_ok, hbuilders, pure, Except.pure,
    Except.ok.injEq]
  constructor
  · rintro ⟨_, ⟨prepared, hprepared, builder, hbuilder, wire, hwire, rfl⟩, -, rfl⟩
    exact ⟨prepared, hprepared, hwire⟩
  · rintro ⟨prepared, hprepared, hwire⟩
    obtain ⟨builder, hbuilder⟩ := FilterBuilder.exists_select_standard prepared _
    exact ⟨_, ⟨prepared, hprepared, builder, hbuilder, w, hwire, rfl⟩, rfl, rfl⟩

theorem prepareValue_target {target : Target} {p : PreparedValue}
    (h : c.prepareValue target v phrase = .ok p) : p.target = target := by
  simp only [prepareValue, dispatch, bind_eq_ok, pure, Except.pure, Except.ok.injEq] at h
  obtain ⟨_, _, _, _, _, _, rfl⟩ := h
  rfl

/-- A bound is compiled to a range with that bound. -/
theorem compileTree_bound (hbuilders : c.builders = FilterBuilder.standard)
    (hfield : field ≠ fulltextField) {comparison : Comparison} {key : RangeKey}
    (hquery : ∀ p : PreparedValue, p.query comparison = .ok (p.bounded key)) :
    c.compileTree m locale (value field comparison v phrase) = .ok answer ↔
      ∃ w, c.wireAs phrase v = .ok w ∧
        some (.range (indexName m locale field) [(key, w)]) = answer := by
  simp only [compileTree, if_neg hfield, map_eq_ok, compileValue, bind_eq_ok, hquery,
    Except.ok.injEq, ← prepareValue_eq_ok hbuilders (m.target locale field)]
  constructor
  · rintro ⟨_, ⟨p, hp, rfl⟩, rfl⟩
    refine ⟨p.wire, ⟨p, hp, prepareValue_target hp, rfl⟩, ?_⟩
    rw [PreparedValue.bounded, prepareValue_target hp]
    rfl
  · rintro ⟨_, ⟨p, hp, htarget, rfl⟩, rfl⟩
    refine ⟨_, ⟨p, hp, rfl⟩, ?_⟩
    rw [PreparedValue.bounded, htarget]
    rfl

theorem compileTree_lower (hbuilders : c.builders = FilterBuilder.standard)
    (hfield : field ≠ fulltextField) :
    c.compileTree m locale (value field lower.toComparison v phrase) = .ok answer ↔
      ∃ w, c.wireAs phrase v = .ok w ∧
        some (.range (indexName m locale field) [(lowerKey lower, w)]) = answer :=
  compileTree_bound hbuilders hfield fun _ => by cases lower <;> rfl

theorem compileTree_upper (hbuilders : c.builders = FilterBuilder.standard)
    (hfield : field ≠ fulltextField) :
    c.compileTree m locale (value field upper.toComparison v phrase) = .ok answer ↔
      ∃ w, c.wireAs phrase v = .ok w ∧
        some (.range (indexName m locale field) [(upperKey upper, w)]) = answer :=
  compileTree_bound hbuilders hfield fun _ => by cases upper <;> rfl

theorem compileTree_range :
    c.compileTree m locale (range field lower low upper high) = .ok answer ↔
      ∃ a b, c.wireAs false low = .ok a ∧ c.wireAs false high = .ok b ∧
        some (.range (indexName m locale field) [(lowerKey lower, a), (upperKey upper, b)]) =
          answer := by
  simp only [compileTree, map_eq_ok, compileRange, bind_eq_ok, pure, Except.pure,
    Except.ok.injEq]
  constructor
  · rintro ⟨_, ⟨a, ha, b, hb, rfl⟩, rfl⟩
    exact ⟨a, b, ha, hb, rfl⟩
  · rintro ⟨a, b, ha, hb, rfl⟩
    exact ⟨_, ⟨a, ha, b, hb, rfl⟩, rfl⟩

/-! ## Days -/

/-- The instant at which a day begins, as it is sent. -/
def dayStart (c : Compiler) (d : Date) : Except Failure Value :=
  (d.startIn c.zoneKey).map fun start => .str start.isoText

theorem daySpan_eq_ok {a b : Value} :
    c.daySpan first last = .ok (a, b) ↔
      c.dayStart first = .ok a ∧ ∃ next, last.next? = some next ∧ c.dayStart next = .ok b := by
  simp only [daySpan, dayStart, bind_eq_ok, map_eq_ok, pure, Except.pure, Except.ok.injEq,
    Prod.mk.injEq]
  constructor
  · rintro ⟨start, hstart, stop, hstop, rfl, rfl⟩
    refine ⟨⟨start, hstart, rfl⟩, ?_⟩
    cases hnext : last.next? with
    | none => simp [Date.endIn, hnext] at hstop
    | some next => exact ⟨next, rfl, stop, by simpa [Date.endIn, hnext] using hstop, rfl⟩
  · rintro ⟨⟨start, hstart, rfl⟩, next, hnext, stop, hstop, rfl⟩
    exact ⟨start, hstart, stop, by simpa [Date.endIn, hnext] using hstop, rfl, rfl⟩

theorem compileTree_day {comparison : Comparison} (hne : comparison ≠ .ne) :
    c.compileTree m locale (day field comparison d) = .ok answer ↔
      ∃ start stop bounds, c.daySpan d d = .ok (start, stop) ∧
        dayBounds? start stop comparison = some bounds ∧
        some (.range (indexName m locale field) bounds) = answer := by
  simp only [compileTree, map_eq_ok, compileDay, bind_eq_ok, Prod.exists]
  constructor
  · rintro ⟨q, ⟨start, stop, hspan, h⟩, rfl⟩
    cases hbounds : dayBounds? start stop comparison with
    | none => simp [hbounds, throw, throwThe, MonadExceptOf.throw] at h
    | some bounds =>
      simp only [hbounds, if_neg hne, pure, Except.pure, Except.ok.injEq] at h
      exact ⟨start, stop, bounds, hspan, hbounds, congrArg some h⟩
  · rintro ⟨start, stop, bounds, hspan, hbounds, rfl⟩
    refine ⟨_, ⟨start, stop, hspan, ?_⟩, rfl⟩
    simp only [hbounds, if_neg hne]
    rfl

/-- A lower bound asks for instants from the first day that meets it. -/
theorem compileTree_day_lower
    (h : c.compileTree m locale (day field lower.toComparison d) = .ok answer) :
    ∃ first a, firstDay? lower d = some first ∧ c.dayStart first = .ok a ∧
      some (.range (indexName m locale field) [(.gte, a)]) = answer := by
  obtain ⟨start, stop, bounds, hspan, hbounds, rfl⟩ :=
    (compileTree_day (by cases lower <;> simp [LowerComparison.toComparison])).mp h
  obtain ⟨hstart, next, hnext, hstop⟩ := daySpan_eq_ok.mp hspan
  cases lower with
  | ge =>
    obtain rfl := Option.some.inj hbounds
    exact ⟨d, start, rfl, hstart, rfl⟩
  | gt =>
    obtain rfl := Option.some.inj hbounds
    exact ⟨next, stop, hnext, hstop, rfl⟩

/-- An upper bound asks for instants before the day after the last one that meets it. -/
theorem compileTree_day_upper
    (h : c.compileTree m locale (day field upper.toComparison d) = .ok answer) :
    ∃ after b, (∀ last, lastDay? upper d = some last → last.next? = some after) ∧
      c.dayStart after = .ok b ∧
      some (.range (indexName m locale field) [(.lt, b)]) = answer := by
  obtain ⟨start, stop, bounds, hspan, hbounds, rfl⟩ :=
    (compileTree_day (by cases upper <;> simp [UpperComparison.toComparison])).mp h
  obtain ⟨hstart, next, hnext, hstop⟩ := daySpan_eq_ok.mp hspan
  cases upper with
  | le =>
    obtain rfl := Option.some.inj hbounds
    refine ⟨next, stop, fun last hlast => ?_, hstop, rfl⟩
    rwa [← Option.some.inj hlast]
  | lt =>
    obtain rfl := Option.some.inj hbounds
    refine ⟨d, start, fun last hlast => ?_, hstart, rfl⟩
    exact Date.next?_eq_some.mpr (Date.previous?_eq_some.mp hlast).symm

theorem compileTree_dayRange :
    c.compileTree m locale (dayRange field first last) = .ok answer ↔
      ∃ a next b, c.dayStart first = .ok a ∧ last.next? = some next ∧
        c.dayStart next = .ok b ∧
        some (.range (indexName m locale field) [(.gte, a), (.lt, b)]) = answer := by
  simp only [compileTree, map_eq_ok, compileDayRange, bind_eq_ok, Prod.exists, daySpan_eq_ok,
    pure, Except.pure, Except.ok.injEq]
  constructor
  · rintro ⟨_, ⟨a, b, ⟨ha, next, hnext, hb⟩, rfl⟩, rfl⟩
    exact ⟨a, next, b, ha, hnext, hb, rfl⟩
  · rintro ⟨a, next, b, ha, hnext, hb, rfl⟩
    exact ⟨_, ⟨a, b, ⟨ha, next, hnext, hb⟩, rfl⟩, rfl⟩

end Compiler

end SearchExpr
