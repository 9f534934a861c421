import SearchExpr.Proofs.Compiler.Leaves
import SearchExpr.Proofs.Compiler.Reading

/-! # Queries for leaves

The forms of the queries that conditions on one field are compiled to. Only equality is left to the
filters, of which the usual ones build one query, in the scope of a nested field if there is one.
-/

namespace SearchExpr

/-- Comparisons with whole values by a pattern. -/
def Comparison.isPattern : Comparison → Bool
  | startsWith | endsWith | wildcard => true
  | _ => false

namespace FilterBuilder

variable {b : FilterBuilder} {v : Value} {context : FilterContext} {scope : Field} {name : String}
  {q : Query}

/-- The filter that is chosen builds the query of one that is not nested, which is put in the scope
of a nested field. -/
theorem exists_flat_build (hselect : select standard v context = .ok b)
    (h : b.build name v context = .ok q) :
    ∃ inner q', (FlatBuilder.select v inner).build name v inner = .ok q' ∧
      q = (scope? context).elim q' fun scope => .nested scope.name q' := by
  rw [select_standard] at hselect
  obtain rfl := Except.ok.inj hselect
  cases hscope : scope? context with
  | none =>
    simp only [hscope, Option.isSome_none, Bool.false_eq_true, if_false] at h
    exact ⟨context, q, h, rfl⟩
  | some scope =>
    have hfield : context.field = some scope := (scope?_eq_some.mp hscope).2.1
    simp only [hscope, Option.isSome_some, if_true, build, hfield, buildNested, map_eq_ok] at h
    obtain ⟨q', hq', rfl⟩ := h
    exact ⟨_, q', hq', rfl⟩

end FilterBuilder

namespace Compiler

open SearchExpr.Expr

variable {c : Compiler} {m : Mapping} {locale : Option String} {target : Target} {v : Value}
  {phrase : Bool} {p : PreparedValue} {e : Expr} {field : String} {answer : Option Query}
  {comparison : Comparison} {q : Query}

/-- A value has been prepared for the comparison with a field, and a filter chosen for it. -/
structure Prepares (c : Compiler) (target : Target) (v : Value) (phrase : Bool)
    (p : PreparedValue) : Prop where
  sameTarget : p.target = target
  value : v.prepare c.preparers phrase = .ok p.value
  field : p.context.field = target.field
  outside : p.context.nestedScope = false
  builder : FilterBuilder.select c.builders p.value p.context = .ok p.builder

theorem prepares_of_prepareValue (h : c.prepareValue target v phrase = .ok p) :
    c.Prepares target v phrase p := by
  simp only [prepareValue, dispatch, bind_eq_ok, pure, Except.pure, Except.ok.injEq] at h
  obtain ⟨value, hvalue, builder, hbuilder, wire, hwire, rfl⟩ := h
  exact ⟨rfl, hvalue, rfl, rfl, hbuilder⟩

theorem exists_of_pattern {patternFor : String → String}
    (h : p.pattern comparison patternFor = .ok q) :
    ∃ text, q = .wildcardOn (keywordName p.target.field p.target.name p.value) text := by
  unfold PreparedValue.pattern at h
  split at h
  case isTrue =>
    obtain ⟨text, -, rfl⟩ := map_eq_ok.mp h
    exact ⟨patternFor text, rfl⟩
  case isFalse => cases h

/-- What conditions on a field are compiled to. -/
inductive LeafQuery (c : Compiler) (target : Target) : Expr → Query → Prop where
  | equal {field : String} {v : Value} {phrase : Bool} {p : PreparedValue} {q : Query}
    (hp : c.Prepares target v phrase p) (hq : p.equality = .ok q) :
    LeafQuery c target (.value field .eq v phrase) q
  | unequal {field : String} {v : Value} {phrase : Bool} {p : PreparedValue} {q : Query}
    (hp : c.Prepares target v phrase p) (hq : p.equality = .ok q) :
    LeafQuery c target (.value field .ne v phrase) q.not
  | text {field : String} {comparison : Comparison} {v : Value} {phrase : Bool} (text : String)
    (hcomparison : comparison = .like ∨ comparison = .notLike) :
    LeafQuery c target (.value field comparison v phrase)
      (.queryString text [target.name] none false)
  | pattern {field : String} {comparison : Comparison} {v : Value} {phrase : Bool}
    {p : PreparedValue} (pattern : String) (hp : c.Prepares target v phrase p)
    (hcomparison : comparison.isPattern = true) :
    LeafQuery c target (.value field comparison v phrase)
      (.wildcardOn (keywordName target.field target.name p.value) pattern)
  | bound {field : String} {comparison : Comparison} {v : Value} {phrase : Bool}
    (bounds : List (RangeKey × Value))
    (hcomparison : comparison.lower?.isSome = true ∨ comparison.upper?.isSome = true) :
    LeafQuery c target (.value field comparison v phrase) (.rangeOn target.name bounds)
  | choices {field : String} {cs : Choices} (values : List Value) :
    LeafQuery c target (.isIn field cs) (.termsOn target.name values)
  | range {field : String} {lower : LowerComparison} {low : Value} {upper : UpperComparison}
    {high : Value} (bounds : List (RangeKey × Value)) :
    LeafQuery c target (.range field lower low upper high) (.rangeOn target.name bounds)
  | day {field : String} {comparison : Comparison} {d : Date} (bounds : List (RangeKey × Value)) :
    LeafQuery c target (.day field comparison d) (.rangeOn target.name bounds)
  | otherDay {field : String} {d : Date} (bounds : List (RangeKey × Value)) :
    LeafQuery c target (.day field .ne d) (Query.rangeOn target.name bounds).not
  | dayRange {field : String} {first last : Date} (bounds : List (RangeKey × Value)) :
    LeafQuery c target (.dayRange field first last) (.rangeOn target.name bounds)

theorem leafQuery_of_compileValue (h : c.compileValue target comparison v phrase = .ok q) :
    LeafQuery c target (.value field comparison v phrase) q := by
  rw [compileValue, bind_eq_ok] at h
  obtain ⟨p, hprepare, hq⟩ := h
  have hp := prepares_of_prepareValue hprepare
  have hpattern : ∀ {patternFor : String → String}, comparison.isPattern = true →
      p.pattern comparison patternFor = .ok q →
      LeafQuery c target (.value field comparison v phrase) q := by
    intro patternFor hcomparison hq
    obtain ⟨text, rfl⟩ := exists_of_pattern hq
    rw [hp.sameTarget]
    exact .pattern text hp hcomparison
  cases comparison
  case eq => exact .equal hp hq
  case ne =>
    obtain ⟨q', hq', rfl⟩ := map_eq_ok.mp hq
    exact .unequal hp hq'
  case like | notLike =>
    obtain ⟨text, -, rfl⟩ := map_eq_ok.mp hq
    rw [PreparedValue.textQuery, hp.sameTarget]
    exact .text _ (by simp)
  case gt | ge | lt | le =>
    obtain rfl := Except.ok.inj hq
    rw [PreparedValue.bounded, hp.sameTarget]
    exact .bound _ (by simp [Comparison.lower?, Comparison.upper?])
  case startsWith | endsWith | wildcard => exact hpattern rfl hq

theorem leafQuery_of_compileDay {d : Date} (h : c.compileDay target comparison d = .ok q) :
    LeafQuery c target (.day field comparison d) q := by
  simp only [compileDay, bind_eq_ok, Prod.exists] at h
  obtain ⟨start, stop, -, h⟩ := h
  split at h
  case h_1 => cases h
  case h_2 bounds hbounds =>
    obtain rfl := Except.ok.inj h
    split
    case isTrue hne => exact hne ▸ .otherDay bounds
    case isFalse => exact .day bounds

/-- A condition on a field is compiled to a query of one of these forms, if to anything. -/
theorem leafQuery_of_compile (hfield : e.field? = some field) (htext : field ≠ fulltextField)
    (h : c.compile m locale e = .ok answer) :
    ∃ q, answer = some q ∧ LeafQuery c (m.target locale field) e q := by
  rw [compile_leaf c m locale (isLeaf_of_field? hfield)] at h
  cases e <;> cases hfield
  case value comparison v phrase =>
    rw [compileTree, if_neg htext, map_eq_ok] at h
    obtain ⟨q, hq, rfl⟩ := h
    exact ⟨q, rfl, leafQuery_of_compileValue hq⟩
  case isIn cs =>
    obtain ⟨values, -, rfl⟩ := compileTree_isIn.mp h
    exact ⟨_, rfl, .choices values⟩
  case range lower low upper high =>
    obtain ⟨a, b, -, -, rfl⟩ := compileTree_range.mp h
    exact ⟨_, rfl, .range _⟩
  case dayRange first last =>
    obtain ⟨a, -, b, -, -, -, rfl⟩ := compileTree_dayRange.mp h
    exact ⟨_, rfl, .dayRange _⟩
  case day comparison d =>
    rw [compileTree, map_eq_ok] at h
    obtain ⟨q, hq, rfl⟩ := h
    exact ⟨q, rfl, leafQuery_of_compileDay hq⟩

end Compiler

end SearchExpr
