import Mathlib.Logic.Relation
import SearchExpr.Compiler.Tree
import SearchExpr.Proofs.Expr.Interchange

/-! # Spellings of one condition

Some conditions can be written in two ways. Neither the optimizer nor the compiler tells them
apart, wherever in a tree they stand.
-/

namespace SearchExpr

namespace Expr

/-- The second condition is another spelling of the first one. -/
inductive Spelling : Expr → Expr → Prop where
  | unequal (field : String) (v : Value) (phrase : Bool) :
    Spelling (value field .ne v phrase) (mustNot (value field .eq v phrase))
  | otherDay (field : String) (d : Date) : Spelling (day field .ne d) (mustNot (day field .eq d))
  | fulltext (text : String) (phrase : Bool) :
    Spelling (fulltext text) (value fulltextField .eq (.str text) phrase)
  | onDay (field : String) (d : Date) : Spelling (day field .eq d) (dayRange field d d)

/-- A tree with other spellings for any number of its conditions. -/
def Respelled : Expr → Expr → Prop :=
  Relation.ReflTransGen fun t t' => ∃ s s', Spelling s s' ∧ Replaced s s' t t'

variable {s s' : Expr}

theorem Spelling.isPlain (h : Spelling s s') : IsPlain s ∧ IsPlain s' := by
  cases h <;> constructor <;> constructor <;>
    simp [isConstant, choices?, exclusions?, valueBounds, dayBounds, boundOf?, Comparison.lower?,
      Comparison.upper?]

theorem Spelling.optimize?_eq (h : Spelling s s') :
    optimize? s = some s ∧ optimize? s' = some s' := by
  cases h <;> exact ⟨rfl, rfl⟩

end Expr

/-! ## Compiling two spellings -/

theorem FulltextBuilder.buildText_ne (b : FulltextBuilder) (text : String) :
    b.buildText text Comparison.ne.word = (b.buildText text Comparison.eq.word).map .not := by
  have hword : (Comparison.eq.word == Comparison.ne.word) = false := by decide
  simp only [buildText, beq_self_eq_true, hword, Bool.false_eq_true, if_true, if_false,
    apply_ite (Option.map Query.not), Option.map_none, Option.map_some]

theorem FulltextBuilder.build_ne (b : FulltextBuilder) (v : Value) :
    b.build v Comparison.ne.word = (b.build v Comparison.eq.word).map (Option.map .not) := by
  rw [build, build]
  cases textFor v with
  | ok text => exact congrArg Except.ok (b.buildText_ne text)
  | error failure => rfl

namespace Compiler

open SearchExpr.Expr

variable {c : Compiler} {m : Mapping} {locale : Option String} {es out : List Expr}
  {s s' t t' : Expr}

theorem compileValue_ne (c : Compiler) (target : Target) (v : Value) (phrase : Bool) :
    c.compileValue target .ne v phrase = (c.compileValue target .eq v phrase).map .not := by
  rw [compileValue, compileValue]
  cases c.prepareValue target v phrase <;> rfl

theorem compileDay_ne (c : Compiler) (target : Target) (d : Date) :
    c.compileDay target .ne d = (c.compileDay target .eq d).map .not := by
  rw [compileDay, compileDay]
  cases c.daySpan d d <;> rfl

theorem compileDay_eq (c : Compiler) (target : Target) (d : Date) :
    c.compileDay target .eq d = c.compileDayRange target d d := by
  rw [compileDay, compileDayRange]
  cases c.daySpan d d <;> rfl

theorem compileTree_spelling (h : Spelling s s') :
    c.compileTree m locale s' = c.compileTree m locale s := by
  cases h with
  | unequal field v phrase =>
    rw [compileTree, compileTree, compileTree]
    split
    case isTrue => exact (c.fulltext.build_ne v).symm
    case isFalse =>
      rw [compileValue_ne]
      cases c.compileValue (m.target locale field) .eq v phrase <;> rfl
  | otherDay field d =>
    rw [compileTree, compileTree, compileTree, compileDay_ne]
    cases c.compileDay (m.target locale field) .eq d <;> rfl
  | fulltext text phrase => rw [compileTree, compileTree, if_pos rfl]
  | onDay field d => rw [compileTree, compileTree, compileDay_eq]

/-! ## Compiling two spellings of a tree -/

/-- Equal trees, or conditions that no rule looks at and that are compiled alike. -/
def CompiledAlike (c : Compiler) (m : Mapping) (locale : Option String) (e e' : Expr) : Prop :=
  e = e' ∨ IsPlain e ∧ IsPlain e' ∧ c.compileTree m locale e' = c.compileTree m locale e

theorem CompiledAlike.compileTree_eq (h : CompiledAlike c m locale s s') :
    c.compileTree m locale s' = c.compileTree m locale s := by
  rcases h with rfl | ⟨-, -, h⟩
  · rfl
  · exact h

theorem CompiledAlike.isEmpty_eq (h : CompiledAlike c m locale s s') : s'.isEmpty = s.isEmpty := by
  rcases h with rfl | ⟨hs, hs', -⟩
  · rfl
  · rw [hs.isEmpty, hs'.isEmpty]

theorem all_isEmpty_eq_of_alike (h : List.Forall₂ (CompiledAlike c m locale) es out) :
    out.all (·.isEmpty) = es.all (·.isEmpty) := by
  induction h with
  | nil => rfl
  | cons hxy _ ih => rw [List.all_cons, List.all_cons, hxy.isEmpty_eq, ih]

theorem compileEach_eq_of_alike (h : List.Forall₂ (CompiledAlike c m locale) es out) :
    c.compileEach m locale out = c.compileEach m locale es := by
  induction h with
  | nil => rfl
  | cons hxy _ ih => rw [compileEach, compileEach, hxy.compileTree_eq, ih]

theorem interchange_compiledAlike (c : Compiler) (m : Mapping) (locale : Option String) :
    Interchange (CompiledAlike c m locale) where
  refl _ := Or.inl rfl
  operation h := by
    refine Or.inr ⟨.operation _ _, .operation _ _, ?_⟩
    rw [compileTree, compileTree, all_isEmpty_eq_of_alike h, compileEach_eq_of_alike h]
  mustNot h := by
    rcases h with rfl | ⟨hx, hy, h⟩
    · exact Or.inl rfl
    · exact Or.inr ⟨hx.mustNot, hy.mustNot, by rw [compileTree, compileTree, h]⟩
  eq_or_plain h := h.imp_right fun h => ⟨h.1, h.2.1⟩

theorem compile_of_replaced (hs : Spelling s s') (h : Replaced s s' t t') :
    c.compile m locale t' = c.compile m locale t := by
  have hR := interchange_compiledAlike c m locale
  have hleaf : CompiledAlike c m locale s s' :=
    Or.inr ⟨hs.isPlain.1, hs.isPlain.2, compileTree_spelling hs⟩
  rw [compile, compile, tree, tree]
  split
  case isTrue => exact (hR.of_replaced hleaf h).compileTree_eq
  case isFalse =>
    have hopt : Option.Rel (CompiledAlike c m locale) (optimize? t) (optimize? t') := by
      refine hR.rel_optimize? ?_ h
      rw [hs.optimize?_eq.1, hs.optimize?_eq.2]
      exact .some hleaf
    generalize optimize? t = o at hopt ⊢
    generalize optimize? t' = o' at hopt ⊢
    cases hopt with
    | none => rfl
    | some halike => exact halike.compileTree_eq

/-- Two spellings of a tree are compiled to the same query, or fail alike. -/
theorem compile_respelled (c : Compiler) (m : Mapping) (locale : Option String)
    (h : Respelled t t') : c.compile m locale t' = c.compile m locale t := by
  induction h with
  | refl => rfl
  | tail _ hstep ih =>
    obtain ⟨s, s', hs, hreplaced⟩ := hstep
    rw [compile_of_replaced hs hreplaced, ih]

theorem compile_respelled_of_text_and_day :
    let t := operation .or [mustNot (.fulltext "x"), day "on" .ne ⟨5⟩]
    let t' := operation .or [mustNot (value fulltextField .eq (.str "x") true),
      mustNot (dayRange "on" ⟨5⟩ ⟨5⟩)]
    Respelled t t' ∧
      Compiler.standard.compile ⟨[], none⟩ none t' =
        Compiler.standard.compile ⟨[], none⟩ none t := by
  intro t t'
  have h : Respelled t t' :=
    .tail (.tail (.single ⟨_, _, .fulltext "x" true, .operand .or [] _ (.negated .whole)⟩)
      ⟨_, _, .otherDay "on" ⟨5⟩, .operand .or [_] [] .whole⟩)
      ⟨_, _, .onDay "on" ⟨5⟩, .operand .or [_] [] (.negated .whole)⟩
  exact ⟨h, compile_respelled .standard ⟨[], none⟩ none h⟩

end Compiler

end SearchExpr
