import SearchExpr.Proofs.Compiler.Folding
import SearchExpr.Proofs.Expr.Insertion

/-! # Blank operands

A condition that asks for blank text has no query, and an operation is compiled without it. The
optimizer does not look at texts, though, and takes the condition for an operand. So where a
disjunction without it is simplified to what is false, nothing but the condition is left of the one
with it, and that does not restrict the search.
-/

namespace SearchExpr

open SearchExpr.Expr

namespace Expr

variable {c : Connective} {es : List Expr} {e z : Expr}

theorem IsBlank.isUnmerged (h : IsBlank z) : IsUnmerged z := by
  cases z <;> simp only [IsBlank] at h
  case fulltext => exact ⟨rfl, rfl, rfl, rfl, rfl⟩
  case value =>
    obtain ⟨rfl, -⟩ := h
    exact ⟨rfl, rfl, rfl, rfl, rfl⟩

theorem optimize?_or_eq_nothing :
    optimize? (operation .or es) = some nothing ↔
      ∀ x ∈ es, optimize? x = some empty ∨ optimize? x = some nothing := by
  rw [optimize?_operation_eq_some]
  simp only [simplify?_or_eq_nothing]
  constructor
  · rintro ⟨out, hout, hall⟩ x hx
    obtain ⟨x', hx', hopt⟩ := exists_right_of_forall₂ hout hx
    rcases hall x' hx' with rfl | rfl
    · exact Or.inl hopt
    · exact Or.inr hopt
  · intro hall
    have hsome : ∀ x ∈ es, ∃ x', optimize? x = some x' := fun x hx =>
      (hall x hx).elim (fun h => ⟨_, h⟩) fun h => ⟨_, h⟩
    obtain ⟨out, hout⟩ := exists_forall₂ hsome
    refine ⟨out, hout, fun x' hx' => ?_⟩
    obtain ⟨x, hx, hopt⟩ := exists_left_of_forall₂ hout hx'
    simpa [hopt] using hall x hx

/-- An operation is optimized to what is false as a disjunction only if its operands are. -/
theorem and_or_ne_nothing_iff (h : optimize? (operation c es) = some e) :
    c = .and ∨ e ≠ nothing ↔
      c = .and ∨ ∃ x ∈ es, optimize? x ≠ some empty ∧ optimize? x ≠ some nothing := by
  cases c with
  | and => simp
  | or =>
    have hnothing : optimize? (operation .or es) = some nothing ↔ _ := optimize?_or_eq_nothing
    rw [h, Option.some.injEq] at hnothing
    simp [hnothing]

end Expr

namespace Compiler

variable {c : Compiler} {m : Mapping} {locale : Option String} {connective : Connective}
  {es out : List Expr} {e x z : Expr} {answer : Option Query}

theorem compileTree_collapse (hes : es ≠ []) (hempty : ∀ x ∈ es, x ≠ empty) :
    c.compileTree m locale (collapse connective es) =
      (c.compileEach m locale es).map (combine connective) := by
  match es with
  | [] => exact absurd rfl hes
  | [x] =>
    rw [collapse, compileEach, compileEach]
    cases c.compileTree m locale x with
    | error => rfl
    | ok answer => cases answer <;> rfl
  | x :: y :: es =>
    have hx : (x :: y :: es).all (·.isEmpty) = false := by
      have hne := hempty x List.mem_cons_self
      cases x <;> simp_all [isEmpty]
    have hcollapse : collapse connective (x :: y :: es) = operation connective (x :: y :: es) := rfl
    rw [hcollapse, compileTree, hx]
    rfl

theorem combine_congr {answers answers' : List (Option Query)}
    (h : answers'.filterMap id = answers.filterMap id) :
    combine connective answers' = combine connective answers := by
  rw [combine, combine, h]

theorem exists_compileEach_of_inserted (hz : c.compileTree m locale z = .ok none)
    (h : Inserted z es out) {answers : List (Option Query)}
    (hes : c.compileEach m locale es = .ok answers) :
    ∃ answers', c.compileEach m locale out = .ok answers' ∧
      answers'.filterMap id = answers.filterMap id := by
  induction h generalizing answers with
  | here =>
    refine ⟨none :: answers, ?_, rfl⟩
    rw [compileEach, hz, hes]
    rfl
  | @there x es out _ ih =>
    rw [compileEach] at hes
    obtain ⟨answer, hanswer, hes⟩ := bind_eq_ok.mp hes
    obtain ⟨rest, hrest, heq⟩ := bind_eq_ok.mp hes
    obtain ⟨rest', hrest', hfilter⟩ := ih hrest
    obtain rfl := Except.ok.inj heq
    refine ⟨answer :: rest', ?_, by rw [List.filterMap_cons, List.filterMap_cons, hfilter]⟩
    rw [compileEach, hanswer, hrest']
    rfl

/-- Where operands are left, one without a query makes no difference. -/
theorem compileTree_collapse_of_inserted (hz : IsBlank z) (h : Inserted z es out) (hes : es ≠ [])
    (hempty : ∀ x ∈ es, x ≠ empty)
    (hanswer : c.compileTree m locale (collapse connective es) = .ok answer) :
    c.compileTree m locale (collapse connective out) = .ok answer := by
  have hne : out ≠ [] := List.ne_nil_of_mem (h.mem_iff.mpr (Or.inl rfl))
  have hempty' : ∀ x ∈ out, x ≠ empty := by
    intro x hx
    rcases h.mem_iff.mp hx with rfl | hx
    · rintro rfl
      exact hz
    · exact hempty x hx
  rw [compileTree_collapse hes hempty] at hanswer
  obtain ⟨answers, hanswers, rfl⟩ := map_eq_ok.mp hanswer
  obtain ⟨answers', hanswers', hfilter⟩ :=
    exists_compileEach_of_inserted (compileTree_of_isBlank hz) h hanswers
  rw [compileTree_collapse hne hempty']
  exact map_eq_ok.mpr ⟨answers', hanswers', combine_congr hfilter⟩

/-- The same documents are found, whatever truth values leaf queries have. Without a query, all
documents are. -/
def FindsAlike (answer answer' : Option Query) : Prop :=
  ∀ atom, (answer'.getD .matchAll).holds atom = (answer.getD .matchAll).holds atom

/-- A blank operand is all that is left of an operation of which nothing else is. -/
theorem exists_findsAlike_of_inserted (hz : IsBlank z) (h : Inserted z es out)
    (hes : ∀ x ∈ es, x ≠ empty ∧ x ≠ connective.identity)
    (hanswer : c.compileTree m locale (collapse connective es) = .ok answer) :
    ∃ answer', c.compileTree m locale (collapse connective out) = .ok answer' ∧
      (FindsAlike answer answer' ↔ connective = .and ∨ collapse connective es ≠ nothing) := by
  cases es with
  | nil =>
    -- The blank operand is the whole tree, where without it a constant is left.
    cases h
    refine ⟨none, compileTree_of_isBlank hz, ?_⟩
    cases connective with
    | and =>
      obtain rfl : some Query.matchAll = answer := Except.ok.inj hanswer
      exact iff_of_true (fun _ => rfl) (Or.inl rfl)
    | or =>
      obtain rfl : some Query.matchNone = answer := Except.ok.inj hanswer
      refine iff_of_false (fun hsame => ?_) (by simp [collapse, Connective.identity])
      exact absurd (hsame fun _ => true) (by simp [Query.holds])
  | cons x es =>
    have hempty : ∀ y ∈ x :: es, y ≠ empty := fun y hy => (hes y hy).1
    refine ⟨answer, ?_, iff_of_true (fun _ => rfl) ?_⟩
    · exact compileTree_collapse_of_inserted hz h (List.cons_ne_nil x es) hempty hanswer
    · cases connective with
      | and => exact Or.inl rfl
      | or =>
        have hnothing : nothing ∉ x :: es := fun hmem => (hes nothing hmem).2 rfl
        exact Or.inr fun heq => List.cons_ne_nil x es ((collapse_or_eq_nothing hnothing).mp heq)

/-- An operation is compiled with a blank operand if it is without. It finds the same documents
unless it is a disjunction all of whose other operands are false or empty once optimized. -/
theorem compile_insert_blank (hc : c.optimizes = true) (hz : IsBlank z) (before after : List Expr)
    (h : c.compile m locale (operation connective (before ++ after)) = .ok answer) :
    ∃ answer', c.compile m locale (operation connective (before ++ z :: after)) = .ok answer' ∧
      (FindsAlike answer answer' ↔ connective = .and ∨
        ∃ x ∈ before ++ after, optimize? x ≠ some empty ∧ optimize? x ≠ some nothing) := by
  obtain ⟨e, hopt, hanswer⟩ := (compile_eq_ok_of_optimizes hc).mp h
  obtain ⟨es, hes, hsimple⟩ := optimize?_operation_eq_some.mp hopt
  have hzopt : optimize? z = some z := optimize?_base (Or.inl hz.isUnmerged.leaf)
  obtain ⟨out, hout, hinserted⟩ := (Inserted.of_append before after).exists_forall₂ hzopt hes
  obtain ⟨e', hsimple', hcases⟩ := hinserted.exists_simplify? hz.isUnmerged hsimple
  have hopt' : optimize? (operation connective (before ++ z :: after)) = some e' :=
    optimize?_operation_eq_some.mpr ⟨out, hout, hsimple'⟩
  simp only [compile_eq_ok_of_optimizes hc, hopt', Option.some.injEq, exists_eq_left',
    ← and_or_ne_nothing_iff hopt]
  rcases hcases with ⟨rfl, rfl⟩ | ⟨rest, rest', hinserted, hrest, rfl, rfl⟩
  · refine ⟨answer, hanswer, iff_of_true (fun _ => rfl) ?_⟩
    cases connective <;> simp [Connective.absorbing]
  · exact exists_findsAlike_of_inserted hz hinserted hrest hanswer

/-- A blank text between two sets of tags. -/
theorem compile_insert_blank_of_tags :
    let a := isIn "tags" ⟨.str "a", []⟩
    let b := mustNot (isIn "tags" ⟨.str "b", []⟩)
    let q := Query.terms "tags" [.str "a"]
    let q' := Query.not (.terms "tags" [.str "b"])
    IsBlank (.fulltext " ") ∧
      standard.compile ⟨[], none⟩ none (operation .or [a, b]) =
        .ok (some (.bool .should [q, q'])) ∧
      ∃ answer', standard.compile ⟨[], none⟩ none (operation .or [a, .fulltext " ", b]) =
          .ok answer' ∧
        (FindsAlike (some (.bool .should [q, q'])) answer' ↔ Connective.or = .and ∨
          ∃ x ∈ [a, b], optimize? x ≠ some empty ∧ optimize? x ≠ some nothing) := by
  intro a b q q'
  have hblank : IsBlank (.fulltext " ") := rfl
  have hcompile : standard.compile ⟨[], none⟩ none (operation .or [a, b]) =
      .ok (some (.bool .should [q, q'])) := rfl
  exact ⟨hblank, hcompile, compile_insert_blank rfl hblank [a] [b] hcompile⟩

/-- A disjunction with a query, which a blank text takes away. -/
theorem not_findsAlike_of_nothing :
    standard.compile ⟨[], none⟩ none nothing = .ok (some .matchNone) ∧
      standard.compile ⟨[], none⟩ none (operation .or [nothing]) = .ok (some .matchNone) ∧
      IsBlank (.fulltext " ") ∧
      standard.compile ⟨[], none⟩ none (operation .or [nothing, .fulltext " "]) = .ok none ∧
      ¬ FindsAlike (some .matchNone) none := by
  refine ⟨rfl, rfl, rfl, rfl, fun h => ?_⟩
  exact absurd (h fun _ => true) (by simp [Query.holds])

end Compiler

end SearchExpr
