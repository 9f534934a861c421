import SearchExpr.Proofs.Compiler.Reading

/-! # Compiling leaf by leaf

A tree that is compiled as it is depends on what its leaves and constants are compiled to. If they
all have queries, so does the tree, and its query is the boolean combination that the tree is. The
tree has no query only if none of them has one, and it fails as the first of them that fails.
-/

namespace SearchExpr

open SearchExpr.Expr

namespace Expr

variable {c : Connective} {es : List Expr} {e s x : Expr}

/-- A condition on the full text that asks for blank text. -/
def IsBlank : Expr → Prop
  | value field _ v _ =>
    field = fulltextField ∧ (v = .null ∨ ∃ text, v.text? = some text ∧ Text.hasInk text = false)
  | fulltext text => Text.hasInk text = false
  | _ => False

/-! ## The fringe of a tree -/

mutual

/-- The leaves and constants of a tree, from left to right. -/
def fringe : Expr → List Expr
  | operation _ es => fringes es
  | mustNot e => fringe e
  | e => [e]

def fringes : List Expr → List Expr
  | [] => []
  | e :: es => fringe e ++ fringes es

end

theorem mem_fringes : x ∈ fringes es ↔ ∃ e ∈ es, x ∈ e.fringe := by
  induction es with
  | nil => simp [fringes]
  | cons e es ih => simp [fringes, ih]

theorem fringe_base (he : e.isLeaf = true ∨ e.isConstant = true) : e.fringe = [e] := by
  cases e <;> simp_all [isLeaf, isConstant, fringe]

theorem mem_fringe :
    x ∈ e.fringe ↔ Within x e ∧ (x.isLeaf = true ∨ x.isConstant = true) := by
  induction e using treeInduction with
  | base e he =>
    rw [fringe_base he, List.mem_singleton]
    constructor
    · rintro rfl
      exact ⟨.whole, he⟩
    · rintro ⟨hx, -⟩
      exact eq_of_within_base he hx
  | operation c es ih =>
    rw [fringe, mem_fringes, within_operation]
    constructor
    · rintro ⟨e, he, hx⟩
      obtain ⟨hwithin, hbase⟩ := (ih e he).mp hx
      exact ⟨Or.inr ⟨e, he, hwithin⟩, hbase⟩
    · rintro ⟨rfl | ⟨e, he, hwithin⟩, hbase⟩
      · simp [isLeaf, isConstant] at hbase
      · exact ⟨e, he, (ih e he).mpr ⟨hwithin, hbase⟩⟩
  | mustNot e ih =>
    rw [fringe, ih, within_mustNot]
    refine and_congr_left fun hbase => (or_iff_right ?_).symm
    rintro rfl
    simp [isLeaf, isConstant] at hbase

theorem Within.trans {t : Expr} (hs : Within s t) (ht : Within t e) : Within s e := by
  induction ht with
  | whole => exact hs
  | operand hx _ ih => exact .operand hx ih
  | negated _ ih => exact .negated ih

theorem leavesIn_iff_fringe {L : Expr → Prop} :
    LeavesIn L e ↔ ∀ x ∈ e.fringe, x.isLeaf = true → L x := by
  constructor
  · intro h x hx hleaf
    exact h x (mem_fringe.mp hx).1 hleaf
  · intro h s hs hleaf
    exact h s (mem_fringe.mpr ⟨hs, Or.inl hleaf⟩) hleaf

theorem hasTruth_of_empty_notMem (h : empty ∉ e.fringe) : e.hasTruth = true := by
  induction e using treeInduction with
  | base e he =>
    rw [fringe_base he, List.mem_singleton] at h
    cases e <;> simp_all [isLeaf, isConstant, hasTruth]
  | operation => rfl
  | mustNot e ih => exact ih h

/-- In a tree in which nothing is empty, all operands count. -/
theorem isShaped_of_empty_notMem (h : empty ∉ e.fringe) : IsShaped e := by
  intro c es hs
  cases es with
  | nil => exact Or.inl rfl
  | cons x es =>
    refine Or.inr ⟨x, List.mem_cons_self, hasTruth_of_empty_notMem fun hempty => h ?_⟩
    obtain ⟨hwithin, hbase⟩ := mem_fringe.mp hempty
    exact mem_fringe.mpr ⟨(Within.operand List.mem_cons_self hwithin).trans hs, hbase⟩

end Expr

namespace Compiler

variable {c : Compiler} {m : Mapping} {locale : Option String} {connective : Connective}
  {es : List Expr} {e x : Expr}

/-! ## Trees with a query -/

theorem exists_query_of_fringe (h : ∀ x ∈ e.fringe, c.Filters m locale x) :
    ∃ q, c.ReadsAs m locale e (some q) := by
  have hempty : empty ∉ e.fringe := by
    intro hmem
    obtain ⟨q, hq⟩ := h empty hmem
    simp [compileTree] at hq
  have hleaves : LeavesIn (c.Filters m locale) e :=
    leavesIn_iff_fringe.mpr fun x hx _ => h x hx
  obtain ⟨answer, hcompile, htruth⟩ := exists_readsAs (isShaped_of_empty_notMem hempty) hleaves
  cases answer with
  | some q => exact ⟨q, hcompile, htruth⟩
  | none =>
    have hsome := isSome_truth (c.leafHolds m locale fun _ => true) e
    rw [htruth, hasTruth_of_empty_notMem hempty] at hsome
    contradiction

/-! ## Trees without a query -/

theorem combine_eq_none {answers : List (Option Query)} :
    combine connective answers = none ↔ ∀ answer ∈ answers, answer = none := by
  have hnil : answers.filterMap id = [] ↔ ∀ answer ∈ answers, answer = none :=
    List.filterMap_eq_nil_iff
  rw [← hnil, combine]
  generalize answers.filterMap id = qs
  match qs with
  | [] => simp
  | [_] => simp
  | _ :: _ :: _ => simp

theorem buildText_eq_none {b : FulltextBuilder} {text comparison : String} :
    b.buildText text comparison = none ↔ Text.hasInk text = false := by
  unfold FulltextBuilder.buildText
  cases Text.hasInk text <;> simp
  split <;> simp

theorem build_eq_none {b : FulltextBuilder} {v : Value} {comparison : String} :
    b.build v comparison = .ok none ↔
      v = .null ∨ ∃ text, v.text? = some text ∧ Text.hasInk text = false := by
  simp only [FulltextBuilder.build, map_eq_ok, buildText_eq_none]
  by_cases hv : v = .null
  · subst hv
    exact iff_of_true ⟨"", rfl, rfl⟩ (Or.inl rfl)
  · have htext : FulltextBuilder.textFor v = v.written := by
      cases v <;> first | rfl | exact absurd rfl hv
    simp only [htext, Value.written_eq_ok, hv, false_or]

theorem compileTree_of_isBlank (h : IsBlank e) : c.compileTree m locale e = .ok none := by
  cases e <;> simp only [IsBlank] at h
  case fulltext text => exact build_eq_none.mpr (Or.inr ⟨text, rfl, h⟩)
  case value field comparison v phrase =>
    rw [compileTree, if_pos h.1]
    exact build_eq_none.mpr h.2

/-- Of leaves and constants only those that are empty or ask for blank text have no query. -/
theorem eq_empty_or_isBlank (he : e.isLeaf = true ∨ e.isConstant = true)
    (h : c.compileTree m locale e = .ok none) : e = empty ∨ IsBlank e := by
  rcases he with he | he
  case inr => cases e <;> simp_all [isConstant, compileTree]
  refine Or.inr ?_
  cases e <;> simp only [isLeaf, Bool.false_eq_true] at he
  case fulltext text =>
    simpa [compileTree, build_eq_none, IsBlank, Value.text?] using h
  case value field comparison v phrase =>
    rw [compileTree] at h
    split at h
    case isTrue hfield => exact ⟨hfield, build_eq_none.mp h⟩
    case isFalse =>
      obtain ⟨_, -, hnone⟩ := map_eq_ok.mp h
      contradiction
  all_goals
    obtain ⟨_, -, hnone⟩ := map_eq_ok.mp h
    contradiction

/-- Without a query nothing that restricts the search is lost. -/
theorem compileTree_eq_none_of_fringe (h : c.compileTree m locale e = .ok none) :
    ∀ x ∈ e.fringe, c.compileTree m locale x = .ok none := by
  induction e using treeInduction with
  | base e he =>
    rw [fringe_base he]
    exact List.forall_mem_singleton.mpr h
  | operation connective es ih =>
    rw [compileTree] at h
    split at h
    case isTrue => simp at h
    case isFalse =>
      obtain ⟨answers, hanswers, hnone⟩ := map_eq_ok.mp h
      intro x hx
      obtain ⟨e, he, hx⟩ := mem_fringes.mp hx
      obtain ⟨answer, hanswer, hcompile⟩ :=
        exists_right_of_forall₂ (compileEach_eq_ok.mp hanswers) he
      rw [combine_eq_none.mp hnone answer hanswer] at hcompile
      exact ih e he hcompile x hx
  | mustNot e ih =>
    obtain ⟨answer, hcompile, hnone⟩ := map_eq_ok.mp h
    rw [Option.map_eq_none_iff.mp hnone] at hcompile
    exact ih hcompile

/-! ## Failing trees -/

theorem failure?_compileEach
    (h : ∀ e ∈ es, failure? (c.compileTree m locale e) =
      e.fringe.findSome? fun x => failure? (c.compileTree m locale x)) :
    failure? (c.compileEach m locale es) =
      (fringes es).findSome? fun x => failure? (c.compileTree m locale x) := by
  induction es with
  | nil => rfl
  | cons e es ih =>
    rw [fringes, List.findSome?_append, ← h e List.mem_cons_self,
      ← ih fun x hx => h x (List.mem_cons_of_mem e hx), compileEach]
    cases c.compileTree m locale e <;> cases c.compileEach m locale es <;> rfl

/-- A tree fails as the first of its leaves that fails, and only then. -/
theorem failure?_compileTree (e : Expr) :
    failure? (c.compileTree m locale e) =
      e.fringe.findSome? fun x => failure? (c.compileTree m locale x) := by
  induction e using treeInduction with
  | base e he =>
    rw [fringe_base he, List.findSome?_cons, List.findSome?_nil]
    cases failure? (c.compileTree m locale e) <;> rfl
  | operation connective es ih =>
    rw [compileTree, fringe]
    split
    case isTrue hempty =>
      -- Empty operands are not compiled, and none of them would fail.
      refine (List.findSome?_eq_none_iff.mpr fun x hx => ?_).symm
      obtain ⟨e, he, hx⟩ := mem_fringes.mp hx
      have he := List.all_eq_true.mp hempty e he
      cases e <;> simp_all [isEmpty, fringe, compileTree, failure?]
    case isFalse => rw [failure?_map, failure?_compileEach ih]
  | mustNot e ih => rw [compileTree, failure?_map, ih, fringe]

/-- Without the optimizer a tree is compiled leaf by leaf. If all leaves have queries, there is a
query, which is the tree over the queries of the leaves; if there is none, the leaves are empty or
ask for blank text; and the failures are those of the first leaf that fails. -/
theorem compile_by_fringe (hc : c.optimizes = false) (e : Expr) :
    ((∀ x ∈ e.fringe, ∃ q, c.compile m locale x = .ok (some q)) →
      ∃ q, c.compile m locale e = .ok (some q) ∧
        ∀ atom, truth (c.leafHolds m locale atom) e = some (q.holds atom)) ∧
    (c.compile m locale e = .ok none →
      ∀ x ∈ e.fringe, x = empty ∨ IsBlank x ∧ c.compile m locale x = .ok none) ∧
    ∀ failure, c.compile m locale e = .error failure ↔
      ∃ before x after, e.fringe = before ++ x :: after ∧
        c.compile m locale x = .error failure ∧
          ∀ y ∈ before, ∃ answer, c.compile m locale y = .ok answer := by
  simp only [compile_of_not_optimizes hc]
  refine ⟨fun h => ?_, fun h x hx => ?_, fun failure => ?_⟩
  · obtain ⟨q, hcompile, htruth⟩ := exists_query_of_fringe h
    exact ⟨q, hcompile, htruth⟩
  · have hnone := compileTree_eq_none_of_fringe h x hx
    exact (eq_empty_or_isBlank (mem_fringe.mp hx).2 hnone).imp_right fun hblank =>
      ⟨hblank, hnone⟩
  · rw [← failure?_eq_some, failure?_compileTree, List.findSome?_eq_some_iff]
    simp only [failure?_eq_some, failure?_eq_none]

/-- A tree of leaves with queries, and one that restricts nothing. -/
theorem compile_by_fringe_of_words :
    let c : Compiler := { standard with optimizes := false }
    let m : Mapping := ⟨[], none⟩
    let e := operation .or [mustNot (isIn "tags" ⟨.str "a", []⟩), .fulltext "word"]
    let blank := operation .and [empty, mustNot (.fulltext " ")]
    (∀ x ∈ e.fringe, ∃ q, c.compile m none x = .ok (some q)) ∧
      (∃ q, c.compile m none e = .ok (some q) ∧
        ∀ atom, truth (c.leafHolds m none atom) e = some (q.holds atom)) ∧
      c.compile m none blank = .ok none ∧
        ∀ x ∈ blank.fringe, x = empty ∨ IsBlank x ∧ c.compile m none x = .ok none := by
  intro c m e blank
  have hqueries : ∀ x ∈ e.fringe, ∃ q, c.compile m none x = .ok (some q) := by
    intro x hx
    simp only [e, fringe, fringes, List.cons_append, List.nil_append, List.mem_cons,
      List.not_mem_nil, or_false] at hx
    rcases hx with rfl | rfl
    · exact ⟨_, rfl⟩
    · exact ⟨_, rfl⟩
  have hblank : c.compile m none blank = .ok none := rfl
  exact ⟨hqueries, (compile_by_fringe rfl e).1 hqueries, hblank,
    (compile_by_fringe rfl blank).2.1 hblank⟩

end Compiler

end SearchExpr
