import SearchExpr.Proofs.Compiler.Matching
import SearchExpr.Proofs.Expr.Truth
import SearchExpr.Proofs.Outcome

/-! # Reading compiled trees

The query for a tree is read as the tree is, if its leaves have queries and no operation has only
operands that say nothing. Both leave out what does not restrict the search, but the compiler takes
an operation that has nothing left for no restriction at all. This holds for any truth values of
leaf queries, those that a document gives them among others.
-/

namespace SearchExpr

open SearchExpr.Expr

namespace Expr

variable {c : Connective} {es : List Expr} {e s : Expr} {L : Expr → Prop}

/-- The operands of an operation are all empty, or one of them has a truth value. -/
def IsWeighty (es : List Expr) : Prop :=
  es.all (·.isEmpty) = true ∨ ∃ x ∈ es, x.hasTruth = true

theorem truths_of_isEmpty {leaf : Expr → Bool} (h : es.all (·.isEmpty) = true) :
    truths leaf es = [] := by
  refine List.eq_nil_iff_forall_not_mem.mpr fun b hb => ?_
  obtain ⟨x, hx, htruth⟩ := mem_truths.mp hb
  have hempty := List.all_eq_true.mp h x hx
  cases x <;> simp_all [isEmpty, truth]

theorem truths_ne_nil {leaf : Expr → Bool} (h : ∃ x ∈ es, x.hasTruth = true) :
    truths leaf es ≠ [] := by
  obtain ⟨x, hx, htruth⟩ := h
  rw [← isSome_truth leaf] at htruth
  obtain ⟨b, hb⟩ := Option.isSome_iff_exists.mp htruth
  exact List.ne_nil_of_mem (mem_truths.mpr ⟨x, hx, hb⟩)

/-- Every operation in a tree has operands that count. -/
def IsShaped (e : Expr) : Prop :=
  ∀ c es, Within (operation c es) e → IsWeighty es

theorem IsShaped.operand {x : Expr} (h : IsShaped (operation c es)) (hx : x ∈ es) : IsShaped x :=
  fun c' es' hs => h c' es' (.operand hx hs)

theorem IsShaped.negated (h : IsShaped (mustNot e)) : IsShaped e :=
  fun c es hs => h c es (.negated hs)

theorem IsNormal.isShaped (h : IsNormal L e) : IsShaped e := by
  rcases h with h | h
  · intro c es hs
    have heq := eq_of_within_base (Or.inr h) hs
    simp [← heq, isConstant] at h
  · intro c es hs
    cases h.within hs with
    | leaf he => simp [isLeaf] at he
    | operation hlength _ hes =>
      obtain ⟨x, hx⟩ := List.exists_mem_of_length_pos (by omega : 0 < es.length)
      exact Or.inr ⟨x, hx, hasTruth_of_isCore (hes x hx)⟩

theorem IsCore.leavesIn (h : IsCore L e) : LeavesIn L e := by
  intro s hs hleaf
  exact IsNormal.of_isLeaf (Or.inr (h.within hs)) hleaf

theorem IsNormal.leavesIn (h : IsNormal L e) : LeavesIn L e := by
  rcases h with h | h
  · exact leavesIn_of_isConstant h
  · exact h.leavesIn

end Expr

namespace Compiler

variable {c : Compiler} {m : Mapping} {locale : Option String} {doc : IndexedDocument}
  {connective : Connective} {es : List Expr} {e : Expr} {q : Query} {answer : Option Query}

/-- An expression is compiled to a query of its own. -/
def Filters (c : Compiler) (m : Mapping) (locale : Option String) (e : Expr) : Prop :=
  ∃ q, c.compileTree m locale e = .ok (some q)

/-- A leaf is read as its own query. -/
def leafHolds (c : Compiler) (m : Mapping) (locale : Option String) (atom : Query → Bool)
    (e : Expr) : Bool :=
  match c.compileTree m locale e with
  | .ok (some q) => q.holds atom
  | _ => false

theorem map_holds_combine {atom : Query → Bool} {answers : List (Option Query)}
    (h : answers.filterMap id ≠ []) :
    (combine connective answers).map (·.holds atom) =
      some (connective.join ((answers.filterMap id).map (·.holds atom))) := by
  unfold combine
  generalize answers.filterMap id = qs at h
  match qs with
  | [] => exact absurd rfl h
  | [q] => cases connective <;> simp [Connective.join]
  | q :: q' :: qs =>
    cases connective with
    | and => simp [clause, Query.holds, Query.allHold_eq, Connective.join]
    | or => simp [clause, Query.holds, Query.someHold_eq, Connective.join]

theorem truths_eq_of_forall₂ {leaf : Expr → Bool} {atom : Query → Bool}
    {answers : List (Option Query)}
    (h : List.Forall₂ (fun x answer => truth leaf x = answer.map (·.holds atom)) es answers) :
    truths leaf es = (answers.filterMap id).map (·.holds atom) := by
  induction h with
  | nil => rfl
  | @cons x answer es answers hx _ ih =>
    rw [truths, hx, ih]
    cases answer <;> rfl

theorem compileEach_eq_ok {answers : List (Option Query)} :
    c.compileEach m locale es = .ok answers ↔
      List.Forall₂ (fun x answer => c.compileTree m locale x = .ok answer) es answers := by
  induction es generalizing answers with
  | nil => cases answers <;> simp [compileEach]
  | cons x es ih =>
    rw [compileEach, bind_eq_ok, List.forall₂_cons_left_iff]
    simp only [bind_eq_ok, ih, pure, Except.pure, Except.ok.injEq]
    constructor
    · rintro ⟨answer, hanswer, rest, hrest, rfl⟩
      exact ⟨answer, rest, hanswer, hrest, rfl⟩
    · rintro ⟨answer, rest, hanswer, hrest, rfl⟩
      exact ⟨answer, hanswer, rest, hrest, rfl⟩

/-- What is compiled is read, whatever truth values leaf queries have, as the tree is. -/
def ReadsAs (c : Compiler) (m : Mapping) (locale : Option String) (e : Expr)
    (answer : Option Query) : Prop :=
  c.compileTree m locale e = .ok answer ∧
    ∀ atom, truth (c.leafHolds m locale atom) e = answer.map (·.holds atom)

theorem readsAs_leaf (he : e.isLeaf = true) (h : c.Filters m locale e) :
    ∃ answer, c.ReadsAs m locale e answer := by
  obtain ⟨q, hq⟩ := h
  refine ⟨some q, hq, fun atom => ?_⟩
  rw [truth_of_isLeaf he, leafHolds, hq, Option.map_some]

theorem readsAs_constant (he : e.isConstant = true) : ∃ answer, c.ReadsAs m locale e answer := by
  cases e <;> simp only [isConstant, Bool.false_eq_true] at he
  case empty => exact ⟨none, rfl, fun _ => rfl⟩
  case everything => exact ⟨some .matchAll, rfl, fun _ => rfl⟩
  case nothing => exact ⟨some .matchNone, rfl, fun _ => rfl⟩

theorem readsAs_mustNot (h : c.ReadsAs m locale e answer) :
    c.ReadsAs m locale (mustNot e) (answer.map .not) := by
  obtain ⟨hcompile, htruth⟩ := h
  refine ⟨by rw [compileTree, hcompile, Except.map], fun atom => ?_⟩
  rw [truth, htruth atom]
  cases answer with
  | none => rfl
  | some q => exact congrArg some Query.holds_not.symm

theorem readsAs_operation {answers : List (Option Query)} (hweighty : IsWeighty es)
    (h : List.Forall₂ (c.ReadsAs m locale) es answers) :
    ∃ answer, c.ReadsAs m locale (operation connective es) answer := by
  have hcompile : c.compileEach m locale es = .ok answers :=
    compileEach_eq_ok.mpr (h.imp fun _ _ h => h.1)
  have htruths (atom : Query → Bool) : truths (c.leafHolds m locale atom) es =
      (answers.filterMap id).map (·.holds atom) :=
    truths_eq_of_forall₂ (h.imp fun _ _ h => h.2 atom)
  cases hempty : es.all (·.isEmpty) with
  | true =>
    refine ⟨some (sentinel connective), by simp [compileTree, hempty], fun atom => ?_⟩
    rw [truth, truths_of_isEmpty hempty]
    cases connective <;> rfl
  | false =>
    refine ⟨combine connective answers, by simp [compileTree, hempty, hcompile, Except.map], ?_⟩
    intro atom
    -- Without a truth value there would be no query, though the operation has a truth value.
    have hsome : truths (c.leafHolds m locale atom) es ≠ [] :=
      truths_ne_nil (hweighty.resolve_left (by simp [hempty]))
    rw [htruths atom, ne_eq, List.map_eq_nil_iff] at hsome
    rw [truth, htruths atom, map_holds_combine hsome]

theorem exists_readsAs (hshaped : IsShaped e) (hleaves : LeavesIn (c.Filters m locale) e) :
    ∃ answer, c.ReadsAs m locale e answer := by
  induction e using treeInduction with
  | base e he =>
    rcases he with he | he
    · exact readsAs_leaf he (hleaves e .whole he)
    · exact readsAs_constant he
  | operation connective es ih =>
    obtain ⟨answers, hanswers⟩ := exists_forall₂ fun x hx =>
      ih x hx (hshaped.operand hx) (hleaves.operand hx)
    exact readsAs_operation (hshaped connective es .whole) hanswers
  | mustNot e ih =>
    obtain ⟨answer, hanswer⟩ := ih hshaped.negated hleaves.negated
    exact ⟨_, readsAs_mustNot hanswer⟩

/-! ## Trees over documents -/

open Classical in
/-- A leaf is true if its query matches. -/
noncomputable def leafTruth (c : Compiler) (m : Mapping) (locale : Option String)
    (doc : IndexedDocument) (e : Expr) : Bool :=
  decide (∃ q, c.compileTree m locale e = .ok (some q) ∧ q.MatchedBy doc)

theorem leafTruth_eq_true :
    c.leafTruth m locale doc e = true ↔
      ∃ q, c.compileTree m locale e = .ok (some q) ∧ q.MatchedBy doc := by
  simp [leafTruth]

open Classical in
noncomputable def decided (doc : IndexedDocument) (q : Query) : Bool :=
  decide (q.MatchedBy doc)

theorem decided_eq_true : decided doc q = true ↔ q.MatchedBy doc := by
  simp [decided]

/-- The truth value of a query, if there is one. -/
noncomputable def truthOf (doc : IndexedDocument) (answer : Option Query) : Option Bool :=
  answer.map (decided doc)

theorem matches_iff : doc.Matches answer ↔ truthOf doc answer ≠ some false := by
  cases answer with
  | none => simp [truthOf, IndexedDocument.Matches]
  | some q => simp [truthOf, IndexedDocument.Matches, decided_eq_true]

/-- A document is one way to give leaf queries truth values. -/
theorem holds_decided (doc : IndexedDocument) : ∀ q : Query, q.holds (decided doc) = decided doc q
  | .bool clause qs => by
    have ih : ∀ q ∈ qs, (q.holds (decided doc) = true ↔ q.MatchedBy doc) := fun q _ => by
      rw [holds_decided doc q, decided_eq_true]
    have hsome : qs.any (·.holds (decided doc)) = true ↔ ∃ q ∈ qs, q.MatchedBy doc := by
      rw [List.any_eq_true]
      exact exists_congr fun q => and_congr_right (ih q)
    rw [Bool.eq_iff_iff, decided_eq_true]
    cases clause with
    | must =>
      rw [Query.holds, Query.allHold_eq, Query.matchedBy_must, List.all_eq_true]
      exact forall₂_congr ih
    | should => rw [Query.holds, Query.someHold_eq, Query.matchedBy_should, hsome]
    | mustNot =>
      rw [Query.holds, Query.someHold_eq, Query.MatchedBy, Query.someMatchedBy_iff,
        Bool.not_eq_true', ← Bool.not_eq_true, hsome]
  | .matchAll | .matchNone => by
    rw [Bool.eq_iff_iff, decided_eq_true]
    simp [Query.holds, Query.MatchedBy]
  | .term .. | .terms .. | .range .. | .wildcard .. | .queryString .. | .nested .. | .present _ =>
    rfl

theorem leafHolds_decided : c.leafHolds m locale (decided doc) e = c.leafTruth m locale doc e := by
  rw [Bool.eq_iff_iff, leafTruth_eq_true, leafHolds]
  split
  case h_1 q hq => simp [hq, holds_decided, decided_eq_true]
  case h_2 hne => simpa using fun q hq => absurd hq (hne q)

/-- What is compiled says of every document what the tree does. -/
def Agrees (c : Compiler) (m : Mapping) (locale : Option String) (e : Expr)
    (answer : Option Query) : Prop :=
  c.compileTree m locale e = .ok answer ∧
    ∀ doc, truth (c.leafTruth m locale doc) e = truthOf doc answer

/-- A document reads a compiled tree as the tree. -/
theorem agrees (hshaped : IsShaped e) (hleaves : LeavesIn (c.Filters m locale) e) :
    ∃ answer, c.Agrees m locale e answer := by
  obtain ⟨answer, hcompile, htruth⟩ := exists_readsAs hshaped hleaves
  refine ⟨answer, hcompile, fun doc => ?_⟩
  have hleaf : c.leafHolds m locale (decided doc) = c.leafTruth m locale doc :=
    funext fun _ => leafHolds_decided
  rw [← hleaf, htruth (decided doc), truthOf, funext (holds_decided doc)]

/-! ## Trees that are compiled -/

theorem compile_of_not_optimizes (hc : c.optimizes = false) (e : Expr) :
    c.compile m locale e = c.compileTree m locale e := by
  rw [compile, tree, hc]
  rfl

theorem tree_eq_ok {e' : Expr} (hc : c.optimizes = true) :
    c.tree e = .ok e' ↔ optimize? e = some e' := by
  rw [tree, hc]
  cases optimize? e <;> simp

/-- The tree that is compiled has leaves of the sort that an expression has, if merges do not leave
that sort. -/
theorem leavesIn_of_tree {L : Expr → Prop} {e' : Expr} (hclosed : LeafClosed L) (h : LeavesIn L e)
    (htree : c.tree e = .ok e') : LeavesIn L e' := by
  cases hc : c.optimizes with
  | true => exact (isNormal_optimize? hclosed h ((tree_eq_ok hc).mp htree)).leavesIn
  | false =>
    rw [tree, hc] at htree
    obtain rfl := Except.ok.inj htree
    exact h

theorem compile_eq_ok_of_optimizes (hc : c.optimizes = true) :
    c.compile m locale e = .ok answer ↔
      ∃ e', optimize? e = some e' ∧ c.compileTree m locale e' = .ok answer := by
  rw [compile, bind_eq_ok]
  simp only [tree_eq_ok hc]

theorem compile_leaf (c : Compiler) (m : Mapping) (locale : Option String)
    (he : e.isLeaf = true) : c.compile m locale e = c.compileTree m locale e := by
  have htree : c.tree e = .ok e := by
    rw [tree, optimize?_base (Or.inl he)]
    split <;> rfl
  rw [compile, htree]
  rfl

/-- A tree that is optimized to a leaf is compiled as that leaf. -/
theorem compile_eq_of_optimize? {e' : Expr} (hc : c.optimizes = true) (he' : e'.isLeaf = true)
    (h : optimize? e = some e') (m : Mapping) (locale : Option String) :
    c.compile m locale e = c.compile m locale e' := by
  rw [compile_leaf c m locale he', compile, tree, hc, h]
  rfl

/-- A tree is compiled only if all its leaves are. -/
theorem leavesIn_of_compileTree (h : c.compileTree m locale e = .ok answer) :
    LeavesIn (fun s => ∃ answer, c.compileTree m locale s = .ok answer) e := by
  induction e using treeInduction generalizing answer with
  | base e he =>
    rcases he with he | he
    · exact leavesIn_of_isLeaf ⟨answer, h⟩ he
    · exact leavesIn_of_isConstant he
  | operation connective es ih =>
    rw [leavesIn_operation]
    intro x hx
    cases hempty : es.all (·.isEmpty) with
    | true =>
      have hx := List.all_eq_true.mp hempty x hx
      exact leavesIn_of_isConstant (by cases x <;> simp_all [isEmpty, isConstant])
    | false =>
      simp only [compileTree, hempty, Bool.false_eq_true, if_false, map_eq_ok] at h
      obtain ⟨answers, hanswers, -⟩ := h
      obtain ⟨answer, -, hanswer⟩ := exists_right_of_forall₂ (compileEach_eq_ok.mp hanswers) hx
      exact ih x hx hanswer
  | mustNot e ih =>
    simp only [compileTree, map_eq_ok] at h
    obtain ⟨answer, hanswer, -⟩ := h
    exact leavesIn_mustNot.mpr (ih hanswer)

end Compiler

end SearchExpr
