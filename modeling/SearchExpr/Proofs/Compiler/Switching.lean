import SearchExpr.Proofs.Compiler.Vocabulary
import SearchExpr.Proofs.Expr.Pairs

/-! # Switching the optimizer on

A compiler that optimizes is compared with one that does not. Over a vocabulary that the compiler is
faithful to, both find the same documents; over any other, some tree of two leaves at most tells
them apart. An operation whose operands all say nothing is told apart from what it is optimized to
by itself or by its negation.
-/

namespace SearchExpr

open SearchExpr.Expr

namespace Compiler

variable {c : Compiler} {m : Mapping} {locale : Option String} {V : Vocabulary} {e x y : Expr}
  {field : String}

/-- The compiler with the standard filters, optimizing or not. -/
def switched (c : Compiler) (optimizes : Bool) : Compiler :=
  { c with builders := FilterBuilder.standard, optimizes }

theorem compileTree_switched (optimizes : Bool) (e : Expr) :
    (c.switched optimizes).compileTree m locale e = (c.switched false).compileTree m locale e := by
  induction e using treeInduction with
  | base e he => cases e <;> first | rfl | simp [isLeaf, isConstant] at he
  | operation connective es ih =>
    have heach : (c.switched optimizes).compileEach m locale es =
        (c.switched false).compileEach m locale es := by
      induction es with
      | nil => rfl
      | cons x es ihes =>
        rw [compileEach, compileEach, ih x List.mem_cons_self,
          ihes fun y hy => ih y (List.mem_cons_of_mem x hy)]
    rw [compileTree, compileTree, heach]
  | mustNot e ih => rw [compileTree, compileTree, ih]

theorem compile_switched_false (e : Expr) :
    (c.switched false).compile m locale e = (c.switched false).compileTree m locale e :=
  rfl

theorem compile_switched_true {answer : Option Query} :
    (c.switched true).compile m locale e = .ok answer ↔
      ∃ e', optimize? e = some e' ∧ (c.switched false).compileTree m locale e' = .ok answer := by
  rw [compile_eq_ok_of_optimizes rfl]
  simp only [compileTree_switched true]

/-- Where a tree is compiled as it is, it is also compiled when it is optimized first, and the same
documents are found. -/
def Unchanged (c : Compiler) (m : Mapping) (locale : Option String) (e : Expr) : Prop :=
  ∀ answer, (c.switched false).compile m locale e = .ok answer →
    ∃ answer', (c.switched true).compile m locale e = .ok answer' ∧
      ∀ doc : IndexedDocument, doc.Matches answer' ↔ doc.Matches answer

/-! ## Faithful compilers -/

theorem unchanged_of_faithful (h : V.Faithful (c.switched false) m locale) (hcovers : V.Covers e)
    (hshaped : IsShaped e) : Unchanged c m locale e := by
  intro answer hanswer
  have hjoin := h.daysJoin rfl
  have hleaves := h.leavesIn hcovers hanswer
  obtain ⟨e', he'⟩ := Option.ne_none_iff_exists'.mp (optimize?_ne_none hjoin hleaves)
  have hnormal := isNormal_optimize? hjoin.toLeafClosed hleaves he'
  obtain ⟨_, hcompile, htruth⟩ :=
    agrees hshaped (fun s hs hleaf => (hleaves s hs hleaf).1)
  obtain rfl := Except.ok.inj (hanswer.symm.trans hcompile)
  obtain ⟨answer', hcompile', htruth'⟩ :=
    agrees hnormal.isShaped (fun s hs hleaf => (hnormal.leavesIn s hs hleaf).1)
  refine ⟨answer', compile_switched_true.mpr ⟨e', he', hcompile'⟩, fun doc => ?_⟩
  have hsame := truth_optimize? hjoin.toLeafClosed (h.leafLaws rfl doc) hleaves he'
  rw [matches_iff, matches_iff, ← htruth doc, ← htruth' doc, hsame]

/-! ## Unfaithful compilers -/

theorem covers_pair {connective : Connective} (hx : x.isLeaf = true) (hy : y.isLeaf = true)
    (hhas : V.Has x) (hhas' : V.Has y) : V.Covers (operation connective [x, y]) := by
  rw [Vocabulary.Covers, leavesIn_operation]
  intro z hz
  rcases List.mem_pair.mp hz with rfl | rfl
  · exact leavesIn_of_isLeaf hhas hx
  · exact leavesIn_of_isLeaf hhas' hy

theorem isShaped_pair {connective : Connective} (hx : x.isLeaf = true)
    (hy : y.isLeaf = true ∨ y.isConstant = true) : IsShaped (operation connective [x, y]) := by
  intro connective' es hs
  rcases within_operation.mp hs with heq | ⟨z, hz, hs⟩
  · cases heq
    exact Or.inr ⟨x, List.mem_cons_self, by cases x <;> simp_all [isLeaf, hasTruth]⟩
  · have hbase : z.isLeaf = true ∨ z.isConstant = true := by
      rcases List.mem_pair.mp hz with rfl | rfl
      · exact Or.inl hx
      · exact hy
    rw [← eq_of_within_base hbase hs] at hbase
    simp [isLeaf, isConstant] at hbase

theorem compile_pair {connective : Connective} {q q' : Query} (hx : x.isLeaf = true)
    (hq : (c.switched false).compileTree m locale x = .ok (some q))
    (hq' : (c.switched false).compileTree m locale y = .ok (some q')) :
    (c.switched false).compile m locale (operation connective [x, y]) =
      .ok (some (.bool (clause connective) [q, q'])) := by
  have hempty : [x, y].all (·.isEmpty) = false := by
    cases x <;> simp_all [isLeaf, isEmpty]
  rw [compile_switched_false, compileTree, hempty, compileEach, compileEach, compileEach, hq, hq']
  rfl

/-- A pair of leaves that is left unchanged is optimized to what matches as both queries do. -/
theorem Unchanged.exists_of_pair {connective : Connective} {q q' : Query}
    (h : Unchanged c m locale (operation connective [x, y])) (hx : x.isLeaf = true)
    (hq : (c.switched false).compileTree m locale x = .ok (some q))
    (hq' : (c.switched false).compileTree m locale y = .ok (some q')) :
    ∃ e' answer, optimize? (operation connective [x, y]) = some e' ∧
      (c.switched false).compileTree m locale e' = .ok answer ∧
      ∀ doc : IndexedDocument,
        doc.Matches answer ↔ doc.Matches (some (.bool (clause connective) [q, q'])) := by
  obtain ⟨answer, hcompile, hmatches⟩ := h _ (compile_pair hx hq hq')
  obtain ⟨e', he', hcompile⟩ := compile_switched_true.mp hcompile
  exact ⟨e', answer, he', hcompile, hmatches⟩

theorem matches_should_pair {doc : IndexedDocument} {q q' : Query} :
    doc.Matches (some (.bool (clause .or) [q, q'])) ↔ q.MatchedBy doc ∨ q'.MatchedBy doc := by
  rw [IndexedDocument.Matches, clause, Query.matchedBy_should]
  simp

theorem matches_must_pair {doc : IndexedDocument} {q q' : Query} :
    doc.Matches (some (.bool (clause .and) [q, q'])) ↔ q.MatchedBy doc ∧ q'.MatchedBy doc := by
  rw [IndexedDocument.Matches, clause, Query.matchedBy_must]
  simp

theorem compileTree_isIn_one {v a : Value} (h : c.wireValue v = .ok a) :
    c.compileTree m locale (isIn field ⟨v, []⟩) =
      .ok (some (.terms (indexName m locale field) [a])) :=
  compileTree_isIn.mpr ⟨[a], .cons h .nil, rfl⟩

theorem toList_union_of_sameKey {v w : Value} (h : v.sameKey w = true) :
    (Choices.union ⟨v, []⟩ [⟨w, []⟩]).toList = [v] := by
  have hseen : (ValueKeys.empty.insert v).contains w = true := by
    rw [ValueKeys.contains_insert, Value.sameKey_symm h, Bool.true_or]
  simp [Choices.union, Choices.toList, Value.distinctFrom, hseen]

theorem intersect?_of_not_sameKey {v w : Value} (h : v.sameKey w = false) :
    Choices.intersect? ⟨v, []⟩ [⟨w, []⟩] = none := by
  rw [Choices.intersect?_eq_none_iff, List.eq_nil_iff_forall_not_mem]
  intro u hu
  obtain ⟨hu, heach⟩ := Value.mem_of_mem_intersect hu
  obtain rfl : u = v := List.mem_singleton.mp hu
  obtain ⟨w', hw', hkey⟩ := heach [w] List.mem_cons_self
  rw [List.mem_singleton.mp hw', h] at hkey
  contradiction

/-- A disjunction of two values with one key shows whether they are sent as one. -/
theorem eq_of_unchanged_or {v w a b : Value} (hv : (c.switched false).wireValue v = .ok a)
    (hw : (c.switched false).wireValue w = .ok b) (hkey : v.sameKey w = true)
    (h : Unchanged c m locale (operation .or [isIn field ⟨v, []⟩, isIn field ⟨w, []⟩])) :
    a = b := by
  obtain ⟨e', answer, he', hcompile, hmatches⟩ :=
    h.exists_of_pair rfl (compileTree_isIn_one hv) (compileTree_isIn_one hw)
  rw [optimize?_choices_pair, Option.some.injEq] at he'
  subst he'
  obtain ⟨ws, hws, rfl⟩ := compileTree_isIn.mp hcompile
  rw [toList_union_of_sameKey hkey, List.forall₂_cons_left_iff] at hws
  obtain ⟨a', _, ha', hnil, rfl⟩ := hws
  obtain rfl := List.forall₂_nil_left_iff.mp hnil
  obtain rfl := Except.ok.inj (hv.symm.trans ha')
  have hdoc := hmatches (.withValue b fun _ _ => True)
  rw [matches_should_pair] at hdoc
  simpa [IndexedDocument.Matches, Query.MatchedBy, IndexedDocument.withValue, eq_comm] using hdoc

/-- A conjunction of two values that are sent as one shows whether they have one key. -/
theorem sameKey_of_unchanged_and {v w a : Value} (hv : (c.switched false).wireValue v = .ok a)
    (hw : (c.switched false).wireValue w = .ok a)
    (h : Unchanged c m locale (operation .and [isIn field ⟨v, []⟩, isIn field ⟨w, []⟩])) :
    v.sameKey w = true := by
  rw [← Bool.not_eq_false]
  intro hkey
  obtain ⟨e', answer, he', hcompile, hmatches⟩ :=
    h.exists_of_pair rfl (compileTree_isIn_one hv) (compileTree_isIn_one hw)
  rw [optimize?_choices_pair, mergedChoices, isInAll, intersect?_of_not_sameKey hkey,
    Option.some.injEq] at he'
  subst he'
  obtain rfl := Except.ok.inj hcompile
  have hdoc := hmatches (.withValue a fun _ _ => True)
  rw [matches_must_pair] at hdoc
  simp [IndexedDocument.Matches, Query.MatchedBy, IndexedDocument.withValue] at hdoc

/-- A conjunction of two bounds shows whether they are sent as they are prepared. -/
theorem wireAs_of_unchanged_and (hfield : field ≠ fulltextField) {lower : LowerComparison}
    {upper : UpperComparison} {low high a b : Value} {phrase phrase' : Bool}
    (hlow : (c.switched false).wireAs phrase low = .ok a)
    (hhigh : (c.switched false).wireAs phrase' high = .ok b)
    (h : Unchanged c m locale (operation .and [value field lower.toComparison low phrase,
      value field upper.toComparison high phrase'])) :
    (c.switched false).wireAs false low = .ok a ∧ (c.switched false).wireAs false high = .ok b := by
  obtain ⟨e', answer, he', hcompile, hmatches⟩ :=
    h.exists_of_pair rfl ((compileTree_lower rfl hfield).mpr ⟨a, hlow, rfl⟩)
      ((compileTree_upper rfl hfield).mpr ⟨b, hhigh, rfl⟩)
  rw [optimize?_values_pair hfield, Option.some.injEq] at he'
  subst he'
  obtain ⟨a', b', ha', hb', rfl⟩ := compileTree_range.mp hcompile
  have hkeys : lowerKey lower ≠ upperKey upper := by
    cases lower <;> cases upper <;> simp [lowerKey, upperKey]
  have hdoc (satisfies : RangeKey → Value → Prop) :
      (satisfies (lowerKey lower) a' ∧ satisfies (upperKey upper) b') ↔
        satisfies (lowerKey lower) a ∧ satisfies (upperKey upper) b := by
    have hdoc := hmatches (.withValue .null satisfies)
    rw [matches_must_pair] at hdoc
    simpa [IndexedDocument.Matches, Query.MatchedBy, IndexedDocument.withValue] using hdoc
  have hboth := (hdoc fun key bound =>
    (key = lowerKey lower → bound = a) ∧ (key = upperKey upper → bound = b)).mpr
      (by simp [hkeys, hkeys.symm])
  rw [ha', hb', hboth.1.1 rfl, hboth.2.2 rfl]
  exact ⟨rfl, rfl⟩

/-- A negated conjunction with a neutral operand shows whether a leaf without a query is one. -/
theorem compileTree_ne_none_of_unchanged (hx : x.isLeaf = true)
    (h : Unchanged c m locale (mustNot (operation .and [x, everything]))) :
    (c.switched false).compileTree m locale x ≠ .ok none := by
  intro hnone
  have hempty : [x, everything].all (·.isEmpty) = false := by
    cases x <;> simp_all [isLeaf, isEmpty]
  have hraw : (c.switched false).compile m locale (mustNot (operation .and [x, everything])) =
      .ok (some (.not .matchAll)) := by
    rw [compile_switched_false, compileTree, compileTree, hempty, compileEach, compileEach,
      compileEach, hnone]
    rfl
  obtain ⟨answer, hcompile, hmatches⟩ := h _ hraw
  obtain ⟨e', he', hcompile⟩ := compile_switched_true.mp hcompile
  rw [optimize?, optimize?_with_everything hx, Option.map_some,
    negate_eq (isConstant_of_isLeaf hx), Option.some.injEq] at he'
  subst he'
  rw [compileTree, hnone] at hcompile
  obtain rfl := Except.ok.inj hcompile
  have hdoc := (hmatches (.withValue .null fun _ _ => True)).mp trivial
  simp [IndexedDocument.Matches, Query.matchedBy_not, Query.MatchedBy] at hdoc

theorem faithful_of_unchanged
    (h : ∀ e, V.Covers e → IsShaped e → Unchanged c m locale e) :
    V.Faithful (c.switched false) m locale where
  filters e he hleaf := by
    have hhas : V.Has e ∨ ∃ field cs, e = isIn field cs := by
      cases e
      case isIn field cs => exact Or.inr ⟨field, cs, rfl⟩
      all_goals exact Or.inl hleaf
    rcases hhas with hhas | ⟨field, cs, rfl⟩
    · refine compileTree_ne_none_of_unchanged he (h _ ?_ ?_)
      · rw [Vocabulary.Covers, leavesIn_mustNot, leavesIn_operation]
        intro z hz
        rcases List.mem_pair.mp hz with rfl | rfl
        · exact leavesIn_of_isLeaf hhas he
        · exact leavesIn_of_isConstant rfl
      · intro connective es hs
        rcases within_mustNot.mp hs with heq | hs
        · contradiction
        · exact isShaped_pair he (Or.inr rfl) connective es hs
    · intro hnone
      obtain ⟨_, -, heq⟩ := compileTree_isIn.mp hnone
      contradiction
  keys field v w a b hv hw hwv hww := by
    have hhas : V.Has (isIn field ⟨v, []⟩) := by simpa [Vocabulary.Has, Choices.toList] using hv
    have hhas' : V.Has (isIn field ⟨w, []⟩) := by simpa [Vocabulary.Has, Choices.toList] using hw
    have hpair (connective : Connective) :
        Unchanged c m locale (operation connective [isIn field ⟨v, []⟩, isIn field ⟨w, []⟩]) :=
      h _ (covers_pair rfl rfl hhas hhas') (isShaped_pair rfl (Or.inl rfl))
    constructor
    · intro hkey
      exact eq_of_unchanged_or hwv hww hkey (hpair .or)
    · rintro rfl
      exact sameKey_of_unchanged_and hwv hww (hpair .and)
  bounds field lower upper low high phrase phrase' a b hfield hleaf hleaf' hlow hhigh :=
    wireAs_of_unchanged_and hfield hlow hhigh
      (h _ (covers_pair rfl rfl hleaf hleaf') (isShaped_pair rfl (Or.inl rfl)))
  days field lower low high hfield hleaf hleaf' hlow hhigh hnone := by
    obtain ⟨q, hq⟩ := hlow
    obtain ⟨q', hq'⟩ := hhigh
    have hpair : Unchanged c m locale
        (operation .and [day field lower.toComparison low, day field .lt high]) :=
      h _ (covers_pair rfl rfl hleaf hleaf') (isShaped_pair rfl (Or.inl rfl))
    obtain ⟨e', _, he', -⟩ := hpair.exists_of_pair rfl hq hq'
    rw [optimize?_days_pair hfield lower low high hnone] at he'
    contradiction

/-! ## Operations that say nothing -/

theorem compileTree_of_not_hasTruth (hx : x.hasTruth = false) :
    c.compileTree m locale x = .ok none := by
  induction x using treeInduction with
  | base x hx' => cases x <;> simp_all [isLeaf, isConstant, hasTruth, compileTree]
  | operation => simp [hasTruth] at hx
  | mustNot x ih =>
    rw [compileTree, ih (by simpa [hasTruth] using hx)]
    rfl

theorem optimize?_of_not_hasTruth (hx : x.hasTruth = false) : optimize? x = some empty := by
  induction x using treeInduction with
  | base x hx' => cases x <;> simp_all [isLeaf, isConstant, hasTruth, optimize?]
  | operation => simp [hasTruth] at hx
  | mustNot x ih => rw [optimize?, ih (by simpa [hasTruth] using hx), Option.map_some, negate]

/-- An operation whose operands say nothing, though not all are empty, restricts nothing if it is
compiled as it is. -/
theorem compileTree_of_not_isWeighty {connective : Connective} {es : List Expr}
    (h : ¬ IsWeighty es) : c.compileTree m locale (operation connective es) = .ok none := by
  rw [IsWeighty, not_or, not_exists] at h
  have hnone : ∀ x ∈ es, c.compileTree m locale x = .ok none := fun x hx =>
    compileTree_of_not_hasTruth (Bool.eq_false_iff.mpr fun htruth => h.2 x ⟨hx, htruth⟩)
  have heach : c.compileEach m locale es = .ok (es.map fun _ => none) :=
    compileEach_eq_ok.mpr (List.forall₂_map_right_iff.mpr (List.forall₂_same.mpr hnone))
  have hqueries : (es.map fun _ => (none : Option Query)).filterMap id = [] := by
    simp
  rw [compileTree, if_neg h.1, heach, Except.map, combine, hqueries]

theorem optimize?_of_not_isWeighty {connective : Connective} {es : List Expr}
    (h : ¬ IsWeighty es) :
    optimize? (operation connective es) = some connective.identity := by
  rw [IsWeighty, not_or, not_exists] at h
  have hempty : ∀ x ∈ es, optimize? x = some empty := fun x hx =>
    optimize?_of_not_hasTruth (Bool.eq_false_iff.mpr fun htruth => h.2 x ⟨hx, htruth⟩)
  refine optimize?_operation_eq_some.mpr ⟨es.map fun _ => empty,
    List.forall₂_map_right_iff.mpr (List.forall₂_same.mpr hempty), ?_⟩
  have habsorbing : (es.map fun _ => empty).any connective.isAbsorbing = false := by
    rw [← Bool.not_eq_true, any_isAbsorbing_iff]
    cases connective <;> simp [Connective.absorbing]
  have hneutral : connective.dropNeutral (es.map fun _ => empty) = [] := by
    simp [Connective.dropNeutral, isNeutral_iff]
  rw [simplify?_of_not_absorbing habsorbing, hneutral]
  cases connective <;> rfl

theorem not_unchanged_of_nothing (hraw : (c.switched false).compileTree m locale e = .ok none)
    (hopt : optimize? e = some nothing) : ¬ Unchanged c m locale e := by
  intro h
  obtain ⟨answer, hcompile, hmatches⟩ := h none hraw
  obtain ⟨e', he', hcompile⟩ := compile_switched_true.mp hcompile
  obtain rfl := Option.some.inj (hopt.symm.trans he')
  obtain rfl := Except.ok.inj hcompile
  have hdoc := (hmatches (.withValue .null fun _ _ => True)).mpr trivial
  simp [IndexedDocument.Matches, Query.MatchedBy] at hdoc

/-- What it is optimized to is a constant, which it or its negation is not compiled to. -/
theorem not_unchanged_of_not_isWeighty {connective : Connective} {es : List Expr}
    (h : ¬ IsWeighty es) :
    ¬ Unchanged c m locale (operation connective es) ∨
      ¬ Unchanged c m locale (mustNot (operation connective es)) := by
  cases connective with
  | or =>
    exact Or.inl (not_unchanged_of_nothing (compileTree_of_not_isWeighty h)
      (optimize?_of_not_isWeighty h))
  | and =>
    refine Or.inr (not_unchanged_of_nothing ?_ ?_)
    · rw [compileTree, compileTree_of_not_isWeighty h]
      rfl
    · rw [optimize?, optimize?_of_not_isWeighty h]
      rfl

/-- Switching the optimizer on changes no search over a vocabulary exactly if the compiler is
faithful to it. This is so for trees in which every operation has operands that count; any other
operation or its negation is changed. -/
theorem unchanged_iff_faithful (c : Compiler) (m : Mapping) (locale : Option String)
    (V : Vocabulary) :
    ((∀ e, V.Covers e → IsShaped e → Unchanged c m locale e) ↔
      V.Faithful (c.switched false) m locale) ∧
    ∀ connective es, ¬ IsWeighty es →
      ¬ Unchanged c m locale (operation connective es) ∨
        ¬ Unchanged c m locale (mustNot (operation connective es)) :=
  ⟨⟨faithful_of_unchanged, fun h _ hcovers hshaped => unchanged_of_faithful h hcovers hshaped⟩,
    fun _ _ => not_unchanged_of_not_isWeighty⟩

/-- Two words as the only values of every field, and no other leaves. -/
def twoWords : Vocabulary where
  chosen _ v := v = .str "a" ∨ v = .str "b"
  leaf _ := False

theorem faithful_twoWords (m : Mapping) (locale : Option String) :
    twoWords.Faithful (standard.switched false) m locale where
  filters _ _ h := h.elim
  keys field v w a b hv hw ha hb := by
    have hwireA : (standard.switched false).wireValue (.str "a") = .ok (.str "a") := rfl
    have hwireB : (standard.switched false).wireValue (.str "b") = .ok (.str "b") := rfl
    rcases hv with rfl | rfl <;> rcases hw with rfl | rfl <;>
      simp only [hwireA, hwireB, Except.ok.injEq] at ha hb <;> subst ha <;> subst hb <;>
      simp [Value.sameKey, Value.sameOfKind, Value.same, Value.isFrozen]
  bounds _ _ _ _ _ _ _ _ _ _ h := h.elim
  days _ _ _ _ _ h := h.elim

/-- Sets of two words that the compiler does not change are found alike. -/
theorem unchanged_twoWords :
    Unchanged .standard ⟨[], none⟩ none
      (operation .and [isIn "tags" ⟨.str "a", [.str "b"]⟩, isIn "tags" ⟨.str "b", []⟩]) := by
  refine (unchanged_iff_faithful .standard ⟨[], none⟩ none twoWords).1.mpr
    (faithful_twoWords _ _) _ ?_ ?_
  · exact covers_pair rfl rfl (by simp [Vocabulary.Has, Choices.toList, twoWords])
      (by simp [Vocabulary.Has, Choices.toList, twoWords])
  · exact isShaped_pair rfl (Or.inl rfl)

/-- Two spellings of a value that are sent as one, but have two keys. -/
theorem not_unchanged_of_spellings :
    (standard.switched false).compile ⟨[], none⟩ none
        (operation .and [isIn "tags" ⟨.str "a ", []⟩, isIn "tags" ⟨.str "a", []⟩]) =
      .ok (some (.bool .must [.terms "tags" [.str "a"], .terms "tags" [.str "a"]])) ∧
    (standard.switched true).compile ⟨[], none⟩ none
        (operation .and [isIn "tags" ⟨.str "a ", []⟩, isIn "tags" ⟨.str "a", []⟩]) =
      .ok (some .matchNone) ∧
    ¬ Unchanged .standard ⟨[], none⟩ none
      (operation .and [isIn "tags" ⟨.str "a ", []⟩, isIn "tags" ⟨.str "a", []⟩]) := by
  have hv : (standard.switched false).wireValue (.str "a ") = .ok (.str "a") := rfl
  have hw : (standard.switched false).wireValue (.str "a") = .ok (.str "a") := rfl
  have hkey : (Value.str "a ").sameKey (.str "a") = false := by cbv
  have hname : indexName ⟨[], none⟩ none "tags" = "tags" := rfl
  have hfirst : (standard.switched false).compileTree ⟨[], none⟩ none
      (isIn "tags" ⟨.str "a ", []⟩) = .ok (some (.terms "tags" [.str "a"])) := by
    rw [compileTree_isIn_one hv, hname]
  have hsecond : (standard.switched false).compileTree ⟨[], none⟩ none
      (isIn "tags" ⟨.str "a", []⟩) = .ok (some (.terms "tags" [.str "a"])) := by
    rw [compileTree_isIn_one hw, hname]
  refine ⟨compile_pair rfl hfirst hsecond,
    compile_switched_true.mpr ⟨nothing, ?_, rfl⟩, fun h => ?_⟩
  · rw [optimize?_choices_pair, mergedChoices, isInAll, intersect?_of_not_sameKey hkey]
  · rw [sameKey_of_unchanged_and hv hw h] at hkey
    contradiction

end Compiler

end SearchExpr
