import SearchExpr.Proofs.Expr.NormalForm

/-! # The truth of trees

A tree is read over given truth values of its leaves. No restriction has no truth value, and a
connective reads only the operands that have one. Optimizing keeps the truth of a tree wherever the
merges of its leaves do.
-/

namespace SearchExpr

namespace Connective

def join : Connective → List Bool → Bool
  | and, bs => bs.all id
  | or, bs => bs.any id

/-- The truth value of an operand that decides the whole. -/
def deciding : Connective → Bool
  | and => false
  | or => true

theorem join_eq_iff {c : Connective} {bs : List Bool} :
    c.join bs = !c.deciding ↔ ∀ b ∈ bs, b = !c.deciding := by
  cases c <;> simp [join, deciding]

end Connective

namespace Expr

variable {c : Connective} {es out : List Expr} {e e' x y z : Expr} {L : Expr → Prop}
  {leaf : Expr → Bool}

/-! ## Reading a tree -/

mutual

/-- The truth value of a tree; there is none where nothing restricts. -/
def truth (leaf : Expr → Bool) : Expr → Option Bool
  | empty => none
  | everything => some true
  | nothing => some false
  | operation c es => some (c.join (truths leaf es))
  | mustNot e => (truth leaf e).map (!·)
  | e => some (leaf e)

/-- The truth values of the operands that have one. -/
def truths (leaf : Expr → Bool) : List Expr → List Bool
  | [] => []
  | e :: es => (truth leaf e).toList ++ truths leaf es

end

theorem mem_truths {b : Bool} : b ∈ truths leaf es ↔ ∃ x ∈ es, truth leaf x = some b := by
  induction es with
  | nil => simp [truths]
  | cons x es ih => simp [truths, ih]

theorem truth_of_isLeaf (h : e.isLeaf = true) : truth leaf e = some (leaf e) := by
  cases e <;> simp_all [isLeaf, truth]

/-- An operand that does not decide the operation. -/
def Idle (leaf : Expr → Bool) (c : Connective) (e : Expr) : Prop :=
  truth leaf e ≠ some c.deciding

theorem idle_of_isLeaf (h : e.isLeaf = true) : Idle leaf c e ↔ leaf e = !c.deciding := by
  rw [Idle, truth_of_isLeaf h, ne_eq, Option.some.injEq, Bool.eq_not]

theorem truth_operation_eq_iff :
    truth leaf (operation c es) = some (!c.deciding) ↔ ∀ x ∈ es, Idle leaf c x := by
  rw [truth, Option.some.injEq, Connective.join_eq_iff]
  constructor
  · intro h x hx hdeciding
    have hfalse := h _ (mem_truths.mpr ⟨x, hx, hdeciding⟩)
    simp at hfalse
  · intro h b hb
    obtain ⟨x, hx, htruth⟩ := mem_truths.mp hb
    exact Bool.eq_not.mpr fun hdeciding => h x hx (hdeciding ▸ htruth)

/-- Operations are told apart by whether some operand decides them. -/
theorem truth_operation_congr
    (h : (∀ x ∈ es, Idle leaf c x) ↔ ∀ x ∈ out, Idle leaf c x) :
    truth leaf (operation c es) = truth leaf (operation c out) := by
  rw [← truth_operation_eq_iff, ← truth_operation_eq_iff, truth, truth] at h
  rw [truth, truth]
  revert h
  cases c.join (truths leaf es) <;> cases c.join (truths leaf out) <;> cases c.deciding <;> simp

theorem truth_operation_of_mem (hx : x ∈ es) (h : truth leaf x = some c.deciding) :
    truth leaf (operation c es) = some c.deciding := by
  have hnot : truth leaf (operation c es) ≠ some (!c.deciding) := fun hall =>
    truth_operation_eq_iff.mp hall x hx h
  rw [truth, ne_eq, Option.some.injEq, Bool.eq_not, not_not] at hnot
  rw [truth, hnot]

theorem truths_congr (h : List.Forall₂ (fun x x' => truth leaf x' = truth leaf x) es out) :
    truths leaf out = truths leaf es := by
  induction h with
  | nil => rfl
  | cons hx _ ih => rw [truths, truths, hx, ih]

/-- Whether a tree has a truth value, whatever its leaves have. -/
def hasTruth : Expr → Bool
  | empty => false
  | mustNot e => hasTruth e
  | _ => true

theorem isSome_truth (leaf : Expr → Bool) (e : Expr) : (truth leaf e).isSome = e.hasTruth := by
  induction e using treeInduction with
  | base e he => cases e <;> simp_all [isLeaf, isConstant, truth, hasTruth]
  | operation c es _ => simp [truth, hasTruth]
  | mustNot e ih => rw [truth, hasTruth, Option.isSome_map, ih]

theorem truth_negate (e : Expr) : truth leaf (negate e) = (truth leaf e).map (!·) := by
  cases e <;> rfl

theorem truth_absorbing : truth leaf c.absorbing = some c.deciding := by
  cases c <;> rfl

theorem truth_identity : truth leaf c.identity = some (!c.deciding) := by
  cases c <;> rfl

/-! ## Merges -/

/-- Merged leaves are true where the leaves they come from are, all of them or some. -/
structure LeafLaws (L : Expr → Prop) (leaf : Expr → Bool) : Prop where
  union : ∀ field cs others, (∀ o ∈ cs :: others, L (isIn field o)) →
    (leaf (isIn field (cs.union others)) = true ↔ ∃ o ∈ cs :: others, leaf (isIn field o) = true)
  common : ∀ field cs others, (∀ o ∈ cs :: others, L (isIn field o)) →
    ((∃ common, cs.intersect? others = some common ∧ leaf (isIn field common) = true) ↔
      ∀ o ∈ cs :: others, leaf (isIn field o) = true)
  range : ∀ x z y, valueBounds.Joins x z y → L x → L z → leaf y = (leaf x && leaf z)
  dayRange : ∀ x z y, dayBounds.Joins x z y → L x → L z → leaf y = (leaf x && leaf z)

theorem idle_isIn {field : String} {cs : Choices} :
    Idle leaf c (isIn field cs) ↔ leaf (isIn field cs) = !c.deciding :=
  idle_of_isLeaf rfl

theorem idle_mustNot_isIn {field : String} {cs : Choices} :
    Idle leaf c (mustNot (isIn field cs)) ↔ leaf (isIn field cs) = c.deciding := by
  rw [Idle, truth, truth_of_isLeaf rfl, Option.map_some, ne_eq, Option.some.injEq, eq_comm,
    Bool.eq_not, not_not, eq_comm]

theorem idle_mergedChoices (hlaws : LeafLaws L leaf) {field : String} {cs : Choices}
    {others : List Choices} (h : ∀ o ∈ cs :: others, L (isIn field o)) :
    Idle leaf c (mergedChoices c field cs others) ↔
      ∀ o ∈ cs :: others, leaf (isIn field o) = !c.deciding := by
  cases c with
  | and =>
    rw [Connective.deciding, Bool.not_false, ← hlaws.common field cs others h, mergedChoices,
      isInAll]
    cases cs.intersect? others with
    | none => simp [Idle, truth, Connective.deciding]
    | some common => simp [idle_isIn, Connective.deciding]
  | or =>
    have hunion := hlaws.union field cs others h
    rw [mergedChoices, isInAny, idle_isIn]
    simp only [Connective.deciding, Bool.not_true, ← Bool.not_eq_true, hunion, not_exists, not_and]

theorem idle_mergedExclusions (hlaws : LeafLaws L leaf) {field : String} {cs : Choices}
    {others : List Choices} (h : ∀ o ∈ cs :: others, L (isIn field o)) :
    Idle leaf c (mergedExclusions c field cs others) ↔
      ∀ o ∈ cs :: others, leaf (isIn field o) = c.deciding := by
  cases c with
  | and =>
    have hunion := hlaws.union field cs others h
    rw [mergedExclusions, isInNone, idle_mustNot_isIn]
    simp only [Connective.deciding, ← Bool.not_eq_true, hunion, not_exists, not_and]
  | or =>
    rw [Connective.deciding, ← hlaws.common field cs others h, mergedExclusions, isNotInAll]
    cases cs.intersect? others with
    | none => simp [Idle, truth, Connective.deciding]
    | some common => simp [idle_mustNot_isIn, Connective.deciding]

theorem idle_mergeChoices (hlaws : LeafLaws L leaf) (hes : ∀ x ∈ es, IsNormal L x) :
    (∀ y ∈ mergeChoices c es, Idle leaf c y) ↔ ∀ x ∈ es, Idle leaf c x := by
  rw [mergeChoices_eq, forall_mem_mergeChoicesFrom (N := Idle leaf c)
    (H := fun field o => leaf (isIn field o) = !c.deciding)]
  · simp
  · intro x _ field cs hpart
    rw [choices?_eq_some.mp hpart, idle_isIn]
  · intro field cs others hfound
    exact idle_mergedChoices hlaws (leaf_of_foundIn_choices hes hfound)

theorem idle_mergeExclusions (hlaws : LeafLaws L leaf) (hes : ∀ x ∈ es, IsNormal L x) :
    (∀ y ∈ mergeExclusions c es, Idle leaf c y) ↔ ∀ x ∈ es, Idle leaf c x := by
  rw [mergeExclusions_eq, forall_mem_mergeChoicesFrom (N := Idle leaf c)
    (H := fun field o => leaf (isIn field o) = c.deciding)]
  · simp
  · intro x _ field cs hpart
    rw [exclusions?_eq_some.mp hpart, idle_mustNot_isIn]
  · intro field cs others hfound
    exact idle_mergedExclusions hlaws (leaf_of_foundIn_exclusions hes hfound)

theorem idle_and_of_eq_and (hx : x.isLeaf = true) (hz : z.isLeaf = true) (hy : y.isLeaf = true)
    (h : leaf y = (leaf x && leaf z)) :
    Idle leaf .and y ↔ Idle leaf .and x ∧ Idle leaf .and z := by
  rw [idle_of_isLeaf hx, idle_of_isLeaf hz, idle_of_isLeaf hy, h]
  simp [Connective.deciding]

theorem idle_mergeAll? (hclosed : LeafClosed L) (hlaws : LeafLaws L leaf)
    (hes : ∀ x ∈ es, IsNormal L x) (h : mergeAll? c es = some out) :
    (∀ y ∈ out, Idle leaf c y) ↔ ∀ x ∈ es, Idle leaf c x := by
  have hchoices : ∀ x ∈ mergeChoices c es, IsNormal L x := isNormal_mergeChoices hclosed hes
  have hidle : (∀ y ∈ mergeExclusions c (mergeChoices c es), Idle leaf c y) ↔
      ∀ x ∈ es, Idle leaf c x :=
    (idle_mergeExclusions hlaws hchoices).trans (idle_mergeChoices hlaws hes)
  cases c with
  | or => rw [← mergeAll?_or_eq_some.mp h, hidle]
  | and =>
    obtain ⟨mid, hmid, hout⟩ := mergeAll?_and_eq_some.mp h
    have hexclusions := isNormal_mergeExclusions (c := .and) hclosed hchoices
    have hmidNormal := isNormal_merge? (fun _ _ _ => isNormal_of_valueBounds_joins hclosed) hmid
      hexclusions
    rw [← hidle, BoundForm.forall_mem_merge? hout, BoundForm.forall_mem_merge? hmid]
    · intro x hx z hz y hjoins
      obtain ⟨_, _, _, _, _, _, _, -, rfl, horder⟩ := valueBounds_joins hjoins
      obtain ⟨hleaf, hleaf'⟩ := isLeaf_of_inEitherOrder horder rfl rfl
      exact idle_and_of_eq_and hleaf hleaf' rfl <| hlaws.range x z _ hjoins
        ((hexclusions x hx).of_isLeaf hleaf) ((hexclusions z hz).of_isLeaf hleaf')
    · intro x hx z hz y hjoins
      obtain ⟨_, _, _, _, _, _, _, -, -, -, rfl, horder⟩ := dayBounds_joins hjoins
      obtain ⟨hleaf, hleaf'⟩ := isLeaf_of_inEitherOrder horder rfl rfl
      exact idle_and_of_eq_and hleaf hleaf' rfl <| hlaws.dayRange x z _ hjoins
        ((hmidNormal x hx).of_isLeaf hleaf) ((hmidNormal z hz).of_isLeaf hleaf')

/-! ## Simplifying and optimizing -/

theorem idle_dropNeutral (c : Connective) (es : List Expr) :
    (∀ y ∈ c.dropNeutral es, Idle leaf c y) ↔ ∀ x ∈ es, Idle leaf c x := by
  constructor
  · intro h x hx
    by_cases hneutral : x = empty ∨ x = c.identity
    · rcases hneutral with rfl | rfl
      · simp [Idle, truth]
      · simp [Idle, truth_identity]
    · rw [not_or] at hneutral
      exact h x (mem_dropNeutral.mpr ⟨hx, hneutral⟩)
  · intro h y hy
    exact h y (mem_dropNeutral.mp hy).1

theorem hasTruth_of_isCore (h : IsCore L e) : e.hasTruth = true := by
  induction h with
  | @leaf e he => cases e <;> simp_all [isLeaf, hasTruth]
  | operation => rfl
  | mustNot _ ih => exact ih

theorem truth_collapse (hes : ∀ x ∈ es, IsCore L x) :
    truth leaf (collapse c es) = truth leaf (operation c es) := by
  match es with
  | [] => cases c <;> rfl
  | [e] =>
    have hsome : (truth leaf e).isSome = true := by
      rw [isSome_truth, hasTruth_of_isCore (hes e List.mem_cons_self)]
    obtain ⟨b, hb⟩ := Option.isSome_iff_exists.mp hsome
    cases c <;> simp [collapse, truth, truths, hb, Connective.join]
  | _ :: _ :: _ => rfl

theorem truth_settle (hes : ∀ x ∈ es, IsNormal L x) :
    truth leaf (settle c es) = truth leaf (operation c es) := by
  unfold settle
  split
  case isTrue h =>
    rw [truth_operation_of_mem (any_isAbsorbing_iff.mp h) truth_absorbing, truth_absorbing]
  case isFalse h =>
    rw [any_isAbsorbing_iff] at h
    rw [truth_collapse fun x hx => isCore_of_mem_dropNeutral hes h hx]
    exact truth_operation_congr (idle_dropNeutral c es)

/-- A simplified operation has the truth value of the operation. -/
theorem truth_simplify? (hclosed : LeafClosed L) (hlaws : LeafLaws L leaf)
    (hes : ∀ x ∈ es, IsNormal L x) (h : simplify? c es = some e) :
    truth leaf e = truth leaf (operation c es) := by
  cases hany : es.any c.isAbsorbing with
  | true =>
    rw [simplify?_of_absorbing hany, Option.some.injEq] at h
    rw [← h, truth_operation_of_mem (any_isAbsorbing_iff.mp hany) truth_absorbing,
      truth_absorbing]
  | false =>
    rw [simplify?_of_not_absorbing hany] at h
    obtain ⟨out, hout, rfl⟩ := Option.map_eq_some_iff.mp h
    have hdropped : ∀ x ∈ c.dropNeutral es, IsNormal L x := fun x hx =>
      hes x (mem_dropNeutral.mp hx).1
    calc truth leaf (settle c out)
      _ = truth leaf (operation c out) := truth_settle (isNormal_mergeAll? hclosed hdropped hout)
      _ = truth leaf (operation c (c.dropNeutral es)) :=
        truth_operation_congr (idle_mergeAll? hclosed hlaws hdropped hout)
      _ = truth leaf (operation c es) := truth_operation_congr (idle_dropNeutral c es)

/-- An optimized tree has the truth value of the tree. -/
theorem truth_optimize? (hclosed : LeafClosed L) (hlaws : LeafLaws L leaf)
    (hleaves : LeavesIn L e) (h : optimize? e = some e') : truth leaf e' = truth leaf e := by
  induction e using treeInduction generalizing e' with
  | base e he =>
    rw [optimize?_base he, Option.some.injEq] at h
    rw [h]
  | operation c es ih =>
    obtain ⟨out, hout, h⟩ := optimize?_operation_eq_some.mp h
    have hnormal : ∀ x' ∈ out, IsNormal L x' := by
      intro x' hx'
      obtain ⟨x, hx, hopt⟩ := exists_left_of_forall₂ hout hx'
      exact isNormal_optimize? hclosed (hleaves.operand hx) hopt
    have htruths : truths leaf out = truths leaf es := by
      have hsame : ∀ x ∈ es, ∀ x', optimize? x = some x' → truth leaf x' = truth leaf x :=
        fun x hx x' hopt => ih x hx (hleaves.operand hx) hopt
      have hboth := (List.forall₂_and_left es out).mpr ⟨hsame, hout⟩
      exact truths_congr (hboth.imp fun x x' h => h.1 x' h.2)
    rw [truth_simplify? hclosed hlaws hnormal h, truth, truth, htruths]
  | mustNot e ih =>
    obtain ⟨x, hx, rfl⟩ := optimize?_mustNot_eq_some.mp h
    rw [truth_negate, ih hleaves.negated hx, truth]

end Expr

end SearchExpr
