import SearchExpr.Expr.Optimize
import SearchExpr.Proofs.Outcome

/-! # Trees and their parts

A tree is made of leaves and constants by operations and negations. Every property of optimizing is
proved along this shape.
-/

namespace SearchExpr.Expr

variable {c : Connective} {es out : List Expr} {e e' s x : Expr} {L : Expr → Prop}

/-! ## Parts -/

/-- The conditions on one field, or on the full text. -/
def isLeaf : Expr → Bool
  | value .. | day .. | isIn .. | range .. | dayRange .. | fulltext _ => true
  | _ => false

def isConstant : Expr → Bool
  | empty | everything | nothing => true
  | _ => false

/-- The field that a condition names. -/
def field? : Expr → Option String
  | value field .. | day field .. | isIn field _ | range field .. | dayRange field .. => some field
  | _ => none

theorem isLeaf_of_field? {field : String} (h : e.field? = some field) : e.isLeaf = true := by
  cases e <;> first | rfl | simp [field?] at h

theorem isConstant_of_isLeaf (h : e.isLeaf = true) : e.isConstant = false := by
  cases e <;> first | rfl | simp [isLeaf] at h

/-- What holds of leaves and constants and goes from operands to a tree holds of all trees. -/
theorem treeInduction {P : Expr → Prop}
    (base : ∀ e, e.isLeaf = true ∨ e.isConstant = true → P e)
    (operation : ∀ c es, (∀ x ∈ es, P x) → P (operation c es))
    (mustNot : ∀ e, P e → P (mustNot e)) : ∀ e, P e
  | .operation c es => operation c es fun x _ => treeInduction base operation mustNot x
  | .mustNot e => mustNot e (treeInduction base operation mustNot e)
  | .empty => base _ (Or.inr rfl)
  | .everything => base _ (Or.inr rfl)
  | .nothing => base _ (Or.inr rfl)
  | .value .. => base _ (Or.inl rfl)
  | .day .. => base _ (Or.inl rfl)
  | .isIn .. => base _ (Or.inl rfl)
  | .range .. => base _ (Or.inl rfl)
  | .dayRange .. => base _ (Or.inl rfl)
  | .fulltext _ => base _ (Or.inl rfl)

/-- The trees that a tree is made of, itself among them. -/
inductive Within (s : Expr) : Expr → Prop where
  | whole : Within s s
  | operand {c : Connective} {es : List Expr} {x : Expr} (hx : x ∈ es) (h : Within s x) :
    Within s (operation c es)
  | negated {e : Expr} (h : Within s e) : Within s (mustNot e)

theorem within_operation :
    Within s (operation c es) ↔ s = operation c es ∨ ∃ x ∈ es, Within s x := by
  constructor
  · rintro (_ | ⟨hx, h⟩)
    · exact Or.inl rfl
    · exact Or.inr ⟨_, hx, h⟩
  · rintro (rfl | ⟨x, hx, h⟩)
    · exact .whole
    · exact .operand hx h

theorem within_mustNot : Within s (mustNot e) ↔ s = mustNot e ∨ Within s e := by
  constructor
  · rintro (_ | _ | h)
    · exact Or.inl rfl
    · exact Or.inr h
  · rintro (rfl | h)
    · exact .whole
    · exact .negated h

theorem eq_of_within_base (he : e.isLeaf = true ∨ e.isConstant = true) (h : Within s e) :
    s = e := by
  cases h with
  | whole => rfl
  | operand | negated => simp [isLeaf, isConstant] at he

/-- All leaves of a tree are of one sort. -/
def LeavesIn (L : Expr → Prop) (e : Expr) : Prop :=
  ∀ s, Within s e → s.isLeaf = true → L s

theorem LeavesIn.operand (h : LeavesIn L (operation c es)) (hx : x ∈ es) : LeavesIn L x :=
  fun s hs => h s (.operand hx hs)

theorem LeavesIn.negated (h : LeavesIn L (mustNot e)) : LeavesIn L e :=
  fun s hs => h s (.negated hs)

theorem leavesIn_operation :
    LeavesIn L (operation c es) ↔ ∀ x ∈ es, LeavesIn L x := by
  refine ⟨fun h x hx => h.operand hx, fun h s hs hleaf => ?_⟩
  rcases within_operation.mp hs with rfl | ⟨x, hx, hs⟩
  · simp [isLeaf] at hleaf
  · exact h x hx s hs hleaf

theorem leavesIn_mustNot : LeavesIn L (mustNot e) ↔ LeavesIn L e := by
  refine ⟨LeavesIn.negated, fun h s hs hleaf => ?_⟩
  rcases within_mustNot.mp hs with rfl | hs
  · simp [isLeaf] at hleaf
  · exact h s hs hleaf

theorem leavesIn_of_isLeaf (h : L e) (he : e.isLeaf = true) : LeavesIn L e := by
  intro s hs _
  rwa [eq_of_within_base (Or.inl he) hs]

theorem leavesIn_of_isConstant (he : e.isConstant = true) : LeavesIn L e := by
  intro s hs hleaf
  rw [eq_of_within_base (Or.inr he) hs] at hleaf
  simp [isConstant_of_isLeaf hleaf] at he

/-! ## Optimizing by the shape of a tree -/

theorem optimize?_base (he : e.isLeaf = true ∨ e.isConstant = true) : optimize? e = some e := by
  cases e <;> simp_all [isLeaf, isConstant, optimize?]

theorem optimizeAll?_eq_some :
    optimizeAll? es = some out ↔ List.Forall₂ (fun x x' => optimize? x = some x') es out := by
  induction es generalizing out with
  | nil => cases out <;> simp [optimizeAll?]
  | cons x es ih =>
    simp only [optimizeAll?, Option.bind_eq_bind, Option.bind_eq_some_iff, Option.pure_def,
      Option.some.injEq, List.forall₂_cons_left_iff, ← ih]
    constructor
    · rintro ⟨x', hx', es', hes', rfl⟩
      exact ⟨x', es', hx', hes', rfl⟩
    · rintro ⟨x', es', hx', hes', rfl⟩
      exact ⟨x', hx', es', hes', rfl⟩

theorem optimizeAll?_eq_none : optimizeAll? es = none ↔ ∃ x ∈ es, optimize? x = none := by
  induction es with
  | nil => simp [optimizeAll?]
  | cons x es ih =>
    rw [List.exists_mem_cons_iff, ← ih, optimizeAll?]
    cases optimize? x <;> cases optimizeAll? es <;> simp

theorem optimize?_operation_eq_some :
    optimize? (operation c es) = some e' ↔
      ∃ out, List.Forall₂ (fun x x' => optimize? x = some x') es out ∧
        simplify? c out = some e' := by
  simp [optimize?, Option.bind_eq_some_iff, optimizeAll?_eq_some]

theorem optimize?_operation_eq_none :
    optimize? (operation c es) = none ↔
      (∃ x ∈ es, optimize? x = none) ∨
        ∃ out, List.Forall₂ (fun x x' => optimize? x = some x') es out ∧
          simplify? c out = none := by
  simp only [optimize?, ← optimizeAll?_eq_none, ← optimizeAll?_eq_some]
  cases optimizeAll? es <;> simp

theorem optimize?_mustNot_eq_some :
    optimize? (mustNot e) = some e' ↔ ∃ x, optimize? e = some x ∧ negate x = e' := by
  simp [optimize?, Option.map_eq_some_iff]

end SearchExpr.Expr
