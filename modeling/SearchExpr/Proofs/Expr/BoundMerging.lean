import Mathlib.Tactic.ByContra
import SearchExpr.Expr.Simplify

/-! # Joining bounds in a list of operands

The lower bounds on a field are joined with the upper bounds on it, first with first and so on, so
every bound is either kept or part of one joined condition, and what is kept on a field is of one
side only. The laws speak of any form of bounds.
-/

namespace SearchExpr.Expr

/-- The element of a given number among those that a function is defined on. -/
theorem getElem?_filterMap_eq_some {α β : Type} {g : α → Option β} {xs : List α} {k : Nat} {v : β} :
    (xs.filterMap g)[k]? = some v ↔
      ∃ before x after, xs = before ++ x :: after ∧ g x = some v ∧
        (before.filterMap g).length = k := by
  constructor
  · intro h
    induction xs generalizing k with
    | nil => simp at h
    | cons x xs ih =>
      cases hx : g x with
      | none =>
        rw [List.filterMap_cons_none hx] at h
        obtain ⟨before, y, after, rfl, hy, hk⟩ := ih h
        exact ⟨x :: before, y, after, rfl, hy, by rwa [List.filterMap_cons_none hx]⟩
      | some w =>
        rw [List.filterMap_cons_some hx] at h
        cases k with
        | zero => exact ⟨[], x, xs, rfl, hx.trans (by simpa using h), rfl⟩
        | succ k =>
          obtain ⟨before, y, after, rfl, hy, hk⟩ := ih (by simpa using h)
          refine ⟨x :: before, y, after, rfl, hy, ?_⟩
          rw [List.filterMap_cons_some hx, List.length_cons, hk]
  · rintro ⟨before, x, after, rfl, hx, rfl⟩
    rw [List.filterMap_append, List.filterMap_cons_some hx,
      List.getElem?_append_right (Nat.le_refl _)]
    simp

theorem exists_split_filterMap {α β : Type} {g : α → Option β} {xs : List α} {k : Nat}
    (h : k < (xs.filterMap g).length) :
    ∃ before x after v, xs = before ++ x :: after ∧ g x = some v ∧
      (before.filterMap g).length = k := by
  obtain ⟨before, x, after, hxs, hx, hk⟩ :=
    getElem?_filterMap_eq_some.mp (List.getElem?_eq_getElem h)
  exact ⟨before, x, after, _, hxs, hx, hk⟩

theorem length_lt_of_split {α β : Type} {g : α → Option β} {xs before after : List α} {x : α}
    {v : β} (hxs : xs = before ++ x :: after) (hx : g x = some v) :
    (before.filterMap g).length < (xs.filterMap g).length := by
  rw [hxs, List.filterMap_append, List.filterMap_cons_some hx, List.length_append,
    List.length_cons]
  omega

/-- An element of one kind with more of another kind before it than of its own: the one of its
number among those has it as the counterpart of the same number. -/
theorem exists_counterpart {α β γ : Type} {own : α → Option β} {other : α → Option γ}
    (hdisjoint : ∀ x, other x ≠ none → own x = none) {before : List α} (after : List α) {x : α}
    {v : β} (hx : own x = some v)
    (h : (before.filterMap own).length < (before.filterMap other).length) :
    ∃ b z a w, before = b ++ z :: a ∧ other z = some w ∧
      (b.filterMap own).length ≤ (b.filterMap other).length ∧
      ((a ++ x :: after).filterMap own)[(b.filterMap other).length - (b.filterMap own).length]? =
        some v := by
  obtain ⟨b, z, a, w, rfl, hz, hk⟩ := exists_split_filterMap h
  have hown : own z = none := hdisjoint z (by simp [hz])
  have hlength : (b.filterMap own).length + (a.filterMap own).length =
      (b.filterMap other).length := by
    rw [hk, List.filterMap_append, List.filterMap_cons_none hown, List.length_append]
  refine ⟨b, z, a, w, rfl, hz, by omega, ?_⟩
  have hindex : (b.filterMap other).length - (b.filterMap own).length =
      (a.filterMap own).length := by omega
  rw [hindex, List.filterMap_append, List.filterMap_cons_some hx]
  simp

namespace Bound

variable {α : Type}

def field : Bound α → String
  | lower f _ _ | upper f _ _ => f

def isLower : Bound α → Bool
  | lower .. => true
  | upper .. => false

end Bound

namespace BoundForm

variable {α : Type} {form : BoundForm α} {before after es out : List Expr} {e x y z : Expr}
  {b b' : Bound α}

/-! ## The two sides of a field -/

/-- The bound of an operand, if it is on a given side of a given field. -/
def side? (form : BoundForm α) (field : String) (isLower : Bool) (x : Expr) : Option (Bound α) :=
  (form.bound? x).filter fun b => b.field = field ∧ b.isLower = isLower

/-- The bound of an operand on the field and the side of a given one. -/
def ownSide? (form : BoundForm α) (b : Bound α) : Expr → Option (Bound α) :=
  form.side? b.field b.isLower

/-- The bound of an operand on the field of a given one and the other side. -/
def otherSide? (form : BoundForm α) (b : Bound α) : Expr → Option (Bound α) :=
  form.side? b.field (!b.isLower)

theorem side?_eq_some {field : String} {isLower : Bool} :
    form.side? field isLower x = some b ↔
      form.bound? x = some b ∧ b.field = field ∧ b.isLower = isLower := by
  simp [side?, Option.filter_eq_some_iff]

theorem ownSide?_eq_some :
    form.ownSide? b x = some b' ↔
      form.bound? x = some b' ∧ b'.field = b.field ∧ b'.isLower = b.isLower :=
  side?_eq_some

theorem otherSide?_eq_some :
    form.otherSide? b x = some b' ↔
      form.bound? x = some b' ∧ b'.field = b.field ∧ b'.isLower = !b.isLower :=
  side?_eq_some

theorem ownSide?_eq_none (h : form.otherSide? b x ≠ none) : form.ownSide? b x = none := by
  obtain ⟨b', hb'⟩ := Option.ne_none_iff_exists'.mp h
  obtain ⟨hbound, -, hside⟩ := otherSide?_eq_some.mp hb'
  simp [ownSide?, side?, hbound, hside]

theorem sides_of_opposite (form : BoundForm α) (hfield : b'.field = b.field)
    (hside : b'.isLower = !b.isLower) :
    form.ownSide? b' = form.otherSide? b ∧ form.otherSide? b' = form.ownSide? b := by
  unfold ownSide? otherSide?
  rw [hfield, hside, Bool.not_not]
  exact ⟨rfl, rfl⟩

theorem lowerOn?_eq_some {field : String} {lower : LowerComparison} {low : α} :
    form.lowerOn? field x = some (lower, low) ↔ form.bound? x = some (.lower field lower low) := by
  unfold lowerOn?
  cases form.bound? x with
  | none => simp
  | some b => cases b <;> simp

theorem upperOn?_eq_some {field : String} {upper : UpperComparison} {high : α} :
    form.upperOn? field x = some (upper, high) ↔
      form.bound? x = some (.upper field upper high) := by
  unfold upperOn?
  cases form.bound? x with
  | none => simp
  | some b => cases b <;> simp

theorem side?_lower {field : String} (x : Expr) :
    form.side? field true x = (form.lowerOn? field x).map fun p => .lower field p.1 p.2 := by
  unfold lowerOn? side?
  cases form.bound? x with
  | none => rfl
  | some b =>
    cases b with
    | lower f => by_cases h : f = field <;> simp [Bound.field, Bound.isLower, Option.filter, h]
    | upper => simp [Bound.isLower, Option.filter]

theorem side?_upper {field : String} (x : Expr) :
    form.side? field false x = (form.upperOn? field x).map fun p => .upper field p.1 p.2 := by
  unfold upperOn? side?
  cases form.bound? x with
  | none => rfl
  | some b =>
    cases b with
    | lower => simp [Bound.isLower, Option.filter]
    | upper f => by_cases h : f = field <;> simp [Bound.field, Bound.isLower, Option.filter, h]

theorem filterMap_map_eq {β γ : Type} {g : Expr → Option β} {g' : Expr → Option γ} {f : β → γ}
    (h : ∀ x, g' x = (g x).map f) (xs : List Expr) :
    xs.filterMap g' = (xs.filterMap g).map f := by
  rw [List.map_filterMap, funext h]

/-- The condition that joins two bounds, if they are on one field and of different sides. -/
def joinBounds? (form : BoundForm α) : Bound α → Bound α → Option Expr
  | .lower field lower low, .upper field' upper high
  | .upper field' upper high, .lower field lower low =>
    if field' = field then form.join field lower low upper high else none
  | _, _ => none

theorem joinBounds?_comm : form.joinBounds? b b' = form.joinBounds? b' b := by
  cases b <;> cases b' <;> rfl

/-- A bound is dropped if the one of its number on the other side stands before it, joined with it
if it stands after, and kept if there is none. -/
theorem outcome?_eq (h : form.bound? e = some b) :
    form.outcome? before e after =
      if (before.filterMap (form.ownSide? b)).length <
          (before.filterMap (form.otherSide? b)).length then some .dropped
      else
        match (after.filterMap (form.otherSide? b))[(before.filterMap (form.ownSide? b)).length -
            (before.filterMap (form.otherSide? b)).length]? with
        | some b' => (form.joinBounds? b b').map .joined
        | none => some .kept := by
  unfold outcome? ownSide? otherSide?
  cases b with
  | lower field lower low =>
    simp only [h, Bound.field, Bound.isLower, Bool.not_true, filterMap_map_eq side?_lower,
      filterMap_map_eq side?_upper, List.length_map, List.getElem?_map]
    generalize (after.filterMap (form.upperOn? field))[
      (before.filterMap (form.lowerOn? field)).length -
        (before.filterMap (form.upperOn? field)).length]? = found
    cases found <;> simp [joinBounds?]
  | upper field upper high =>
    simp only [h, Bound.field, Bound.isLower, Bool.not_false, filterMap_map_eq side?_lower,
      filterMap_map_eq side?_upper, List.length_map, List.getElem?_map]
    generalize (after.filterMap (form.lowerOn? field))[
      (before.filterMap (form.upperOn? field)).length -
        (before.filterMap (form.lowerOn? field)).length]? = found
    cases found <;> simp [joinBounds?]

/-! ## One operand -/

/-- Two bounds on one field, of different sides, and the condition that joins them. -/
def Joins (form : BoundForm α) (x z y : Expr) : Prop :=
  ∃ b b', form.bound? x = some b ∧ form.bound? z = some b' ∧ form.joinBounds? b b' = some y

theorem Joins.symm (h : form.Joins x z y) : form.Joins z x y := by
  obtain ⟨b, b', hx, hz, hjoin⟩ := h
  exact ⟨b', b, hz, hx, joinBounds?_comm.trans hjoin⟩

theorem outcome?_of_none (h : form.bound? e = none) :
    form.outcome? before e after = some .kept := by
  simp [outcome?, h]

theorem exists_bound_of_ne_kept {o : Outcome} (h : form.outcome? before e after = some o)
    (hne : o ≠ .kept) : ∃ b, form.bound? e = some b := by
  apply Option.ne_none_iff_exists'.mp
  intro hnone
  rw [outcome?_of_none hnone, Option.some.injEq] at h
  exact hne h.symm

theorem exists_joins_of_joined (h : form.outcome? before e after = some (.joined y)) :
    ∃ z ∈ after, form.Joins e z y := by
  obtain ⟨b, hbound⟩ := exists_bound_of_ne_kept h (by simp)
  rw [outcome?_eq hbound] at h
  split at h
  · simp at h
  · split at h
    case h_1 b' hget =>
      obtain ⟨y', hjoin, hy⟩ := Option.map_eq_some_iff.mp h
      cases hy
      obtain ⟨z, hz, hother⟩ := List.mem_filterMap.mp (List.mem_of_getElem? hget)
      exact ⟨z, hz, b, b', hbound, (otherSide?_eq_some.mp hother).1, hjoin⟩
    case h_2 => simp at h

/-- A dropped bound is the counterpart of an earlier one, which cannot but be joined with it. -/
theorem exists_joins_of_dropped (h : form.outcome? before e after = some .dropped) :
    ∃ bs z as, before = bs ++ z :: as ∧
      ∀ o, form.outcome? bs z (as ++ e :: after) = some o →
        ∃ y, o = .joined y ∧ form.Joins z e y := by
  obtain ⟨b, hbound⟩ := exists_bound_of_ne_kept h (by simp)
  rw [outcome?_eq hbound] at h
  split at h
  case isTrue hlt =>
    have hown : form.ownSide? b e = some b := ownSide?_eq_some.mpr ⟨hbound, rfl, rfl⟩
    have hdisjoint : ∀ x, form.otherSide? b x ≠ none → form.ownSide? b x = none :=
      fun _ => ownSide?_eq_none
    obtain ⟨bs, z, as, b', rfl, hz, hle, hget⟩ := exists_counterpart hdisjoint after hown hlt
    refine ⟨bs, z, as, rfl, fun o ho => ?_⟩
    obtain ⟨hz, hfield, hside⟩ := otherSide?_eq_some.mp hz
    have hsides := sides_of_opposite form hfield hside
    rw [outcome?_eq hz, hsides.1, hsides.2, if_neg (Nat.not_lt.mpr hle), hget] at ho
    obtain ⟨y, hjoin, rfl⟩ := Option.map_eq_some_iff.mp ho
    exact ⟨y, rfl, b', b, hz, hbound, hjoin⟩
  case isFalse => split at h <;> simp at h

/-- A bound is not on the other side of itself. -/
theorem otherSide?_self (hbound : form.bound? e = some b) : form.otherSide? b e = none := by
  cases hother : form.otherSide? b e with
  | none => rfl
  | some b' =>
    have hown : form.ownSide? b e = none := ownSide?_eq_none (by simp [hother])
    rw [ownSide?_eq_some.mpr ⟨hbound, rfl, rfl⟩] at hown
    contradiction

/-- A bound is kept only if there is none of its number on the other side. -/
theorem length_otherSide_le_of_kept (h : form.outcome? before e after = some .kept)
    (hbound : form.bound? e = some b) :
    ((before ++ e :: after).filterMap (form.otherSide? b)).length ≤
      (before.filterMap (form.ownSide? b)).length := by
  have hnone : form.otherSide? b e = none := otherSide?_self hbound
  rw [outcome?_eq hbound] at h
  split at h
  case isTrue => simp at h
  case isFalse hle =>
    split at h
    case h_1 => simp at h
    case h_2 hget =>
      have hlength := List.getElem?_eq_none_iff.mp hget
      rw [List.filterMap_append, List.filterMap_cons_none hnone, List.length_append]
      omega

/-- There is no outcome exactly if the bound cannot be joined with the one of its number on the
other side, which does not stand before it. -/
theorem outcome?_eq_none_iff (hbound : form.bound? e = some b) :
    form.outcome? before e after = none ↔
      (before.filterMap (form.otherSide? b)).length ≤ (before.filterMap (form.ownSide? b)).length ∧
        ∃ b', ((before ++ e :: after).filterMap (form.otherSide? b))[
          (before.filterMap (form.ownSide? b)).length]? = some b' ∧
            form.joinBounds? b b' = none := by
  have hafter : (before ++ e :: after).filterMap (form.otherSide? b) =
      before.filterMap (form.otherSide? b) ++ after.filterMap (form.otherSide? b) := by
    rw [List.filterMap_append, List.filterMap_cons_none (otherSide?_self hbound)]
  rw [outcome?_eq hbound, hafter]
  split
  case isTrue hlt =>
    simp only [reduceCtorEq, false_iff, not_and]
    intro hle
    omega
  case isFalse hle =>
    rw [List.getElem?_append_right (Nat.not_lt.mp hle)]
    cases (after.filterMap (form.otherSide? b))[(before.filterMap (form.ownSide? b)).length -
        (before.filterMap (form.otherSide? b)).length]? with
    | none => simp
    | some b' => simpa using fun _ => Nat.not_lt.mp hle

/-- A bound with none on the other side of its field stays as it is. -/
theorem outcome?_of_alone (h : ∀ b, form.bound? e = some b →
      (before ++ after).filterMap (form.otherSide? b) = []) :
    form.outcome? before e after = some .kept := by
  cases hbound : form.bound? e with
  | none => exact outcome?_of_none hbound
  | some b =>
    have hnil := h b hbound
    rw [List.filterMap_append, List.append_eq_nil_iff] at hnil
    simp [outcome?_eq hbound, hnil]

/-! ## All operands -/

theorem mergeFrom?_cons :
    form.mergeFrom? before (e :: after) = some out ↔
      ∃ o rest, form.outcome? before e after = some o ∧
        form.mergeFrom? (before ++ [e]) after = some rest ∧ out = o.apply e ++ rest := by
  simp only [mergeFrom?, Option.bind_eq_bind, Option.bind_eq_some_iff, Option.pure_def,
    Option.some.injEq]
  constructor
  · rintro ⟨o, ho, rest, hrest, rfl⟩
    exact ⟨o, rest, ho, hrest, rfl⟩
  · rintro ⟨o, rest, ho, hrest, rfl⟩
    exact ⟨o, ho, rest, hrest, rfl⟩

theorem mem_mergeFrom? (h : form.mergeFrom? before es = some out) :
    y ∈ out ↔ ∃ bs x as o, es = bs ++ x :: as ∧ form.outcome? (before ++ bs) x as = some o ∧
      y ∈ o.apply x := by
  induction es generalizing before out with
  | nil =>
    simp only [mergeFrom?, Option.some.injEq] at h
    subst h
    simp
  | cons e es ih =>
    obtain ⟨o, rest, ho, hrest, rfl⟩ := mergeFrom?_cons.mp h
    rw [List.mem_append, ih hrest]
    constructor
    · rintro (hy | ⟨bs, x, as, o', rfl, ho', hy⟩)
      · exact ⟨[], e, es, o, rfl, by rwa [List.append_nil], hy⟩
      · exact ⟨e :: bs, x, as, o', rfl, by rwa [List.append_cons], hy⟩
    · rintro ⟨bs, x, as, o', hes, ho', hy⟩
      cases bs with
      | nil =>
        obtain ⟨rfl, rfl⟩ : e = x ∧ es = as := by simpa using hes
        rw [List.append_nil, ho, Option.some.injEq] at ho'
        exact Or.inl (ho' ▸ hy)
      | cons b bs =>
        obtain ⟨rfl, rfl⟩ : e = b ∧ es = bs ++ x :: as := by simpa using hes
        exact Or.inr ⟨bs, x, as, o', rfl, by rwa [List.append_cons] at ho', hy⟩

theorem exists_outcome_of_mergeFrom? (h : form.mergeFrom? before es = some out)
    {bs as : List Expr} (hes : es = bs ++ x :: as) :
    ∃ o, form.outcome? (before ++ bs) x as = some o := by
  induction bs generalizing before es out with
  | nil =>
    subst hes
    obtain ⟨o, rest, ho, -⟩ := mergeFrom?_cons.mp h
    exact ⟨o, by rwa [List.append_nil]⟩
  | cons b bs ih =>
    subst hes
    obtain ⟨o, rest, -, hrest, -⟩ := mergeFrom?_cons.mp h
    rw [List.append_cons]
    exact ih hrest rfl

theorem mergeFrom?_eq_none_iff :
    form.mergeFrom? before es = none ↔
      ∃ bs x as, es = bs ++ x :: as ∧ form.outcome? (before ++ bs) x as = none := by
  constructor
  · intro h
    induction es generalizing before with
    | nil => simp [mergeFrom?] at h
    | cons e es ih =>
      cases ho : form.outcome? before e es with
      | none => exact ⟨[], e, es, rfl, by rwa [List.append_nil]⟩
      | some o =>
        have hrest : form.mergeFrom? (before ++ [e]) es = none := by
          rw [Option.eq_none_iff_forall_ne_some]
          intro rest hrest
          rw [mergeFrom?_cons.mpr ⟨o, rest, ho, hrest, rfl⟩] at h
          contradiction
        obtain ⟨bs, x, as, rfl, hx⟩ := ih hrest
        exact ⟨e :: bs, x, as, rfl, by rwa [List.append_cons]⟩
  · rintro ⟨bs, x, as, hes, hx⟩
    rw [Option.eq_none_iff_forall_ne_some]
    intro out hout
    obtain ⟨o, ho⟩ := exists_outcome_of_mergeFrom? hout hes
    rw [hx] at ho
    contradiction

/-- A merged list consists of operands and of joins of two operands each. -/
theorem mem_of_mem_merge? (h : form.merge? es = some out) (hy : y ∈ out) :
    y ∈ es ∨ ∃ x ∈ es, ∃ z ∈ es, form.Joins x z y := by
  obtain ⟨bs, x, as, o, rfl, ho, hy⟩ := (mem_mergeFrom? h).mp hy
  have hx : x ∈ bs ++ x :: as := by simp
  cases o with
  | kept => exact Or.inl (List.mem_singleton.mp hy ▸ hx)
  | joined e =>
    obtain ⟨z, hz, hjoins⟩ := exists_joins_of_joined ho
    refine Or.inr ⟨x, hx, z, by simp [hz], ?_⟩
    rwa [List.mem_singleton.mp hy]
  | dropped => exact absurd hy List.not_mem_nil

/-- Every operand is kept or joined with another one. -/
theorem mem_merge?_or_joined (h : form.merge? es = some out) (hx : x ∈ es) :
    x ∈ out ∨ ∃ z ∈ es, ∃ y ∈ out, form.Joins x z y := by
  obtain ⟨bs, as, rfl⟩ := List.mem_iff_append.mp hx
  obtain ⟨o, ho⟩ := exists_outcome_of_mergeFrom? h rfl
  cases o with
  | kept => exact Or.inl ((mem_mergeFrom? h).mpr ⟨bs, x, as, _, rfl, ho, by simp [Outcome.apply]⟩)
  | joined y =>
    obtain ⟨z, hz, hjoins⟩ := exists_joins_of_joined ho
    refine Or.inr ⟨z, by simp [hz], y, ?_, hjoins⟩
    exact (mem_mergeFrom? h).mpr ⟨bs, x, as, _, rfl, ho, by simp [Outcome.apply]⟩
  | dropped =>
    obtain ⟨bs', z, as', rfl, hjoined⟩ := exists_joins_of_dropped ho
    have hes : bs' ++ z :: as' ++ x :: as = bs' ++ z :: (as' ++ x :: as) := by simp
    obtain ⟨o, ho⟩ := exists_outcome_of_mergeFrom? h hes
    obtain ⟨y, rfl, hjoins⟩ := hjoined o ho
    refine Or.inr ⟨z, by simp, y, ?_, hjoins.symm⟩
    exact (mem_mergeFrom? h).mpr ⟨bs', z, _, _, hes, ho, by simp [Outcome.apply]⟩

/-- A property that a join has exactly if both its bounds have it is kept by merging. -/
theorem forall_mem_merge? {N : Expr → Prop} (h : form.merge? es = some out)
    (hN : ∀ x ∈ es, ∀ z ∈ es, ∀ y, form.Joins x z y → (N y ↔ N x ∧ N z)) :
    (∀ y ∈ out, N y) ↔ ∀ x ∈ es, N x := by
  constructor
  · intro hout x hx
    rcases mem_merge?_or_joined h hx with hx' | ⟨z, hz, y, hy, hjoins⟩
    · exact hout x hx'
    · exact ((hN x hx z hz y hjoins).mp (hout y hy)).1
  · intro hes y hy
    rcases mem_of_mem_merge? h hy with hy | ⟨x, hx, z, hz, hjoins⟩
    · exact hes y hy
    · exact (hN x hx z hz y hjoins).mpr ⟨hes x hx, hes z hz⟩

/-- No field has bounds of both sides. -/
def OneSided (form : BoundForm α) (es : List Expr) : Prop :=
  ∀ x ∈ es, ∀ b, form.bound? x = some b → ∀ z ∈ es, form.otherSide? b z = none

theorem oneSided_iff :
    form.OneSided es ↔ ∀ b ∈ es.filterMap form.bound?, ∀ b' ∈ es.filterMap form.bound?,
      b'.field = b.field → b'.isLower = b.isLower := by
  simp only [List.mem_filterMap]
  constructor
  · rintro h b ⟨x, hx, hb⟩ b' ⟨z, hz, hb'⟩ hfield
    by_contra hside
    have hnone := h x hx b hb z hz
    rw [otherSide?_eq_some.mpr ⟨hb', hfield, Bool.eq_not.mpr hside⟩] at hnone
    contradiction
  · intro h x hx b hb z hz
    refine Option.eq_none_iff_forall_ne_some.mpr fun b' hb' => ?_
    obtain ⟨hzb, hfield, hside⟩ := otherSide?_eq_some.mp hb'
    exact Bool.eq_not.mp hside (h b ⟨x, hx, hb⟩ b' ⟨z, hz, hzb⟩ hfield)

theorem oneSided_singleton (e : Expr) : form.OneSided [e] := by
  refine oneSided_iff.mpr fun b hb b' hb' _ => ?_
  cases h : form.bound? e <;> simp_all

theorem OneSided.not_both {field : String} {lower : LowerComparison} {low : α}
    {upper : UpperComparison} {high : α} (h : form.OneSided es) (hx : x ∈ es) (hz : z ∈ es)
    (hlower : form.bound? x = some (.lower field lower low)) :
    form.bound? z ≠ some (.upper field upper high) := by
  intro hupper
  have hother : form.otherSide? (.lower field lower low) z = some (.upper field upper high) :=
    otherSide?_eq_some.mpr ⟨hupper, rfl, by simp [Bound.isLower]⟩
  rw [h x hx _ hlower z hz] at hother
  contradiction

/-- If joins are no bounds, only bounds of one side remain on a field: of a lower and an upper one
that are kept each would have a greater number than the other. -/
theorem oneSided_merge? (h : form.merge? es = some out)
    (hjoin : ∀ x z y, form.Joins x z y → form.bound? y = none) : form.OneSided out := by
  have hkept : ∀ y ∈ out, ∀ b, form.bound? y = some b →
      ∃ bs as, es = bs ++ y :: as ∧ form.outcome? bs y as = some .kept := by
    intro y hy b hb
    obtain ⟨bs, x, as, o, hes, ho, hy⟩ := (mem_mergeFrom? h).mp hy
    cases o with
    | kept => exact List.mem_singleton.mp hy ▸ ⟨bs, as, hes, ho⟩
    | joined e =>
      obtain ⟨z, -, hjoins⟩ := exists_joins_of_joined ho
      rw [List.mem_singleton.mp hy, hjoin x z e hjoins] at hb
      contradiction
    | dropped => exact absurd hy List.not_mem_nil
  intro x hx b hb z hz
  refine Option.eq_none_iff_forall_ne_some.mpr fun b' hb' => ?_
  obtain ⟨hzb, hfield, hside⟩ := otherSide?_eq_some.mp hb'
  obtain ⟨bs, as, hes, hxkept⟩ := hkept x hx b hb
  obtain ⟨bs', as', hes', hzkept⟩ := hkept z hz b' hzb
  have hsides := sides_of_opposite form hfield hside
  have hle := length_otherSide_le_of_kept hxkept hb
  have hle' := length_otherSide_le_of_kept hzkept hzb
  rw [← hes] at hle
  rw [← hes', hsides.1, hsides.2] at hle'
  have hlt := length_lt_of_split hes (ownSide?_eq_some.mpr ⟨hb, rfl, rfl⟩)
  have hlt' := length_lt_of_split hes' hb'
  omega

/-- Where every field has bounds of one side, nothing is joined. -/
theorem mergeFrom?_eq_self (h : form.OneSided (before ++ es)) :
    form.mergeFrom? before es = some es := by
  induction es generalizing before with
  | nil => rfl
  | cons e es ih =>
    refine mergeFrom?_cons.mpr ⟨.kept, es, ?_, ih (by rwa [← List.append_cons]), rfl⟩
    refine outcome?_of_alone fun b hb => ?_
    rw [List.filterMap_eq_nil_iff]
    intro z hz
    exact h e (by simp) b hb z (by grind)

theorem merge?_eq_self (h : form.OneSided es) : form.merge? es = some es :=
  mergeFrom?_eq_self (by simpa using h)

/-- Two prefixes of a list: the longer one has no fewer elements of any kind. -/
theorem length_filterMap_le_of_split {β γ : Type} {g : β → Option γ} {bs as bs' as' : List β}
    (h : bs ++ as = bs' ++ as') (hle : bs.length ≤ bs'.length) :
    (bs.filterMap g).length ≤ (bs'.filterMap g).length := by
  have hbs : bs.Sublist bs' := (List.prefix_of_prefix_length_le ⟨as, h⟩ ⟨as', rfl⟩ hle).sublist
  exact (hbs.filterMap g).length_le

/-- Bounds cannot be merged exactly if some bound cannot be joined with the one of its number on the
other side. The join fails at the one of both that stands first. -/
theorem merge?_eq_none_iff_sides :
    form.merge? es = none ↔
      ∃ b b', ∃ k : Nat, (es.filterMap (form.ownSide? b))[k]? = some b ∧
        (es.filterMap (form.otherSide? b))[k]? = some b' ∧ form.joinBounds? b b' = none := by
  rw [merge?, mergeFrom?_eq_none_iff]
  simp only [List.nil_append]
  constructor
  · rintro ⟨bs, x, as, rfl, hnone⟩
    obtain ⟨b, hb⟩ : ∃ b, form.bound? x = some b := by
      rw [← Option.ne_none_iff_exists']
      intro hbound
      rw [outcome?_of_none hbound] at hnone
      contradiction
    obtain ⟨-, b', hb', hjoin⟩ := (outcome?_eq_none_iff hb).mp hnone
    have hown : form.ownSide? b x = some b := ownSide?_eq_some.mpr ⟨hb, rfl, rfl⟩
    exact ⟨b, b', _, getElem?_filterMap_eq_some.mpr ⟨bs, x, as, rfl, hown, rfl⟩, hb', hjoin⟩
  · rintro ⟨b, b', k, hb, hb', hjoin⟩
    obtain ⟨bs, x, as, hes, hx, hk⟩ := getElem?_filterMap_eq_some.mp hb
    obtain ⟨bs', z, as', hes', hz, hk'⟩ := getElem?_filterMap_eq_some.mp hb'
    have hxb := (ownSide?_eq_some.mp hx).1
    obtain ⟨hzb, hfield, hside⟩ := otherSide?_eq_some.mp hz
    have hsplit : bs ++ x :: as = bs' ++ z :: as' := hes.symm.trans hes'
    rcases Nat.le_total bs.length bs'.length with hle | hle
    · refine ⟨bs, x, as, hes, (outcome?_eq_none_iff hxb).mpr ⟨?_, b', ?_, hjoin⟩⟩
      · rw [hk, ← hk']
        exact length_filterMap_le_of_split hsplit hle
      · rwa [← hes, hk]
    · have hsides := sides_of_opposite form hfield hside
      refine ⟨bs', z, as', hes', (outcome?_eq_none_iff hzb).mpr ⟨?_, b, ?_, ?_⟩⟩
      · rw [hsides.1, hsides.2, hk', ← hk]
        exact length_filterMap_le_of_split hsplit.symm hle
      · rwa [hsides.1, hsides.2, ← hes', hk']
      · rwa [joinBounds?_comm]

theorem getElem?_lowerSide {field : String} {k : Nat} :
    (es.filterMap (form.side? field true))[k]? = some b ↔
      ∃ lower low, (es.filterMap (form.lowerOn? field))[k]? = some (lower, low) ∧
        Bound.lower field lower low = b := by
  rw [filterMap_map_eq side?_lower, List.getElem?_map, Option.map_eq_some_iff, Prod.exists]

theorem getElem?_upperSide {field : String} {k : Nat} :
    (es.filterMap (form.side? field false))[k]? = some b ↔
      ∃ upper high, (es.filterMap (form.upperOn? field))[k]? = some (upper, high) ∧
        Bound.upper field upper high = b := by
  rw [filterMap_map_eq side?_upper, List.getElem?_map, Option.map_eq_some_iff, Prod.exists]

/-- Bounds cannot be merged exactly if, on some field and for some number, the lower and the upper
bound of that number cannot be joined. -/
theorem merge?_eq_none_iff :
    form.merge? es = none ↔
      ∃ field, ∃ k : Nat, ∃ lower low upper high,
        (es.filterMap (form.lowerOn? field))[k]? = some (lower, low) ∧
          (es.filterMap (form.upperOn? field))[k]? = some (upper, high) ∧
            form.join field lower low upper high = none := by
  rw [merge?_eq_none_iff_sides]
  constructor
  · rintro ⟨b, b', k, hb, hb', hjoin⟩
    cases b with
    | lower field lower low =>
      obtain ⟨_, _, hlower, heq⟩ := getElem?_lowerSide.mp hb
      obtain ⟨upper, high, hupper, rfl⟩ := getElem?_upperSide.mp hb'
      cases heq
      refine ⟨field, k, lower, low, upper, high, hlower, hupper, ?_⟩
      simpa [joinBounds?, Bound.field] using hjoin
    | upper field upper high =>
      obtain ⟨_, _, hupper, heq⟩ := getElem?_upperSide.mp hb
      obtain ⟨lower, low, hlower, rfl⟩ := getElem?_lowerSide.mp hb'
      cases heq
      refine ⟨field, k, lower, low, upper, high, hlower, hupper, ?_⟩
      simpa [joinBounds?, Bound.field] using hjoin
  · rintro ⟨field, k, lower, low, upper, high, hlower, hupper, hjoin⟩
    refine ⟨.lower field lower low, .upper field upper high, k, ?_, ?_, by simpa [joinBounds?]⟩
    · exact getElem?_lowerSide.mpr ⟨lower, low, hlower, rfl⟩
    · exact getElem?_upperSide.mpr ⟨upper, high, hupper, rfl⟩

/-- Bounds are merged if every lower bound can be joined with every upper one on its field. -/
theorem merge?_ne_none (h : ∀ x ∈ es, ∀ z ∈ es, ∀ field lower low upper high,
      form.bound? x = some (.lower field lower low) →
        form.bound? z = some (.upper field upper high) →
          form.join field lower low upper high ≠ none) : form.merge? es ≠ none := by
  rw [ne_eq, merge?_eq_none_iff]
  rintro ⟨field, k, lower, low, upper, high, hlower, hupper, hjoin⟩
  obtain ⟨x, hx, hlower⟩ := List.mem_filterMap.mp (List.mem_of_getElem? hlower)
  obtain ⟨z, hz, hupper⟩ := List.mem_filterMap.mp (List.mem_of_getElem? hupper)
  exact h x hx z hz field lower low upper high (lowerOn?_eq_some.mp hlower)
    (upperOn?_eq_some.mp hupper) hjoin

/-- Two bounds that meet come to their join. -/
theorem merge?_pair {field : String} {lower : LowerComparison} {low : α}
    {upper : UpperComparison} {high : α} (hx : form.bound? x = some (.lower field lower low))
    (hz : form.bound? z = some (.upper field upper high)) :
    form.merge? [x, z] = (form.join field lower low upper high).map ([·]) := by
  cases h : form.join field lower low upper high <;>
    simp [merge?, mergeFrom?, outcome?, hx, hz, lowerOn?, upperOn?, h, Outcome.apply]

theorem merge?_pair_of_upper_first {field : String} {lower : LowerComparison} {low : α}
    {upper : UpperComparison} {high : α} (hx : form.bound? x = some (.upper field upper high))
    (hz : form.bound? z = some (.lower field lower low)) :
    form.merge? [x, z] = (form.join field lower low upper high).map ([·]) := by
  cases h : form.join field lower low upper high <;>
    simp [merge?, mergeFrom?, outcome?, hx, hz, lowerOn?, upperOn?, h, Outcome.apply]

/-- What is read off an operand that is no bound and no join is not changed by merging. -/
theorem filterMap_merge? {β : Type} {g : Expr → Option β}
    (hbound : ∀ x, form.bound? x ≠ none → g x = none)
    (hjoin : ∀ x z y, form.Joins x z y → g y = none) (h : form.merge? es = some out) :
    out.filterMap g = es.filterMap g := by
  suffices hfrom : ∀ before out, form.mergeFrom? before es = some out →
      out.filterMap g = es.filterMap g from hfrom [] out h
  clear h
  induction es with
  | nil =>
    intro before out h
    simp only [mergeFrom?, Option.some.injEq] at h
    rw [← h]
  | cons e es ih =>
    intro before out h
    obtain ⟨o, rest, ho, hrest, rfl⟩ := mergeFrom?_cons.mp h
    rw [List.filterMap_append, ih _ _ hrest, List.filterMap_cons]
    cases o with
    | kept => simp only [Outcome.apply, List.filterMap_cons]; cases g e <;> rfl
    | joined y =>
      obtain ⟨z, -, hjoins⟩ := exists_joins_of_joined ho
      obtain ⟨b, hb⟩ := exists_bound_of_ne_kept ho (by simp)
      simp [Outcome.apply, hjoin e z y hjoins, hbound e (by simp [hb])]
    | dropped =>
      obtain ⟨b, hb⟩ := exists_bound_of_ne_kept ho (by simp)
      simp [Outcome.apply, hbound e (by simp [hb])]

end BoundForm

end SearchExpr.Expr
