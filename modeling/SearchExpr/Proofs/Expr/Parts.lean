import SearchExpr.Proofs.Expr.Division
import SearchExpr.Proofs.Expr.NormalForm

/-! # The parts of a result

Merging divides the operands of an operation into parts: all choices on a field, all exclusions on
it, the lower and the upper bound of one number on it, and every other operand on its own. Each part
becomes one operand of the result, at the place of its first.
-/

namespace SearchExpr.Expr

variable {c : Connective} {es out before after : List Expr} {e e' y : Expr} {i k : Nat}

/-- All choices on a field, which are more than one, and what they are merged to. -/
def IsGathering (part? : Expr → Option (String × Choices))
    (merge : String → Choices → List Choices → Expr) (field : String) (es : List Expr) (p : Part) :
    Prop :=
  ∃ cs others, placed (onField part? field) 0 es = (p.first, cs) :: others ∧ others ≠ [] ∧
    p.others = others.map Prod.fst ∧ p.made = merge field cs (others.map Prod.snd)

/-- The lower and the upper bound of one number on a field and what they are joined to. -/
def IsJoining {α : Type} (form : BoundForm α) (field : String) (k : Nat) (es : List Expr)
    (p : Part) : Prop :=
  ∃ i j lower low upper high, (placed (form.lowerOn? field) 0 es)[k]? = some (i, lower, low) ∧
    (placed (form.upperOn? field) 0 es)[k]? = some (j, upper, high) ∧
      p.first = min i j ∧ p.others = [max i j] ∧
        form.join field lower low upper high = some p.made

/-- The parts of more than one operand. -/
inductive MergedFrom (c : Connective) (es : List Expr) (p : Part) : Prop where
  | choices {field : String} {all : Choices}
    (h : IsGathering choices? (mergedChoices c) field es p) (hmade : p.made = isIn field all)
  | exclusions {field : String} {all : Choices}
    (h : IsGathering exclusions? (mergedExclusions c) field es p)
    (hmade : p.made = mustNot (isIn field all))
  | values {field : String} {k : Nat} (hand : c = .and) (h : IsJoining valueBounds field k es p)
  | days {field : String} {k : Nat} (hand : c = .and) (h : IsJoining dayBounds field k es p)

/-- An operand that is in no merge is a part of its own, and unchanged. -/
inductive MadeFrom (c : Connective) (es : List Expr) (p : Part) : Prop where
  | kept (hothers : p.others = []) (hmade : es[p.first]? = some p.made)
    (hfree : ∀ q, MergedFrom c es q → p.first ∉ q.places)
  | merged (h : MergedFrom c es p)

/-! ## Sets on one field -/

section Choices

variable {part? : Expr → Option (String × Choices)}
  {merge : String → Choices → List Choices → Expr} {field : String} {cs : Choices} {p q : Part}

theorem onField_eq_some : onField part? field e = some cs ↔ part? e = some (field, cs) := by
  unfold onField
  cases part? e with
  | none => simp
  | some p => simp [Prod.ext_iff]

theorem mem_fieldsOf_iff :
    field ∈ fieldsOf part? es ↔ es.filterMap (onField part? field) ≠ [] := by
  rw [mem_fieldsOf]
  constructor
  · rintro ⟨e, he, cs, hpart⟩
    exact List.ne_nil_of_mem (mem_filterMap_onField.mpr ⟨e, he, hpart⟩)
  · intro h
    obtain ⟨cs, hcs⟩ := List.exists_mem_of_ne_nil _ h
    obtain ⟨e, he, hpart⟩ := mem_filterMap_onField.mp hcs
    exact ⟨e, he, cs, hpart⟩

/-- The choices of a gathering are at its places. -/
theorem IsGathering.places_eq (h : IsGathering part? merge field es p) :
    p.places = (placed (onField part? field) 0 es).map Prod.fst := by
  obtain ⟨cs, others, hall, -, hothers, -⟩ := h
  rw [hall, List.map_cons, ← hothers, Part.places]

theorem IsGathering.mem_places (h : IsGathering part? merge field es p) :
    i ∈ p.places ↔ ∃ e cs, es[i]? = some e ∧ part? e = some (field, cs) := by
  rw [h.places_eq, List.mem_map]
  constructor
  · rintro ⟨⟨i, cs⟩, hi, rfl⟩
    obtain ⟨e, he, hcs⟩ := mem_placed.mp hi
    exact ⟨e, cs, he, onField_eq_some.mp hcs⟩
  · rintro ⟨e, cs, he, hpart⟩
    exact ⟨(i, cs), mem_placed.mpr ⟨e, he, onField_eq_some.mpr hpart⟩, rfl⟩

theorem IsGathering.unique (hp : IsGathering part? merge field es p)
    (hq : IsGathering part? merge field es q) : p = q := by
  obtain ⟨cs, others, hall, -, hothers, hmade⟩ := hp
  obtain ⟨cs', others', hall', -, hothers', hmade'⟩ := hq
  rw [hall] at hall'
  obtain ⟨⟨hfirst, rfl⟩, rfl⟩ : (p.first = q.first ∧ cs = cs') ∧ others = others' := by
    simpa using hall'
  exact Part.ext hfirst (hothers.trans hothers'.symm) (hmade.trans hmade'.symm)

theorem exists_gathering (merge : String → Choices → List Choices → Expr)
    {others : List (Nat × Choices)}
    (h : placed (onField part? field) 0 es = (i, cs) :: others) (hne : others ≠ []) :
    ∃ p, IsGathering part? merge field es p ∧ p.first = i ∧
      p.made = merge field cs (others.map Prod.snd) := by
  have hascending : ((placed (onField part? field) 0 es).map Prod.fst).Pairwise (· < ·) :=
    pairwise_placed
  rw [h, List.map_cons] at hascending
  exact ⟨⟨i, others.map Prod.fst, merge field cs (others.map Prod.snd), hascending⟩,
    ⟨cs, others, h, hne, rfl, rfl⟩, rfl, rfl⟩

/-- The choices on a field go into a gathering if they are more than one. -/
theorem choiceRule_divides (part? : Expr → Option (String × Choices))
    (merge : String → Choices → List Choices → Expr) (es : List Expr) :
    Divides (choiceRule part? merge) (fun e => part? e ≠ none)
      (fun p => ∃ field, IsGathering part? merge field es p) es where
  idle before e after hnot := choiceRule_of_none (not_not.mp hnot)
  acts before e after hes htouched := by
    obtain ⟨⟨field, cs⟩, hpart⟩ := Option.ne_none_iff_exists'.mp htouched
    have hfield : onField part? field e = some cs := onField_eq_some.mpr hpart
    have hat : es[before.length]? = some e := by simp [hes]
    have hsplit : placed (onField part? field) 0 es = placed (onField part? field) 0 before ++
        (before.length, cs) :: placed (onField part? field) (before.length + 1) after := by
      rw [hes, placed_split hfield]
    have hmem {p : Part} (hp : IsGathering part? merge field es p) : before.length ∈ p.places :=
      hp.mem_places.mpr ⟨e, cs, hat, hpart⟩
    simp only [choiceRule, hpart]
    -- Choices after others go to the place of the first of these, which stands before them.
    cases hbefore : placed (onField part? field) 0 before with
    | cons first tail =>
      have hfound : field ∈ fieldsOf part? before := by
        rw [mem_fieldsOf_iff, ne_eq, ← placed_eq_nil_iff 0, hbefore]
        simp
      rw [if_pos hfound]
      rw [hbefore, List.cons_append] at hsplit
      obtain ⟨p, hp, hfirst, -⟩ := exists_gathering merge hsplit (by simp)
      have hlt : first.1 < before.length :=
        lt_length_of_mem_placed (hbefore ▸ List.mem_cons_self)
      refine Or.inr ⟨p, ⟨field, hp⟩, hmem hp, ?_⟩
      rw [if_neg (by omega)]
    | nil =>
      have hfound : field ∉ fieldsOf part? before := by
        rw [mem_fieldsOf_iff, not_not]
        exact (placed_eq_nil_iff 0).mp hbefore
      rw [if_neg hfound]
      rw [hbefore, List.nil_append] at hsplit
      cases hafter : after.filterMap (onField part? field) with
      | nil =>
        refine Or.inl ⟨rfl, ?_⟩
        rintro p ⟨field', hp⟩ hplace
        obtain ⟨e', cs', he', hpart'⟩ := hp.mem_places.mp hplace
        obtain rfl : e = e' := Option.some.inj (hat.symm.trans he')
        obtain ⟨rfl, -⟩ : field = field' ∧ cs = cs' := by simpa [hpart] using hpart'
        obtain ⟨cs'', others, hall, hothers, -⟩ := hp
        rw [hsplit, (placed_eq_nil_iff _).mpr hafter] at hall
        exact hothers (List.cons.inj hall).2.symm
      | cons o os =>
        have hne : placed (onField part? field) (before.length + 1) after ≠ [] := by
          rw [ne_eq, placed_eq_nil_iff, hafter]
          simp
        obtain ⟨p, hp, hfirst, hmade⟩ := exists_gathering merge hsplit hne
        refine Or.inr ⟨p, ⟨field, hp⟩, hmem hp, ?_⟩
        rw [if_pos hfirst, hmade, map_snd_placed, hafter]
  touches := by
    rintro p ⟨field, hp⟩ i hi
    obtain ⟨e, cs, he, hpart⟩ := hp.mem_places.mp hi
    exact ⟨e, he, by simp [hpart]⟩
  unique := by
    rintro p q i ⟨field, hp⟩ ⟨field', hq⟩ hi hi'
    obtain ⟨e, cs, he, hpart⟩ := hp.mem_places.mp hi
    obtain ⟨e', cs', he', hpart'⟩ := hq.mem_places.mp hi'
    rw [he, Option.some.injEq] at he'
    rw [← he', hpart, Option.some.injEq, Prod.mk.injEq] at hpart'
    exact hp.unique (hpart'.1 ▸ hq)

end Choices

/-! ## Bounds on one field -/

section Bounds

variable {α : Type} {form : BoundForm α} {field : String} {b b' : Bound α} {p q : Part} {j : Nat}

/-- A bound and the one of its number on the other side, with their places. -/
def Counterparts (form : BoundForm α) (es : List Expr) (k i j : Nat) (b b' : Bound α) : Prop :=
  (placed (form.ownSide? b) 0 es)[k]? = some (i, b) ∧
    (placed (form.otherSide? b) 0 es)[k]? = some (j, b')

theorem Counterparts.ne (h : Counterparts form es k i j b b') : i ≠ j := by
  rintro rfl
  obtain ⟨e, he, hown⟩ := mem_placed.mp (List.mem_of_getElem? h.1)
  obtain ⟨e', he', hother⟩ := mem_placed.mp (List.mem_of_getElem? h.2)
  rw [he, Option.some.injEq] at he'
  rw [he', BoundForm.ownSide?_eq_none (by simp [hother])] at hown
  contradiction

theorem getElem?_placed_lower :
    (placed (form.side? field true) 0 es)[k]? = some (i, b) ↔
      ∃ lower low, (placed (form.lowerOn? field) 0 es)[k]? = some (i, lower, low) ∧
        Bound.lower field lower low = b := by
  simp [placed_map BoundForm.side?_lower, Prod.ext_iff]

theorem getElem?_placed_upper :
    (placed (form.side? field false) 0 es)[k]? = some (i, b) ↔
      ∃ upper high, (placed (form.upperOn? field) 0 es)[k]? = some (i, upper, high) ∧
        Bound.upper field upper high = b := by
  simp [placed_map BoundForm.side?_upper, Prod.ext_iff]

/-- A joining has a bound at each of its places. -/
theorem IsJoining.exists_counterparts (h : IsJoining form field k es p) (hi : i ∈ p.places) :
    ∃ j b b', Counterparts form es k i j b b' ∧ form.joinBounds? b b' = some p.made ∧
      p.first = min i j ∧ p.others = [max i j] := by
  obtain ⟨i₁, j₁, lower, low, upper, high, hlower, hupper, hfirst, hothers, hjoin⟩ := h
  have hlower' := getElem?_placed_lower.mpr ⟨lower, low, hlower, rfl⟩
  have hupper' := getElem?_placed_upper.mpr ⟨upper, high, hupper, rfl⟩
  have hplace : i = i₁ ∨ i = j₁ := by
    rw [Part.places, hfirst, hothers, List.mem_pair] at hi
    omega
  rcases hplace with rfl | rfl
  · refine ⟨j₁, .lower field lower low, .upper field upper high, ⟨hlower', hupper'⟩, ?_,
      hfirst, hothers⟩
    simpa [BoundForm.joinBounds?] using hjoin
  · refine ⟨i₁, .upper field upper high, .lower field lower low, ⟨hupper', hlower'⟩, ?_,
      Nat.min_comm .. ▸ hfirst, Nat.max_comm .. ▸ hothers⟩
    simpa [BoundForm.joinBounds?] using hjoin

/-- Bounds of one number that can be joined are a joining. -/
theorem Counterparts.exists_joining (h : Counterparts form es k i j b b')
    (hjoin : form.joinBounds? b b' = some y) :
    ∃ p, IsJoining form b.field k es p ∧ p.first = min i j ∧ p.others = [max i j] ∧ p.made = y := by
  have hascending : [min i j, max i j].Pairwise (· < ·) := by
    have hne := h.ne
    rw [List.pairwise_pair]
    omega
  refine ⟨⟨min i j, [max i j], y, hascending⟩, ?_, rfl, rfl, rfl⟩
  cases b with
  | lower field lower low =>
    obtain ⟨_, _, hlower, heq⟩ := getElem?_placed_lower.mp h.1
    obtain ⟨upper, high, hupper, rfl⟩ := getElem?_placed_upper.mp h.2
    cases heq
    refine ⟨i, j, lower, low, upper, high, hlower, hupper, rfl, rfl, ?_⟩
    simpa [BoundForm.joinBounds?, Bound.field] using hjoin
  | upper field upper high =>
    obtain ⟨_, _, hupper, heq⟩ := getElem?_placed_upper.mp h.1
    obtain ⟨lower, low, hlower, rfl⟩ := getElem?_placed_lower.mp h.2
    cases heq
    refine ⟨j, i, lower, low, upper, high, hlower, hupper, Nat.min_comm .., ?_, ?_⟩
    · exact congrArg ([·]) (Nat.max_comm ..)
    · simpa [BoundForm.joinBounds?, Bound.field] using hjoin

theorem Counterparts.bound_eq (h : Counterparts form es k i j b b') (he : es[i]? = some e) :
    form.bound? e = some b := by
  obtain ⟨x, hx, hown⟩ := mem_placed.mp (List.mem_of_getElem? h.1)
  rw [he, Option.some.injEq] at hx
  exact hx ▸ (BoundForm.ownSide?_eq_some.mp hown).1

theorem IsJoining.exists_bound (h : IsJoining form field k es p) (hi : i ∈ p.places) :
    ∃ e b, es[i]? = some e ∧ form.bound? e = some b := by
  obtain ⟨j, b, b', hcounter, -⟩ := h.exists_counterparts hi
  obtain ⟨e, he, -⟩ := mem_placed.mp (List.mem_of_getElem? hcounter.1)
  exact ⟨e, b, he, hcounter.bound_eq he⟩

/-- A place is in one joining. -/
theorem IsJoining.unique {field' : String} {k' : Nat} (hp : IsJoining form field k es p)
    (hq : IsJoining form field' k' es q) (hi : i ∈ p.places) (hi' : i ∈ q.places) : p = q := by
  obtain ⟨e, b, he, hb⟩ := hp.exists_bound hi
  obtain ⟨j, b₁, b', hcounter, hjoin, hfirst, hothers⟩ := hp.exists_counterparts hi
  obtain ⟨j₂, b₂, b₂', hcounter', hjoin', hfirst', hothers'⟩ := hq.exists_counterparts hi'
  obtain rfl : b = b₁ := Option.some.inj (hb.symm.trans (hcounter.bound_eq he))
  obtain rfl : b = b₂ := Option.some.inj (hb.symm.trans (hcounter'.bound_eq he))
  obtain rfl := number_unique hcounter.1 hcounter'.1
  obtain ⟨rfl, rfl⟩ : j = j₂ ∧ b' = b₂' := by simpa [hcounter.2] using hcounter'.2
  rw [hjoin, Option.some.injEq] at hjoin'
  exact Part.ext (hfirst.trans hfirst'.symm) (hothers.trans hothers'.symm) hjoin'

theorem mem_places_of_pair (hfirst : p.first = min i j) (hothers : p.others = [max i j]) :
    i ∈ p.places := by
  rw [Part.places, hfirst, hothers, List.mem_pair]
  omega

theorem number_of_split (hes : es = before ++ e :: after) (hb : form.bound? e = some b) :
    (placed (form.ownSide? b) 0 es)[(before.filterMap (form.ownSide? b)).length]? =
      some (before.length, b) := by
  rw [hes]
  exact getElem?_placed_split (BoundForm.ownSide?_eq_some.mpr ⟨hb, rfl, rfl⟩)

theorem placed_otherSide (hes : es = before ++ e :: after) (hb : form.bound? e = some b) :
    placed (form.otherSide? b) 0 es = placed (form.otherSide? b) 0 before ++
      placed (form.otherSide? b) (before.length + 1) after := by
  rw [hes, placed_append, Nat.zero_add, placed_cons_none (BoundForm.otherSide?_self hb)]

/-- A bound is joined with its counterpart at the place of the one that stands first. -/
theorem boundRule_of_counterparts (hes : es = before ++ e :: after)
    (h : Counterparts form es k before.length j b b') (hjoin : form.joinBounds? b b' = some y) :
    boundRule form before e after = if j < before.length then none else some y := by
  have hb : form.bound? e = some b := h.bound_eq (by simp [hes])
  obtain rfl := number_unique (number_of_split hes hb) h.1
  have hother := h.2
  rw [placed_otherSide hes hb] at hother
  rw [boundRule, BoundForm.outcome?_eq hb]
  by_cases hlt : (before.filterMap (form.ownSide? b)).length <
      (before.filterMap (form.otherSide? b)).length
  · rw [List.getElem?_append_left (by rwa [length_placed])] at hother
    have hbefore : j < before.length := lt_length_of_mem_placed (List.mem_of_getElem? hother)
    rw [if_pos hlt, if_pos hbefore]
  · rw [List.getElem?_append_right (by rw [length_placed]; omega), length_placed] at hother
    have hafter : before.length + 1 ≤ j :=
      le_of_mem_placed (List.mem_map.mpr ⟨_, List.mem_of_getElem? hother, rfl⟩)
    rw [if_neg hlt, if_neg (by omega), getElem?_of_placed hother]
    simp only [hjoin, Option.map_some]

theorem boundRule_of_no_counterpart (hes : es = before ++ e :: after) (hb : form.bound? e = some b)
    (h : (placed (form.otherSide? b) 0 es)[(before.filterMap (form.ownSide? b)).length]? = none) :
    boundRule form before e after = some e := by
  rw [placed_otherSide hes hb, List.getElem?_eq_none_iff, List.length_append, length_placed,
    length_placed] at h
  rw [boundRule, BoundForm.outcome?_eq hb, if_neg (by omega), List.getElem?_eq_none (by omega)]

/-- A bound goes into a joining if there is one of its number on the other side. -/
theorem boundRule_divides (h : form.merge? es ≠ none) :
    Divides (boundRule form) (fun e => form.bound? e ≠ none)
      (fun p => ∃ field k, IsJoining form field k es p) es where
  idle before e after hnot := boundRule_of_none (not_not.mp hnot)
  acts before e after hes htouched := by
    obtain ⟨b, hb⟩ := Option.ne_none_iff_exists'.mp htouched
    have hown := number_of_split hes hb
    cases hfound : (placed (form.otherSide? b) 0 es)[
        (before.filterMap (form.ownSide? b)).length]? with
    | none =>
      refine Or.inl ⟨boundRule_of_no_counterpart hes hb hfound, ?_⟩
      rintro p ⟨field, k, hp⟩ hmem
      obtain ⟨j, b₁, b', hcounter, -⟩ := hp.exists_counterparts hmem
      obtain rfl : b = b₁ := Option.some.inj (hb.symm.trans (hcounter.bound_eq (by simp [hes])))
      rw [number_unique hown hcounter.1, hcounter.2] at hfound
      contradiction
    | some q =>
      obtain ⟨j, b'⟩ := q
      have hcounter : Counterparts form es _ before.length j b b' := ⟨hown, hfound⟩
      obtain ⟨y, hy⟩ : ∃ y, form.joinBounds? b b' = some y := by
        rw [← Option.ne_none_iff_exists']
        intro hnone
        exact h (BoundForm.merge?_eq_none_iff_sides.mpr ⟨b, b', _,
          getElem?_of_placed hown, getElem?_of_placed hfound, hnone⟩)
      obtain ⟨p, hp, hfirst, hothers, hmade⟩ := hcounter.exists_joining hy
      refine Or.inr ⟨p, ⟨_, _, hp⟩, mem_places_of_pair hfirst hothers, ?_⟩
      have hne := hcounter.ne
      rw [boundRule_of_counterparts hes hcounter hy, hmade]
      split
      · rw [if_neg (by omega)]
      · rw [if_pos (by omega)]
  touches := by
    rintro p ⟨field, k, hp⟩ i hi
    obtain ⟨e, b, he, hb⟩ := hp.exists_bound hi
    exact ⟨e, he, by simp [hb]⟩
  unique := by
    rintro p q i ⟨field, k, hp⟩ ⟨field', k', hq⟩ hi hi'
    exact hp.unique hq hi hi'

end Bounds

/-! ## Operations -/

variable {field : String} {p : Part}

theorem IsGathering.made_choices (h : IsGathering choices? (mergedChoices c) field es p) :
    (∃ all, p.made = isIn field all) ∨ p.made = c.absorbing := by
  obtain ⟨cs, others, -, -, -, hmade⟩ := h
  rw [hmade]
  exact mergedChoices_cases c field cs _

theorem IsGathering.made_exclusions (h : IsGathering exclusions? (mergedExclusions c) field es p) :
    (∃ all, p.made = mustNot (isIn field all)) ∨ p.made = c.absorbing := by
  obtain ⟨cs, others, -, -, -, hmade⟩ := h
  rw [hmade]
  exact mergedExclusions_cases c field cs _

theorem IsJoining.made_values (h : IsJoining valueBounds field k es p) :
    ∃ lower low upper high, p.made = range field lower low upper high := by
  obtain ⟨i, j, lower, low, upper, high, -, -, -, -, hjoin⟩ := h
  exact ⟨lower, low, upper, high, (Option.some.inj hjoin).symm⟩

theorem IsJoining.made_days (h : IsJoining dayBounds field k es p) :
    ∃ first last, p.made = dayRange field first last := by
  obtain ⟨i, j, lower, low, upper, high, -, -, -, -, hjoin⟩ := h
  simp only [dayBounds, Option.bind_eq_bind, Option.bind_eq_some_iff, Option.pure_def,
    Option.some.injEq] at hjoin
  obtain ⟨first, -, last, -, hmade⟩ := hjoin
  exact ⟨first, last, hmade.symm⟩

theorem MergedFrom.isNeutral_made (h : MergedFrom c es p) : c.isNeutral p.made = false := by
  cases h with
  | choices _ hmade | exclusions _ hmade =>
    rw [hmade]
    cases c <;> rfl
  | values _ h =>
    obtain ⟨_, _, _, _, hmade⟩ := h.made_values
    rw [hmade]
    cases c <;> rfl
  | days _ h =>
    obtain ⟨_, _, hmade⟩ := h.made_days
    rw [hmade]
    cases c <;> rfl

/-- The sets on a field, which are gathered under both connectives. -/
def IsSetGathering (c : Connective) (es : List Expr) (p : Part) : Prop :=
  (∃ field, IsGathering choices? (mergedChoices c) field es p) ∨
    ∃ field, IsGathering exclusions? (mergedExclusions c) field es p

theorem IsSetGathering.made (h : IsSetGathering c es p) :
    (∃ field all, p.made = isIn field all ∨ p.made = mustNot (isIn field all)) ∨
      p.made = c.absorbing := by
  rcases h with ⟨field, h⟩ | ⟨field, h⟩
  · exact h.made_choices.imp_left fun ⟨all, hmade⟩ => ⟨field, all, Or.inl hmade⟩
  · exact h.made_exclusions.imp_left fun ⟨all, hmade⟩ => ⟨field, all, Or.inr hmade⟩

theorem IsSetGathering.decides_or_merged (h : IsSetGathering c es p) :
    p.made = c.absorbing ∨ MergedFrom c es p := by
  rcases h with ⟨field, h⟩ | ⟨field, h⟩
  · exact h.made_choices.symm.imp_right fun ⟨all, hmade⟩ => .choices h hmade
  · exact h.made_exclusions.symm.imp_right fun ⟨all, hmade⟩ => .exclusions h hmade

theorem sets_divide (c : Connective) (es : List Expr) :
    Divides ((choiceRule choices? (mergedChoices c)).andThen
        (choiceRule exclusions? (mergedExclusions c)))
      (fun e => choices? e ≠ none ∨ exclusions? e ≠ none) (IsSetGathering c es) es := by
  refine (choiceRule_divides _ _ es).andThen (choiceRule_divides _ _ es) (fun e he => ?_) ?_
  · cases e <;> simp [choices?, exclusions?] at he ⊢
  · rintro p ⟨field, hp⟩
    rcases hp.made_choices with ⟨all, hmade⟩ | hmade
    · simp [hmade, exclusions?]
    · rw [hmade]
      cases c <;> simp [exclusions?, Connective.absorbing]

/-- Sets and both kinds of bounds are merged independently under `and`. -/
theorem sets_and_bounds_divide (h : dayBounds.merge? es ≠ none) :
    Divides (mergeRule .and)
      (fun e => ((choices? e ≠ none ∨ exclusions? e ≠ none) ∨ valueBounds.bound? e ≠ none) ∨
        dayBounds.bound? e ≠ none)
      (fun p => (IsSetGathering .and es p ∨ ∃ field k, IsJoining valueBounds field k es p) ∨
        ∃ field k, IsJoining dayBounds field k es p) es := by
  refine ((sets_divide .and es).andThen (boundRule_divides (valueBounds_merge?_ne_none es))
    (fun e he => ?_) fun p hp => ?_).andThen (boundRule_divides h) (fun e he => ?_) fun p hp => ?_
  · cases e <;> simp [choices?, exclusions?, valueBounds] at he ⊢
  · rcases hp.made with ⟨field, all, hmade | hmade⟩ | hmade <;>
      simp [hmade, valueBounds, Connective.absorbing]
  · cases e <;> simp [choices?, exclusions?, valueBounds, dayBounds] at he ⊢
  · rcases hp with hp | ⟨field, k, hp⟩
    · rcases hp.made with ⟨field, all, hmade | hmade⟩ | hmade <;>
        simp [hmade, dayBounds, Connective.absorbing]
    · obtain ⟨lower, low, upper, high, hmade⟩ := hp.made_values
      simp [hmade, dayBounds]

/-- Day bounds can be joined before the other passes if they can be joined after them. -/
theorem dayBounds_merge?_of_mergeAll? (h : mergeAll? .and es = some out) :
    dayBounds.merge? es ≠ none := by
  obtain ⟨mid, hmid, hout⟩ := mergeAll?_and_eq_some.mp h
  have hranges : ∀ x z y, valueBounds.Joins x z y → dayBounds.bound? y = none := by
    intro x z y hjoins
    obtain ⟨_, _, _, _, _, _, _, -, rfl, -⟩ := valueBounds_joins hjoins
    rfl
  have hsame : mid.filterMap dayBounds.bound? = es.filterMap dayBounds.bound? := by
    rw [BoundForm.filterMap_merge? (fun _ => dayBounds_of_valueBounds) hranges hmid,
      filterMap_mergeSets (fun _ _ => ⟨rfl, rfl⟩) ⟨rfl, rfl⟩]
  have hbounds := sameBounds_of_filterMap_eq hsame
  rw [ne_eq, BoundForm.merge?_eq_none_iff]
  simp only [← (hbounds _).1, ← (hbounds _).2]
  rw [← BoundForm.merge?_eq_none_iff, hout]
  simp

/-- The operands after all merges are made from parts of those before. -/
theorem exists_parts_of_mergeAll? (h : mergeAll? c es = some out) (hopen : c.absorbing ∉ out) :
    ∃ parts : List Part, out = parts.map Part.made ∧ (∀ p ∈ parts, MadeFrom c es p) ∧
      (parts.flatMap Part.places).Perm (List.range es.length) ∧
      parts.Pairwise (·.first < ·.first) := by
  obtain ⟨touched, merged, hdivides, hmerged, hmade⟩ : ∃ touched merged,
      Divides (mergeRule c) touched merged es ∧ (∀ p, MergedFrom c es p → merged p) ∧
        ∀ p, merged p → p.made = c.absorbing ∨ MergedFrom c es p := by
    cases c with
    | or =>
      refine ⟨_, _, sets_divide .or es, fun p hp => ?_, fun p hp => hp.decides_or_merged⟩
      cases hp with
      | choices hp _ => exact Or.inl ⟨_, hp⟩
      | exclusions hp _ => exact Or.inr ⟨_, hp⟩
      | values hand _ | days hand _ => contradiction
    | and =>
      refine ⟨_, _, sets_and_bounds_divide (dayBounds_merge?_of_mergeAll? h), fun p hp => ?_, ?_⟩
      · cases hp with
        | choices hp _ => exact Or.inl (Or.inl (Or.inl ⟨_, hp⟩))
        | exclusions hp _ => exact Or.inl (Or.inl (Or.inr ⟨_, hp⟩))
        | values _ hp => exact Or.inl (Or.inr ⟨_, _, hp⟩)
        | days _ hp => exact Or.inr ⟨_, _, hp⟩
      · rintro p ((hp | ⟨field, k, hp⟩) | ⟨field, k, hp⟩)
        · exact hp.decides_or_merged
        · exact Or.inr (.values rfl hp)
        · exact Or.inr (.days rfl hp)
  obtain ⟨parts, hrun, hparts, hperm, hsorted⟩ := hdivides.exists_parts
  have hout : out = parts.map Part.made := (mergeAll?_eq_run h).trans hrun
  refine ⟨parts, hout, fun p hp => ?_, hperm, hsorted⟩
  rcases hparts p hp with hp' | ⟨hothers, hkept, hfree⟩
  · refine .merged ((hmade p hp').resolve_left fun habsorbing => hopen ?_)
    rw [hout, ← habsorbing]
    exact List.mem_map_of_mem hp
  · exact .kept hothers hkept fun q hq => hfree q (hmerged q hq)

/-- An operation that is not decided is optimized to one operand for each part of its operands,
which are optimized themselves before and neither neutral nor left out, and in the order of the
first places of the parts. -/
theorem optimize?_operation_parts (h : optimize? (operation c es) = some e')
    (hopen : e' ≠ c.absorbing) :
    ∃ (simple : List Expr) (parts : List Part),
      List.Forall₂ (fun x x' => optimize? x = some x') es simple ∧
      e' = collapse c (parts.map Part.made) ∧
      (∀ p ∈ parts, MadeFrom c (c.dropNeutral simple) p) ∧
      (parts.flatMap Part.places).Perm (List.range (c.dropNeutral simple).length) ∧
      parts.Pairwise (·.first < ·.first) := by
  obtain ⟨simple, hsimple, hsimplify⟩ := optimize?_operation_eq_some.mp h
  cases hany : simple.any c.isAbsorbing with
  | true =>
    rw [simplify?_of_absorbing hany, Option.some.injEq] at hsimplify
    exact absurd hsimplify.symm hopen
  | false =>
    rw [simplify?_of_not_absorbing hany] at hsimplify
    obtain ⟨merged, hmerged, rfl⟩ := Option.map_eq_some_iff.mp hsimplify
    have hundecided : c.absorbing ∉ merged := by
      intro hmem
      rw [settle, if_pos (any_isAbsorbing_iff.mpr hmem)] at hopen
      exact hopen rfl
    obtain ⟨parts, rfl, hparts, hperm, hsorted⟩ := exists_parts_of_mergeAll? hmerged hundecided
    refine ⟨simple, parts, hsimple, ?_, hparts, hperm, hsorted⟩
    -- No part is neutral: a merge never is, and what is kept was left when the neutral was dropped.
    have hneutral : ∀ y ∈ parts.map Part.made, (!c.isNeutral y) = true := by
      intro y hy
      obtain ⟨p, hp, rfl⟩ := List.mem_map.mp hy
      cases hparts p hp with
      | kept _ hmade _ => exact (List.mem_filter.mp (List.mem_of_getElem? hmade)).2
      | merged hp => rw [hp.isNeutral_made, Bool.not_false]
    rw [settle, if_neg (by rwa [any_isAbsorbing_iff]), Connective.dropNeutral,
      List.filter_eq_self.mpr hneutral]

/-- Two sets, two bounds of values, two of days and two exclusions one between the other, a bound
without counterpart and an operand that says nothing. -/
theorem optimize?_operation_parts_interleaved :
    let first : Date := ⟨737791⟩
    let es := [isIn "tags" ⟨.str "a", [.str "b"]⟩, value "year" .ge (.int 1) false,
      day "day" .le first, everything, isIn "tags" ⟨.str "b", [.str "c"]⟩,
      mustNot (isIn "kind" ⟨.str "x", []⟩), value "year" .lt (.int 9) true, day "day" .ge first,
      value "year" .gt (.int 3) false, mustNot (isIn "kind" ⟨.str "y", []⟩)]
    let e' := operation .and [isIn "tags" ⟨.str "b", []⟩,
      range "year" .ge (.int 1) .lt (.int 9), dayRange "day" first first,
      mustNot (isIn "kind" ⟨.str "x", [.str "y"]⟩), value "year" .gt (.int 3) false]
    optimize? (operation .and es) = some e' ∧ e' ≠ Connective.and.absorbing ∧
      ∃ (simple : List Expr) (parts : List Part),
        List.Forall₂ (fun x x' => optimize? x = some x') es simple ∧
        e' = collapse .and (parts.map Part.made) ∧
        (∀ p ∈ parts, MadeFrom .and (Connective.and.dropNeutral simple) p) ∧
        (parts.flatMap Part.places).Perm
          (List.range (Connective.and.dropNeutral simple).length) ∧
        parts.Pairwise (·.first < ·.first) := by
  intro first es e'
  have h : optimize? (operation .and es) = some e' := by cbv
  have hopen : e' ≠ Connective.and.absorbing := by simp [e', Connective.absorbing]
  exact ⟨h, hopen, optimize?_operation_parts h hopen⟩

end SearchExpr.Expr
