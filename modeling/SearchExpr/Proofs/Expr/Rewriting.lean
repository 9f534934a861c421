import SearchExpr.Proofs.Expr.Insertion

/-! # Merging as one rule

Every merging pass decides what becomes of an operand from those before and after it. Written as a
rule, a pass that looks at its own kind of operands only does not notice the passes before it, so
all of them are one rule that sees the operands as they were at first.
-/

namespace SearchExpr.Expr

variable {β γ : Type} {c : Connective} {es out before before' after after' : List Expr}
  {e x y : Expr} {g : Expr → Option β}

/-- What an operand becomes between those before and those after it; nothing if it goes into
another one. -/
abbrev Rule := List Expr → Expr → List Expr → Option Expr

namespace Rule

variable {rule rule' : Rule}

/-- What some operands become that stand after others. -/
def run (rule : Rule) (before : List Expr) : List Expr → List Expr
  | [] => []
  | e :: after => (rule before e after).toList ++ rule.run (before ++ [e]) after

def andThen (rule rule' : Rule) : Rule := fun before e after =>
  (rule before e after).bind fun y => rule' before y after

/-- Of the operands around, a rule looks at nothing but what a function reads off them. -/
def Reads (rule : Rule) (g : Expr → Option β) : Prop :=
  ∀ before before' e after after', before'.filterMap g = before.filterMap g →
    after'.filterMap g = after.filterMap g → rule before' e after' = rule before e after

/-- What a function reads off the operands is not changed by a rule. -/
def Keeps (rule : Rule) (g : Expr → Option β) : Prop :=
  ∀ before e after, (rule before e after).bind g = g e

theorem filterMap_run (h : rule.Keeps g) (before es : List Expr) :
    (rule.run before es).filterMap g = es.filterMap g := by
  induction es generalizing before with
  | nil => rfl
  | cons e es ih =>
    have he := h before e es
    rw [run, List.filterMap_append, ih, List.filterMap_cons]
    cases hrule : rule before e es with
    | none =>
      rw [hrule, Option.bind_none] at he
      rw [← he]
      rfl
    | some y =>
      rw [hrule, Option.bind_some] at he
      rw [← he, Option.toList_some, List.filterMap_cons]
      cases g y <;> rfl

theorem Keeps.andThen (h : rule.Keeps g) (h' : rule'.Keeps g) : (rule.andThen rule').Keeps g := by
  intro before e after
  have he := h before e after
  unfold Rule.andThen
  cases hrule : rule before e after with
  | none => rwa [hrule] at he
  | some y => rw [Option.bind_some, h', ← he, hrule, Option.bind_some]

/-- A rule that runs on what another one has left does the same as on the operands at first, if it
looks at nothing that the other one changes. -/
theorem run_run (hreads : rule'.Reads g) (hkeeps : rule.Keeps g)
    (hbefore : before'.filterMap g = before.filterMap g) :
    rule'.run before' (rule.run before es) = (rule.andThen rule').run before es := by
  induction es generalizing before before' with
  | nil => rfl
  | cons e es ih =>
    have he := hkeeps before e es
    rw [run, run, andThen]
    cases hrule : rule before e es with
    | none =>
      rw [hrule, Option.bind_none] at he
      have hbefore' : before'.filterMap g = (before ++ [e]).filterMap g := by
        rw [List.filterMap_append, List.filterMap_cons_none he.symm, List.filterMap_nil,
          List.append_nil, hbefore]
      exact ih hbefore'
    | some y =>
      rw [hrule, Option.bind_some] at he
      have hbefore' : (before' ++ [y]).filterMap g = (before ++ [e]).filterMap g := by
        rw [List.filterMap_append, List.filterMap_append, hbefore, List.filterMap_cons,
          List.filterMap_cons, he]
      rw [Option.toList_some, List.singleton_append, run, Option.bind_some,
        hreads before before' y es _ hbefore (filterMap_run hkeeps _ _), ih hbefore']

end Rule

/-! ## The passes -/

/-- The choices on a field come together at the place of the first. -/
def choiceRule (part? : Expr → Option (String × Choices))
    (merge : String → Choices → List Choices → Expr) : Rule := fun before e after =>
  match part? e with
  | none => some e
  | some (field, cs) =>
    if field ∈ fieldsOf part? before then none
    else
      match after.filterMap (onField part? field) with
      | [] => some e
      | others => some (merge field cs others)

def boundRule {α : Type} (form : BoundForm α) : Rule := fun before e after =>
  match form.outcome? before e after with
  | some .kept => some e
  | some (.joined y) => some y
  | some .dropped | none => none

/-- All passes of an operation. -/
def mergeRule (c : Connective) : Rule :=
  let sets := (choiceRule choices? (mergedChoices c)).andThen
    (choiceRule exclusions? (mergedExclusions c))
  match c with
  | .and => (sets.andThen (boundRule valueBounds)).andThen (boundRule dayBounds)
  | .or => sets

/-- What one function reads off some elements depends only on what another one does, if that is so
for each of them. -/
theorem filterMap_eq_of_settled {g' : Expr → Option γ} (hnone : ∀ x, g x = none → g' x = none)
    (hsettled : ∀ x y, g x = g y → g' x = g' y) (h : out.filterMap g = es.filterMap g) :
    out.filterMap g' = es.filterMap g' := by
  classical
  let f : β → Option γ := fun v => if hv : ∃ x, g x = some v then g' hv.choose else none
  have hf : g' = fun x => (g x).bind f := by
    funext x
    cases hx : g x with
    | none => exact hnone x hx
    | some v =>
      have hv : ∃ y, g y = some v := ⟨x, hx⟩
      rw [Option.bind_some]
      unfold f
      rw [dif_pos hv]
      exact hsettled x hv.choose (hx.trans hv.choose_spec.symm)
  rw [hf, ← List.filterMap_filterMap, h, List.filterMap_filterMap]

section Choices

variable {part? : Expr → Option (String × Choices)}
  {merge : String → Choices → List Choices → Expr} {done : List String}

theorem filterMap_onField_congr (h : out.filterMap part? = es.filterMap part?) (field : String) :
    out.filterMap (onField part? field) = es.filterMap (onField part? field) :=
  filterMap_eq_of_settled (fun x hx => by rw [onField, hx])
    (fun x y hxy => by rw [onField, onField, hxy]) h

theorem fieldsOf_congr (h : out.filterMap part? = es.filterMap part?) :
    fieldsOf part? out = fieldsOf part? es :=
  filterMap_eq_of_settled (fun x hx => by rw [hx]; rfl) (fun x y hxy => by rw [hxy]) h

theorem choiceRule_of_none (h : part? e = none) :
    choiceRule part? merge before e after = some e := by
  rw [choiceRule, h]

theorem reads_choiceRule : (choiceRule part? merge).Reads part? := by
  intro before before' e after after' hbefore hafter
  unfold choiceRule
  cases part? e with
  | none => rfl
  | some p => simp only [fieldsOf_congr hbefore, filterMap_onField_congr hafter]

theorem keeps_choiceRule (hpart : ∀ e, part? e ≠ none → g e = none)
    (hmerge : ∀ field cs others, g (merge field cs others) = none) :
    (choiceRule part? merge).Keeps g := by
  intro before e after
  cases h : part? e with
  | none => rw [choiceRule_of_none h, Option.bind_some]
  | some p =>
    have he : g e = none := hpart e (by simp [h])
    simp only [choiceRule, h]
    split
    · exact he.symm
    · split
      · exact Option.bind_some ..
      · rw [Option.bind_some, hmerge, he]

theorem fieldsOf_append (es out : List Expr) :
    fieldsOf part? (es ++ out) = fieldsOf part? es ++ fieldsOf part? out :=
  List.filterMap_append

/-- The fields that are merged already are those of the choices before. -/
theorem mergeChoicesFrom_eq_run (hdone : ∀ field, field ∈ done ↔ field ∈ fieldsOf part? before) :
    mergeChoicesFrom part? merge done es = (choiceRule part? merge).run before es := by
  induction es generalizing done before with
  | nil => rfl
  | cons e es ih =>
    rw [mergeChoicesFrom, Rule.run, choiceRule]
    cases hpart : part? e with
    | none =>
      have hdone' : ∀ f, f ∈ done ↔ f ∈ fieldsOf part? (before ++ [e]) := by
        intro f
        rw [fieldsOf_append, fieldsOf_cons_none hpart, fieldsOf_nil, List.append_nil, hdone]
      rw [ih hdone']
      rfl
    | some p =>
      obtain ⟨field, cs⟩ := p
      have hfields (f : String) :
          f ∈ fieldsOf part? (before ++ [e]) ↔ f = field ∨ f ∈ fieldsOf part? before := by
        rw [fieldsOf_append, fieldsOf_cons_some hpart, fieldsOf_nil, List.mem_append,
          List.mem_singleton, or_comm]
      simp only [List.contains_iff_mem, hdone]
      split
      case isTrue hmem =>
        refine ih fun f => ?_
        rw [hfields, hdone, or_iff_right_of_imp]
        rintro rfl
        exact hmem
      case isFalse =>
        have hdone' : ∀ f, f ∈ field :: done ↔ f ∈ fieldsOf part? (before ++ [e]) := by
          intro f
          rw [hfields, List.mem_cons, hdone]
        rw [ih hdone']
        cases es.filterMap (onField part? field) <;> rfl

theorem mergeChoices_eq_run (es : List Expr) :
    mergeChoicesFrom part? merge [] es = (choiceRule part? merge).run [] es :=
  mergeChoicesFrom_eq_run fun _ => Iff.rfl

end Choices

section Bounds

variable {α : Type} {form : BoundForm α}

theorem sameBounds_of_filterMap_eq (h : out.filterMap form.bound? = es.filterMap form.bound?) :
    form.SameBounds es out := by
  refine fun field => ⟨filterMap_eq_of_settled (fun x hx => ?_) (fun x y hxy => ?_) h,
    filterMap_eq_of_settled (fun x hx => ?_) (fun x y hxy => ?_) h⟩
  · rw [BoundForm.lowerOn?, hx]
  · rw [BoundForm.lowerOn?, BoundForm.lowerOn?, hxy]
  · rw [BoundForm.upperOn?, hx]
  · rw [BoundForm.upperOn?, BoundForm.upperOn?, hxy]

theorem boundRule_of_none (h : form.bound? e = none) : boundRule form before e after = some e := by
  rw [boundRule, BoundForm.outcome?_of_none h]

theorem reads_boundRule : (boundRule form).Reads form.bound? := by
  intro before before' e after after' hbefore hafter
  rw [boundRule, boundRule, BoundForm.outcome?_congr (sameBounds_of_filterMap_eq hbefore)
    (sameBounds_of_filterMap_eq hafter)]

theorem keeps_boundRule (hbound : ∀ x, form.bound? x ≠ none → g x = none)
    (hjoin : ∀ x z y, form.Joins x z y → g y = none) : (boundRule form).Keeps g := by
  intro before e after
  cases h : form.bound? e with
  | none => rw [boundRule_of_none h, Option.bind_some]
  | some b =>
    have he : g e = none := hbound e (by simp [h])
    rw [he, boundRule]
    split
    case h_1 => exact he
    case h_2 y hy =>
      obtain ⟨z, -, hjoins⟩ := BoundForm.exists_joins_of_joined hy
      exact hjoin e z y hjoins
    case h_3 | h_4 => rfl

theorem mergeFrom?_eq_run (h : form.mergeFrom? before es = some out) :
    out = (boundRule form).run before es := by
  induction es generalizing before out with
  | nil => exact (Option.some.inj h).symm
  | cons e es ih =>
    obtain ⟨o, rest, ho, hrest, rfl⟩ := BoundForm.mergeFrom?_cons.mp h
    rw [Rule.run, boundRule, ho, ih hrest]
    cases o <;> rfl

end Bounds

/-! ## All passes -/

/-- Sets are merged to a set unless the operation is decided by them. -/
theorem mergedChoices_cases (c : Connective) (field : String) (cs : Choices)
    (others : List Choices) :
    (∃ all, mergedChoices c field cs others = isIn field all) ∨
      mergedChoices c field cs others = c.absorbing := by
  cases c with
  | and =>
    rw [mergedChoices, isInAll]
    cases cs.intersect? others with
    | none => exact Or.inr rfl
    | some all => exact Or.inl ⟨all, rfl⟩
  | or => exact Or.inl ⟨_, rfl⟩

theorem mergedExclusions_cases (c : Connective) (field : String) (cs : Choices)
    (others : List Choices) :
    (∃ all, mergedExclusions c field cs others = mustNot (isIn field all)) ∨
      mergedExclusions c field cs others = c.absorbing := by
  cases c with
  | and => exact Or.inl ⟨_, rfl⟩
  | or =>
    rw [mergedExclusions, isNotInAll]
    cases cs.intersect? others with
    | none => exact Or.inr rfl
    | some all => exact Or.inl ⟨all, rfl⟩

theorem keeps_choices (hset : ∀ field cs, g (isIn field cs) = none)
    (habsorbing : g c.absorbing = none) :
    (choiceRule choices? (mergedChoices c)).Keeps g := by
  refine keeps_choiceRule (fun e he => ?_) fun field cs others => ?_
  · obtain ⟨⟨field, cs⟩, he⟩ := Option.ne_none_iff_exists'.mp he
    rw [choices?_eq_some.mp he, hset]
  · obtain ⟨all, hall⟩ | hdecided := mergedChoices_cases c field cs others
    · rw [hall, hset]
    · rw [hdecided, habsorbing]

theorem keeps_exclusions (hset : ∀ field cs, g (mustNot (isIn field cs)) = none)
    (habsorbing : g c.absorbing = none) :
    (choiceRule exclusions? (mergedExclusions c)).Keeps g := by
  refine keeps_choiceRule (fun e he => ?_) fun field cs others => ?_
  · obtain ⟨⟨field, cs⟩, he⟩ := Option.ne_none_iff_exists'.mp he
    rw [exclusions?_eq_some.mp he, hset]
  · obtain ⟨all, hall⟩ | hdecided := mergedExclusions_cases c field cs others
    · rw [hall, hset]
    · rw [hdecided, habsorbing]

theorem dayBounds_of_valueBounds (h : valueBounds.bound? e ≠ none) : dayBounds.bound? e = none := by
  cases e <;> first | rfl | exact absurd rfl h

theorem keeps_valueBounds : (boundRule valueBounds).Keeps dayBounds.bound? := by
  refine keeps_boundRule (fun x => dayBounds_of_valueBounds) fun x z y hjoins => ?_
  obtain ⟨field, lower, low, upper, high, -, -, -, rfl, -⟩ := valueBounds_joins hjoins
  rfl

/-- What is left of the operands of an operation is what each of them becomes by one rule. -/
theorem mergeAll?_eq_run (h : mergeAll? c es = some out) : out = (mergeRule c).run [] es := by
  have hsets : mergeExclusions c (mergeChoices c es) =
      ((choiceRule choices? (mergedChoices c)).andThen
        (choiceRule exclusions? (mergedExclusions c))).run [] es := by
    rw [mergeChoices_eq, mergeExclusions_eq, mergeChoices_eq_run, mergeChoices_eq_run]
    exact Rule.run_run reads_choiceRule (keeps_choices (fun _ _ => rfl) (by cases c <;> rfl)) rfl
  cases c with
  | or => exact (mergeAll?_or_eq_some.mp h).symm.trans hsets
  | and =>
    obtain ⟨mid, hmid, hout⟩ := mergeAll?_and_eq_some.mp h
    have hvalues : mid = _ := mergeFrom?_eq_run hmid
    rw [hsets, Rule.run_run reads_boundRule
      ((keeps_choices (fun _ _ => rfl) rfl).andThen (keeps_exclusions (fun _ _ => rfl) rfl)) rfl]
      at hvalues
    have hdays : out = _ := mergeFrom?_eq_run hout
    rw [hvalues, Rule.run_run reads_boundRule
      (((keeps_choices (fun _ _ => rfl) rfl).andThen
        (keeps_exclusions (fun _ _ => rfl) rfl)).andThen keeps_valueBounds) rfl] at hdays
    exact hdays

end SearchExpr.Expr
