import Mathlib.Data.List.Nodup
import SearchExpr.Expr.Simplify

/-! # Merging choices in a list of operands

The choices on one field come together at the place of the first, and nothing else of the list
changes. The laws speak of any kind of choices and any way to merge them: those asked for and those
excluded, under either connective.
-/

namespace SearchExpr.Expr

variable {part? : Expr → Option (String × Choices)}
  {merge : String → Choices → List Choices → Expr} {done : List String} {es : List Expr}

/-- The fields of the choices among some operands, with repetitions. -/
def fieldsOf (part? : Expr → Option (String × Choices)) (es : List Expr) : List String :=
  es.filterMap fun e => (part? e).map (·.1)

theorem mem_fieldsOf {field : String} :
    field ∈ fieldsOf part? es ↔ ∃ e ∈ es, ∃ cs, part? e = some (field, cs) := by
  simp [fieldsOf]

@[simp] theorem fieldsOf_nil : fieldsOf part? [] = [] := rfl

theorem fieldsOf_cons_none {e : Expr} (h : part? e = none) :
    fieldsOf part? (e :: es) = fieldsOf part? es := by
  simp [fieldsOf, h]

theorem fieldsOf_cons_some {e : Expr} {field : String} {cs : Choices}
    (h : part? e = some (field, cs)) : fieldsOf part? (e :: es) = field :: fieldsOf part? es := by
  simp [fieldsOf, h]

theorem mem_filterMap_onField {field : String} {o : Choices} :
    o ∈ es.filterMap (onField part? field) ↔ ∃ e ∈ es, part? e = some (field, o) := by
  simp only [List.mem_filterMap, onField]
  constructor
  · rintro ⟨e, he, h⟩
    refine ⟨e, he, ?_⟩
    cases hpart : part? e with
    | none => simp [hpart] at h
    | some p =>
      obtain ⟨f, cs⟩ := p
      simp only [hpart, Option.ite_none_right_eq_some, Option.some.injEq] at h
      rw [h.1, h.2]
  · rintro ⟨e, he, h⟩
    exact ⟨e, he, by simp [h]⟩

theorem filterMap_onField_eq_nil {field : String} (h : field ∉ fieldsOf part? es) :
    es.filterMap (onField part? field) = [] := by
  apply List.eq_nil_iff_forall_not_mem.mpr
  intro o ho
  obtain ⟨e, he, hpart⟩ := mem_filterMap_onField.mp ho
  exact h (mem_fieldsOf.mpr ⟨e, he, o, hpart⟩)

/-- The first choices on a field stay as they are if there are no others, else all are merged. -/
theorem merged_cases (part? : Expr → Option (String × Choices))
    (merge : String → Choices → List Choices → Expr) (e : Expr) (field : String) (cs : Choices)
    (rest : List Expr) :
    (rest.filterMap (onField part? field) = [] ∧
      (match rest.filterMap (onField part? field) with
        | [] => e
        | others => merge field cs others) = e) ∨
    (match rest.filterMap (onField part? field) with
      | [] => e
      | others => merge field cs others) =
        merge field cs (rest.filterMap (onField part? field)) := by
  cases rest.filterMap (onField part? field) with
  | nil => exact Or.inl ⟨rfl, rfl⟩
  | cons o others => exact Or.inr rfl

/-- All of some choices on a field are found among the operands. -/
def FoundIn (part? : Expr → Option (String × Choices)) (es : List Expr) (field : String)
    (all : List Choices) : Prop :=
  ∀ o ∈ all, ∃ e ∈ es, part? e = some (field, o)

theorem FoundIn.cons {field : String} {all : List Choices} (h : FoundIn part? es field all)
    (e : Expr) : FoundIn part? (e :: es) field all := by
  intro o ho
  obtain ⟨e', he', hpart⟩ := h o ho
  exact ⟨e', List.mem_cons_of_mem e he', hpart⟩

theorem foundIn_onField {e : Expr} {field : String} {cs : Choices}
    (h : part? e = some (field, cs)) :
    FoundIn part? (e :: es) field (cs :: es.filterMap (onField part? field)) := by
  intro o ho
  rcases List.mem_cons.mp ho with rfl | ho
  · exact ⟨e, List.mem_cons_self, h⟩
  · obtain ⟨e', he', hpart⟩ := mem_filterMap_onField.mp ho
    exact ⟨e', List.mem_cons_of_mem e he', hpart⟩

/-- An operand of a merged list was there before or merges choices of the list on one field. -/
theorem mem_mergeChoicesFrom {x : Expr} (h : x ∈ mergeChoicesFrom part? merge done es) :
    x ∈ es ∨ ∃ field cs others, x = merge field cs others ∧
      FoundIn part? es field (cs :: others) := by
  fun_induction mergeChoicesFrom part? merge done es with
  | case1 => exact Or.inl h
  | case2 done e rest _ ih =>
    rcases List.mem_cons.mp h with rfl | h
    · exact Or.inl List.mem_cons_self
    · exact (ih h).imp (List.mem_cons_of_mem e)
        fun ⟨field, cs, others, hx, hfound⟩ => ⟨field, cs, others, hx, hfound.cons e⟩
  | case3 done e rest _ _ _ _ ih =>
    exact (ih h).imp (List.mem_cons_of_mem e)
      fun ⟨field, cs, others, hx, hfound⟩ => ⟨field, cs, others, hx, hfound.cons e⟩
  | case4 done e rest field cs hpart _ merged ih =>
    rcases List.mem_cons.mp h with rfl | h
    · obtain ⟨-, heq⟩ | heq : (_ ∧ merged = e) ∨ merged = _ :=
        merged_cases part? merge e field cs rest
      · exact Or.inl (heq ▸ List.mem_cons_self)
      · exact Or.inr ⟨field, cs, _, heq, foundIn_onField hpart⟩
    · exact (ih h).imp (List.mem_cons_of_mem e)
        fun ⟨field, cs, others, hx, hfound⟩ => ⟨field, cs, others, hx, hfound.cons e⟩

theorem filterMap_onField_cons_none {e : Expr} (h : part? e = none) (field : String) :
    (e :: es).filterMap (onField part? field) = es.filterMap (onField part? field) :=
  List.filterMap_cons_none (by simp [onField, h])

theorem filterMap_onField_cons_of_ne {e : Expr} {field field' : String} {cs : Choices}
    (h : part? e = some (field', cs)) (hne : field ≠ field') :
    (e :: es).filterMap (onField part? field) = es.filterMap (onField part? field) :=
  List.filterMap_cons_none (by simp [onField, h, hne.symm])

theorem filterMap_onField_cons_self {e : Expr} {field : String} {cs : Choices}
    (h : part? e = some (field, cs)) :
    (e :: es).filterMap (onField part? field) = cs :: es.filterMap (onField part? field) :=
  List.filterMap_cons_some (by simp [onField, h])

/-- A property that merged choices have exactly if something is true of all of them together: after
merging the operands have it if the others have it and that is true on every field. -/
theorem forall_mem_mergeChoicesFrom_iff {N : Expr → Prop} {M : String → List Choices → Prop}
    (hpart : ∀ e ∈ es, ∀ field cs, part? e = some (field, cs) → (N e ↔ M field [cs]))
    (hmerge : ∀ field cs others, FoundIn part? es field (cs :: others) →
      (N (merge field cs others) ↔ M field (cs :: others))) :
    (∀ x ∈ mergeChoicesFrom part? merge done es, N x) ↔
      (∀ x ∈ es, part? x = none → N x) ∧
        ∀ field ∈ fieldsOf part? es, field ∉ done →
          M field (es.filterMap (onField part? field)) := by
  fun_induction mergeChoicesFrom part? merge done es with
  | case1 => simp
  | case2 done e rest hnone ih =>
    have ih' := ih (fun e' he' => hpart e' (List.mem_cons_of_mem e he'))
      fun field cs others h => hmerge field cs others (h.cons e)
    rw [List.forall_mem_cons, ih', List.forall_mem_cons, fieldsOf_cons_none hnone]
    simp only [hnone, forall_const, filterMap_onField_cons_none hnone, and_assoc]
  | case3 done e rest field cs hsome hdone ih =>
    have ih' := ih (fun e' he' => hpart e' (List.mem_cons_of_mem e he'))
      fun field cs others h => hmerge field cs others (h.cons e)
    have hmem : field ∈ done := List.contains_iff_mem.mp hdone
    rw [ih', List.forall_mem_cons, fieldsOf_cons_some hsome, List.forall_mem_cons]
    have hrest : ∀ f ∉ done, (e :: rest).filterMap (onField part? f) =
        rest.filterMap (onField part? f) := by
      intro f hf
      exact filterMap_onField_cons_of_ne hsome fun h => hf (h ▸ hmem)
    constructor
    · rintro ⟨hothers, hfields⟩
      exact ⟨⟨by simp [hsome], hothers⟩, fun h => absurd hmem h,
        fun f hf hnot => (hrest f hnot).symm ▸ hfields f hf hnot⟩
    · rintro ⟨⟨-, hothers⟩, -, hfields⟩
      exact ⟨hothers, fun f hf hnot => hrest f hnot ▸ hfields f hf hnot⟩
  | case4 done e rest field cs hsome hnew merged ih =>
    have ih' := ih (fun e' he' => hpart e' (List.mem_cons_of_mem e he'))
      fun field cs others h => hmerge field cs others (h.cons e)
    have hnotDone : field ∉ done := fun h => hnew (List.contains_iff_mem.mpr h)
    have hmerged : N merged ↔ M field ((e :: rest).filterMap (onField part? field)) := by
      rw [filterMap_onField_cons_self hsome]
      obtain ⟨hnil, heq⟩ | heq : (_ ∧ merged = e) ∨ merged = _ :=
        merged_cases part? merge e field cs rest
      · rw [heq, hnil, hpart e List.mem_cons_self field cs hsome]
      · rw [heq, hmerge field cs _ (foundIn_onField hsome)]
    have hrest : ∀ f, f ≠ field → (e :: rest).filterMap (onField part? f) =
        rest.filterMap (onField part? f) := fun f => filterMap_onField_cons_of_ne hsome
    rw [List.forall_mem_cons, List.forall_mem_cons, ih', hmerged, fieldsOf_cons_some hsome,
      List.forall_mem_cons]
    constructor
    · rintro ⟨hfield, hothers, hfields⟩
      refine ⟨⟨by simp [hsome], hothers⟩, fun _ => hfield, fun f hf hnot => ?_⟩
      by_cases h : f = field
      · exact h ▸ hfield
      · rw [hrest f h]
        exact hfields f hf (List.not_mem_cons_of_ne_of_not_mem h hnot)
    · rintro ⟨⟨-, hothers⟩, hfield, hfields⟩
      refine ⟨hfield hnotDone, hothers, fun f hf hnot => ?_⟩
      rw [← hrest f (List.ne_of_not_mem_cons hnot)]
      exact hfields f hf (List.not_mem_of_not_mem_cons hnot)

/-- A property that merged choices have exactly if all of them had it is kept by merging. -/
theorem forall_mem_mergeChoicesFrom {N : Expr → Prop} {H : String → Choices → Prop}
    (hpart : ∀ e ∈ es, ∀ field cs, part? e = some (field, cs) → (N e ↔ H field cs))
    (hmerge : ∀ field cs others, FoundIn part? es field (cs :: others) →
      (N (merge field cs others) ↔ ∀ o ∈ cs :: others, H field o)) :
    (∀ x ∈ mergeChoicesFrom part? merge done es, N x) ↔
      ∀ x ∈ es, (∀ field cs, part? x = some (field, cs) → field ∉ done) → N x := by
  rw [forall_mem_mergeChoicesFrom_iff (M := fun field all => ∀ o ∈ all, H field o)
    (fun e he field cs h => by rw [hpart e he field cs h, List.forall_mem_singleton]) hmerge]
  constructor
  · rintro ⟨hothers, hfields⟩ x hx hnot
    cases hx' : part? x with
    | none => exact hothers x hx hx'
    | some p =>
      obtain ⟨field, cs⟩ := p
      refine (hpart x hx field cs hx').mpr ?_
      exact hfields field (mem_fieldsOf.mpr ⟨x, hx, cs, hx'⟩) (hnot field cs hx') cs
        (mem_filterMap_onField.mpr ⟨x, hx, hx'⟩)
  · intro h
    refine ⟨fun x hx hnone => h x hx (by simp [hnone]), fun field _ hnot o ho => ?_⟩
    obtain ⟨x, hx, hpart'⟩ := mem_filterMap_onField.mp ho
    refine (hpart x hx field o hpart').mp (h x hx fun f cs hf => ?_)
    rw [hpart', Option.some.injEq, Prod.mk.injEq] at hf
    exact hf.1 ▸ hnot

/-- Merged choices are on different fields. -/
theorem nodup_fieldsOf_mergeChoicesFrom
    (hmerge : ∀ field cs others p, part? (merge field cs others) = some p → p.1 = field) :
    (fieldsOf part? (mergeChoicesFrom part? merge done es)).Nodup ∧
      ∀ field ∈ fieldsOf part? (mergeChoicesFrom part? merge done es), field ∉ done := by
  fun_induction mergeChoicesFrom part? merge done es with
  | case1 => simp
  | case2 done e rest hnone ih => rwa [fieldsOf_cons_none hnone]
  | case3 done e rest field cs hsome hdone ih => exact ih
  | case4 done e rest field cs hsome hnew merged ih =>
    have hnotDone : field ∉ done := fun h => hnew (List.contains_iff_mem.mpr h)
    have hmerged : ∀ p, part? merged = some p → p.1 = field := by
      intro p hp
      obtain ⟨-, heq⟩ | heq : (_ ∧ merged = e) ∨ merged = _ :=
        merged_cases part? merge e field cs rest
      · rw [heq, hsome, Option.some.injEq] at hp
        rw [← hp]
      · exact hmerge field cs _ p (heq ▸ hp)
    cases hpart : part? merged with
    | none =>
      rw [fieldsOf_cons_none hpart]
      exact ⟨ih.1, fun f hf => List.not_mem_of_not_mem_cons (ih.2 f hf)⟩
    | some p =>
      obtain ⟨f, cs'⟩ := p
      obtain rfl : f = field := hmerged _ hpart
      rw [fieldsOf_cons_some hpart, List.nodup_cons, List.forall_mem_cons]
      exact ⟨⟨fun h => ih.2 f h List.mem_cons_self, ih.1⟩, hnotDone,
        fun f' hf' => List.not_mem_of_not_mem_cons (ih.2 f' hf')⟩

/-- Where no two choices are on one field, nothing is merged. -/
theorem mergeChoicesFrom_eq_self (hnodup : (fieldsOf part? es).Nodup)
    (hdone : ∀ field ∈ fieldsOf part? es, field ∉ done) :
    mergeChoicesFrom part? merge done es = es := by
  fun_induction mergeChoicesFrom part? merge done es with
  | case1 => rfl
  | case2 done e rest hnone ih =>
    rw [fieldsOf_cons_none hnone] at hnodup hdone
    rw [ih hnodup hdone]
  | case3 done e rest field cs hsome hcontains ih =>
    rw [fieldsOf_cons_some hsome] at hdone
    exact absurd (List.contains_iff_mem.mp hcontains) (hdone field List.mem_cons_self)
  | case4 done e rest field cs hsome hnew merged ih =>
    rw [fieldsOf_cons_some hsome] at hnodup hdone
    have hfirst := (List.nodup_cons.mp hnodup).1
    have hmerged : merged = e := by
      simp only [merged, filterMap_onField_eq_nil hfirst]
    rw [hmerged, ih (List.nodup_cons.mp hnodup).2]
    intro f hf
    exact List.not_mem_cons_of_ne_of_not_mem (fun h => hfirst (h ▸ hf))
      (hdone f (List.mem_cons_of_mem field hf))

/-- What is read off an operand that takes no part in a merge is not changed by it. -/
theorem filterMap_mergeChoicesFrom {β : Type} {g : Expr → Option β}
    (hpart : ∀ e, part? e ≠ none → g e = none)
    (hmerge : ∀ field cs others, g (merge field cs others) = none) :
    (mergeChoicesFrom part? merge done es).filterMap g = es.filterMap g := by
  fun_induction mergeChoicesFrom part? merge done es with
  | case1 => rfl
  | case2 done e rest _ ih => rw [List.filterMap_cons, List.filterMap_cons, ih]
  | case3 done e rest field cs hsome _ ih =>
    rw [ih, List.filterMap_cons_none (hpart e (by simp [hsome]))]
  | case4 done e rest field cs hsome _ merged ih =>
    have he : g e = none := hpart e (by simp [hsome])
    have hmerged : g merged = none := by
      obtain ⟨-, heq⟩ | heq : (_ ∧ merged = e) ∨ merged = _ :=
        merged_cases part? merge e field cs rest
      · rw [heq, he]
      · rw [heq, hmerge]
    rw [List.filterMap_cons_none hmerged, List.filterMap_cons_none he, ih]

end SearchExpr.Expr
