import SearchExpr.Proofs.Expr.Confluence
import SearchExpr.Proofs.Expr.Truth
import SearchExpr.Proofs.Value.KeySets

/-! # Sets on fields with several values

A document may hold several values in a field and has one of some choices if any of them does. The
union of sets is then still read as the sets are, but their intersection asks for one value that is
in all of them, where the sets may be met by different values. Merging the sets of an operation is
exact apart from that.
-/

namespace SearchExpr

structure ArrayDocument where
  values : String → List Value

namespace ArrayDocument

variable {doc : ArrayDocument} {field : String}

def has (doc : ArrayDocument) (field : String) (cs : Choices) : Bool :=
  (doc.values field).any fun v => cs.toList.any v.sameKey

/-- Whether a document meets a leaf; all leaves but sets are left out of account. -/
def meets (doc : ArrayDocument) : Expr → Bool
  | .isIn field cs => doc.has field cs
  | _ => false

def reads (doc : ArrayDocument) (e : Expr) : Option Bool :=
  e.truth doc.meets

/-- One and the same value in a field has a key in each of some sets. -/
def SharesValue (doc : ArrayDocument) (field : String) (sets : List Choices) : Prop :=
  ∃ v ∈ doc.values field, ∀ cs ∈ sets, cs.HasKey v

theorem meets_isIn {cs : Choices} : doc.meets (.isIn field cs) = doc.has field cs := rfl

theorem has_iff {cs : Choices} : doc.has field cs = true ↔ ∃ v ∈ doc.values field, cs.HasKey v := by
  simp [has, Choices.HasKey]

theorem sharesValue_singleton {cs : Choices} :
    doc.SharesValue field [cs] ↔ doc.has field cs = true := by
  rw [has_iff, SharesValue]
  simp only [List.forall_mem_singleton]

variable {cs : Choices} {others : List Choices}

theorem has_union :
    doc.has field (cs.union others) = true ↔ ∃ o ∈ cs :: others, doc.has field o = true := by
  simp only [has_iff, Choices.hasKey_union_iff]
  constructor
  · rintro ⟨v, hv, o, ho, hkey⟩
    exact ⟨o, ho, v, hv, hkey⟩
  · rintro ⟨o, ho, v, hv, hkey⟩
    exact ⟨v, hv, o, ho, hkey⟩

theorem has_common :
    (∃ common, cs.intersect? others = some common ∧ doc.has field common = true) ↔
      doc.SharesValue field (cs :: others) := by
  simp only [has_iff, SharesValue, ← Choices.hasKey_common_iff]
  constructor
  · rintro ⟨common, hcommon, v, hv, hkey⟩
    exact ⟨v, hv, common, hcommon, hkey⟩
  · rintro ⟨v, hv, common, hcommon, hkey⟩
    exact ⟨common, hcommon, v, hv, hkey⟩

end ArrayDocument

namespace Expr

variable {doc : ArrayDocument} {c : Connective} {es out : List Expr} {x : Expr} {field : String}
  {cs : Choices} {others : List Choices}

/-- The choices of an operand if its connective merges such choices to what they have in common:
under `and` those asked for, under `or` those excluded. -/
def intersected? : Connective → Expr → Option (String × Choices)
  | .and => choices?
  | .or => exclusions?

/-- The sets on a field that are merged to what they have in common. -/
def intersectedOn (c : Connective) (field : String) (es : List Expr) : List Choices :=
  es.filterMap (onField (intersected? c) field)

def IsSet (e : Expr) : Prop :=
  ∃ field cs, e = isIn field cs ∨ e = mustNot (isIn field cs)

/-! ## Operands that do not decide -/

theorem idle_of_intersected? (h : intersected? c x = some (field, cs)) :
    Idle doc.meets c x ↔ doc.SharesValue field [cs] := by
  rw [ArrayDocument.sharesValue_singleton]
  cases c with
  | and =>
    rw [choices?_eq_some.mp h, idle_isIn, ArrayDocument.meets_isIn, Connective.deciding,
      Bool.not_false]
  | or =>
    rw [exclusions?_eq_some.mp h, idle_mustNot_isIn, ArrayDocument.meets_isIn,
      Connective.deciding]

theorem idle_isInAll :
    Idle doc.meets .and (isInAll field cs others) ↔ doc.SharesValue field (cs :: others) := by
  rw [← ArrayDocument.has_common, isInAll]
  cases cs.intersect? others with
  | none => simp [Idle, truth, Connective.deciding]
  | some common => simp [idle_isIn, ArrayDocument.meets_isIn, Connective.deciding]

theorem idle_isNotInAll :
    Idle doc.meets .or (isNotInAll field cs others) ↔ doc.SharesValue field (cs :: others) := by
  rw [← ArrayDocument.has_common, isNotInAll]
  cases cs.intersect? others with
  | none => simp [Idle, truth, Connective.deciding]
  | some common => simp [idle_mustNot_isIn, ArrayDocument.meets_isIn, Connective.deciding]

theorem idle_isInAny :
    Idle doc.meets .or (isInAny field cs others) ↔
      ∀ o ∈ cs :: others, doc.has field o = !Connective.or.deciding := by
  rw [isInAny, idle_isIn, ArrayDocument.meets_isIn]
  simp only [Connective.deciding, Bool.not_true, ← Bool.not_eq_true, ArrayDocument.has_union,
    not_exists, not_and]

theorem idle_isInNone :
    Idle doc.meets .and (isInNone field cs others) ↔
      ∀ o ∈ cs :: others, doc.has field o = Connective.and.deciding := by
  rw [isInNone, idle_mustNot_isIn, ArrayDocument.meets_isIn]
  simp only [Connective.deciding, ← Bool.not_eq_true, ArrayDocument.has_union, not_exists, not_and]

/-! ## Merging -/

/-- On every field where sets are merged to what they have in common, the document shares a value
with them. -/
def SharesAll (doc : ArrayDocument) (c : Connective) (es : List Expr) : Prop :=
  ∀ field, intersectedOn c field es = [] ∨ doc.SharesValue field (intersectedOn c field es)

/-- Merging to what sets have in common asks for a shared value. -/
theorem forall_idle_iff_of_intersecting {merge : String → Choices → List Choices → Expr}
    (hmerge : ∀ field cs others,
      Idle doc.meets c (merge field cs others) ↔ doc.SharesValue field (cs :: others)) :
    (∀ y ∈ mergeChoicesFrom (intersected? c) merge [] es, Idle doc.meets c y) ↔
      (∀ x ∈ es, Idle doc.meets c x) ∧ SharesAll doc c es := by
  rw [forall_mem_mergeChoicesFrom_iff (M := doc.SharesValue)
    (fun _ _ _ _ h => idle_of_intersected? h) fun field cs others _ => hmerge field cs others]
  constructor
  · rintro ⟨hothers, hfields⟩
    have hshares : ∀ field ∈ fieldsOf (intersected? c) es,
        doc.SharesValue field (intersectedOn c field es) :=
      fun field hfield => hfields field hfield List.not_mem_nil
    refine ⟨fun x hx => ?_, fun field => ?_⟩
    · cases hpart : intersected? c x with
      | none => exact hothers x hx hpart
      | some p =>
        obtain ⟨field, cs⟩ := p
        obtain ⟨v, hv, hall⟩ := hshares field (mem_fieldsOf.mpr ⟨x, hx, cs, hpart⟩)
        have hcs : cs ∈ intersectedOn c field es := mem_filterMap_onField.mpr ⟨x, hx, hpart⟩
        exact (idle_of_intersected? hpart).mpr
          ⟨v, hv, List.forall_mem_singleton.mpr (hall cs hcs)⟩
    · by_cases hfield : field ∈ fieldsOf (intersected? c) es
      · exact Or.inr (hshares field hfield)
      · exact Or.inl (filterMap_onField_eq_nil hfield)
  · rintro ⟨hidle, hshares⟩
    refine ⟨fun x hx _ => hidle x hx, fun field hfield _ => (hshares field).resolve_left ?_⟩
    obtain ⟨x, hx, cs, hpart⟩ := mem_fieldsOf.mp hfield
    exact List.ne_nil_of_mem (mem_filterMap_onField.mpr ⟨x, hx, hpart⟩)

theorem forall_idle_mergeSets_iff :
    (∀ y ∈ mergeExclusions c (mergeChoices c es), Idle doc.meets c y) ↔
      (∀ x ∈ es, Idle doc.meets c x) ∧ SharesAll doc c es := by
  rw [mergeExclusions_eq, mergeChoices_eq]
  cases c with
  | and =>
    rw [forall_mem_mergeChoicesFrom (H := fun field o => doc.has field o = Connective.and.deciding)]
    · simp only [List.not_mem_nil, not_false_eq_true, implies_true, forall_const]
      exact forall_idle_iff_of_intersecting fun _ _ _ => idle_isInAll
    · intro x _ field cs hpart
      rw [exclusions?_eq_some.mp hpart, idle_mustNot_isIn, ArrayDocument.meets_isIn]
    · exact fun _ _ _ _ => idle_isInNone
  | or =>
    -- Choices are united first, which leaves the exclusions as they are.
    have hchoices : (∀ y ∈ mergeChoicesFrom choices? (mergedChoices .or) [] es,
        Idle doc.meets .or y) ↔ ∀ x ∈ es, Idle doc.meets .or x := by
      rw [forall_mem_mergeChoicesFrom
        (H := fun field o => doc.has field o = !Connective.or.deciding)]
      · simp
      · intro x _ field cs hpart
        rw [choices?_eq_some.mp hpart, idle_isIn, ArrayDocument.meets_isIn]
      · exact fun _ _ _ _ => idle_isInAny
    have hfields (field : String) :
        intersectedOn .or field (mergeChoicesFrom choices? (mergedChoices .or) [] es) =
          intersectedOn .or field es := by
      refine filterMap_mergeChoicesFrom (fun x hx => ?_) fun _ _ _ => rfl
      obtain ⟨⟨field, cs⟩, hpart⟩ := Option.ne_none_iff_exists'.mp hx
      rw [choices?_eq_some.mp hpart]
      rfl
    have hmerged : (∀ y ∈ mergeChoicesFrom (intersected? .or) (mergedExclusions .or) []
        (mergeChoicesFrom choices? (mergedChoices .or) [] es), Idle doc.meets .or y) ↔
        (∀ x ∈ mergeChoicesFrom choices? (mergedChoices .or) [] es, Idle doc.meets .or x) ∧
          SharesAll doc .or (mergeChoicesFrom choices? (mergedChoices .or) [] es) :=
      forall_idle_iff_of_intersecting fun _ _ _ => idle_isNotInAll
    simp only [SharesAll, hfields, hchoices] at hmerged
    exact hmerged

/-! ## Optimizing -/

theorem IsSet.isNormal (h : IsSet x) : IsNormal (fun _ => True) x := by
  obtain ⟨field, cs, rfl | rfl⟩ := h
  · exact (IsNormal.of_isIn trivial).1
  · exact (IsNormal.of_isIn trivial).2

theorem mergeAll?_of_isSet (h : ∀ x ∈ es, IsSet x) :
    mergeAll? c es = some (mergeExclusions c (mergeChoices c es)) := by
  have honeSided {α : Type} (form : BoundForm α)
      (hsets : ∀ field cs, form.bound? (isIn field cs) = none ∧
        form.bound? (mustNot (isIn field cs)) = none)
      (hconstants : form.bound? everything = none ∧ form.bound? nothing = none) :
      form.OneSided (mergeExclusions c (mergeChoices c es)) := by
    have hnone : (mergeExclusions c (mergeChoices c es)).filterMap form.bound? = [] := by
      rw [filterMap_mergeSets hsets hconstants, List.filterMap_eq_nil_iff]
      intro x hx
      obtain ⟨field, cs, rfl | rfl⟩ := h x hx
      · exact (hsets field cs).1
      · exact (hsets field cs).2
    rw [BoundForm.oneSided_iff, hnone]
    simp
  cases c with
  | or => rfl
  | and =>
    have hvalues := honeSided valueBounds (fun _ _ => ⟨rfl, rfl⟩) ⟨rfl, rfl⟩
    have hdays := honeSided dayBounds (fun _ _ => ⟨rfl, rfl⟩) ⟨rfl, rfl⟩
    exact mergeAll?_and_eq_some.mpr
      ⟨_, BoundForm.merge?_eq_self hvalues, BoundForm.merge?_eq_self hdays⟩

theorem optimize?_of_isSet (h : ∀ x ∈ es, IsSet x) :
    optimize? (operation c es) = some (settle c (mergeExclusions c (mergeChoices c es))) := by
  have hconstant : ∀ x ∈ es, x.isConstant = false := by
    intro x hx
    obtain ⟨field, cs, rfl | rfl⟩ := h x hx <;> rfl
  refine optimize?_operation_eq_some.mpr ⟨es, List.forall₂_same.mpr fun x hx => ?_, ?_⟩
  · exact optimize?_of_isNormal (h x hx).isNormal
  · rw [simplify?_of_noConstant hconstant, mergeAll?_of_isSet h, Option.map_some]

theorem reads_operation (es : List Expr) :
    ∃ b, doc.reads (operation c es) = some b :=
  ⟨_, by rw [ArrayDocument.reads, truth]⟩

/-- An operation on sets is optimized. A document that an operand decides it for reads the optimized
form as the operation, another one does so exactly if, on each field, it shares one value with all
the sets that are intersected. -/
theorem reads_optimize?_iff_sharesAll (doc : ArrayDocument) (c : Connective)
    (h : ∀ x ∈ es, IsSet x) :
    ∃ e', optimize? (operation c es) = some e' ∧
      (doc.reads e' = doc.reads (operation c es) ↔
        doc.reads (operation c es) = some c.deciding ∨ SharesAll doc c es) := by
  refine ⟨_, optimize?_of_isSet h, ?_⟩
  have hnormal : ∀ y ∈ mergeExclusions c (mergeChoices c es), IsNormal (fun _ => True) y :=
    isNormal_mergeAll? leafClosed_true (fun x hx => (h x hx).isNormal) (mergeAll?_of_isSet h)
  have hmerged : doc.reads (operation c (mergeExclusions c (mergeChoices c es))) =
      some (!c.deciding) ↔
        doc.reads (operation c es) = some (!c.deciding) ∧ SharesAll doc c es := by
    rw [ArrayDocument.reads, ArrayDocument.reads, truth_operation_eq_iff, truth_operation_eq_iff]
    exact forall_idle_mergeSets_iff
  rw [ArrayDocument.reads, truth_settle hnormal, ← ArrayDocument.reads]
  obtain ⟨b, hb⟩ : ∃ b, doc.reads (operation c es) = some b := reads_operation es
  obtain ⟨b', hb'⟩ : ∃ b', doc.reads (operation c (mergeExclusions c (mergeChoices c es))) =
      some b' := reads_operation _
  rw [hb, hb'] at hmerged
  rw [hb, hb']
  simp only [Option.some.injEq] at hmerged ⊢
  -- Merging asks for more than the sets do: what it decides, shared values cannot undo.
  obtain rfl | rfl : b = c.deciding ∨ b = !c.deciding := by cases b <;> cases c.deciding <;> simp
  · have hdecided : b' = c.deciding := by simpa using hmerged
    simp [hdecided]
  · simpa using hmerged

/-- Two sets of which a document with two tags has a value in common, beside an excluded one. -/
theorem reads_optimize?_of_shared_tag :
    let doc : ArrayDocument := ⟨fun _ => [.str "a", .str "b"]⟩
    let es := [isIn "tags" ⟨.str "a", [.str "c"]⟩, mustNot (isIn "tags" ⟨.str "d", []⟩),
      isIn "tags" ⟨.str "a", [.str "d"]⟩]
    (∀ x ∈ es, IsSet x) ∧ ∃ e', optimize? (operation .and es) = some e' ∧
      (doc.reads e' = doc.reads (operation .and es) ↔
        doc.reads (operation .and es) = some false ∨ SharesAll doc .and es) := by
  intro doc es
  have h : ∀ x ∈ es, IsSet x := by
    intro x hx
    simp only [es, List.mem_cons, List.not_mem_nil, or_false] at hx
    rcases hx with rfl | rfl | rfl
    · exact ⟨_, _, Or.inl rfl⟩
    · exact ⟨_, _, Or.inr rfl⟩
    · exact ⟨_, _, Or.inl rfl⟩
  exact ⟨h, reads_optimize?_iff_sharesAll doc .and h⟩

/-- A document with two tags has a value in each of two sets, but none in both. -/
theorem reads_optimize?_ne_of_two_tags :
    let doc : ArrayDocument := ⟨fun _ => [.str "a", .str "b"]⟩
    let e := operation .and [isIn "tags" ⟨.str "a", []⟩, isIn "tags" ⟨.str "b", []⟩]
    optimize? e = some nothing ∧ doc.reads e = some true ∧ doc.reads nothing = some false := by
  intro doc e
  have hfirst : doc.has "tags" ⟨.str "a", []⟩ = true := by cbv
  have hsecond : doc.has "tags" ⟨.str "b", []⟩ = true := by cbv
  refine ⟨by cbv, ?_, rfl⟩
  refine truth_operation_eq_iff.mpr fun x hx => ?_
  simp only [List.mem_cons, List.not_mem_nil, or_false] at hx
  rcases hx with rfl | rfl
  · exact idle_isIn.mpr hfirst
  · exact idle_isIn.mpr hsecond

end Expr

end SearchExpr
