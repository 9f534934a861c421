import SearchExpr.Proofs.Compiler.Leaves
import SearchExpr.Proofs.Compiler.Reading
import SearchExpr.Proofs.Value.KeySets

/-! # Vocabularies

The leaves that trees are built of. Merging leaves before they are compiled comes to the same as
compiling them apart if the compiler is faithful to the vocabulary: what merging takes for one value
is sent as one value, and what it takes for two is sent as two.
-/

namespace SearchExpr

open SearchExpr.Expr

/-- The values that may be chosen from for each field, and the other leaves. -/
structure Vocabulary where
  chosen : String → Value → Prop
  leaf : Expr → Prop

namespace Vocabulary

def Has (V : Vocabulary) : Expr → Prop
  | isIn field cs => ∀ v ∈ cs.toList, V.chosen field v
  | e => V.leaf e

/-- All leaves of a tree are of the vocabulary. -/
def Covers (V : Vocabulary) (e : Expr) : Prop :=
  LeavesIn V.Has e

/-- What the vocabulary has to be for merges to go unnoticed. Leaves have queries; chosen values
are sent as one value exactly if they have one key; bounds that meet are sent as they are prepared,
not as phrases; and no bound that meets a lower one lies before the first day of the calendar. -/
structure Faithful (V : Vocabulary) (c : Compiler) (m : Mapping) (locale : Option String) :
    Prop where
  filters : ∀ e, e.isLeaf = true → V.leaf e → c.compileTree m locale e ≠ .ok none
  keys : ∀ field v w a b, V.chosen field v → V.chosen field w →
    c.wireValue v = .ok a → c.wireValue w = .ok b → (v.sameKey w = true ↔ a = b)
  bounds : ∀ field (lower : LowerComparison) (upper : UpperComparison) low high phrase phrase' a b,
    field ≠ fulltextField →
    V.leaf (value field lower.toComparison low phrase) →
    V.leaf (value field upper.toComparison high phrase') →
    c.wireAs phrase low = .ok a → c.wireAs phrase' high = .ok b →
      c.wireAs false low = .ok a ∧ c.wireAs false high = .ok b
  days : ∀ field (lower : LowerComparison) low high, field ≠ fulltextField →
    V.leaf (day field lower.toComparison low) → V.leaf (day field .lt high) →
    c.Filters m locale (day field lower.toComparison low) →
    c.Filters m locale (day field .lt high) → high.previous? ≠ none

variable {V : Vocabulary} {c : Compiler} {m : Mapping} {locale : Option String}
  {doc : IndexedDocument} {field : String} {cs : Choices} {others : List Choices}
  {e x y z : Expr}

/-! ## Sets -/

theorem filters_isIn :
    c.Filters m locale (isIn field cs) ↔ ∀ v ∈ cs.toList, ∃ w, c.wireValue v = .ok w := by
  simp only [Compiler.Filters, Compiler.compileTree_isIn, Option.some.injEq]
  constructor
  · rintro ⟨_, ws, hws, -⟩ v hv
    obtain ⟨w, -, hw⟩ := exists_right_of_forall₂ hws hv
    exact ⟨w, hw⟩
  · intro h
    obtain ⟨ws, hws⟩ := exists_forall₂ h
    exact ⟨_, ws, hws, rfl⟩

/-- The document has a chosen value, as it is sent. -/
def SentFor (c : Compiler) (doc : IndexedDocument) (name : String) (v : Value) : Prop :=
  ∃ w, c.wireValue v = .ok w ∧ doc.value? name = some w

theorem leafTruth_isIn (h : c.Filters m locale (isIn field cs)) :
    c.leafTruth m locale doc (isIn field cs) = true ↔
      ∃ v ∈ cs.toList, SentFor c doc (Compiler.indexName m locale field) v := by
  obtain ⟨_, hq⟩ := h
  obtain ⟨ws, hws, heq⟩ := Compiler.compileTree_isIn.mp hq
  rw [Compiler.leafTruth_eq_true, hq, ← heq]
  simp only [Except.ok.injEq, Option.some.injEq, exists_eq_left', Query.MatchedBy]
  constructor
  · rintro ⟨w, hw, hmem⟩
    obtain ⟨v, hv, hwire⟩ := exists_left_of_forall₂ hws hmem
    exact ⟨v, hv, w, hwire, hw⟩
  · rintro ⟨v, hv, w, hwire, hw⟩
    obtain ⟨w', hw', hwire'⟩ := exists_right_of_forall₂ hws hv
    obtain rfl := Except.ok.inj (hwire.symm.trans hwire')
    exact ⟨w, hw, hw'⟩

/-- Values are sent as the document's value exactly if they have the key of one that is. -/
theorem Faithful.sentFor_iff (h : V.Faithful c m locale) {name : String} {v w : Value}
    (hv : V.chosen field v) (hw : V.chosen field w) (hwire : ∃ b, c.wireValue w = .ok b)
    (hsent : SentFor c doc name v) : SentFor c doc name w ↔ v.sameKey w = true := by
  obtain ⟨a, ha, hdoc⟩ := hsent
  obtain ⟨b, hb⟩ := hwire
  rw [h.keys field v w a b hv hw ha hb]
  constructor
  · rintro ⟨b', hb', hdoc'⟩
    rw [hb, Except.ok.injEq] at hb'
    rw [hb']
    exact Option.some.inj (hdoc.symm.trans hdoc')
  · rintro rfl
    exact ⟨a, hb, hdoc⟩

/-! ## Leaves and what merges make of them -/

/-- Leaves of the vocabulary and merged ones, all of which have queries. -/
def Sendable (V : Vocabulary) (c : Compiler) (m : Mapping) (locale : Option String) (e : Expr) :
    Prop :=
  c.Filters m locale e ∧
    match e with
    | isIn field cs => ∀ v ∈ cs.toList, V.chosen field v
    | range .. | dayRange .. => True
    | e => V.leaf e

theorem sentFor_iff_of_sendable (h : V.Faithful c m locale)
    (hall : ∀ o ∈ cs :: others, V.Sendable c m locale (isIn field o)) :
    ∀ o ∈ cs :: others, ∀ o' ∈ cs :: others, ∀ v ∈ o.toList, ∀ w ∈ o'.toList,
      SentFor c doc (Compiler.indexName m locale field) v →
        (SentFor c doc (Compiler.indexName m locale field) w ↔ v.sameKey w = true) := by
  intro o ho o' ho' v hv w hw hsent
  obtain ⟨-, hchosen⟩ := hall o ho
  obtain ⟨hfilters, hchosen'⟩ := hall o' ho'
  exact h.sentFor_iff (hchosen v hv) (hchosen' w hw) (filters_isIn.mp hfilters w hw) hsent

theorem sendable_isIn_of_subset {merged : Choices}
    (hall : ∀ o ∈ cs :: others, V.Sendable c m locale (isIn field o))
    (hsub : ∀ v ∈ merged.toList, ∃ o ∈ cs :: others, v ∈ o.toList) :
    V.Sendable c m locale (isIn field merged) := by
  refine ⟨filters_isIn.mpr fun v hv => ?_, fun v hv => ?_⟩
  · obtain ⟨o, ho, hv⟩ := hsub v hv
    exact filters_isIn.mp (hall o ho).1 v hv
  · obtain ⟨o, ho, hv⟩ := hsub v hv
    exact (hall o ho).2 v hv

theorem sendable_isIn_union (hall : ∀ o ∈ cs :: others, V.Sendable c m locale (isIn field o)) :
    V.Sendable c m locale (isIn field (cs.union others)) :=
  sendable_isIn_of_subset hall fun _ => Choices.mem_union

theorem sendable_isIn_common {common : Choices}
    (hall : ∀ o ∈ cs :: others, V.Sendable c m locale (isIn field o))
    (hcommon : cs.intersect? others = some common) :
    V.Sendable c m locale (isIn field common) :=
  sendable_isIn_of_subset hall fun _ hv =>
    ⟨cs, List.mem_cons_self, Choices.mem_intersect? hcommon hv⟩

theorem leafTruth_isIn_union (h : V.Faithful c m locale)
    (hall : ∀ o ∈ cs :: others, V.Sendable c m locale (isIn field o)) :
    c.leafTruth m locale doc (isIn field (cs.union others)) = true ↔
      ∃ o ∈ cs :: others, c.leafTruth m locale doc (isIn field o) = true := by
  rw [leafTruth_isIn (sendable_isIn_union hall).1,
    Choices.exists_mem_union_iff (sentFor_iff_of_sendable h hall)]
  exact exists_congr fun o => and_congr_right fun ho => (leafTruth_isIn (hall o ho).1).symm

theorem leafTruth_isIn_common (h : V.Faithful c m locale)
    (hall : ∀ o ∈ cs :: others, V.Sendable c m locale (isIn field o)) :
    (∃ common, cs.intersect? others = some common ∧
        c.leafTruth m locale doc (isIn field common) = true) ↔
      ∀ o ∈ cs :: others, c.leafTruth m locale doc (isIn field o) = true := by
  have hcommon : (∃ common, cs.intersect? others = some common ∧
        c.leafTruth m locale doc (isIn field common) = true) ↔
      ∃ common, cs.intersect? others = some common ∧
        ∃ v ∈ common.toList, SentFor c doc (Compiler.indexName m locale field) v :=
    exists_congr fun common => and_congr_right fun hcommon =>
      leafTruth_isIn (sendable_isIn_common hall hcommon).1
  rw [hcommon, Choices.exists_mem_common_iff (sentFor_iff_of_sendable h hall)]
  exact forall_congr' fun o => imp_congr_right fun ho => (leafTruth_isIn (hall o ho).1).symm

/-- The queries for two bounds are the halves of the query for their join. -/
def Halves (c : Compiler) (m : Mapping) (locale : Option String) (x z y : Expr) : Prop :=
  ∃ name b b', c.compileTree m locale x = .ok (some (.range name [b])) ∧
    c.compileTree m locale z = .ok (some (.range name [b'])) ∧
    c.compileTree m locale y = .ok (some (.range name [b, b']))

theorem leafTruth_of_halves (h : Halves c m locale x z y) :
    c.leafTruth m locale doc y =
      (c.leafTruth m locale doc x && c.leafTruth m locale doc z) := by
  obtain ⟨name, b, b', hx, hz, hy⟩ := h
  rw [Bool.eq_iff_iff, Bool.and_eq_true]
  simp [Compiler.leafTruth_eq_true, hx, hz, hy, Query.matchedBy_range_two]

/-- A join of two bounds, in either order, has a query and is true where both bounds are. -/
theorem join_of_halves {lower upper : Expr} (h : Halves c m locale lower upper y)
    (horder : InEitherOrder lower upper x z) :
    c.Filters m locale y ∧ ∀ doc, c.leafTruth m locale doc y =
      (c.leafTruth m locale doc x && c.leafTruth m locale doc z) := by
  refine ⟨?_, fun doc => ?_⟩
  · obtain ⟨name, b, b', -, -, hy⟩ := h
    exact ⟨_, hy⟩
  · rcases horder with ⟨rfl, rfl⟩ | ⟨rfl, rfl⟩
    · exact leafTruth_of_halves h
    · rw [leafTruth_of_halves h, Bool.and_comm]

theorem halves_range (h : V.Faithful c m locale) (hbuilders : c.builders = FilterBuilder.standard)
    (hfield : field ≠ fulltextField) {lower : LowerComparison} {upper : UpperComparison}
    {low high : Value} {phrase phrase' : Bool}
    (hlower : V.Sendable c m locale (value field lower.toComparison low phrase))
    (hupper : V.Sendable c m locale (value field upper.toComparison high phrase')) :
    Halves c m locale (value field lower.toComparison low phrase)
      (value field upper.toComparison high phrase') (range field lower low upper high) := by
  obtain ⟨⟨q, hq⟩, hleaf⟩ := hlower
  obtain ⟨⟨q', hq'⟩, hleaf'⟩ := hupper
  obtain ⟨a, ha, -⟩ := (Compiler.compileTree_lower hbuilders hfield).mp hq
  obtain ⟨b, hb, -⟩ := (Compiler.compileTree_upper hbuilders hfield).mp hq'
  obtain ⟨ha', hb'⟩ :=
    h.bounds field lower upper low high phrase phrase' a b hfield hleaf hleaf' ha hb
  exact ⟨_, _, _, (Compiler.compileTree_lower hbuilders hfield).mpr ⟨a, ha, rfl⟩,
    (Compiler.compileTree_upper hbuilders hfield).mpr ⟨b, hb, rfl⟩,
    Compiler.compileTree_range.mpr ⟨a, b, ha', hb', rfl⟩⟩

theorem halves_dayRange {lower : LowerComparison} {upper : UpperComparison}
    {low high first last : Date} (hfirst : firstDay? lower low = some first)
    (hlast : lastDay? upper high = some last)
    (hlower : c.Filters m locale (day field lower.toComparison low))
    (hupper : c.Filters m locale (day field upper.toComparison high)) :
    Halves c m locale (day field lower.toComparison low) (day field upper.toComparison high)
      (dayRange field first last) := by
  obtain ⟨q, hq⟩ := hlower
  obtain ⟨q', hq'⟩ := hupper
  obtain ⟨first', a, hfirst', ha, hlow⟩ := Compiler.compileTree_day_lower hq
  obtain ⟨after, b, hafter, hb, hhigh⟩ := Compiler.compileTree_day_upper hq'
  obtain rfl := Option.some.inj (hfirst.symm.trans hfirst')
  exact ⟨_, _, _, hq.trans (congrArg _ hlow.symm), hq'.trans (congrArg _ hhigh.symm),
    Compiler.compileTree_dayRange.mpr ⟨a, after, b, ha, hafter last hlast, hb, rfl⟩⟩

theorem join_of_valueBounds_joins (h : V.Faithful c m locale)
    (hbuilders : c.builders = FilterBuilder.standard) (hjoins : valueBounds.Joins x z y)
    (hx : V.Sendable c m locale x) (hz : V.Sendable c m locale z) :
    V.Sendable c m locale y ∧ ∀ doc, c.leafTruth m locale doc y =
      (c.leafTruth m locale doc x && c.leafTruth m locale doc z) := by
  obtain ⟨field, lower, low, upper, high, phrase, phrase', hfield, rfl, horder⟩ :=
    valueBounds_joins hjoins
  have hhalves : Halves c m locale (value field lower.toComparison low phrase)
      (value field upper.toComparison high phrase') (range field lower low upper high) := by
    rcases horder with ⟨rfl, rfl⟩ | ⟨rfl, rfl⟩
    · exact halves_range h hbuilders hfield hx hz
    · exact halves_range h hbuilders hfield hz hx
  obtain ⟨hfilters, htruth⟩ := join_of_halves hhalves horder
  exact ⟨⟨hfilters, trivial⟩, htruth⟩

theorem join_of_dayBounds_joins (hjoins : dayBounds.Joins x z y)
    (hx : V.Sendable c m locale x) (hz : V.Sendable c m locale z) :
    V.Sendable c m locale y ∧ ∀ doc, c.leafTruth m locale doc y =
      (c.leafTruth m locale doc x && c.leafTruth m locale doc z) := by
  obtain ⟨field, lower, low, upper, high, first, last, -, hfirst, hlast, rfl, horder⟩ :=
    dayBounds_joins hjoins
  have hhalves : Halves c m locale (day field lower.toComparison low)
      (day field upper.toComparison high) (dayRange field first last) := by
    rcases horder with ⟨rfl, rfl⟩ | ⟨rfl, rfl⟩
    · exact halves_dayRange hfirst hlast hx.1 hz.1
    · exact halves_dayRange hfirst hlast hz.1 hx.1
  obtain ⟨hfilters, htruth⟩ := join_of_halves hhalves horder
  exact ⟨⟨hfilters, trivial⟩, htruth⟩

theorem Faithful.daysJoin (h : V.Faithful c m locale)
    (hbuilders : c.builders = FilterBuilder.standard) : DaysJoin (V.Sendable c m locale) where
  union _ _ _ hall := sendable_isIn_union hall
  common _ _ _ _ hall hcommon := sendable_isIn_common hall hcommon
  range _ _ _ hjoins hx hz := (join_of_valueBounds_joins h hbuilders hjoins hx hz).1
  dayRange _ _ _ hjoins hx hz := (join_of_dayBounds_joins hjoins hx hz).1
  joins field lower upper low high hfield hlower hupper := by
    obtain ⟨⟨q, hq⟩, hleaf⟩ := hlower
    obtain ⟨first, _, hfirst, -⟩ := Compiler.compileTree_day_lower hq
    refine ⟨by simp [hfirst], ?_⟩
    cases upper with
    | le => simp [lastDay?]
    | lt => exact h.days field lower low high hfield hleaf hupper.2 ⟨q, hq⟩ hupper.1

theorem Faithful.leafLaws (h : V.Faithful c m locale)
    (hbuilders : c.builders = FilterBuilder.standard) (doc : IndexedDocument) :
    LeafLaws (V.Sendable c m locale) (c.leafTruth m locale doc) where
  union _ _ _ hall := leafTruth_isIn_union h hall
  common _ _ _ hall := leafTruth_isIn_common h hall
  range _ _ _ hjoins hx hz := (join_of_valueBounds_joins h hbuilders hjoins hx hz).2 doc
  dayRange _ _ _ hjoins hx hz := (join_of_dayBounds_joins hjoins hx hz).2 doc

theorem Faithful.filters_of_has (h : V.Faithful c m locale) {answer : Option Query}
    (he : e.isLeaf = true) (hhas : V.Has e) (hcompile : c.compileTree m locale e = .ok answer) :
    c.Filters m locale e := by
  cases answer with
  | some q => exact ⟨q, hcompile⟩
  | none =>
    cases e
    case isIn =>
      obtain ⟨_, -, hnone⟩ := Compiler.compileTree_isIn.mp hcompile
      simp at hnone
    all_goals exact absurd hcompile (h.filters _ he hhas)

theorem sendable_of_has (hfilters : c.Filters m locale e) (hhas : V.Has e) :
    V.Sendable c m locale e := by
  refine ⟨hfilters, ?_⟩
  cases e
  case range | dayRange => exact trivial
  all_goals exact hhas

/-- A compiled tree over a vocabulary has leaves that can be sent. -/
theorem Faithful.leavesIn (h : V.Faithful c m locale) (hcovers : V.Covers e)
    {answer : Option Query} (hcompile : c.compileTree m locale e = .ok answer) :
    LeavesIn (V.Sendable c m locale) e := by
  intro s hs hleaf
  obtain ⟨answer, hanswer⟩ := Compiler.leavesIn_of_compileTree hcompile s hs hleaf
  have hhas : V.Has s := hcovers s hs hleaf
  exact sendable_of_has (h.filters_of_has hleaf hhas hanswer) hhas

end Vocabulary

end SearchExpr
