import SearchExpr.Proofs.Calendar.Days
import SearchExpr.Proofs.Expr.Truth
import SearchExpr.Proofs.Value.KeySets

/-! # The meaning of trees

A document has at most one value and one day for a field. Choices ask for a value with one of some
keys, bounds compare the value or the day, and what other conditions come to is left open.
Optimizing a tree does not change what it says of any document.
-/

namespace SearchExpr

namespace Comparison

def isBound (comparison : Comparison) : Bool :=
  comparison.lower?.isSome || comparison.upper?.isSome

/-- The calendar order that a comparison asks of a day and its bound, if it is one of bounds. -/
def dayOrder? : Comparison → Option (Date → Date → Bool)
  | gt => some fun d bound => bound.ordinal < d.ordinal
  | ge => some fun d bound => bound.ordinal ≤ d.ordinal
  | lt => some fun d bound => d.ordinal < bound.ordinal
  | le => some fun d bound => d.ordinal ≤ bound.ordinal
  | _ => none

end Comparison

/-- What a document has for each field, how its values stand to bounds, and how it answers the
conditions that are about neither sets nor bounds. -/
structure Document where
  value? : String → Option Value
  day? : String → Option Date
  stands : Comparison → Value → Value → Bool
  answers : Expr → Bool

namespace Document

def valueStands (doc : Document) (field : String) (comparison : Comparison) (bound : Value) :
    Bool :=
  (doc.value? field).any fun v => doc.stands comparison v bound

/-- Whether a document meets the condition at a leaf. -/
def meets (doc : Document) : Expr → Bool
  | .isIn field choices => (doc.value? field).any fun v => choices.toList.any v.sameKey
  | .value field comparison bound phrase =>
    if field ≠ fulltextField ∧ comparison.isBound then doc.valueStands field comparison bound
    else doc.answers (.value field comparison bound phrase)
  | .range field lower low upper high =>
    doc.valueStands field lower.toComparison low && doc.valueStands field upper.toComparison high
  | .day field comparison bound =>
    match comparison.dayOrder? with
    | some order => (doc.day? field).any (order · bound)
    | none => doc.answers (.day field comparison bound)
  | .dayRange field first last =>
    (doc.day? field).any fun d => first.ordinal ≤ d.ordinal && d.ordinal ≤ last.ordinal
  | e => doc.answers e

/-- What a tree says of a document; nothing where it does not restrict. -/
def reads (doc : Document) (e : Expr) : Option Bool :=
  e.truth doc.meets

end Document

namespace Expr

variable {doc : Document} {field : String} {cs : Choices} {others : List Choices}
  {lower : LowerComparison} {upper : UpperComparison} {e e' : Expr}

/-! ## Sets -/

theorem meets_isIn :
    doc.meets (isIn field cs) = true ↔ ∃ v, doc.value? field = some v ∧ cs.HasKey v := by
  simp [Document.meets, Choices.HasKey, Option.any_eq_true, List.any_eq_true]

theorem meets_isIn_union :
    doc.meets (isIn field (cs.union others)) = true ↔
      ∃ o ∈ cs :: others, doc.meets (isIn field o) = true := by
  simp only [meets_isIn, Choices.hasKey_union_iff]
  constructor
  · rintro ⟨v, hv, o, ho, hkey⟩
    exact ⟨o, ho, v, hv, hkey⟩
  · rintro ⟨o, ho, v, hv, hkey⟩
    exact ⟨v, hv, o, ho, hkey⟩

theorem meets_isIn_common :
    (∃ common, cs.intersect? others = some common ∧ doc.meets (isIn field common) = true) ↔
      ∀ o ∈ cs :: others, doc.meets (isIn field o) = true := by
  simp only [meets_isIn]
  cases hvalue : doc.value? field with
  | none => simpa using ⟨cs, fun h => absurd rfl h⟩
  | some v => simpa only [Option.some.injEq, exists_eq_left'] using Choices.hasKey_common_iff v

/-! ## Bounds -/

theorem meets_lower {low : Value} {phrase : Bool} (hfield : field ≠ fulltextField) :
    doc.meets (value field lower.toComparison low phrase) =
      doc.valueStands field lower.toComparison low := by
  cases lower <;> simp [Document.meets, hfield, Comparison.isBound, LowerComparison.toComparison,
    Comparison.lower?]

theorem meets_upper {high : Value} {phrase : Bool} (hfield : field ≠ fulltextField) :
    doc.meets (value field upper.toComparison high phrase) =
      doc.valueStands field upper.toComparison high := by
  cases upper <;> simp [Document.meets, hfield, Comparison.isBound, UpperComparison.toComparison,
    Comparison.upper?]

theorem meets_of_valueBounds_joins {x z y : Expr} (h : valueBounds.Joins x z y) :
    doc.meets y = (doc.meets x && doc.meets z) := by
  obtain ⟨field, lower, low, upper, high, phrase, phrase', hfield, rfl, horder⟩ :=
    valueBounds_joins h
  rcases horder with ⟨rfl, rfl⟩ | ⟨rfl, rfl⟩
  · rw [meets_lower hfield, meets_upper hfield, Document.meets]
  · rw [meets_lower hfield, meets_upper hfield, Document.meets, Bool.and_comm]

/-- A day meets a lower bound exactly if the first day that does is not after it. -/
theorem meets_day_lower {low first : Date} (h : firstDay? lower low = some first) :
    doc.meets (day field lower.toComparison low) =
      (doc.day? field).any fun d => first.ordinal ≤ d.ordinal := by
  cases lower with
  | ge =>
    obtain rfl : low = first := Option.some.inj h
    rfl
  | gt =>
    have hnext := Date.next?_eq_some.mp h
    have horder (d : Date) : low.ordinal < d.ordinal ↔ first.ordinal ≤ d.ordinal := by
      rw [Fin.lt_def, Fin.le_def]
      omega
    simp [Document.meets, LowerComparison.toComparison, Comparison.dayOrder?, horder]

theorem meets_day_upper {high last : Date} (h : lastDay? upper high = some last) :
    doc.meets (day field upper.toComparison high) =
      (doc.day? field).any fun d => d.ordinal ≤ last.ordinal := by
  cases upper with
  | le =>
    obtain rfl : high = last := Option.some.inj h
    rfl
  | lt =>
    have hprevious := Date.previous?_eq_some.mp h
    have horder (d : Date) : d.ordinal < high.ordinal ↔ d.ordinal ≤ last.ordinal := by
      rw [Fin.lt_def, Fin.le_def]
      omega
    simp [Document.meets, UpperComparison.toComparison, Comparison.dayOrder?, horder]

theorem meets_of_dayBounds_joins {x z y : Expr} (h : dayBounds.Joins x z y) :
    doc.meets y = (doc.meets x && doc.meets z) := by
  obtain ⟨field, lower, low, upper, high, first, last, -, hfirst, hlast, rfl, horder⟩ :=
    dayBounds_joins h
  have hboth : doc.meets (dayRange field first last) =
      (doc.meets (day field lower.toComparison low) &&
        doc.meets (day field upper.toComparison high)) := by
    rw [meets_day_lower hfirst, meets_day_upper hlast, Document.meets]
    cases doc.day? field <;> rfl
  rcases horder with ⟨rfl, rfl⟩ | ⟨rfl, rfl⟩
  · exact hboth
  · rw [hboth, Bool.and_comm]

/-! ## Trees -/

theorem leafLaws_meets (doc : Document) : LeafLaws (fun _ => True) doc.meets where
  union _ _ _ _ := meets_isIn_union
  common _ _ _ _ := meets_isIn_common
  range _ _ _ h _ _ := meets_of_valueBounds_joins h
  dayRange _ _ _ h _ _ := meets_of_dayBounds_joins h

/-- An optimized tree says of every document what the tree says of it. -/
theorem reads_optimize? (doc : Document) (h : optimize? e = some e') :
    doc.reads e' = doc.reads e :=
  truth_optimize? leafClosed_true (leafLaws_meets doc) (fun _ _ _ => trivial) h

/-- A document with the value and the day that a tree of sets and day bounds asks for. -/
theorem reads_optimize?_of_tag_and_day :
    optimize? (operation .and [isIn "tag" ⟨.str "a", [.str "b"]⟩, mustNot empty,
        day "on" .ge ⟨4⟩, operation .or [isIn "tag" ⟨.str "b", []⟩, nothing], day "on" .le ⟨8⟩]) =
      some (operation .and [isIn "tag" ⟨.str "b", []⟩, dayRange "on" ⟨4⟩ ⟨8⟩]) ∧
    let doc : Document :=
      ⟨fun _ => some (.str "b"), fun _ => some ⟨5⟩, fun _ _ _ => true, fun _ => false⟩
    doc.reads (operation .and [isIn "tag" ⟨.str "b", []⟩, dayRange "on" ⟨4⟩ ⟨8⟩]) =
      doc.reads (operation .and [isIn "tag" ⟨.str "a", [.str "b"]⟩, mustNot empty,
        day "on" .ge ⟨4⟩, operation .or [isIn "tag" ⟨.str "b", []⟩, nothing],
        day "on" .le ⟨8⟩]) := by
  have h : optimize? (operation .and [isIn "tag" ⟨.str "a", [.str "b"]⟩, mustNot empty,
        day "on" .ge ⟨4⟩, operation .or [isIn "tag" ⟨.str "b", []⟩, nothing], day "on" .le ⟨8⟩]) =
      some (operation .and [isIn "tag" ⟨.str "b", []⟩, dayRange "on" ⟨4⟩ ⟨8⟩]) := by cbv
  exact ⟨h, reads_optimize? _ h⟩

end Expr

end SearchExpr
