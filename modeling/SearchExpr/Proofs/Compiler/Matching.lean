import SearchExpr.Compiler.Tree

/-! # Matching queries

A document in the index has at most one value for a field. The queries that sets and bounds are
compiled to look at that value, and what other leaf queries come to is left open. Where nothing is
to be said of documents, a query is read over any truth values of its leaf queries.
-/

namespace SearchExpr

/-- What a document has in the index for each field, which bounds a value satisfies, and how the
document answers the other leaf queries. -/
structure IndexedDocument where
  value? : String → Option Value
  satisfies : RangeKey → Value → Value → Prop
  answers : Query → Prop

namespace Query

variable {doc : IndexedDocument} {q : Query} {qs : List Query}

mutual

def MatchedBy (doc : IndexedDocument) : Query → Prop
  | matchAll => True
  | matchNone => False
  | bool .must qs => AllMatchedBy doc qs
  | bool .should qs => SomeMatchedBy doc qs
  | bool .mustNot qs => ¬ SomeMatchedBy doc qs
  | terms field values => ∃ v, doc.value? field = some v ∧ v ∈ values
  | range field bounds =>
    ∃ v, doc.value? field = some v ∧ ∀ b ∈ bounds, doc.satisfies b.1 v b.2
  | q => doc.answers q

def AllMatchedBy (doc : IndexedDocument) : List Query → Prop
  | [] => True
  | q :: qs => MatchedBy doc q ∧ AllMatchedBy doc qs

def SomeMatchedBy (doc : IndexedDocument) : List Query → Prop
  | [] => False
  | q :: qs => MatchedBy doc q ∨ SomeMatchedBy doc qs

end

theorem allMatchedBy_iff : AllMatchedBy doc qs ↔ ∀ q ∈ qs, q.MatchedBy doc := by
  induction qs with
  | nil => simp [AllMatchedBy]
  | cons q qs ih => simp [AllMatchedBy, ih]

theorem someMatchedBy_iff : SomeMatchedBy doc qs ↔ ∃ q ∈ qs, q.MatchedBy doc := by
  induction qs with
  | nil => simp [SomeMatchedBy]
  | cons q qs ih => simp [SomeMatchedBy, ih]

theorem matchedBy_must : (bool .must qs).MatchedBy doc ↔ ∀ q ∈ qs, q.MatchedBy doc := by
  rw [MatchedBy, allMatchedBy_iff]

theorem matchedBy_should : (bool .should qs).MatchedBy doc ↔ ∃ q ∈ qs, q.MatchedBy doc := by
  rw [MatchedBy, someMatchedBy_iff]

theorem matchedBy_not : q.not.MatchedBy doc ↔ ¬ q.MatchedBy doc := by
  rw [not, MatchedBy, someMatchedBy_iff]
  simp

/-- A document has one value to meet two bounds with. -/
theorem matchedBy_range_two {field : String} {b b' : RangeKey × Value} :
    (range field [b, b']).MatchedBy doc ↔
      (range field [b]).MatchedBy doc ∧ (range field [b']).MatchedBy doc := by
  simp only [MatchedBy, List.mem_cons, List.not_mem_nil, or_false]
  constructor
  · rintro ⟨v, hv, h⟩
    exact ⟨⟨v, hv, by rintro _ rfl; exact h _ (Or.inl rfl)⟩,
      ⟨v, hv, by rintro _ rfl; exact h _ (Or.inr rfl)⟩⟩
  · rintro ⟨⟨v, hv, h⟩, w, hw, h'⟩
    obtain rfl := Option.some.inj (hv.symm.trans hw)
    refine ⟨v, hv, ?_⟩
    rintro _ (rfl | rfl)
    · exact h _ rfl
    · exact h' _ rfl

/-! ## Given truth values of leaf queries -/

mutual

def holds (atom : Query → Bool) : Query → Bool
  | matchAll => true
  | matchNone => false
  | bool .must qs => allHold atom qs
  | bool .should qs => someHold atom qs
  | bool .mustNot qs => !someHold atom qs
  | q => atom q

def allHold (atom : Query → Bool) : List Query → Bool
  | [] => true
  | q :: qs => holds atom q && allHold atom qs

def someHold (atom : Query → Bool) : List Query → Bool
  | [] => false
  | q :: qs => holds atom q || someHold atom qs

end

variable {atom : Query → Bool}

theorem allHold_eq : allHold atom qs = qs.all (holds atom) := by
  induction qs with
  | nil => rfl
  | cons q qs ih => rw [allHold, ih, List.all_cons]

theorem someHold_eq : someHold atom qs = qs.any (holds atom) := by
  induction qs with
  | nil => rfl
  | cons q qs ih => rw [someHold, ih, List.any_cons]

theorem holds_not : q.not.holds atom = !q.holds atom := by
  rw [not, holds, someHold_eq, List.any_cons, List.any_nil, Bool.or_false]

end Query

/-- A document in which every field has one value, and which satisfies given bounds. -/
def IndexedDocument.withValue (v : Value) (satisfies : RangeKey → Value → Prop) :
    IndexedDocument :=
  ⟨fun _ => some v, fun key _ bound => satisfies key bound, fun _ => False⟩

/-- A search without a query finds every document. -/
def IndexedDocument.Matches (doc : IndexedDocument) : Option Query → Prop
  | none => True
  | some q => q.MatchedBy doc

end SearchExpr
