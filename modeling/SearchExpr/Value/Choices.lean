import SearchExpr.Value.Keys

/-! # Choices

The values of which a field is asked to have one: at least one value, in the order given.
-/

namespace SearchExpr

structure Choices where
  first : Value
  rest : List Value

namespace Choices

def toList (c : Choices) : List Value :=
  c.first :: c.rest

def ofList? : List Value → Option Choices
  | [] => none
  | v :: vs => some ⟨v, vs⟩

/-- The distinct values of all choices. -/
def union (c : Choices) (others : List Choices) : Choices :=
  let keys := ValueKeys.empty.insert c.first
  ⟨c.first, Value.distinctFrom keys (c.rest ++ others.flatMap toList)⟩

/-- The distinct values of the first choice that all the others have too, if there are any. -/
def intersect? (c : Choices) (others : List Choices) : Option Choices :=
  ofList? (Value.intersect (c.toList :: others.map toList))

theorem toList_union (c : Choices) (others : List Choices) :
    (c.union others).toList = Value.union (c.toList :: others.map toList) := by
  have hnew : ValueKeys.empty.contains c.first = false := by
    simp [ValueKeys.contains, ValueKeys.empty]
  simp [union, toList, Value.union, Value.distinct, Value.distinctFrom, hnew, List.flatMap_def]

end Choices

end SearchExpr
