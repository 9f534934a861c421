import SearchExpr.Value.Same

/-! # Distinct values

Lists of values without repetition. Values are told apart by their kind and by equality, so that
1, 1.0 and true are three of them.
-/

namespace SearchExpr

namespace Value

mutual

/-- A value that can never change, nor any value in it. -/
def isFrozen : Value → Bool
  | list _ | dict _ | set _ | byteArray _ => false
  | tuple xs | frozenSet xs => allFrozen xs
  | _ => true

def allFrozen : List Value → Bool
  | [] => true
  | x :: xs => isFrozen x && allFrozen xs

end

def sameOfKind (v w : Value) : Bool :=
  v.kind == w.kind && v.same w

end Value

/-- Values to look others up in, the frozen ones apart from the rest. -/
structure ValueKeys where
  frozen : List Value
  changeable : List Value

namespace ValueKeys

def empty : ValueKeys :=
  ⟨[], []⟩

def insert (keys : ValueKeys) (v : Value) : ValueKeys :=
  if v.isFrozen then { keys with frozen := v :: keys.frozen }
  else { keys with changeable := v :: keys.changeable }

/-- A frozen value is looked up among the frozen ones only, another one among the others only. -/
def contains (keys : ValueKeys) (v : Value) : Bool :=
  (if v.isFrozen then keys.frozen else keys.changeable).any v.sameOfKind

def ofList (values : List Value) : ValueKeys :=
  values.foldl insert empty

end ValueKeys

namespace Value

def distinctFrom (seen : ValueKeys) : List Value → List Value
  | [] => []
  | v :: vs => if seen.contains v then distinctFrom seen vs else v :: distinctFrom (seen.insert v) vs

/-- Keeps the first of several values with one key. -/
def distinct (values : List Value) : List Value :=
  distinctFrom .empty values

def union (sets : List (List Value)) : List Value :=
  distinct sets.flatten

/-- The values of the first set that are in all the others. -/
def intersect : List (List Value) → List Value
  | [] => []
  | first :: rest =>
    let others := rest.map ValueKeys.ofList
    distinct (first.filter fun v => others.all (·.contains v))

end Value

end SearchExpr
