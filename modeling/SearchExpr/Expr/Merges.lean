import SearchExpr.Expr.Optimize

/-! # Merges

What the merging rules did to a tree, in the order in which they did it. A join that would leave
the calendar ends the list.
-/

namespace SearchExpr

inductive Merge where
  | choices (count : Nat) (field : String)
  | bounds (field : String)
  deriving DecidableEq

def Merge.text : Merge → String
  | choices count field => s!"Merged {count} operands on field '" ++ field ++ "'"
  | bounds field => "Merged bounds on field '" ++ field ++ "' into a range"

namespace Expr

def choiceMergesFrom (part? : Expr → Option (String × Choices)) (done : List String) :
    List Expr → List Merge
  | [] => []
  | e :: rest =>
    match part? e with
    | none => choiceMergesFrom part? done rest
    | some (field, _) =>
      if done.contains field then choiceMergesFrom part? done rest
      else
        let count := (rest.filterMap (onField part? field)).length + 1
        (if 2 ≤ count then [Merge.choices count field] else []) ++
          choiceMergesFrom part? (field :: done) rest

def lowerField? {α : Type} (form : BoundForm α) (e : Expr) : Option String :=
  match form.bound? e with
  | some (.lower field _ _) => some field
  | _ => none

/-- The merges of joined bounds by field, and whether all joins stayed in the calendar. -/
def boundMerges {α : Type} (form : BoundForm α) (operands : List Expr) : List Merge × Bool :=
  let fields := (operands.filterMap (lowerField? form)).eraseDups
  let joins := fields.flatMap fun field =>
    List.zipWith
      (fun (lower, low) (upper, high) => (field, (form.join field lower low upper high).isSome))
      (operands.filterMap (form.lowerOn? field)) (operands.filterMap (form.upperOn? field))
  ((joins.takeWhile (·.2)).map fun join => .bounds join.1, joins.all (·.2))

/-- The merges in simplifying an operation with simple operands. -/
def simplifyMerges (c : Connective) (operands : List Expr) : List Merge :=
  if operands.any c.isAbsorbing then []
  else
    let operands := c.dropNeutral operands
    let chosen := mergeChoices c operands
    let merged := mergeExclusions c chosen
    choiceMergesFrom choices? [] operands ++ choiceMergesFrom exclusions? [] chosen ++
      match c with
      | .or => []
      | .and =>
        let (valueMerges, _) := boundMerges valueBounds merged
        valueMerges ++
          match valueBounds.merge? merged with
          | some joined => (boundMerges dayBounds joined).1
          | none => []

mutual

def merges : Expr → List Merge
  | operation c operands =>
    mergesInAll operands ++
      match optimizeAll? operands with
      | some simple => simplifyMerges c simple
      | none => []
  | mustNot operand => merges operand
  | _ => []

/-- Operands after one that cannot be optimized are not reached. -/
def mergesInAll : List Expr → List Merge
  | [] => []
  | e :: es => merges e ++ if (optimize? e).isSome then mergesInAll es else []

end

end Expr

end SearchExpr
