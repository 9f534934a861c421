import SearchExpr.Expr.Basic

/-! # Simplifying one operation

The rules for an operation whose operands are simple already: what decides the operation replaces
it, what is neutral is dropped, conditions on one field are merged, and an operation of one operand
is that operand. Only operands next to each other in the tree are merged.
-/

namespace SearchExpr

/-! ## Deciding and neutral operands -/

namespace Connective

/-- The condition that no operand can change and the one that changes nothing. -/
def absorbing : Connective → Expr
  | and => .nothing
  | or => .everything

def identity : Connective → Expr
  | and => .everything
  | or => .nothing

def isAbsorbing : Connective → Expr → Bool
  | and, .nothing => true
  | or, .everything => true
  | _, _ => false

/-- No restriction at all is neutral under both connectives. -/
def isNeutral : Connective → Expr → Bool
  | _, .empty => true
  | and, .everything => true
  | or, .nothing => true
  | _, _ => false

def dropNeutral (c : Connective) (operands : List Expr) : List Expr :=
  operands.filter (!c.isNeutral ·)

end Connective

namespace Expr

/-! ## Choices on one field -/

/-- The field and the choices of a condition that asks for one of them. -/
def choices? : Expr → Option (String × Choices)
  | isIn field choices => some (field, choices)
  | _ => none

/-- The field and the choices of a condition that excludes them. -/
def exclusions? : Expr → Option (String × Choices)
  | mustNot (isIn field choices) => some (field, choices)
  | _ => none

def onField (part? : Expr → Option (String × Choices)) (field : String) (e : Expr) :
    Option Choices :=
  match part? e with
  | some (f, choices) => if f = field then some choices else none
  | none => none

/-- Merges the operands on each field at the place of the first; a single one is left as it is. -/
def mergeChoicesFrom (part? : Expr → Option (String × Choices))
    (merge : String → Choices → List Choices → Expr) (done : List String) :
    List Expr → List Expr
  | [] => []
  | e :: rest =>
    match part? e with
    | none => e :: mergeChoicesFrom part? merge done rest
    | some (field, choices) =>
      if done.contains field then mergeChoicesFrom part? merge done rest
      else
        let merged :=
          match rest.filterMap (onField part? field) with
          | [] => e
          | others => merge field choices others
        merged :: mergeChoicesFrom part? merge (field :: done) rest

/-- One of the values that all choices share; nothing if there is none. -/
def isInAll (field : String) (choices : Choices) (others : List Choices) : Expr :=
  match choices.intersect? others with
  | some common => isIn field common
  | none => nothing

def isInAny (field : String) (choices : Choices) (others : List Choices) : Expr :=
  isIn field (choices.union others)

/-- What is in none of several sets is not in their union. -/
def isInNone (field : String) (choices : Choices) (others : List Choices) : Expr :=
  mustNot (isIn field (choices.union others))

/-- What is not in every one of several sets is not in their intersection. -/
def isNotInAll (field : String) (choices : Choices) (others : List Choices) : Expr :=
  match choices.intersect? others with
  | some common => mustNot (isIn field common)
  | none => everything

def mergeChoices (c : Connective) : List Expr → List Expr :=
  mergeChoicesFrom choices? (match c with
    | .and => isInAll
    | .or => isInAny) []

def mergeExclusions (c : Connective) : List Expr → List Expr :=
  mergeChoicesFrom exclusions? (match c with
    | .and => isInNone
    | .or => isNotInAll) []

/-! ## Bounds on one field -/

/-- A bound on a field from one of its two sides. -/
inductive Bound (α : Type) where
  | lower (field : String) (comparison : LowerComparison) (bound : α)
  | upper (field : String) (comparison : UpperComparison) (bound : α)

/-- The conditions that bound a field by something, and how two bounds become one condition. -/
structure BoundForm (α : Type) where
  bound? : Expr → Option (Bound α)
  join : String → LowerComparison → α → UpperComparison → α → Option Expr

/-- The bound of a comparison with something, if it bounds a field other than the full text. -/
def boundOf? {α : Type} (field : String) (comparison : Comparison) (bound : α) :
    Option (Bound α) :=
  if field = fulltextField then none
  else
    match comparison.lower?, comparison.upper? with
    | some lower, _ => some (.lower field lower bound)
    | none, some upper => some (.upper field upper bound)
    | none, none => none

def valueBounds : BoundForm Value where
  bound?
    | value field comparison v _ => boundOf? field comparison v
    | _ => none
  join field lower low upper high := some (range field lower low upper high)

/-- The first day that meets a lower bound, if the calendar has it. -/
def firstDay? (comparison : LowerComparison) (d : Date) : Option Date :=
  match comparison with
  | .ge => some d
  | .gt => d.next?

def lastDay? (comparison : UpperComparison) (d : Date) : Option Date :=
  match comparison with
  | .le => some d
  | .lt => d.previous?

def dayBounds : BoundForm Date where
  bound?
    | day field comparison d => boundOf? field comparison d
    | _ => none
  join field lower low upper high := do
    return dayRange field (← firstDay? lower low) (← lastDay? upper high)

namespace BoundForm

variable {α : Type}

def lowerOn? (form : BoundForm α) (field : String) (e : Expr) : Option (LowerComparison × α) :=
  match form.bound? e with
  | some (.lower f comparison bound) => if f = field then some (comparison, bound) else none
  | _ => none

def upperOn? (form : BoundForm α) (field : String) (e : Expr) : Option (UpperComparison × α) :=
  match form.bound? e with
  | some (.upper f comparison bound) => if f = field then some (comparison, bound) else none
  | _ => none

/-- What becomes of an operand. -/
inductive Outcome where
  | kept
  | joined (e : Expr)
  | dropped

/-- The first lower bound on a field is joined with the first upper bound on it, the second with
the second and so on, at the place of the one that stands first. There is no outcome if a joined
condition would leave the calendar. -/
def outcome? (form : BoundForm α) (before : List Expr) (e : Expr) (after : List Expr) :
    Option Outcome :=
  match form.bound? e with
  | none => some .kept
  | some (.lower field lower low) =>
    let lowersBefore := (before.filterMap (form.lowerOn? field)).length
    let uppersBefore := (before.filterMap (form.upperOn? field)).length
    if lowersBefore < uppersBefore then some .dropped
    else
      match (after.filterMap (form.upperOn? field))[lowersBefore - uppersBefore]? with
      | some (upper, high) => (form.join field lower low upper high).map .joined
      | none => some .kept
  | some (.upper field upper high) =>
    let lowersBefore := (before.filterMap (form.lowerOn? field)).length
    let uppersBefore := (before.filterMap (form.upperOn? field)).length
    if uppersBefore < lowersBefore then some .dropped
    else
      match (after.filterMap (form.lowerOn? field))[uppersBefore - lowersBefore]? with
      | some (lower, low) => (form.join field lower low upper high).map .joined
      | none => some .kept

def Outcome.apply (e : Expr) : Outcome → List Expr
  | kept => [e]
  | joined e' => [e']
  | dropped => []

def mergeFrom? (form : BoundForm α) (before : List Expr) : List Expr → Option (List Expr)
  | [] => some []
  | e :: after => do
    let outcome ← form.outcome? before e after
    let rest ← form.mergeFrom? (before ++ [e]) after
    return outcome.apply e ++ rest

def merge? (form : BoundForm α) (operands : List Expr) : Option (List Expr) :=
  form.mergeFrom? [] operands

end BoundForm

/-! ## All rules -/

/-- Bounds are merged under `and` only. -/
def mergeBounds? : Connective → List Expr → Option (List Expr)
  | .and, operands => (valueBounds.merge? operands).bind dayBounds.merge?
  | .or, operands => some operands

/-- The operation that is left when all its operands are neither deciding nor neutral. -/
def collapse (c : Connective) : List Expr → Expr
  | [] => c.identity
  | [e] => e
  | operands => operation c operands

/-- A merge can bring forth a deciding or neutral operand, so these are looked for again. -/
def simplify? (c : Connective) (operands : List Expr) : Option Expr :=
  if operands.any c.isAbsorbing then some c.absorbing
  else do
    let merged ← mergeBounds? c <| mergeExclusions c <| mergeChoices c <| c.dropNeutral operands
    if merged.any c.isAbsorbing then return c.absorbing
    return collapse c (c.dropNeutral merged)

/-- The negation of a simple condition. -/
def negate : Expr → Expr
  | everything => nothing
  | nothing => everything
  | empty => empty
  | e => mustNot e

end Expr

end SearchExpr
