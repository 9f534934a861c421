import SearchExpr.Compiler.Tree
import SearchExpr.Expr.Description
import SearchExpr.Expr.Literal

/-! # Drafts

A draft is a node whose parts have not been read: any part may be missing or of any type. It
can be compiled all the same, as far as its parts make sense.
-/

namespace SearchExpr

/-- `model` has the kind of the node; its other parts are of no account. -/
structure Draft where
  model : Expr
  parts : List (String × Value)

namespace Draft

/-- A node of each kind. -/
def models : List Expr :=
  let day : Date := ⟨0⟩
  [ .value "" .eq .null false, .day "" .eq day, .isIn "" ⟨.null, []⟩,
    .range "" .ge .null .le .null, .dayRange "" day day, .operation .and [], .mustNot .empty,
    .empty, .everything, .nothing, .fulltext "" ]

/-- The names of the parts that a node has. -/
def partNames (model : Expr) : List String :=
  "kind" :: model.entries.filterMap fun (name, _) =>
    match name with
    | .str s => some s
    | _ => none

/-- A draft from the name of its type; what is no part of such a node is left out. -/
def ofType? (typeName : String) (parts : List (String × Value)) : Option Draft :=
  (models.find? (·.typeName == typeName)).map fun model =>
    ⟨model, parts.filter fun p => (partNames model).contains p.1⟩

def defaults (d : Draft) : List (String × Value) :=
  ("kind", .str d.model.kindWord) ::
    match d.model with
    | .value .. => [("comparison", .str Comparison.eq.word), ("match_phrase", .bool false)]
    | .day .. => [("comparison", .str Comparison.eq.word)]
    | .operation .. => [("operator", .str Connective.and.word), ("operands", .tuple [])]
    | _ => []

def part (d : Draft) (name : String) : Except Failure Value :=
  match (d.parts ++ d.defaults).lookup name with
  | some v => .ok v
  | none => .error .missingPart

/-- What a value is made of, for one that is taken for a list. -/
def elements (v : Value) : Except Failure (List Value) :=
  match v with
  | .str s => .ok (s.toList.map fun c => .str c.toString)
  | .bytes bs | .byteArray bs => .ok (bs.map fun b => .int b.toNat)
  | .dict entries => .ok (entries.map (·.1))
  | v =>
    match v.elements? with
    | some vs => .ok vs
    | none => .error .wrongType

def target (d : Draft) (m : Mapping) (locale : Option String) : Except Failure Target := do
  match ← d.part "field_name" with
  | .str field => return m.target locale field
  | _ => throw .wrongType

def comparison? (v : Value) : Except Failure (Option Comparison) :=
  match v with
  | .str word => .ok (Comparison.words.lookup word)
  | v => if v.isFrozen then .ok none else .error .wrongType

/-- A value that is no node has no kind. -/
def compilePlain (v : Value) : Except Failure (Option Query) :=
  .error (.fault (.expressionUnsupported v.kind.name))

/-- Of the comparisons that are no words none has a meaning of its own for full text. -/
def comparisonWord : Value → String
  | .str word => word
  | _ => ""

def operatorOf (v : Value) : Connective :=
  if v.same (.str Connective.and.word) then .and else .or

/-- The mark of a phrase counts as it is for the preparers, and is read for the filter. -/
def compileValue (d : Draft) (c : Compiler) (m : Mapping) (locale : Option String) :
    Except Failure (Option Query) := do
  if (← d.part "field_name").same (.str fulltextField) then
    let v ← d.part "value"
    return ← c.fulltext.build v (comparisonWord (← d.part "comparison"))
  let target ← d.target m locale
  let comparison ← d.part "comparison"
  let v ← d.part "value"
  let mark ← d.part "match_phrase"
  let value ← v.prepare c.preparers mark.isGiven
  let phrase ←
    if mark.isGiven then (Check.within "match_phrase" mark.toBool).toExcept else .ok v.isPhrase
  let prepared ← c.dispatch target value phrase
  match ← comparison? comparison with
  | some known => (prepared.query known).map some
  | none => throw (.ofFault (.comparisonUnsupported target.name comparison))

def compileDay (d : Draft) (c : Compiler) (m : Mapping) (locale : Option String) :
    Except Failure (Option Query) := do
  let target ← d.target m locale
  let v ← d.part "value"
  let start ← v.startOfDay c.zoneKey
  let stop ← v.startOfNextDay c.zoneKey
  let comparison ← d.part "comparison"
  let known ← comparison? comparison
  match known.bind (Compiler.dayBounds? (.str start.isoText) (.str stop.isoText)) with
  | some bounds =>
    let query := Query.rangeOn target.name bounds
    return some (if known = some .ne then query.not else query)
  | none => throw (.ofFault (.dayComparisonUnsupported target.name comparison))

def compileDayRange (d : Draft) (c : Compiler) (m : Mapping) (locale : Option String) :
    Except Failure (Option Query) := do
  let target ← d.target m locale
  let start ← (← d.part "from_day").startOfDay c.zoneKey
  let stop ← (← d.part "until_day").startOfNextDay c.zoneKey
  return some (.rangeOn target.name [(.gte, .str start.isoText), (.lt, .str stop.isoText)])

def compileOperation (d : Draft) : Except Failure (Option Query) := do
  match ← elements (← d.part "operands") with
  | [] => return some (Compiler.sentinel (operatorOf (← d.part "operator")))
  | operand :: _ => compilePlain operand

/-- Compiles the node by the kind that it says it is of. -/
def compileKind (d : Draft) (c : Compiler) (m : Mapping) (locale : Option String) :
    Except Failure (Option Query) := do
  match ← d.part "kind" with
  | .str "empty" => return none
  | .str "true" => return some .matchAll
  | .str "false" => return some .matchNone
  | .str "operation" => d.compileOperation
  | .str "must_not" => compilePlain (← d.part "expression")
  | .str "fulltext" => c.fulltext.build (← d.part "text") Comparison.eq.word
  | .str "value" => d.compileValue c m locale
  | .str "day" => d.compileDay c m locale
  | .str "day_range" => d.compileDayRange c m locale
  | .str "in" =>
    let target ← d.target m locale
    (c.compileChoices target (← elements (← d.part "values"))).map some
  | .str "range" =>
    let _ ← d.target m locale
    throw .missingPart
  | kind =>
    if kind.isFrozen then throw (.fault (.expressionUnsupported d.model.typeName))
    else throw .wrongType

/-- Optimizing an operation or a negation reads its parts again. -/
def compile (d : Draft) (c : Compiler) (m : Mapping) (locale : Option String) :
    Except Failure (Option Query) := do
  if !c.optimizes then d.compileKind c m locale
  else
    match d.model with
    | .operation .. =>
      let operator ← d.part "operator"
      match ← elements (← d.part "operands") with
      | [] => c.compileTree m locale (operatorOf operator).identity
      | [operand] => compilePlain operand
      | operands =>
        let read : Check Expr :=
          Expr.operation <$> Check.within "operator" (operator.toOption Connective.words) <*>
            Check.within "operands" (Expr.eachOperand 0 operands)
        c.compileTree m locale (← read.toExcept)
    | .mustNot _ =>
      let operand := Check.within "expression" (Expr.ofDescription (← d.part "expression"))
      c.compileTree m locale (.mustNot (← operand.toExcept))
    | _ => d.compileKind c m locale

end Draft

end SearchExpr
