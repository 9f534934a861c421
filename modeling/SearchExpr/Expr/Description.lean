import SearchExpr.Expr.Basic
import SearchExpr.Value.Coerce

/-! # Descriptions of expressions

An expression can be written as a dictionary of plain values and be read from one. The kind of the
node decides which entries are read; entries with other names are ignored.
-/

namespace SearchExpr.Expr

def boundDescription (comparison : Comparison) (value : Value) : Value :=
  .dict [(.str "comparison", .str comparison.word), (.str "value", value)]

/-- The description of a node from what follows its kind. -/
def describedBy (e : Expr) (entries : List (Value × Value)) : Value :=
  .dict ((.str "kind", .str e.kindWord) :: entries)

mutual

def entries : Expr → List (Value × Value)
  | value field comparison v phrase =>
    [ (.str "field_name", .str field), (.str "comparison", .str comparison.word),
      (.str "value", v), (.str "match_phrase", .bool phrase) ]
  | day field comparison d =>
    [ (.str "field_name", .str field), (.str "comparison", .str comparison.word),
      (.str "value", .date d) ]
  | isIn field choices =>
    [(.str "field_name", .str field), (.str "values", .tuple choices.toList)]
  | range field lower low upper high =>
    [ (.str "field_name", .str field),
      (.str "lower_bound", boundDescription lower.toComparison low),
      (.str "upper_bound", boundDescription upper.toComparison high) ]
  | dayRange field first last =>
    [ (.str "field_name", .str field), (.str "from_day", .date first),
      (.str "until_day", .date last) ]
  | operation connective operands =>
    [(.str "operator", .str connective.word), (.str "operands", .tuple (descriptions operands))]
  | mustNot operand => [(.str "expression", operand.describedBy (entries operand))]
  | empty | everything | nothing => []
  | fulltext text => [(.str "text", .str text)]

def descriptions : List Expr → List Value
  | [] => []
  | e :: es => e.describedBy (entries e) :: descriptions es

end

def description (e : Expr) : Value :=
  e.describedBy e.entries

/-! ## Reading -/

open Check

def ofBound (v : Value) : Check (Comparison × Value) :=
  match v with
  | .dict entries =>
    Prod.mk <$> required entries "comparison" (Value.toOption Comparison.words) <*>
      required entries "value" valid
  | _ => problem .notModel

def choicesOf (v : Value) : Check Choices :=
  v.toTuple.andThen fun values =>
    match Choices.ofList? values with
    | some choices => valid choices
    | none => aborted .noValues

/-- The bounds of a range have to be on their sides, which is seen when both are read. -/
def ofRange (field : String) (low high : Comparison × Value) : Check Expr :=
  match low.1.lower?, high.1.upper? with
  | some lower, some upper => valid (range field lower low.2 upper high.2)
  | none, _ => aborted (.lowerBoundExpected field low.1.word)
  | some _, none => aborted (.upperBoundExpected field high.1.word)

/-- Reads a node that has no others below it, by the word for its kind. -/
def ofLeafEntries? (kind : String) (entries : List (Value × Value)) : Option (Check Expr) :=
  let fieldName := required entries "field_name" Value.toText
  let comparison := optional entries "comparison" .eq (Value.toOption Comparison.words)
  match kind with
  | "value" =>
    some <| value <$> fieldName <*> comparison <*> required entries "value" valid <*>
      optional entries "match_phrase" false Value.toBool
  | "day" => some <| day <$> fieldName <*> comparison <*> required entries "value" Value.toDay
  | "in" => some <| isIn <$> fieldName <*> required entries "values" choicesOf
  | "range" =>
    let parts : Check (String × (Comparison × Value) × (Comparison × Value)) :=
      (fun f l u => (f, l, u)) <$> fieldName <*> required entries "lower_bound" ofBound <*>
        required entries "upper_bound" ofBound
    some <| parts.andThen fun (f, l, u) => ofRange f l u
  | "day_range" =>
    some <| dayRange <$> fieldName <*> required entries "from_day" Value.toDay <*>
      required entries "until_day" Value.toDay
  | "empty" => some (valid empty)
  | "true" => some (valid everything)
  | "false" => some (valid nothing)
  | "fulltext" => some <| fulltext <$> required entries "text" Value.toText
  | _ => none

mutual

/-- Reads an expression from its description. -/
def ofDescription : Value → Check Expr
  | .dict entries =>
    match Value.lookup? entries "kind" with
    | none => problem .noKind
    | some (.str "operation") =>
      within "operation" <|
        operation <$> optional entries "operator" .and (Value.toOption Connective.words) <*>
          operandsIn entries
    | some (.str "must_not") => within "must_not" (mustNot <$> operandIn entries)
    | some (.str kind) =>
      match ofLeafEntries? kind entries with
      | some read => within kind read
      | none => problem .unknownKind
    | some _ => problem .unknownKind
  | _ => problem .notDescription

/-- The operands in the entries of an operation; there need not be any. -/
def operandsIn : List (Value × Value) → Check (List Expr)
  | [] => valid []
  | (.str "operands", v) :: _ => within "operands" (operandsOf v)
  | _ :: entries => operandsIn entries

def operandsOf : Value → Check (List Expr)
  | .list vs | .tuple vs | .set vs | .frozenSet vs => eachOperand 0 vs
  | _ => problem .notTuple

def eachOperand (index : Nat) : List Value → Check (List Expr)
  | [] => valid []
  | v :: vs =>
    List.cons <$> within (toString index) (ofDescription v) <*> eachOperand (index + 1) vs

def operandIn : List (Value × Value) → Check Expr
  | [] => within "expression" (problem .missing)
  | (.str "expression", v) :: _ => within "expression" (ofDescription v)
  | _ :: entries => operandIn entries

end

end SearchExpr.Expr
