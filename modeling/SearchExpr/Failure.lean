import SearchExpr.Fault

/-! # Failures

All the ways in which an operation can end without a result.
-/

namespace SearchExpr

/-- What is wrong with one part of a description that was to be read. -/
inductive Problem where
  | missing
  | notText
  | notUtf8
  | unreadableBool
  | notBool
  | notAmongOptions
  | notMidnight
  | unreadableDay
  | yearZero
  | notDay
  | notTuple
  | notList
  | notModel
  | notDescription
  | noKind
  | unknownKind
  | noText
  deriving DecidableEq

def Problem.name : Problem → String
  | missing => "missing"
  | notText => "string_type"
  | notUtf8 => "string_unicode"
  | unreadableBool => "bool_parsing"
  | notBool => "bool_type"
  | notAmongOptions => "literal_error"
  | notMidnight => "date_from_datetime_inexact"
  | unreadableDay => "date_from_datetime_parsing"
  | yearZero => "date_parsing"
  | notDay => "date_type"
  | notTuple => "tuple_type"
  | notList => "list_type"
  | notModel => "model_type"
  | notDescription => "model_attributes_type"
  | noKind => "union_tag_not_found"
  | unknownKind => "union_tag_invalid"
  | noText => "value_error"

/-- A problem and the path to the part that has it. -/
structure Issue where
  path : List String
  problem : Problem
  deriving DecidableEq

def Issue.text (i : Issue) : String :=
  ".".intercalate i.path ++ ": " ++ i.problem.name

inductive Failure where
  | fault (f : Fault)
  | invalid (issues : List Issue)
  | beyondCalendar
  | tooManyDigits
  | unknownZone (key : String)
  | malformedZoneKey (key : String)
  | notAnExpression (kind : Value.Kind)
  | wrongType
  | missingPart

namespace Failure

/-- A fault is raised with its text; one without a text cannot be raised. -/
def ofFault (f : Fault) : Failure :=
  if f.report.text?.isSome then fault f else tooManyDigits

/-- The text of a failure, where it has one. -/
def text? : Failure → Option String
  | fault f => f.report.text?
  | invalid issues => some ("; ".intercalate (issues.map Issue.text))
  | beyondCalendar => some "date value out of range"
  | tooManyDigits => none
  | unknownZone key => some ("No time zone found with key " ++ key)
  | malformedZoneKey _ => none
  | notAnExpression kind =>
    some ("expression must be an Expression, Q object or dict, got " ++ kind.name)
  | wrongType => none
  | missingPart => none

end Failure

/-- The text of a value, as it is put into a query. -/
def Value.written (v : Value) : Except Failure String :=
  match v.text? with
  | some text => .ok text
  | none => .error .tooManyDigits

end SearchExpr
