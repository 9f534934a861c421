import SearchExpr.Value.Literal

/-! # Reported errors

A report carries a message and named details. Every fault that the library finds by itself has one
report; its families are nested, so that a caller can catch a wide or a narrow one.
-/

namespace SearchExpr

inductive ErrorFamily where
  | general
  | configuration
  | unsupportedComparison
  | invalidFieldConfiguration
  | unsupportedExpression
  | validation
  | invalidExpression
  | valuePreparation
  deriving DecidableEq

namespace ErrorFamily

def name : ErrorFamily → String
  | general => "ElasticExprError"
  | configuration => "ConfigurationError"
  | unsupportedComparison => "UnsupportedComparisonError"
  | invalidFieldConfiguration => "InvalidFieldConfigurationError"
  | unsupportedExpression => "UnsupportedExpressionError"
  | validation => "ValidationError"
  | invalidExpression => "InvalidExpressionError"
  | valuePreparation => "ValuePreparationError"

/-- The family itself and all wider ones. -/
def lineage : ErrorFamily → List ErrorFamily
  | general => [general]
  | configuration => [configuration, general]
  | unsupportedComparison => [unsupportedComparison, configuration, general]
  | invalidFieldConfiguration => [invalidFieldConfiguration, configuration, general]
  | unsupportedExpression => [unsupportedExpression, configuration, general]
  | validation => [validation, general]
  | invalidExpression => [invalidExpression, validation, general]
  | valuePreparation => [valuePreparation, general]

def all : List ErrorFamily :=
  [ general, configuration, unsupportedComparison, invalidFieldConfiguration,
    unsupportedExpression, validation, invalidExpression, valuePreparation ]

def named? (name : String) : Option ErrorFamily :=
  all.find? (·.name == name)

end ErrorFamily

structure Report where
  family : ErrorFamily
  message : String
  details : List (String × Value)

namespace Report

def detailsText? (details : List (String × Value)) : Option String := do
  let items ← details.mapM fun (name, value) => value.literal?.map fun text => name ++ "=" ++ text
  return commaSeparated items

/-- The text of a report, if its details have one. -/
def text? (r : Report) : Option String :=
  if r.details.isEmpty then some r.message
  else
    (detailsText? r.details).map fun details =>
      if r.message.isEmpty then details else r.message ++ " (" ++ details ++ ")"

def literal? (r : Report) : Option String := do
  let details ← (Value.dict (r.details.map fun (name, value) => (.str name, value))).literal?
  return r.family.name ++ "(message=" ++ Text.quoted r.message ++ ", details=" ++ details ++ ")"

/-- A report takes a message, which can also be given by its name, and details with other names. -/
def ofArguments? (family : ErrorFamily) (positional : List Value)
    (named : List (String × Value)) : Option Report :=
  match positional, named.lookup "message" with
  | [], none => some ⟨family, "", named⟩
  | [.str message], none => some ⟨family, message, named⟩
  | [], some (.str message) => some ⟨family, message, named.filter (·.1 != "message")⟩
  | _, _ => none

def detail? (r : Report) (name : String) : Option Value :=
  (r.details.find? (·.1 == name)).map (·.2)

end Report

/-- What can be wrong with a field configuration, an expression, a value or a compiler. -/
inductive Fault where
  | unknownFieldType (given : Value)
  | nestedFieldsOutsideNested (field fieldType : String)
  | multilingualOutsideText (field fieldType : String)
  | duplicateField (field : String)
  | noValues
  | lowerBoundExpected (field comparison : String)
  | upperBoundExpected (field comparison : String)
  | valuesExpected (lookup field : String)
  | unknownOperator (given : Value)
  | noBuilder (value : Value)
  | comparisonUnsupported (field : String) (comparison : Value)
  | dayComparisonUnsupported (field : String) (comparison : Value)
  | keywordUnsupported (field comparison : String)
  | expressionUnsupported (typeName : String)
  | rejected (reason preparer : String) (value : Value)

def Fault.report : Fault → Report
  | unknownFieldType given =>
    ⟨.invalidFieldConfiguration, "Unknown elasticsearch type", [("elasticsearch_type", given)]⟩
  | nestedFieldsOutsideNested field fieldType =>
    ⟨.invalidFieldConfiguration, "Nested fields require elasticsearch type 'nested'",
      [("field", .str field), ("elasticsearch_type", .str fieldType)]⟩
  | multilingualOutsideText field fieldType =>
    ⟨.invalidFieldConfiguration, "Multilingual fields have to be text or keyword fields",
      [("field", .str field), ("elasticsearch_type", .str fieldType)]⟩
  | duplicateField field =>
    ⟨.invalidFieldConfiguration, "Duplicate field configuration", [("field", .str field)]⟩
  | noValues => ⟨.invalidExpression, "InExpression requires at least one value", []⟩
  | lowerBoundExpected field comparison =>
    ⟨.invalidExpression, "Lower bound has to be gt or ge",
      [("field", .str field), ("comparison", .str comparison)]⟩
  | upperBoundExpected field comparison =>
    ⟨.invalidExpression, "Upper bound has to be lt or le",
      [("field", .str field), ("comparison", .str comparison)]⟩
  | valuesExpected lookup field =>
    ⟨.invalidExpression, "Lookup '" ++ lookup ++ "' requires a sequence of values",
      [("field", .str field)]⟩
  | unknownOperator given =>
    ⟨.configuration, "Default operator has to be 'and' or 'or'", [("default_operator", given)]⟩
  | noBuilder value => ⟨.configuration, "No filter builder supports value", [("value", value)]⟩
  | comparisonUnsupported field comparison =>
    ⟨.unsupportedComparison, "Unsupported comparison",
      [("field", .str field), ("comparison", comparison)]⟩
  | dayComparisonUnsupported field comparison =>
    ⟨.unsupportedComparison, "Unsupported comparison for day expression",
      [("field", .str field), ("comparison", comparison)]⟩
  | keywordUnsupported field comparison =>
    ⟨.configuration,
      "Field configuration of '" ++ field ++
        "' has to be sortable or aggregatable to support comparison: " ++ comparison,
      [("field", .str field), ("comparison", .str comparison)]⟩
  | expressionUnsupported typeName =>
    ⟨.unsupportedExpression, "Unsupported expression", [("expression_type", .str typeName)]⟩
  | rejected reason preparer value =>
    ⟨.valuePreparation, reason, [("preparer", .str preparer), ("value", value)]⟩

end SearchExpr
