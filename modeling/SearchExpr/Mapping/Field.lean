import SearchExpr.Value.Coerce
import SearchExpr.Value.Literal

/-! # Field configurations

What is known about a field of the documents: its type and what it can be used for. A nested field
holds objects with fields of their own.
-/

namespace SearchExpr

inductive FieldType where
  | text | keyword | boolean | date | long | integer | double | float | nested | object
  deriving DecidableEq

namespace FieldType

def word : FieldType → String
  | text => "text"
  | keyword => "keyword"
  | boolean => "boolean"
  | date => "date"
  | long => "long"
  | integer => "integer"
  | double => "double"
  | float => "float"
  | nested => "nested"
  | object => "object"

def all : List FieldType :=
  [text, keyword, boolean, date, long, integer, double, float, nested, object]

def words : List (String × FieldType) :=
  all.map fun t => (t.word, t)

/-- Types can be given in capital letters. -/
def ofValue (v : Value) : Check FieldType :=
  match v.text? with
  | none => .problem .noText
  | some given =>
    match words.lookup (Text.lower given) with
    | some t => .valid t
    | none => .aborted (.unknownFieldType v)

end FieldType

structure Field where
  name : String
  type : FieldType
  sortable : Bool
  aggregatable : Bool
  multilingual : Bool
  nestedFields : List Field
  absenceAsFalse : Option Bool

namespace Field

def isNested (f : Field) : Bool :=
  f.type == .nested

def nestedField? (f : Field) (name : String) : Option Field :=
  f.nestedFields.find? (·.name == name)

/-- A document without a boolean field counts as having the value false, unless the configuration
says otherwise; for fields of other types it is the other way round. -/
def treatsAbsenceAsFalse (f : Field) : Bool :=
  f.absenceAsFalse.getD (f.type == .boolean)

/-- Whether values can be compared as a whole, for sorting or counting. -/
def hasWholeValues (f : Field) : Bool :=
  f.sortable || f.aggregatable

/-! ## Descriptions -/

open Check

/-- Only nested fields have fields of their own, and only texts and keywords have languages. -/
def consistent (f : Field) : Check Field :=
  if !f.nestedFields.isEmpty && !f.isNested then
    aborted (.nestedFieldsOutsideNested f.name f.type.word)
  else if f.multilingual && !(f.type == .text || f.type == .keyword) then
    aborted (.multilingualOutsideText f.name f.type.word)
  else valid f

mutual

def ofDescription : Value → Check Field
  | .dict entries =>
    let read : Check Field :=
      Field.mk <$> required entries "name" Value.toText <*>
        optional entries "elasticsearch_type" .text FieldType.ofValue <*>
        optional entries "sortable" false Value.toBool <*>
        optional entries "aggregatable" false Value.toBool <*>
        optional entries "multilingual" false Value.toBool <*>
        nestedFieldsIn entries <*>
        optional entries "absence_as_false" none Value.toOptionalBool
    read.andThen consistent
  | _ => problem .notModel

/-- The fields in the entries of a configuration; there need not be any. -/
def nestedFieldsIn : List (Value × Value) → Check (List Field)
  | [] => valid []
  | (.str "nested_fields", v) :: _ => within "nested_fields" (nestedFieldsOf v)
  | _ :: entries => nestedFieldsIn entries

def nestedFieldsOf : Value → Check (List Field)
  | .list vs | .tuple vs | .set vs | .frozenSet vs => eachField 0 vs
  | _ => problem .notList

def eachField (index : Nat) : List Value → Check (List Field)
  | [] => valid []
  | v :: vs => List.cons <$> within (toString index) (ofDescription v) <*> eachField (index + 1) vs

end

mutual

def description : Field → Value
  | ⟨name, type, sortable, aggregatable, multilingual, nestedFields, absenceAsFalse⟩ =>
    .dict
      [ (.str "name", .str name), (.str "elasticsearch_type", .str type.word),
        (.str "sortable", .bool sortable), (.str "aggregatable", .bool aggregatable),
        (.str "multilingual", .bool multilingual),
        (.str "nested_fields", .list (descriptions nestedFields)),
        (.str "absence_as_false", absenceAsFalse.elim .null .bool) ]

def descriptions : List Field → List Value
  | [] => []
  | f :: fs => description f :: descriptions fs

end

end Field

end SearchExpr
