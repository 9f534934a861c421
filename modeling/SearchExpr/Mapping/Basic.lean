import SearchExpr.Mapping.Field
import SearchExpr.Text.Locale
import SearchExpr.Text.Path
import SearchExpr.Value.Same

/-! # Mappings

The configured fields of a search index, each under one name, and the names in the index that they
go by. A multilingual field has one name per language, a field of a nested one a path.
-/

namespace SearchExpr

structure Mapping where
  fields : List Field
  defaultLocale : Option String

namespace Mapping

def field? (m : Mapping) (name : String) : Option Field :=
  m.fields.find? (·.name == name)

/-- The language of a locale or, if none is given, of the default one. -/
def language? (m : Mapping) (locale : Option String) : Option String :=
  let given := if (locale.getD "").isEmpty then m.defaultLocale else locale
  given.bind Text.languageOf

/-- The name of a field in the index, with the language after it for a multilingual one. -/
def resolve (m : Mapping) (locale : Option String) (name : String) : String :=
  match m.field? name with
  | some field =>
    if field.multilingual then
      match m.language? locale with
      | some language => name ++ "." ++ language
      | none => name
    else name
  | none => name

/-- The configuration for a name in the index: of the field with that name, or of the nested or
multilingual field named by its first part. -/
def configuration? (m : Mapping) (name : String) : Option Field :=
  match m.field? name with
  | some field => some field
  | none =>
    if Text.hasDot name then
      (m.field? (Text.firstSegment name)).filter fun field => field.isNested || field.multilingual
    else none

/-! ## Descriptions -/

open Check

def toLocale : Value → Check (Option String)
  | .null => valid none
  | v => v.toText.map some

/-- The first name that is given a second time. -/
def repeatedName? : List String → List String → Option String
  | _, [] => none
  | seen, name :: names =>
    if seen.contains name then some name else repeatedName? (name :: seen) names

def withUniqueNames (m : Mapping) : Check Mapping :=
  match repeatedName? [] (m.fields.map (·.name)) with
  | some name => aborted (.duplicateField name)
  | none => valid m

def ofFields (fields : Check (List Field)) (locale : Check (Option String)) : Check Mapping :=
  (Mapping.mk <$> within "fields" fields <*> locale).andThen withUniqueNames

/-- The description of a field from its name and options, which may name it anew. -/
def namedOptions (name : Value) : Value → Except Failure Value
  | .dict options =>
    .ok (.dict (options.foldl (fun entries (k, v) => Value.insertEntry k v entries)
      [(.str "name", name)]))
  | options => if options.isGiven then .error .wrongType else .ok (.dict [(.str "name", name)])

/-- A mapping is described by a list of its fields, or by a dictionary of options by field name. -/
def ofDescription (v : Value) : Except Failure Mapping :=
  match v with
  | .dict entries =>
    match Value.lookup? entries "fields" with
    | some (.list fields) =>
      (ofFields (Field.eachField 0 fields) (optional entries "default_locale" none toLocale)).toExcept
    | _ => do
      let fields ← entries.mapM fun (name, options) => namedOptions name options
      (ofFields (Field.eachField 0 fields) (valid none)).toExcept
  | _ => .error .wrongType

def description (m : Mapping) : Value :=
  .dict
    [ (.str "fields", .list (Field.descriptions m.fields)),
      (.str "default_locale", m.defaultLocale.elim .null .str) ]

end Mapping

/-- The name under which a text field keeps its values as a whole. -/
def keywordName (field : Option Field) (name : String) (value : Value) : String :=
  match field, value with
  | some field, .str _ =>
    if field.type == .text && !".keyword".toList.isSuffixOf name.toList then name ++ ".keyword"
    else name
  | _, _ => name

end SearchExpr
