import SearchExpr.Engine.Variables
import SearchExpr.Expr.Basic
import SearchExpr.Text.Case
import SearchExpr.Value.Coerce
import SearchExpr.Value.Zoned

/-! # Settings

Settings are given by arguments, by variables of the environment and in a file of such variables,
in this order of precedence. The names of variables can be written in either case.
-/

namespace SearchExpr

structure Settings where
  zoneKey : String
  defaultOperator : Connective
  optimizes : Bool
  logLevel : String

namespace Settings

def standard : Settings :=
  ⟨defaultZoneKey, .and, true, "INFO"⟩

/-! ## Loading -/

/-- The text of a variable by its name in either case; the last one with the name counts. -/
def textOf? (name : String) (assignments : List Variables.Assignment) : Option Value := do
  let (_, text) ← assignments.reverse.find? fun v => Text.lower v.1 == Text.lower name
  return .str (← text)

structure Sources where
  arguments : List (String × Value)
  environment : List (String × String)
  file : String

def Sources.find? (s : Sources) (name : String) : Option Value :=
  s.arguments.lookup name <|>
    textOf? name (s.environment.map fun (n, text) => (n, some text)) <|>
    textOf? name (Variables.ofFile s.environment s.file)

def read {α : Type} (s : Sources) (name : String) (default : α) (reader : Value → Check α) :
    Check α :=
  match s.find? name with
  | some v => Check.within name (reader v)
  | none => .valid default

def load (s : Sources) : Except Failure Settings :=
  let check : Check Settings :=
    Settings.mk <$> read s "ELASTICSEARCH_TIME_ZONE" standard.zoneKey Value.toText <*>
      read s "QUERY_STRING_DEFAULT_OPERATOR" standard.defaultOperator
        (Value.toOption Connective.words) <*>
      read s "OPTIMIZE_EXPRESSIONS" standard.optimizes Value.toBool <*>
      read s "LOG_LEVEL" standard.logLevel Value.toText
  check.toExcept

def description (s : Settings) : Value :=
  .dict
    [ (.str "ELASTICSEARCH_TIME_ZONE", .str s.zoneKey),
      (.str "QUERY_STRING_DEFAULT_OPERATOR", .str s.defaultOperator.word),
      (.str "OPTIMIZE_EXPRESSIONS", .bool s.optimizes), (.str "LOG_LEVEL", .str s.logLevel) ]

end Settings

end SearchExpr
