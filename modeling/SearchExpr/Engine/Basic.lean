import SearchExpr.Compiler.Tree
import SearchExpr.Criteria.Basic
import SearchExpr.Engine.Log
import SearchExpr.Engine.Settings
import SearchExpr.Expr.Merges

/-! # Query engines

An engine compiles whatever describes a search for one mapping, and logs what it does.
-/

namespace SearchExpr

structure Engine where
  mapping : Mapping
  compiler : Compiler

/-- The compiler that settings ask for. -/
def Settings.compiler (zones : ZoneDatabase) (s : Settings) : Compiler :=
  { Compiler.standard with
    defaultOperator := s.defaultOperator
    zoneKey := ⟨zones, (ZoneKey.mk zones s.zoneKey).given⟩
    fulltext := ⟨s.defaultOperator, fulltextField⟩
    optimizes := s.optimizes }

namespace Engine

def optimize (source : Source) : Except Failure Expr := do
  match (← source.toExpr).optimize? with
  | some e => return e
  | none => throw .beyondCalendar

def compile (engine : Engine) (source : Source) (locale : Option String) :
    Except Failure (Option Query) := do
  engine.compiler.compile engine.mapping locale (← source.toExpr)

def searchBody (engine : Engine) (source : Source) (locale : Option String) :
    Except Failure Value :=
  (engine.compile source locale).map SearchExpr.searchBody

/-! ## Log -/

def engineLogger : String := "QueryEngine"

def optimizerLogger : String := "elasticexpr.querydsl.optimizer"

def compilerLogger : String := "ExpressionCompiler"

def startRecords (engine : Engine) (s : LogState) : List LogRecord :=
  s.message engineLogger <|
    "QueryEngine initialized: compiler=" ++ compilerLogger ++ " fields=" ++
      toString engine.mapping.fields.length

def mergeRecords (engine : Engine) (s : LogState) (e : Expr) : List LogRecord :=
  if engine.compiler.optimizes then
    e.merges.flatMap fun merge => s.debug optimizerLogger merge.text
  else []

def queryText? (query : Option Query) : Option String :=
  match query with
  | some q => q.body.literal?
  | none => Value.null.literal?

/-- There is no record of a query that has no text. -/
def compiledRecords (s : LogState) (e : Expr) (query : Option Query) : List LogRecord :=
  match queryText? query with
  | some text => s.debug compilerLogger ("Compiled " ++ e.kindWord ++ " expression: " ++ text)
  | none => []

/-- What is logged when an engine is made and compiles one search. -/
def records (engine : Engine) (s : LogState) (source : Source) (locale : Option String) :
    List LogRecord :=
  engine.startRecords s ++
    match source.toExpr with
    | .error _ => []
    | .ok e =>
      engine.mergeRecords s e ++
        match engine.compiler.tree e with
        | .error _ => []
        | .ok tree =>
          match engine.compiler.compileTree engine.mapping locale tree with
          | .error _ => []
          | .ok query => compiledRecords s tree query

end Engine

end SearchExpr
