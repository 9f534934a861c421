import SearchExpr.Text.Case
import SearchExpr.Value.Literal

/-! # Logging

Loggers share one level, which is set once; records below it are not kept. Messages about the life
of the program are logged at a level of their own, which can be changed at any time.
-/

namespace SearchExpr

inductive LogLevel where
  | debug | info | warning | error | critical
  deriving DecidableEq

namespace LogLevel

def name : LogLevel → String
  | debug => "DEBUG"
  | info => "INFO"
  | warning => "WARNING"
  | error => "ERROR"
  | critical => "CRITICAL"

def severity : LogLevel → Nat
  | debug => 10
  | info => 20
  | warning => 30
  | error => 40
  | critical => 50

def all : List LogLevel :=
  [debug, info, warning, error, critical]

/-- The level with a name in letters of either case; unknown names mean `info`. -/
def named (name : String) : LogLevel :=
  (all.find? (·.name == Text.upper name)).getD info

end LogLevel

/-- Puts values in the place of the marks of a text: `%s` for the text of a value, `%r` for its
literal, `%d` for a number. -/
def formatMarks? : List Char → List Value → Option (List Char)
  | '%' :: '%' :: rest, values => (formatMarks? rest values).map ('%' :: ·)
  | '%' :: mark :: rest, v :: values => do
    let text ←
      match mark, v with
      | 'r', v => v.literal?
      | 'd', .bool b => some (if b then "1" else "0")
      | _, v => v.text?
    let rest ← formatMarks? rest values
    return text.toList ++ rest
  | c :: rest, values => (formatMarks? rest values).map (c :: ·)
  | [], _ => some []

/-- A text without values is taken as it is. There is none if a value has none. -/
def logText? (text : String) (values : List Value) : Option String :=
  if values.isEmpty then some text else (formatMarks? text.toList values).map String.ofList

structure LogRecord where
  level : LogLevel
  logger : String
  text : String

def defaultLoggerName : String := "elasticexpr.logger"

/-- `messageLevel` is the name of a level, known or not. -/
structure LogState where
  configured : Bool
  rootLevel : LogLevel
  messageLevel : String

namespace LogState

/-- Before it is set up, logging is at the level of warnings. -/
def initial (messageLevel : String) : LogState :=
  ⟨false, .warning, messageLevel⟩

/-- Sets the common level, for the first time only. -/
def setUp (s : LogState) (level : String) : LogState :=
  if s.configured then s else { s with configured := true, rootLevel := .named level }

/-- Whoever gets a logger sets logging up at the level of messages. -/
def withLogger (s : LogState) : LogState :=
  s.setUp s.messageLevel

def isDebug (s : LogState) : Bool :=
  s.rootLevel == .debug

/-- The record, if it is not below the common level. -/
def emit (s : LogState) (level : LogLevel) (logger text : String) : List LogRecord :=
  if s.rootLevel.severity ≤ level.severity then [⟨level, logger, text⟩] else []

def debug (s : LogState) (logger text : String) : List LogRecord :=
  s.emit .debug logger text

def message (s : LogState) (logger text : String) : List LogRecord :=
  s.emit (.named s.messageLevel) logger text

end LogState

end SearchExpr
