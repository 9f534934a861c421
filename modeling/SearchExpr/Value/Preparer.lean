import SearchExpr.Failure
import SearchExpr.Text.Blank
import SearchExpr.Text.Utf8

/-! # Preparing values

Values pass through a chain of preparers before they are compared with fields. A preparer leaves
values alone that it is not meant for, or rejects them with a reason.
-/

namespace SearchExpr

structure Preparer where
  name : String
  prepare : Value → Except String Value

namespace Preparer

def stripped (s : String) : Value :=
  .str (String.ofList (Text.strip s.toList))

/-- Takes the blanks off both ends of a text, which may be given as UTF-8. -/
def strip : Preparer where
  name := "StripValuePreparer"
  prepare
    | .str s => .ok (stripped s)
    | .bytes bs | .byteArray bs =>
      match Text.ofUtf8? bs with
      | some s => .ok (stripped s)
      | none => .error "Value is not valid UTF-8"
    | v => .ok v

/-- Leaves one space of each run of blanks. -/
def whitespace : Preparer where
  name := "WhitespaceValuePreparer"
  prepare
    | .str s => .ok (.str (String.ofList (Text.collapse s.toList)))
    | v => .ok v

/-- Takes a date for its midnight. -/
def date : Preparer where
  name := "DateValuePreparer"
  prepare
    | .date d => .ok (.dateTime (.midnight d))
    | v => .ok v

def standard : List Preparer :=
  [strip, date]

def literal (p : Preparer) : String :=
  "<" ++ p.name ++ ">"

def run (p : Preparer) (v : Value) : Except Failure Value :=
  match p.prepare v with
  | .ok v => .ok v
  | .error reason => .error (.ofFault (.rejected reason p.name v))

/-- Each preparer is given what the one before has made. -/
def runAll (chain : List Preparer) (v : Value) : Except Failure Value :=
  chain.foldlM (fun v p => p.run v) v

end Preparer

/-- A phrase is kept as it is. -/
def Value.prepare (v : Value) (chain : List Preparer) (phrase : Bool) : Except Failure Value :=
  if phrase then .ok v else Preparer.runAll chain v

end SearchExpr
