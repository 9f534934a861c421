import SearchExpr.Failure

/-! # Reading descriptions

A check reads a part of a description. The issues of all parts are collected in their order; a
fault that is found on the way ends the reading at once and hides them.
-/

namespace SearchExpr

inductive Check (α : Type) where
  | valid (a : α)
  | invalid (issues : List Issue)
  | aborted (fault : Fault)

namespace Check

variable {α β : Type}

def map (f : α → β) : Check α → Check β
  | valid a => valid (f a)
  | invalid issues => invalid issues
  | aborted fault => aborted fault

/-- Both checks, the issues of the first before those of the second. -/
def apply : Check (α → β) → Check α → Check β
  | aborted fault, _ => aborted fault
  | valid f, c => c.map f
  | invalid issues, valid _ => invalid issues
  | invalid issues, invalid more => invalid (issues ++ more)
  | invalid _, aborted fault => aborted fault

instance : Applicative Check where
  pure := valid
  map := map
  seq f c := apply f (c ())

/-- A further check of what has been read without issues. -/
def andThen (c : Check α) (f : α → Check β) : Check β :=
  match c with
  | valid a => f a
  | invalid issues => invalid issues
  | aborted fault => aborted fault

def problem (p : Problem) : Check α :=
  invalid [⟨[], p⟩]

/-- Places a check at a part of the description. -/
def within (part : String) : Check α → Check α
  | valid a => valid a
  | invalid issues => invalid (issues.map fun i => { i with path := part :: i.path })
  | aborted fault => aborted fault

def toExcept : Check α → Except Failure α
  | valid a => .ok a
  | invalid issues => .error (.invalid issues)
  | aborted fault => .error (.fault fault)

/-! ## Parts of a dictionary -/

def required (entries : List (Value × Value)) (name : String) (read : Value → Check α) : Check α :=
  within name <|
    match Value.lookup? entries name with
    | some v => read v
    | none => problem .missing

def optional (entries : List (Value × Value)) (name : String) (default : α)
    (read : Value → Check α) : Check α :=
  match Value.lookup? entries name with
  | some v => within name (read v)
  | none => valid default

end Check

end SearchExpr
