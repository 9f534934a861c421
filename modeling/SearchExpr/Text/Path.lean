/-! # Field paths

A field of an object is named by a path with dots; where a dot cannot be written two underscores
stand for it.
-/

namespace SearchExpr.Text

/-- Replaces every pair of underscores by a dot, from the left. -/
def dotted : List Char → List Char
  | '_' :: '_' :: rest => '.' :: dotted rest
  | c :: rest => c :: dotted rest
  | [] => []

def dottedName (name : String) : String :=
  String.ofList (dotted name.toList)

/-- The parts before and after the last pair of underscores. -/
def splitLastPair? : List Char → Option (List Char × List Char)
  | [] => none
  | c :: rest =>
    match splitLastPair? rest with
    | some (before, after) => some (c :: before, after)
    | none =>
      match c, rest with
      | '_', '_' :: after => some ([], after)
      | _, _ => none

/-- The part of a path before its first dot. -/
def firstSegment (name : String) : String :=
  String.ofList (name.toList.takeWhile (· != '.'))

def hasDot (name : String) : Bool :=
  name.toList.contains '.'

end SearchExpr.Text
