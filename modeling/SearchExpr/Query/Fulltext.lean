import SearchExpr.Query.Basic
import SearchExpr.Text.Blank
import SearchExpr.Text.Case
import SearchExpr.Text.Phrase
import SearchExpr.Failure

/-! # Full text queries

Free text is searched for in one field that holds the text of the whole document.
-/

namespace SearchExpr

/-- The operator between the words of a text, in letters of either case; `and` if none is given. -/
def Connective.ofValue (v : Value) : Except Failure Connective := do
  let given ← if v.isGiven then v.written else .ok Connective.and.word
  match Connective.words.lookup (Text.lower given) with
  | some c => return c
  | none => throw (.ofFault (.unknownOperator v))

structure FulltextBuilder where
  defaultOperator : Connective
  field : String

namespace FulltextBuilder

def hasWildcard (s : String) : Bool :=
  s.toList.any fun c => c == '*' || c == '?'

def textQuery (b : FulltextBuilder) (text : String) : Query :=
  .queryString (if Text.isPhrase text then Text.replaceBraces text else text) [b.field]
    (some b.defaultOperator) (hasWildcard text)

/-- The query for a text, none for a blank one. Only the comparison `ne` negates it. -/
def buildText (b : FulltextBuilder) (text comparison : String) : Option Query :=
  if !Text.hasInk text then none
  else if comparison == Comparison.ne.word then some (.not (b.textQuery text))
  else some (b.textQuery text)

/-- The text that is searched for when a value is given; nothing is if there is no value. -/
def textFor : Value → Except Failure String
  | .null => .ok ""
  | v => v.written

def build (b : FulltextBuilder) (v : Value) (comparison : String) :
    Except Failure (Option Query) :=
  (textFor v).map fun text => b.buildText text comparison

end FulltextBuilder

end SearchExpr
