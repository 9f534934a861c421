import SearchExpr.Text.Blank
import SearchExpr.Text.Case

/-! # Language of a locale -/

namespace SearchExpr.Text

def isSubtagSeparator (c : Char) : Bool :=
  c == '_' || c == '-'

/-- The first subtag in lower case without blanks around it, absent when nothing is left. -/
def languageOf (locale : String) : Option String :=
  let subtag := locale.toList.takeWhile (!isSubtagSeparator ·)
  let language := lower (String.ofList (strip subtag))
  if language.isEmpty then none else some language

end SearchExpr.Text
