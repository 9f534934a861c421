/-! # Phrases

A phrase is a text in double quotes or in braces. The query language knows the quoted form only.
-/

namespace SearchExpr.Text

/-- At least two characters, `opening` first and `closing` last. -/
def isEnclosed (opening closing : Char) (s : List Char) : Bool :=
  2 ≤ s.length && s.head? == some opening && s.getLast? == some closing

def isBraced (s : List Char) : Bool :=
  isEnclosed '\x7b' '\x7d' s

def isPhrase (s : String) : Bool :=
  isEnclosed '\x22' '\x22' s.toList || isBraced s.toList

def enquote (s : List Char) : List Char :=
  '\x22' :: s ++ ['\x22']

/-- What stands between the first and the last character. -/
def inner (s : List Char) : List Char :=
  s.tail.dropLast

/-- Gives a braced phrase the quoted form. -/
def replaceBraces (s : String) : String :=
  if isBraced s.toList then String.ofList (enquote (inner s.toList)) else s

def escapeQuotes (s : List Char) : List Char :=
  s.flatMap fun c => if c == '\x22' then ['\\', '\x22'] else [c]

/-- The phrase query for a text; a text that is a phrase already is kept. -/
def quotePhrase (s : String) : String :=
  if isPhrase s then replaceBraces s else String.ofList (enquote (escapeQuotes s.toList))

end SearchExpr.Text
