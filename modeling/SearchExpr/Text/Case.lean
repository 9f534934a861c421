import SearchExpr.Text.CaseTable

/-! # Letter case

The forms of texts in small and in capital letters.
-/

namespace SearchExpr.Text

/-- The small form of a character by itself. -/
def lowerChar (c : Char) : List Char :=
  let n := c.toNat
  if n < 0x80 then [c.toLower]
  else if n == 0x130 then ['i', '\u0307']
  else [Char.ofNat ((LetterRun.other? (capitals ++ otherCapitals) n).getD n)]

def capitalSigma : Char := '\u03a3'

/-- The small form of the capital sigma, which differs at the end of a word. -/
def smallSigma (atEnd : Bool) : Char :=
  if atEnd then '\u03c2' else '\u03c3'

/-- A letter follows, perhaps after characters that are passed over. -/
def startsCased (s : List Char) : Bool :=
  (s.dropWhile caseIgnorable.contains).head?.any cased.contains

/-- `afterCased` says whether a letter stands before, perhaps with characters between that are passed
over. -/
def lowerFrom (afterCased : Bool) : List Char → List Char
  | [] => []
  | c :: rest =>
    let form :=
      if c == capitalSigma then [smallSigma (afterCased && !startsCased rest)] else lowerChar c
    form ++ lowerFrom (if caseIgnorable.contains c then afterCased else cased.contains c) rest

def lower (s : String) : String :=
  String.ofList (lowerFrom false s.toList)

/-- The capital form of a character. -/
def upperChar (c : Char) : List Char :=
  let n := c.toNat
  if n < 0x80 then [c.toUpper]
  else
    match capitalSpellings.lookup n with
    | some spelling => spelling.map Char.ofNat
    | none =>
      let other := LetterRun.original? capitals n <|> LetterRun.other? otherSmalls n
      [Char.ofNat (other.getD n)]

def upper (s : String) : String :=
  String.ofList (s.toList.flatMap upperChar)

end SearchExpr.Text
