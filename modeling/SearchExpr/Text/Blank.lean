/-! # Blank characters

The blank set is the one that both trimming and the collapsing of blank runs use.
-/

namespace SearchExpr.Text

/-- ASCII and Unicode spaces, line and paragraph ends, and the four information separators.
The zero-width space and the byte order mark are not blank. -/
def isBlank (c : Char) : Bool :=
  let n := c.toNat
  (0x09 ≤ n && n ≤ 0x0D) || (0x1C ≤ n && n ≤ 0x20) || n == 0x85 || n == 0xA0 || n == 0x1680 ||
    (0x2000 ≤ n && n ≤ 0x200A) || n == 0x2028 || n == 0x2029 || n == 0x202F || n == 0x205F ||
    n == 0x3000

def dropBlankEnd (s : List Char) : List Char :=
  (s.reverse.dropWhile isBlank).reverse

def strip (s : List Char) : List Char :=
  dropBlankEnd (s.dropWhile isBlank)

/-- Writes one space for each run of blanks; `inRun` says whether the character before was blank. -/
def collapseFrom (inRun : Bool) : List Char → List Char
  | [] => []
  | c :: cs =>
    if isBlank c then
      if inRun then collapseFrom true cs else ' ' :: collapseFrom true cs
    else c :: collapseFrom false cs

def collapse (s : List Char) : List Char :=
  collapseFrom false s

/-- Neither empty nor made of blanks alone. -/
def hasInk (s : String) : Bool :=
  s.toList.any (!isBlank ·)

end SearchExpr.Text
