/-! # Sets of characters

A set of characters is given by its borders: the code at which it begins, the one at which it ends,
the one at which it begins again and so on. The sets follow version 14 of Unicode.
-/

namespace SearchExpr.Text

structure CharSet where
  borders : List Nat
  ascending : ∀ pair ∈ borders.zip borders.tail, pair.1 < pair.2

/-- A character is in the set if an odd number of borders are passed on the way to it. -/
def CharSet.contains (s : CharSet) (c : Char) : Bool :=
  (s.borders.takeWhile (· ≤ c.toNat)).length % 2 == 1

end SearchExpr.Text
