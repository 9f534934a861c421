import SearchExpr.Expr.Basic
import SearchExpr.Text.Path

/-! # Filter keys

A filter key names a field, with two underscores for a dot, and perhaps a lookup after two more.
-/

namespace SearchExpr

/-- What a filter does with its value. -/
inductive Lookup where
  | compare (comparison : Comparison)
  | oneOf
  | noneOf
  | phrase
  deriving DecidableEq

namespace Lookup

def words : List (String × Lookup) :=
  [ ("eq", compare .eq), ("ne", compare .ne), ("gt", compare .gt), ("gte", compare .ge),
    ("lt", compare .lt), ("lte", compare .le), ("like", compare .like),
    ("nlike", compare .notLike), ("startswith", compare .startsWith),
    ("endswith", compare .endsWith), ("wildcard", compare .wildcard), ("in", oneOf),
    ("nin", noneOf), ("phrase", phrase) ]

end Lookup

/-- The field and the lookup that a key spells; without a known lookup at its end the key is all
field, and the lookup is equality. -/
def splitKey (key : String) : String × Lookup :=
  let whole := (Text.dottedName key, Lookup.compare .eq)
  match Text.splitLastPair? key.toList with
  | none => whole
  | some (field, word) =>
    match Lookup.words.lookup (String.ofList word) with
    | some lookup => (Text.dottedName (String.ofList field), lookup)
    | none => whole

end SearchExpr
