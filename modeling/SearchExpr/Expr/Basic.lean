import SearchExpr.Value.Choices

/-! # Search expressions

The tree of conditions that a search puts on documents: conditions on one field at the leaves,
boolean connectives above them. A tree can only be built with at least one value to choose from and
with bounds on the proper sides.
-/

namespace SearchExpr

inductive Comparison where
  | eq | ne | like | notLike | gt | lt | ge | le | startsWith | endsWith | wildcard
  deriving DecidableEq

namespace Comparison

def word : Comparison → String
  | eq => "eq"
  | ne => "ne"
  | like => "like"
  | notLike => "not_like"
  | gt => "gt"
  | lt => "lt"
  | ge => "ge"
  | le => "le"
  | startsWith => "startswith"
  | endsWith => "endswith"
  | wildcard => "wildcard"

def all : List Comparison :=
  [eq, ne, like, notLike, gt, lt, ge, le, startsWith, endsWith, wildcard]

def words : List (String × Comparison) :=
  all.map fun c => (c.word, c)

end Comparison

inductive LowerComparison where
  | gt | ge
  deriving DecidableEq

inductive UpperComparison where
  | lt | le
  deriving DecidableEq

def LowerComparison.toComparison : LowerComparison → Comparison
  | gt => .gt
  | ge => .ge

def UpperComparison.toComparison : UpperComparison → Comparison
  | lt => .lt
  | le => .le

def Comparison.lower? : Comparison → Option LowerComparison
  | gt => some .gt
  | ge => some .ge
  | _ => none

def Comparison.upper? : Comparison → Option UpperComparison
  | lt => some .lt
  | le => some .le
  | _ => none

inductive Connective where
  | and | or
  deriving DecidableEq

namespace Connective

def word : Connective → String
  | and => "and"
  | or => "or"

def words : List (String × Connective) :=
  [(and.word, and), (or.word, or)]

end Connective

/-- `empty` stands for no restriction at all, `everything` for one that every document meets. A
`phrase` is compared as it is written. -/
inductive Expr where
  | value (field : String) (comparison : Comparison) (value : Value) (phrase : Bool)
  | day (field : String) (comparison : Comparison) (day : Date)
  | isIn (field : String) (choices : Choices)
  | range (field : String) (lower : LowerComparison) (low : Value) (upper : UpperComparison)
      (high : Value)
  | dayRange (field : String) (first last : Date)
  | operation (connective : Connective) (operands : List Expr)
  | mustNot (operand : Expr)
  | empty
  | everything
  | nothing
  | fulltext (text : String)

/-- The field that holds the text of the whole document. -/
def fulltextField : String := "fulltext"

namespace Expr

/-- The word that tells the kind of a node. -/
def kindWord : Expr → String
  | value .. => "value"
  | day .. => "day"
  | isIn .. => "in"
  | range .. => "range"
  | dayRange .. => "day_range"
  | operation .. => "operation"
  | mustNot _ => "must_not"
  | empty => "empty"
  | everything => "true"
  | nothing => "false"
  | fulltext _ => "fulltext"

def isEmpty : Expr → Bool
  | empty => true
  | _ => false

/-! Trees are equal when they have the same shape and equal values. -/

mutual

def same : Expr → Expr → Bool
  | value f c v p, value f' c' v' p' => f == f' && c == c' && v.same v' && p == p'
  | day f c d, day f' c' d' => f == f' && c == c' && d == d'
  | isIn f vs, isIn f' vs' => f == f' && Value.sameAll vs.toList vs'.toList
  | range f l v u w, range f' l' v' u' w' =>
    f == f' && l == l' && v.same v' && u == u' && w.same w'
  | dayRange f a b, dayRange f' a' b' => f == f' && a == a' && b == b'
  | operation c es, operation c' es' => c == c' && sameAll es es'
  | mustNot e, mustNot e' => same e e'
  | empty, empty => true
  | everything, everything => true
  | nothing, nothing => true
  | fulltext t, fulltext t' => t == t'
  | _, _ => false

def sameAll : List Expr → List Expr → Bool
  | [], [] => true
  | e :: es, e' :: es' => same e e' && sameAll es es'
  | _, _ => false

end

end Expr

end SearchExpr
