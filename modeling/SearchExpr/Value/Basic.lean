import SearchExpr.Calendar.DateTime
import SearchExpr.Number.Binary64

/-! # Values

The values that a search compares fields with: scalars, dates and containers of values. Lists and
tuples are told apart, as are the mutable and the frozen forms of byte strings and sets.
-/

namespace SearchExpr

/-- The entries of a dictionary stand in the order in which their keys were added. -/
inductive Value where
  | null
  | bool (b : Bool)
  | int (n : Int)
  | float (x : Binary64)
  | str (s : String)
  | bytes (bs : List UInt8)
  | byteArray (bs : List UInt8)
  | date (d : Date)
  | dateTime (t : DateTime)
  | list (xs : List Value)
  | tuple (xs : List Value)
  | set (xs : List Value)
  | frozenSet (xs : List Value)
  | dict (entries : List (Value × Value))

inductive Value.Kind where
  | null | bool | int | float | str | bytes | byteArray | date | dateTime
  | list | tuple | set | frozenSet | dict
  deriving DecidableEq

namespace Value

def kind : Value → Kind
  | null => .null
  | bool _ => .bool
  | int _ => .int
  | float _ => .float
  | str _ => .str
  | bytes _ => .bytes
  | byteArray _ => .byteArray
  | date _ => .date
  | dateTime _ => .dateTime
  | list _ => .list
  | tuple _ => .tuple
  | set _ => .set
  | frozenSet _ => .frozenSet
  | dict _ => .dict

/-- The name of a kind in messages. -/
def Kind.name : Kind → String
  | .null => "NoneType"
  | .bool => "bool"
  | .int => "int"
  | .float => "float"
  | .str => "str"
  | .bytes => "bytes"
  | .byteArray => "bytearray"
  | .date => "date"
  | .dateTime => "datetime"
  | .list => "list"
  | .tuple => "tuple"
  | .set => "set"
  | .frozenSet => "frozenset"
  | .dict => "dict"

/-- The place of a truth value or number on the number line; true is one. -/
def place? : Value → Option Place
  | bool b => some (.ofInt (if b then 1 else 0))
  | int n => some (.ofInt n)
  | float x => some x.place
  | _ => none

def octets? : Value → Option (List UInt8)
  | bytes bs | byteArray bs => some bs
  | _ => none

/-- The members of a set, frozen or not. -/
def members? : Value → Option (List Value)
  | set xs | frozenSet xs => some xs
  | _ => none

/-- The elements of a container that is no dictionary. -/
def elements? : Value → Option (List Value)
  | list xs | tuple xs | set xs | frozenSet xs => some xs
  | _ => none

def isDate : Value → Bool
  | date _ | dateTime _ => true
  | _ => false

/-- Nothing, false, zero and what is empty do not count as given. -/
def isGiven : Value → Bool
  | null => false
  | bool b => b
  | int n => n != 0
  | float x => x.place != .ofInt 0
  | str s => !s.isEmpty
  | bytes bs | byteArray bs => !bs.isEmpty
  | date _ | dateTime _ => true
  | list xs | tuple xs | set xs | frozenSet xs => !xs.isEmpty
  | dict entries => !entries.isEmpty

/-- The value under a name in the entries of a dictionary. -/
def lookup? (entries : List (Value × Value)) (name : String) : Option Value :=
  (entries.find? fun (key, _) =>
    match key with
    | str s => s == name
    | _ => false).map (·.2)

end Value

end SearchExpr
