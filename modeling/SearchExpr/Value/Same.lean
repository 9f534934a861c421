import SearchExpr.Value.Basic

/-! # Equal values

Values are compared as a container compares its elements, for which identical ones are equal, also
the same occurrence of a float that is not a number. Numbers are compared exactly across their
kinds, also inside containers. Byte strings and sets are equal to their mutable forms; sets and
dictionaries have no order.
-/

namespace SearchExpr.Value

mutual

def same : Value → Value → Bool
  | null, null => true
  | bool b, w => w.place? == some (.ofInt (if b then 1 else 0))
  | int n, w => w.place? == some (.ofInt n)
  | float x, w => w.place? == some x.place
  | str s, str t => s == t
  | bytes bs, w => w.octets? == some bs
  | byteArray bs, w => w.octets? == some bs
  | date d, date e => d == e
  | dateTime t, dateTime u => t.same u
  | list xs, list ys => sameAll xs ys
  | tuple xs, tuple ys => sameAll xs ys
  | set xs, w =>
    match w.members? with
    | some ys => allFoundIn xs ys && ys.all (someSame xs)
    | none => false
  | frozenSet xs, w =>
    match w.members? with
    | some ys => allFoundIn xs ys && ys.all (someSame xs)
    | none => false
  | dict xs, dict ys => allEntriesIn xs ys && ys.all fun y => someEntry xs y.1 y.2
  | _, _ => false

def sameAll : List Value → List Value → Bool
  | [], [] => true
  | x :: xs, y :: ys => same x y && sameAll xs ys
  | _, _ => false

/-- Every one of the first values equals one of the second. -/
def allFoundIn : List Value → List Value → Bool
  | [], _ => true
  | x :: xs, ys => ys.any (same x) && allFoundIn xs ys

def someSame : List Value → Value → Bool
  | [], _ => false
  | x :: xs, y => same x y || someSame xs y

def allEntriesIn : List (Value × Value) → List (Value × Value) → Bool
  | [], _ => true
  | (key, x) :: xs, ys => ys.any (fun y => same key y.1 && same x y.2) && allEntriesIn xs ys

def someEntry : List (Value × Value) → Value → Value → Bool
  | [], _, _ => false
  | (key, x) :: xs, otherKey, y => (same key otherKey && same x y) || someEntry xs otherKey y

end

/-- Adds an entry; a key that is there already keeps its place and its spelling. -/
def insertEntry (key value : Value) : List (Value × Value) → List (Value × Value)
  | [] => [(key, value)]
  | (k, v) :: rest => if same k key then (k, value) :: rest else (k, v) :: insertEntry key value rest

/-- A dictionary from entries in order, of which the last for a key counts. -/
def ofEntries (entries : List (Value × Value)) : Value :=
  dict (entries.foldl (fun acc (key, value) => insertEntry key value acc) [])

end SearchExpr.Value
