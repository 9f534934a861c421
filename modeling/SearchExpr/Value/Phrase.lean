import SearchExpr.Failure
import SearchExpr.Text.Phrase

/-! # Phrases given as values

Only texts are phrases. Other values are refused, those too short to be enclosed excepted when
braces are to be replaced.
-/

namespace SearchExpr.Value

def isPhrase : Value → Bool
  | str s => Text.isPhrase s
  | _ => false

/-- How many parts a value has, if it is made of parts. -/
def size? : Value → Option Nat
  | str s => some s.length
  | bytes bs | byteArray bs => some bs.length
  | list xs | tuple xs | set xs | frozenSet xs => some xs.length
  | dict entries => some entries.length
  | _ => none

def replaceBraces (v : Value) : Except Failure Value :=
  match v, v.size? with
  | str s, _ => .ok (str (Text.replaceBraces s))
  | _, none => .error .wrongType
  | v, some n =>
    if n < 2 then .ok v else if v.octets?.isSome then .error .wrongType else .error .missingPart

def quotePhrase (v : Value) : Except Failure String :=
  match v with
  | str s => .ok (Text.quotePhrase s)
  | v => if v.octets?.isSome || v.isDate then .error .wrongType else .error .missingPart

end SearchExpr.Value
