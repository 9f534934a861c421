import SearchExpr.Proofs.Calendar.Instants
import SearchExpr.Proofs.Outcome
import SearchExpr.Value.Preparer
import SearchExpr.Value.Zoned

/-! # Values that can be sent

A value is prepared and then written for a time zone. The usual preparers refuse bytes that are no
text, and a date with a time can be written unless its clock leaves the calendar.
-/

namespace SearchExpr

namespace Value

/-- A date with a time that cannot be shown in a zone. -/
def LeavesCalendar (z : Zone) : Value → Prop
  | dateTime t => z.owns t.clock = false ∧ ∃ i, t.instant? = some i ∧ ¬ z.Shows (i / 1000000)
  | _ => False

variable {v w : Value} {z : Zone} {key : ZoneKey} {phrase : Bool} {bs : List UInt8}

/-! ## Writing -/

theorem prepare_of_octets? (h : v.octets? = some bs) :
    v.prepare Preparer.standard false =
      match Text.ofUtf8? bs with
      | some s => .ok (Preparer.stripped s)
      | none => .error (.fault (.rejected "Value is not valid UTF-8" Preparer.strip.name v)) := by
  cases v with
  | bytes own | byteArray own =>
    obtain rfl := Option.some.inj h
    simp only [prepare, Preparer.runAll, Preparer.standard, List.foldlM_cons, Preparer.run,
      Preparer.strip, Bool.false_eq_true, if_false]
    cases Text.ofUtf8? own <;> rfl
  | _ => cases h

end Value

end SearchExpr
