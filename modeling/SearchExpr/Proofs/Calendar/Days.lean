import SearchExpr.Calendar.Date

/-! # Neighbouring days

The day after and the day before a day. Only the two ends of the calendar lack one of them.
-/

namespace SearchExpr.Date

variable {d d' : Date} {n : Int}

theorem ofOrdinal?_eq_some : ofOrdinal? n = some d ↔ (d.ordinal : Int) = n := by
  obtain ⟨⟨k, hk⟩⟩ := d
  unfold ofOrdinal?
  split
  case isTrue h =>
    simp only [Option.some.injEq, Date.mk.injEq, Fin.mk.injEq]
    omega
  case isFalse h =>
    simp only [reduceCtorEq, false_iff]
    omega

theorem next?_eq_some : d.next? = some d' ↔ (d'.ordinal : Nat) = d.ordinal + 1 := by
  rw [next?, addDays?, ofOrdinal?_eq_some]
  omega

theorem previous?_eq_some : d.previous? = some d' ↔ (d'.ordinal : Nat) + 1 = d.ordinal := by
  rw [previous?, addDays?, ofOrdinal?_eq_some]
  omega

/-! ## The ends of the calendar -/

/-- 1 January of the year 1. -/
def earliest : Date :=
  ⟨⟨0, Nat.zero_lt_succ 3652058⟩⟩

/-- 31 December of the year 9999. -/
def latest : Date :=
  ⟨Fin.last 3652058⟩

theorem ofOrdinal?_eq_none : ofOrdinal? n = none ↔ n < 0 ∨ 3652059 ≤ n := by
  unfold ofOrdinal?
  split
  case isTrue h =>
    simp only [reduceCtorEq, false_iff]
    omega
  case isFalse h =>
    simp only [true_iff]
    omega

theorem eq_iff_ordinal : d = d' ↔ (d.ordinal : Nat) = d'.ordinal := by
  obtain ⟨k⟩ := d
  obtain ⟨k'⟩ := d'
  rw [Date.mk.injEq, Fin.ext_iff]

theorem next?_eq_none : d.next? = none ↔ d = latest := by
  have hlt : (d.ordinal : Nat) < 3652059 := d.ordinal.isLt
  have hlatest : (latest.ordinal : Nat) = 3652058 := rfl
  rw [next?, addDays?, ofOrdinal?_eq_none, eq_iff_ordinal, hlatest]
  omega

theorem previous?_eq_none : d.previous? = none ↔ d = earliest := by
  have hearliest : (earliest.ordinal : Nat) = 0 := rfl
  have hlt : (d.ordinal : Nat) < 3652059 := d.ordinal.isLt
  rw [previous?, addDays?, ofOrdinal?_eq_none, eq_iff_ordinal, hearliest]
  omega

end SearchExpr.Date
