import SearchExpr.Proofs.Calendar.Days
import SearchExpr.Proofs.Calendar.Offsets

/-! # The days of instants

Where the midnights of successive days follow one another, the days of a zone part its instants. The
order of two days is the order of an instant of one of them and the beginning of the other.
-/

namespace SearchExpr

/-- The instant in microseconds since 1970, without the fraction of the second. -/
def ZonedTime.instant (t : ZonedTime) : Int :=
  (t.seconds - t.offset) * 1000000

namespace Zone

variable {z : Zone} {t : Int} {d next today : Date}

/-- The instant at which a day begins. -/
def dayStart (z : Zone) (d : Date) : Int :=
  (z.startOfDay d).instant

/-- Every day begins before the day after it does. -/
def MidnightsIncrease (z : Zone) : Prop :=
  ∀ d next, d.next? = some next → z.dayStart d < z.dayStart next

/-- A day that has a day after it and on which an instant is. -/
def IsDayOf (z : Zone) (t : Int) (d : Date) : Prop :=
  ∃ next, d.next? = some next ∧ z.dayStart d ≤ t ∧ t < z.dayStart next

/-! ## The order of days -/

theorem exists_previous (h : 0 < (d.ordinal : Nat)) : ∃ before : Date, before.next? = some d := by
  have hne : d.previous? ≠ none := by
    rw [ne_eq, Date.previous?_eq_none, Date.eq_iff_ordinal]
    exact Nat.ne_of_gt h
  obtain ⟨before, hbefore⟩ := Option.ne_none_iff_exists'.mp hne
  exact ⟨before, Date.next?_eq_some.mpr (Date.previous?_eq_some.mp hbefore).symm⟩

theorem MidnightsIncrease.dayStart_lt (h : z.MidnightsIncrease) {a b : Date}
    (hlt : (a.ordinal : Nat) < b.ordinal) : z.dayStart a < z.dayStart b := by
  obtain ⟨k, hk⟩ := Nat.exists_eq_add_of_lt hlt
  induction k generalizing b with
  | zero => exact h a b (Date.next?_eq_some.mpr hk)
  | succ k ih =>
    obtain ⟨before, hbefore⟩ := exists_previous (Nat.lt_of_le_of_lt (Nat.zero_le _) hlt)
    have hordinal := Date.next?_eq_some.mp hbefore
    exact Int.lt_trans (ih (by omega) (by omega)) (h before b hbefore)

theorem MidnightsIncrease.dayStart_le (h : z.MidnightsIncrease) {a b : Date}
    (hle : (a.ordinal : Nat) ≤ b.ordinal) : z.dayStart a ≤ z.dayStart b := by
  rcases Nat.lt_or_eq_of_le hle with hlt | heq
  · exact Int.le_of_lt (h.dayStart_lt hlt)
  · exact Int.le_of_eq (congrArg z.dayStart (Date.eq_iff_ordinal.mpr heq))

/-! ## The day of an instant -/

section

variable (h : z.MidnightsIncrease) (htoday : z.IsDayOf t today)

include h htoday

theorem dayStart_le_iff : z.dayStart d ≤ t ↔ (d.ordinal : Nat) ≤ today.ordinal := by
  obtain ⟨tomorrow, hnext, hstart, hstop⟩ := htoday
  have htomorrow := Date.next?_eq_some.mp hnext
  constructor
  · intro hle
    refine Nat.le_of_not_lt fun hlt => ?_
    have hlate : z.dayStart tomorrow ≤ z.dayStart d := h.dayStart_le (by omega)
    omega
  · exact fun hle => Int.le_trans (h.dayStart_le hle) hstart

theorem lt_dayStart_iff : t < z.dayStart d ↔ (today.ordinal : Nat) < d.ordinal := by
  rw [← Int.not_le, ← Nat.not_le, dayStart_le_iff h htoday]

theorem lt_dayStart_next_iff (hnext : d.next? = some next) :
    t < z.dayStart next ↔ (today.ordinal : Nat) ≤ d.ordinal := by
  rw [lt_dayStart_iff h htoday, Date.next?_eq_some.mp hnext, Nat.lt_succ_iff]

theorem IsDayOf.eq (hd : z.IsDayOf t d) : d = today := by
  obtain ⟨next, hnext, hstart, hstop⟩ := hd
  rw [dayStart_le_iff h htoday] at hstart
  rw [lt_dayStart_next_iff h htoday hnext] at hstop
  exact Date.eq_iff_ordinal.mpr (Nat.le_antisymm hstart hstop)

end

/-! ## Zones whose days follow one another -/

theorem dayStart_eq (z : Zone) (d : Date) :
    z.dayStart d = (d.epochDay * 86400 - z.offsetOf (.midnight d)) * 1000000 := by
  have hseconds : (WallTime.midnight d).seconds = d.epochDay * 86400 := Int.add_zero _
  rw [← hseconds]
  rfl

/-- If offsets are less than a day apart, no clock is set from one midnight past the next. -/
theorem midnightsIncrease_of_offsetsWithin {lo hi : Int} (h : z.OffsetsWithin lo hi)
    (hspread : hi < lo + 86400) : z.MidnightsIncrease := by
  intro d next hnext
  have hordinal := Date.next?_eq_some.mp hnext
  have hd := h.offsetOf (.midnight d)
  have hsucc := h.offsetOf (.midnight next)
  have hepoch : next.epochDay = d.epochDay + 1 := by
    rw [Date.epochDay, Date.epochDay]
    omega
  rw [dayStart_eq, dayStart_eq]
  omega

theorem midnightsIncrease_of_mem_tabulated (h : z ∈ tabulated) (hapia : z ≠ pacificApia) :
    z.MidnightsIncrease := by
  rcases spread_of_mem_tabulated h with rfl | ⟨lo, hi, hwithin, hspread⟩
  · exact absurd rfl hapia
  · exact midnightsIncrease_of_offsetsWithin hwithin hspread

end Zone

end SearchExpr
