import SearchExpr.Proofs.Calendar.Days
import SearchExpr.Calendar.DateTime

/-! # Instants in the calendar

The seconds that a clock can show within the calendar, and the times that a zone cannot show: those
whose reading in UTC or in the zone is before the first or after the last second.
-/

namespace SearchExpr

/-- Seconds since 1970 began, up to the end of the calendar and back to its beginning. -/
def InCalendar (seconds : Int) : Prop :=
  -62135596800 ≤ seconds ∧ seconds < 253402300800

theorem Date.ofEpochDay?_eq_none {n : Int} :
    Date.ofEpochDay? n = none ↔ n < -719162 ∨ 2932897 ≤ n := by
  rw [ofEpochDay?, ofOrdinal?_eq_none]
  omega

theorem WallTime.ofSeconds?_eq_none (seconds : Int) (micro : Fin 1000000) (fold : Bool) :
    ofSeconds? seconds micro fold = none ↔ ¬ InCalendar seconds := by
  rw [ofSeconds?, Option.map_eq_none_iff, Date.ofEpochDay?_eq_none, InCalendar]
  omega

theorem WallTime.exists_ofSeconds? (seconds : Int) (micro : Fin 1000000) (fold : Bool) :
    (∃ w, ofSeconds? seconds micro fold = some w) ↔ InCalendar seconds := by
  rw [← Option.ne_none_iff_exists', ne_eq, ofSeconds?_eq_none, Classical.not_not]

/-- The reading after a number of seconds is as many seconds after the first one. -/
theorem WallTime.of_ofSeconds? {seconds : Int} {micro : Fin 1000000} {fold : Bool} {w : WallTime}
    (h : ofSeconds? seconds micro fold = some w) : w.seconds = seconds ∧ w.fold = fold := by
  obtain ⟨d, hd, rfl⟩ := Option.map_eq_some_iff.mp h
  rw [Date.ofEpochDay?, Date.ofOrdinal?_eq_some] at hd
  refine ⟨?_, rfl⟩
  simp only [WallTime.seconds, Date.epochDay]
  omega

theorem WallTime.ofSeconds?_seconds (w : WallTime) (micro : Fin 1000000) (fold : Bool) :
    ofSeconds? w.seconds micro fold = some { w with micro, fold } := by
  have hday : w.seconds / 86400 = w.date.epochDay := by
    rw [seconds]
    omega
  have hsecond : w.seconds % 86400 = w.second := by
    rw [seconds]
    omega
  have hdate : Date.ofEpochDay? w.date.epochDay = some w.date := by
    rw [Date.ofEpochDay?, Date.ofOrdinal?_eq_some, Date.epochDay]
    omega
  simp only [ofSeconds?, hday, hsecond, hdate, Option.map_some, Int.toNat_natCast, Fin.eta]

namespace Zone

/-- What the clocks of a zone show at an instant is in the calendar, and so is what they show in
UTC. -/
def Shows (z : Zone) (instant : Int) : Prop :=
  InCalendar instant ∧ InCalendar (instant + (z.reading instant).1)

theorem ofDateTime?_of_owns {z : Zone} {t : DateTime} (h : z.owns t.clock = true) :
    z.ofDateTime? t = some (z.ofWall t.toWallTime) :=
  if_pos h

theorem ofDateTime?_of_instant? {z : Zone} {t : DateTime} {i : Int} (h : z.owns t.clock = false)
    (hi : t.instant? = some i) :
    z.ofDateTime? t =
      (WallTime.ofSeconds? (i / 1000000) (microOf i) false).bind fun _ =>
        z.ofInstant? (i / 1000000) (microOf i) := by
  rw [ofDateTime?, h, hi]
  rfl

theorem ofDateTime?_eq_ofInstant? {z : Zone} {t : DateTime} {i : Int} (h : z.owns t.clock = false)
    (hi : t.instant? = some i) (hutc : InCalendar (i / 1000000)) :
    z.ofDateTime? t = z.ofInstant? (i / 1000000) (microOf i) := by
  obtain ⟨utc, hutc⟩ := (WallTime.exists_ofSeconds? _ (microOf i) false).mpr hutc
  rw [ofDateTime?_of_instant? h hi, hutc, Option.bind_some]

end Zone

end SearchExpr
