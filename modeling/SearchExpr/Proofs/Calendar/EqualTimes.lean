import SearchExpr.Proofs.Calendar.ClockChanges

/-! # Equal dates with times

Times on one clock are equal when the clock shows the same, times on different clocks when they are
one instant and none of them is doubtful. Since the clocks of a regular zone show an instant in one
way, both together are an equivalence.
-/

namespace SearchExpr

variable {w w' : WallTime} {t u v : DateTime} {i : Int} {z : Zone}

/-! ## What a clock shows -/

namespace WallTime

/-- Two readings that differ in their marks of a repeated time at most. -/
def ShowsAlike (w w' : WallTime) : Prop :=
  w.date = w'.date ∧ w.second = w'.second ∧ w.micro = w'.micro

theorem ShowsAlike.symm (h : w.ShowsAlike w') : w'.ShowsAlike w :=
  ⟨h.1.symm, h.2.1.symm, h.2.2.symm⟩

theorem ShowsAlike.trans {w'' : WallTime} (h : w.ShowsAlike w') (h' : w'.ShowsAlike w'') :
    w.ShowsAlike w'' :=
  ⟨h.1.trans h'.1, h.2.1.trans h'.2.1, h.2.2.trans h'.2.2⟩

theorem ShowsAlike.with_fold (h : w.ShowsAlike w') (fold : Bool) :
    { w with fold } = { w' with fold } := by
  rw [h.1, h.2.1, h.2.2]

theorem ShowsAlike.seconds (h : w.ShowsAlike w') : w.seconds = w'.seconds := by
  rw [WallTime.seconds, WallTime.seconds, h.1, h.2.1]

theorem showsAlike_of_seconds (h : w.seconds = w'.seconds) (hmicro : w.micro = w'.micro) :
    w.ShowsAlike w' := by
  have hread := ofSeconds?_seconds w w.micro false
  rw [h, hmicro, ofSeconds?_seconds w' w'.micro false] at hread
  obtain ⟨hdate, hsecond, -⟩ := WallTime.mk.inj (Option.some.inj hread)
  exact ⟨hdate.symm, hsecond.symm, hmicro⟩

end WallTime

/-- In a regular zone, two readings that are not skipped and are one instant are alike. -/
theorem Zone.IsRegular.showsAlike (hz : z.IsRegular) (hw : ¬ z.Skips w) (hw' : ¬ z.Skips w')
    (hinstant : w.seconds - z.offsetOf w = w'.seconds - z.offsetOf w')
    (hmicro : w.micro = w'.micro) : w.ShowsAlike w' := by
  have hoffset : z.offsetOf w = z.offsetOf w' := by
    rw [← hz.reading_of_shown hw, ← hz.reading_of_shown hw', hinstant]
  exact WallTime.showsAlike_of_seconds (by omega) hmicro

/-! ## Instants of dates with times -/

namespace DateTime

theorem instant?_eq_some :
    t.instant? = some i ↔
      ∃ offset, t.offset? = some offset ∧ t.seconds * 1000000 + t.micro - offset = i := by
  rw [instant?, Option.map_eq_some_iff]

theorem offset?_with_fold (h : t.isDoubtful = false) (fold : Bool) :
    t.clock.offset? { t.toWallTime with fold } = t.offset? := by
  have hown : t.clock.offset? { t.toWallTime with fold := t.fold } = t.offset? := rfl
  rw [isDoubtful, bne_eq_false_iff_eq] at h
  rw [← hown]
  cases fold <;> cases t.fold <;> first | rfl | exact h | exact h.symm

theorem not_skips_of_isDoubtful {own : RegularZone} (hclock : t.clock = .zone own)
    (h : t.isDoubtful = false) : ¬ own.Skips t.toWallTime := by
  have hoffset := (offset?_with_fold h false).trans (offset?_with_fold h true).symm
  rw [hclock] at hoffset
  simp only [Clock.offset?, Option.some.injEq] at hoffset
  exact Int.not_lt.mpr (by omega)

section

variable (hclock : t.clock = u.clock)

include hclock

theorem isDoubtful_eq_of_showsAlike (h : t.ShowsAlike u.toWallTime) :
    t.isDoubtful = u.isDoubtful := by
  rw [isDoubtful, isDoubtful, hclock, h.with_fold, h.with_fold]

/-- Times that a clock shows alike are one instant if they are not doubtful. -/
theorem instant?_eq_of_showsAlike (h : t.ShowsAlike u.toWallTime) (hsure : t.isDoubtful = false) :
    t.instant? = u.instant? := by
  have hsure' := hsure
  rw [isDoubtful_eq_of_showsAlike hclock h] at hsure'
  have hoffset : t.offset? = u.offset? := by
    rw [← offset?_with_fold hsure false, ← offset?_with_fold hsure' false, hclock, h.with_fold]
  rw [instant?, instant?, hoffset, h.seconds, h.2.2]

/-- Times that are one instant are shown alike by a clock if they are not doubtful. -/
theorem showsAlike_of_instant? (ht : t.instant? = some i) (hu : u.instant? = some i)
    (hsure : t.isDoubtful = false) (hsure' : u.isDoubtful = false) :
    t.ShowsAlike u.toWallTime := by
  obtain ⟨offset, hoffset, rfl⟩ := instant?_eq_some.mp ht
  obtain ⟨offset', hoffset', heq⟩ := instant?_eq_some.mp hu
  cases hown : t.clock with
  | unknown => simp [offset?, hown, Clock.offset?] at hoffset
  | fixed fixed =>
    simp only [offset?, hown, ← hclock, Clock.offset?, Option.some.injEq] at hoffset hoffset'
    exact WallTime.showsAlike_of_seconds (by omega) (Fin.ext (by omega))
  | zone own =>
    have hw := not_skips_of_isDoubtful hown hsure
    have hw' := not_skips_of_isDoubtful (hclock ▸ hown) hsure'
    simp only [offset?, hown, ← hclock, Clock.offset?, Option.some.injEq] at hoffset hoffset'
    exact own.isRegular.showsAlike hw hw' (by omega) (Fin.ext (by omega))

end

/-! ## Equality -/

theorem same_of_clock_eq (h : t.clock = u.clock) :
    t.same u = true ↔ t.ShowsAlike u.toWallTime := by
  simp [same, h, WallTime.ShowsAlike, and_assoc]

theorem same_of_clock_ne (h : t.clock ≠ u.clock) :
    t.same u = true ↔ ∃ i, t.instant? = some i ∧ u.instant? = some i ∧
      t.isDoubtful = false ∧ u.isDoubtful = false := by
  rw [same, if_neg h]
  cases t.instant? with
  | none => simp
  | some i =>
    cases u.instant? with
    | none => simp
    | some j =>
      rw [Bool.and_eq_true, Bool.and_eq_true, beq_iff_eq, Bool.not_eq_true', Bool.not_eq_true',
        and_assoc]
      simp [eq_comm (a := j)]

theorem same_refl (t : DateTime) : t.same t = true :=
  (same_of_clock_eq rfl).mpr ⟨rfl, rfl, rfl⟩

theorem same_symm (h : t.same u = true) : u.same t = true := by
  by_cases hclock : t.clock = u.clock
  · exact (same_of_clock_eq hclock.symm).mpr ((same_of_clock_eq hclock).mp h).symm
  · obtain ⟨i, ht, hu, hsure, hsure'⟩ := (same_of_clock_ne hclock).mp h
    exact (same_of_clock_ne (Ne.symm hclock)).mpr ⟨i, hu, ht, hsure', hsure⟩

/-- A time equal to one on another clock is equal to what its own clock shows alike. -/
theorem same_of_showsAlike (hclock : t.clock = u.clock) (halike : t.ShowsAlike u.toWallTime)
    (hne : u.clock ≠ v.clock) (h : u.same v = true) : t.same v = true := by
  obtain ⟨i, hu, hv, hsure, hsure'⟩ := (same_of_clock_ne hne).mp h
  have hdoubt := isDoubtful_eq_of_showsAlike hclock halike
  refine (same_of_clock_ne (hclock ▸ hne)).mpr ⟨i, ?_, hv, hdoubt.trans hsure, hsure'⟩
  exact (instant?_eq_of_showsAlike hclock halike (hdoubt.trans hsure)).trans hu

theorem same_trans (h : t.same u = true) (h' : u.same v = true) : t.same v = true := by
  by_cases htu : t.clock = u.clock
  · by_cases huv : u.clock = v.clock
    · have halike := (same_of_clock_eq htu).mp h
      exact (same_of_clock_eq (htu.trans huv)).mpr (halike.trans ((same_of_clock_eq huv).mp h'))
    · exact same_of_showsAlike htu ((same_of_clock_eq htu).mp h) huv h'
  · by_cases huv : u.clock = v.clock
    · have halike := ((same_of_clock_eq huv).mp h').symm
      exact same_symm (same_of_showsAlike huv.symm halike (Ne.symm htu) (same_symm h))
    · obtain ⟨i, ht, hu, hsure, -⟩ := (same_of_clock_ne htu).mp h
      obtain ⟨j, hu', hv, -, hsure'⟩ := (same_of_clock_ne huv).mp h'
      obtain rfl : i = j := Option.some.inj (hu.symm.trans hu')
      by_cases htv : t.clock = v.clock
      · exact (same_of_clock_eq htv).mpr (showsAlike_of_instant? htv ht hv hsure hsure')
      · exact (same_of_clock_ne htv).mpr ⟨i, ht, hv, hsure, hsure'⟩

end DateTime

end SearchExpr
