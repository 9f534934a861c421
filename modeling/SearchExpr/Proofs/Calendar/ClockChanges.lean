import Mathlib.Data.List.Chain
import SearchExpr.Proofs.Calendar.Instants
import SearchExpr.Proofs.Calendar.Offsets

/-! # Around clock changes

When a clock is set, some of the times that it can show are shown twice or never. As long as these
are over before the clock is set again, what it shows at an instant, with the mark of a repeated
time, leads back to the offset in force, and so to the instant.
-/

namespace SearchExpr

namespace ClockChange

variable {fold : Bool} {offset : Int} {c : ClockChange}

/-- The time on the clock from which on a change counts as made. -/
def seenAt (fold : Bool) (offset : Int) (c : ClockChange) : Int :=
  c.instant + if fold then min offset c.offset else max offset c.offset

theorem seenAt_true : c.seenAt true offset = c.instant + min offset c.offset :=
  rfl

theorem seenAt_false : c.seenAt false offset = c.instant + max offset c.offset :=
  rfl
theorem le_seenAt : c.instant + min offset c.offset ≤ c.seenAt fold offset := by
  rw [seenAt]
  split <;> omega

theorem seenAt_le : c.seenAt fold offset ≤ c.instant + max offset c.offset := by
  rw [seenAt]
  split <;> omega

end ClockChange

namespace Zone

variable {z : Zone} {instant before offset lo hi wall found : Int} {fold : Bool} {p c : ClockChange}
  {cs : List ClockChange} {w : WallTime}

/-! ## From the instant to the clock and back -/

theorem offsetFrom_cons :
    offsetFrom wall fold offset (c :: cs) =
      if c.seenAt fold offset ≤ wall then offsetFrom wall fold c.offset cs else offset :=
  rfl

theorem readingFrom_cons {repeatsEnd : Int} :
    readingFrom instant offset repeatsEnd (c :: cs) =
      if c.instant ≤ instant then
        readingFrom instant c.offset (c.instant + (offset - c.offset)) cs
      else (offset, instant < repeatsEnd) :=
  rfl

/-- While a change is the last one, its clock shows a time at which the change has been seen. -/
theorem seenAt_le_of_passed (hpassed : p.instant ≤ instant) :
    p.seenAt (instant < p.instant + (before - p.offset)) before ≤ instant + p.offset := by
  unfold ClockChange.seenAt
  split
  case isTrue h =>
    rw [decide_eq_true_eq] at h
    omega
  case isFalse h =>
    rw [decide_eq_true_eq] at h
    omega

/-- The reading after a change and the offset that is looked up for it agree, and the reading is one
at which the change has been seen. -/
theorem offsetFrom_readingFrom (hspaced : SpacedFrom before (p :: cs))
    (hpassed : p.instant ≤ instant) :
    let r := readingFrom instant p.offset (p.instant + (before - p.offset)) cs
    p.seenAt r.2 before ≤ instant + r.1 ∧ offsetFrom (instant + r.1) r.2 p.offset cs = r.1 := by
  induction cs generalizing p before with
  | nil => exact ⟨seenAt_le_of_passed hpassed, rfl⟩
  | cons c cs ih =>
    obtain ⟨hnext, hrest⟩ := hspaced
    have hapart := hnext c rfl
    rw [readingFrom_cons]
    split
    case isTrue hc =>
      obtain ⟨hseen, hoffset⟩ := ih hrest hc
      refine ⟨?_, ?_⟩
      · exact Int.le_trans ClockChange.seenAt_le
          (Int.le_trans hapart (Int.le_trans ClockChange.le_seenAt hseen))
      · rw [offsetFrom_cons, if_pos hseen, hoffset]
    case isFalse hc =>
      have hseen : p.seenAt (instant < p.instant + (before - p.offset)) before ≤
          instant + p.offset := seenAt_le_of_passed hpassed
      refine ⟨hseen, ?_⟩
      -- The next change is still ahead on the clock, whichever of two equal readings is shown.
      rw [offsetFrom_cons, if_neg]
      simp only [ClockChange.seenAt]
      split
      case isTrue h =>
        rw [decide_eq_true_eq] at h
        omega
      case isFalse => omega

theorem offsetFrom_reading (hspaced : SpacedFrom z.initialOffset z.changes) (instant : Int) :
    offsetFrom (instant + (z.reading instant).1) (z.reading instant).2 z.initialOffset z.changes =
      (z.reading instant).1 := by
  obtain ⟨key, initial, changes⟩ := z
  cases changes with
  | nil => rfl
  | cons c cs =>
    rw [reading, readingFrom_cons]
    split
    case isTrue hc =>
      obtain ⟨hseen, hoffset⟩ := offsetFrom_readingFrom hspaced hc
      rw [offsetFrom_cons, if_pos hseen, hoffset]
    case isFalse hc =>
      rw [offsetFrom_cons, if_neg]
      simp only [ClockChange.seenAt, Int.lt_irrefl, decide_false, Bool.false_eq_true, if_false]
      omega

/-- A regular zone shows an instant as a time that denotes it again. -/
theorem IsRegular.exists_ofInstant? (hz : z.IsRegular) (micro : Fin 1000000)
    (hshown : InCalendar (instant + (z.reading instant).1)) :
    ∃ w, z.ofInstant? instant micro = some (z.ofWall w) ∧ w.seconds - z.offsetOf w = instant := by
  obtain ⟨w, hw⟩ := (WallTime.exists_ofSeconds? _ micro (z.reading instant).2).mpr hshown
  obtain ⟨hseconds, hfold⟩ := WallTime.of_ofSeconds? hw
  have hoffset : z.offsetOf w = (z.reading instant).1 := by
    rw [offsetOf, hseconds, hfold, offsetFrom_reading hz.spaced]
  refine ⟨w, congrArg (Option.map z.ofWall) hw, ?_⟩
  rw [hoffset, hseconds, Int.add_sub_cancel]

/-! ## From the clock to the instant and back -/

/-- The clocks are put ahead over a reading. With the mark of a repeated time it is taken with the
offset after the change, and without it with the one before. -/
def Skips (z : Zone) (w : WallTime) : Prop :=
  z.offsetOf { w with fold := false } < z.offsetOf { w with fold := true }

theorem offsetFrom_of_head (h : ∀ d ∈ cs.head?, wall < d.instant + min offset d.offset) :
    offsetFrom wall fold offset cs = offset := by
  cases cs with
  | nil => rfl
  | cons d cs =>
    have hd : wall < d.seenAt fold offset := Int.lt_of_lt_of_le (h d rfl) ClockChange.le_seenAt
    rw [offsetFrom_cons, if_neg (Int.not_le.mpr hd)]

theorem readingFrom_of_head {repeatsEnd : Int} (h : ∀ d ∈ cs.head?, instant < d.instant) :
    (readingFrom instant offset repeatsEnd cs).1 = offset := by
  cases cs with
  | nil => rfl
  | cons d cs => rw [readingFrom_cons, if_neg (Int.not_le.mpr (h d rfl))]

/-- If a reading around a change is not skipped, then the change is past at its instant just when
it has been seen. -/
theorem passed_of_shown (hwall : wall < c.seenAt false offset)
    (hshown : c.seenAt true offset ≤ wall → c.offset ≤ offset) :
    (c.seenAt fold offset ≤ wall → c.instant ≤ wall - c.offset) ∧
      (wall < c.seenAt fold offset → wall - offset < c.instant) := by
  rw [ClockChange.seenAt_true] at hshown
  rw [ClockChange.seenAt_false] at hwall
  cases fold with
  | false => rw [ClockChange.seenAt_false]; omega
  | true => rw [ClockChange.seenAt_true]; omega

/-- A reading that is not skipped is shown with the offset that is looked up for it, and what was past
on the clock before the first change is past at its instant. -/
theorem readingFrom_offsetFrom {repeatsEnd : Int} (hspaced : SpacedFrom offset cs)
    (hshown : offsetFrom wall true offset cs ≤ offsetFrom wall false offset cs)
    (hfound : offsetFrom wall fold offset cs = found) :
    (readingFrom (wall - found) offset repeatsEnd cs).1 = found ∧
      ∀ past, (∀ d ∈ cs.head?, past ≤ d.instant) → past + offset ≤ wall → past ≤ wall - found := by
  induction cs generalizing offset repeatsEnd with
  | nil =>
    obtain rfl : offset = found := hfound
    exact ⟨rfl, fun past _ hpast => Int.le_sub_right_of_add_le hpast⟩
  | cons c cs ih =>
    obtain ⟨hnext, hrest⟩ := hspaced
    rw [readingFrom_cons]
    rw [offsetFrom_cons] at hfound
    rw [offsetFrom_cons, offsetFrom_cons] at hshown
    -- Either the change has been seen with both marks, or no later one has been seen.
    rcases Int.lt_or_le wall (c.seenAt false offset) with hwall | hwall
    · have hrested (fold : Bool) : offsetFrom wall fold c.offset cs = c.offset :=
        offsetFrom_of_head fun d hd => Int.lt_of_lt_of_le hwall (hnext d hd)
      rw [hrested] at hfound
      rw [hrested, hrested, if_neg (Int.not_le.mpr hwall)] at hshown
      obtain ⟨hpassed, hahead⟩ : (c.seenAt fold offset ≤ wall → _) ∧ _ :=
        passed_of_shown hwall fun hseen => by rwa [if_pos hseen] at hshown
      split at hfound
      case isTrue hseen =>
        subst hfound
        rw [if_pos (hpassed hseen)]
        refine ⟨readingFrom_of_head fun d hd => ?_, fun past hle _ => ?_⟩
        · have hapart := Int.lt_of_lt_of_le hwall (hnext d hd)
          omega
        · exact Int.le_trans (hle c rfl) (hpassed hseen)
      case isFalse hseen =>
        subst hfound
        rw [if_neg (Int.not_le.mpr (hahead (Int.not_le.mp hseen)))]
        exact ⟨rfl, fun past _ hle => Int.le_sub_right_of_add_le hle⟩
    · have hpassed (fold : Bool) : c.seenAt fold offset ≤ wall :=
        Int.le_trans ClockChange.seenAt_le hwall
      rw [if_pos (hpassed fold)] at hfound
      rw [if_pos (hpassed true), if_pos (hpassed false)] at hshown
      obtain ⟨hreading, hpast⟩ := ih hrest hshown hfound
      have hcovers : c.instant ≤ wall - found := by
        rw [ClockChange.seenAt_false] at hwall
        refine hpast c.instant (fun d hd => ?_) (by omega)
        have hapart := hnext d hd
        omega
      rw [if_pos hcovers]
      exact ⟨hreading, fun past hle _ => Int.le_trans (hle c rfl) hcovers⟩

/-- The offset in force at the instant of a reading that is not skipped is the one that is looked up
for the reading. -/
theorem IsRegular.reading_of_shown (hz : z.IsRegular) (hw : ¬ z.Skips w) :
    (z.reading (w.seconds - z.offsetOf w)).1 = z.offsetOf w :=
  (readingFrom_offsetFrom hz.spaced (Int.not_lt.mp hw) rfl).1

/-- A reading that is not skipped is shown again at its instant. -/
theorem IsRegular.ofInstant?_of_shown (hz : z.IsRegular) (hw : ¬ z.Skips w) (micro : Fin 1000000) :
    ∃ again, z.ofInstant? (w.seconds - z.offsetOf w) micro =
        some (z.ofWall { w with micro, fold := again }) ∧
      z.offsetOf { w with micro, fold := again } = z.offsetOf w := by
  have hreading := hz.reading_of_shown hw
  have hoffset := offsetFrom_reading hz.spaced (w.seconds - z.offsetOf w)
  rw [hreading, Int.sub_add_cancel] at hoffset
  refine ⟨(z.reading (w.seconds - z.offsetOf w)).2, ?_, hoffset⟩
  rw [ofInstant?]
  dsimp only
  rw [hreading, Int.sub_add_cancel, WallTime.ofSeconds?_seconds, Option.map_some]

/-! ## The ends of the calendar -/

theorem readingFrom_within {repeatsEnd : Int} (hoffset : lo ≤ offset ∧ offset ≤ hi)
    (hcs : ∀ c ∈ cs, lo ≤ c.offset ∧ c.offset ≤ hi) :
    lo ≤ (readingFrom instant offset repeatsEnd cs).1 ∧
      (readingFrom instant offset repeatsEnd cs).1 ≤ hi := by
  induction cs generalizing offset repeatsEnd with
  | nil => exact hoffset
  | cons c cs ih =>
    rw [List.forall_mem_cons] at hcs
    rw [readingFrom_cons]
    split
    · exact ih hcs.1 hcs.2
    · exact hoffset

/-- Only instants of the first and the last day of the calendar may be out of it on the clocks of
a zone. -/
theorem OffsetsWithin.shows (hz : z.OffsetsWithin (-86399) 86399)
    (hlow : -62135510400 ≤ instant) (hhigh : instant < 253402214400) : z.Shows instant := by
  have hoffset : -86399 ≤ (z.reading instant).1 ∧ (z.reading instant).1 ≤ 86399 :=
    readingFrom_within hz.1 hz.2
  simp only [Shows, InCalendar]
  omega

/-! ## Changes far from one another -/

/-- Every change is at least some seconds before the next one. -/
def GapsAtLeast (gap : Int) (cs : List ClockChange) : Prop :=
  cs.IsChain fun c d => c.instant + gap ≤ d.instant

instance (gap : Int) (cs : List ClockChange) : Decidable (GapsAtLeast gap cs) :=
  inferInstanceAs (Decidable (List.IsChain _ _))

/-- Changes that are as far from one another as the offsets are do not interfere. -/
theorem spacedFrom_of_gapsAtLeast (hoffset : lo ≤ offset ∧ offset ≤ hi)
    (hcs : ∀ c ∈ cs, lo ≤ c.offset ∧ c.offset ≤ hi) (hgaps : GapsAtLeast (hi - lo) cs) :
    SpacedFrom offset cs := by
  induction cs generalizing offset with
  | nil => trivial
  | cons c cs ih =>
    rw [List.forall_mem_cons] at hcs
    obtain ⟨hnext, hgaps⟩ := List.isChain_cons.mp hgaps
    refine ⟨fun d hd => ?_, ih hcs.1 hcs.2 hgaps⟩
    have hd' := hcs.2 d (List.mem_of_mem_head? hd)
    have hgap := hnext d hd
    omega

theorem OffsetsWithin.isRegular (h : z.OffsetsWithin lo hi) (hlo : -86399 ≤ lo) (hhi : hi ≤ 86399)
    (hgaps : GapsAtLeast (hi - lo) z.changes) : z.IsRegular :=
  ⟨h.mono hlo hhi, spacedFrom_of_gapsAtLeast h.1 h.2 hgaps⟩

end Zone

end SearchExpr
