import SearchExpr.Proofs.Calendar.IsoReading
import SearchExpr.Proofs.Calendar.YearlyRules
import SearchExpr.Proofs.Outcome
import SearchExpr.Proofs.Value.KeySets
import SearchExpr.Value.Zoned

/-! # Dates as they are written

The text of a date with a time and an offset denotes its instant, to the second, also where clocks
are set. So dates at one instant have one text, but for those that carry the zone itself at a time
that its clocks skip: they are written as they are. So is a date whose offset is left out, and a day
as its midnight.
-/

namespace SearchExpr

/-! ## Texts -/

/-- The text denotes an instant, in microseconds since 1970, to whoever reads it. -/
def Denotes (text : String) (instant : Int) : Prop :=
  ∀ fold, ∃ t, DateTime.ofIso? text fold = some t ∧ t.instant? = some instant

/-- The text tells what a clock shows, in whole seconds, and how far the clock is ahead of UTC. -/
def Tells (text : String) (w : WallTime) (offset : Int) : Prop :=
  ∀ fold, DateTime.ofIso? text fold =
    some ⟨⟨w.date, w.second, ⟨0, by decide⟩, fold⟩, .fixed (offset * 1000000)⟩

variable {text : String} {w : WallTime} {offset i : Int} {t u : DateTime} {d : Date} {z : Zone}
  {key : ZoneKey} {zoned : ZonedTime}

theorem Tells.denotes (h : Tells text w offset) :
    Denotes text ((w.seconds - offset) * 1000000) := by
  intro fold
  refine ⟨_, h fold, DateTime.instant?_eq_some.mpr ⟨offset * 1000000, rfl, ?_⟩⟩
  simp only [WallTime.seconds]
  omega

namespace Zone

theorem IsRegular.tells_ofWall (hz : z.IsRegular) (w : WallTime) :
    Tells (z.ofWall w).isoText w (z.offsetOf w) := by
  have hoffset := hz.offsets.offsetOf w
  intro fold
  exact ofIso?_isoText (z.ofWall w) (by change (z.offsetOf w).natAbs < _; omega) fold

theorem isoText_eq_ok (hkey : ofKey key = .ok z) :
    (Value.dateTime t).isoText key = .ok text ↔
      ∃ zoned, z.ofDateTime? t = some zoned ∧ zoned.isoText = text := by
  rw [Value.isoText, Value.toZoned, hkey]
  dsimp only [bind, Except.bind]
  cases z.ofDateTime? t <;> simp [pure, Except.pure, throw, throwThe, MonadExceptOf.throw]

theorem isoText_of_owns (hkey : ofKey key = .ok z) (h : z.owns t.clock = true) :
    (Value.dateTime t).isoText key = .ok (z.ofWall t.toWallTime).isoText :=
  (isoText_eq_ok hkey).mpr ⟨_, ofDateTime?_of_owns h, rfl⟩

/-! ## Instants that are written -/

/-- The instant of a time with the clock of a zone is the one at which the zone shows it. -/
theorem instant_of_owns (h : z.owns t.clock = true) (ht : t.instant? = some i) :
    i / 1000000 = t.seconds - z.offsetOf t.toWallTime ∧ i % 1000000 = t.micro := by
  obtain ⟨offset, hoffset, rfl⟩ := DateTime.instant?_eq_some.mp ht
  cases hclock : t.clock with
  | unknown => simp [DateTime.offset?, hclock, Clock.offset?] at hoffset
  | fixed fixed => simp [hclock, owns] at h
  | zone own =>
    obtain rfl : own.toZone = z := by simpa [hclock, owns] using h
    simp only [DateTime.offset?, hclock, Clock.offset?, Option.some.injEq] at hoffset
    omega

theorem instant?_zone (own : RegularZone) (h : own.offsetOf w = offset) :
    DateTime.instant? ⟨w, .zone own⟩ = some ((w.seconds - offset) * 1000000 + w.micro) := by
  subst h
  refine DateTime.instant?_eq_some.mpr ⟨_, rfl, ?_⟩
  dsimp only
  omega

/-- An instant that the zone can show is written, and the text denotes it. -/
theorem IsRegular.exists_isoText (hz : z.IsRegular) (hkey : ofKey key = .ok z)
    (ht : t.instant? = some i) (hshown : z.owns t.clock = true ∨ z.Shows (i / 1000000)) :
    ∃ text, (Value.dateTime t).isoText key = .ok text ∧ Denotes text (i / 1000000 * 1000000) := by
  suffices hwritten : ∃ w, z.ofDateTime? t = some (z.ofWall w) ∧
      i / 1000000 = w.seconds - z.offsetOf w by
    obtain ⟨w, hw, hinstant⟩ := hwritten
    refine ⟨_, (isoText_eq_ok hkey).mpr ⟨_, hw, rfl⟩, ?_⟩
    rw [hinstant]
    exact (hz.tells_ofWall w).denotes
  cases howns : z.owns t.clock with
  | true => exact ⟨t.toWallTime, ofDateTime?_of_owns howns, (instant_of_owns howns ht).1⟩
  | false =>
    have hshown := hshown.resolve_left (by simp [howns])
    obtain ⟨w, hw, hinstant⟩ := hz.exists_ofInstant? (microOf i) hshown.2
    exact ⟨w, (ofDateTime?_eq_ofInstant? howns ht hshown.1).trans hw, hinstant.symm⟩

/-- A time carries the zone itself, whose clocks skip it. -/
def SkipsOwn (z : Zone) (t : DateTime) : Prop :=
  z.owns t.clock = true ∧ z.Skips t.toWallTime

/-- What is written for a time is what the clocks of the zone show at its instant, unless it is a
skipped time of the zone. -/
theorem IsRegular.exists_ofInstant?_of_written (hz : z.IsRegular) (ht : t.instant? = some i)
    (hskips : ¬ z.SkipsOwn t) (hzoned : z.ofDateTime? t = some zoned) :
    ∃ shown, z.ofInstant? (i / 1000000) (microOf i) = some shown ∧
      shown.isoText = zoned.isoText := by
  cases howns : z.owns t.clock with
  | true =>
    rw [ofDateTime?_of_owns howns, Option.some.injEq] at hzoned
    subst hzoned
    have hnot : ¬ z.Skips t.toWallTime := fun h => hskips ⟨howns, h⟩
    obtain ⟨again, hagain, hoffset⟩ := hz.ofInstant?_of_shown hnot (microOf i)
    rw [← (instant_of_owns howns ht).1] at hagain
    refine ⟨_, hagain, ?_⟩
    exact congrArg (fun offset => ZonedTime.isoText { t.toWallTime with offset }) hoffset
  | false =>
    rw [ofDateTime?_of_instant? howns ht, Option.bind_eq_some_iff] at hzoned
    obtain ⟨_, -, hzoned⟩ := hzoned
    exact ⟨zoned, hzoned, rfl⟩

/-- Two times at one instant are written alike, unless one is a skipped time of the zone. -/
theorem IsRegular.isoText_unique (hz : z.IsRegular) (hkey : ofKey key = .ok z)
    (ht : t.instant? = some i) (hu : u.instant? = some i) (hskips : ¬ z.SkipsOwn t)
    (hskips' : ¬ z.SkipsOwn u) {text text' : String}
    (htext : (Value.dateTime t).isoText key = .ok text)
    (htext' : (Value.dateTime u).isoText key = .ok text') : text = text' := by
  obtain ⟨zoned, hzoned, rfl⟩ := (isoText_eq_ok hkey).mp htext
  obtain ⟨zoned', hzoned', rfl⟩ := (isoText_eq_ok hkey).mp htext'
  obtain ⟨shown, hshown, heq⟩ := hz.exists_ofInstant?_of_written ht hskips hzoned
  obtain ⟨shown', hshown', heq'⟩ := hz.exists_ofInstant?_of_written hu hskips' hzoned'
  rw [← heq, ← heq', Option.some.inj (hshown.symm.trans hshown')]

/-! ## Dates with times as one value -/

theorem sameKey_dateTime : (Value.dateTime t).sameKey (.dateTime u) = true ↔ t.same u = true := by
  rw [Value.sameKey_iff, Value.same_dateTime]
  constructor
  · rintro ⟨-, ⟨_, ⟨⟩, hsame⟩, -⟩
    exact hsame
  · exact fun hsame => ⟨rfl, ⟨u, rfl, hsame⟩, rfl⟩

/-- The merges take two times at one instant for one value if one clock shows them alike, or if they
are on different clocks that show them neither twice nor never. -/
theorem sameKey_iff_of_instant? (ht : t.instant? = some i) (hu : u.instant? = some i) :
    (Value.dateTime t).sameKey (.dateTime u) = true ↔
      if t.clock = u.clock then t.ShowsAlike u.toWallTime
      else t.isDoubtful = false ∧ u.isDoubtful = false := by
  rw [sameKey_dateTime]
  split
  case isTrue hclock => exact DateTime.same_of_clock_eq hclock
  case isFalse hclock => simp [DateTime.same_of_clock_ne hclock, ht, hu]

theorem not_skipsOwn (ht : t.instant? = some i) (hsure : t.isDoubtful = false) :
    ¬ z.SkipsOwn t := by
  rintro ⟨howns, hskips⟩
  cases hclock : t.clock with
  | unknown => simp [DateTime.instant?, DateTime.offset?, hclock, Clock.offset?] at ht
  | fixed offset => simp [hclock, owns] at howns
  | zone own =>
    obtain rfl : own.toZone = z := by simpa [hclock, owns] using howns
    exact DateTime.not_skips_of_isDoubtful hclock hsure hskips

/-- Times on different clocks that are one value to the merges are written alike. -/
theorem IsRegular.isoText_unique_of_sameKey (hz : z.IsRegular) (hkey : ofKey key = .ok z)
    (hclock : t.clock ≠ u.clock) (hsame : (Value.dateTime t).sameKey (.dateTime u) = true)
    {text text' : String} (htext : (Value.dateTime t).isoText key = .ok text)
    (htext' : (Value.dateTime u).isoText key = .ok text') : text = text' := by
  obtain ⟨i, ht, hu, hsure, hsure'⟩ :=
    (DateTime.same_of_clock_ne hclock).mp (sameKey_dateTime.mp hsame)
  exact hz.isoText_unique hkey ht hu (not_skipsOwn ht hsure) (not_skipsOwn hu hsure') htext htext'

/-! ## Writing -/

/-- Dates are written in a zone as they should be. -/
structure IsWrittenBy (z : Zone) (write : Value → Except Failure String) : Prop where
  /-- An instant that can be shown is kept, without the fraction of its second. -/
  aware : ∀ t i, t.instant? = some i → z.owns t.clock = true ∨ z.Shows (i / 1000000) →
    ∃ text, write (.dateTime t) = .ok text ∧ Denotes text (i / 1000000 * 1000000)
  /-- Two dates at one instant are written alike, unless one is a skipped time of the zone itself. -/
  alike : ∀ t u i, t.instant? = some i → u.instant? = some i → ¬ z.SkipsOwn t → ¬ z.SkipsOwn u →
    ∀ text text', write (.dateTime t) = .ok text → write (.dateTime u) = .ok text' → text = text'
  /-- Two dates on different clocks that are one value to the merges are written alike. -/
  merged : ∀ t u, t.clock ≠ u.clock → (Value.dateTime t).sameKey (.dateTime u) = true →
    ∀ text text', write (.dateTime t) = .ok text → write (.dateTime u) = .ok text' → text = text'
  /-- A date without a clock, or with that of the zone itself, is written as it is. -/
  shown : ∀ t, z.owns t.clock = true → ∃ text, write (.dateTime t) = .ok text ∧
    Tells text t.toWallTime (z.offsetOf t.toWallTime)
  /-- A day is written as its midnight. -/
  day : ∀ d, ∃ text, write (.date d) = .ok text ∧
    Tells text (.midnight d) (z.offsetOf (.midnight d))

/-- In every zone whose clocks are set at times apart, dates are written so that their instants are
kept. Which of two dates at one instant are one value to the merges does not depend on the zone. -/
theorem isWrittenBy_isoText (hz : z.IsRegular) (hkey : ofKey key = .ok z) :
    (z.IsWrittenBy fun v => v.isoText key) ∧
      ∀ t u i, t.instant? = some i → u.instant? = some i →
        ((Value.dateTime t).sameKey (.dateTime u) = true ↔
          if t.clock = u.clock then t.ShowsAlike u.toWallTime
          else t.isDoubtful = false ∧ u.isDoubtful = false) where
  left.aware _ _ ht hshown := hz.exists_isoText hkey ht hshown
  left.alike _ _ _ ht hu hskips hskips' _ _ := hz.isoText_unique hkey ht hu hskips hskips'
  left.merged _ _ hclock hsame _ _ := hz.isoText_unique_of_sameKey hkey hclock hsame
  left.shown t howns := ⟨_, isoText_of_owns hkey howns, hz.tells_ofWall t.toWallTime⟩
  left.day d := by
    have htext : (Value.date d).isoText key = .ok (z.startOfDay d).isoText := by
      rw [Value.isoText, Value.toZoned, hkey]
      rfl
    exact ⟨_, htext, hz.tells_ofWall (.midnight d)⟩
  right _ _ _ ht hu := sameKey_iff_of_instant? ht hu

section

set_option maxRecDepth 200000

theorem offsetOf_europeBerlin_repeated :
    europeBerlin.offsetOf ⟨⟨728559⟩, 9000, 0, false⟩ = 7200 ∧
      europeBerlin.offsetOf ⟨⟨728559⟩, 9000, 0, true⟩ = 3600 :=
  ⟨offsetOf_of_table rfl (by decide +kernel), offsetOf_of_table rfl (by decide +kernel)⟩

end

/-- In Berlin half past two was shown twice when summer time ended in 1995. The second time, with
the zone itself or as it was in UTC, is written alike, though it counts as two values. -/
theorem isWrittenBy_isoText_of_repeatedHour :
    let utc : DateTime := ⟨⟨⟨728559⟩, 5400, 0, false⟩, .fixed 0⟩
    let again : DateTime :=
      ⟨⟨⟨728559⟩, 9000, 0, true⟩, .zone ⟨europeBerlin, isRegular_europeBerlin⟩⟩
    europeBerlin.IsRegular ∧ ofKey (.tabulated "Europe/Berlin") = .ok europeBerlin ∧
      utc.instant? = some 811906200000000 ∧ again.instant? = some 811906200000000 ∧
      (Value.dateTime utc).sameKey (.dateTime again) = false ∧
      ∃ text, (Value.dateTime utc).isoText (.tabulated "Europe/Berlin") = .ok text ∧
        (Value.dateTime again).isoText (.tabulated "Europe/Berlin") = .ok text ∧
        Denotes text 811906200000000 := by
  intro utc again
  have hz : europeBerlin.IsRegular := isRegular_europeBerlin
  have hkey : ofKey (.tabulated "Europe/Berlin") = .ok europeBerlin := rfl
  obtain ⟨hfirst, hsecond⟩ := offsetOf_europeBerlin_repeated
  have hutc : utc.instant? = some 811906200000000 := by decide
  have hagain : again.instant? = some 811906200000000 :=
    (instant?_zone ⟨_, isRegular_europeBerlin⟩ hsecond).trans (by decide)
  have hdoubtful : again.isDoubtful = true := by
    simp [again, DateTime.isDoubtful, Clock.offset?, hfirst, hsecond]
  obtain ⟨hwritten, hvalues⟩ := isWrittenBy_isoText hz hkey
  have htwo : (Value.dateTime utc).sameKey (.dateTime again) = false := by
    rw [← Bool.not_eq_true, hvalues utc again _ hutc hagain, if_neg (by simp [utc, again]), hdoubtful]
    simp
  have hskips : ¬ europeBerlin.SkipsOwn utc := fun h => Bool.noConfusion h.1
  have hskips' : ¬ europeBerlin.SkipsOwn again := by
    rintro ⟨-, h⟩
    have hlt : europeBerlin.offsetOf ⟨⟨728559⟩, 9000, 0, false⟩ <
      europeBerlin.offsetOf ⟨⟨728559⟩, 9000, 0, true⟩ := h
    rw [hfirst, hsecond] at hlt
    exact absurd hlt (by decide)
  obtain ⟨text, htext, hdenotes⟩ :=
    hwritten.aware utc _ hutc (Or.inr (hz.offsets.shows (by decide) (by decide)))
  obtain ⟨text', htext', -⟩ := hwritten.shown again (by simp [again, owns])
  obtain rfl := hwritten.alike utc again _ hutc hagain hskips hskips' text text' htext htext'
  exact ⟨hz, hkey, hutc, hagain, htwo, text, htext, htext', hdenotes⟩

section

set_option maxRecDepth 200000

theorem offsetOf_americaSaoPaulo_skipped :
    americaSaoPaulo.offsetOf (.midnight ⟨737001⟩) = -10800 ∧
      americaSaoPaulo.reading 1541300400 = (-7200, false) ∧
      americaSaoPaulo.offsetOf ⟨⟨737001⟩, 3600, 0, false⟩ = -7200 := by
  rw [americaSaoPaulo, changesOf_eq rfl]
  decide +kernel

end

/-- In Sao Paulo summer time began at midnight in 2018, which no clock showed. With the zone itself
this midnight is written as it is, but with its offset as the time that was shown instead. -/
theorem isoText_of_skippedMidnight :
    let own : DateTime :=
      ⟨.midnight ⟨737001⟩, .zone ⟨americaSaoPaulo, isRegular_americaSaoPaulo⟩⟩
    let fixed : DateTime := ⟨.midnight ⟨737001⟩, .fixed (-10800000000)⟩
    ofKey (.tabulated "America/Sao_Paulo") = .ok americaSaoPaulo ∧
      own.instant? = some 1541300400000000 ∧ fixed.instant? = some 1541300400000000 ∧
      (Value.dateTime own).isoText (.tabulated "America/Sao_Paulo") =
        .ok "2018-11-04T00:00:00-03:00" ∧
      (Value.dateTime fixed).isoText (.tabulated "America/Sao_Paulo") =
        .ok "2018-11-04T01:00:00-02:00" ∧
      "2018-11-04T00:00:00-03:00" ≠ "2018-11-04T01:00:00-02:00" := by
  intro own fixed
  have hkey : ofKey (.tabulated "America/Sao_Paulo") = .ok americaSaoPaulo := rfl
  obtain ⟨hbefore, hreading, hafter⟩ := offsetOf_americaSaoPaulo_skipped
  have hown : own.instant? = some 1541300400000000 :=
    (instant?_zone ⟨_, isRegular_americaSaoPaulo⟩ hbefore).trans (by decide)
  have hfixed : fixed.instant? = some 1541300400000000 := by decide
  have howns : americaSaoPaulo.owns own.clock = true := by simp [own, owns]
  have hshown : americaSaoPaulo.ofDateTime? fixed =
      some (americaSaoPaulo.ofWall ⟨⟨737001⟩, 3600, 0, false⟩) := by
    have hwall : WallTime.ofSeconds? (1541300400 + -7200) 0 false =
        some ⟨⟨737001⟩, 3600, 0, false⟩ := by decide
    have hinstant : americaSaoPaulo.ofInstant? 1541300400 0 =
        some (americaSaoPaulo.ofWall ⟨⟨737001⟩, 3600, 0, false⟩) := by
      rw [ofInstant?, hreading]
      exact congrArg (Option.map americaSaoPaulo.ofWall) hwall
    exact (ofDateTime?_eq_ofInstant? rfl hfixed ⟨by decide, by decide⟩).trans hinstant
  refine ⟨hkey, hown, hfixed, ?_, (isoText_eq_ok hkey).mpr ⟨_, hshown, ?_⟩, by decide⟩
  · have htext : ZonedTime.isoText ⟨.midnight ⟨737001⟩, -10800⟩ = "2018-11-04T00:00:00-03:00" :=
      rfl
    rw [isoText_of_owns hkey howns, ← htext, ← hbefore]
    rfl
  · have htext : ZonedTime.isoText ⟨⟨⟨737001⟩, 3600, 0, false⟩, -7200⟩ =
        "2018-11-04T01:00:00-02:00" := rfl
    rw [← htext, ← hafter]
    rfl

end Zone

end SearchExpr
