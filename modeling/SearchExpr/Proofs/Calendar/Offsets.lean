import SearchExpr.Calendar.ZoneTable

/-! # Offsets of time zones

The offsets of the zones of the table are less than a day, and those of one zone, except where
a date was left out, are less than a day apart.
-/

namespace SearchExpr.Zone

variable {z : Zone} {key : String} {lo hi initial offset : Int} {cs : List ClockChange}

instance (lo hi : Int) (z : Zone) : Decidable (z.OffsetsWithin lo hi) :=
  inferInstanceAs (Decidable (_ ∧ _))

theorem offsetFrom_within {wall : Int} {fold : Bool} (hoffset : lo ≤ offset ∧ offset ≤ hi)
    (hcs : ∀ c ∈ cs, lo ≤ c.offset ∧ c.offset ≤ hi) :
    lo ≤ offsetFrom wall fold offset cs ∧ offsetFrom wall fold offset cs ≤ hi := by
  induction cs generalizing offset with
  | nil => exact hoffset
  | cons c cs ih =>
    rw [List.forall_mem_cons] at hcs
    unfold offsetFrom
    dsimp only
    generalize c.instant + (if fold = true then min offset c.offset else max offset c.offset) = seen
    split
    · exact ih hcs.1 hcs.2
    · exact hoffset

theorem OffsetsWithin.offsetOf (h : z.OffsetsWithin lo hi) (w : WallTime) :
    lo ≤ z.offsetOf w ∧ z.offsetOf w ≤ hi :=
  offsetFrom_within h.1 h.2

theorem OffsetsWithin.mono {lo' hi' : Int} (h : z.OffsetsWithin lo hi) (hlo : lo' ≤ lo)
    (hhi : hi ≤ hi') : z.OffsetsWithin lo' hi' :=
  ⟨⟨Int.le_trans hlo h.1.1, Int.le_trans h.1.2 hhi⟩, fun c hc =>
    ⟨Int.le_trans hlo (h.2 c hc).1, Int.le_trans (h.2 c hc).2 hhi⟩⟩

/-! ## Zones with a yearly rule -/

theorem offset_of_mem_changesAfter {r : YearlyRule} {instant : Int} {c : ClockChange}
    (h : c ∈ r.changesAfter instant) : c.offset = r.standardOffset ∨ c.offset = r.summerOffset := by
  unfold YearlyRule.changesAfter at h
  obtain ⟨h, -⟩ := List.mem_filter.mp h
  obtain ⟨n, -, h⟩ := List.mem_flatMap.mp h
  simp only [YearlyRule.changesIn] at h
  split at h <;> simp only [List.mem_cons, List.not_mem_nil, or_false] at h <;>
    rcases h with rfl | rfl <;> simp

theorem OffsetsWithin.withRule {r : YearlyRule} (h : OffsetsWithin lo hi ⟨key, initial, cs⟩)
    (hstandard : lo ≤ r.standardOffset ∧ r.standardOffset ≤ hi)
    (hsummer : lo ≤ r.summerOffset ∧ r.summerOffset ≤ hi) :
    (Zone.withRule key initial cs r).OffsetsWithin lo hi := by
  refine ⟨h.1, fun c hc => ?_⟩
  rcases List.mem_append.mp hc with hc | hc
  · exact h.2 c hc
  · rcases offset_of_mem_changesAfter hc with heq | heq
    · rwa [heq]
    · rwa [heq]

/-! ## The table -/

/-- A table can be looked at as the list of its characters. -/
theorem changesOf_eq {table : String} {s : List Char} (htable : table = String.ofList s) :
    changesOf table =
      (s.splitBy fun a b => a.isWhitespace == b.isWhitespace).filterMap readChange? := by
  rw [changesOf, htable, String.toList_ofList]

theorem OffsetsWithin.of_table {table : String} {s : List Char} (htable : table = String.ofList s)
    (h : OffsetsWithin lo hi
      ⟨key, initial, (s.splitBy fun a b => a.isWhitespace == b.isWhitespace).filterMap readChange?⟩) :
    OffsetsWithin lo hi ⟨key, initial, changesOf table⟩ := by
  rwa [changesOf_eq htable]

theorem offsetOf_of_table {table : String} {s : List Char} {r : YearlyRule} {w : WallTime}
    (htable : table = String.ofList s)
    (h : (withRule key initial ((s.splitBy fun a b => a.isWhitespace == b.isWhitespace).filterMap
      readChange?) r).offsetOf w = offset) :
    (withRule key initial (changesOf table) r).offsetOf w = offset := by
  rwa [changesOf_eq htable]

section

set_option maxRecDepth 200000

theorem offsetsWithin_europeBerlin : europeBerlin.OffsetsWithin 3208 10800 :=
  OffsetsWithin.withRule (.of_table rfl (by decide +kernel)) (by decide) (by decide)

theorem offsetsWithin_americaNewYork : americaNewYork.OffsetsWithin (-18000) (-14400) :=
  OffsetsWithin.withRule (.of_table rfl (by decide +kernel)) (by decide) (by decide)

theorem offsetsWithin_asiaKolkata : asiaKolkata.OffsetsWithin 19270 23400 :=
  OffsetsWithin.of_table rfl (by decide +kernel)

theorem offsetsWithin_australiaLordHowe : australiaLordHowe.OffsetsWithin 36000 41400 :=
  OffsetsWithin.withRule (.of_table rfl (by decide +kernel)) (by decide) (by decide)

theorem offsetsWithin_americaSaoPaulo : americaSaoPaulo.OffsetsWithin (-11188) (-7200) :=
  OffsetsWithin.of_table rfl (by decide +kernel)

theorem offsetsWithin_pacificApia : pacificApia.OffsetsWithin (-41400) 50400 :=
  OffsetsWithin.of_table rfl (by decide +kernel)

end

/-! ## Zones by key -/

/-- Only the clock of Apia was ever set by a day. -/
theorem spread_of_mem_tabulated (h : z ∈ tabulated) :
    z = pacificApia ∨ ∃ lo hi, z.OffsetsWithin lo hi ∧ hi < lo + 86400 := by
  revert z
  simp only [tabulated, List.forall_mem_cons, List.not_mem_nil, false_imp_iff, implies_true,
    and_true, true_or]
  exact ⟨Or.inr ⟨0, 0, by decide, by decide⟩, Or.inr ⟨0, 0, by decide, by decide⟩,
    Or.inr ⟨0, 0, by decide, by decide⟩, Or.inr ⟨-18000, -18000, by decide, by decide⟩,
    Or.inr ⟨_, _, offsetsWithin_europeBerlin, by decide⟩,
    Or.inr ⟨_, _, offsetsWithin_americaNewYork, by decide⟩,
    Or.inr ⟨_, _, offsetsWithin_americaSaoPaulo, by decide⟩,
    Or.inr ⟨_, _, offsetsWithin_asiaKolkata, by decide⟩,
    Or.inr ⟨_, _, offsetsWithin_australiaLordHowe, by decide⟩⟩

end SearchExpr.Zone
