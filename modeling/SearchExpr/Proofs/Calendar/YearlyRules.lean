import SearchExpr.Proofs.Calendar.ClockChanges
import SearchExpr.Proofs.Calendar.DateParts

/-! # Yearly rules

A rule sets clocks in two months of every year. Each of its days is in its month, so two changes are
apart if the months are. The table of a zone with a rule ends with a change that the rule has too,
from which on the rule takes over. So every zone of the table is regular.
-/

namespace SearchExpr

variable {key : String} {year year' : Nat} {offset gap lo hi initial : Int} {c d last : ClockChange}
  {cs : List ClockChange}

/-- Days from 1970 to the beginning of a year. -/
def yearStart (year : Nat) : Int :=
  Date.daysInYears (year - 1) - 719162

theorem yearStart_add_le (hyear : 0 < year) (h : year < year') :
    yearStart year + 365 ≤ yearStart year' := by
  have hle := Date.daysInYears_add_le (by omega : year - 1 < year' - 1)
  simp only [yearStart]
  omega

/-! ## The dates of a rule -/

namespace YearlyDate

variable {r : YearlyDate}

/-- A week of a month and a time of the day. -/
structure IsProper (r : YearlyDate) : Prop where
  month : 1 ≤ r.month ∧ r.month ≤ 12
  week : 1 ≤ r.week ∧ r.week ≤ 5
  second : 0 ≤ r.second ∧ r.second < 86400

instance (r : YearlyDate) : Decidable r.IsProper :=
  decidable_of_iff ((1 ≤ r.month ∧ r.month ≤ 12) ∧ (1 ≤ r.week ∧ r.week ≤ 5) ∧
    0 ≤ r.second ∧ r.second < 86400) ⟨fun h => ⟨h.1, h.2.1, h.2.2⟩, fun h => ⟨h.1, h.2, h.3⟩⟩

/-- The rule's day is in the rule's month. -/
theorem IsProper.epochDay_bounds (h : r.IsProper) (year : Nat) :
    yearStart year + 28 * (r.month - 1) ≤ r.epochDay year ∧
      r.epochDay year < yearStart year + 31 * r.month := by
  obtain ⟨⟨hmonth, hmonth'⟩, ⟨hweek, hweek'⟩, -⟩ := h
  have hcount : r.month - 1 < (Date.monthLengths year).length := by
    have hlength : (Date.monthLengths year).length = 12 := rfl
    omega
  have hbefore := Date.daysInMonths_bounds year (by omega : r.month - 1 ≤ 12)
  have hlength := Date.bounds_of_mem_monthLengths (List.getElem_mem hcount)
  have hgetD : (Date.monthLengths year).getD (r.month - 1) 0 =
      (Date.monthLengths year)[r.month - 1] := by
    rw [List.getD_eq_getElem?_getD, List.getElem?_eq_getElem hcount, Option.getD_some]
  simp only [epochDay, hgetD, yearStart]
  split <;> omega

/-- The instant of the rule's date is in the rule's month, or up to a day off. -/
theorem IsProper.instant_bounds (h : r.IsProper) (hoffset : -86400 < offset ∧ offset < 86400)
    (year : Nat) :
    (yearStart year + 28 * (r.month - 1) - 1) * 86400 < r.instant year offset ∧
      r.instant year offset < (yearStart year + 31 * r.month + 1) * 86400 := by
  have hday := h.epochDay_bounds year
  have hsecond := h.second
  rw [instant]
  omega

end YearlyDate

/-! ## The changes of a rule -/

namespace YearlyRule

variable {r : YearlyRule}

def ahead (r : YearlyRule) (year : Nat) : ClockChange :=
  ⟨r.summer.instant year r.standardOffset, r.summerOffset⟩

def back (r : YearlyRule) (year : Nat) : ClockChange :=
  ⟨r.winter.instant year r.summerOffset, r.standardOffset⟩

/-- More than two days are between two months, in the order in which they follow one another in
a year and to the next year. -/
def MonthsApart (month month' : Nat) : Prop :=
  31 * month + 3 ≤ 28 * (month' - 1) ∧ 31 * month' + 3 ≤ 365 + 28 * (month - 1)

/-- Both dates of a rule exist, and their months are apart in one of the two orders. -/
structure IsSeasonal (r : YearlyRule) : Prop where
  summer : r.summer.IsProper
  winter : r.winter.IsProper
  offsets : (-86400 < r.standardOffset ∧ r.standardOffset < 86400) ∧
    -86400 < r.summerOffset ∧ r.summerOffset < 86400
  months : MonthsApart r.summer.month r.winter.month ∨ MonthsApart r.winter.month r.summer.month

instance (month month' : Nat) : Decidable (MonthsApart month month') :=
  inferInstanceAs (Decidable (_ ∧ _))

instance (r : YearlyRule) : Decidable r.IsSeasonal :=
  decidable_of_iff (r.summer.IsProper ∧ r.winter.IsProper ∧
      ((-86400 < r.standardOffset ∧ r.standardOffset < 86400) ∧
        -86400 < r.summerOffset ∧ r.summerOffset < 86400) ∧
      (MonthsApart r.summer.month r.winter.month ∨ MonthsApart r.winter.month r.summer.month))
    ⟨fun h => ⟨h.1, h.2.1, h.2.2.1, h.2.2.2⟩, fun h => ⟨h.1, h.2, h.3, h.4⟩⟩

theorem mem_changesIn : c ∈ r.changesIn year ↔ c = r.ahead year ∨ c = r.back year := by
  simp only [changesIn]
  split <;> simp [ahead, back, or_comm]

theorem IsSeasonal.pairwise_changesIn (h : r.IsSeasonal) (year : Nat) :
    (r.changesIn year).Pairwise fun c d => c.instant + 86400 ≤ d.instant := by
  have hsummer := h.summer.instant_bounds h.offsets.1 year
  have hwinter := h.winter.instant_bounds h.offsets.2 year
  have hmonths := h.months
  simp only [MonthsApart] at hmonths
  simp only [changesIn]
  split <;> rw [List.pairwise_pair] <;> dsimp only <;> omega

theorem IsSeasonal.apart_of_lt (h : r.IsSeasonal) (hyear : 0 < year) (hlt : year < year')
    (hc : c ∈ r.changesIn year) (hd : d ∈ r.changesIn year') : c.instant + 86400 ≤ d.instant := by
  have hstart := yearStart_add_le hyear hlt
  have hsummer := h.summer.instant_bounds h.offsets.1 year
  have hsummer' := h.summer.instant_bounds h.offsets.1 year'
  have hwinter := h.winter.instant_bounds h.offsets.2 year
  have hwinter' := h.winter.instant_bounds h.offsets.2 year'
  have hmonth := h.summer.month
  have hmonth' := h.winter.month
  have hmonths := h.months
  simp only [MonthsApart] at hmonths
  rcases mem_changesIn.mp hc with rfl | rfl <;> rcases mem_changesIn.mp hd with rfl | rfl <;>
    simp only [ahead, back] <;> omega

/-- The changes of all years for which rules are used. -/
def changes (r : YearlyRule) : List ClockChange :=
  (List.range 8100).flatMap fun n => r.changesIn (1900 + n)

theorem mem_changes : c ∈ r.changes ↔ ∃ n < 8100, c ∈ r.changesIn (1900 + n) := by
  simp [changes]

theorem IsSeasonal.pairwise_changes (h : r.IsSeasonal) :
    r.changes.Pairwise fun c d => c.instant + 86400 ≤ d.instant := by
  rw [changes, List.pairwise_flatMap]
  refine ⟨fun n _ => h.pairwise_changesIn (1900 + n), List.pairwise_lt_range.imp ?_⟩
  intro n n' hlt c hc d hd
  exact h.apart_of_lt (by omega) (by omega) hc hd

theorem IsSeasonal.apart_of_mem (h : r.IsSeasonal) (hc : c ∈ r.changes) (hd : d ∈ r.changes)
    (hlt : c.instant < d.instant) : c.instant + 86400 ≤ d.instant := by
  let R (c d : ClockChange) : Prop :=
    c.instant + 86400 ≤ d.instant ∨ d.instant + 86400 ≤ c.instant
  have hsymm : Std.Symm R := ⟨fun _ _ => Or.symm⟩
  have hpairs : r.changes.Pairwise R := h.pairwise_changes.imp Or.inl
  have hne : c ≠ d := by
    rintro rfl
    omega
  rcases hpairs.forall hc hd hne with hapart | hapart
  · exact hapart
  · omega

end YearlyRule

namespace Zone

/-- A table that ends with a change of the rule is continued by the rule. -/
theorem gapsAtLeast_withRule {r : YearlyRule} (hr : r.IsSeasonal) (hgap : gap ≤ 86400)
    (hcs : GapsAtLeast gap cs) (hlast : cs.getLast? = some last) (hmem : last ∈ r.changes) :
    GapsAtLeast gap (withRule key initial cs r).changes := by
  have hinstant : (cs.getLast?.map (·.instant)).getD 0 = last.instant := by
    rw [hlast]
    rfl
  rw [withRule, hinstant]
  refine List.isChain_append.mpr ⟨hcs, ?_, fun c hc d hd => ?_⟩
  · refine ((hr.pairwise_changes.filter _).imp fun {c d} hcd => ?_).isChain
    omega
  · obtain rfl : last = c := Option.some.inj (hlast.symm.trans hc)
    obtain ⟨hd, hlater⟩ := List.mem_filter.mp (List.mem_of_mem_head? hd)
    have hapart := hr.apart_of_mem hmem hd (of_decide_eq_true hlater)
    omega

/-! ## The table -/

theorem OffsetsWithin.isRegular_of_table {table : String} {s : List Char}
    (h : OffsetsWithin lo hi ⟨key, initial, changesOf table⟩) (hlo : -86399 ≤ lo) (hhi : hi ≤ 86399)
    (htable : table = String.ofList s)
    (hgaps : GapsAtLeast (hi - lo)
      ((s.splitBy fun a b => a.isWhitespace == b.isWhitespace).filterMap readChange?)) :
    IsRegular ⟨key, initial, changesOf table⟩ := by
  refine h.isRegular hlo hhi ?_
  rwa [changesOf_eq htable]

theorem OffsetsWithin.isRegular_withRule {table : String} {s : List Char} {r : YearlyRule}
    (last : ClockChange) (h : (Zone.withRule key initial (changesOf table) r).OffsetsWithin lo hi)
    (hlo : -86399 ≤ lo) (hhi : hi ≤ 86399) (hspread : hi - lo ≤ 86400) (hr : r.IsSeasonal)
    (hmem : last ∈ r.changes) (htable : table = String.ofList s)
    (hcs : let cs := (s.splitBy fun a b => a.isWhitespace == b.isWhitespace).filterMap readChange?
      GapsAtLeast (hi - lo) cs ∧ cs.getLast? = some last) :
    (Zone.withRule key initial (changesOf table) r).IsRegular := by
  rw [← changesOf_eq htable] at hcs
  exact h.isRegular hlo hhi (gapsAtLeast_withRule hr hspread hcs.1 hcs.2 hmem)

section

set_option maxRecDepth 200000

theorem isRegular_europeBerlin : europeBerlin.IsRegular :=
  offsetsWithin_europeBerlin.isRegular_withRule ⟨828234000, 7200⟩ (by decide) (by decide)
    (by decide) (by decide) (YearlyRule.mem_changes.mpr ⟨96, by decide, by decide⟩) rfl
    (by decide +kernel)

theorem isRegular_americaNewYork : americaNewYork.IsRegular :=
  offsetsWithin_americaNewYork.isRegular_withRule ⟨1173596400, -14400⟩ (by decide) (by decide)
    (by decide) (by decide) (YearlyRule.mem_changes.mpr ⟨107, by decide, by decide⟩) rfl
    (by decide +kernel)

theorem isRegular_australiaLordHowe : australiaLordHowe.IsRegular :=
  offsetsWithin_australiaLordHowe.isRegular_withRule ⟨1207407600, 37800⟩ (by decide) (by decide)
    (by decide) (by decide) (YearlyRule.mem_changes.mpr ⟨108, by decide, by decide⟩) rfl
    (by decide +kernel)

theorem isRegular_asiaKolkata : asiaKolkata.IsRegular :=
  offsetsWithin_asiaKolkata.isRegular_of_table (by decide) (by decide) rfl (by decide +kernel)

theorem isRegular_americaSaoPaulo : americaSaoPaulo.IsRegular :=
  offsetsWithin_americaSaoPaulo.isRegular_of_table (by decide) (by decide) rfl (by decide +kernel)

theorem isRegular_pacificApia : pacificApia.IsRegular :=
  offsetsWithin_pacificApia.isRegular_of_table (by decide) (by decide) rfl (by decide +kernel)

end

theorem isRegular_fixed (hoffset : -86399 ≤ offset ∧ offset ≤ 86399) :
    (fixed key offset).IsRegular :=
  ⟨⟨hoffset, nofun⟩, trivial⟩

/-- Every zone of the table is regular. -/
theorem isRegular_of_mem_tabulated {z : Zone} (h : z ∈ tabulated) : z.IsRegular := by
  revert z
  simp only [tabulated, List.forall_mem_cons, List.not_mem_nil, false_imp_iff, implies_true,
    and_true]
  exact ⟨isRegular_fixed (by decide), isRegular_fixed (by decide), isRegular_fixed (by decide),
    isRegular_fixed (by decide), isRegular_europeBerlin, isRegular_americaNewYork,
    isRegular_americaSaoPaulo, isRegular_asiaKolkata, isRegular_australiaLordHowe,
    isRegular_pacificApia⟩

end Zone

end SearchExpr
