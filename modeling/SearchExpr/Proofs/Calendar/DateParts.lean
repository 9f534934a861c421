import Mathlib.Algebra.Ring.Nat
import SearchExpr.Proofs.Calendar.Days

/-! # Year, month and day of a date

A date has one year, month and day, from which it is found again.
-/

namespace SearchExpr.Date

variable {n : Nat} {d : Date}

/-! ## Years -/

def yearLength (year : Nat) : Nat :=
  if isLeapYear year then 366 else 365

theorem isLeapYear_iff (year : Nat) :
    isLeapYear year = true ↔ year % 4 = 0 ∧ (year % 100 ≠ 0 ∨ year % 400 = 0) := by
  simp [isLeapYear]

/-- The cycles that have passed. A year is a day longer if it is the last of four and those are not
the last of a hundred years, or the hundred years are the last of four hundred. -/
theorem exists_cycles (n : Nat) :
    ∃ a c e y days, splitYears n = (400 * a + 100 * c + 4 * e + y, days) ∧
      n = 146097 * a + 36524 * c + 1461 * e + 365 * y + days ∧
      c ≤ 3 ∧ e ≤ 24 ∧ y ≤ 3 ∧ days ≤ 365 ∧ (days = 365 → y = 3 ∧ (e < 24 ∨ c = 3)) := by
  refine ⟨_, _, _, _, _, rfl, ?_⟩
  generalize hc : min 3 (n % 146097 / 36524) = c
  generalize hr : n % 146097 - 36524 * c = r
  generalize hy : min 3 (r % 1461 / 365) = y
  omega

theorem daysInYears_splitYears (n : Nat) :
    daysInYears (splitYears n).1 + (splitYears n).2 = n := by
  obtain ⟨a, c, e, y, days, hsplit, hn, hc, he, hy, -⟩ := exists_cycles n
  have hfour : (400 * a + 100 * c + 4 * e + y) / 4 = 100 * a + 25 * c + e := by omega
  have hhundred : (400 * a + 100 * c + 4 * e + y) / 100 = 4 * a + c := by omega
  have hcycle : (400 * a + 100 * c + 4 * e + y) / 400 = a := by omega
  rw [hsplit, daysInYears, hfour, hhundred, hcycle]
  omega

theorem splitYears_snd_lt (n : Nat) : (splitYears n).2 < yearLength ((splitYears n).1 + 1) := by
  obtain ⟨a, c, e, y, days, hsplit, -, hc, he, hy, hdays, hlong⟩ := exists_cycles n
  simp only [hsplit, yearLength, isLeapYear_iff]
  split
  case isTrue => omega
  case isFalse => omega

theorem daysInYears_add_le {a b : Nat} (h : a < b) : daysInYears a + 365 ≤ daysInYears b := by
  have hstep (years : Nat) : daysInYears years + 365 ≤ daysInYears (years + 1) := by
    simp only [daysInYears]
    omega
  induction h with
  | refl => exact hstep a
  | step _ ih => exact Nat.le_trans ih (Nat.le_trans (Nat.le_add_right _ _) (hstep _))

theorem splitYears_fst_lt (h : n < 3652059) : (splitYears n).1 < 9999 := by
  simp only [splitYears]
  omega

/-! ## Months -/

theorem sum_monthLengths (year : Nat) : (monthLengths year).sum = yearLength year := by
  unfold monthLengths yearLength
  split <;> rfl

theorem bounds_of_mem_monthLengths {year length : Nat} (h : length ∈ monthLengths year) :
    28 ≤ length ∧ length ≤ 31 := by
  unfold monthLengths at h
  split at h <;> simp at h <;> omega

theorem daysInMonths_bounds (year : Nat) {months : Nat} (h : months ≤ 12) :
    28 * months ≤ daysInMonths (monthLengths year) months ∧
      daysInMonths (monthLengths year) months ≤ 31 * months := by
  have hlengths : ∀ l ∈ monthLengths year, 28 ≤ l ∧ l ≤ 31 := fun _ => bounds_of_mem_monthLengths
  have hmonths : months ≤ (monthLengths year).length := h
  generalize monthLengths year = lengths at hlengths hmonths
  clear h
  induction lengths generalizing months with
  | nil =>
    obtain rfl := Nat.le_zero.mp hmonths
    exact ⟨Nat.le_refl 0, Nat.le_refl 0⟩
  | cons length lengths ih =>
    cases months with
    | zero => exact ⟨Nat.zero_le _, Nat.le_refl 0⟩
    | succ months =>
      rw [List.forall_mem_cons] at hlengths
      have hrest := ih hlengths.2 (Nat.le_of_succ_le_succ hmonths)
      rw [daysInMonths]
      omega

/-- A day of the year is in one of the months. -/
theorem exists_splitMonths {lengths : List Nat} {days : Nat} (h : days < lengths.sum) :
    ∃ length, lengths[(splitMonths lengths days).1]? = some length ∧
      (splitMonths lengths days).2 < length ∧
      daysInMonths lengths (splitMonths lengths days).1 + (splitMonths lengths days).2 = days := by
  induction lengths generalizing days with
  | nil => simp at h
  | cons length lengths ih =>
    rw [splitMonths]
    split
    case isTrue hlt => exact ⟨length, rfl, hlt, by rw [daysInMonths, Nat.zero_add]; simp⟩
    case isFalse hle =>
      rw [List.sum_cons] at h
      obtain ⟨l, hl, hlt, hsum⟩ := ih (by omega : days - length < lengths.sum)
      refine ⟨l, hl, hlt, ?_⟩
      simp only [daysInMonths]
      omega

/-! ## Dates -/

/-- The month of a date, counted from zero, and what its day of the month comes to. -/
theorem exists_month (d : Date) :
    ∃ length, (monthLengths d.year)[d.month - 1]? = some length ∧ d.day ≤ length ∧
      daysInMonths (monthLengths d.year) (d.month - 1) + (d.day - 1) = d.dayOfYear := by
  have hlt : d.dayOfYear < (monthLengths d.year).sum := by
    rw [sum_monthLengths]
    exact splitYears_snd_lt d.ordinal
  exact exists_splitMonths hlt

theorem ordinal_eq_parts (d : Date) :
    daysInYears (d.year - 1) + daysInMonths (monthLengths d.year) (d.month - 1) + (d.day - 1) =
      d.ordinal := by
  obtain ⟨length, -, -, hmonth⟩ := d.exists_month
  have hyear : daysInYears (d.year - 1) + d.dayOfYear = d.ordinal :=
    daysInYears_splitYears d.ordinal
  omega

theorem ofYearMonthDay?_parts (d : Date) : ofYearMonthDay? d.year d.month d.day = some d := by
  obtain ⟨length, hlength, hday, -⟩ := d.exists_month
  have hpositive : ¬ (d.year = 0 ∨ d.month = 0 ∨ d.day = 0) := by simp [year, month, day]
  rw [ofYearMonthDay?, if_neg hpositive, hlength]
  dsimp only
  rw [if_neg (by omega), ofOrdinal?_eq_some, ordinal_eq_parts]

theorem year_lt (d : Date) : d.year < 10000 := by
  have hlt := splitYears_fst_lt d.ordinal.isLt
  rw [year]
  omega

theorem month_lt (d : Date) : d.month < 100 := by
  obtain ⟨length, hlength, -⟩ := d.exists_month
  obtain ⟨hlt, -⟩ := List.getElem?_eq_some_iff.mp hlength
  have hcount : (monthLengths d.year).length = 12 := rfl
  omega

theorem day_lt (d : Date) : d.day < 100 := by
  obtain ⟨length, hlength, hday, -⟩ := d.exists_month
  have hle := bounds_of_mem_monthLengths (List.mem_of_getElem? hlength)
  omega

end SearchExpr.Date
