import SearchExpr.Calendar.Iso
import SearchExpr.Proofs.Calendar.DateParts

/-! # Reading ISO text back

The text of a time in a zone tells its date, the time on the clock in whole seconds and the offset,
so it denotes the instant of the time without the fraction of the second.
-/

namespace SearchExpr

variable {n width : Nat} {offset : Int}

/-! ## Numbers of a fixed width -/

theorem natOfDigits_toDigits (n : Nat) : natOfDigits (Nat.toDigits 10 n) = n :=
  Nat.ofDigitChars_toDigits (by decide) (by decide)

theorem natOfDigits_zeros (k : Nat) (s : List Char) :
    natOfDigits (List.replicate k '0' ++ s) = natOfDigits s := by
  induction k with
  | zero => rfl
  | succ k ih => rwa [List.replicate_succ, List.cons_append]

theorem toList_padded (width n : Nat) : (padded width n).toList =
    List.replicate (width - (Nat.toDigits 10 n).length) '0' ++ Nat.toDigits 10 n :=
  String.toList_ofList

theorem length_padded (hwidth : 0 < width) (hn : n < 10 ^ width) :
    (padded width n).toList.length = width := by
  have hlength : (Nat.toDigits 10 n).length ≤ width :=
    (Nat.length_toDigits_le_iff (by decide) hwidth).mpr hn
  rw [toList_padded, List.length_append, List.length_replicate]
  omega

theorem isDigit_of_mem_padded {c : Char} (h : c ∈ (padded width n).toList) : isDigit c = true := by
  rw [toList_padded, List.mem_append] at h
  rcases h with h | h
  · rw [List.eq_of_mem_replicate h]
    rfl
  · have hdigit := Nat.isDigit_of_mem_toDigits (by decide) (by decide) h
    simpa [isDigit, Char.isDigit, Char.le_def] using hdigit

theorem digits?_padded (width n : Nat) : digits? (padded width n).toList = some n := by
  have hall : (padded width n).toList.all isDigit = true :=
    List.all_eq_true.mpr fun _ h => isDigit_of_mem_padded h
  have hne : (padded width n).toList.isEmpty = false := by simp [toList_padded]
  rw [digits?, hall, hne]
  simp only [Bool.not_false, Bool.and_self, if_true, Option.some.injEq]
  rw [toList_padded, natOfDigits_zeros, natOfDigits_toDigits]

theorem twoDigits?_padded (hn : n < 100) (rest : List Char) :
    twoDigits? ((padded 2 n).toList ++ rest) = some (n, rest) := by
  have hlength := length_padded (by decide : 0 < 2) hn
  have hdigits := digits?_padded 2 n
  generalize (padded 2 n).toList = s at hlength hdigits
  match s with
  | [a, b] => simp [twoDigits?, hdigits]

/-! ## Dates and offsets -/

theorem toList_isoText (d : Date) (rest : List Char) :
    d.isoText.toList ++ rest = (padded 4 d.year).toList ++ ('-' :: ((padded 2 d.month).toList ++
      ('-' :: ((padded 2 d.day).toList ++ rest)))) := by
  simp [Date.isoText]

theorem datePart?_isoText (d : Date) (rest : List Char) :
    datePart? (d.isoText.toList ++ rest) = some ((d.year, d.month, d.day), rest) := by
  have hlength := length_padded (by decide : 0 < 4) d.year_lt
  rw [toList_isoText, datePart?]
  simp [hlength, digits?_padded, twoDigits?_padded d.month_lt, twoDigits?_padded d.day_lt]

theorem toList_offsetText (offset : Int) :
    (offsetText offset).toList =
      (if offset < 0 then '-' else '+') :: ((padded 2 (offset.natAbs / 3600)).toList ++
        (':' :: ((padded 2 (offset.natAbs / 60 % 60)).toList ++
          (if offset.natAbs % 60 = 0 then []
            else ':' :: ((padded 2 (offset.natAbs % 60)).toList ++ []))))) := by
  by_cases hsign : offset < 0 <;> by_cases hrest : offset.natAbs % 60 = 0 <;>
    simp [offsetText, hsign, hrest]

/-- An offset with hours of two digits is read back. -/
theorem wholeOffset?_offsetText (h : offset.natAbs < 360000) :
    wholeOffset? (offsetText offset).toList = some offset := by
  have hhour : offset.natAbs / 3600 < 100 := by omega
  have hminute : offset.natAbs / 60 % 60 < 100 := by omega
  have hsecond : offset.natAbs % 60 < 100 := by omega
  rw [toList_offsetText, wholeOffset?]
  by_cases hsign : offset < 0 <;> by_cases hrest : offset.natAbs % 60 = 0 <;>
    simp only [hsign, hrest, if_true, if_false, List.head?_cons, List.drop_succ_cons, List.drop_zero,
      twoDigits?_padded hhour, twoDigits?_padded hminute, twoDigits?_padded hsecond,
      Option.bind_eq_bind, Option.bind_some, Option.pure_def, Option.some.injEq]
  all_goals omega

/-! ## Times -/

theorem toList_clockText (w : WallTime) (rest : List Char) :
    w.clockText.toList ++ rest = (padded 2 w.hour).toList ++ (':' :: ((padded 2 w.minute).toList ++
      (':' :: ((padded 2 w.secondOfMinute).toList ++ rest)))) := by
  simp [WallTime.clockText]

theorem ofIso?_isoText (t : ZonedTime) (h : t.offset.natAbs < 360000) (fold : Bool) :
    DateTime.ofIso? t.isoText fold =
      some { date := t.date, second := t.second, micro := 0, fold
             clock := .fixed (t.offset * 1000000) } := by
  have hhour : t.hour < 24 := by
    have hlt := t.second.isLt
    rw [WallTime.hour]
    omega
  have hminute : t.minute < 60 := by
    rw [WallTime.minute]
    omega
  have hsecond : t.secondOfMinute < 60 := by
    rw [WallTime.secondOfMinute]
    omega
  have htext : t.isoText.toList =
      t.date.isoText.toList ++ ('T' :: (t.clockText.toList ++ (offsetText t.offset).toList)) := by
    simp [ZonedTime.isoText]
  rw [DateTime.ofIso?, htext, datePart?_isoText, toList_clockText]
  simp only [Option.bind_eq_bind, Option.bind_some, Date.ofYearMonthDay?_parts,
    twoDigits?_padded (by omega : t.hour < 100), twoDigits?_padded (by omega : t.minute < 100),
    twoDigits?_padded (by omega : t.secondOfMinute < 100)]
  -- The text goes on with the sign of the offset, so there is no fraction.
  have hfraction : ∃ sign rest, sign ≠ '.' ∧ (offsetText t.offset).toList = sign :: rest := by
    refine ⟨_, _, ?_, toList_offsetText t.offset⟩
    split <;> decide
  obtain ⟨sign, rest, hsign, heq⟩ := hfraction
  have hoffset := wholeOffset?_offsetText h
  rw [heq] at hoffset ⊢
  have hmillionths : millionths [] = 0 := rfl
  have hclock : t.hour * 3600 + t.minute * 60 + t.secondOfMinute = t.second := by
    rw [WallTime.hour, WallTime.minute, WallTime.secondOfMinute]
    omega
  simp [hsign, hoffset, hmillionths, hhour, hminute, hsecond, hclock]

end SearchExpr
