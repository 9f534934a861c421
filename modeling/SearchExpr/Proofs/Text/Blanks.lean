import Mathlib.Data.List.DropRight
import SearchExpr.Text.Blank

/-! # Trimming and collapsing

The blanks at the start of a text, those at its end and the runs of blanks in it are removed by
rewritings of their own. None does anything a second time and none disturbs another, so a text may
be trimmed and collapsed in either order.
-/

namespace SearchExpr.Text

variable {s : List Char} {c : Char}

/-! ## The two ends -/

theorem dropBlankEnd_eq_nil_iff : dropBlankEnd s = [] ↔ ∀ c ∈ s, isBlank c = true :=
  List.rdropWhile_eq_nil_iff

theorem dropBlankEnd_dropBlankEnd (s : List Char) : dropBlankEnd (dropBlankEnd s) = dropBlankEnd s :=
  List.rdropWhile_idempotent isBlank s

/-- The first character goes only with all others. -/
theorem dropBlankEnd_cons_of_ne_nil (h : dropBlankEnd (c :: s) ≠ []) :
    dropBlankEnd (c :: s) = c :: dropBlankEnd s := by
  have hcons : dropBlankEnd (c :: s) =
      (if (s.reverse.dropWhile isBlank).isEmpty then [c].dropWhile isBlank
        else s.reverse.dropWhile isBlank ++ [c]).reverse := by
    rw [dropBlankEnd, List.reverse_cons, List.dropWhile_append]
  rw [hcons] at h ⊢
  split at h
  case isTrue hempty =>
    have hs : dropBlankEnd s = [] := by simpa [dropBlankEnd] using hempty
    have hc : ¬ isBlank c = true := fun hc => h (by rw [List.dropWhile_cons_of_pos hc]; rfl)
    rw [if_pos hempty, hs, List.dropWhile_cons_of_neg hc]
    rfl
  case isFalse hempty =>
    rw [if_neg hempty, List.reverse_append]
    rfl

theorem dropBlankEnd_cons_of_ink (hc : ¬ isBlank c = true) :
    dropBlankEnd (c :: s) = c :: dropBlankEnd s :=
  dropBlankEnd_cons_of_ne_nil fun hnil =>
    hc (dropBlankEnd_eq_nil_iff.mp hnil c List.mem_cons_self)

theorem dropWhile_dropBlankEnd (s : List Char) :
    (dropBlankEnd s).dropWhile isBlank = dropBlankEnd (s.dropWhile isBlank) := by
  induction s with
  | nil => rfl
  | cons c s ih =>
    by_cases hc : isBlank c = true
    · rw [List.dropWhile_cons_of_pos hc, ← ih]
      by_cases hnil : dropBlankEnd (c :: s) = []
      · have hs : dropBlankEnd s = [] := dropBlankEnd_eq_nil_iff.mpr fun d hd =>
          dropBlankEnd_eq_nil_iff.mp hnil d (List.mem_cons_of_mem c hd)
        rw [hnil, hs]
      · rw [dropBlankEnd_cons_of_ne_nil hnil, List.dropWhile_cons_of_pos hc]
    · rw [dropBlankEnd_cons_of_ink hc, List.dropWhile_cons_of_neg hc,
        List.dropWhile_cons_of_neg hc, dropBlankEnd_cons_of_ink hc]

theorem strip_strip (s : List Char) : strip (strip s) = strip s := by
  rw [strip, strip, dropWhile_dropBlankEnd, List.dropWhile_idempotent, dropBlankEnd_dropBlankEnd]

/-! ## Runs of blanks -/

theorem isBlank_space : isBlank ' ' = true := rfl

theorem collapseFrom_true_of_blank (hc : isBlank c = true) :
    collapseFrom true (c :: s) = collapseFrom true s := by
  rw [collapseFrom, if_pos hc, if_pos rfl]

theorem collapseFrom_false_of_blank (hc : isBlank c = true) :
    collapseFrom false (c :: s) = ' ' :: collapseFrom true s := by
  rw [collapseFrom, if_pos hc, if_neg Bool.false_ne_true]

theorem collapseFrom_of_ink (hc : ¬ isBlank c = true) (inRun : Bool) :
    collapseFrom inRun (c :: s) = c :: collapseFrom false s := by
  rw [collapseFrom, if_neg hc]

theorem collapseFrom_collapseFrom (inRun : Bool) (s : List Char) :
    collapseFrom inRun (collapseFrom inRun s) = collapseFrom inRun s := by
  induction s generalizing inRun with
  | nil => rfl
  | cons c s ih =>
    by_cases hc : isBlank c = true
    · cases inRun with
      | true => rw [collapseFrom_true_of_blank hc, ih true]
      | false =>
        rw [collapseFrom_false_of_blank hc, collapseFrom_false_of_blank isBlank_space, ih true]
    · rw [collapseFrom_of_ink hc, collapseFrom_of_ink hc, ih false]

theorem forall_isBlank_collapseFrom (inRun : Bool) (s : List Char) :
    (∀ c ∈ collapseFrom inRun s, isBlank c = true) ↔ ∀ c ∈ s, isBlank c = true := by
  induction s generalizing inRun with
  | nil => rfl
  | cons c s ih =>
    rw [List.forall_mem_cons]
    by_cases hc : isBlank c = true
    · rw [and_iff_right hc, ← ih true]
      cases inRun with
      | true => rw [collapseFrom_true_of_blank hc]
      | false => rw [collapseFrom_false_of_blank hc, List.forall_mem_cons, and_iff_right isBlank_space]
    · rw [collapseFrom_of_ink hc, List.forall_mem_cons, ih false]

/-- After the blanks at the start it makes no difference what stood before them. -/
theorem dropWhile_collapseFrom (inRun inRun' : Bool) (s : List Char) :
    (collapseFrom inRun s).dropWhile isBlank = collapseFrom inRun' (s.dropWhile isBlank) := by
  induction s generalizing inRun with
  | nil => rfl
  | cons c s ih =>
    by_cases hc : isBlank c = true
    · rw [List.dropWhile_cons_of_pos hc, ← ih true]
      cases inRun with
      | true => rw [collapseFrom_true_of_blank hc]
      | false => rw [collapseFrom_false_of_blank hc, List.dropWhile_cons_of_pos isBlank_space]
    · rw [collapseFrom_of_ink hc, List.dropWhile_cons_of_neg hc, List.dropWhile_cons_of_neg hc,
        collapseFrom_of_ink hc]

theorem dropBlankEnd_collapseFrom (inRun : Bool) (s : List Char) :
    dropBlankEnd (collapseFrom inRun s) = collapseFrom inRun (dropBlankEnd s) := by
  induction s generalizing inRun with
  | nil => rfl
  | cons c s ih =>
    have hiff : dropBlankEnd (collapseFrom inRun (c :: s)) = [] ↔ dropBlankEnd (c :: s) = [] := by
      rw [dropBlankEnd_eq_nil_iff, dropBlankEnd_eq_nil_iff, forall_isBlank_collapseFrom]
    by_cases hnil : dropBlankEnd (c :: s) = []
    · rw [hnil, hiff.mpr hnil]
      rfl
    · have hnil' := mt hiff.mp hnil
      rw [dropBlankEnd_cons_of_ne_nil hnil]
      by_cases hc : isBlank c = true
      · cases inRun with
        | true => rw [collapseFrom_true_of_blank hc, collapseFrom_true_of_blank hc, ih true]
        | false =>
          rw [collapseFrom_false_of_blank hc] at hnil' ⊢
          rw [collapseFrom_false_of_blank hc, dropBlankEnd_cons_of_ne_nil hnil', ih true]
      · rw [collapseFrom_of_ink hc, collapseFrom_of_ink hc, dropBlankEnd_cons_of_ink hc, ih false]

theorem collapse_collapse (s : List Char) : collapse (collapse s) = collapse s :=
  collapseFrom_collapseFrom false s

theorem strip_collapse (s : List Char) : strip (collapse s) = collapse (strip s) := by
  rw [strip, collapse, dropWhile_collapseFrom false false, dropBlankEnd_collapseFrom]
  rfl

end SearchExpr.Text
