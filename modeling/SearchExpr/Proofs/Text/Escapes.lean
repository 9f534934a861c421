/-! # Escaped characters

A backslash escapes the character after it. So whether a character is escaped depends on all that
stands before it: a backslash that is escaped itself escapes nothing.
-/

namespace SearchExpr.Text

/-- Whether the character after a text is escaped, if the first one of the text is or is not. -/
def escapesNext (escaped : Bool) : List Char → Bool
  | [] => escaped
  | c :: s => escapesNext (c == '\\' && !escaped) s

variable {s t : List Char} {c : Char} {escaped : Bool}

theorem escapesNext_append :
    escapesNext escaped (s ++ t) = escapesNext (escapesNext escaped s) t := by
  induction s generalizing escaped with
  | nil => rfl
  | cons c s ih => exact ih

theorem escapesNext_append_singleton :
    escapesNext escaped (s ++ [c]) = (c == '\\' && !escapesNext escaped s) :=
  escapesNext_append

theorem escapesNext_cons (hc : c ≠ '\\') : escapesNext false (c :: s) = escapesNext false s := by
  have hplain : (c == '\\' && !false) = false := by simpa using hc
  rw [escapesNext, hplain]

theorem escapesNext_of_not_mem (h : '\\' ∉ s) : escapesNext false s = false := by
  induction s with
  | nil => rfl
  | cons c s ih =>
    rw [List.mem_cons, not_or] at h
    rw [escapesNext_cons (Ne.symm h.1), ih h.2]

/-- What escapes the next character ends with a backslash that is not escaped. -/
theorem exists_of_escapesNext (h : escapesNext false s = true) :
    ∃ t, s = t ++ ['\\'] ∧ escapesNext false t = false := by
  rcases s.eq_nil_or_concat with rfl | ⟨t, c, rfl⟩
  · cases h
  · rw [List.concat_eq_append, escapesNext_append_singleton, Bool.and_eq_true, beq_iff_eq,
      Bool.not_eq_true'] at h
    obtain ⟨rfl, ht⟩ := h
    exact ⟨t, List.concat_eq_append, ht⟩

/-- The only backslash of a text escapes what follows if it is at the end. -/
theorem not_mem_of_dropLast (h : escapesNext false s = false) (hdrop : '\\' ∉ s.dropLast) :
    '\\' ∉ s := by
  rcases s.eq_nil_or_concat with rfl | ⟨t, c, rfl⟩
  · exact List.not_mem_nil
  · rw [List.concat_eq_append] at h hdrop ⊢
    rw [List.dropLast_concat] at hdrop
    rw [escapesNext_append_singleton, escapesNext_of_not_mem hdrop] at h
    have hc : '\\' ≠ c := by
      rintro rfl
      cases h
    simp [hdrop, hc]

end SearchExpr.Text
