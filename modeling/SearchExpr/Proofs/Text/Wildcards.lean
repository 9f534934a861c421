import Mathlib.Data.List.Infix
import SearchExpr.Proofs.Text.Escapes

/-! # Wildcard patterns

In a pattern a star stands for any run of characters and a question mark for any one character. A
text with a star after or before it finds just what begins or ends with the text if none of its
characters stands for others and no backslash makes the next one, the star included, stand for
itself. Otherwise it finds what is shorter than the text, or has another character in its place.
-/

namespace SearchExpr.Text

/-! ## Reading patterns -/

inductive Mark where
  | run | one | char (c : Char)
  deriving DecidableEq

def Mark.ofChar (c : Char) : Mark :=
  if c = '*' then .run else if c = '?' then .one else .char c

/-- What a pattern is made of. A backslash at its end stands for itself. -/
def marks : List Char → List Mark
  | [] => []
  | '\\' :: c :: p => .char c :: marks p
  | c :: p => .ofChar c :: marks p

/-- Whether some marks stand for a text as a whole. -/
def finds : List Mark → List Char → Bool
  | [], s => s.isEmpty
  | .run :: ms, s => s.tails.any (finds ms)
  | .one :: ms, _ :: s => finds ms s
  | .char c :: ms, d :: s => c == d && finds ms s
  | _, [] => false

variable {ms ns : List Mark} {p q s t : List Char} {c : Char}

theorem finds_nil : finds [] s = true ↔ s = [] := List.isEmpty_iff

theorem finds_run : finds (.run :: ms) s = true ↔ ∃ t, t <:+ s ∧ finds ms t = true := by
  simp only [finds, List.any_eq_true, List.mem_tails]

theorem finds_one : finds (.one :: ms) s = true ↔ ∃ c t, s = c :: t ∧ finds ms t = true := by
  cases s <;> simp [finds]

theorem finds_char : finds (.char c :: ms) s = true ↔ ∃ t, s = c :: t ∧ finds ms t = true := by
  cases s with
  | nil => simp [finds]
  | cons d s => simp [finds, @eq_comm _ c d]

/-- Marks after others stand for what follows a text that those stand for. -/
theorem finds_append :
    finds (ms ++ ns) s = true ↔ ∃ a b, s = a ++ b ∧ finds ms a = true ∧ finds ns b = true := by
  induction ms generalizing s with
  | nil => simp [finds_nil]
  | cons m ms ih =>
    rw [List.cons_append]
    cases m with
    | run =>
      simp only [finds_run, ih]
      constructor
      · rintro ⟨t, ⟨before, rfl⟩, a, b, rfl, ha, hb⟩
        exact ⟨before ++ a, b, by simp, ⟨a, ⟨before, rfl⟩, ha⟩, hb⟩
      · rintro ⟨_, b, rfl, ⟨a, ⟨before, rfl⟩, ha⟩, hb⟩
        exact ⟨a ++ b, ⟨before, by simp⟩, a, b, rfl, ha, hb⟩
    | one =>
      simp only [finds_one, ih]
      constructor
      · rintro ⟨c, _, rfl, a, b, rfl, ha, hb⟩
        exact ⟨c :: a, b, rfl, ⟨c, a, rfl, ha⟩, hb⟩
      · rintro ⟨_, b, rfl, ⟨c, a, rfl, ha⟩, hb⟩
        exact ⟨c, a ++ b, rfl, a, b, rfl, ha, hb⟩
    | char c =>
      simp only [finds_char, ih]
      constructor
      · rintro ⟨_, rfl, a, b, rfl, ha, hb⟩
        exact ⟨c :: a, b, rfl, ⟨a, rfl, ha⟩, hb⟩
      · rintro ⟨_, b, rfl, ⟨a, rfl, ha⟩, hb⟩
        exact ⟨a ++ b, rfl, a, b, rfl, ha, hb⟩

theorem finds_map_char : finds (p.map .char) s = true ↔ s = p := by
  induction p generalizing s with
  | nil => exact finds_nil
  | cons c p ih => simp [finds_char, ih]

theorem finds_run_nil : finds [.run] s = true :=
  finds_run.mpr ⟨[], List.nil_suffix, rfl⟩

/-! ## The shortest text that a pattern finds -/

def Mark.least : Mark → List Char
  | run => []
  | one => ['x']
  | char c => [c]

def shortest (ms : List Mark) : List Char :=
  ms.flatMap Mark.least

theorem shortest_cons (m : Mark) (ms : List Mark) : shortest (m :: ms) = m.least ++ shortest ms :=
  List.flatMap_cons

theorem finds_shortest : finds ms (shortest ms) = true := by
  induction ms with
  | nil => rfl
  | cons m ms ih =>
    cases m with
    | run => exact finds_run.mpr ⟨_, List.suffix_rfl, ih⟩
    | one => exact finds_one.mpr ⟨_, _, rfl, ih⟩
    | char c => exact finds_char.mpr ⟨_, rfl, ih⟩

/-- A character stands for itself unless it is a wildcard. -/
theorem ofChar_cases (c : Char) :
    c = '*' ∧ Mark.ofChar c = .run ∨ c = '?' ∧ Mark.ofChar c = .one ∨
      (c ≠ '*' ∧ c ≠ '?') ∧ Mark.ofChar c = .char c := by
  unfold Mark.ofChar
  split_ifs <;> simp_all

theorem length_shortest_le (ms : List Mark) : (shortest ms).length ≤ ms.length := by
  induction ms with
  | nil => exact Nat.le_refl 0
  | cons m ms ih =>
    have hleast : m.least.length ≤ 1 := by cases m <;> simp [Mark.least]
    rw [shortest_cons, List.length_append, List.length_cons]
    omega

theorem length_marks_le (p : List Char) : (marks p).length ≤ p.length := by
  fun_induction marks p with
  | case1 => exact Nat.le_refl 0
  | case2 c p ih | case3 c p _ ih =>
    simp only [List.length_cons]
    omega

theorem length_shortest_marks_le (p : List Char) : (shortest (marks p)).length ≤ p.length :=
  (length_shortest_le (marks p)).trans (length_marks_le p)

/-- Only a pattern that stands for its own characters finds nothing shorter and nothing else. -/
theorem marks_eq_of_shortest_eq (h : shortest (marks p) = p) : marks p = p.map .char := by
  fun_induction marks p with
  | case1 => rfl
  | case2 c p ih =>
    have hle := length_shortest_le (.char c :: marks p)
    have hmarks := length_marks_le p
    rw [h] at hle
    simp only [List.length_cons] at hle
    omega
  | case3 c p _ ih =>
    rw [shortest_cons] at h
    rcases ofChar_cases c with ⟨-, hc⟩ | ⟨rfl, hc⟩ | ⟨-, hc⟩ <;> rw [hc, Mark.least] at h
    · have hle := length_shortest_marks_le p
      rw [← List.nil_append (shortest (marks p)), h, List.length_cons] at hle
      omega
    · simp at h
    · rw [hc, ih (List.cons.inj h).2, List.map_cons]

theorem ofChar_eq_char_iff : Mark.ofChar c = .char c ↔ '*' ≠ c ∧ '?' ≠ c := by
  rcases ofChar_cases c with ⟨rfl, hc⟩ | ⟨rfl, hc⟩ | ⟨hother, hc⟩
  · simp [hc]
  · simp [hc]
  · exact iff_of_true hc ⟨hother.1.symm, hother.2.symm⟩

/-- A pattern stands for its own characters if there is no wildcard in it, and no backslash but one
at its end. -/
theorem marks_eq_map_char_iff :
    marks p = p.map .char ↔ '*' ∉ p ∧ '?' ∉ p ∧ '\\' ∉ p.dropLast := by
  fun_induction marks p with
  | case1 => simp
  | case2 c p ih =>
    refine iff_of_false (fun h => ?_) fun h => h.2.2 List.mem_cons_self
    have hle := length_marks_le p
    have hlength := congrArg List.length h
    simp only [List.length_cons, List.length_map] at hlength
    omega
  | case3 c p hlast ih =>
    have hdrop : '\\' ∉ (c :: p).dropLast ↔ '\\' ∉ p.dropLast := by
      cases p with
      | nil => simp
      | cons d p =>
        have hc : '\\' ≠ c := fun heq => hlast d p heq.symm rfl
        simp [hc]
    rw [List.map_cons, List.cons.injEq, ofChar_eq_char_iff, ih, hdrop, List.mem_cons, List.mem_cons]
    simp only [ne_eq, not_or, and_assoc, and_left_comm]

/-! ## Patterns one after the other -/

theorem marks_cons (hc : c ≠ '\\') : marks (c :: p) = .ofChar c :: marks p := by
  cases p <;> simp [marks, hc]

theorem marks_append (h : escapesNext false p = false) : marks (p ++ q) = marks p ++ marks q := by
  fun_induction marks p with
  | case1 => rfl
  | case2 c p ih =>
    have hrest : escapesNext false p = false := by simpa [escapesNext] using h
    rw [List.cons_append, List.cons_append, marks, ih hrest, List.cons_append]
  | case3 c p hlast ih =>
    have hc : c ≠ '\\' := by
      rintro rfl
      cases p with
      | nil => cases h
      | cons d p => exact hlast d p rfl rfl
    rw [escapesNext_cons hc] at h
    rw [List.cons_append, marks_cons hc, ih h, List.cons_append]

/-! ## Texts with a star after or before them -/

/-- A star after a text finds what the text is a prefix of exactly if no character of the text has a
meaning in patterns. -/
theorem finds_prefix_iff :
    (∀ s, finds (marks (p ++ ['*'])) s = true ↔ p <+: s) ↔ '*' ∉ p ∧ '?' ∉ p ∧ '\\' ∉ p := by
  cases hp : escapesNext false p with
  | false =>
    have hmarks : marks (p ++ ['*']) = marks p ++ [.run] := marks_append hp
    have hplain : marks p = p.map .char ↔ '*' ∉ p ∧ '?' ∉ p ∧ '\\' ∉ p := by
      rw [marks_eq_map_char_iff]
      refine and_congr_right fun _ => and_congr_right fun _ => ?_
      exact ⟨not_mem_of_dropLast hp, fun h hdrop => h (List.mem_of_mem_dropLast hdrop)⟩
    rw [hmarks, ← hplain]
    simp only [finds_append, finds_run_nil, and_true]
    constructor
    · intro h
      have hbegins : p <+: shortest (marks p) :=
        (h _).mp ⟨_, [], (List.append_nil _).symm, finds_shortest⟩
      exact marks_eq_of_shortest_eq (hbegins.eq_of_length_le (length_shortest_marks_le p)).symm
    · intro h s
      simp only [h, finds_map_char]
      exact ⟨fun ⟨a, b, hs, ha⟩ => ⟨b, by rw [hs, ha]⟩, fun ⟨b, hs⟩ => ⟨p, b, hs.symm, rfl⟩⟩
  | true =>
    -- The star is escaped, so what is found ends with a star, which the text itself does not.
    obtain ⟨t, rfl, ht⟩ := exists_of_escapesNext hp
    have hmarks : marks (t ++ ['\\'] ++ ['*']) = marks t ++ [.char '*'] := by
      rw [List.append_assoc, marks_append ht]
      rfl
    refine iff_of_false (fun h => ?_) (by simp)
    obtain ⟨a, b, heq, -, hb⟩ := finds_append.mp (hmarks ▸ (h _).mpr List.prefix_rfl)
    obtain ⟨_, rfl, hnil⟩ := finds_char.mp hb
    rw [finds_nil.mp hnil] at heq
    exact absurd (List.append_inj_right' heq rfl) (by decide)

/-- A star before a text finds what the text is a suffix of exactly if no character of the text has
a meaning in patterns, a backslash at its end excepted. -/
theorem finds_suffix_iff :
    (∀ s, finds (marks ('*' :: p)) s = true ↔ p <:+ s) ↔
      '*' ∉ p ∧ '?' ∉ p ∧ '\\' ∉ p.dropLast := by
  have hmarks : marks ('*' :: p) = .run :: marks p := marks_cons (by decide)
  rw [hmarks, ← marks_eq_map_char_iff]
  constructor
  · intro h
    have hends : p <:+ shortest (marks p) :=
      (h _).mp (finds_run.mpr ⟨_, List.suffix_rfl, finds_shortest⟩)
    exact marks_eq_of_shortest_eq (hends.eq_of_length_le (length_shortest_marks_le p)).symm
  · intro h s
    rw [h, finds_run]
    simp only [finds_map_char]
    exact ⟨fun ⟨t, hs, ht⟩ => ht ▸ hs, fun hs => ⟨p, hs, rfl⟩⟩

/-! ## Patterns given as strings -/

/-- Whether a pattern finds a text. -/
def matchesPattern (pattern s : String) : Bool :=
  finds (marks pattern.toList) s.toList

theorem forall_toList_iff {P : List Char → Prop} : (∀ s : String, P s.toList) ↔ ∀ s, P s :=
  ⟨fun h s => String.toList_ofList (l := s) ▸ h (String.ofList s), fun h s => h s.toList⟩

theorem matchesPattern_prefix_iff (p : String) :
    (∀ s : String, matchesPattern (p ++ "*") s = true ↔ p.toList <+: s.toList) ↔
      '*' ∉ p.toList ∧ '?' ∉ p.toList ∧ '\\' ∉ p.toList := by
  simp only [matchesPattern, String.toList_append]
  exact forall_toList_iff.trans finds_prefix_iff

theorem matchesPattern_suffix_iff (p : String) :
    (∀ s : String, matchesPattern ("*" ++ p) s = true ↔ p.toList <:+ s.toList) ↔
      '*' ∉ p.toList ∧ '?' ∉ p.toList ∧ '\\' ∉ p.toList.dropLast := by
  simp only [matchesPattern, String.toList_append]
  exact forall_toList_iff.trans finds_suffix_iff

end SearchExpr.Text
