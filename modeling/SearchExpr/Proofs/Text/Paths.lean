import Mathlib.Data.List.Infix
import SearchExpr.Text.Path

/-! # Paths written with underscores

Pairs of underscores are read as dots from the left, but the last pair of a path is found from the
right. The two readings agree on where the parts of a path are joined as long as no part has two
underscores in a row or one at an end.
-/

namespace SearchExpr.Text

variable {s t path word : List Char}

/-! ## Dots for pairs -/

theorem length_dotted_le (s : List Char) : (dotted s).length ≤ s.length := by
  fun_induction dotted s with
  | case1 rest ih =>
    simp only [List.length_cons]
    omega
  | case2 c rest _ ih =>
    simp only [List.length_cons]
    omega
  | case3 => exact Nat.le_refl 0

theorem dotted_eq_self_iff : dotted s = s ↔ ¬ ['_', '_'] <:+: s := by
  fun_induction dotted s with
  | case1 rest ih =>
    have hlength := length_dotted_le rest
    constructor
    · intro heq
      have := congrArg List.length heq
      simp only [List.length_cons] at this
      omega
    · intro hpair
      exact absurd (List.IsPrefix.isInfix ⟨rest, rfl⟩) hpair
  | case2 c rest hother ih =>
    rw [List.cons.injEq, ih, List.infix_cons_iff]
    simp only [true_and, not_or]
    refine (and_iff_right ?_).symm
    rintro ⟨rest', heq⟩
    obtain ⟨rfl, rfl⟩ := List.cons.inj heq
    exact hother rest' rfl rfl
  | case3 => simp

/-- A dot is part of no pair. -/
theorem dotted_append_dot (s t : List Char) : dotted (s ++ '.' :: t) = dotted s ++ '.' :: dotted t := by
  fun_induction dotted s with
  | case1 rest ih => simp [dotted, ih]
  | case2 c rest hother ih =>
    have hother' : ∀ rest', c = '_' → rest ++ '.' :: t = '_' :: rest' → False := by
      rintro rest' rfl heq
      cases rest with
      | nil => simp at heq
      | cons d rest =>
        obtain ⟨rfl, -⟩ := List.cons.inj heq
        exact hother rest rfl rfl
    rw [List.cons_append, dotted, ih]
    · rfl
    · exact hother'
  | case3 => simp [dotted]

theorem toList_dottedName (name : String) : (dottedName name).toList = dotted name.toList :=
  String.toList_ofList

theorem dottedName_eq_self_iff : dottedName name = name ↔ ¬ ['_', '_'] <:+: name.toList := by
  rw [← String.toList_inj, toList_dottedName, dotted_eq_self_iff]

/-! ## The last pair -/

theorem splitLastPair?_cons_of_some {before after : List Char}
    (h : splitLastPair? s = some (before, after)) (c : Char) :
    splitLastPair? (c :: s) = some (c :: before, after) := by
  unfold splitLastPair?
  rw [h]

theorem splitLastPair?_pair (h : splitLastPair? ('_' :: s) = none) :
    splitLastPair? ('_' :: '_' :: s) = some ([], s) := by
  unfold splitLastPair?
  rw [h]
  rfl

theorem splitLastPair?_cons_of_none (h : splitLastPair? s = none) {c : Char}
    (hpair : ¬ ['_', '_'] <+: c :: s) : splitLastPair? (c :: s) = none := by
  unfold splitLastPair?
  rw [h]
  dsimp only
  split
  case h_1 after => exact absurd ⟨after, rfl⟩ hpair
  case h_2 => rfl

theorem splitLastPair?_eq_none_iff : splitLastPair? s = none ↔ ¬ ['_', '_'] <:+: s := by
  induction s with
  | nil => simp [splitLastPair?]
  | cons c s ih =>
    rw [List.infix_cons_iff]
    cases hs : splitLastPair? s with
    | some parts =>
      have hafter : ['_', '_'] <:+: s := by simpa [hs] using ih
      rw [splitLastPair?_cons_of_some hs]
      simp [hafter]
    | none =>
      rw [or_iff_left (ih.mp hs)]
      by_cases hpair : ['_', '_'] <+: c :: s
      · obtain ⟨after, heq⟩ := hpair
        obtain ⟨rfl, rfl⟩ := List.cons.inj heq
        refine iff_of_false ?_ (not_not_intro ⟨after, rfl⟩)
        exact splitLastPair?_pair hs ▸ Option.some_ne_none _
      · exact iff_of_true (splitLastPair?_cons_of_none hs hpair) hpair

/-- The last pair is the one before a word that neither has a pair nor makes one with an underscore
before it. -/
theorem splitLastPair?_append (hword : ¬ ['_', '_'] <:+: '_' :: word) :
    splitLastPair? (path ++ '_' :: '_' :: word) = some (path, word) := by
  induction path with
  | nil => exact splitLastPair?_pair (splitLastPair?_eq_none_iff.mpr hword)
  | cons c path ih => exact splitLastPair?_cons_of_some ih c

/-! ## Parts of paths -/

/-- A part of a path whose joints with other parts are found again. -/
structure IsSegment (s : List Char) : Prop where
  ne_nil : s ≠ []
  no_pair : ¬ ['_', '_'] <:+: s
  head_ne : s.head? ≠ some '_'
  getLast_ne : s.getLast? ≠ some '_'

instance (s : List Char) : Decidable (IsSegment s) :=
  decidable_of_iff
    (s ≠ [] ∧ ¬ ['_', '_'] <:+: s ∧ s.head? ≠ some '_' ∧ s.getLast? ≠ some '_')
    ⟨fun ⟨hne, hpair, hhead, hlast⟩ => ⟨hne, hpair, hhead, hlast⟩,
      fun h => ⟨h.ne_nil, h.no_pair, h.head_ne, h.getLast_ne⟩⟩

theorem IsSegment.no_pair_cons (h : IsSegment s) : ¬ ['_', '_'] <:+: '_' :: s := by
  rw [List.infix_cons_iff, not_or]
  refine ⟨?_, h.no_pair⟩
  rintro ⟨rest, heq⟩
  obtain ⟨-, rfl⟩ := List.cons.inj heq
  exact h.head_ne rfl

theorem dotted_append_pair (hpair : ¬ ['_', '_'] <:+: s) (hlast : s.getLast? ≠ some '_')
    (t : List Char) : dotted (s ++ '_' :: '_' :: t) = s ++ '.' :: dotted t := by
  induction s with
  | nil => rfl
  | cons c s ih =>
    rw [List.infix_cons_iff, not_or] at hpair
    have hother : ∀ rest, c = '_' → s ++ '_' :: '_' :: t = '_' :: rest → False := by
      rintro rest rfl heq
      cases s with
      | nil => exact hlast rfl
      | cons d s =>
        obtain ⟨rfl, -⟩ := List.cons.inj heq
        exact hpair.1 ⟨s, rfl⟩
    have hlast' : s.getLast? ≠ some '_' := by
      cases s with
      | nil => simp
      | cons d s => simpa [List.getLast?_cons_cons] using hlast
    rw [List.cons_append, dotted, ih hpair.2 hlast']
    · rfl
    · exact hother

theorem dotted_intercalate {segments : List (List Char)} (h : ∀ s ∈ segments, IsSegment s) :
    dotted (['_', '_'].intercalate segments) = ['.'].intercalate segments := by
  induction segments with
  | nil => rfl
  | cons s segments ih =>
    rw [List.forall_mem_cons] at h
    cases segments with
    | nil => simpa using dotted_eq_self_iff.mpr h.1.no_pair
    | cons t segments =>
      rw [List.intercalate_cons_cons, List.intercalate_cons_cons, List.append_assoc,
        List.append_assoc, ← ih h.2]
      exact dotted_append_pair h.1.no_pair h.1.getLast_ne _

end SearchExpr.Text
