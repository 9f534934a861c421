import Mathlib.Data.List.Forall2
import SearchExpr.Proofs.Calendar.EqualTimes
import SearchExpr.Value.Keys

/-! # Equality of values is an equivalence

Numbers are equal when they have one place on the number line, byte strings when they have the
same octets, and sets and dictionaries when each entry of either is matched in the other. On all
values this is an equivalence, which is what a look-up by equality needs.
-/

namespace SearchExpr

theorem twoPow_pos (n : Nat) : 0 < twoPow n :=
  Nat.two_pow_pos n

theorem Place.ofInt_inj {n n' : Int} : Place.ofInt n = Place.ofInt n' ↔ n = n' := by
  have hunits : (Magnitude.unitsPerOne : Int) ≠ 0 :=
    Int.natCast_ne_zero.mpr (Nat.ne_of_gt (twoPow_pos 1074))
  rw [Place.ofInt, Place.ofInt, Place.units.injEq]
  exact Int.mul_eq_mul_right_iff hunits

namespace Value

/-! ## Values by their parts -/

/-- The values that a container is made of. -/
def parts : Value → List Value
  | list xs | tuple xs | set xs | frozenSet xs => xs
  | dict entries => entries.flatMap fun entry => [entry.1, entry.2]
  | _ => []

theorem sizeOf_lt_of_mem_parts {x v : Value} (h : x ∈ v.parts) : sizeOf x < sizeOf v := by
  cases v <;> simp only [parts, List.not_mem_nil] at h
  case dict entries =>
    obtain ⟨⟨key, y⟩, hentry, hx⟩ := List.mem_flatMap.mp h
    have hlt := List.sizeOf_lt_of_mem hentry
    simp only [List.mem_cons, List.not_mem_nil, or_false] at hx
    rcases hx with rfl | rfl <;> simp_all <;> omega
  all_goals
    have hlt := List.sizeOf_lt_of_mem h
    simp_all
    omega

/-- What follows for a value from its parts holds for all values. -/
theorem partsInduction {P : Value → Prop} (h : ∀ v, (∀ x ∈ v.parts, P x) → P v) (v : Value) :
    P v :=
  h v fun x _ => partsInduction h x
termination_by sizeOf v
decreasing_by exact sizeOf_lt_of_mem_parts ‹_›

theorem fst_mem_parts {entries : List (Value × Value)} {entry : Value × Value}
    (h : entry ∈ entries) : entry.1 ∈ (dict entries).parts :=
  List.mem_flatMap.mpr ⟨entry, h, by simp⟩

theorem snd_mem_parts {entries : List (Value × Value)} {entry : Value × Value}
    (h : entry ∈ entries) : entry.2 ∈ (dict entries).parts :=
  List.mem_flatMap.mpr ⟨entry, h, by simp⟩

/-! ## Equality of containers -/

theorem sameAll_iff {xs ys : List Value} :
    sameAll xs ys = true ↔ List.Forall₂ (fun x y => same x y = true) xs ys := by
  induction xs generalizing ys with
  | nil => cases ys <;> simp [sameAll]
  | cons x xs ih => cases ys <;> simp [sameAll, ih]

theorem allFoundIn_iff {xs ys : List Value} :
    allFoundIn xs ys = true ↔ ∀ x ∈ xs, ∃ y ∈ ys, same x y = true := by
  induction xs with
  | nil => simp [allFoundIn]
  | cons x xs ih => simp [allFoundIn, ih]

theorem someSame_iff {xs : List Value} {y : Value} :
    someSame xs y = true ↔ ∃ x ∈ xs, same x y = true := by
  induction xs with
  | nil => simp [someSame]
  | cons x xs ih => simp [someSame, ih]

/-- Two entries with equal keys and equal values. -/
def SameEntry (p q : Value × Value) : Prop :=
  same p.1 q.1 = true ∧ same p.2 q.2 = true

theorem allEntriesIn_iff {xs ys : List (Value × Value)} :
    allEntriesIn xs ys = true ↔ ∀ p ∈ xs, ∃ q ∈ ys, SameEntry p q := by
  induction xs with
  | nil => simp [allEntriesIn]
  | cons p xs ih =>
    obtain ⟨key, x⟩ := p
    simp only [allEntriesIn, Bool.and_eq_true, ih, List.any_eq_true, List.forall_mem_cons]
    rfl

theorem someEntry_iff {xs : List (Value × Value)} {key y : Value} :
    someEntry xs key y = true ↔ ∃ p ∈ xs, SameEntry p (key, y) := by
  induction xs with
  | nil => simp [someEntry]
  | cons p xs ih =>
    obtain ⟨k, x⟩ := p
    simp only [someEntry, Bool.or_eq_true, Bool.and_eq_true, ih, List.exists_mem_cons_iff]
    rfl

/-- Every member of each list is related to one of the other. -/
def Matched {α : Type} (r : α → α → Prop) (xs ys : List α) : Prop :=
  (∀ x ∈ xs, ∃ y ∈ ys, r x y) ∧ ∀ y ∈ ys, ∃ x ∈ xs, r x y

theorem Matched.symm {α : Type} {r : α → α → Prop} {xs ys : List α}
    (hr : ∀ x ∈ xs, ∀ y, r x y → r y x) (h : Matched r xs ys) : Matched r ys xs := by
  constructor
  · intro y hy
    obtain ⟨x, hx, hxy⟩ := h.2 y hy
    exact ⟨x, hx, hr x hx y hxy⟩
  · intro x hx
    obtain ⟨y, hy, hxy⟩ := h.1 x hx
    exact ⟨y, hy, hr x hx y hxy⟩

theorem Matched.trans {α : Type} {r : α → α → Prop} {xs ys zs : List α}
    (hr : ∀ x ∈ xs, ∀ y z, r x y → r y z → r x z) (h : Matched r xs ys) (h' : Matched r ys zs) :
    Matched r xs zs := by
  constructor
  · intro x hx
    obtain ⟨y, hy, hxy⟩ := h.1 x hx
    obtain ⟨z, hz, hyz⟩ := h'.1 y hy
    exact ⟨z, hz, hr x hx y z hxy hyz⟩
  · intro z hz
    obtain ⟨y, hy, hyz⟩ := h'.2 z hz
    obtain ⟨x, hx, hxy⟩ := h.2 y hy
    exact ⟨x, hx, hr x hx y z hxy hyz⟩

/-! ## Equality by kind -/

theorem same_of_place? {v w : Value} {p : Place} (h : v.place? = some p) :
    same v w = true ↔ w.place? = some p := by
  cases v <;> simp only [place?, reduceCtorEq, Option.some.injEq] at h <;> subst h <;>
    simp [same]

theorem same_of_octets? {v w : Value} {bs : List UInt8} (h : v.octets? = some bs) :
    same v w = true ↔ w.octets? = some bs := by
  cases v <;> simp only [octets?, reduceCtorEq, Option.some.injEq] at h <;> subst h <;>
    simp [same]

theorem same_of_members? {v w : Value} {xs : List Value} (h : v.members? = some xs) :
    same v w = true ↔
      ∃ ys, w.members? = some ys ∧ Matched (fun x y => same x y = true) xs ys := by
  cases v <;> simp only [members?, reduceCtorEq, Option.some.injEq] at h <;> subst h <;>
    cases hw : w.members? <;> simp [same, hw, Matched, allFoundIn_iff, someSame_iff]

theorem same_dict {xs : List (Value × Value)} {w : Value} :
    same (dict xs) w = true ↔ ∃ ys, w = dict ys ∧ Matched SameEntry xs ys := by
  cases w <;> simp [same, Matched, allEntriesIn_iff, someEntry_iff]

theorem same_list {xs : List Value} {w : Value} :
    same (list xs) w = true ↔
      ∃ ys, w = list ys ∧ List.Forall₂ (fun x y => same x y = true) xs ys := by
  cases w <;> simp [same, sameAll_iff]

theorem same_tuple {xs : List Value} {w : Value} :
    same (tuple xs) w = true ↔
      ∃ ys, w = tuple ys ∧ List.Forall₂ (fun x y => same x y = true) xs ys := by
  cases w <;> simp [same, sameAll_iff]

theorem same_dateTime {t : DateTime} {w : Value} :
    same (dateTime t) w = true ↔ ∃ u, w = dateTime u ∧ t.same u = true := by
  cases w <;> simp [same]

/-! ## Reflexivity, symmetry and transitivity -/

theorem Matched.refl {α : Type} {r : α → α → Prop} {xs : List α} (hr : ∀ x ∈ xs, r x x) :
    Matched r xs xs :=
  ⟨fun x hx => ⟨x, hx, hr x hx⟩, fun x hx => ⟨x, hx, hr x hx⟩⟩

theorem same_refl (v : Value) : same v v = true := by
  induction v using partsInduction with
  | h v ih =>
    cases v with
    | null => simp [same]
    | bool b => exact (same_of_place? rfl).mpr rfl
    | int n => exact (same_of_place? rfl).mpr rfl
    | float x => exact (same_of_place? rfl).mpr rfl
    | str s => simp [same]
    | bytes bs => exact (same_of_octets? rfl).mpr rfl
    | byteArray bs => exact (same_of_octets? rfl).mpr rfl
    | date d => simp [same]
    | dateTime t => exact same_dateTime.mpr ⟨t, rfl, DateTime.same_refl t⟩
    | list xs => exact same_list.mpr ⟨xs, rfl, List.forall₂_same.mpr ih⟩
    | tuple xs => exact same_tuple.mpr ⟨xs, rfl, List.forall₂_same.mpr ih⟩
    | set xs => exact (same_of_members? rfl).mpr ⟨xs, rfl, .refl ih⟩
    | frozenSet xs => exact (same_of_members? rfl).mpr ⟨xs, rfl, .refl ih⟩
    | dict xs =>
      refine same_dict.mpr ⟨xs, rfl, .refl fun p hp => ?_⟩
      exact ⟨ih _ (fst_mem_parts hp), ih _ (snd_mem_parts hp)⟩

theorem sameAll_refl (vs : List Value) : sameAll vs vs = true :=
  sameAll_iff.mpr (List.forall₂_same.mpr fun v _ => same_refl v)

theorem forall₂_symm {xs ys : List Value}
    (hr : ∀ x ∈ xs, ∀ y, same x y = true → same y x = true)
    (h : List.Forall₂ (fun x y => same x y = true) xs ys) :
    List.Forall₂ (fun x y => same x y = true) ys xs := by
  induction h with
  | nil => exact .nil
  | cons hxy _ ih =>
    rw [List.forall_mem_cons] at hr
    exact .cons (hr.1 _ hxy) (ih hr.2)

theorem forall₂_trans {xs ys zs : List Value}
    (hr : ∀ x ∈ xs, ∀ y z, same x y = true → same y z = true → same x z = true)
    (h : List.Forall₂ (fun x y => same x y = true) xs ys)
    (h' : List.Forall₂ (fun x y => same x y = true) ys zs) :
    List.Forall₂ (fun x y => same x y = true) xs zs := by
  induction h generalizing zs with
  | nil => exact h'
  | cons hxy _ ih =>
    rw [List.forall_mem_cons] at hr
    obtain _ | ⟨hyz, htail⟩ := h'
    exact .cons (hr.1 _ _ hxy hyz) (ih hr.2 htail)

theorem same_symm (v : Value) : ∀ w, same v w = true → same w v = true := by
  induction v using partsInduction with
  | h v ih =>
    intro w h
    cases v with
    | null => cases w <;> simp_all [same]
    | bool b => exact (same_of_place? ((same_of_place? rfl).mp h)).mpr rfl
    | int n => exact (same_of_place? ((same_of_place? rfl).mp h)).mpr rfl
    | float x => exact (same_of_place? ((same_of_place? rfl).mp h)).mpr rfl
    | str s => cases w <;> simp_all [same]
    | bytes bs => exact (same_of_octets? ((same_of_octets? rfl).mp h)).mpr rfl
    | byteArray bs => exact (same_of_octets? ((same_of_octets? rfl).mp h)).mpr rfl
    | date d => cases w <;> simp_all [same]
    | dateTime t =>
      obtain ⟨u, rfl, hu⟩ := same_dateTime.mp h
      exact same_dateTime.mpr ⟨t, rfl, DateTime.same_symm hu⟩
    | list xs =>
      obtain ⟨ys, rfl, hall⟩ := same_list.mp h
      exact same_list.mpr ⟨xs, rfl, forall₂_symm ih hall⟩
    | tuple xs =>
      obtain ⟨ys, rfl, hall⟩ := same_tuple.mp h
      exact same_tuple.mpr ⟨xs, rfl, forall₂_symm ih hall⟩
    | set xs =>
      obtain ⟨ys, hys, hmatch⟩ := (same_of_members? rfl).mp h
      exact (same_of_members? hys).mpr ⟨xs, rfl, hmatch.symm ih⟩
    | frozenSet xs =>
      obtain ⟨ys, hys, hmatch⟩ := (same_of_members? rfl).mp h
      exact (same_of_members? hys).mpr ⟨xs, rfl, hmatch.symm ih⟩
    | dict xs =>
      obtain ⟨ys, rfl, hmatch⟩ := same_dict.mp h
      refine same_dict.mpr ⟨xs, rfl, hmatch.symm fun p hp q hpq => ?_⟩
      exact ⟨ih _ (fst_mem_parts hp) _ hpq.1, ih _ (snd_mem_parts hp) _ hpq.2⟩

theorem same_trans (v : Value) : ∀ w u, same v w = true → same w u = true → same v u = true := by
  induction v using partsInduction with
  | h v ih =>
    intro w u h h'
    cases v with
    | null => cases w <;> simp_all [same]
    | bool b =>
      have hw := (same_of_place? rfl).mp h
      exact (same_of_place? rfl).mpr ((same_of_place? hw).mp h')
    | int n =>
      have hw := (same_of_place? rfl).mp h
      exact (same_of_place? rfl).mpr ((same_of_place? hw).mp h')
    | float x =>
      have hw := (same_of_place? rfl).mp h
      exact (same_of_place? rfl).mpr ((same_of_place? hw).mp h')
    | str s => cases w <;> simp_all [same]
    | bytes bs =>
      have hw := (same_of_octets? rfl).mp h
      exact (same_of_octets? rfl).mpr ((same_of_octets? hw).mp h')
    | byteArray bs =>
      have hw := (same_of_octets? rfl).mp h
      exact (same_of_octets? rfl).mpr ((same_of_octets? hw).mp h')
    | date d => cases w <;> simp_all [same]
    | dateTime t =>
      obtain ⟨w, rfl, hw⟩ := same_dateTime.mp h
      obtain ⟨u, rfl, hu⟩ := same_dateTime.mp h'
      exact same_dateTime.mpr ⟨u, rfl, DateTime.same_trans hw hu⟩
    | list xs =>
      obtain ⟨ys, rfl, hxy⟩ := same_list.mp h
      obtain ⟨zs, rfl, hyz⟩ := same_list.mp h'
      exact same_list.mpr ⟨zs, rfl, forall₂_trans ih hxy hyz⟩
    | tuple xs =>
      obtain ⟨ys, rfl, hxy⟩ := same_tuple.mp h
      obtain ⟨zs, rfl, hyz⟩ := same_tuple.mp h'
      exact same_tuple.mpr ⟨zs, rfl, forall₂_trans ih hxy hyz⟩
    | set xs =>
      obtain ⟨ys, hys, hxy⟩ := (same_of_members? rfl).mp h
      obtain ⟨zs, hzs, hyz⟩ := (same_of_members? hys).mp h'
      exact (same_of_members? rfl).mpr ⟨zs, hzs, hxy.trans ih hyz⟩
    | frozenSet xs =>
      obtain ⟨ys, hys, hxy⟩ := (same_of_members? rfl).mp h
      obtain ⟨zs, hzs, hyz⟩ := (same_of_members? hys).mp h'
      exact (same_of_members? rfl).mpr ⟨zs, hzs, hxy.trans ih hyz⟩
    | dict xs =>
      obtain ⟨ys, rfl, hxy⟩ := same_dict.mp h
      obtain ⟨zs, rfl, hyz⟩ := same_dict.mp h'
      refine same_dict.mpr ⟨zs, rfl, hxy.trans (fun p hp q r hpq hqr => ?_) hyz⟩
      exact ⟨ih _ (fst_mem_parts hp) _ _ hpq.1 hqr.1, ih _ (snd_mem_parts hp) _ _ hpq.2 hqr.2⟩

end Value

end SearchExpr
