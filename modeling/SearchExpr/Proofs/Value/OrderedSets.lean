import Mathlib.Data.List.FinRange
import SearchExpr.Proofs.Value.KeySets

/-! # Union and intersection in order

The union of some sets has, of each key, the value that stands first when they are put one after
another. Their intersection has, of each key that all of them have, the value that stands first in
the first one. Both keep the order of what they are taken from. Values have one key when they are
equal, or identical, which a float that is not a number can only be.
-/

namespace SearchExpr

/-! ## Selected places -/

section

variable {α : Type} {r : α → α → Prop}

/-- The elements at the places that satisfy a condition, in order. -/
def atPlaces (xs : List α) (keep : Fin xs.length → Prop) [DecidablePred keep] : List α :=
  ((List.finRange xs.length).filter fun i => decide (keep i)).map xs.get

theorem atPlaces_congr {xs : List α} {keep keep' : Fin xs.length → Prop} [DecidablePred keep]
    [DecidablePred keep'] (h : ∀ i, keep i ↔ keep' i) : atPlaces xs keep = atPlaces xs keep' := by
  simp only [atPlaces, h]

theorem atPlaces_cons_of_pos {x : α} {xs : List α} {keep : Fin (x :: xs).length → Prop}
    [DecidablePred keep] (h : keep 0) :
    atPlaces (x :: xs) keep = x :: atPlaces xs fun i => keep i.succ := by
  simp [atPlaces, List.finRange_succ, List.filter_map, Function.comp_def, h]

theorem atPlaces_cons_of_neg {x : α} {xs : List α} {keep : Fin (x :: xs).length → Prop}
    [DecidablePred keep] (h : ¬ keep 0) :
    atPlaces (x :: xs) keep = atPlaces xs fun i => keep i.succ := by
  simp [atPlaces, List.finRange_succ, List.filter_map, Function.comp_def, h]

theorem pairwise_atPlaces {xs : List α} {keep : Fin xs.length → Prop} [DecidablePred keep]
    (h : ∀ i j, i < j → keep i → keep j → r xs[i] xs[j]) : (atPlaces xs keep).Pairwise r := by
  rw [atPlaces, List.pairwise_map]
  refine List.Pairwise.imp_of_mem ?_ ((List.pairwise_lt_finRange _).filter _)
  intro i j hi hj hlt
  exact h i j hlt (by simpa using hi) (by simpa using hj)

end

namespace Value

/-! ## Equal and identical values -/

def isNan : Value → Bool
  | float (.nan _) => true
  | _ => false

/-- Whether a comparison finds two values equal. A float that is not a number equals nothing, not
even itself, though a container that is compared takes identical elements for equal ones. -/
def equals (v w : Value) : Bool :=
  v.same w && !v.isNan

theorem eq_of_place?_nowhere {w : Value} {n : Nat} (h : w.place? = some (.nowhere n)) :
    w = float (.nan n) := by
  have hint (m : Int) : some (Place.ofInt m) ≠ some (.nowhere n) := by
    rw [Place.ofInt]
    intro hplace
    cases hplace
  cases w with
  | bool b => exact absurd h (hint _)
  | int m => exact absurd h (hint m)
  | float x =>
    cases x <;> cases h
    rfl
  | _ => cases h

theorem eq_of_same_nan {v w : Value} (hv : v.isNan = true) (h : v.same w = true) : v = w := by
  cases v <;> simp only [isNan, Bool.false_eq_true] at hv
  case float x =>
    cases x <;> simp only [Bool.false_eq_true] at hv
    case nan n =>
      rw [same_of_place? rfl] at h
      exact (eq_of_place?_nowhere h).symm

/-- A look-up takes values for the same that are equal or identical. -/
theorem same_iff_equals {v w : Value} : v.same w = true ↔ v.equals w = true ∨ v = w := by
  constructor
  · intro h
    cases hv : v.isNan with
    | true => exact Or.inr (eq_of_same_nan hv h)
    | false => exact Or.inl (by simp [equals, h, hv])
  · rintro (h | rfl)
    · exact (Bool.and_eq_true_iff.mp h).1
    · exact same_refl v

/-- The key that values would have if identical ones had to be equal. -/
def equalKey (v w : Value) : Bool :=
  v.sameKey w && v.equals w

/-! ## First values -/

/-- No value before one has its key. -/
def IsFirst (key : Value → Value → Bool) (values : List Value) (i : Fin values.length) : Prop :=
  ∀ j < i, key values[i] values[j] = false

instance (key : Value → Value → Bool) (values : List Value) : DecidablePred (IsFirst key values) :=
  fun i => inferInstanceAs (Decidable (∀ j < i, key values[i] values[j] = false))

instance (sets : List (List Value)) : DecidablePred (InEach sets) :=
  fun v => inferInstanceAs
    (Decidable (∀ values ∈ sets, ∃ w ∈ values, v.sameKey w = true))

theorem InEach.of_sameKey {sets : List (List Value)} {v w : Value} (h : InEach sets v)
    (hkey : v.sameKey w = true) : InEach sets w := by
  intro values hvalues
  obtain ⟨u, hu, hvu⟩ := h values hvalues
  exact ⟨u, hu, (sameKey_congr hkey).mp hvu⟩

theorem isFirst_zero (v : Value) (values : List Value) :
    IsFirst sameKey (v :: values) (0 : Fin (values.length + 1)) :=
  fun _ hj => absurd hj (Fin.not_lt_zero _)

theorem isFirst_succ {v : Value} {values : List Value} {i : Fin values.length} :
    IsFirst sameKey (v :: values) i.succ ↔
      values[i].sameKey v = false ∧ IsFirst sameKey values i := by
  constructor
  · intro h
    exact ⟨h 0 i.succ_pos, fun j hj => h j.succ (Fin.succ_lt_succ_iff.mpr hj)⟩
  · rintro ⟨hv, h⟩ j hj
    cases j using Fin.cases with
    | zero => exact hv
    | succ j => exact h j (Fin.succ_lt_succ_iff.mp hj)

theorem isFirst_succ_of_ne {v : Value} {values : List Value} {i : Fin values.length}
    (h : ¬ values[i].sameKey v = true) :
    IsFirst sameKey (v :: values) i.succ ↔ IsFirst sameKey values i :=
  isFirst_succ.trans (and_iff_right (Bool.eq_false_of_not_eq_true h))

section

variable {wanted : Value → Bool}
  (hwanted : ∀ v w, v.sameKey w = true → wanted v = true → wanted w = true)

include hwanted

/-- A wanted value stays if neither those seen nor those before it have its key. -/
theorem distinctFrom_filter (seen values : List Value) :
    distinctFrom (.ofList seen) (values.filter wanted) =
      atPlaces values fun i =>
        wanted values[i] = true ∧ (∀ s ∈ seen, values[i].sameKey s = false) ∧
          IsFirst sameKey values i := by
  induction values generalizing seen with
  | nil => rfl
  | cons u values ih =>
    have hseen : (ValueKeys.ofList seen).contains u = true ↔ ∃ s ∈ seen, u.sameKey s = true := by
      rw [ValueKeys.contains_ofList, List.any_eq_true]
    by_cases hu : wanted u = true
    · rw [List.filter_cons_of_pos hu, distinctFrom]
      split
      case isTrue hcontains =>
        obtain ⟨s, hs, hus⟩ := hseen.mp hcontains
        rw [ih, atPlaces_cons_of_neg (fun h => by simpa [hus] using h.2.1 s hs)]
        refine atPlaces_congr fun i => and_congr_right fun _ => and_congr_right fun hnew => ?_
        refine (isFirst_succ_of_ne fun hiu => ?_).symm
        exact Bool.false_ne_true ((hnew s hs).symm.trans (sameKey_trans hiu hus))
      case isFalse hcontains =>
        have hnew : ∀ s ∈ seen, u.sameKey s = false := fun s hs =>
          Bool.eq_false_of_not_eq_true fun hus => hcontains (hseen.mpr ⟨s, hs, hus⟩)
        rw [ValueKeys.insert_ofList, ih, atPlaces_cons_of_pos ⟨hu, hnew, isFirst_zero u values⟩]
        refine congrArg (u :: ·) (atPlaces_congr fun i => ?_)
        rw [isFirst_succ, List.forall_mem_append, List.forall_mem_singleton, and_assoc]
        rfl
    · rw [List.filter_cons_of_neg hu, ih, atPlaces_cons_of_neg (fun h => hu h.1)]
      refine atPlaces_congr fun i => and_congr_right fun hw => and_congr_right fun _ => ?_
      exact (isFirst_succ_of_ne fun hiu => hu (hwanted _ u hiu hw)).symm

theorem distinct_filter (values : List Value) :
    distinct (values.filter wanted) =
      atPlaces values fun i => wanted values[i] = true ∧ IsFirst sameKey values i := by
  have hfrom := distinctFrom_filter hwanted [] values
  simpa [distinct, ValueKeys.ofList] using hfrom

end

theorem union_eq_atPlaces (sets : List (List Value)) :
    union sets = atPlaces sets.flatten (IsFirst sameKey sets.flatten) := by
  have hall : distinct (sets.flatten.filter fun _ => true) = _ :=
    distinct_filter (by exact fun _ _ _ _ => rfl) sets.flatten
  rw [List.filter_eq_self.mpr fun _ _ => rfl] at hall
  rw [union, hall]
  exact atPlaces_congr fun i => and_iff_right rfl

theorem intersect_eq_atPlaces (first : List Value) (rest : List (List Value)) :
    intersect (first :: rest) =
      atPlaces first fun i => InEach rest first[i] ∧ IsFirst sameKey first i := by
  rw [intersect, distinct_filter]
  · exact atPlaces_congr fun i => and_congr_left' all_contains_iff
  · intro v w hkey hv
    exact all_contains_iff.mpr ((all_contains_iff.mp hv).of_sameKey hkey)

theorem pairwise_atPlaces_isFirst {values : List Value} {keep : Fin values.length → Prop}
    [DecidablePred keep] (h : ∀ i, keep i → IsFirst sameKey values i) :
    (atPlaces values keep).Pairwise fun v w => w.sameKey v = false :=
  pairwise_atPlaces fun i j hlt _ hj => h j hj i hlt

/-- The union of sets and their intersection, in order and with one value of each key, which equal
values and identical ones have in common. -/
theorem union_and_intersect_in_order :
    (∀ v w : Value, v.sameKey w = true ↔
      v.kind = w.kind ∧ (v.equals w = true ∨ v = w) ∧ v.isFrozen = w.isFrozen) ∧
    (∀ sets,
      union sets = atPlaces sets.flatten (IsFirst sameKey sets.flatten) ∧
        (union sets).Pairwise fun v w => w.sameKey v = false) ∧
    ∀ first rest,
      (intersect (first :: rest) =
        atPlaces first fun i => InEach rest first[i] ∧ IsFirst sameKey first i) ∧
        (intersect (first :: rest)).Pairwise fun v w => w.sameKey v = false := by
  refine ⟨fun v w => by rw [sameKey_iff, same_iff_equals],
    fun sets => ⟨union_eq_atPlaces sets, ?_⟩,
    fun first rest => ⟨intersect_eq_atPlaces first rest, ?_⟩⟩
  · rw [union_eq_atPlaces]
    exact pairwise_atPlaces_isFirst fun _ h => h
  · rw [intersect_eq_atPlaces]
    exact pairwise_atPlaces_isFirst fun _ h => h.2

/-- A float that is not a number and stands twice in a set is kept once, though it is not equal to
itself; and it is common to two sets. -/
theorem union_of_repeated_nan :
    let n : Value := float (.nan 0)
    n.equalKey n = false ∧
      union [[n, n]] = [n] ∧ atPlaces [n, n] (IsFirst equalKey [n, n]) = [n, n] ∧
      union [[n, n]] ≠ atPlaces [n, n] (IsFirst equalKey [n, n]) ∧
      intersect [[n], [n]] = [n] := by
  intro n
  have hunion : union [[n, n]] = [n] := by cbv
  have hplaces : atPlaces [n, n] (IsFirst equalKey [n, n]) = [n, n] := by cbv
  refine ⟨by simp [n, equalKey, equals, isNan], hunion, hplaces, ?_, by cbv⟩
  rw [hunion, hplaces]
  simp

/-- Only the same occurrence of a float that is not a number is found again. -/
example : union [[float (.nan 0)], [float (.nan 1), float (.nan 0)]] =
    [float (.nan 0), float (.nan 1)] := by
  cbv

end Value

end SearchExpr
