import SearchExpr.Proofs.Value.Equality
import SearchExpr.Value.Choices

/-! # Sets of values up to their keys

Values have one key when they are of one kind, equal, and both frozen or both not. Looking a value
up finds exactly the values with its key, so leaving out repetitions loses nothing that can be said
of a key, and the common values are those whose key is everywhere.
-/

namespace SearchExpr

namespace Value

/-- The values that a look-up does not tell apart. -/
def sameKey (v w : Value) : Bool :=
  v.sameOfKind w && v.isFrozen == w.isFrozen

theorem sameKey_iff {v w : Value} :
    v.sameKey w = true ↔ v.kind = w.kind ∧ v.same w = true ∧ v.isFrozen = w.isFrozen := by
  simp [sameKey, sameOfKind, and_assoc]

theorem sameKey_symm {v w : Value} (h : v.sameKey w = true) : w.sameKey v = true := by
  obtain ⟨hkind, hsame, hfrozen⟩ := sameKey_iff.mp h
  exact sameKey_iff.mpr ⟨hkind.symm, same_symm v w hsame, hfrozen.symm⟩

theorem sameKey_trans {v w u : Value} (h : v.sameKey w = true) (h' : w.sameKey u = true) :
    v.sameKey u = true := by
  obtain ⟨hkind, hsame, hfrozen⟩ := sameKey_iff.mp h
  obtain ⟨hkind', hsame', hfrozen'⟩ := sameKey_iff.mp h'
  exact sameKey_iff.mpr
    ⟨hkind.trans hkind', same_trans v w u hsame hsame', hfrozen.trans hfrozen'⟩

theorem sameKey_congr {v w u : Value} (h : v.sameKey w = true) :
    v.sameKey u = true ↔ w.sameKey u = true :=
  ⟨sameKey_trans (sameKey_symm h), sameKey_trans h⟩

end Value

/-! ## Looking values up -/

namespace ValueKeys

theorem contains_empty (v : Value) : empty.contains v = false := by
  simp [contains, empty]

theorem contains_insert (keys : ValueKeys) (u v : Value) :
    (keys.insert u).contains v = (v.sameKey u || keys.contains v) := by
  unfold insert contains Value.sameKey
  cases u.isFrozen <;> cases v.isFrozen <;> simp

theorem contains_foldl_insert (keys : ValueKeys) (values : List Value) (v : Value) :
    (values.foldl insert keys).contains v = (keys.contains v || values.any v.sameKey) := by
  induction values generalizing keys with
  | nil => simp
  | cons u values ih =>
    rw [List.foldl_cons, ih, contains_insert, List.any_cons]
    cases v.sameKey u <;> simp

theorem contains_ofList (values : List Value) (v : Value) :
    (ofList values).contains v = values.any v.sameKey := by
  simp [ofList, contains_foldl_insert, contains_empty]

theorem insert_ofList (values : List Value) (v : Value) :
    (ofList values).insert v = ofList (values ++ [v]) := by
  simp [ofList]

end ValueKeys

/-! ## Distinct values -/

namespace Value

variable {P : Value → Prop}

theorem mem_of_mem_distinctFrom {seen : ValueKeys} {values : List Value} {v : Value}
    (h : v ∈ distinctFrom seen values) : v ∈ values := by
  induction values generalizing seen with
  | nil => exact h
  | cons u values ih =>
    rw [distinctFrom] at h
    split at h
    · exact List.mem_cons_of_mem u (ih h)
    · rcases List.mem_cons.mp h with rfl | h
      · exact List.mem_cons_self
      · exact List.mem_cons_of_mem u (ih h)

/-- What holds of a value left out holds of the one with its key that was seen before. -/
theorem exists_mem_distinctFrom (seen : List Value) {values : List Value}
    (hP : ∀ v ∈ values, ∀ w ∈ seen ++ values, v.sameKey w = true → P v → P w) :
    (∃ v ∈ seen ++ distinctFrom (.ofList seen) values, P v) ↔ ∃ v ∈ seen ++ values, P v := by
  induction values generalizing seen with
  | nil => rfl
  | cons u values ih =>
    have hvalues : ∀ v ∈ values, ∀ w ∈ seen ++ values, v.sameKey w = true → P v → P w :=
      fun v hv w hw => hP v (List.mem_cons_of_mem u hv) w (by grind)
    rw [distinctFrom]
    split
    case isTrue hseen =>
      rw [ih seen hvalues]
      constructor
      · rintro ⟨v, hv, hPv⟩
        exact ⟨v, by grind, hPv⟩
      · rintro ⟨v, hv, hPv⟩
        by_cases hvu : v = u
        · subst hvu
          rw [ValueKeys.contains_ofList, List.any_eq_true] at hseen
          obtain ⟨w, hw, hkey⟩ := hseen
          exact ⟨w, List.mem_append_left _ hw, hP v List.mem_cons_self w (by grind) hkey hPv⟩
        · exact ⟨v, by grind, hPv⟩
    case isFalse =>
      have htail := ih (seen ++ [u]) fun v hv w hw =>
        hP v (List.mem_cons_of_mem u hv) w (by simpa using hw)
      simpa only [List.append_assoc, List.singleton_append, ValueKeys.insert_ofList] using htail

theorem exists_mem_distinct {values : List Value}
    (hP : ∀ v ∈ values, ∀ w ∈ values, v.sameKey w = true → P v → P w) :
    (∃ v ∈ distinct values, P v) ↔ ∃ v ∈ values, P v := by
  simpa [distinct, ValueKeys.ofList] using exists_mem_distinctFrom [] hP

/-- A value that all of some sets have up to its key. -/
def InEach (sets : List (List Value)) (v : Value) : Prop :=
  ∀ values ∈ sets, ∃ w ∈ values, v.sameKey w = true

theorem all_contains_iff {sets : List (List Value)} {v : Value} :
    (sets.map ValueKeys.ofList).all (·.contains v) = true ↔ InEach sets v := by
  simp [InEach, ValueKeys.contains_ofList]

theorem mem_of_mem_intersect {first : List Value} {rest : List (List Value)} {v : Value}
    (h : v ∈ intersect (first :: rest)) : v ∈ first ∧ InEach rest v := by
  have hfilter := List.mem_filter.mp (mem_of_mem_distinctFrom h)
  exact ⟨hfilter.1, all_contains_iff.mp hfilter.2⟩

theorem exists_mem_intersect {first : List Value} {rest : List (List Value)}
    (hP : ∀ v ∈ first, ∀ w ∈ first, v.sameKey w = true → P v → P w) :
    (∃ v ∈ intersect (first :: rest), P v) ↔ ∃ v ∈ first, InEach rest v ∧ P v := by
  rw [intersect, exists_mem_distinct fun v hv w hw =>
    hP v (List.mem_of_mem_filter hv) w (List.mem_of_mem_filter hw)]
  simp only [List.mem_filter, all_contains_iff, and_assoc]

end Value

/-! ## Choices -/

namespace Choices

variable {P : Value → Prop} {c : Choices} {others : List Choices}

theorem mem_union {v : Value} (h : v ∈ (c.union others).toList) :
    ∃ o ∈ c :: others, v ∈ o.toList := by
  rw [toList_union] at h
  obtain ⟨values, hvalues, hv⟩ := List.mem_flatten.mp (Value.mem_of_mem_distinctFrom h)
  obtain ⟨o, ho, rfl⟩ := List.mem_map.mp (show values ∈ (c :: others).map toList from hvalues)
  exact ⟨o, ho, hv⟩

theorem exists_mem_union
    (hP : ∀ o ∈ c :: others, ∀ o' ∈ c :: others, ∀ v ∈ o.toList, ∀ w ∈ o'.toList,
      v.sameKey w = true → P v → P w) :
    (∃ v ∈ (c.union others).toList, P v) ↔ ∃ o ∈ c :: others, ∃ v ∈ o.toList, P v := by
  have hflatten : ∀ v, v ∈ ((c :: others).map toList).flatten ↔
      ∃ o ∈ c :: others, v ∈ o.toList := by simp [List.mem_flatten]
  rw [toList_union, Value.union, ← List.map_cons, Value.exists_mem_distinct]
  · simp only [hflatten]
    constructor
    · rintro ⟨v, ⟨o, ho, hv⟩, hPv⟩
      exact ⟨o, ho, v, hv, hPv⟩
    · rintro ⟨o, ho, v, hv, hPv⟩
      exact ⟨v, ⟨o, ho, hv⟩, hPv⟩
  · intro v hv w hw
    obtain ⟨o, ho, hv⟩ := (hflatten v).mp hv
    obtain ⟨o', ho', hw⟩ := (hflatten w).mp hw
    exact hP o ho o' ho' v hv w hw

theorem toList_of_intersect? {common : Choices} (h : c.intersect? others = some common) :
    common.toList = Value.intersect (c.toList :: others.map toList) := by
  unfold intersect? at h
  cases hvalues : Value.intersect (c.toList :: others.map toList) with
  | nil => simp [hvalues, ofList?] at h
  | cons v vs =>
    simp only [hvalues, ofList?, Option.some.injEq] at h
    subst h
    rfl

theorem intersect?_eq_none_iff :
    c.intersect? others = none ↔ Value.intersect (c.toList :: others.map toList) = [] := by
  unfold intersect?
  cases Value.intersect (c.toList :: others.map toList) <;> simp [ofList?]

theorem mem_intersect? {common : Choices} {v : Value} (h : c.intersect? others = some common)
    (hv : v ∈ common.toList) : v ∈ c.toList := by
  rw [toList_of_intersect? h] at hv
  exact (Value.mem_of_mem_intersect hv).1

/-- A common value with some property of its key is a value of the first set whose key is in all
the others. -/
theorem exists_mem_intersect?
    (hP : ∀ v ∈ c.toList, ∀ w ∈ c.toList, v.sameKey w = true → P v → P w) :
    (∃ common, c.intersect? others = some common ∧ ∃ v ∈ common.toList, P v) ↔
      ∃ v ∈ c.toList, Value.InEach (others.map toList) v ∧ P v := by
  rw [← Value.exists_mem_intersect hP]
  constructor
  · rintro ⟨common, hcommon, hex⟩
    rwa [toList_of_intersect? hcommon] at hex
  · intro hex
    cases hcommon : c.intersect? others with
    | none => simp [intersect?_eq_none_iff.mp hcommon] at hex
    | some common => exact ⟨common, rfl, by rwa [toList_of_intersect? hcommon]⟩

/-! A property that exactly the values with the key of any one that has it have. -/

section

variable (hP : ∀ o ∈ c :: others, ∀ o' ∈ c :: others, ∀ v ∈ o.toList, ∀ w ∈ o'.toList,
  P v → (P w ↔ v.sameKey w = true))

include hP

theorem exists_mem_union_iff :
    (∃ v ∈ (c.union others).toList, P v) ↔ ∃ o ∈ c :: others, ∃ v ∈ o.toList, P v :=
  exists_mem_union fun o ho o' ho' v hv w hw hkey hPv => (hP o ho o' ho' v hv w hw hPv).mpr hkey

theorem exists_mem_common_iff :
    (∃ common, c.intersect? others = some common ∧ ∃ v ∈ common.toList, P v) ↔
      ∀ o ∈ c :: others, ∃ v ∈ o.toList, P v := by
  have hc : c ∈ c :: others := List.mem_cons_self
  rw [exists_mem_intersect? fun v hv w hw hkey hPv => (hP c hc c hc v hv w hw hPv).mpr hkey,
    List.forall_mem_cons]
  constructor
  · rintro ⟨v, hv, heach, hPv⟩
    refine ⟨⟨v, hv, hPv⟩, fun o ho => ?_⟩
    obtain ⟨w, hw, hkey⟩ := heach o.toList (List.mem_map_of_mem ho)
    exact ⟨w, hw, (hP c hc o (List.mem_cons_of_mem c ho) v hv w hw hPv).mpr hkey⟩
  · rintro ⟨⟨v, hv, hPv⟩, hothers⟩
    refine ⟨v, hv, fun values hvalues => ?_, hPv⟩
    obtain ⟨o, ho, rfl⟩ := List.mem_map.mp hvalues
    obtain ⟨w, hw, hPw⟩ := hothers o ho
    exact ⟨w, hw, (hP c hc o (List.mem_cons_of_mem c ho) v hv w hw hPv).mp hPw⟩

end

/-- The choices have a value with the key of a given one. -/
def HasKey (c : Choices) (v : Value) : Prop :=
  ∃ w ∈ c.toList, v.sameKey w = true

theorem hasKey_union_iff (v : Value) :
    (c.union others).HasKey v ↔ ∃ o ∈ c :: others, o.HasKey v :=
  exists_mem_union_iff fun _ _ _ _ _ _ _ _ => Value.sameKey_congr

theorem hasKey_common_iff (v : Value) :
    (∃ common, c.intersect? others = some common ∧ common.HasKey v) ↔
      ∀ o ∈ c :: others, o.HasKey v :=
  exists_mem_common_iff fun _ _ _ _ _ _ _ _ => Value.sameKey_congr

end Choices

end SearchExpr
