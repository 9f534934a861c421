import SearchExpr.Proofs.Outcome
import SearchExpr.Proofs.Value.KeySets

/-! # Frozen and changeable forms

Byte strings and sets are equal to their mutable forms, and so are tuples that hold one or the other.
Such tuples are of one kind but not both frozen, so that a look-up, which keeps the frozen values
apart, does not find one by the other. All other values it finds exactly as a comparison with each
of the values in turn does.
-/

namespace SearchExpr

namespace Value

variable {v w x y : Value} {xs ys : List Value}

/-! ## What tuples hold -/

mutual

/-- What a value holds when all tuples in it are opened. -/
def opened : Value → List Value
  | tuple xs => openedAll xs
  | v => [v]

def openedAll : List Value → List Value
  | [] => []
  | x :: xs => opened x ++ openedAll xs

end

mutual

/-- Changes what a value holds and keeps its tuples. -/
def mapOpened (f : Value → Value) : Value → Value
  | tuple xs => tuple (mapOpenedAll f xs)
  | v => f v

def mapOpenedAll (f : Value → Value) : List Value → List Value
  | [] => []
  | x :: xs => mapOpened f x :: mapOpenedAll f xs

end

theorem openedAll_eq (xs : List Value) : openedAll xs = xs.flatMap opened := by
  induction xs with
  | nil => rfl
  | cons x xs ih => rw [openedAll, ih, List.flatMap_cons]

theorem mapOpenedAll_eq (f : Value → Value) (xs : List Value) :
    mapOpenedAll f xs = xs.map (mapOpened f) := by
  induction xs with
  | nil => rfl
  | cons x xs ih => rw [mapOpenedAll, ih, List.map_cons]

theorem opened_tuple (xs : List Value) : (tuple xs).opened = xs.flatMap opened := by
  rw [opened, openedAll_eq]

theorem opened_of_kind_ne (h : v.kind ≠ .tuple) : v.opened = [v] := by
  cases v <;> first | exact absurd rfl h | rfl

theorem mapOpened_tuple (f : Value → Value) (xs : List Value) :
    (tuple xs).mapOpened f = tuple (xs.map (mapOpened f)) := by
  rw [mapOpened, mapOpenedAll_eq]

theorem mapOpened_of_kind_ne (f : Value → Value) (h : v.kind ≠ .tuple) : v.mapOpened f = f v := by
  cases v <;> first | exact absurd rfl h | rfl

theorem exists_tuple_of_kind (h : v.kind = .tuple) : ∃ xs, v = tuple xs := by
  cases v <;> first | exact ⟨_, rfl⟩ | cases h

/-- What holds of all values that are no tuples, and of a tuple if of its members, holds of all. -/
theorem tupleInduction {P : Value → Prop} (other : ∀ v : Value, v.kind ≠ .tuple → P v)
    (tuple : ∀ xs, (∀ x ∈ xs, P x) → P (tuple xs)) (v : Value) : P v := by
  induction v using partsInduction with
  | h v ih =>
    by_cases hv : v.kind = .tuple
    · obtain ⟨xs, rfl⟩ := exists_tuple_of_kind hv
      exact tuple xs ih
    · exact other v hv

theorem kind_of_mem_opened (v : Value) : ∀ x ∈ v.opened, x.kind ≠ .tuple := by
  induction v using tupleInduction with
  | other v hv =>
    rw [opened_of_kind_ne hv]
    simpa using hv
  | tuple xs ih =>
    rw [opened_tuple]
    intro x hx
    obtain ⟨y, hy, hxy⟩ := List.mem_flatMap.mp hx
    exact ih y hy x hxy

theorem allFrozen_iff : allFrozen xs = true ↔ ∀ x ∈ xs, x.isFrozen = true := by
  induction xs with
  | nil => simp [allFrozen]
  | cons x xs ih => simp [allFrozen, ih]

theorem isFrozen_iff_opened (v : Value) :
    v.isFrozen = true ↔ ∀ x ∈ v.opened, x.isFrozen = true := by
  induction v using tupleInduction with
  | other v hv => simp [opened_of_kind_ne hv]
  | tuple xs ih =>
    rw [opened_tuple, List.forall_mem_flatMap, isFrozen, allFrozen_iff]
    exact forall₂_congr ih

theorem kind_of_same_tuple (h : v.same w = true) : v.kind = .tuple ↔ w.kind = .tuple := by
  constructor
  · intro hv
    obtain ⟨xs, rfl⟩ := exists_tuple_of_kind hv
    obtain ⟨ys, rfl, -⟩ := same_tuple.mp h
    rfl
  · intro hw
    obtain ⟨ys, rfl⟩ := exists_tuple_of_kind hw
    obtain ⟨xs, rfl, -⟩ := same_tuple.mp (same_symm v _ h)
    rfl

/-- Equal values hold equal ones, one by one. -/
theorem forall₂_opened (v : Value) : ∀ w, v.same w = true →
    List.Forall₂ (fun x y => same x y = true) v.opened w.opened := by
  induction v using tupleInduction with
  | other v hv =>
    intro w h
    have hw := mt (kind_of_same_tuple h).mpr hv
    rw [opened_of_kind_ne hv, opened_of_kind_ne hw]
    exact .cons h .nil
  | tuple xs ih =>
    intro w h
    obtain ⟨ys, rfl, hall⟩ := same_tuple.mp h
    rw [opened_tuple, opened_tuple]
    clear h
    induction hall with
    | nil => exact .nil
    | cons hxy _ ihall =>
      rw [List.forall_mem_cons] at ih
      exact List.rel_append (ih.1 _ hxy) (ihall ih.2)

theorem opened_mapOpened {f : Value → Value} (hf : ∀ x, x.kind ≠ .tuple → (f x).kind ≠ .tuple)
    (v : Value) : (v.mapOpened f).opened = v.opened.map f := by
  induction v using tupleInduction with
  | other v hv =>
    rw [mapOpened_of_kind_ne f hv, opened_of_kind_ne hv, opened_of_kind_ne (hf v hv)]
    rfl
  | tuple xs ih =>
    rw [mapOpened_tuple, opened_tuple, opened_tuple, List.flatMap_map, List.map_flatMap]
    exact List.flatMap_congr ih

theorem same_mapOpened {f : Value → Value} (hf : ∀ x : Value, x.same (f x) = true) (v : Value) :
    v.same (v.mapOpened f) = true := by
  induction v using tupleInduction with
  | other v hv =>
    rw [mapOpened_of_kind_ne f hv]
    exact hf v
  | tuple xs ih =>
    rw [mapOpened_tuple]
    exact same_tuple.mpr ⟨_, rfl, List.forall₂_map_right_iff.mpr (List.forall₂_same.mpr ih)⟩

/-! ## Two forms -/

/-- Lists and dictionaries are equal to nothing frozen. -/
def isOnlyChangeable : Value → Bool
  | list _ | dict _ => true
  | _ => false

/-- Byte strings and sets are equal to their other form. -/
def hasOtherForm : Value → Bool
  | bytes _ | byteArray _ | set _ | frozenSet _ => true
  | _ => false

def toFrozen : Value → Value
  | byteArray bs => bytes bs
  | set xs => frozenSet xs
  | v => v

def toChangeable : Value → Value
  | bytes bs => byteArray bs
  | frozenSet xs => set xs
  | v => v

/-- The sets that a value holds are sets of frozen values, in which alone a set can look. -/
def HasFrozenMembers (v : Value) : Prop :=
  ∀ x ∈ v.opened, ∀ members, x.members? = some members → allFrozen members = true

/-- A tuple that is equal to a frozen one and to one that is not frozen. -/
structure HasTwoForms (v : Value) : Prop where
  kind_eq : v.kind = .tuple
  none_only : ∀ x ∈ v.opened, x.isOnlyChangeable = false
  exists_other : ∃ x ∈ v.opened, x.hasOtherForm = true

theorem isOnlyChangeable_of_same (h : x.same y = true) (hx : x.isOnlyChangeable = true) :
    y.isOnlyChangeable = true := by
  cases x <;> simp only [isOnlyChangeable, Bool.false_eq_true] at hx
  case list xs =>
    obtain ⟨ys, rfl, -⟩ := same_list.mp h
    rfl
  case dict xs =>
    obtain ⟨ys, rfl, -⟩ := same_dict.mp h
    rfl

theorem isOnlyChangeable_congr (h : x.same y = true) : x.isOnlyChangeable = y.isOnlyChangeable :=
  Bool.eq_iff_iff.mpr ⟨isOnlyChangeable_of_same h, isOnlyChangeable_of_same (same_symm x y h)⟩

theorem hasOtherForm_iff :
    x.hasOtherForm = true ↔ (∃ bs, x.octets? = some bs) ∨ ∃ members, x.members? = some members := by
  cases x <;> simp [hasOtherForm, octets?, members?]

theorem hasOtherForm_of_same (h : x.same y = true) (hx : x.hasOtherForm = true) :
    y.hasOtherForm = true := by
  rw [hasOtherForm_iff] at hx ⊢
  rcases hx with ⟨bs, hbs⟩ | ⟨members, hmembers⟩
  · exact .inl ⟨bs, (same_of_octets? hbs).mp h⟩
  · obtain ⟨members', hmembers', -⟩ := (same_of_members? hmembers).mp h
    exact .inr ⟨members', hmembers'⟩

theorem isOnlyChangeable_eq_false (h : x.isFrozen = true) : x.isOnlyChangeable = false := by
  cases x <;> first | rfl | cases h

/-- What stands in no tuple is frozen or not by its kind. -/
theorem isFrozen_eq_of_kind_ne (hkind : v.kind ≠ .tuple) (hv : v.HasFrozenMembers) :
    v.isFrozen = decide (v.kind ∉ [.list, .dict, .set, .byteArray]) := by
  have hmembers := hv v (by simp [opened_of_kind_ne hkind])
  cases v <;> first | rfl | exact absurd rfl hkind | exact hmembers _ rfl

theorem isFrozen_or_hasOtherForm (hkind : x.kind ≠ .tuple) (hx : x.HasFrozenMembers)
    (honly : x.isOnlyChangeable = false) : x.isFrozen = true ∨ x.hasOtherForm = true := by
  have hfrozen := isFrozen_eq_of_kind_ne hkind hx
  cases x <;> first | exact .inr rfl | exact .inl hfrozen | cases honly

/-! ## Making the other form -/

theorem same_toFrozen (x : Value) : x.same x.toFrozen = true := by
  cases x with
  | byteArray bs => exact (same_of_octets? rfl).mpr rfl
  | set xs => exact (same_of_members? rfl).mpr ⟨xs, rfl, .refl fun x _ => same_refl x⟩
  | _ => exact same_refl _

theorem same_toChangeable (x : Value) : x.same x.toChangeable = true := by
  cases x with
  | bytes bs => exact (same_of_octets? rfl).mpr rfl
  | frozenSet xs => exact (same_of_members? rfl).mpr ⟨xs, rfl, .refl fun x _ => same_refl x⟩
  | _ => exact same_refl _

theorem members?_toFrozen (x : Value) : x.toFrozen.members? = x.members? := by
  cases x <;> rfl

theorem members?_toChangeable (x : Value) : x.toChangeable.members? = x.members? := by
  cases x <;> rfl

theorem isFrozen_toFrozen (hkind : x.kind ≠ .tuple) (hx : x.HasFrozenMembers)
    (honly : x.isOnlyChangeable = false) : x.toFrozen.isFrozen = true := by
  have hmembers := hx x (by simp [opened_of_kind_ne hkind])
  cases x <;> first | rfl | exact absurd rfl hkind | exact hmembers _ rfl | cases honly

theorem isFrozen_toChangeable (h : x.hasOtherForm = true) : x.toChangeable.isFrozen = false := by
  cases x <;> first | rfl | cases h

theorem kind_toFrozen_ne (h : x.kind ≠ .tuple) : x.toFrozen.kind ≠ .tuple :=
  mt (kind_of_same_tuple (same_toFrozen x)).mpr h

theorem kind_toChangeable_ne (h : x.kind ≠ .tuple) : x.toChangeable.kind ≠ .tuple :=
  mt (kind_of_same_tuple (same_toChangeable x)).mpr h

theorem HasFrozenMembers.of_mem (h : v.HasFrozenMembers) (hx : x ∈ v.opened) :
    x.HasFrozenMembers := by
  rw [HasFrozenMembers, opened_of_kind_ne (kind_of_mem_opened v x hx), List.forall_mem_singleton]
  exact h x hx

theorem HasFrozenMembers.mapOpened {f : Value → Value}
    (hf : ∀ x, x.kind ≠ .tuple → (f x).kind ≠ .tuple) (hmembers : ∀ x, (f x).members? = x.members?)
    (h : v.HasFrozenMembers) : (v.mapOpened f).HasFrozenMembers := by
  rw [HasFrozenMembers, opened_mapOpened hf, List.forall_mem_map]
  intro x hx
  rw [hmembers]
  exact h x hx

/-- A tuple with two forms has an equal one in the other form. -/
theorem HasTwoForms.exists_other_form (h : v.HasTwoForms) (hv : v.HasFrozenMembers) :
    ∃ w, w.HasFrozenMembers ∧ v.sameOfKind w = true ∧ w.isFrozen ≠ v.isFrozen := by
  have hkind {w : Value} (hsame : v.same w = true) : v.sameOfKind w = true := by
    rw [sameOfKind, hsame, h.kind_eq, (kind_of_same_tuple hsame).mp h.kind_eq]
    rfl
  cases hfrozen : v.isFrozen with
  | true =>
    refine ⟨v.mapOpened toChangeable, hv.mapOpened (fun _ => kind_toChangeable_ne)
      members?_toChangeable, hkind (same_mapOpened same_toChangeable v), ?_⟩
    obtain ⟨x, hx, hother⟩ := h.exists_other
    intro hall
    rw [isFrozen_iff_opened, opened_mapOpened (fun _ => kind_toChangeable_ne),
      List.forall_mem_map] at hall
    exact Bool.false_ne_true ((isFrozen_toChangeable hother).symm.trans (hall x hx))
  | false =>
    refine ⟨v.mapOpened toFrozen, hv.mapOpened (fun _ => kind_toFrozen_ne) members?_toFrozen,
      hkind (same_mapOpened same_toFrozen v), ?_⟩
    rw [Bool.ne_false_iff, isFrozen_iff_opened, opened_mapOpened (fun _ => kind_toFrozen_ne),
      List.forall_mem_map]
    exact fun x hx =>
      isFrozen_toFrozen (kind_of_mem_opened v x hx) (hv.of_mem hx) (h.none_only x hx)

/-! ## Values of one form -/

theorem HasTwoForms.of_same (h : v.HasTwoForms) (hsame : v.same w = true) : w.HasTwoForms where
  kind_eq := (kind_of_same_tuple hsame).mp h.kind_eq
  none_only := by
    intro y hy
    obtain ⟨x, hx, hxy⟩ := exists_left_of_forall₂ (forall₂_opened v w hsame) hy
    rw [← isOnlyChangeable_congr hxy]
    exact h.none_only x hx
  exists_other := by
    obtain ⟨x, hx, hother⟩ := h.exists_other
    obtain ⟨y, hy, hxy⟩ := exists_right_of_forall₂ (forall₂_opened v w hsame) hx
    exact ⟨y, hy, hasOtherForm_of_same hxy hother⟩

/-- A frozen tuple holds nothing that is changeable only, so what is not frozen in an equal one has
another form. -/
theorem hasTwoForms_of_isFrozen_ne (hkind : v.kind = .tuple) (hsame : v.same w = true)
    (hw : w.HasFrozenMembers) (hv : v.isFrozen = true) (hfrozen : ¬ w.isFrozen = true) :
    v.HasTwoForms := by
  have hpairs := forall₂_opened v w hsame
  have honly : ∀ x ∈ v.opened, x.isOnlyChangeable = false := fun x hx =>
    isOnlyChangeable_eq_false ((isFrozen_iff_opened v).mp hv x hx)
  obtain ⟨y, hy, hyfrozen⟩ : ∃ y ∈ w.opened, ¬ y.isFrozen = true := by
    rw [isFrozen_iff_opened] at hfrozen
    push Not at hfrozen
    exact hfrozen
  obtain ⟨x, hx, hxy⟩ := exists_left_of_forall₂ hpairs hy
  have honly' : y.isOnlyChangeable = false := by rw [← isOnlyChangeable_congr hxy, honly x hx]
  have hother := (isFrozen_or_hasOtherForm (kind_of_mem_opened w y hy) (hw.of_mem hy)
    honly').resolve_left hyfrozen
  exact ⟨hkind, honly, x, hx, hasOtherForm_of_same (same_symm x y hxy) hother⟩

theorem isFrozen_eq_of_sameOfKind (hv : v.HasFrozenMembers) (hw : w.HasFrozenMembers)
    (h : v.sameOfKind w = true) (hone : ¬ v.HasTwoForms) : v.isFrozen = w.isFrozen := by
  rw [sameOfKind, Bool.and_eq_true, beq_iff_eq] at h
  obtain ⟨hkind, hsame⟩ := h
  by_cases htuple : v.kind = .tuple
  · rw [Bool.eq_iff_iff]
    constructor
    · intro hv'
      by_contra hw'
      exact hone (hasTwoForms_of_isFrozen_ne htuple hsame hw hv' hw')
    · intro hw'
      by_contra hv'
      have hsame' := same_symm v w hsame
      have htwo := hasTwoForms_of_isFrozen_ne (hkind ▸ htuple) hsame' hv hw' hv'
      exact hone (htwo.of_same hsame')
  · rw [isFrozen_eq_of_kind_ne htuple hv, isFrozen_eq_of_kind_ne (hkind ▸ htuple) hw, hkind]

end Value

/-! ## Looking up -/

namespace ValueKeys

variable {v : Value}

/-- A look-up finds the values with one key. It finds a value whenever comparing it with all values
does exactly if the value has no other form. -/
theorem contains_ofList_iff_sameOfKind (hv : v.HasFrozenMembers) :
    (∀ values, (ofList values).contains v = true ↔ ∃ u ∈ values, v.sameKey u = true) ∧
    ((∀ values, (∀ u ∈ values, u.HasFrozenMembers) →
      ((ofList values).contains v = true ↔ ∃ u ∈ values, v.sameOfKind u = true)) ↔
        ¬ v.HasTwoForms) := by
  have hcontains (values : List Value) :
      (ofList values).contains v = true ↔ ∃ u ∈ values, v.sameKey u = true := by
    rw [contains_ofList, List.any_eq_true]
  refine ⟨hcontains, ?_⟩
  constructor
  · intro hagree htwo
    obtain ⟨w, hw, hsame, hfrozen⟩ := htwo.exists_other_form hv
    have hiff := hagree [w] (List.forall_mem_singleton.mpr hw)
    simp only [hcontains, List.mem_singleton, exists_eq_left] at hiff
    exact hfrozen (Value.sameKey_iff.mp (hiff.mpr hsame)).2.2.symm
  · intro hone values hvalues
    rw [hcontains]
    refine exists_congr fun u => and_congr_right fun hu => ?_
    rw [Value.sameKey, Bool.and_eq_true, and_iff_left_iff_imp, beq_iff_eq]
    exact fun hsame => Value.isFrozen_eq_of_sameOfKind hv (hvalues u hu) hsame hone

/-- A list has no frozen form, so a tuple with one is found by all equal tuples. -/
theorem contains_ofList_of_tuple_with_list :
    let v := Value.tuple [.bytes [97], .list [.str "b"]]
    let u := Value.tuple [.byteArray [97], .list [.str "b"]]
    v.HasFrozenMembers ∧ u.HasFrozenMembers ∧ ¬ v.HasTwoForms ∧ v.sameOfKind u = true ∧
      (ofList [u]).contains v = true := by
  intro v u
  have hv : v.HasFrozenMembers := by
    simp [v, Value.HasFrozenMembers, Value.opened, Value.openedAll, Value.members?]
  have hu : u.HasFrozenMembers := by
    simp [u, Value.HasFrozenMembers, Value.opened, Value.openedAll, Value.members?]
  have hone : ¬ v.HasTwoForms := fun h =>
    Bool.false_ne_true (h.none_only (.list [.str "b"]) (by
      simp [v, Value.opened, Value.openedAll])).symm
  have hsame : v.sameOfKind u = true := by cbv
  have hagree := (contains_ofList_iff_sameOfKind hv).2.mpr hone [u] (by simpa using hu)
  exact ⟨hv, hu, hone, hsame, hagree.mpr ⟨u, List.mem_singleton_self u, hsame⟩⟩

/-- A tuple of a byte string is not found by the equal tuple of its mutable form. -/
theorem not_contains_of_mutable_form :
    let v := Value.tuple [.bytes [97]]
    let u := Value.tuple [.byteArray [97]]
    (ofList [u]).contains v = false ∧ v.sameOfKind u = true ∧
      ¬ ((ofList [u]).contains v = true ↔ ∃ w ∈ [u], v.sameOfKind w = true) := by
  intro v u
  have hcontains : (ofList [u]).contains v = false := by cbv
  have hsame : v.sameOfKind u = true := by cbv
  refine ⟨hcontains, hsame, fun hiff => ?_⟩
  exact Bool.false_ne_true
    (hcontains.symm.trans (hiff.mpr ⟨u, List.mem_singleton_self u, hsame⟩))

end ValueKeys

end SearchExpr
