import SearchExpr.Proofs.Compiler.Switching
import SearchExpr.Proofs.Expr.Rewriting
import SearchExpr.Proofs.Expr.SeveralValues

/-! # Sets as they are sent

Sets on a field are merged by the keys of their values, and the values are prepared and written
afterwards. What is sent for the merged set is the union or the intersection of what is sent for the
sets exactly if the keys tell values apart just as what is sent for them does.
-/

namespace SearchExpr

open SearchExpr.Expr

namespace Expr

variable {connective : Connective} {field : String} {cs : Choices} {others : List Choices}

/-! ## Merging sets on one field -/

theorem mergeChoicesFrom_of_done {merge : String → Choices → List Choices → Expr}
    {done : List String} (hdone : field ∈ done) (sets : List Choices) :
    mergeChoicesFrom choices? merge done (sets.map (isIn field)) = [] := by
  induction sets with
  | nil => rfl
  | cons cs sets ih =>
    rw [List.map_cons, mergeChoicesFrom]
    simp only [choices?, List.contains_iff_mem, hdone, if_true, ih]

/-- The set that sets on one field are merged to; a single one is left as it is. -/
def mergedSets (connective : Connective) (field : String) (cs : Choices) :
    List Choices → Expr
  | [] => isIn field cs
  | others => mergedChoices connective field cs others

theorem mergeChoices_sets :
    mergeChoices connective ((cs :: others).map (isIn field)) =
      [mergedSets connective field cs others] := by
  have hothers : (others.map (isIn field)).filterMap (onField choices? field) = others := by
    rw [List.filterMap_map]
    exact (List.filterMap_congr fun cs _ => by simp [onField, choices?]).trans List.filterMap_some
  rw [mergeChoices_eq, List.map_cons, mergeChoicesFrom]
  simp only [choices?, List.contains_nil, Bool.false_eq_true, if_false, hothers,
    mergeChoicesFrom_of_done List.mem_cons_self]
  cases others <;> rfl

theorem mergedSets_cases (connective : Connective) (field : String) (cs : Choices)
    (others : List Choices) :
    (∃ all, mergedSets connective field cs others = isIn field all) ∨
      connective = .and ∧ mergedSets connective field cs others = nothing := by
  cases others with
  | nil => exact Or.inl ⟨cs, rfl⟩
  | cons o os =>
    cases connective with
    | and => exact (mergedChoices_cases .and field cs (o :: os)).imp_right fun h => ⟨rfl, h⟩
    | or => exact Or.inl ⟨_, rfl⟩

theorem optimize?_sets :
    optimize? (operation connective ((cs :: others).map (isIn field))) =
      some (mergedSets connective field cs others) := by
  have hsets : ∀ x ∈ (cs :: others).map (isIn field), IsSet x := by
    intro x hx
    obtain ⟨o, -, rfl⟩ := List.mem_map.mp hx
    exact ⟨field, o, Or.inl rfl⟩
  have hexclusions : mergeExclusions connective [mergedSets connective field cs others] =
      [mergedSets connective field cs others] := by
    rw [mergeExclusions_eq]
    exact mergeChoicesFrom_eq_self (merged_singleton connective _).exclusions (by simp)
  rw [optimize?_of_isSet hsets, mergeChoices_sets, hexclusions, Option.some.injEq]
  rcases mergedSets_cases connective field cs others with ⟨all, hmerged⟩ | ⟨rfl, hmerged⟩
  · rw [hmerged]
    cases connective <;> rfl
  · rw [hmerged]
    rfl

/-- The values of which a condition asks a field to have one. -/
def options : Expr → List Value
  | isIn _ cs => cs.toList
  | _ => []

end Expr

namespace Value

/-- Null, truth values, whole numbers and texts without blanks around them: what is sent as it is
written. -/
def IsSentAsWritten : Value → Prop
  | null | bool _ | int _ => True
  | str s => Preparer.stripped s = str s
  | _ => False

theorem sameKey_iff_eq {v w : Value} (hv : v.IsSentAsWritten) (hw : w.IsSentAsWritten) :
    v.sameKey w = true ↔ v = w := by
  cases v <;> cases w <;>
    simp_all [IsSentAsWritten, sameKey, sameOfKind, same, isFrozen, kind, place?]
  case bool.bool b b' =>
    rw [Place.ofInt_inj]
    cases b <;> cases b' <;> decide
  case int.int n n' => exact Place.ofInt_inj.trans eq_comm

end Value

namespace Compiler

variable {c : Compiler} {R : Value → Value → Prop} {S : Value → Prop} {connective : Connective}
  {field : String} {cs : Choices} {others : List Choices} {e : Expr} {v w a b : Value}

/-! ## What is sent -/

/-- A value is sent, and as one that counts as the given one. -/
def SendsAs (c : Compiler) (R : Value → Value → Prop) (w v : Value) : Prop :=
  ∃ a, c.wireValue v = .ok a ∧ R a w

/-- One of the values that are sent for a condition counts as the given one. -/
def Asks (c : Compiler) (R : Value → Value → Prop) (e : Expr) (w : Value) : Prop :=
  ∃ v ∈ e.options, c.SendsAs R w v

/-- Sets on a field are optimized to one set on it, or to what is false, for which the values are
sent that are sent for one of the sets under `or`, for all of them under `and`. -/
def MergesAsSent (c : Compiler) (R : Value → Value → Prop) (connective : Connective)
    (field : String) (sets : List Choices) : Prop :=
  ∃ e', optimize? (operation connective (sets.map (isIn field))) = some e' ∧
    (e' = nothing ∨ ∃ all, e' = isIn field all) ∧
    ∀ w, c.Asks R e' w ↔
      match connective with
      | .and => ∀ cs ∈ sets, c.Asks R (isIn field cs) w
      | .or => ∃ cs ∈ sets, c.Asks R (isIn field cs) w

/-- Two values have one key exactly if what is sent for them counts as one value. -/
def KeysAsSent (c : Compiler) (R : Value → Value → Prop) (S : Value → Prop) : Prop :=
  ∀ v w a b, S v → S w → c.wireValue v = .ok a → c.wireValue w = .ok b →
    (v.sameKey w = true ↔ R a b)

theorem KeysAsSent.sendsAs_iff (h : c.KeysAsSent R S) (hR : Equivalence R) {u : Value} (hv : S v)
    (hw : S w) (hwire : ∃ b, c.wireValue w = .ok b) (hsent : c.SendsAs R u v) :
    c.SendsAs R u w ↔ v.sameKey w = true := by
  obtain ⟨a, ha, hau⟩ := hsent
  obtain ⟨b, hb⟩ := hwire
  rw [h v w a b hv hw ha hb]
  constructor
  · rintro ⟨b', hb', hbu⟩
    obtain rfl := Except.ok.inj (hb.symm.trans hb')
    exact hR.trans hau (hR.symm hbu)
  · exact fun hab => ⟨b, hb, hR.trans (hR.symm hab) hau⟩

/-- Merging sets of values whose keys agree with what is sent for them. -/
theorem KeysAsSent.mergesAsSent (h : c.KeysAsSent R S) (hR : Equivalence R)
    (hS : ∀ v, S v → ∃ w, c.wireValue v = .ok w)
    (hall : ∀ o ∈ cs :: others, ∀ v ∈ o.toList, S v) :
    c.MergesAsSent R connective field (cs :: others) := by
  have hkeys (u : Value) : ∀ o ∈ cs :: others, ∀ o' ∈ cs :: others, ∀ v ∈ o.toList,
      ∀ w ∈ o'.toList, c.SendsAs R u v → (c.SendsAs R u w ↔ v.sameKey w = true) :=
    fun o ho o' ho' v hv w hw hsent =>
      h.sendsAs_iff hR (hall o ho v hv) (hall o' ho' w hw) (hS w (hall o' ho' w hw)) hsent
  refine ⟨mergedSets connective field cs others, optimize?_sets, ?_, fun u => ?_⟩
  · rcases mergedSets_cases connective field cs others with ⟨all, hmerged⟩ | ⟨-, hmerged⟩
    · exact Or.inr ⟨all, hmerged⟩
    · exact Or.inl hmerged
  · cases others with
    | nil => cases connective <;> simp [mergedSets]
    | cons o os =>
      cases connective with
      | and =>
        refine Iff.trans ?_ (Choices.exists_mem_common_iff (hkeys u))
        simp only [mergedSets, mergedChoices, isInAll]
        cases cs.intersect? (o :: os) with
        | none => simp [Asks, options]
        | some common => simp [Asks, options]
      | or => exact Choices.exists_mem_union_iff (hkeys u)

/-- What is sent for two sets of one value each shows whether keys agree with what is sent. -/
theorem keysAsSent_of_mergesAsSent (hR : Equivalence R)
    (h : ∀ connective field sets, sets ≠ [] → (∀ cs ∈ sets, ∀ v ∈ cs.toList, S v) →
      c.MergesAsSent R connective field sets) : c.KeysAsSent R S := by
  intro v w a b hv hw ha hb
  have hpair (connective : Connective) :
      c.MergesAsSent R connective "" [⟨v, []⟩, ⟨w, []⟩] := by
    refine h connective "" _ (List.cons_ne_nil _ _) fun cs hcs u hu => ?_
    rcases List.mem_pair.mp hcs with rfl | rfl
    · rwa [List.mem_singleton.mp hu]
    · rwa [List.mem_singleton.mp hu]
  have hasks {u x : Value} : c.Asks R (isIn "" ⟨u, []⟩) x ↔ c.SendsAs R x u := by
    simp [Asks, options, Choices.toList]
  have hfirst : c.SendsAs R a v := ⟨a, ha, hR.refl a⟩
  have hsecond : c.SendsAs R b w := ⟨b, hb, hR.refl b⟩
  constructor
  · intro hkey
    obtain ⟨e', he', -, hsent⟩ := hpair .or
    obtain rfl := Option.some.inj (optimize?_sets.symm.trans he')
    obtain ⟨u, hu, hub⟩ :=
      (hsent b).mpr ⟨⟨w, []⟩, List.mem_cons_of_mem _ List.mem_cons_self, hasks.mpr hsecond⟩
    have hunion : u ∈ (Choices.union ⟨v, []⟩ [⟨w, []⟩]).toList := hu
    rw [toList_union_of_sameKey hkey, List.mem_singleton] at hunion
    obtain ⟨a', ha', hab⟩ := hunion ▸ hub
    rwa [Except.ok.inj (ha.symm.trans ha')]
  · intro hab
    rw [← Bool.not_eq_false]
    intro hkey
    obtain ⟨e', he', -, hsent⟩ := hpair .and
    obtain rfl := Option.some.inj (optimize?_sets.symm.trans he')
    have hall : ∀ cs ∈ [⟨v, []⟩, ⟨w, []⟩], c.Asks R (isIn "" cs) a := by
      intro cs hcs
      rcases List.mem_pair.mp hcs with rfl | rfl
      · exact hasks.mpr hfirst
      · exact hasks.mpr ⟨b, hb, hR.symm hab⟩
    obtain ⟨u, hu, -⟩ := (hsent a).mpr hall
    rw [mergedSets, mergedChoices, isInAll, intersect?_of_not_sameKey hkey] at hu
    · exact absurd hu List.not_mem_nil
    · simp

/-! ## Values that are sent as they are written -/

theorem wireValue_of_isSentAsWritten (hc : c.preparers = Preparer.standard)
    (hv : v.IsSentAsWritten) : c.wireValue v = .ok v := by
  rw [wireValue, hc]
  cases v with
  | str s => exact congrArg Except.ok hv
  | null | bool _ | int _ => rfl
  | _ => exact hv.elim

theorem keysAsSent_of_isSentAsWritten (hc : c.preparers = Preparer.standard) :
    c.KeysAsSent Eq Value.IsSentAsWritten := by
  intro v w a b hv hw ha hb
  obtain rfl := Except.ok.inj ((wireValue_of_isSentAsWritten hc hv).symm.trans ha)
  obtain rfl := Except.ok.inj ((wireValue_of_isSentAsWritten hc hw).symm.trans hb)
  exact Value.sameKey_iff_eq hv hw

/-- Sets of values that are sent as they are written are merged as they are sent. -/
theorem mergesAsSent_of_isSentAsWritten (hc : c.preparers = Preparer.standard)
    (hall : ∀ o ∈ cs :: others, ∀ v ∈ o.toList, v.IsSentAsWritten) :
    c.MergesAsSent Eq connective field (cs :: others) :=
  (keysAsSent_of_isSentAsWritten hc).mergesAsSent eq_equivalence
    (fun v hv => ⟨v, wireValue_of_isSentAsWritten hc hv⟩) hall

/-! ## Merging before and after -/

/-- Merging sets of some values comes to the same before and after they are sent exactly if the keys
of these values agree with what is sent for them. -/
theorem mergesAsSent_iff (hR : Equivalence R) (hS : ∀ v, S v → ∃ w, c.wireValue v = .ok w) :
    (∀ connective field sets, sets ≠ [] → (∀ cs ∈ sets, ∀ v ∈ cs.toList, S v) →
      c.MergesAsSent R connective field sets) ↔ c.KeysAsSent R S := by
  refine ⟨keysAsSent_of_mergesAsSent hR, fun h connective field sets hne hall => ?_⟩
  obtain ⟨cs, others, rfl⟩ := List.exists_cons_of_ne_nil hne
  exact h.mergesAsSent hR hS hall

/-- A word, a number and a truth value that equals it, which have keys of their own. -/
theorem mergesAsSent_of_word_and_one :
    Equivalence (@Eq Value) ∧
    (∀ v, v.IsSentAsWritten → ∃ w, standard.wireValue v = .ok w) ∧
    standard.MergesAsSent Eq .or "tags"
      [⟨.str "a", [.int 1]⟩, ⟨.bool true, [.str "a"]⟩] := by
  have hS : ∀ v, v.IsSentAsWritten → ∃ w, standard.wireValue v = .ok w :=
    fun v hv => ⟨v, wireValue_of_isSentAsWritten rfl hv⟩
  have hword : (Value.str "a").IsSentAsWritten := rfl
  refine ⟨eq_equivalence, hS, (mergesAsSent_iff eq_equivalence hS).mpr
    (keysAsSent_of_isSentAsWritten rfl) .or "tags" _ (List.cons_ne_nil _ _) ?_⟩
  intro cs hcs v hv
  rcases List.mem_pair.mp hcs with rfl | rfl
  · rcases List.mem_pair.mp hv with rfl | rfl
    · exact hword
    · trivial
  · rcases List.mem_pair.mp hv with rfl | rfl
    · trivial
    · exact hword

/-- Two spellings of a text that are sent as one, but have no key in common. -/
theorem not_mergesAsSent_of_spellings :
    standard.wireValue (.str "a ") = .ok (.str "a") ∧
    standard.wireValue (.str "a") = .ok (.str "a") ∧
    optimize? (operation .and [isIn "tags" ⟨.str "a ", []⟩, isIn "tags" ⟨.str "a", []⟩]) =
      some nothing ∧
    ¬ standard.MergesAsSent Eq .and "tags" [⟨.str "a ", []⟩, ⟨.str "a", []⟩] := by
  have hfirst : standard.wireValue (.str "a ") = .ok (.str "a") := rfl
  have hsecond : standard.wireValue (.str "a") = .ok (.str "a") := rfl
  have hmerged : optimize? (operation .and [isIn "tags" ⟨.str "a ", []⟩,
      isIn "tags" ⟨.str "a", []⟩]) = some nothing := by cbv
  refine ⟨hfirst, hsecond, hmerged, ?_⟩
  rintro ⟨e', he', -, hsent⟩
  obtain rfl := Option.some.inj (hmerged.symm.trans he')
  have hall : ∀ cs ∈ [⟨.str "a ", []⟩, ⟨.str "a", []⟩],
      standard.Asks Eq (isIn "tags" cs) (.str "a") := by
    intro cs hcs
    rcases List.mem_pair.mp hcs with rfl | rfl
    · exact ⟨_, List.mem_cons_self, _, hfirst, rfl⟩
    · exact ⟨_, List.mem_cons_self, _, hsecond, rfl⟩
  obtain ⟨u, hu, -⟩ := (hsent (.str "a")).mpr hall
  exact absurd hu List.not_mem_nil

end Compiler

end SearchExpr
