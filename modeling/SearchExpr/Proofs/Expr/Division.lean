import Mathlib.Data.List.Perm.Lattice
import SearchExpr.Proofs.Expr.Rewriting

/-! # Dividing a list into parts

A rule that leaves some operands alone and puts others together divides the list: every place is in
one part, and every part becomes one operand at the place of its first. Rules that touch different
operands divide the list together.
-/

namespace SearchExpr.Expr

variable {β γ : Type} {es before after : List Expr} {e : Expr} {g : Expr → Option β} {v : β}
  {i k start : Nat}

/-! ## Places -/

/-- What is read off the elements of a list, with their places counted from a given number. -/
def placed (g : Expr → Option β) (start : Nat) (es : List Expr) : List (Nat × β) :=
  (es.zipIdx start).filterMap fun (e, i) => (g e).map (i, ·)

theorem placed_cons_none (h : g e = none) : placed g start (e :: es) = placed g (start + 1) es := by
  simp [placed, h]

theorem placed_cons_some (h : g e = some v) :
    placed g start (e :: es) = (start, v) :: placed g (start + 1) es := by
  simp [placed, h]

theorem placed_append (es out : List Expr) :
    placed g start (es ++ out) = placed g start es ++ placed g (start + es.length) out := by
  rw [placed, List.zipIdx_append, List.filterMap_append]
  rfl

theorem map_snd_placed (g : Expr → Option β) (start : Nat) (es : List Expr) :
    (placed g start es).map Prod.snd = es.filterMap g := by
  induction es generalizing start with
  | nil => rfl
  | cons e es ih =>
    cases h : g e with
    | none => rw [placed_cons_none h, ih, List.filterMap_cons_none h]
    | some v => rw [placed_cons_some h, List.map_cons, ih, List.filterMap_cons_some h]

theorem length_placed (g : Expr → Option β) (start : Nat) (es : List Expr) :
    (placed g start es).length = (es.filterMap g).length := by
  rw [← map_snd_placed g start, List.length_map]

theorem placed_eq_nil_iff (start : Nat) : placed g start es = [] ↔ es.filterMap g = [] := by
  rw [← List.length_eq_zero_iff, length_placed, List.length_eq_zero_iff]

theorem placed_map {g' : Expr → Option γ} {f : β → γ} (h : ∀ x, g' x = (g x).map f) :
    placed g' start es = (placed g start es).map (Prod.map id f) := by
  rw [placed, placed, List.map_filterMap]
  congr 1
  funext ⟨x, i⟩
  simp only [h]
  cases g x <;> rfl

theorem mem_placed : (i, v) ∈ placed g 0 es ↔ ∃ e, es[i]? = some e ∧ g e = some v := by
  simp [placed, List.mem_zipIdx_iff_getElem?]

theorem getElem?_of_placed (h : (placed g start es)[k]? = some (i, v)) :
    (es.filterMap g)[k]? = some v := by
  rw [← map_snd_placed g start, List.getElem?_map, h, Option.map_some]

theorem lt_length_of_mem_placed (h : (i, v) ∈ placed g 0 es) : i < es.length := by
  obtain ⟨e, he, -⟩ := mem_placed.mp h
  exact (List.getElem?_eq_some_iff.mp he).1

theorem le_of_mem_placed (h : i ∈ (placed g start es).map Prod.fst) : start ≤ i := by
  simp only [placed, List.mem_map, List.mem_filterMap] at h
  obtain ⟨p, ⟨⟨e, j⟩, hj, hp⟩, rfl⟩ := h
  obtain ⟨v, -, rfl⟩ := Option.map_eq_some_iff.mp hp
  exact List.le_snd_of_mem_zipIdx hj

theorem pairwise_placed : ((placed g start es).map Prod.fst).Pairwise (· < ·) := by
  induction es generalizing start with
  | nil => exact .nil
  | cons e es ih =>
    cases h : g e with
    | none => rw [placed_cons_none h]; exact ih
    | some v =>
      rw [placed_cons_some h, List.map_cons, List.pairwise_cons]
      exact ⟨fun i hi => le_of_mem_placed hi, ih⟩

/-- What is read off an element stands after what is read off those before it. -/
theorem placed_split (h : g e = some v) :
    placed g 0 (before ++ e :: after) =
      placed g 0 before ++ (before.length, v) :: placed g (before.length + 1) after := by
  rw [placed_append, Nat.zero_add, placed_cons_some h]

theorem getElem?_placed_split (h : g e = some v) :
    (placed g 0 (before ++ e :: after))[(before.filterMap g).length]? =
      some (before.length, v) := by
  rw [placed_split h, ← length_placed g 0, List.getElem?_append_right (Nat.le_refl _),
    Nat.sub_self, List.getElem?_cons_zero]

/-- An element has one number among those that something is read off. -/
theorem number_unique {k' : Nat} {v' : β} (h : (placed g 0 es)[k]? = some (i, v))
    (h' : (placed g 0 es)[k']? = some (i, v')) : k = k' := by
  have hnodup : ((placed g 0 es).map Prod.fst).Nodup := pairwise_placed.imp Nat.ne_of_lt
  refine (List.getElem?_inj ?_ hnodup).mp ?_
  · rw [List.length_map]
    exact (List.getElem?_eq_some_iff.mp h).1
  · rw [List.getElem?_map, List.getElem?_map, h, h']
    rfl

/-! ## Parts -/

/-- An operand of a result and the places of the operands that it was made from. -/
@[ext] structure Part where
  first : Nat
  others : List Nat
  made : Expr
  ascending : (first :: others).Pairwise (· < ·)

namespace Part

def places (p : Part) : List Nat :=
  p.first :: p.others

theorem first_mem (p : Part) : p.first ∈ p.places :=
  List.mem_cons_self

end Part

/-! ## Rules that divide a list -/

/-- A rule that leaves operands alone or makes parts of them. -/
structure Divides (rule : Rule) (touched : Expr → Prop) (merged : Part → Prop)
    (es : List Expr) : Prop where
  idle : ∀ before e after, ¬ touched e → rule before e after = some e
  acts : ∀ before e after, es = before ++ e :: after → touched e →
    (rule before e after = some e ∧ ∀ p, merged p → before.length ∉ p.places) ∨
      ∃ p, merged p ∧ before.length ∈ p.places ∧
        rule before e after = if p.first = before.length then some p.made else none
  touches : ∀ p, merged p → ∀ i ∈ p.places, ∃ e, es[i]? = some e ∧ touched e
  unique : ∀ p q i, merged p → merged q → i ∈ p.places → i ∈ q.places → p = q

namespace Divides

variable {rule rule' : Rule} {touched touched' : Expr → Prop} {merged merged' : Part → Prop}
  {p q : Part}

theorem touched_of_mem (h : Divides rule touched merged es) (hp : merged p)
    (hmem : before.length ∈ p.places) (hes : es = before ++ e :: after) : touched e := by
  obtain ⟨x, hx, htouched⟩ := h.touches p hp _ hmem
  rw [hes, List.getElem?_append_right (Nat.le_refl _), Nat.sub_self, List.getElem?_cons_zero,
    Option.some.injEq] at hx
  rwa [hx]

/-- Two rules divide a list together if they touch different operands and the second one leaves
alone what the first one makes. -/
theorem andThen (h : Divides rule touched merged es) (h' : Divides rule' touched' merged' es)
    (hdisjoint : ∀ e, touched e → ¬ touched' e) (hmade : ∀ p, merged p → ¬ touched' p.made) :
    Divides (rule.andThen rule') (fun e => touched e ∨ touched' e) (fun p => merged p ∨ merged' p)
      es where
  idle before e after hnot := by
    rw [not_or] at hnot
    rw [Rule.andThen, h.idle _ _ _ hnot.1, Option.bind_some, h'.idle _ _ _ hnot.2]
  acts before e after hes htouched := by
    by_cases he : touched e
    · have hnot := hdisjoint e he
      rcases h.acts before e after hes he with ⟨hkept, hfree⟩ | ⟨p, hp, hmem, hrule⟩
      · refine Or.inl ⟨?_, ?_⟩
        · rw [Rule.andThen, hkept, Option.bind_some, h'.idle _ _ _ hnot]
        · rintro p (hp | hp) hmem
          · exact hfree p hp hmem
          · exact hnot (h'.touched_of_mem hp hmem hes)
      · refine Or.inr ⟨p, Or.inl hp, hmem, ?_⟩
        rw [Rule.andThen, hrule]
        split
        · rw [Option.bind_some, h'.idle _ _ _ (hmade p hp)]
        · rfl
    · have hthen : rule.andThen rule' before e after = rule' before e after := by
        rw [Rule.andThen, h.idle _ _ _ he, Option.bind_some]
      rw [hthen]
      rcases h'.acts before e after hes (htouched.resolve_left he) with
        ⟨hkept, hfree⟩ | ⟨p, hp, hmem, hrule⟩
      · refine Or.inl ⟨hkept, ?_⟩
        rintro p (hp | hp) hmem
        · exact he (h.touched_of_mem hp hmem hes)
        · exact hfree p hp hmem
      · exact Or.inr ⟨p, Or.inr hp, hmem, hrule⟩
  touches := by
    rintro p (hp | hp) i hi
    · obtain ⟨e, he, htouched⟩ := h.touches p hp i hi
      exact ⟨e, he, Or.inl htouched⟩
    · obtain ⟨e, he, htouched⟩ := h'.touches p hp i hi
      exact ⟨e, he, Or.inr htouched⟩
  unique := by
    have hapart : ∀ p q i, merged p → merged' q → i ∈ p.places → i ∉ q.places := by
      intro p q i hp hq hi hi'
      obtain ⟨e, he, htouched⟩ := h.touches p hp i hi
      obtain ⟨e', he', htouched'⟩ := h'.touches q hq i hi'
      rw [he, Option.some.injEq] at he'
      exact hdisjoint e htouched (he' ▸ htouched')
    rintro p q i (hp | hp) (hq | hq) hi hi'
    · exact h.unique p q i hp hq hi hi'
    · exact absurd hi' (hapart p q i hp hq hi)
    · exact absurd hi (hapart q p i hq hp hi')
    · exact h'.unique p q i hp hq hi hi'

/-- A part of a rule, or an operand in none of them on its own. -/
def IsPart (merged : Part → Prop) (es : List Expr) (p : Part) : Prop :=
  merged p ∨
    p.others = [] ∧ es[p.first]? = some p.made ∧ ∀ q, merged q → p.first ∉ q.places

/-- Every operand is in a part, which stands at the place of its first. -/
theorem exists_part (h : Divides rule touched merged es) (hes : es = before ++ e :: after) :
    ∃ p, IsPart merged es p ∧ before.length ∈ p.places ∧
      rule before e after = if p.first = before.length then some p.made else none := by
  have halone (hrule : rule before e after = some e)
      (hfree : ∀ q, merged q → before.length ∉ q.places) :
      ∃ p, IsPart merged es p ∧ before.length ∈ p.places ∧
        rule before e after = if p.first = before.length then some p.made else none := by
    refine ⟨⟨before.length, [], e, List.pairwise_singleton _ _⟩, Or.inr ⟨rfl, ?_, hfree⟩,
      List.mem_cons_self, ?_⟩
    · simp [hes]
    · rw [hrule, if_pos rfl]
  by_cases he : touched e
  · rcases h.acts before e after hes he with ⟨hkept, hfree⟩ | ⟨p, hp, hmem, hrule⟩
    · exact halone hkept hfree
    · exact ⟨p, Or.inl hp, hmem, hrule⟩
  · exact halone (h.idle _ _ _ he) fun q hq hmem => he (h.touched_of_mem hq hmem hes)

theorem isPart_unique (h : Divides rule touched merged es) (hp : IsPart merged es p)
    (hq : IsPart merged es q) (hi : i ∈ p.places) (hi' : i ∈ q.places) : p = q := by
  have hplace {r : Part} (hothers : r.others = []) (hr : i ∈ r.places) : i = r.first := by
    rwa [Part.places, hothers, List.mem_singleton] at hr
  rcases hp with hp | ⟨hothers, hmade, hfree⟩ <;> rcases hq with hq | ⟨hothers', hmade', hfree'⟩
  · exact h.unique p q i hp hq hi hi'
  · exact absurd (hplace hothers' hi' ▸ hi) (hfree' p hp)
  · exact absurd (hplace hothers hi ▸ hi') (hfree q hq)
  · have hfirst : p.first = q.first := (hplace hothers hi).symm.trans (hplace hothers' hi')
    rw [hfirst, hmade', Option.some.injEq] at hmade
    exact Part.ext hfirst (hothers.trans hothers'.symm) hmade.symm

theorem lt_length_of_mem (h : Divides rule touched merged es) (hp : IsPart merged es p)
    (hi : i ∈ p.places) : i < es.length := by
  suffices hget : ∃ e, es[i]? = some e by
    obtain ⟨e, he⟩ := hget
    exact (List.getElem?_eq_some_iff.mp he).1
  rcases hp with hp | ⟨hothers, hmade, -⟩
  · obtain ⟨e, he, -⟩ := h.touches p hp i hi
    exact ⟨e, he⟩
  · rw [Part.places, hothers, List.mem_singleton] at hi
    exact ⟨_, hi ▸ hmade⟩

/-- What operands after others become, part by part. -/
theorem exists_parts_from (h : Divides rule touched merged es) (hes : es = before ++ after) :
    ∃ parts : List Part, rule.run before after = parts.map Part.made ∧
      parts.Pairwise (·.first < ·.first) ∧
        ∀ p, p ∈ parts ↔ IsPart merged es p ∧ before.length ≤ p.first := by
  induction after generalizing before with
  | nil =>
    refine ⟨[], rfl, .nil, fun p => ⟨fun hp => absurd hp List.not_mem_nil, ?_⟩⟩
    rintro ⟨hp, hle⟩
    have hlt := h.lt_length_of_mem hp p.first_mem
    rw [hes, List.append_nil] at hlt
    omega
  | cons e after ih =>
    obtain ⟨parts, hrun, hsorted, hmem⟩ := ih (hes.trans (List.append_cons before e after))
    simp only [List.length_append, List.length_singleton] at hmem
    obtain ⟨p, hp, hplace, hrule⟩ := h.exists_part hes
    rw [Rule.run, hrun, hrule]
    split
    case isTrue hfirst =>
      refine ⟨p :: parts, rfl, List.pairwise_cons.mpr ⟨fun q hq => ?_, hsorted⟩, fun q => ?_⟩
      · have hle := ((hmem q).mp hq).2
        omega
      · rw [List.mem_cons, hmem]
        constructor
        · rintro (rfl | ⟨hq, hle⟩)
          · exact ⟨hp, Nat.le_of_eq hfirst.symm⟩
          · exact ⟨hq, by omega⟩
        · rintro ⟨hq, hle⟩
          rcases Nat.eq_or_lt_of_le hle with heq | hlt
          · exact Or.inl (h.isPart_unique hq hp (heq ▸ q.first_mem) hplace)
          · exact Or.inr ⟨hq, hlt⟩
    case isFalse hfirst =>
      refine ⟨parts, rfl, hsorted, fun q => (hmem q).trans (and_congr_right fun hq => ?_)⟩
      refine ⟨fun hle => by omega, fun hle => Nat.lt_of_le_of_ne hle fun heq => hfirst ?_⟩
      rw [← h.isPart_unique hq hp (heq ▸ q.first_mem) hplace, heq]

/-- The parts of a list take up each of its places once, and their firsts stand in order. -/
theorem exists_parts (h : Divides rule touched merged es) :
    ∃ parts : List Part, rule.run [] es = parts.map Part.made ∧
      (∀ p ∈ parts, IsPart merged es p) ∧
      (parts.flatMap Part.places).Perm (List.range es.length) ∧
      parts.Pairwise (·.first < ·.first) := by
  obtain ⟨parts, hrun, hsorted, hmem⟩ := h.exists_parts_from (List.nil_append es).symm
  simp only [List.length_nil, Nat.zero_le, and_true] at hmem
  have hnodup : (parts.flatMap Part.places).Nodup := by
    refine List.nodup_flatMap.mpr ⟨fun p _ => p.ascending.imp Nat.ne_of_lt, ?_⟩
    refine hsorted.imp_of_mem fun {p q} hp hq hlt => ?_
    intro i hi hi'
    rw [h.isPart_unique ((hmem p).mp hp) ((hmem q).mp hq) hi hi'] at hlt
    exact Nat.lt_irrefl _ hlt
  refine ⟨parts, hrun, fun p => (hmem p).mp,
    (List.perm_ext_iff_of_nodup hnodup List.nodup_range).mpr fun i => ?_, hsorted⟩
  rw [List.mem_flatMap, List.mem_range]
  constructor
  · rintro ⟨p, hp, hi⟩
    exact h.lt_length_of_mem ((hmem p).mp hp) hi
  · intro hi
    have hes : es = es.take i ++ es[i] :: es.drop (i + 1) := by simp
    obtain ⟨p, hp, hplace, -⟩ := h.exists_part hes
    rw [List.length_take_of_le (Nat.le_of_lt hi)] at hplace
    exact ⟨p, (hmem p).mpr hp, hplace⟩

end Divides

end SearchExpr.Expr
