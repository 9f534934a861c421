import SearchExpr.Proofs.Outcome
import SearchExpr.Proofs.Text.Blanks
import SearchExpr.Value.Preparer

/-! # Chains of preparers

Preparers that accept a value, commute on it and do nothing the second time can stand in a chain in
any order and any number: what the chain makes of the value depends on which of them it has, and the
result is not changed by the same chain again. The preparers for texts and dates are such ones for
all values but bytes, which only one of them decodes.
-/

namespace SearchExpr

namespace Preparer

/-- Preparers whose order and repetition makes no difference to some values. -/
structure IsOrderFree (family : List Preparer) (accepted : Value → Prop) : Prop where
  exists_run : ∀ p ∈ family, ∀ v, accepted v → ∃ w, p.run v = .ok w ∧ accepted w
  run_comm : ∀ p ∈ family, ∀ q ∈ family, ∀ v, accepted v →
    (p.run v >>= q.run) = (q.run v >>= p.run)
  run_run : ∀ p ∈ family, ∀ v w, accepted v → p.run v = .ok w → p.run w = .ok w

theorem runAll_cons (p : Preparer) (chain : List Preparer) (v : Value) :
    runAll (p :: chain) v = (p.run v >>= runAll chain) :=
  List.foldlM_cons ..

variable {family chain chain' : List Preparer} {accepted : Value → Prop} {p q : Preparer}
  {v w : Value}

namespace IsOrderFree

variable (h : IsOrderFree family accepted)

include h

theorem exists_runAll (hchain : chain ⊆ family) (hv : accepted v) :
    ∃ w, runAll chain v = .ok w ∧ accepted w := by
  induction chain generalizing v with
  | nil => exact ⟨v, rfl, hv⟩
  | cons p chain ih =>
    rw [List.cons_subset] at hchain
    obtain ⟨u, hu, hacc⟩ := h.exists_run p hchain.1 v hv
    obtain ⟨w, hw, hacc'⟩ := ih hchain.2 hacc
    exact ⟨w, by rw [runAll_cons, hu]; exact hw, hacc'⟩

/-- A preparer may run before a chain as well as after it. -/
theorem run_runAll_comm (hp : p ∈ family) (hchain : chain ⊆ family) (hv : accepted v) :
    (p.run v >>= runAll chain) = (runAll chain v >>= p.run) := by
  induction chain generalizing v with
  | nil => exact bind_pure _
  | cons q chain ih =>
    rw [List.cons_subset] at hchain
    obtain ⟨u, hu, hacc⟩ := h.exists_run q hchain.1 v hv
    calc (p.run v >>= runAll (q :: chain))
        = ((p.run v >>= q.run) >>= runAll chain) := by
          rw [bind_assoc]
          exact bind_congr fun u => runAll_cons q chain u
      _ = ((q.run v >>= p.run) >>= runAll chain) := by
          rw [h.run_comm p hp q hchain.1 v hv]
      _ = (p.run u >>= runAll chain) := by rw [hu]; rfl
      _ = (runAll chain u >>= p.run) := ih hchain.2 hacc
      _ = (runAll (q :: chain) v >>= p.run) := by rw [runAll_cons, hu]; rfl

theorem runAll_comm (hchain : chain ⊆ family) (hchain' : chain' ⊆ family) (hv : accepted v) :
    (runAll chain v >>= runAll chain') = (runAll chain' v >>= runAll chain) := by
  induction chain generalizing v with
  | nil => exact (bind_pure _).symm
  | cons p chain ih =>
    rw [List.cons_subset] at hchain
    obtain ⟨u, hu, hacc⟩ := h.exists_run p hchain.1 v hv
    calc (runAll (p :: chain) v >>= runAll chain')
        = (runAll chain u >>= runAll chain') := by rw [runAll_cons, hu]; rfl
      _ = (runAll chain' u >>= runAll chain) := ih hchain.2 hacc
      _ = ((p.run v >>= runAll chain') >>= runAll chain) := by rw [hu]; rfl
      _ = ((runAll chain' v >>= p.run) >>= runAll chain) := by
          rw [h.run_runAll_comm hchain.1 hchain' hv]
      _ = (runAll chain' v >>= runAll (p :: chain)) := by
          rw [bind_assoc]
          exact bind_congr fun u => (runAll_cons p chain u).symm

/-- What a chain has made of a value is not changed by a preparer of the chain. -/
theorem run_of_runAll (hchain : chain ⊆ family) (hv : accepted v) (hw : runAll chain v = .ok w)
    (hp : p ∈ chain) : p.run w = .ok w := by
  induction chain generalizing v with
  | nil => exact absurd hp List.not_mem_nil
  | cons q chain ih =>
    rw [List.cons_subset] at hchain
    obtain ⟨u, hu, hacc⟩ := h.exists_run q hchain.1 v hv
    have hrest : runAll chain u = .ok w := by rwa [runAll_cons, hu] at hw
    rcases List.mem_cons.mp hp with rfl | hp
    · calc p.run w = (runAll chain u >>= p.run) := by rw [hrest]; rfl
        _ = (p.run u >>= runAll chain) := (h.run_runAll_comm hchain.1 hchain.2 hacc).symm
        _ = .ok w := by rw [h.run_run p hchain.1 v u hv hu]; exact hrest
    · exact ih hchain.2 hacc hrest hp

theorem runAll_of_runAll (hchain : chain ⊆ family) (hv : accepted v) (hw : runAll chain v = .ok w)
    (hsub : chain' ⊆ chain) : runAll chain' w = .ok w := by
  induction chain' with
  | nil => rfl
  | cons p chain' ih =>
    rw [List.cons_subset] at hsub
    rw [runAll_cons, h.run_of_runAll hchain hv hw hsub.1]
    exact ih hsub.2

/-- Each of two chains with the same preparers leaves the result of the other as it is. -/
theorem runAll_eq (hchain : chain ⊆ family) (hsame : ∀ p, p ∈ chain ↔ p ∈ chain')
    (hv : accepted v) : runAll chain' v = runAll chain v := by
  have hsub : chain' ⊆ chain := fun p hp => (hsame p).mpr hp
  have hsub' : chain ⊆ chain' := fun p hp => (hsame p).mp hp
  have hchain' : chain' ⊆ family := List.Subset.trans hsub hchain
  obtain ⟨w, hw, -⟩ := h.exists_runAll hchain hv
  obtain ⟨w', hw', -⟩ := h.exists_runAll hchain' hv
  calc runAll chain' v = .ok w' := hw'
    _ = runAll chain w' := (h.runAll_of_runAll hchain' hv hw' hsub').symm
    _ = (runAll chain' v >>= runAll chain) := by rw [hw']; rfl
    _ = (runAll chain v >>= runAll chain') := (h.runAll_comm hchain hchain' hv).symm
    _ = runAll chain' w := by rw [hw]; rfl
    _ = .ok w := h.runAll_of_runAll hchain hv hw hsub
    _ = runAll chain v := hw.symm

end IsOrderFree

/-! ## The preparers for texts and dates -/

/-- The preparers that chains can be made of. -/
def builtIn : List Preparer :=
  [strip, whitespace, date]

theorem mem_builtIn : p ∈ builtIn ↔ p = strip ∨ p = whitespace ∨ p = date := by
  simp [builtIn]

/-- Each preparer rewrites texts, or leaves them alone. -/
theorem exists_rewriting (hp : p ∈ builtIn) :
    ∃ f, (f = Text.strip ∨ f = Text.collapse ∨ f = id) ∧
      ∀ s, p.run (.str s) = .ok (.str (String.ofList (f s.toList))) := by
  rcases mem_builtIn.mp hp with rfl | rfl | rfl
  · exact ⟨Text.strip, .inl rfl, fun _ => rfl⟩
  · exact ⟨Text.collapse, .inr (.inl rfl), fun _ => rfl⟩
  · refine ⟨id, .inr (.inr rfl), fun s => ?_⟩
    rw [id, String.ofList_toList]
    rfl

theorem run_comm_str (hp : p ∈ builtIn) (hq : q ∈ builtIn) (s : String) :
    (p.run (.str s) >>= q.run) = (q.run (.str s) >>= p.run) := by
  obtain ⟨f, hf, hpf⟩ := exists_rewriting hp
  obtain ⟨g, hg, hqg⟩ := exists_rewriting hq
  have hcomm : g (f s.toList) = f (g s.toList) := by
    rcases hf with rfl | rfl | rfl <;> rcases hg with rfl | rfl | rfl <;>
      simp only [id, Text.strip_collapse]
  calc (p.run (.str s) >>= q.run)
      = q.run (.str (String.ofList (f s.toList))) := by rw [hpf]; rfl
    _ = p.run (.str (String.ofList (g s.toList))) := by
        rw [hqg, hpf, String.toList_ofList, String.toList_ofList, hcomm]
    _ = (q.run (.str s) >>= p.run) := by rw [hqg]; rfl

theorem run_run_str (hp : p ∈ builtIn) {s : String} (hw : p.run (.str s) = .ok w) :
    p.run w = .ok w := by
  obtain ⟨f, hf, hpf⟩ := exists_rewriting hp
  have hidem : f (f s.toList) = f s.toList := by
    rcases hf with rfl | rfl | rfl <;>
      simp only [id, Text.strip_strip, Text.collapse_collapse]
  rw [hpf] at hw
  obtain rfl := Except.ok.inj hw
  rw [hpf, String.toList_ofList, hidem]

/-- Only texts and dates are changed, bytes apart. -/
theorem run_eq_ok_self (hp : p ∈ builtIn) (hbytes : v.octets? = none) (htext : ∀ s, v ≠ .str s)
    (hdate : ∀ d, v ≠ .date d) : p.run v = .ok v := by
  rcases mem_builtIn.mp hp with rfl | rfl | rfl <;> cases v <;>
    first
    | rfl
    | contradiction
    | exact absurd rfl (htext _)
    | exact absurd rfl (hdate _)

theorem isOrderFree_builtIn : IsOrderFree builtIn fun v => v.octets? = none where
  exists_run := by
    intro p hp v hv
    cases v with
    | bytes | byteArray => contradiction
    | str s => rcases mem_builtIn.mp hp with rfl | rfl | rfl <;> exact ⟨_, rfl, rfl⟩
    | date d => rcases mem_builtIn.mp hp with rfl | rfl | rfl <;> exact ⟨_, rfl, rfl⟩
    | _ => exact ⟨_, run_eq_ok_self hp hv nofun nofun, hv⟩
  run_comm := by
    intro p hp q hq v hv
    cases v with
    | bytes | byteArray => contradiction
    | str s => exact run_comm_str hp hq s
    | date d =>
      rcases mem_builtIn.mp hp with rfl | rfl | rfl <;>
        rcases mem_builtIn.mp hq with rfl | rfl | rfl <;> rfl
    | _ =>
      have hpv := run_eq_ok_self hp hv nofun nofun
      have hqv := run_eq_ok_self hq hv nofun nofun
      rw [hpv, hqv]
      exact hqv.trans hpv.symm
  run_run := by
    intro p hp v w hv hw
    cases v with
    | bytes | byteArray => contradiction
    | str s => exact run_run_str hp hw
    | date d =>
      rcases mem_builtIn.mp hp with rfl | rfl | rfl <;> obtain rfl := Except.ok.inj hw <;> rfl
    | _ =>
      have hpv := run_eq_ok_self hp hv nofun nofun
      obtain rfl := Except.ok.inj (hpv.symm.trans hw)
      exact hpv

end Preparer

namespace Value

open Preparer

variable {chain chain' : List Preparer} {v : Value}

/-- What a chain makes of a value that is not given as bytes depends on its preparers alone, and is
left as it is when it is prepared again. -/
theorem prepare_builtIn (hchain : chain ⊆ builtIn) (hsame : ∀ p, p ∈ chain ↔ p ∈ chain')
    (hbytes : v.octets? = none) (phrase : Bool) :
    ∃ w, v.prepare chain phrase = .ok w ∧ v.prepare chain' phrase = .ok w ∧
      w.prepare chain phrase = .ok w := by
  cases phrase with
  | true => exact ⟨v, rfl, rfl, rfl⟩
  | false =>
    obtain ⟨w, hw, -⟩ := isOrderFree_builtIn.exists_runAll hchain hbytes
    have heq := isOrderFree_builtIn.runAll_eq hchain hsame hbytes
    have hagain := isOrderFree_builtIn.runAll_of_runAll hchain hbytes hw (List.Subset.refl chain)
    exact ⟨w, hw, heq.trans hw, hagain⟩

theorem prepare_builtIn_of_spaced_text :
    let chain := [Preparer.strip, .whitespace, .date, .strip]
    let chain' := [Preparer.date, .whitespace, .strip]
    chain ⊆ builtIn ∧ (∀ p, p ∈ chain ↔ p ∈ chain') ∧ (str " a  b ").octets? = none ∧
      (str " a  b ").prepare chain false = .ok (str "a b") ∧
      (str " a  b ").prepare chain' false = .ok (str "a b") ∧
      (str "a b").prepare chain false = .ok (str "a b") := by
  intro chain chain'
  have hchain : chain ⊆ builtIn := by simp [chain, builtIn]
  have hsame : ∀ p, p ∈ chain ↔ p ∈ chain' := by
    simp only [chain, chain', List.mem_cons, List.not_mem_nil, or_false]
    tauto
  have hvalue : (str " a  b ").prepare chain false = .ok (str "a b") := rfl
  obtain ⟨w, hw, hw', hagain⟩ := prepare_builtIn (v := str " a  b ") hchain hsame rfl false
  obtain rfl := Except.ok.inj (hw.symm.trans hvalue)
  exact ⟨hchain, hsame, rfl, hw, hw', hagain⟩

end Value

end SearchExpr
