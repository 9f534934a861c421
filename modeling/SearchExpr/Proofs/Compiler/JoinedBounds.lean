import SearchExpr.Proofs.Compiler.Leaves
import SearchExpr.Proofs.Compiler.Reading
import SearchExpr.Proofs.Expr.Pairs
import SearchExpr.Proofs.Value.Sending

/-! # Joined bounds as they are sent

A bound that is a phrase is sent as it is written, but a range prepares both its bounds. So two
bounds are sent for their conjunction as they are sent apart exactly if preparing those that are
phrases makes no difference.
-/

namespace SearchExpr.Compiler

open SearchExpr.Expr

variable {c : Compiler} {m : Mapping} {locale : Option String} {field : String}
  {lower : LowerComparison} {upper : UpperComparison} {v low high a b : Value}
  {phrase phrase' : Bool} {x z : Expr} {answer answer' : Option Query}

/-- A value that is sent prepared as it is sent when it is a phrase. -/
def IsSentAlike (c : Compiler) (v : Value) : Prop :=
  c.wireAs true v = c.wireAs false v

/-- What is sent for a value is what is sent for it in a range if it is no phrase or sent alike. -/
theorem wireAs_false_iff (h : c.wireAs phrase v = .ok a) :
    c.wireAs false v = .ok a ↔ (phrase = true → c.IsSentAlike v) := by
  cases phrase with
  | false => simp [h]
  | true => simp [IsSentAlike, h, eq_comm]

/-- The usual preparers change nothing that is sent but texts with blanks around them and bytes. -/
theorem isSentAlike_iff (hc : c.preparers = Preparer.standard) :
    c.IsSentAlike v ↔
      match v with
      | .str s => Preparer.stripped s = .str s
      | .bytes _ | .byteArray _ => False
      | _ => True := by
  have hraw : c.wireAs true v = v.wire c.zoneKey := rfl
  have hwire : c.wireAs false v = (v.prepare Preparer.standard false).bind (·.wire c.zoneKey) := by
    rw [wireAs, hc]
    rfl
  rw [IsSentAlike, hraw, hwire]
  cases v with
  | str s =>
    have hsent : (.ok (.str s) : Except Failure Value) = .ok (Preparer.stripped s) ↔
        Preparer.stripped s = .str s := by
      rw [Except.ok.injEq]
      exact eq_comm
    exact hsent
  | bytes bs | byteArray bs =>
    refine iff_of_false ?_ id
    rw [Value.prepare_of_octets? rfl]
    cases Text.ofUtf8? bs <;> simp [Except.bind, Value.wire, Value.isDate, Preparer.stripped]
  | _ => exact iff_of_true rfl trivial

theorem compile_range :
    c.compile m locale (range field lower low upper high) = .ok answer ↔
      ∃ a b, c.wireAs false low = .ok a ∧ c.wireAs false high = .ok b ∧
        some (.range (indexName m locale field) [(lowerKey lower, a), (upperKey upper, b)]) =
          answer := by
  rw [compile_leaf c m locale rfl, compileTree_range]

/-- Two bounds that are compiled each are compiled together to one range. It holds both as they are
sent apart exactly if those of them that are phrases are sent alike when they are prepared. -/
theorem compile_joined_bounds_iff (hbuilders : c.builders = FilterBuilder.standard)
    (hoptimizes : c.optimizes = true) (hfield : field ≠ fulltextField)
    (horder : InEitherOrder (value field lower.toComparison low phrase)
      (value field upper.toComparison high phrase') x z)
    (hlow : c.compile m locale (value field lower.toComparison low phrase) = .ok answer)
    (hhigh : c.compile m locale (value field upper.toComparison high phrase') = .ok answer') :
    ∃ name a b, answer = some (.range name [(lowerKey lower, a)]) ∧
      answer' = some (.range name [(upperKey upper, b)]) ∧
      (c.compile m locale (operation .and [x, z]) =
          .ok (some (.range name [(lowerKey lower, a), (upperKey upper, b)])) ↔
        (phrase = true → c.IsSentAlike low) ∧ (phrase' = true → c.IsSentAlike high)) := by
  rw [compile_leaf c m locale rfl, compileTree_lower hbuilders hfield] at hlow
  rw [compile_leaf c m locale rfl, compileTree_upper hbuilders hfield] at hhigh
  obtain ⟨a, ha, rfl⟩ := hlow
  obtain ⟨b, hb, rfl⟩ := hhigh
  refine ⟨indexName m locale field, a, b, rfl, rfl, ?_⟩
  rw [compile_eq_of_optimize? hoptimizes rfl (optimize?_valueBounds_pair hfield horder),
    compile_range, ← wireAs_false_iff ha, ← wireAs_false_iff hb]
  constructor
  · rintro ⟨a', b', ha', hb', heq⟩
    obtain ⟨rfl, rfl⟩ : a' = a ∧ b' = b := by simpa using heq
    exact ⟨ha', hb'⟩
  · rintro ⟨ha', hb'⟩
    exact ⟨a, b, ha', hb', rfl⟩

/-- Bounds in either order, of which one is a phrase without blanks around it. -/
theorem compile_joined_bounds_of_words :
    standard.builders = FilterBuilder.standard ∧ standard.optimizes = true ∧
    "title" ≠ fulltextField ∧
    InEitherOrder (value "title" .ge (.str "a") true) (value "title" .lt (.str " c ") false)
      (value "title" .lt (.str " c ") false) (value "title" .ge (.str "a") true) ∧
    standard.compile ⟨[], none⟩ none (value "title" .ge (.str "a") true) =
      .ok (some (.range "title" [(.gte, .str "a")])) ∧
    standard.compile ⟨[], none⟩ none (value "title" .lt (.str " c ") false) =
      .ok (some (.range "title" [(.lt, .str "c")])) ∧
    ∃ name a b, some (.range "title" [(.gte, .str "a")]) = some (Query.range name [(.gte, a)]) ∧
      some (.range "title" [(.lt, .str "c")]) = some (Query.range name [(.lt, b)]) ∧
      (standard.compile ⟨[], none⟩ none (operation .and
          [value "title" .lt (.str " c ") false, value "title" .ge (.str "a") true]) =
          .ok (some (.range name [(.gte, a), (.lt, b)])) ↔
        (true = true → standard.IsSentAlike (.str "a")) ∧
          (false = true → standard.IsSentAlike (.str " c "))) := by
  have hfield : "title" ≠ fulltextField := by decide
  have horder : InEitherOrder (value "title" LowerComparison.ge.toComparison (.str "a") true)
      (value "title" UpperComparison.lt.toComparison (.str " c ") false)
      (value "title" .lt (.str " c ") false) (value "title" .ge (.str "a") true) :=
    Or.inr ⟨rfl, rfl⟩
  have hlow : standard.compile ⟨[], none⟩ none (value "title" .ge (.str "a") true) =
      .ok (some (.range "title" [(.gte, .str "a")])) := rfl
  have hhigh : standard.compile ⟨[], none⟩ none (value "title" .lt (.str " c ") false) =
      .ok (some (.range "title" [(.lt, .str "c")])) := rfl
  exact ⟨rfl, rfl, hfield, horder, hlow, hhigh,
    compile_joined_bounds_iff rfl rfl hfield horder hlow hhigh⟩

/-- A phrase with a blank before it, which is sent with the blank only on its own. -/
theorem compile_joined_bounds_of_phrase :
    standard.compile ⟨[], none⟩ none (value "f" .ge (.str " a") true) =
      .ok (some (.range "f" [(.gte, .str " a")])) ∧
    standard.compile ⟨[], none⟩ none (value "f" .le (.str "b") false) =
      .ok (some (.range "f" [(.lte, .str "b")])) ∧
    standard.compile ⟨[], none⟩ none (operation .and
        [value "f" .ge (.str " a") true, value "f" .le (.str "b") false]) =
      .ok (some (.range "f" [(.gte, .str "a"), (.lte, .str "b")])) ∧
    standard.compile ⟨[], none⟩ none (operation .and
        [value "f" .ge (.str " a") true, value "f" .le (.str "b") false]) ≠
      .ok (some (.range "f" [(.gte, .str " a"), (.lte, .str "b")])) := by
  have hjoined : standard.compile ⟨[], none⟩ none (operation .and
      [value "f" .ge (.str " a") true, value "f" .le (.str "b") false]) =
      .ok (some (.range "f" [(.gte, .str "a"), (.lte, .str "b")])) := by
    have hrange : optimize? (operation .and
        [value "f" .ge (.str " a") true, value "f" .le (.str "b") false]) =
        some (range "f" .ge (.str " a") .le (.str "b")) :=
      optimize?_values_pair (by decide) .ge .le _ _ _ _
    have hoptimizes : standard.optimizes = true := rfl
    rw [compile_eq_of_optimize? hoptimizes rfl hrange]
    rfl
  refine ⟨rfl, rfl, hjoined, ?_⟩
  rw [hjoined]
  simp

end SearchExpr.Compiler
