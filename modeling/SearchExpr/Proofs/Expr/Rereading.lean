import SearchExpr.Engine.Basic
import SearchExpr.Proofs.Checks
import SearchExpr.Proofs.Expr.Trees
import SearchExpr.Proofs.Value.Equality

/-! # Reading an expression back from its description

A description has all that an expression is made of.
-/

namespace SearchExpr

namespace Expr

open Check

variable {e : Expr} {es : List Expr}

theorem toOption_comparison (c : Comparison) :
    Value.toOption Comparison.words (.str c.word) = valid c := by
  cases c <;> rfl

theorem toOption_connective (c : Connective) :
    Value.toOption Connective.words (.str c.word) = valid c := by
  cases c <;> rfl

theorem ofBound_boundDescription (c : Comparison) (v : Value) :
    ofBound (boundDescription c v) = valid (c, v) := by
  simp [ofBound, boundDescription, required_of_lookup, toOption_comparison]

theorem choicesOf_toList (choices : Choices) : choicesOf (.tuple choices.toList) = valid choices :=
  rfl

theorem ofRange_toComparison (field : String) (lower : LowerComparison) (low : Value)
    (upper : UpperComparison) (high : Value) :
    ofRange field (lower.toComparison, low) (upper.toComparison, high) =
      valid (range field lower low upper high) := by
  cases lower <;> cases upper <;> rfl

theorem ofLeafEntries?_entries (he : e.isLeaf = true ∨ e.isConstant = true) :
    ofLeafEntries? e.kindWord ((.str "kind", .str e.kindWord) :: e.entries) = some (valid e) := by
  cases e <;> simp [isLeaf, isConstant] at he <;>
    simp [ofLeafEntries?, kindWord, entries, required_of_lookup, optional_of_lookup,
      toOption_comparison, ofBound_boundDescription, choicesOf_toList, ofRange_toComparison,
      Value.toText, Value.toDay, Value.toBool]

theorem ofDescription_base (he : e.isLeaf = true ∨ e.isConstant = true) :
    ofDescription e.description = valid e := by
  have hread := ofLeafEntries?_entries he
  cases e <;> simp [isLeaf, isConstant] at he <;>
    simp_all [ofDescription, description, describedBy, kindWord]

theorem eachOperand_descriptions (hes : ∀ x ∈ es, ofDescription x.description = valid x) :
    ∀ index, eachOperand index (descriptions es) = valid es := by
  induction es with
  | nil => exact fun _ => rfl
  | cons x es ih =>
    intro index
    rw [List.forall_mem_cons] at hes
    have hx : ofDescription (x.describedBy x.entries) = valid x := hes.1
    rw [descriptions, eachOperand, hx, ih hes.2]
    rfl

theorem description_operation (c : Connective) (es : List Expr) :
    (operation c es).description =
      .dict [(.str "kind", .str "operation"), (.str "operator", .str c.word),
        (.str "operands", .tuple (descriptions es))] := rfl

theorem description_mustNot (e : Expr) :
    (mustNot e).description =
      .dict [(.str "kind", .str "must_not"), (.str "expression", e.description)] := rfl

/-- Reading a description gives the expression that it describes. -/
theorem ofDescription_description (e : Expr) : ofDescription e.description = valid e := by
  induction e using treeInduction with
  | base e he => exact ofDescription_base he
  | operation c es ih =>
    simp [description_operation, ofDescription, operandsIn, operandsOf, optional_of_lookup,
      toOption_connective, eachOperand_descriptions ih]
  | mustNot e ih => simp [description_mustNot, ofDescription, operandIn, ih]

theorem description_injective : Function.Injective description := by
  intro e e' h
  have hread := ofDescription_description e
  rw [h, ofDescription_description] at hread
  cases hread
  rfl

/-! ## The same expression -/

theorem sameAll_iff {es es' : List Expr} :
    sameAll es es' = true ↔ List.Forall₂ (fun e e' => same e e' = true) es es' := by
  induction es generalizing es' with
  | nil => cases es' <;> simp [sameAll]
  | cons e es ih => cases es' <;> simp [sameAll, ih]

theorem same_refl (e : Expr) : e.same e = true := by
  induction e using treeInduction with
  | base e _ => cases e <;> simp_all [same, Value.same_refl, Value.sameAll_refl, isLeaf, isConstant]
  | operation c es ih => simpa [same, sameAll_iff] using ih
  | mustNot e ih => simpa [same] using ih

end Expr

/-! ## Compiling what has been described -/

namespace Engine

end Engine

end SearchExpr
