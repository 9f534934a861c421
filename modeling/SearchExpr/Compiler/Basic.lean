import SearchExpr.Query.Filter
import SearchExpr.Query.Fulltext
import SearchExpr.Value.Preparer

/-! # Compilers

A compiler is a configuration: how dates are written, how values are prepared, which filters there
are, and whether expressions are optimized first.
-/

namespace SearchExpr

structure Compiler where
  defaultOperator : Connective
  zoneKey : ZoneKey
  preparers : List Preparer
  builders : List FilterBuilder
  fulltext : FulltextBuilder
  optimizes : Bool

namespace Compiler

/-- The parts of a compiler that are given; the others are the usual ones. -/
structure Options where
  defaultOperator : Value := .null
  zoneKey : ZoneKey
  preparers : Option (List Preparer) := none
  builders : Option (List FilterBuilder) := none
  fulltext : Option FulltextBuilder := none
  optimizes : Option Bool := none

def ofOptions (o : Options) : Except Failure Compiler := do
  let operator ← Connective.ofValue o.defaultOperator
  return {
    defaultOperator := operator
    zoneKey := { o.zoneKey with key := o.zoneKey.given }
    preparers := o.preparers.getD Preparer.standard
    builders := o.builders.getD FilterBuilder.standard
    fulltext := o.fulltext.getD ⟨operator, fulltextField⟩
    optimizes := o.optimizes.getD true }

def standard : Compiler where
  defaultOperator := .and
  zoneKey := .tabulated defaultZoneKey
  preparers := Preparer.standard
  builders := FilterBuilder.standard
  fulltext := ⟨.and, fulltextField⟩
  optimizes := true

end Compiler

/-- A field as the index names it, with what is known about it. -/
structure Target where
  name : String
  field : Option Field

/-- The field that an expression means by a name. -/
def Mapping.target (m : Mapping) (locale : Option String) (name : String) : Target :=
  let name := m.resolve locale name
  ⟨name, m.configuration? name⟩

end SearchExpr
