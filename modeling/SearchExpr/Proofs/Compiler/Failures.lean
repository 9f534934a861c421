import SearchExpr.Expr.Description
import SearchExpr.Proofs.Compiler.Folding
import SearchExpr.Proofs.Compiler.Leaves
import SearchExpr.Proofs.Expr.CalendarLimits
import SearchExpr.Proofs.Value.LongNumbers
import SearchExpr.Proofs.Value.Sending

/-! # How compiling fails

The usual compilers report what they cannot compile: a value that is refused, or a comparison that
a field or a day does not support. Two failures are no reports: a date leaves the calendar, or a
value is written as text that holds a whole number with too many digits.
-/

namespace SearchExpr

open SearchExpr.Expr

/-- A failure that is in one of the families which the compiler is said to raise. -/
def Failure.IsReported : Failure → Prop
  | .fault f =>
    .configuration ∈ f.report.family.lineage ∨ .valuePreparation ∈ f.report.family.lineage
  | _ => False

/-- Conditions for the failures that are no reports. -/
def Leaks (leaves long : Prop) : Failure → Prop
  | .beyondCalendar => leaves
  | .tooManyDigits => long
  | _ => False

/-- A failure that is no report happens exactly under its condition. -/
def ReportsUnless {α : Type} (leaks : Failure → Prop) (x : Except Failure α) : Prop :=
  ∀ failure, ¬ failure.IsReported → (x = .error failure ↔ leaks failure)

namespace ReportsUnless

variable {α β : Type} {x : Except Failure α} {f : α → Except Failure β} {a : α}
  {P P' : Failure → Prop} {Q : α → Failure → Prop} {failure : Failure} {leaves : Prop}

theorem not_leaks : ¬ Leaks False False failure := by
  cases failure <;> exact id

theorem ok (a : α) : ReportsUnless (Leaks False False) (.ok a : Except Failure α) :=
  fun _ _ => iff_of_false (fun h => by cases h) not_leaks

theorem beyondCalendar :
    ReportsUnless (Leaks True False) (.error .beyondCalendar : Except Failure α) := by
  intro failure _
  cases failure <;> simp [Leaks]

theorem tooManyDigits :
    ReportsUnless (Leaks False True) (.error .tooManyDigits : Except Failure α) := by
  intro failure _
  cases failure <;> simp [Leaks]

theorem congr (hx : ReportsUnless P x) (h : ∀ failure, P failure ↔ P' failure) :
    ReportsUnless P' x :=
  fun failure hfailure => (hx failure hfailure).trans (h failure)

theorem bind (hx : ReportsUnless P x) (hf : ∀ a, x = .ok a → ReportsUnless (Q a) (f a)) :
    ReportsUnless (fun failure => P failure ∨ ∃ a, x = .ok a ∧ Q a failure) (x >>= f) := by
  intro failure hfailure
  have hP := hx failure hfailure
  cases x with
  | error other => simpa [Bind.bind, Except.bind] using hP
  | ok a =>
    have hnot : ¬ P failure := by simpa using hP
    simpa [Bind.bind, Except.bind, hnot] using hf a rfl failure hfailure

theorem map {g : α → β} (hx : ReportsUnless P x) : ReportsUnless P (x.map g) := by
  intro failure hfailure
  rw [← hx failure hfailure]
  cases x <;> simp [Except.map]

end ReportsUnless

/-! ## Values and filters -/

namespace Value

variable {z : Zone} {key : ZoneKey}

end Value

section

variable {v w : Value} {context : FilterContext}

/-- A builder that supports a value makes a query of it if the value can be sent. -/
theorem FlatBuilder.exists_build {b : FlatBuilder} (field : String)
    (hsupports : b.supports v context = true) (h : v.wire context.zoneKey = .ok w) :
    ∃ q, b.build field v context = .ok q := by
  cases b with
  | absence => exact ⟨_, rfl⟩
  | phrase | queryString =>
    obtain ⟨s, rfl⟩ : ∃ s, v = .str s := by
      cases v <;> simp_all [supports, isText]
    exact ⟨_, rfl⟩
  | term => exact ⟨.termOn field w, by rw [build, h]; rfl⟩

namespace FilterBuilder

theorem supports_of_select {builders : List FilterBuilder} {b : FilterBuilder}
    (h : select builders v context = .ok b) : b.supports v context = true := by
  unfold select at h
  split at h
  case h_1 b' hfind =>
    obtain rfl := Except.ok.inj h
    have hsupports := List.find?_some hfind
    exact hsupports
  case h_2 => contradiction

theorem exists_buildNested (scope : Field) (field : String)
    (h : v.wire context.zoneKey = .ok w) : ∃ q, buildNested scope field v context = .ok q := by
  let inner : FilterContext :=
    { context with nestedScope := true, field := scope.nestedField? (nameAfter scope.name field) }
  have hwire : v.wire inner.zoneKey = .ok w := h
  obtain ⟨q, hq⟩ := FlatBuilder.exists_build field (FlatBuilder.supports_select v inner) hwire
  exact ⟨.nested scope.name q, congrArg (Except.map (Query.nested scope.name)) hq⟩

/-- The builder that is chosen for a value makes a query of it if the value can be sent. -/
theorem exists_build {b : FilterBuilder} (field : String)
    (hselect : select standard v context = .ok b) (h : v.wire context.zoneKey = .ok w) :
    ∃ q, b.build field v context = .ok q := by
  have hsupports := supports_of_select hselect
  cases b with
  | flat b => exact FlatBuilder.exists_build field hsupports h
  | nested =>
    rw [build]
    cases hfield : context.field with
    | none => simp [supports, scope?, hfield] at hsupports
    | some scope => exact exists_buildNested scope field h

end FilterBuilder

end

namespace Compiler

variable {c : Compiler} {z : Zone} {m : Mapping} {locale : Option String} {e : Expr}
  {v : Value} {phrase : Bool} {first last d : Date}

/-! ## Values that are sent -/

end Compiler

namespace Compiler

variable {c : Compiler} {z : Zone} {m : Mapping} {locale : Option String}

end Compiler

end SearchExpr
