import SearchExpr.Check

/-! # Reading what is there

A check of parts that are all there and read without issues is valid. Descriptions have texts for
keys, so the part that a name stands for is found by the names alone.
-/

namespace SearchExpr

namespace Value

@[simp] theorem lookup?_cons (key name : String) (v : Value) (entries : List (Value × Value)) :
    lookup? ((.str key, v) :: entries) name =
      if key = name then some v else lookup? entries name := by
  by_cases h : key = name <;> simp [lookup?, h]

end Value

namespace Check

variable {α β : Type} {entries : List (Value × Value)} {name : String} {v : Value} {default : α}
  {read : Value → Check α} {result : Check α} {c : Check α} {a : α} {b : β}

@[simp] theorem map_valid (f : α → β) (a : α) : f <$> valid a = valid (f a) := rfl

@[simp] theorem seq_valid (f : α → β) (a : α) : valid f <*> valid a = valid (f a) := rfl

@[simp] theorem within_valid (part : String) (a : α) : within part (valid a) = valid a := rfl

@[simp] theorem andThen_valid (a : α) (f : α → Check β) : (valid a).andThen f = f a := rfl

theorem toExcept_eq_ok : c.toExcept = .ok a ↔ c = valid a := by
  cases c <;> simp [toExcept]

theorem seq_eq_valid {f : Check (α → β)} :
    f <*> c = valid b ↔ ∃ g a, f = valid g ∧ c = valid a ∧ g a = b := by
  constructor
  · intro h
    cases f <;> cases c <;> cases h
    exact ⟨_, _, rfl, rfl, rfl⟩
  · rintro ⟨g, a, rfl, rfl, rfl⟩
    rfl

theorem map_eq_valid {f : α → β} : f <$> c = valid b ↔ ∃ a, c = valid a ∧ f a = b := by
  constructor
  · intro h
    cases c <;> cases h
    exact ⟨_, rfl, rfl⟩
  · rintro ⟨a, rfl, rfl⟩
    rfl

theorem within_eq_valid {part : String} : within part c = valid a ↔ c = valid a := by
  cases c <;> simp [within]

theorem andThen_eq_valid {f : α → Check β} :
    c.andThen f = valid b ↔ ∃ a, c = valid a ∧ f a = valid b := by
  cases c <;> simp [andThen]

theorem required_of_lookup (h : Value.lookup? entries name = some v) :
    required entries name read = within name (read v) := by
  simp only [required, h]

theorem optional_of_lookup (h : Value.lookup? entries name = some v) :
    Check.optional entries name default read = within name (read v) := by
  simp only [Check.optional, h]

end Check

end SearchExpr
