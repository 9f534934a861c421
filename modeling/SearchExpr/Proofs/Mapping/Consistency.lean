import Mathlib.Tactic.TFAE
import SearchExpr.Proofs.Mapping.Lookup
import SearchExpr.Proofs.Value.Equality

/-! # Consistent mappings

The mappings that can be described are those whose fields have different names and are consistent,
however deep they are nested. The description that is written of such a mapping is read as this
mapping again.
-/

namespace SearchExpr

open Check

namespace Field

variable {f g : Field} {fs : List Field} {v : Value} {vs : List Value}
  {entries : List (Value × Value)} {index : Nat}

/-! ## What fields are nested in a field -/

/-- A field is nested in another one, at any depth, or is the field itself. -/
inductive Contains : Field → Field → Prop where
  | self (f : Field) : Contains f f
  | deeper {f g h : Field} (hg : g ∈ f.nestedFields) (hh : Contains g h) : Contains f h

/-- The type of a field goes with what is configured of the field, the fields nested in it apart. -/
structure IsConsistent (f : Field) : Prop where
  typed : f.type.word ∈ ["text", "keyword", "boolean", "date", "long", "integer", "double", "float",
    "nested", "object"]
  nested : f.nestedFields ≠ [] → f.isNested = true
  languages : f.multilingual = true → f.type = .text ∨ f.type = .keyword

def IsConsistentThroughout (f : Field) : Prop :=
  ∀ g, f.Contains g → g.IsConsistent

theorem isConsistentThroughout_iff : f.IsConsistentThroughout ↔
    f.IsConsistent ∧ ∀ g ∈ f.nestedFields, g.IsConsistentThroughout := by
  constructor
  · intro h
    exact ⟨h f (.self f), fun g hg x hx => h x (.deeper hg hx)⟩
  · rintro ⟨hf, hnested⟩ g hg
    cases hg with
    | self => exact hf
    | deeper hg hh => exact hnested _ hg _ hh

/-! ## Reading fields -/

theorem consistent_eq_valid : consistent f = valid g ↔ f.IsConsistent ∧ f = g := by
  have htyped : f.type.word ∈ ["text", "keyword", "boolean", "date", "long", "integer", "double",
      "float", "nested", "object"] := by
    cases f.type <;> decide
  unfold consistent
  split_ifs with hnested hlanguages
  · simp only [false_iff]
    rintro ⟨hf, -⟩
    have hin := hf.nested
    simp_all
  · simp only [false_iff]
    rintro ⟨hf, -⟩
    have hin := hf.languages
    simp_all
  · rw [valid.injEq, iff_and_self]
    rintro -
    refine ⟨htyped, fun hne => ?_, fun hmultilingual => ?_⟩
    · simpa [hne] using hnested
    · simpa [hmultilingual, or_iff_not_imp_left] using hlanguages

theorem eachField_eq_valid : eachField index vs = valid fs ↔
    List.Forall₂ (fun v f => ofDescription v = valid f) vs fs := by
  induction vs generalizing index fs with
  | nil => cases fs <;> simp [eachField]
  | cons v vs ih =>
    rw [eachField, seq_eq_valid, List.forall₂_cons_left_iff]
    simp only [map_eq_valid, within_eq_valid, ih]
    constructor
    · rintro ⟨_, fs, ⟨f, hf, rfl⟩, hfs, rfl⟩
      exact ⟨f, fs, hf, hfs, rfl⟩
    · rintro ⟨f, fs, hf, hfs, rfl⟩
      exact ⟨_, fs, ⟨f, hf, rfl⟩, hfs, rfl⟩

theorem forall₂_of_nestedFieldsOf (h : nestedFieldsOf v = valid fs) :
    List.Forall₂ (fun v f => ofDescription v = valid f) v.parts fs := by
  cases v <;> first
    | exact eachField_eq_valid.mp h
    | cases h

theorem exists_of_nestedFieldsIn (h : nestedFieldsIn entries = valid fs) :
    fs = [] ∨ ∃ entry ∈ entries, nestedFieldsOf entry.2 = valid fs := by
  induction entries with
  | nil =>
    cases h
    exact Or.inl rfl
  | cons entry rest ih =>
    unfold nestedFieldsIn at h
    split at h
    case h_1 heq => cases heq
    case h_2 v rest' heq =>
      obtain ⟨rfl, rfl⟩ := List.cons.inj heq
      exact Or.inr ⟨_, List.mem_cons_self, within_eq_valid.mp h⟩
    case h_3 heq =>
      obtain ⟨rfl, rfl⟩ := List.cons.inj heq
      refine (ih h).imp_right ?_
      rintro ⟨other, hother, h⟩
      exact ⟨other, List.mem_cons_of_mem _ hother, h⟩

theorem nestedFieldsIn_of_ofDescription (h : ofDescription (.dict entries) = valid f) :
    f.IsConsistent ∧ nestedFieldsIn entries = valid f.nestedFields := by
  rw [ofDescription, andThen_eq_valid] at h
  obtain ⟨f', hread, hconsistent⟩ := h
  obtain ⟨hf, rfl⟩ := consistent_eq_valid.mp hconsistent
  refine ⟨hf, ?_⟩
  obtain ⟨_, absenceAsFalse, hparts, -, rfl⟩ := seq_eq_valid.mp hread
  obtain ⟨_, nestedFields, hothers, hnested, rfl⟩ := seq_eq_valid.mp hparts
  simp only [seq_eq_valid, map_eq_valid] at hothers
  obtain ⟨_, _, ⟨_, _, ⟨_, _, ⟨_, _, ⟨_, -, rfl⟩, -, rfl⟩, -, rfl⟩, -, rfl⟩, -, rfl⟩ := hothers
  exact hnested

-- The elements of a list of nested fields are parts of a part of the description, so both readers
-- are followed together.
/-- Fields that are read from a description are consistent, and so is all that is nested in them. -/
theorem isConsistentThroughout_of_ofDescription (v : Value) :
    (∀ f, ofDescription v = valid f → f.IsConsistentThroughout) ∧
      ∀ fs, nestedFieldsOf v = valid fs → ∀ f ∈ fs, f.IsConsistentThroughout := by
  induction v using Value.partsInduction with
  | h v ih =>
    constructor
    · intro f hf
      cases v
      case dict entries =>
        obtain ⟨hconsistent, hnested⟩ := nestedFieldsIn_of_ofDescription hf
        refine isConsistentThroughout_iff.mpr ⟨hconsistent, ?_⟩
        rcases exists_of_nestedFieldsIn hnested with hnil | ⟨entry, hentry, hread⟩
        · simp [hnil]
        · exact (ih entry.2 (Value.snd_mem_parts hentry)).2 _ hread
      all_goals cases hf
    · intro fs hfs f hf
      obtain ⟨x, hx, h⟩ := exists_left_of_forall₂ (forall₂_of_nestedFieldsOf hfs) hf
      exact (ih x hx).1 f h

/-! ## Reading descriptions of fields back -/

theorem ofValue_word (t : FieldType) : FieldType.ofValue (.str t.word) = valid t := by
  cases t <;> rfl

theorem sizeOf_lt_of_mem_nestedFields (h : g ∈ f.nestedFields) : sizeOf g < sizeOf f := by
  have hlt := List.sizeOf_lt_of_mem h
  cases f
  simp only [mk.sizeOf_spec] at *
  omega

/-- What follows for a field from those nested in it holds for all fields. -/
theorem nestedInduction {P : Field → Prop} (h : ∀ f, (∀ g ∈ f.nestedFields, P g) → P f)
    (f : Field) : P f :=
  h f fun g _ => nestedInduction h g
termination_by sizeOf f
decreasing_by exact sizeOf_lt_of_mem_nestedFields ‹_›

theorem eachField_descriptions (h : ∀ f ∈ fs, ofDescription f.description = valid f) :
    ∀ index, eachField index (descriptions fs) = valid fs := by
  induction fs with
  | nil => exact fun _ => rfl
  | cons f fs ih =>
    intro index
    rw [List.forall_mem_cons] at h
    rw [descriptions, eachField, h.1, ih h.2]
    rfl

theorem toOptionalBool_elim (b : Option Bool) :
    Value.toOptionalBool (b.elim .null .bool) = valid b := by
  cases b <;> rfl

/-- The description of a consistent field is read as that field. -/
theorem ofDescription_description (f : Field) (h : f.IsConsistentThroughout) :
    ofDescription f.description = valid f := by
  induction f using nestedInduction with
  | h f ih =>
    obtain ⟨hconsistent, hnested⟩ := isConsistentThroughout_iff.mp h
    have hfields := eachField_descriptions fun g hg => ih g hg (hnested g hg)
    have hcheck := consistent_eq_valid.mpr ⟨hconsistent, rfl⟩
    obtain ⟨name, type, sortable, aggregatable, multilingual, nestedFields, absenceAsFalse⟩ := f
    simp [description, ofDescription, required_of_lookup, optional_of_lookup, nestedFieldsIn,
      nestedFieldsOf, Value.toText, Value.toBool, ofValue_word, toOptionalBool_elim, hfields,
      hcheck]

end Field

/-! ## Mappings -/

namespace Mapping

variable {m : Mapping} {fields : List Field} {locale : Option String}

theorem withUniqueNames_eq_valid {m' : Mapping} :
    m'.withUniqueNames = valid m ↔ m.HasUniqueNames ∧ m' = m := by
  rw [withUniqueNames]
  cases hrepeated : repeatedName? [] (m'.fields.map (·.name)) with
  | none =>
    have hunique : m'.HasUniqueNames := (repeatedName?_eq_none.mp hrepeated).1
    simp only [valid.injEq]
    exact ⟨fun heq => ⟨heq ▸ hunique, heq⟩, fun h => h.2⟩
  | some name =>
    simp only [reduceCtorEq, false_iff]
    rintro ⟨hunique, rfl⟩
    rw [repeatedName?_eq_none.mpr ⟨hunique, by simp⟩] at hrepeated
    cases hrepeated

theorem ofFields_eq_valid {fields : Check (List Field)} {locale : Check (Option String)} :
    ofFields fields locale = valid m ↔
      fields = valid m.fields ∧ locale = valid m.defaultLocale ∧ m.HasUniqueNames := by
  rw [ofFields, andThen_eq_valid]
  simp only [seq_eq_valid, map_eq_valid, within_eq_valid, withUniqueNames_eq_valid]
  constructor
  · rintro ⟨m', ⟨_, locale, ⟨fields, hfields, rfl⟩, hlocale, rfl⟩, hunique, rfl⟩
    exact ⟨hfields, hlocale, hunique⟩
  · rintro ⟨hfields, hlocale, hunique⟩
    exact ⟨m, ⟨_, _, ⟨_, hfields, rfl⟩, hlocale, rfl⟩, hunique, rfl⟩

/-- However a mapping is described, its fields are read from a list. -/
theorem exists_fields_of_ofDescription {v : Value} (h : ofDescription v = .ok m) :
    m.HasUniqueNames ∧ ∃ vs, Field.eachField 0 vs = valid m.fields := by
  unfold ofDescription at h
  split at h
  case h_1 =>
    split at h
    case h_1 vs _ =>
      obtain ⟨hfields, -, hunique⟩ := ofFields_eq_valid.mp (toExcept_eq_ok.mp h)
      exact ⟨hunique, vs, hfields⟩
    case h_2 =>
      obtain ⟨vs, -, h⟩ := bind_eq_ok.mp h
      obtain ⟨hfields, -, hunique⟩ := ofFields_eq_valid.mp (toExcept_eq_ok.mp h)
      exact ⟨hunique, vs, hfields⟩
  case h_2 => cases h

theorem configuration?_name (h : m.HasUniqueNames) {f : Field} (hf : f ∈ m.fields) :
    m.configuration? f.name = some f := by
  rw [configuration?, (field?_eq_some h).mpr ⟨hf, rfl⟩]

theorem toLocale_elim (locale : Option String) :
    toLocale (locale.elim .null .str) = valid locale := by
  cases locale <;> rfl

theorem ofDescription_description (hunique : m.HasUniqueNames)
    (hfields : ∀ f ∈ m.fields, f.IsConsistentThroughout) : ofDescription m.description = .ok m := by
  have hread := Field.eachField_descriptions
    (fun f hf => Field.ofDescription_description f (hfields f hf)) 0
  simp [description, ofDescription, optional_of_lookup, toLocale_elim, toExcept_eq_ok,
    ofFields_eq_valid, hread, hunique]

/-- A mapping can be described exactly if its fields have different names, under which they are
found, and are consistent at every depth, and exactly if its own description is read as itself. -/
theorem tfae_described (m : Mapping) :
    List.TFAE [
      ∃ v, ofDescription v = .ok m,
      m.HasUniqueNames ∧ (∀ f ∈ m.fields, m.configuration? f.name = some f) ∧
        ∀ f ∈ m.fields, ∀ g, f.Contains g → g.IsConsistent,
      ofDescription m.description = .ok m] := by
  tfae_have 1 → 2 := by
    rintro ⟨v, hv⟩
    obtain ⟨hunique, vs, hvs⟩ := exists_fields_of_ofDescription hv
    refine ⟨hunique, fun f => configuration?_name hunique, fun f hf => ?_⟩
    obtain ⟨x, -, hx⟩ := exists_left_of_forall₂ (Field.eachField_eq_valid.mp hvs) hf
    exact (Field.isConsistentThroughout_of_ofDescription x).1 f hx
  tfae_have 2 → 3 := by
    rintro ⟨hunique, -, hfields⟩
    exact ofDescription_description hunique hfields
  tfae_have 3 → 1 := fun h => ⟨_, h⟩
  tfae_finish

/-- A configuration in other spellings, with a field nested in the nested field. -/
theorem tfae_described_of_article :
    let v : Value := .dict [(.str "fields", .list [.dict [(.str "name", .str "article"),
      (.str "elasticsearch_type", .str "NESTED"), (.str "nested_fields", .tuple [.dict
        [(.str "name", .bytes [104, 49]), (.str "elasticsearch_type", .str "KeyWord"),
          (.str "sortable", .str "Yes"), (.str "multilingual", .bool true)]])]])]
    let headline : Field := ⟨"h1", .keyword, true, false, true, [], none⟩
    let article : Field := ⟨"article", .nested, false, false, false, [headline], none⟩
    let m : Mapping := ⟨[article], none⟩
    ofDescription v = .ok m ∧ m.HasUniqueNames ∧ m.configuration? "article" = some article ∧
      article.Contains headline ∧ headline.IsConsistent ∧ ofDescription m.description = .ok m := by
  intro v headline article m
  have hv : ofDescription v = .ok m := rfl
  have hcontains : article.Contains headline := .deeper List.mem_cons_self (.self headline)
  have hdescribed : ∃ v, ofDescription v = .ok m := ⟨v, hv⟩
  have htfae := tfae_described m
  obtain ⟨hunique, hfound, hconsistent⟩ := (htfae.out 0 1).mp hdescribed
  exact ⟨hv, hunique, hfound article List.mem_cons_self, hcontains,
    hconsistent article List.mem_cons_self headline hcontains, (htfae.out 0 2).mp hdescribed⟩

end Mapping

end SearchExpr
