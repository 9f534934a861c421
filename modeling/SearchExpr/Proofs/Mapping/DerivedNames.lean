import SearchExpr.Proofs.Mapping.Lookup

/-! # Names made from the name of a field

The index has a multilingual field under one name per language and the parts of a nested field under
paths. Such a name is the whole name of the field with a dot and more after it, but the field is
looked up by what stands before the first dot. So it is found exactly if its own name has no dot.
-/

namespace SearchExpr

namespace Mapping

variable {m : Mapping} {locale : Option String} {name rest : String} {field : Field}

/-- A name in the index that is made from that of a field: of a multilingual one for a locale, or of
a part of a nested one. -/
inductive NameFrom (m : Mapping) (field : Field) : String → Prop where
  | language (locale : Option String) (hfield : field.multilingual = true) :
    NameFrom m field (m.resolve locale field.name)
  | part (rest : String) (hfield : field.isNested = true) (hrest : rest ≠ "") :
    NameFrom m field (field.name ++ "." ++ rest)

theorem resolve_eq_or_append (m : Mapping) (locale : Option String) (name : String) :
    m.resolve locale name = name ∨ ∃ language, m.resolve locale name = name ++ "." ++ language := by
  unfold resolve
  split
  case h_1 =>
    split_ifs
    · split
      · exact Or.inr ⟨_, rfl⟩
      · exact Or.inl rfl
    · exact Or.inl rfl
  case h_2 => exact Or.inl rfl

/-- A name without a language is the name of a field, so a free one goes on after a dot. -/
theorem NameFrom.exists_rest (h : m.NameFrom field name) (hunique : m.HasUniqueNames)
    (hfield : field ∈ m.fields) (hfree : m.field? name = none) :
    (field.isNested || field.multilingual) = true ∧ ∃ rest, name = field.name ++ "." ++ rest := by
  cases h with
  | language locale hmultilingual =>
    refine ⟨by simp [hmultilingual], ?_⟩
    rcases m.resolve_eq_or_append locale field.name with heq | ⟨language, heq⟩
    · rw [heq, (field?_eq_some hunique).mpr ⟨hfield, rfl⟩] at hfree
      cases hfree
    · exact ⟨language, heq⟩
  | part rest hnested _ => exact ⟨by simp [hnested], rest, rfl⟩

theorem configuration?_append_dot (path : String) (h : m.field? (path ++ "." ++ rest) = none) :
    m.configuration? (path ++ "." ++ rest) =
      (m.field? (Text.firstSegment path)).filter fun field =>
        field.isNested || field.multilingual := by
  rw [configuration?, h, Text.firstSegment_append_dot]
  simp [Text.hasDot_append_dot]

/-- A name made from that of a field leads back to the field exactly if there is no dot in the name
of the field, unless it is the name of another field. -/
theorem configuration?_nameFrom_iff (hunique : m.HasUniqueNames) (hfield : field ∈ m.fields)
    (hname : m.NameFrom field name) (hfree : m.field? name = none) :
    m.configuration? name = some field ↔ Text.hasDot field.name = false := by
  obtain ⟨hkind, rest, rfl⟩ := hname.exists_rest hunique hfield hfree
  rw [configuration?_append_dot field.name hfree, Option.filter_eq_some_iff, field?_eq_some hunique,
    ← Text.firstSegment_eq_self_iff]
  constructor
  · rintro ⟨⟨-, hsegment⟩, -⟩
    exact hsegment.symm
  · intro hsegment
    exact ⟨⟨hfield, hsegment.symm⟩, hkind⟩

/-- The German title and a part of a part of the article. -/
theorem configuration?_nameFrom_of_title :
    let title : Field := ⟨"title", .text, true, false, true, [], none⟩
    let article : Field := ⟨"article", .nested, false, false, false, [], none⟩
    let m : Mapping := ⟨[title, article], some "de_DE"⟩
    m.HasUniqueNames ∧ title ∈ m.fields ∧ article ∈ m.fields ∧
      m.NameFrom title "title.de" ∧ m.NameFrom article "article.body.en" ∧
      m.field? "title.de" = none ∧ m.field? "article.body.en" = none ∧
      m.configuration? "title.de" = some title ∧
      m.configuration? "article.body.en" = some article := by
  intro title article m
  have hunique : m.HasUniqueNames := by
    unfold m title article
    decide
  have htitle : title ∈ m.fields := List.mem_cons_self
  have harticle : article ∈ m.fields := List.mem_cons_of_mem _ List.mem_cons_self
  have hgerman : m.NameFrom title "title.de" := .language none rfl
  have hbody : m.NameFrom article "article.body.en" := .part "body.en" rfl (by decide)
  refine ⟨hunique, htitle, harticle, hgerman, hbody, rfl, rfl, ?_, ?_⟩
  · exact (configuration?_nameFrom_iff hunique htitle hgerman rfl).mpr (by decide)
  · exact (configuration?_nameFrom_iff hunique harticle hbody rfl).mpr (by decide)

/-- The German name of a title among other fields under `meta` is not known. -/
theorem configuration?_eq_none_of_dot :
    let title : Field := ⟨"meta.title", .text, true, false, true, [], none⟩
    let v : Value := .dict [(.str "fields", .list [.dict [(.str "name", .str "meta.title"),
      (.str "sortable", .bool true), (.str "multilingual", .bool true)]])]
    let m : Mapping := ⟨[title], none⟩
    ofDescription v = .ok m ∧ title ∈ m.fields ∧ m.NameFrom title "meta.title.de" ∧
      m.field? "meta.title.de" = none ∧ m.configuration? "meta.title.de" = none ∧
      m.configuration? "meta.title.de" ≠ some title := by
  intro title v m
  have hnone : m.configuration? "meta.title.de" = none := rfl
  refine ⟨rfl, List.mem_cons_self, .language (some "de") rfl, rfl, hnone, ?_⟩
  rw [hnone]
  exact nofun

end Mapping

end SearchExpr
