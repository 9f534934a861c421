import Mathlib.Data.List.Nodup
import Mathlib.Data.List.TakeWhile
import SearchExpr.Compiler.Basic
import SearchExpr.Proofs.Checks
import SearchExpr.Proofs.Outcome

/-! # Finding fields

Which field of a mapping is meant by a name, for names of fields and for names with a dot.
-/

namespace SearchExpr

namespace Text

variable {path : String}

theorem hasDot_append_dot (path rest : String) : hasDot (path ++ "." ++ rest) = true := by
  simp [hasDot]

theorem firstSegment_append_dot (path rest : String) :
    firstSegment (path ++ "." ++ rest) = firstSegment path := by
  have hdot : ("." ++ rest).toList.takeWhile (· != '.') = [] := by simp
  rw [firstSegment, firstSegment, String.append_assoc, String.toList_append, List.takeWhile_append,
    hdot]
  split
  case isTrue hlength =>
    rw [(List.takeWhile_prefix _).eq_of_length hlength, List.append_nil]
  case isFalse => rfl

theorem firstSegment_eq_self_iff : firstSegment path = path ↔ hasDot path = false := by
  rw [firstSegment, ← String.toList_inj, String.toList_ofList, List.takeWhile_eq_self_iff, hasDot,
    ← Bool.not_eq_true, List.contains_iff_mem]
  simp only [bne_iff_ne, ne_eq]
  exact ⟨fun h hdot => h _ hdot rfl, fun h c hc heq => h (heq ▸ hc)⟩

end Text

namespace Mapping

variable {m : Mapping} {locale : Option String} {name path rest : String} {field scope : Field}

theorem name_of_field? (h : m.field? name = some field) : field.name = name := by
  simpa using List.find?_some h

theorem resolve_of_field?_eq_none (h : m.field? name = none) : m.resolve locale name = name := by
  rw [resolve, h]

theorem configuration?_of_scope (hscope : m.field? path = some scope)
    (hnested : scope.isNested = true) (hpath : Text.hasDot path = false)
    (hname : m.field? (path ++ "." ++ rest) = none) :
    m.configuration? (path ++ "." ++ rest) = some scope := by
  rw [configuration?, hname, Text.firstSegment_append_dot, Text.firstSegment_eq_self_iff.mpr hpath,
    hscope]
  simp [Text.hasDot_append_dot, hnested]

/-- A name that starts with the path of a nested field means that field, unless there is a field
with this name. -/
theorem target_of_scope (locale : Option String) (hscope : m.field? path = some scope)
    (hnested : scope.isNested = true) (hpath : Text.hasDot path = false)
    (hname : m.field? (path ++ "." ++ rest) = none) :
    m.target locale (path ++ "." ++ rest) = ⟨path ++ "." ++ rest, some scope⟩ := by
  rw [target]
  simp only [resolve_of_field?_eq_none hname, configuration?_of_scope hscope hnested hpath hname]

/-! ## Names of fields -/

/-- No two fields have the same name. -/
def HasUniqueNames (m : Mapping) : Prop :=
  (m.fields.map (·.name)).Nodup

instance (m : Mapping) : Decidable m.HasUniqueNames :=
  inferInstanceAs (Decidable (List.Nodup _))

theorem repeatedName?_eq_none {seen names : List String} :
    repeatedName? seen names = none ↔ names.Nodup ∧ ∀ n ∈ names, n ∉ seen := by
  induction names generalizing seen with
  | nil => simp [repeatedName?]
  | cons n names ih =>
    rw [repeatedName?, List.nodup_cons, List.forall_mem_cons]
    split
    case isTrue hseen => simp [List.contains_iff_mem.mp hseen]
    case isFalse hseen =>
      rw [List.contains_iff_mem] at hseen
      rw [ih]
      simp only [List.mem_cons, not_or]
      constructor
      · rintro ⟨hnodup, h⟩
        exact ⟨⟨fun hn => (h n hn).1 rfl, hnodup⟩, hseen, fun x hx => (h x hx).2⟩
      · rintro ⟨⟨hn, hnodup⟩, -, h⟩
        exact ⟨hnodup, fun x hx => ⟨fun heq => hn (heq ▸ hx), h x hx⟩⟩

theorem field?_eq_some (h : m.HasUniqueNames) :
    m.field? name = some field ↔ field ∈ m.fields ∧ field.name = name := by
  constructor
  · intro hfield
    exact ⟨List.mem_of_find?_eq_some hfield, name_of_field? hfield⟩
  · rintro ⟨hmem, rfl⟩
    cases hfind : m.field? field.name with
    | none =>
      have := List.find?_eq_none.mp hfind field hmem
      simp at this
    | some other =>
      have hother : other ∈ m.fields := List.mem_of_find?_eq_some hfind
      rw [List.inj_on_of_nodup_map h hother hmem (name_of_field? hfind)]

/-! ## Changes that a name does not see -/

theorem field?_perm {fields : List Field} (h : m.HasUniqueNames) (hperm : m.fields.Perm fields) :
    (Mapping.mk fields m.defaultLocale).field? name = m.field? name := by
  have hunique : (Mapping.mk fields m.defaultLocale).HasUniqueNames :=
    (hperm.map _).nodup_iff.mp h
  refine Option.ext fun field => ?_
  rw [field?_eq_some hunique, field?_eq_some h, hperm.mem_iff]

theorem field?_insert {before after : List Field} (hfields : m.fields = before ++ after)
    (hname : field.name ≠ name) :
    (Mapping.mk (before ++ field :: after) m.defaultLocale).field? name = m.field? name := by
  have hother : (field.name == name) = false := beq_false_of_ne hname
  rw [field?, field?, hfields, List.find?_append, List.find?_append, List.find?_cons, hother]

/-- What is meant by a name depends on the fields with three names only. -/
theorem target_congr {m' : Mapping} {locale' : Option String}
    (hresolve : m'.resolve locale' name = m.resolve locale name)
    (hwhole : m'.field? (m.resolve locale name) = m.field? (m.resolve locale name))
    (hfirst : m'.field? (Text.firstSegment (m.resolve locale name)) =
      m.field? (Text.firstSegment (m.resolve locale name))) :
    m'.target locale' name = m.target locale name := by
  simp only [target, configuration?, hresolve, hwhole, hfirst]

theorem resolve_congr {m' : Mapping} (hfield : m'.field? name = m.field? name)
    (hlocale : m'.defaultLocale = m.defaultLocale) :
    m'.resolve locale name = m.resolve locale name := by
  rw [resolve, resolve, hfield, language?, language?, hlocale]

theorem resolve_of_not_multilingual
    (h : ∀ field, m.field? name = some field → field.multilingual = false) :
    m.resolve locale name = name := by
  rw [resolve]
  cases hfield : m.field? name with
  | none => rfl
  | some field => simp [h field hfield]

theorem target_perm {fields : List Field} (h : m.HasUniqueNames) (hperm : m.fields.Perm fields) :
    (Mapping.mk fields m.defaultLocale).target locale name = m.target locale name :=
  target_congr (resolve_congr (field?_perm h hperm) rfl) (field?_perm h hperm)
    (field?_perm h hperm)

theorem target_insert {before after : List Field} (hfields : m.fields = before ++ after)
    (hname : field.name ≠ name) (hresolved : field.name ≠ m.resolve locale name)
    (hfirst : field.name ≠ Text.firstSegment (m.resolve locale name)) :
    (Mapping.mk (before ++ field :: after) m.defaultLocale).target locale name =
      m.target locale name :=
  target_congr (resolve_congr (field?_insert hfields hname) rfl) (field?_insert hfields hresolved)
    (field?_insert hfields hfirst)

/-- Only names of multilingual fields depend on the locale. -/
theorem target_locale (h : ∀ field, m.field? name = some field → field.multilingual = false)
    (locale locale' default' : Option String) :
    (Mapping.mk m.fields default').target locale' name = m.target locale name := by
  have hresolve : m.resolve locale name = name := resolve_of_not_multilingual h
  have hresolve' : (Mapping.mk m.fields default').resolve locale' name = name :=
    resolve_of_not_multilingual h
  exact target_congr (hresolve'.trans hresolve.symm) rfl rfl

end Mapping

end SearchExpr
