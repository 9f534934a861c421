import SearchExpr.Proofs.Compiler.Reading
import SearchExpr.Proofs.Mapping.Lookup

/-! # Locality in the mapping

What a tree is compiled to depends on a mapping only through what its leaves mean by the names of
their fields: neither on the order of the fields, nor on other ones, nor on the locale if no field
that is named is multilingual. Optimizing brings no names into a tree.
-/

namespace SearchExpr

namespace Expr

variable {F : String → Prop} {e e' : Expr}

/-- A condition, if it is on a field at all, names one of some fields. -/
def Names (F : String → Prop) (e : Expr) : Prop :=
  ∀ field, e.field? = some field → F field

theorem leafClosed_names : LeafClosed (Names F) where
  union field cs others h := h cs List.mem_cons_self
  common field cs others common h _ := h cs List.mem_cons_self
  range x z y hjoins hx _ := by
    obtain ⟨field, _, _, _, _, _, _, -, rfl, horder⟩ := valueBounds_joins hjoins
    rcases horder with ⟨rfl, -⟩ | ⟨rfl, -⟩ <;> exact hx
  dayRange x z y hjoins hx _ := by
    obtain ⟨field, _, _, _, _, _, _, -, -, -, rfl, horder⟩ := dayBounds_joins hjoins
    rcases horder with ⟨rfl, -⟩ | ⟨rfl, -⟩ <;> exact hx

theorem leavesIn_names_of_forall (h : ∀ field, F field) (e : Expr) : LeavesIn (Names F) e :=
  fun _ _ _ field _ => h field

theorem LeavesIn.names_imp {G : String → Prop} (himp : ∀ field, F field → G field)
    (h : LeavesIn (Names F) e) : LeavesIn (Names G) e :=
  fun s hs hleaf field hfield => himp field (h s hs hleaf field hfield)

theorem leavesIn_names_of_field? {field : String} (hfield : e.field? = some field) (h : F field) :
    LeavesIn (Names F) e := by
  refine leavesIn_of_isLeaf (fun other hother => ?_) (isLeaf_of_field? hfield)
  rwa [← Option.some.inj (hfield.symm.trans hother)]

end Expr

open SearchExpr.Expr

namespace Compiler

variable {c : Compiler} {m m' : Mapping} {locale locale' : Option String} {e : Expr}

/-- A name means the same in two mappings with their locales. -/
def SameTarget (m m' : Mapping) (locale locale' : Option String) (field : String) : Prop :=
  m'.target locale' field = m.target locale field

theorem compileTree_leaf_congr (h : Names (SameTarget m m' locale locale') e)
    (he : e.isLeaf = true) : c.compileTree m' locale' e = c.compileTree m locale e := by
  cases e <;> simp only [isLeaf, Bool.false_eq_true] at he
  case fulltext => rfl
  all_goals rw [compileTree, compileTree, h _ rfl]

theorem compileEach_congr {es : List Expr}
    (h : ∀ x ∈ es, c.compileTree m' locale' x = c.compileTree m locale x) :
    c.compileEach m' locale' es = c.compileEach m locale es := by
  induction es with
  | nil => rfl
  | cons x es ih =>
    rw [compileEach, compileEach, h x List.mem_cons_self,
      ih fun y hy => h y (List.mem_cons_of_mem x hy)]

theorem compileTree_congr (h : LeavesIn (Names (SameTarget m m' locale locale')) e) :
    c.compileTree m' locale' e = c.compileTree m locale e := by
  induction e using treeInduction with
  | base e he =>
    rcases he with he | he
    · exact compileTree_leaf_congr (h e .whole he) he
    · cases e <;> simp only [isConstant, Bool.false_eq_true] at he <;> rfl
  | operation connective es ih =>
    rw [compileTree, compileTree, compileEach_congr fun x hx => ih x hx (h.operand hx)]
  | mustNot e ih => rw [compileTree, compileTree, ih h.negated]

/-- A tree is compiled alike where its leaves mean the same fields. -/
theorem compile_congr (h : LeavesIn (Names (SameTarget m m' locale locale')) e) :
    c.compile m' locale' e = c.compile m locale e := by
  rw [compile, compile]
  cases htree : c.tree e with
  | error failure => rfl
  | ok e' => exact compileTree_congr (leavesIn_of_tree leafClosed_names h htree)

/-- The answer does not depend on the order of the fields; a field can be added anywhere under a
name that no leaf uses, be it as it is, as the index has it, or up to the first dot; and the locale
matters only for leaves that name multilingual fields. -/
theorem compile_local (c : Compiler) (m : Mapping) (locale : Option String) (e : Expr) :
    (∀ fields, m.HasUniqueNames → m.fields.Perm fields →
      c.compile ⟨fields, m.defaultLocale⟩ locale e = c.compile m locale e) ∧
    (∀ before field after, m.fields = before ++ after →
      LeavesIn (Names fun name => field.name ≠ name ∧ field.name ≠ m.resolve locale name ∧
        field.name ≠ Text.firstSegment (m.resolve locale name)) e →
      c.compile ⟨before ++ field :: after, m.defaultLocale⟩ locale e = c.compile m locale e) ∧
    (LeavesIn (Names fun name => ∀ field, m.field? name = some field →
        field.multilingual = false) e →
      ∀ locale' default', c.compile ⟨m.fields, default'⟩ locale' e = c.compile m locale e) := by
  refine ⟨fun fields hunique hperm => ?_, fun before field after hfields hleaves => ?_,
    fun hleaves locale' default' => ?_⟩
  · exact compile_congr (leavesIn_names_of_forall (fun _ => Mapping.target_perm hunique hperm) e)
  · refine compile_congr (LeavesIn.names_imp ?_ hleaves)
    rintro name ⟨hname, hresolved, hfirst⟩
    exact Mapping.target_insert hfields hname hresolved hfirst
  · refine compile_congr (LeavesIn.names_imp ?_ hleaves)
    intro name hname
    exact Mapping.target_locale hname locale locale' default'

/-- A headline and a tag are looked for alike wherever the title stands, with a field for prices
between the others, and in German. -/
theorem compile_local_of_article :
    let article : Field := ⟨"article", .nested, false, false, false, [], none⟩
    let title : Field := ⟨"title", .text, true, false, true, [], none⟩
    let price : Field := ⟨"price", .double, true, false, false, [], none⟩
    let m : Mapping := ⟨[article, title], none⟩
    let c := standard
    let e := operation .and
      [.value "article.headline" .eq (.str "a") false, .isIn "tags" ⟨.str "b", []⟩]
    m.HasUniqueNames ∧ m.fields.Perm [title, article] ∧
      c.compile ⟨[title, article], none⟩ none e = c.compile m none e ∧
      c.compile ⟨[article, price, title], none⟩ none e = c.compile m none e ∧
      c.compile ⟨[article, title], some "en"⟩ (some "de") e = c.compile m none e := by
  intro article title price m c e
  have hunique : m.HasUniqueNames := by
    unfold m article title
    decide
  have hperm : m.fields.Perm [title, article] := List.Perm.swap title article []
  have hleaves : ∀ F : String → Prop, F "article.headline" → F "tags" → LeavesIn (Names F) e := by
    intro F hheadline htags
    rw [leavesIn_operation, List.forall_mem_cons, List.forall_mem_singleton]
    exact ⟨leavesIn_names_of_field? rfl hheadline, leavesIn_names_of_field? rfl htags⟩
  obtain ⟨horder, hinsert, hlocale⟩ := compile_local c m none e
  refine ⟨hunique, hperm, horder _ hunique hperm, ?_, ?_⟩
  · refine hinsert [article] price [title] rfl (hleaves _ ?_ ?_)
    all_goals
      unfold m article title price
      decide
  · refine hlocale (hleaves _ ?_ ?_) (some "de") (some "en")
    all_goals
      intro field hfield
      cases hfield

end Compiler

end SearchExpr
