import SearchExpr.Proofs.Compiler.Leaves
import SearchExpr.Proofs.Compiler.Reading
import SearchExpr.Proofs.Text.Phrases

/-! # Searches for texts

A text that a field is compared with is looked for as it is prepared, and as a phrase if it is one.
The field of the whole text is left to a builder of its own, which is not told that a text is to be
a phrase, and takes all comparisons but one for equality. So a phrase may be looked for there word
by word, and what is not to be like a text is what is like it.
-/

namespace SearchExpr

open SearchExpr.Expr

/-! ## Queries for texts -/

/-- The field of the whole text is asked for a text by every comparison but one. -/
theorem FulltextBuilder.build_text (b : FulltextBuilder) {s : String} {comparison : Comparison}
    (hink : Text.hasInk s = true) (hne : comparison ≠ .ne) :
    b.build (.str s) comparison.word = .ok (some (b.textQuery s)) := by
  have hword : (comparison.word == Comparison.ne.word) = false := by
    cases comparison <;> first | rfl | exact absurd rfl hne
  have htext : b.buildText s comparison.word = some (b.textQuery s) := by
    simp [buildText, hink, hword]
  exact congrArg Except.ok htext

namespace Query

/-- A query in the scope of a nested field, if there is one. -/
def inScope (scope : Option Field) (q : Query) : Query :=
  scope.elim q fun scope => nested scope.name q

end Query

namespace FilterBuilder

variable {context : FilterContext} {b : FilterBuilder} {s : String}

theorem select_phrase (hphrase : context.phrase = true) :
    FlatBuilder.select (.str s) context = .phrase := by
  simp [FlatBuilder.select, FlatBuilder.standard, FlatBuilder.supports, FlatBuilder.isFalse,
    FlatBuilder.isText, hphrase]

/-- A phrase is a phrase inside the scope of a nested field too. -/
theorem build_phrase (hphrase : context.phrase = true)
    (hselect : select standard (.str s) context = .ok b) (name : String) :
    b.build name (.str s) context =
      .ok (Query.inScope (scope? context)
        (.queryString (Text.quotePhrase s) [name] none false)) := by
  rw [select_standard] at hselect
  obtain rfl := Except.ok.inj hselect
  cases hscope : scope? context with
  | none =>
    simp only [Option.isSome_none, Bool.false_eq_true, if_false, select_phrase hphrase]
    rfl
  | some scope =>
    have hfield : context.field = some scope := (scope?_eq_some.mp hscope).2.1
    let inner : FilterContext :=
      { context with
        nestedScope := true
        field := scope.nestedField? (nameAfter scope.name name) }
    have hinner : FlatBuilder.select (.str s) inner = .phrase := select_phrase hphrase
    simp only [Option.isSome_some, if_true, build, hfield]
    exact congrArg (fun b => (b.build name (.str s) inner).map (Query.nested scope.name)) hinner

end FilterBuilder

namespace Compiler

variable {c : Compiler} {m : Mapping} {locale : Option String} {target : Target} {v : Value}
  {phrase : Bool} {field s : String} {comparison : Comparison}

/-- What the filters know about a condition on a field. -/
def contextOf (c : Compiler) (target : Target) (v : Value) (phrase : Bool) : FilterContext :=
  ⟨target.field, phrase || v.isPhrase, false, c.defaultOperator, c.zoneKey⟩

/-- A value that is prepared to a text is sent as that text. -/
theorem prepareValue_text (hbuilders : c.builders = FilterBuilder.standard)
    (hprepared : v.prepare c.preparers phrase = .ok (.str s)) (target : Target) :
    let context := c.contextOf target v phrase
    ∃ b, FilterBuilder.select FilterBuilder.standard (.str s) context = .ok b ∧
      c.prepareValue target v phrase = .ok ⟨target, .str s, .str s, context, b⟩ := by
  intro context
  obtain ⟨b, hb⟩ := FilterBuilder.exists_select_standard (.str s) (c.contextOf target v phrase)
  refine ⟨b, hb, ?_⟩
  rw [contextOf] at hb
  simp only [prepareValue, hprepared, dispatch, hbuilders, bind, Except.bind, hb]
  rfl

theorem compile_fulltext (c : Compiler) (m : Mapping) (locale : Option String)
    (hink : Text.hasInk s = true) (hne : comparison ≠ .ne) (phrase : Bool) :
    c.compile m locale (value fulltextField comparison (.str s) phrase) =
      .ok (some (c.fulltext.textQuery s)) := by
  rw [compile_leaf c m locale rfl, compileTree, if_pos rfl, FulltextBuilder.build_text _ hink hne]

theorem compile_value (c : Compiler) (m : Mapping) (locale : Option String)
    (hfield : field ≠ fulltextField) :
    c.compile m locale (value field comparison v phrase) =
      (c.compileValue (m.target locale field) comparison v phrase).map some := by
  rw [compile_leaf c m locale rfl, compileTree, if_neg hfield]

/-! ## Phrases -/

/-- The search for a text as one phrase, in the scope of a nested field if there is one. -/
def IsPhraseSearch (scope : Option Field) (s : String) (q : Query) : Prop :=
  ∃ fields operator wild,
    q = Query.inScope scope (.queryString (Text.quotePhrase s) fields operator wild)

theorem compileValue_phrase (hbuilders : c.builders = FilterBuilder.standard) (target : Target)
    (s : String) :
    c.compileValue target .eq (.str s) true =
      .ok (Query.inScope (target.field.filter (·.isNested))
        (.queryString (Text.quotePhrase s) [target.name] none false)) := by
  have hkept : (Value.str s).prepare c.preparers true = .ok (.str s) := rfl
  obtain ⟨b, hb, hprepare⟩ := prepareValue_text hbuilders hkept target
  rw [compileValue, hprepare]
  exact FilterBuilder.build_phrase rfl hb target.name

/-- The whole text is searched for a phrase only if the text is written as one. -/
theorem isPhraseSearch_textQuery (b : FulltextBuilder) (scope : Option Field) :
    IsPhraseSearch scope s (b.textQuery s) ↔ Text.isPhrase s = true ∧ scope = none := by
  have htext : (if Text.isPhrase s then Text.replaceBraces s else s) = Text.quotePhrase s ↔
      Text.isPhrase s = true := by
    cases hphrase : Text.isPhrase s with
    | true => simp [Text.quotePhrase, hphrase]
    | false =>
      simp only [Bool.false_eq_true, if_false, iff_false]
      intro heq
      rw [heq, Text.isPhrase_quotePhrase] at hphrase
      cases hphrase
  cases scope with
  | none => simp [IsPhraseSearch, Query.inScope, FulltextBuilder.textQuery, htext]
  | some scope => simp [IsPhraseSearch, Query.inScope, FulltextBuilder.textQuery]

/-- A text that is marked as a phrase is searched for as one, unprepared and in the scope of its
field, unless it is the field of the whole text. That one is searched for texts written as phrases
only, outside of any scope. -/
theorem compile_phrase_iff (hbuilders : c.builders = FilterBuilder.standard)
    (hink : Text.hasInk s = true) (m : Mapping) (locale : Option String) (field : String) :
    let target := m.target locale field
    let scope := target.field.filter (·.isNested)
    ∃ q, c.compile m locale (value field .eq (.str s) true) = .ok (some q) ∧
      (field ≠ fulltextField →
        q = Query.inScope scope (.queryString (Text.quotePhrase s) [target.name] none false)) ∧
      (IsPhraseSearch scope s q ↔
        field ≠ fulltextField ∨ Text.isPhrase s = true ∧ scope = none) := by
  intro target scope
  by_cases hfield : field = fulltextField
  · subst hfield
    refine ⟨_, compile_fulltext c m locale hink (by decide) true, fun h => absurd rfl h, ?_⟩
    exact (isPhraseSearch_textQuery _ scope).trans (or_iff_right (not_not_intro rfl)).symm
  · refine ⟨_, ?_, fun _ => rfl, iff_of_true ⟨_, _, _, rfl⟩ (Or.inl hfield)⟩
    rw [compile_value c m locale hfield, compileValue_phrase hbuilders]
    rfl

/-- A headline with a blank and a quote in it, in an article. -/
theorem compile_phrase_of_headline :
    let scope : Field := ⟨"article", .nested, false, false, false, [], none⟩
    let q := Query.nested "article"
      (.queryString "\x22 say \\\x22hi\\\x22\x22" ["article.headline"] none false)
    standard.builders = FilterBuilder.standard ∧ Text.hasInk " say \x22hi\x22" = true ∧
      "article.headline" ≠ fulltextField ∧
      standard.compile ⟨[scope], none⟩ none
        (value "article.headline" .eq (.str " say \x22hi\x22") true) = .ok (some q) ∧
      IsPhraseSearch (some scope) " say \x22hi\x22" q := by
  intro scope q
  have hink : Text.hasInk " say \x22hi\x22" = true := by decide
  have hfield : "article.headline" ≠ fulltextField := by decide
  have hcompile : standard.compile ⟨[scope], none⟩ none
      (value "article.headline" .eq (.str " say \x22hi\x22") true) = .ok (some q) := by
    unfold q scope
    rfl
  have hscope : ((⟨[scope], none⟩ : Mapping).target none "article.headline").field.filter
      (·.isNested) = some scope := by
    unfold scope
    rfl
  obtain ⟨q', hq', -, hphrase⟩ :=
    compile_phrase_iff (c := standard) rfl hink ⟨[scope], none⟩ none "article.headline"
  obtain rfl := Option.some.inj (Except.ok.inj (hcompile.symm.trans hq'))
  rw [hscope] at hphrase
  exact ⟨rfl, hink, hfield, hcompile, hphrase.mpr (Or.inl hfield)⟩

/-- The whole text is searched for the words of what is marked as a phrase. -/
theorem not_isPhraseSearch_of_fulltext :
    standard.compile ⟨[], none⟩ none (value "fulltext" .eq (.str "climate report") true) =
        .ok (some (.queryString "climate report" ["fulltext"] (some .and) false)) ∧
      ¬ IsPhraseSearch none "climate report"
        (.queryString "climate report" ["fulltext"] (some .and) false) := by
  refine ⟨rfl, ?_⟩
  rintro ⟨fields, operator, wild, heq⟩
  injection heq with htext
  exact absurd htext (by decide)

end Compiler

end SearchExpr
