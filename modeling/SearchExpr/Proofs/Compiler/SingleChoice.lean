import SearchExpr.Proofs.Compiler.Leaves
import SearchExpr.Proofs.Compiler.Reading

/-! # A choice of one value

To ask a field for one of a single value is to ask whether it has that value. But a set is compiled
to its values only, while filters choose the query for equality by what is known about the field.
So the two agree on a value that is no text exactly if the field is not nested and the value is not
one that its absence counts as.
-/

namespace SearchExpr

open SearchExpr.Expr

/-! ## Reading a choice of one value -/

namespace Query

variable {name path : String} {w : Value} {q : Query}

/-- A choice of one value is read as the value. -/
def asTerm : Query → Query
  | terms field [v] => term field v
  | q => q

/-- Two queries hold alike for all truth values of leaf queries, read so. -/
def IsReadAs (q q' : Query) : Prop :=
  ∀ atom : Query → Bool, (q.holds fun a => atom a.asTerm) = q'.holds fun a => atom a.asTerm

theorem isReadAs_term : (termsOn name [w]).IsReadAs (termOn name w) :=
  fun _ => rfl

/-- A document may have objects in a nested field, but not the value outside of them. -/
theorem not_isReadAs_nested : ¬ (termsOn name [w]).IsReadAs (nested path q) := by
  intro h
  have hnested := h fun
    | nested .. => true
    | _ => false
  exact Bool.false_ne_true hnested

/-- A document may have no value for a field at all. -/
theorem not_isReadAs_falseOrAbsent {v : Value} :
    ¬ (termsOn name [w]).IsReadAs (FlatBuilder.falseOrAbsent name v) := by
  intro h
  have hnone := h fun _ => false
  exact Bool.false_ne_true hnone

end Query

/-! ## Values that are no texts -/

/-- A text, or bytes that may be read as one. -/
def Value.isTextual : Value → Bool
  | str _ | bytes _ | byteArray _ => true
  | _ => false

/-- A value that is no text is prepared to one for which the same filter is used and the same value
is sent. -/
theorem Value.exists_prepare_of_not_textual {v : Value} (h : v.isTextual = false) (phrase : Bool) :
    ∃ prepared, v.prepare Preparer.standard phrase = .ok prepared ∧
      FlatBuilder.isText prepared = false ∧
      FlatBuilder.isFalse prepared = FlatBuilder.isFalse v ∧
      ∀ key, prepared.wire key = v.wire key := by
  cases phrase with
  | true =>
    refine ⟨v, rfl, ?_, rfl, fun _ => rfl⟩
    cases v <;> first | rfl | simp [isTextual] at h
  | false =>
    cases v with
    | str | bytes | byteArray => simp [isTextual] at h
    | date d => exact ⟨.dateTime (.midnight d), rfl, rfl, rfl, fun _ => rfl⟩
    | _ => exact ⟨_, rfl, rfl, rfl, fun _ => rfl⟩

theorem FlatBuilder.isFalse_iff {v : Value} : isFalse v = true ↔ v = .bool false := by
  cases v <;> simp [isFalse]

/-- A value that is no text is asked for by a term, unless its absence counts as it. -/
theorem FlatBuilder.build_select {v w : Value} {context : FilterContext} (htext : isText v = false)
    (hwire : v.wire context.zoneKey = .ok w) (name : String) :
    (select v context).build name v context =
      .ok (if supports absence v context then falseOrAbsent name v else .termOn name w) := by
  have hphrase : supports phrase v context = false := by simp [supports, htext]
  have hquery : supports queryString v context = false := by simp [supports, htext]
  have hlast : supports term v context = true := rfl
  cases habsence : supports absence v context with
  | true => simp [select, standard, habsence, build]
  | false =>
    have hterm : select v context = term := by
      simp [select, standard, habsence, hphrase, hquery, hlast]
    rw [hterm, build, hwire]
    rfl

/-! ## Equality with a value -/

/-- Nothing is known about a field that equality with the value depends on. -/
def Target.IsPlainFor (target : Target) (v : Value) : Prop :=
  ∀ f, target.field = some f →
    f.isNested = false ∧ (f.treatsAbsenceAsFalse = true → v ≠ .bool false)

/-- The queries for equality with a value that is no text; the second value is sent for it. -/
inductive EqualityQuery (target : Target) (v w : Value) : Query → Prop where
  | nested {scope : Field} (hfield : target.field = some scope) (hnested : scope.isNested = true)
    (inner : Query) : EqualityQuery target v w (.nested scope.name inner)
  | absence {f : Field} (hfield : target.field = some f) (habsence : f.treatsAbsenceAsFalse = true)
    (hfalse : v = .bool false) (sent : Value) :
    EqualityQuery target v w (FlatBuilder.falseOrAbsent target.name sent)
  | term (hplain : target.IsPlainFor v) : EqualityQuery target v w (.termOn target.name w)

theorem EqualityQuery.isReadAs_iff {target : Target} {v w : Value} {q : Query}
    (h : EqualityQuery target v w q) :
    (Query.termsOn target.name [w]).IsReadAs q ↔ target.IsPlainFor v := by
  cases h with
  | nested hfield hnested inner =>
    refine iff_of_false Query.not_isReadAs_nested fun hplain => ?_
    exact Bool.false_ne_true ((hplain _ hfield).1.symm.trans hnested)
  | absence hfield habsence hfalse sent =>
    refine iff_of_false Query.not_isReadAs_falseOrAbsent fun hplain => ?_
    exact (hplain _ hfield).2 habsence hfalse
  | term hplain => exact iff_of_true Query.isReadAs_term hplain

namespace FilterBuilder

variable {target : Target} {v prepared w : Value} {context : FilterContext} {b : FilterBuilder}

/-- Outside nested fields, what is asked for is a term, or that the value is false or absent. -/
theorem equalityQuery_of_flat (hfield : context.field = target.field)
    (hflat : ∀ f, target.field = some f → f.isNested = false)
    (hfalse : FlatBuilder.isFalse prepared = FlatBuilder.isFalse v) :
    EqualityQuery target v w
      (if FlatBuilder.supports .absence prepared context
        then FlatBuilder.falseOrAbsent target.name prepared else .termOn target.name w) := by
  split
  case isTrue habsence =>
    simp only [FlatBuilder.supports, hfield, hfalse, Bool.and_eq_true, Option.any_eq_true,
      FlatBuilder.isFalse_iff] at habsence
    obtain ⟨⟨f, hf, habsent⟩, hvalue⟩ := habsence
    exact .absence hf habsent hvalue prepared
  case isFalse habsence =>
    refine .term fun f hf => ⟨hflat f hf, fun habsent hvalue => habsence ?_⟩
    have hprepared := hfalse.trans (FlatBuilder.isFalse_iff.mpr hvalue)
    simp [FlatBuilder.supports, hfield, hf, habsent, hprepared]

/-- The usual filters build one of the three forms. -/
theorem exists_equalityQuery (houtside : context.nestedScope = false)
    (hfield : context.field = target.field) (htext : FlatBuilder.isText prepared = false)
    (hfalse : FlatBuilder.isFalse prepared = FlatBuilder.isFalse v)
    (hwire : prepared.wire context.zoneKey = .ok w)
    (hselect : select standard prepared context = .ok b) :
    ∃ q, b.build target.name prepared context = .ok q ∧ EqualityQuery target v w q := by
  rw [select_standard] at hselect
  obtain rfl := Except.ok.inj hselect
  cases hscope : scope? context with
  | some scope =>
    obtain ⟨-, hcontext, hnested⟩ := scope?_eq_some.mp hscope
    let inner : FilterContext :=
      { context with
        nestedScope := true
        field := scope.nestedField? (nameAfter scope.name target.name) }
    have hinner : prepared.wire inner.zoneKey = .ok w := hwire
    simp only [Option.isSome_some, if_true, build, hcontext]
    exact ⟨_, congrArg (Except.map _) (FlatBuilder.build_select htext hinner target.name),
      .nested (hfield ▸ hcontext) hnested _⟩
  | none =>
    have hflat : ∀ f, target.field = some f → f.isNested = false := by
      intro f hf
      by_contra hnested
      rw [Bool.not_eq_false] at hnested
      have hsome := scope?_eq_some.mpr ⟨houtside, hfield.trans hf, hnested⟩
      exact Option.some_ne_none f (hsome.symm.trans hscope)
    simp only [Option.isSome_none, Bool.false_eq_true, if_false, build]
    exact ⟨_, FlatBuilder.build_select htext hwire target.name,
      equalityQuery_of_flat hfield hflat hfalse⟩

end FilterBuilder

namespace Compiler

variable {c : Compiler} {m : Mapping} {locale : Option String} {v : Value} {phrase : Bool}
  {field : String}

/-- A value that is no text is sent for any of its comparisons as it is for a set. -/
theorem wireAs_of_not_textual (hpreparers : c.preparers = Preparer.standard)
    (htext : v.isTextual = false) : c.wireAs phrase v = v.wire c.zoneKey := by
  obtain ⟨prepared, hprepared, -, -, hwire⟩ := Value.exists_prepare_of_not_textual htext phrase
  rw [wireAs, hpreparers, hprepared]
  exact hwire c.zoneKey

/-- Equality with a value that is no text is compiled if the value can be sent. -/
theorem compileValue_eq_cases (target : Target) (phrase : Bool)
    (hbuilders : c.builders = FilterBuilder.standard)
    (hpreparers : c.preparers = Preparer.standard) (htext : v.isTextual = false) :
    (∃ failure, v.wire c.zoneKey = .error failure ∧
      c.compileValue target .eq v phrase = .error failure) ∨
    ∃ w q, v.wire c.zoneKey = .ok w ∧ c.compileValue target .eq v phrase = .ok q ∧
      EqualityQuery target v w q := by
  obtain ⟨prepared, hprepared, hprose, hfalse, hsame⟩ :=
    Value.exists_prepare_of_not_textual htext phrase
  let context : FilterContext :=
    ⟨target.field, phrase || v.isPhrase, false, c.defaultOperator, c.zoneKey⟩
  obtain ⟨b, hb⟩ := FilterBuilder.exists_select_standard prepared context
  have hcompile : c.compileValue target .eq v phrase =
      (prepared.wire c.zoneKey).bind fun _ => b.build target.name prepared context := by
    rw [compileValue, prepareValue, hpreparers, hprepared]
    simp only [dispatch, hbuilders, bind, Except.bind]
    rw [hb]
    cases prepared.wire c.zoneKey <;> rfl
  rw [hcompile, hsame]
  cases hwire : v.wire c.zoneKey with
  | error failure => exact Or.inl ⟨failure, rfl, rfl⟩
  | ok w =>
    have houtside : context.nestedScope = false := rfl
    have htarget : context.field = target.field := rfl
    have hsent : prepared.wire context.zoneKey = .ok w := (hsame c.zoneKey).trans hwire
    obtain ⟨q, hq, hform⟩ :=
      FilterBuilder.exists_equalityQuery houtside htarget hprose hfalse hsent hb
    exact Or.inr ⟨w, q, rfl, hq, hform⟩

theorem compileTree_single : c.compileTree m locale (isIn field ⟨v, []⟩) =
    (c.wireValue v).map fun w => some (.termsOn (m.target locale field).name [w]) := by
  rw [compileTree, compileChoices, Choices.toList, List.mapM_cons, List.mapM_nil]
  cases c.wireValue v <;> rfl

/-- A set of one value that is no text is compiled if equality with the value is. The queries hold
alike exactly if the field is not nested and its absence does not count as the value. -/
theorem compile_single_iff (hbuilders : c.builders = FilterBuilder.standard)
    (hpreparers : c.preparers = Preparer.standard) (hfield : field ≠ fulltextField)
    (htext : v.isTextual = false) (m : Mapping) (locale : Option String) (phrase : Bool) :
    (∃ failure, v.wire c.zoneKey = .error failure ∧
      c.compile m locale (isIn field ⟨v, []⟩) = .error failure ∧
      c.compile m locale (value field .eq v phrase) = .error failure) ∨
    ∃ q q', c.compile m locale (isIn field ⟨v, []⟩) = .ok (some q) ∧
      c.compile m locale (value field .eq v phrase) = .ok (some q') ∧
      (q.IsReadAs q' ↔ (m.target locale field).IsPlainFor v) := by
  have hprepared : c.wireAs false v = v.wire c.zoneKey := wireAs_of_not_textual hpreparers htext
  have hsent : c.wireValue v = v.wire c.zoneKey := hprepared
  rw [compile_leaf c m locale rfl, compile_leaf c m locale rfl, compileTree_single, compileTree,
    if_neg hfield, hsent]
  rcases compileValue_eq_cases (m.target locale field) phrase hbuilders hpreparers htext with
    ⟨failure, hwire, hequal⟩ | ⟨w, q', hwire, hequal, hform⟩
  · rw [hwire, hequal]
    exact Or.inl ⟨failure, rfl, rfl, rfl⟩
  · rw [hwire, hequal]
    exact Or.inr ⟨_, q', rfl, rfl, hform.isReadAs_iff⟩

/-- A field that is true, which its absence does not count as. -/
theorem compile_single_of_true :
    let m : Mapping := ⟨[⟨"active", .boolean, false, false, false, [], none⟩], none⟩
    standard.builders = FilterBuilder.standard ∧ standard.preparers = Preparer.standard ∧
    "active" ≠ fulltextField ∧ (Value.bool true).isTextual = false ∧
    ∃ q q', standard.compile m none (isIn "active" ⟨.bool true, []⟩) = .ok (some q) ∧
      standard.compile m none (value "active" .eq (.bool true) false) = .ok (some q') ∧
      q.IsReadAs q' := by
  intro m
  have hfield : "active" ≠ fulltextField := by decide
  have htext : (Value.bool true).isTextual = false := rfl
  have hbuilders : standard.builders = FilterBuilder.standard := rfl
  have hpreparers : standard.preparers = Preparer.standard := rfl
  refine ⟨hbuilders, hpreparers, hfield, htext, ?_⟩
  have hsingle : standard.compile m none (isIn "active" ⟨.bool true, []⟩) =
      .ok (some (.terms "active" [.bool true])) := by
    unfold m
    rfl
  rcases compile_single_iff hbuilders hpreparers hfield htext m none false with
    ⟨failure, -, hfails, -⟩ | ⟨q, q', hq, hq', hiff⟩
  · rw [hsingle] at hfails
    cases hfails
  · refine ⟨q, q', hq, hq', hiff.mpr fun f hf => ?_⟩
    obtain rfl := Option.some.inj hf
    exact ⟨rfl, fun _ heq => by cases heq⟩

/-- A document without the field is found by equality with what its absence counts as only, and one
with the value in a nested object by equality only. -/
theorem not_isReadAs_of_false :
    let m : Mapping := ⟨[⟨"active", .boolean, false, false, false, [], none⟩,
      ⟨"article", .nested, false, false, false, [], none⟩], none⟩
    let absent := Query.bool .should [.term "active" (.bool false), .not (.present "active")]
    let inside := Query.nested "article" (.term "article.pages" (.int 1))
    standard.compile m none (isIn "active" ⟨.bool false, []⟩) =
        .ok (some (.terms "active" [.bool false])) ∧
      standard.compile m none (value "active" .eq (.bool false) false) = .ok (some absent) ∧
      ¬ (Query.terms "active" [.bool false]).IsReadAs absent ∧
      standard.compile m none (isIn "article.pages" ⟨.int 1, []⟩) =
        .ok (some (.terms "article.pages" [.int 1])) ∧
      standard.compile m none (value "article.pages" .eq (.int 1) false) = .ok (some inside) ∧
      ¬ (Query.terms "article.pages" [.int 1]).IsReadAs inside := by
  intro m absent inside
  have habsent : ¬ (Query.termsOn "active" [.bool false]).IsReadAs
      (FlatBuilder.falseOrAbsent "active" (.bool false)) := Query.not_isReadAs_falseOrAbsent
  have hinside : ¬ (Query.termsOn "article.pages" [.int 1]).IsReadAs inside :=
    Query.not_isReadAs_nested
  unfold m
  exact ⟨rfl, rfl, habsent, rfl, rfl, hinside⟩

end Compiler

end SearchExpr
