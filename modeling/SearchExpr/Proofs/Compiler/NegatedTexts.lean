import SearchExpr.Proofs.Compiler.TextSearches

/-! # Texts that are not to be like another

What is not to be like a text is looked for by the negation of that text, which is one to whoever
reads negated texts as such. But the builder for the field of the whole text negates inequality
only, so there both comparisons find the same.
-/

namespace SearchExpr

open SearchExpr.Expr

/-! ## Reading negated texts -/

/-- A document has the negation of a text in its fields if it does not have the text there. -/
def IndexedDocument.ReadsNegation (doc : IndexedDocument) : Prop :=
  ∀ text fields operator wild,
    doc.answers (.queryString ("NOT (" ++ text ++ ")") fields operator wild) ↔
      ¬ doc.answers (.queryString text fields operator wild)

namespace Text

/-- What a text negates, if it is a negation. -/
def negated? (s : List Char) : Option (List Char) :=
  if s.take 5 = "NOT (".toList ∧ s.getLast? = some ')' then some (s.drop 5).dropLast else none

theorem negated?_negation (s : List Char) :
    negated? ("NOT (".toList ++ s ++ [')']) = some s := by
  have hlast : ("NOT (".toList ++ s ++ [')']).getLast? = some ')' := List.getLast?_concat
  have hinner : (("NOT (".toList ++ s ++ [')']).drop 5).dropLast = s := List.dropLast_concat
  rw [negated?, if_pos ⟨rfl, hlast⟩, hinner]

theorem length_lt_of_negated? {s t : List Char} (h : negated? s = some t) :
    t.length < s.length := by
  unfold negated? at h
  split at h
  case isFalse => cases h
  case isTrue hnegation =>
    obtain rfl := Option.some.inj h
    have hlength := congrArg List.length hnegation.1
    simp only [List.length_take, List.length_dropLast, List.length_drop] at hlength ⊢
    have hfive : "NOT (".toList.length = 5 := rfl
    omega

/-- A text is read by reading what it negates, or as it is. -/
def isRead (holds : List Char → Bool) (s : List Char) : Bool :=
  match _ : negated? s with
  | some t => !isRead holds t
  | none => holds s
termination_by s.length
decreasing_by exact length_lt_of_negated? ‹_›

theorem isRead_negation (holds : List Char → Bool) (s : List Char) :
    isRead holds ("NOT (".toList ++ s ++ [')']) = !isRead holds s := by
  rw [isRead]
  split
  case h_1 t h =>
    rw [negated?_negation] at h
    obtain rfl := Option.some.inj h
    rfl
  case h_2 h =>
    rw [negated?_negation] at h
    cases h

end Text

/-- A document that has some of the texts that are no negations, in any field. -/
def IndexedDocument.ofTexts (holds : List Char → Bool) : IndexedDocument where
  value? _ := none
  satisfies _ _ _ := False
  answers
    | .queryString text _ _ _ => Text.isRead holds text.toList = true
    | _ => False

theorem IndexedDocument.ofTexts_readsNegation (holds : List Char → Bool) :
    (ofTexts holds).ReadsNegation := by
  intro text fields operator wild
  have hread := Text.isRead_negation holds text.toList
  simp only [ofTexts, String.toList_append]
  rw [show ")".toList = [')'] from rfl, hread]
  simp

namespace Compiler

variable {c : Compiler} {m : Mapping} {locale : Option String} {target : Target} {v : Value}
  {phrase : Bool} {field s : String}

theorem exists_prepare_str (hpreparers : c.preparers = Preparer.standard) (s : String)
    (phrase : Bool) : ∃ s', (Value.str s).prepare c.preparers phrase = .ok (.str s') := by
  rw [hpreparers]
  cases phrase <;> exact ⟨_, rfl⟩

/-- A field is asked for a prepared text, or for its negation. -/
theorem compileValue_like (hbuilders : c.builders = FilterBuilder.standard)
    (hprepared : v.prepare c.preparers phrase = .ok (.str s)) (target : Target) :
    c.compileValue target .like v phrase = .ok (.queryString s [target.name] none false) ∧
      c.compileValue target .notLike v phrase =
        .ok (.queryString ("NOT (" ++ s ++ ")") [target.name] none false) := by
  obtain ⟨b, -, hprepare⟩ := prepareValue_text hbuilders hprepared target
  rw [compileValue, compileValue, hprepare]
  exact ⟨rfl, rfl⟩

/-- What is not like a text is what is not found by the search for what is, unless that is a search
of the whole text, where it is the same. -/
theorem matchedBy_notLike_iff (hbuilders : c.builders = FilterBuilder.standard)
    (hpreparers : c.preparers = Preparer.standard) (hink : Text.hasInk s = true) (m : Mapping)
    (locale : Option String) (field : String) (phrase : Bool) :
    ∃ q q', c.compile m locale (value field .like (.str s) phrase) = .ok (some q) ∧
      c.compile m locale (value field .notLike (.str s) phrase) = .ok (some q') ∧
      ((∀ doc : IndexedDocument, doc.ReadsNegation → (q'.MatchedBy doc ↔ ¬ q.MatchedBy doc)) ↔
        field ≠ fulltextField) ∧
      (field = fulltextField → q' = q) := by
  by_cases hfield : field = fulltextField
  · subst hfield
    have hne : Comparison.like ≠ .ne ∧ Comparison.notLike ≠ .ne := by decide
    have hlike := compile_fulltext c m locale hink hne.1 phrase
    have hnotLike := compile_fulltext c m locale hink hne.2 phrase
    refine ⟨_, _, hlike, hnotLike, iff_of_false (fun h => ?_) (not_not_intro rfl), fun _ => rfl⟩
    exact iff_not_self (h _ (IndexedDocument.ofTexts_readsNegation fun _ => false))
  · obtain ⟨s', hprepared⟩ := exists_prepare_str hpreparers s phrase
    obtain ⟨hlike, hnotLike⟩ := compileValue_like hbuilders hprepared (m.target locale field)
    refine ⟨.queryString s' [(m.target locale field).name] none false,
      .queryString ("NOT (" ++ s' ++ ")") [(m.target locale field).name] none false, ?_, ?_,
      iff_of_true (fun doc hdoc => hdoc s' _ none false) hfield, fun h => absurd h hfield⟩
    · rw [compile_value c m locale hfield, hlike]
      rfl
    · rw [compile_value c m locale hfield, hnotLike]
      rfl

/-- A title with a word in it, given with a blank before it. -/
theorem matchedBy_notLike_of_climate :
    let doc := IndexedDocument.ofTexts (· == "climate".toList)
    standard.builders = FilterBuilder.standard ∧ standard.preparers = Preparer.standard ∧
      Text.hasInk " climate" = true ∧ doc.ReadsNegation ∧
      ∃ q q',
        standard.compile ⟨[], none⟩ none (value "title" .like (.str " climate") false) =
            .ok (some q) ∧
          standard.compile ⟨[], none⟩ none (value "title" .notLike (.str " climate") false) =
            .ok (some q') ∧
          q.MatchedBy doc ∧ ¬ q'.MatchedBy doc := by
  intro doc
  have hink : Text.hasInk " climate" = true := by decide
  have hdoc : doc.ReadsNegation := IndexedDocument.ofTexts_readsNegation _
  have hlike : standard.compile ⟨[], none⟩ none (value "title" .like (.str " climate") false) =
      .ok (some (.queryString "climate" ["title"] none false)) := rfl
  have hanswer : (Query.queryString "climate" ["title"] none false).MatchedBy doc := by
    have hread : Text.isRead (· == "climate".toList) "climate".toList = true := by
      rw [Text.isRead]
      rfl
    exact hread
  obtain ⟨q, q', hq, hq', hiff, -⟩ :=
    matchedBy_notLike_iff (c := standard) rfl rfl hink ⟨[], none⟩ none "title" false
  obtain rfl := Option.some.inj (Except.ok.inj (hlike.symm.trans hq))
  have hcomplement := hiff.mpr (by decide) doc hdoc
  exact ⟨rfl, rfl, hink, hdoc, _, q', hlike, hq', hanswer, fun h => hcomplement.mp h hanswer⟩

/-- What is not to be like a text is found in the whole text by what is like it. -/
theorem not_complement_of_fulltext :
    let q := Query.queryString "climate" ["fulltext"] (some .and) false
    let doc := IndexedDocument.ofTexts (· == "climate".toList)
    standard.compile ⟨[], none⟩ none (value "fulltext" .like (.str "climate") false) =
        .ok (some q) ∧
      standard.compile ⟨[], none⟩ none (value "fulltext" .notLike (.str "climate") false) =
        .ok (some q) ∧
      doc.ReadsNegation ∧ ¬ (q.MatchedBy doc ↔ ¬ q.MatchedBy doc) :=
  ⟨rfl, rfl, IndexedDocument.ofTexts_readsNegation _, iff_not_self⟩

end Compiler

end SearchExpr
