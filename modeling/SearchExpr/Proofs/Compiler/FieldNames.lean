import SearchExpr.Proofs.Compiler.LeafQueries
import SearchExpr.Proofs.Text.Paths

/-! # Field names in queries

Some queries name their field by a parameter, where two underscores stand for a dot, others name it
in their data, as it is. A condition is on the field that it names unless its query uses a parameter
and the name is one that a parameter changes.
-/

namespace SearchExpr

/-! ## Names as parameters -/

namespace Query

variable {name whole : String}

theorem length_parameterName_le (name : String) :
    (parameterName name).toList.length ≤ name.toList.length := by
  have hlength := Text.length_dotted_le name.toList
  rw [parameterName]
  split
  case isTrue heq =>
    rw [beq_iff_eq, ← String.toList_inj, Text.toList_dottedName] at heq
    rw [heq] at hlength
    exact Nat.le_trans (by decide) hlength
  case isFalse => rwa [Text.toList_dottedName]

/-- The names that a parameter does not change. -/
theorem parameterName_eq_self_iff :
    parameterName name = name ↔ ¬ ['_', '_'] <:+: name.toList ∧ name ≠ "from_" := by
  rw [← Text.dottedName_eq_self_iff, parameterName]
  split
  case isTrue heq =>
    rw [beq_iff_eq] at heq
    rw [heq]
    constructor
    · rintro rfl
      exact absurd heq (by decide)
    · rintro ⟨hname, hne⟩
      exact absurd hname.symm hne
  case isFalse hne =>
    rw [beq_iff_eq] at hne
    exact ⟨fun heq => ⟨heq, fun hfrom => hne (heq.trans hfrom)⟩, fun h => h.1⟩

theorem parameterName_append_dot (name suffix : String) :
    parameterName (name ++ "." ++ suffix) =
      Text.dottedName name ++ "." ++ Text.dottedName suffix := by
  have hdotted : Text.dottedName (name ++ "." ++ suffix) =
      Text.dottedName name ++ "." ++ Text.dottedName suffix := by
    rw [← String.toList_inj, Text.toList_dottedName]
    simp [Text.toList_dottedName, Text.dotted_append_dot]
  have hne : Text.dottedName name ++ "." ++ Text.dottedName suffix ≠ "from_" := by
    rw [ne_eq, ← String.toList_inj]
    intro heq
    have hdot : '.' ∈ "from_".toList := heq ▸ by simp
    exact absurd hdot (by decide)
  rw [parameterName, hdotted, if_neg (by simpa using hne)]

end Query

/-! ## Names of whole values -/

theorem keywordName_cases (field : Option Field) (name : String) (v : Value) :
    keywordName field name v = name ∨
      keywordName field name v = name ++ ".keyword" ∧ ¬ ".keyword".toList <:+ name.toList := by
  unfold keywordName
  split
  case h_1 field s =>
    split
    case isTrue h =>
      rw [Bool.and_eq_true, Bool.not_eq_true', ← Bool.not_eq_true, List.isSuffixOf_iff_suffix] at h
      exact Or.inr ⟨rfl, h.2⟩
    case isFalse => exact Or.inl rfl
  case h_2 => exact Or.inl rfl

/-- A parameter names one of the two names of a field only by naming the one that is meant. -/
theorem Query.parameterName_keywordName_iff (field : Option Field) (name : String) (v : Value) :
    (parameterName (keywordName field name v) = name ∨
        parameterName (keywordName field name v) = name ++ ".keyword") ↔
      parameterName (keywordName field name v) = keywordName field name v := by
  rcases keywordName_cases field name v with heq | ⟨heq, hsuffix⟩
  · rw [heq, or_iff_left]
    intro hkeyword
    have hlength := length_parameterName_le name
    have hsuffix : ".keyword".toList.length = 8 := rfl
    rw [hkeyword, String.toList_append, List.length_append] at hlength
    omega
  · rw [heq, or_iff_right]
    intro hname
    have hsplit (s : String) : s ++ ".keyword" = s ++ "." ++ "keyword" := by
      rw [String.append_assoc]
      rfl
    have hword : Text.dottedName "keyword" = "keyword" := rfl
    rw [hsplit, parameterName_append_dot, hword, ← hsplit] at hname
    refine hsuffix ⟨(Text.dottedName name).toList, ?_⟩
    rw [← String.toList_append, hname]

/-! ## Names in queries -/

/-- How a query names a field: by a parameter, by one that is for patterns, or in its data. -/
inductive NameUse where
  | parameter | pattern | data
  deriving DecidableEq

namespace Query

mutual

/-- The names of fields in a query, with how they are used. -/
def fieldUses : Query → List (NameUse × String)
  | bool _ qs => fieldUsesInAll qs
  | term field _ | terms field _ | range field _ => [(.parameter, field)]
  | wildcard field _ => [(.pattern, field)]
  | queryString _ fields _ _ => fields.map fun field => (.data, field)
  | nested _ q => fieldUses q
  | present field => [(.data, field)]
  | matchAll | matchNone => []

def fieldUsesInAll : List Query → List (NameUse × String)
  | [] => []
  | q :: qs => fieldUses q ++ fieldUsesInAll qs

end

/-- A query is on a field only; patterns may be compared with its whole values. -/
def NamesOnly (name : String) (q : Query) : Prop :=
  ∀ u ∈ q.fieldUses, u.2 = name ∨ u.1 = .pattern ∧ u.2 = name ++ ".keyword"

/-- What is written for a name, where a pattern is for another one. -/
def written (name whole : String) : NameUse → String
  | .parameter => parameterName name
  | .pattern => parameterName whole
  | .data => name

theorem fieldUses_not (q : Query) : q.not.fieldUses = q.fieldUses := List.append_nil _

theorem namesOnly_of_data {q : Query} {name : String} (h : ∀ u ∈ q.fieldUses, u = (.data, name)) :
    q.NamesOnly name := by
  intro u hu
  exact Or.inl (by rw [h u hu])

end Query

/-! ## Filters -/

namespace FlatBuilder

variable {v : Value} {context : FilterContext} {name : String} {q : Query}

theorem select_of_text (context : FilterContext) (htext : isText v = true) :
    select v context = phrase ∨ select v context = queryString := by
  have hfalse : isFalse v = false := by cases v <;> first | rfl | simp [isText] at htext
  cases hphrase : context.phrase <;> simp [select, standard, supports, htext, hfalse, hphrase]

theorem select_of_not_text (context : FilterContext) (htext : isText v = false) :
    select v context = absence ∨ select v context = term := by
  cases habsence : context.field.any (·.treatsAbsenceAsFalse) && isFalse v <;>
    simp [select, standard, supports, htext, habsence]

/-- Text is searched for in fields named in the data; other values are for a parameter, which is
what decides about the names, also where the data names the field too. -/
theorem namesOnly_iff_of_build (h : (select v context).build name v context = .ok q) :
    (∀ u ∈ q.fieldUses, u.2 = Query.written name name u.1) ∧
      (q.NamesOnly name ↔ isText v = true ∨ Query.parameterName name = name) := by
  cases htext : isText v with
  | true =>
    have hdata : ∀ u ∈ q.fieldUses, u = (.data, name) := by
      rcases select_of_text context htext with hselect | hselect <;>
        rw [hselect] at h <;> obtain ⟨text, -, rfl⟩ := map_eq_ok.mp h <;> simp [Query.fieldUses]
    refine ⟨fun u hu => by rw [hdata u hu]; rfl, iff_of_true ?_ (Or.inl rfl)⟩
    exact Query.namesOnly_of_data hdata
  | false =>
    rcases select_of_not_text context htext with hselect | hselect
    · rw [hselect] at h
      obtain rfl := Except.ok.inj h
      simp [falseOrAbsent, Query.NamesOnly, Query.fieldUses, Query.fieldUsesInAll, Query.termOn,
        Query.not, Query.written]
    · rw [hselect] at h
      obtain ⟨w, -, rfl⟩ := map_eq_ok.mp h
      simp [Query.NamesOnly, Query.fieldUses, Query.termOn, Query.written]

end FlatBuilder

/-! ## Conditions on a field -/

namespace Compiler

variable {c : Compiler} {m : Mapping} {locale : Option String} {target : Target} {v : Value}
  {phrase : Bool} {p : PreparedValue} {e : Expr} {field : String} {answer : Option Query}
  {q : Query}

/-- The name that a condition may have to write as a parameter. -/
def nameForParameter (c : Compiler) (target : Target) : Expr → String
  | .value _ comparison v phrase =>
    match v.prepare c.preparers phrase with
    | .ok prepared =>
      if comparison.isPattern then keywordName target.field target.name prepared else target.name
    | .error _ => target.name
  | _ => target.name

/-- A condition that is compiled to the search for a text. -/
def AsksText (c : Compiler) : Expr → Prop
  | .value _ .like _ _ | .value _ .notLike _ _ => True
  | .value _ .eq v phrase | .value _ .ne v phrase =>
    ∃ prepared, v.prepare c.preparers phrase = .ok prepared ∧ FlatBuilder.isText prepared = true
  | _ => False

theorem nameForParameter_eq (hpattern : comparison.isPattern = false) :
    c.nameForParameter target (.value field comparison v phrase) = target.name := by
  rw [nameForParameter]
  split
  case h_1 => rw [hpattern, if_neg Bool.false_ne_true]
  case h_2 => rfl

/-- How the names in a query come from those in a condition, and when they are the same. -/
def NamesAs (c : Compiler) (target : Target) (e : Expr) (q : Query) : Prop :=
  (∀ u ∈ q.fieldUses, u.2 = Query.written target.name (c.nameForParameter target e) u.1) ∧
    (q.NamesOnly target.name ↔ c.AsksText e ∨
      Query.parameterName (c.nameForParameter target e) = c.nameForParameter target e)

theorem namesAs_parameter (huses : q.fieldUses = [(.parameter, Query.parameterName target.name)])
    (hname : c.nameForParameter target e = target.name) (htext : ¬ c.AsksText e) :
    c.NamesAs target e q := by
  simp [NamesAs, Query.NamesOnly, huses, hname, htext, Query.written]

theorem namesAs_equality {comparison : Comparison} (hbuilders : c.builders = FilterBuilder.standard)
    (hcomparison : comparison = .eq ∨ comparison = .ne) (hp : c.Prepares target v phrase p)
    (hq : p.equality = .ok q) : c.NamesAs target (.value field comparison v phrase) q := by
  have hname : c.nameForParameter target (.value field comparison v phrase) = target.name :=
    nameForParameter_eq (by rcases hcomparison with rfl | rfl <;> rfl)
  have htext : c.AsksText (.value field comparison v phrase) ↔
      FlatBuilder.isText p.value = true := by
    have hprepared : (∃ prepared, v.prepare c.preparers phrase = .ok prepared ∧
        FlatBuilder.isText prepared = true) ↔ FlatBuilder.isText p.value = true := by
      simp [hp.value]
    rcases hcomparison with rfl | rfl <;> exact hprepared
  obtain ⟨inner, q', hq', rfl⟩ := FilterBuilder.exists_flat_build (hbuilders ▸ hp.builder) hq
  have huses : Query.fieldUses ((FilterBuilder.scope? p.context).elim q'
      fun scope => .nested scope.name q') = q'.fieldUses := by
    cases FilterBuilder.scope? p.context <;> rfl
  rw [hp.sameTarget] at hq'
  obtain ⟨hwritten, hnames⟩ := FlatBuilder.namesOnly_iff_of_build hq'
  rw [NamesAs, Query.NamesOnly, huses, hname, htext]
  exact ⟨hwritten, hnames⟩

theorem NamesAs.not (h : c.NamesAs target e q) : c.NamesAs target e q.not := by
  rw [NamesAs, Query.NamesOnly, Query.fieldUses_not]
  exact h

theorem namesAs_text {comparison : Comparison} (text : String)
    (hcomparison : comparison = .like ∨ comparison = .notLike) :
    c.NamesAs target (.value field comparison v phrase)
      (.queryString text [target.name] none false) := by
  have hasks : c.AsksText (.value field comparison v phrase) := by
    rcases hcomparison with rfl | rfl <;> trivial
  have hdata : ∀ u ∈ Query.fieldUses (.queryString text [target.name] none false),
      u = (.data, target.name) := by simp [Query.fieldUses]
  refine ⟨fun u hu => by rw [hdata u hu]; rfl, iff_of_true ?_ (Or.inl hasks)⟩
  exact Query.namesOnly_of_data hdata

theorem namesAs_pattern {comparison : Comparison} (pattern : String)
    (hp : c.Prepares target v phrase p) (hcomparison : comparison.isPattern = true) :
    c.NamesAs target (.value field comparison v phrase)
      (.wildcardOn (keywordName target.field target.name p.value) pattern) := by
  have hname : c.nameForParameter target (.value field comparison v phrase) =
      keywordName target.field target.name p.value := by
    simp [nameForParameter, hp.value, hcomparison]
  have hasks : ¬ c.AsksText (.value field comparison v phrase) := by
    cases comparison <;> first | exact id | simp [Comparison.isPattern] at hcomparison
  rw [NamesAs, hname, ← Query.parameterName_keywordName_iff, or_iff_right hasks]
  simp [Query.NamesOnly, Query.wildcardOn, Query.fieldUses, Query.written]

theorem namesAs_bound {comparison : Comparison} (bounds : List (RangeKey × Value))
    (hcomparison : comparison.lower?.isSome = true ∨ comparison.upper?.isSome = true) :
    c.NamesAs target (.value field comparison v phrase) (.rangeOn target.name bounds) := by
  cases comparison <;> first
    | exact namesAs_parameter rfl (nameForParameter_eq rfl) id
    | simp [Comparison.lower?, Comparison.upper?] at hcomparison

theorem namesAs_of_leafQuery (hbuilders : c.builders = FilterBuilder.standard)
    (h : LeafQuery c target e q) : c.NamesAs target e q := by
  cases h with
  | equal hp hq => exact namesAs_equality hbuilders (Or.inl rfl) hp hq
  | unequal hp hq => exact (namesAs_equality hbuilders (Or.inr rfl) hp hq).not
  | text text hcomparison => exact namesAs_text text hcomparison
  | pattern pattern hp hcomparison => exact namesAs_pattern pattern hp hcomparison
  | bound bounds hcomparison => exact namesAs_bound bounds hcomparison
  | otherDay bounds =>
    exact NamesAs.not (namesAs_parameter rfl rfl id)
  | choices | range | day | dayRange => exact namesAs_parameter rfl rfl id

/-- The query for a condition is on the field of the condition if that is searched for text, or if
the name is one that a parameter keeps, and only then. -/
theorem namesOnly_compile (hbuilders : c.builders = FilterBuilder.standard)
    (hfield : e.field? = some field) (htext : field ≠ fulltextField)
    (h : c.compile m locale e = .ok answer) :
    let name := m.resolve locale field
    let whole := c.nameForParameter (m.target locale field) e
    ∃ q, answer = some q ∧ (∀ u ∈ q.fieldUses, u.2 = Query.written name whole u.1) ∧
      (q.NamesOnly name ↔
        c.AsksText e ∨ ¬ ['_', '_'] <:+: whole.toList ∧ whole ≠ "from_") := by
  intro name whole
  obtain ⟨q, rfl, hq⟩ := leafQuery_of_compile hfield htext h
  obtain ⟨hwritten, hnames⟩ := namesAs_of_leafQuery hbuilders hq
  refine ⟨q, rfl, hwritten, ?_⟩
  rw [← Query.parameterName_eq_self_iff]
  exact hnames

/-- A caption is compared with a pattern as a whole. -/
theorem namesOnly_compile_of_caption :
    let m : Mapping := ⟨[⟨"caption", .text, true, false, false, [], none⟩], none⟩
    let e := Expr.value "caption" .startsWith (.str "a") false
    let q := Query.wildcard "caption.keyword" "a*"
    e.field? = some "caption" ∧ "caption" ≠ fulltextField ∧
      standard.compile m none e = .ok (some q) ∧ q.NamesOnly "caption" := by
  intro m e q
  have htext : "caption" ≠ fulltextField := by decide
  have hcompile : standard.compile m none e = .ok (some q) := by
    unfold e q m
    rfl
  obtain ⟨_, hq, -, hnames⟩ := namesOnly_compile rfl rfl htext hcompile
  obtain rfl := Option.some.inj hq
  have hwhole : standard.nameForParameter (m.target none "caption") e = "caption.keyword" := by
    unfold e m
    rfl
  refine ⟨rfl, htext, hcompile, hnames.mpr (Or.inr ?_)⟩
  rw [hwhole, ← Query.parameterName_eq_self_iff]
  rfl

/-- The absence of one field counts as the value of another one. -/
theorem not_namesOnly_of_absence :
    let m : Mapping := ⟨[⟨"a__b", .boolean, false, false, false, [], none⟩], none⟩
    let q := Query.bool .should [.term "a.b" (.bool false), .not (.present "a__b")]
    m.resolve none "a__b" = "a__b" ∧ "a__b" ≠ fulltextField ∧
      standard.compile m none (.value "a__b" .eq (.bool false) false) = .ok (some q) ∧
      ¬ q.NamesOnly "a__b" := by
  refine ⟨rfl, by decide, rfl, fun hnames => ?_⟩
  rcases hnames (.parameter, "a.b") List.mem_cons_self with heq | ⟨huse, -⟩
  · exact absurd heq (by decide)
  · cases huse

end Compiler

end SearchExpr
