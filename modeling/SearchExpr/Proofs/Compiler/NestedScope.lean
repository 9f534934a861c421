import SearchExpr.Proofs.Compiler.LeafQueries
import SearchExpr.Proofs.Mapping.Lookup

/-! # Nested scopes

A field of a nested one can only be asked for in its scope. Equality with a value, and its negation,
are put there once; all other conditions stay outside.
-/

namespace SearchExpr

namespace Query

variable {q : Query} {paths : List String} {path : String}

mutual

/-- For every leaf query, the paths of the nested queries around it, the outermost first. -/
def scopes : Query → List (List String)
  | bool _ qs => scopesInAll qs
  | nested path q => (scopes q).map (path :: ·)
  | _ => [[]]

def scopesInAll : List Query → List (List String)
  | [] => []
  | q :: qs => scopes q ++ scopesInAll qs

end

mutual

/-- How many nested queries are one in the other. -/
def nestingDepth : Query → Nat
  | bool _ qs => nestingDepthInAll qs
  | nested _ q => nestingDepth q + 1
  | _ => 0

def nestingDepthInAll : List Query → Nat
  | [] => 0
  | q :: qs => max (nestingDepth q) (nestingDepthInAll qs)

end

/-- All leaf queries are in nested queries with these paths, and there are no other ones. -/
structure LiesIn (paths : List String) (q : Query) : Prop where
  inhabited : q.scopes ≠ []
  scopes : ∀ s ∈ q.scopes, s = paths
  depth : q.nestingDepth = paths.length

theorem LiesIn.not (h : q.LiesIn paths) : q.not.LiesIn paths := by
  have hscopes : q.not.scopes = q.scopes := List.append_nil _
  have hdepth : q.not.nestingDepth = q.nestingDepth := Nat.max_eq_left (Nat.zero_le _)
  exact ⟨hscopes ▸ h.inhabited, hscopes ▸ h.scopes, hdepth ▸ h.depth⟩

theorem LiesIn.nested (h : q.LiesIn paths) : (nested path q).LiesIn (path :: paths) := by
  refine ⟨?_, ?_, ?_⟩
  · rw [Query.scopes, ne_eq, List.map_eq_nil_iff]
    exact h.inhabited
  · intro s hs
    rw [Query.scopes] at hs
    obtain ⟨s', hs', rfl⟩ := List.mem_map.mp hs
    rw [h.scopes s' hs']
  · rw [nestingDepth, h.depth, List.length_cons]

theorem LiesIn.unique {paths' : List String} (h : q.LiesIn paths) (h' : q.LiesIn paths') :
    paths = paths' := by
  obtain ⟨s, hs⟩ := List.exists_mem_of_ne_nil _ h.inhabited
  exact (h.scopes s hs).symm.trans (h'.scopes s hs)

theorem liesIn_leaf (hscopes : q.scopes = [[]]) (hdepth : q.nestingDepth = 0) : q.LiesIn [] :=
  ⟨by simp [hscopes], by simp [hscopes], hdepth⟩

end Query

theorem FlatBuilder.liesIn_of_build {b : FlatBuilder} {name : String} {v : Value}
    {context : FilterContext} {q : Query} (h : b.build name v context = .ok q) : q.LiesIn [] := by
  cases b with
  | absence =>
    obtain rfl := Except.ok.inj h
    refine ⟨?_, ?_, ?_⟩ <;>
      simp [falseOrAbsent, Query.scopes, Query.scopesInAll, Query.nestingDepth,
        Query.nestingDepthInAll, Query.termOn, Query.not]
  | phrase | queryString =>
    obtain ⟨text, -, rfl⟩ := map_eq_ok.mp h
    exact Query.liesIn_leaf rfl rfl
  | term =>
    obtain ⟨w, -, rfl⟩ := map_eq_ok.mp h
    exact Query.liesIn_leaf rfl rfl

/-- Conditions that are compiled by filters. -/
def Expr.isEquality : Expr → Bool
  | .value _ .eq _ _ | .value _ .ne _ _ => true
  | _ => false

namespace Compiler

variable {c : Compiler} {m : Mapping} {locale : Option String} {target : Target} {v : Value}
  {phrase : Bool} {p : PreparedValue} {e : Expr} {scope : Field} {path rest : String}
  {answer : Option Query} {q : Query}

theorem liesIn_of_equality (hbuilders : c.builders = FilterBuilder.standard)
    (hfield : target.field = some scope) (hnested : scope.isNested = true)
    (hp : c.Prepares target v phrase p) (hq : p.equality = .ok q) : q.LiesIn [scope.name] := by
  have hscope : FilterBuilder.scope? p.context = some scope :=
    FilterBuilder.scope?_eq_some.mpr ⟨hp.outside, hp.field.trans hfield, hnested⟩
  obtain ⟨_, q', hq', rfl⟩ := FilterBuilder.exists_flat_build (hbuilders ▸ hp.builder) hq
  rw [hscope]
  exact (FlatBuilder.liesIn_of_build hq').nested

theorem liesIn_of_leafQuery (hbuilders : c.builders = FilterBuilder.standard)
    (hfield : target.field = some scope) (hnested : scope.isNested = true)
    (h : LeafQuery c target e q) : q.LiesIn (if e.isEquality then [scope.name] else []) := by
  cases h with
  | equal hp hq => exact liesIn_of_equality hbuilders hfield hnested hp hq
  | unequal hp hq => exact (liesIn_of_equality hbuilders hfield hnested hp hq).not
  | text text hcomparison =>
    rcases hcomparison with rfl | rfl <;> exact Query.liesIn_leaf rfl rfl
  | @pattern _ comparison _ _ _ _ _ hcomparison =>
    cases comparison <;> first | exact Query.liesIn_leaf rfl rfl | simp [Comparison.isPattern] at hcomparison
  | @bound _ comparison _ _ _ hcomparison =>
    cases comparison <;> first
      | exact Query.liesIn_leaf rfl rfl
      | simp [Comparison.lower?, Comparison.upper?] at hcomparison
  | otherDay bounds => exact Query.LiesIn.not (Query.liesIn_leaf rfl rfl)
  | choices | range | day | dayRange => exact Query.liesIn_leaf rfl rfl

/-- A condition on a field of a nested one is put in the scope of that field if it is an equality,
and only then. -/
theorem liesIn_compile (hbuilders : c.builders = FilterBuilder.standard)
    (hscope : m.field? path = some scope) (hnested : scope.isNested = true)
    (hpath : Text.hasDot path = false) (hname : m.field? (path ++ "." ++ rest) = none)
    (hfield : e.field? = some (path ++ "." ++ rest))
    (h : c.compile m locale e = .ok answer) :
    ∃ q, answer = some q ∧ q.LiesIn (if e.isEquality then [path] else []) ∧
      (q.LiesIn [path] ↔ e.isEquality = true) := by
  have htext : path ++ "." ++ rest ≠ fulltextField := by
    intro heq
    have hdot := Text.hasDot_append_dot path rest
    rw [heq] at hdot
    exact absurd hdot (by decide)
  obtain ⟨q, rfl, hq⟩ := leafQuery_of_compile hfield htext h
  rw [Mapping.target_of_scope locale hscope hnested hpath hname] at hq
  have hlies := liesIn_of_leafQuery hbuilders rfl hnested hq
  rw [Mapping.name_of_field? hscope] at hlies
  refine ⟨q, rfl, hlies, ⟨fun hin => ?_, fun hequality => by rwa [if_pos hequality] at hlies⟩⟩
  by_contra hother
  rw [if_neg hother] at hlies
  exact absurd (hin.unique hlies) (List.cons_ne_nil _ _)

/-- An article with a headline, which is not the one that is asked for. -/
theorem liesIn_compile_of_headline :
    let scope : Field := ⟨"article", .nested, false, false, false,
      [⟨"headline", .text, false, false, false, [], none⟩], none⟩
    let m : Mapping := ⟨[scope], none⟩
    let e := Expr.value "article.headline" .ne (.str "election") false
    let q := Query.not
      (.nested "article" (.queryString "election" ["article.headline"] (some .and) false))
    m.field? "article" = some scope ∧ scope.isNested = true ∧ Text.hasDot "article" = false ∧
      m.field? ("article" ++ "." ++ "headline") = none ∧
      e.field? = some ("article" ++ "." ++ "headline") ∧
      standard.compile m none e = .ok (some q) ∧ q.LiesIn ["article"] := by
  intro scope m e q
  have hpath : Text.hasDot "article" = false := by decide
  have hname : m.field? ("article" ++ "." ++ "headline") = none := by decide
  have hfield : e.field? = some ("article" ++ "." ++ "headline") := by decide
  have hcompile : standard.compile m none e = .ok (some q) := by
    unfold e q m scope
    rfl
  obtain ⟨_, hq, -, hlies⟩ := liesIn_compile rfl rfl rfl hpath hname hfield hcompile
  obtain rfl := Option.some.inj hq
  exact ⟨rfl, rfl, hpath, hname, hfield, hcompile, hlies.mpr rfl⟩

/-- The values of a set are not looked for among the pages of the article. -/
theorem not_liesIn_of_choices :
    let scope : Field := ⟨"article", .nested, false, false, false, [], none⟩
    let m : Mapping := ⟨[scope], none⟩
    let q := Query.terms "article.pages" [.int 1]
    m.field? "article" = some scope ∧ scope.isNested = true ∧ Text.hasDot "article" = false ∧
      m.field? ("article" ++ "." ++ "pages") = none ∧
      standard.compile m none (.isIn "article.pages" ⟨.int 1, []⟩) = .ok (some q) ∧
      ¬ q.LiesIn ["article"] := by
  refine ⟨rfl, rfl, by decide, rfl, rfl, fun hlies => ?_⟩
  have hscope := hlies.scopes [] List.mem_cons_self
  exact absurd hscope (by decide)

end Compiler

end SearchExpr
