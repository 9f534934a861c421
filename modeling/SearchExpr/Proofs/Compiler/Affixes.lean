import SearchExpr.Proofs.Compiler.TextSearches
import SearchExpr.Proofs.Text.Wildcards

/-! # Searches for beginnings and ends

What a text begins or ends with is looked for by a pattern, made of the prepared text as it is and a
star. So the pattern finds what it is meant to find exactly if the characters of the text have no
meaning in patterns.
-/

namespace SearchExpr.Compiler

open SearchExpr.Expr

variable {c : Compiler} {m : Mapping} {locale : Option String} {target : Target} {v : Value}
  {phrase : Bool} {field p : String}

/-- The values of a field as a whole are compared with a pattern for a prepared text. -/
theorem compileValue_affix (hbuilders : c.builders = FilterBuilder.standard)
    (hwhole : target.field.any (·.hasWholeValues) = true)
    (hprepared : v.prepare c.preparers phrase = .ok (.str p)) :
    let name := keywordName target.field target.name (.str p)
    c.compileValue target .startsWith v phrase = .ok (.wildcardOn name (p ++ "*")) ∧
      c.compileValue target .endsWith v phrase = .ok (.wildcardOn name ("*" ++ p)) := by
  obtain ⟨b, -, hprepare⟩ := prepareValue_text hbuilders hprepared target
  rw [compileValue, compileValue, hprepare]
  exact ⟨if_pos hwhole, if_pos hwhole⟩

/-- The values that begin with a text are found, and no others, exactly if there is no wildcard and
no backslash in the text as it is prepared. The same holds for those that end with it, but for a
backslash at the end. -/
theorem compile_affixes_iff (hbuilders : c.builders = FilterBuilder.standard)
    (hfield : field ≠ fulltextField)
    (hwhole : (m.target locale field).field.any (·.hasWholeValues) = true)
    (hprepared : v.prepare c.preparers phrase = .ok (.str p)) :
    let target := m.target locale field
    let name := keywordName target.field target.name (.str p)
    ∃ start stop,
      c.compile m locale (value field .startsWith v phrase) =
          .ok (some (.wildcardOn name start)) ∧
        c.compile m locale (value field .endsWith v phrase) = .ok (some (.wildcardOn name stop)) ∧
        ((∀ s : String, Text.matchesPattern start s = true ↔ p.toList <+: s.toList) ↔
          '*' ∉ p.toList ∧ '?' ∉ p.toList ∧ '\\' ∉ p.toList) ∧
        ((∀ s : String, Text.matchesPattern stop s = true ↔ p.toList <:+ s.toList) ↔
          '*' ∉ p.toList ∧ '?' ∉ p.toList ∧ '\\' ∉ p.toList.dropLast) := by
  obtain ⟨hstart, hstop⟩ := compileValue_affix hbuilders hwhole hprepared
  refine ⟨p ++ "*", "*" ++ p, ?_, ?_, Text.matchesPattern_prefix_iff p,
    Text.matchesPattern_suffix_iff p⟩
  · rw [compile_value c m locale hfield, hstart]
    rfl
  · rw [compile_value c m locale hfield, hstop]
    rfl

/-- The titles that begin or end with a word given with blanks around it. -/
theorem compile_affixes_of_title :
    let m : Mapping := ⟨[⟨"title", .text, true, false, false, [], none⟩], none⟩
    standard.builders = FilterBuilder.standard ∧ "title" ≠ fulltextField ∧
      (m.target none "title").field.any (·.hasWholeValues) = true ∧
      (Value.str " Rep ").prepare standard.preparers false = .ok (.str "Rep") ∧
      ∃ start stop,
        standard.compile m none (value "title" .startsWith (.str " Rep ") false) =
            .ok (some (.wildcardOn "title.keyword" start)) ∧
          standard.compile m none (value "title" .endsWith (.str " Rep ") false) =
            .ok (some (.wildcardOn "title.keyword" stop)) ∧
          (∀ s : String, Text.matchesPattern start s = true ↔ "Rep".toList <+: s.toList) ∧
          ∀ s : String, Text.matchesPattern stop s = true ↔ "Rep".toList <:+ s.toList := by
  intro m
  have hfield : "title" ≠ fulltextField := by decide
  have hwhole : (m.target none "title").field.any (·.hasWholeValues) = true := rfl
  have hprepared : (Value.str " Rep ").prepare standard.preparers false = .ok (.str "Rep") := rfl
  have hname : keywordName (m.target none "title").field (m.target none "title").name
      (.str "Rep") = "title.keyword" := by
    unfold m
    rfl
  obtain ⟨start, stop, hstart, hstop, hbegins, hends⟩ :=
    compile_affixes_iff (c := standard) rfl hfield hwhole hprepared
  rw [hname] at hstart hstop
  exact ⟨rfl, hfield, hwhole, hprepared, start, stop, hstart, hstop, hbegins.mpr (by decide),
    hends.mpr (by decide)⟩

/-- A star in a text finds other texts, and a backslash at its end makes the star after it one that
is looked for. -/
theorem not_finds_of_wildcards :
    let m : Mapping := ⟨[⟨"code", .keyword, true, false, false, [], none⟩], none⟩
    standard.compile m none (value "code" .startsWith (.str "a*b") false) =
        .ok (some (.wildcardOn "code" "a*b*")) ∧
      Text.matchesPattern "a*b*" "axb" = true ∧ ¬ "a*b".toList <+: "axb".toList ∧
      standard.compile m none (value "code" .endsWith (.str "a*b") false) =
        .ok (some (.wildcardOn "code" "*a*b")) ∧
      Text.matchesPattern "*a*b" "axb" = true ∧ ¬ "a*b".toList <:+ "axb".toList ∧
      standard.compile m none (value "code" .startsWith (.str "a\\") false) =
        .ok (some (.wildcardOn "code" "a\\*")) ∧
      Text.matchesPattern "a\\*" "a\\" = false ∧ "a\\".toList <+: "a\\".toList :=
  ⟨rfl, by decide, by decide, rfl, by decide, by decide, rfl, by decide, by decide⟩

end SearchExpr.Compiler
