import SearchExpr.Criteria.Key
import SearchExpr.Proofs.Text.Paths

/-! # Reading filter keys back

A key made of the parts of a path and perhaps a lookup, with two underscores between them, is read
as that path and that lookup. Only a path of several parts that ends in the word of a lookup cannot
be a key of its own.
-/

namespace SearchExpr

namespace Lookup

variable {word : String} {lookup : Lookup}

theorem lookup_words (h : (word, lookup) ∈ words) : words.lookup word = some lookup := by
  have hall : ∀ entry ∈ words, words.lookup entry.1 = some entry.2 := by decide
  exact hall _ h

theorem lookup_words_eq_none (h : ∀ lookup, (word, lookup) ∉ words) : words.lookup word = none := by
  rw [List.lookup_eq_none_iff]
  rintro ⟨word', lookup⟩ hmem
  rw [bne_iff_ne]
  rintro rfl
  exact h lookup hmem

theorem eq_of_mem_words {word' : String} (h : (word, lookup) ∈ words)
    (h' : (word', lookup) ∈ words) : word' = word := by
  have hall : ∀ entry ∈ words, ∀ entry' ∈ words, entry'.2 = entry.2 → entry'.1 = entry.1 := by
    decide
  exact hall _ h _ h' rfl

/-- No lookup is spelt with an underscore. -/
theorem no_pair_words (h : (word, lookup) ∈ words) : ¬ ['_', '_'] <:+: '_' :: word.toList := by
  have hall : ∀ entry ∈ words, ¬ ['_', '_'] <:+: '_' :: entry.1.toList := by decide
  exact hall _ h

end Lookup

variable {path word key : String} {segments : List String}

theorem splitKey_of_no_pair (h : ¬ ['_', '_'] <:+: key.toList) :
    splitKey key = (Text.dottedName key, .compare .eq) := by
  rw [splitKey, Text.splitLastPair?_eq_none_iff.mpr h]

section

variable (h : ¬ ['_', '_'] <:+: '_' :: word.toList)

include h

theorem splitLastPair?_key :
    Text.splitLastPair? (path ++ "__" ++ word).toList = some (path.toList, word.toList) := by
  simpa using Text.splitLastPair?_append h

theorem splitKey_of_lookup {lookup : Lookup} (hword : Lookup.words.lookup word = some lookup) :
    splitKey (path ++ "__" ++ word) = (Text.dottedName path, lookup) := by
  rw [splitKey, splitLastPair?_key h]
  simp only [String.ofList_toList, hword]

theorem splitKey_of_no_lookup (hword : Lookup.words.lookup word = none) :
    splitKey (path ++ "__" ++ word) = (Text.dottedName (path ++ "__" ++ word), .compare .eq) := by
  rw [splitKey, splitLastPair?_key h]
  simp only [String.ofList_toList, hword]

end

theorem dottedName_intercalate (h : ∀ s ∈ segments, Text.IsSegment s.toList) :
    Text.dottedName ("__".intercalate segments) = ".".intercalate segments := by
  have hparts : ∀ s ∈ segments.map String.toList, Text.IsSegment s := by simpa using h
  rw [← String.toList_inj, Text.toList_dottedName, String.toList_intercalate,
    String.toList_intercalate]
  exact Text.dotted_intercalate hparts

/-- A key spells the path of its parts and the lookup after them, which no other word spells. Without
a lookup it spells the path, unless the last of several parts is read as one. -/
theorem splitKey_intercalate (hne : segments ≠ [])
    (hsegments : ∀ s ∈ segments, Text.IsSegment s.toList) :
    (∀ word lookup, (word, lookup) ∈ Lookup.words →
      splitKey ("__".intercalate segments ++ "__" ++ word) = (".".intercalate segments, lookup) ∧
        ∀ word', (word', lookup) ∈ Lookup.words → word' = word) ∧
    ((segments.length = 1 ∨ ∀ lookup, (segments.getLast hne, lookup) ∉ Lookup.words) →
      splitKey ("__".intercalate segments) = (".".intercalate segments, .compare .eq)) := by
  rw [← dottedName_intercalate hsegments]
  constructor
  · intro word lookup hword
    refine ⟨?_, fun word' hword' => Lookup.eq_of_mem_words hword hword'⟩
    exact splitKey_of_lookup (Lookup.no_pair_words hword) (Lookup.lookup_words hword)
  · intro hlast
    obtain ⟨init, last, rfl⟩ : ∃ init last, segments = init ++ [last] :=
      ⟨_, _, (List.dropLast_append_getLast hne).symm⟩
    have hsegment : Text.IsSegment last.toList := hsegments last (by simp)
    rcases eq_or_ne init [] with rfl | hinit
    · rw [List.nil_append, String.intercalate_singleton]
      exact splitKey_of_no_pair hsegment.no_pair
    · -- The last part has a pair before it, so it is looked up and must not be found.
      have hnone : Lookup.words.lookup last = none := by
        apply Lookup.lookup_words_eq_none
        simpa [hinit] using hlast
      rw [String.intercalate_append_of_ne_nil hinit (by simp), String.intercalate_singleton]
      exact splitKey_of_no_lookup hsegment.no_pair_cons hnone

/-- A part that is the word of a lookup is a part of the path unless it is the last one. -/
theorem splitKey_intercalate_of_article :
    let segments := ["article", "in", "page_no"]
    segments ≠ [] ∧ (∀ s ∈ segments, Text.IsSegment s.toList) ∧
      ("gte", Lookup.compare .ge) ∈ Lookup.words ∧ (∀ lookup, ("page_no", lookup) ∉ Lookup.words) ∧
      splitKey "article__in__page_no__gte" = ("article.in.page_no", .compare .ge) ∧
      splitKey "article__in__page_no" = ("article.in.page_no", .compare .eq) := by
  intro segments
  have hsegments : ∀ s ∈ segments, Text.IsSegment s.toList := by decide
  have hgte : ("gte", Lookup.compare .ge) ∈ Lookup.words := by decide
  have hpage : ∀ lookup, ("page_no", lookup) ∉ Lookup.words := by simp [Lookup.words]
  have hne : segments ≠ [] := List.cons_ne_nil _ _
  have hkey := splitKey_intercalate hne hsegments
  exact ⟨hne, hsegments, hgte, hpage, (hkey.1 "gte" _ hgte).1, hkey.2 (Or.inr hpage)⟩

end SearchExpr
