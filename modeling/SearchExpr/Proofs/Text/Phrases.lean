import SearchExpr.Proofs.Text.Escapes
import SearchExpr.Text.Phrase

/-! # Quoted phrases

The query language reads a phrase from its opening quote to the next one that is not escaped. The
phrase for a text begins and ends with a quote, but only the quotes are escaped in a text that is no
phrase yet, and nothing is in one that is. So it is one phrase exactly if the backslashes of the
text do not change how the quotes in it and the one after it are read.
-/

namespace SearchExpr.Text

/-! ## Reading phrases -/

/-- What follows the first quote that is not escaped, if there is one. -/
def afterQuote? (escaped : Bool) : List Char → Option (List Char)
  | [] => none
  | c :: s => if c = '\x22' ∧ escaped = false then some s else afterQuote? (c == '\\' && !escaped) s

/-- A text is one phrase: a quote opens it, a quote ends it, and none before that closes it. -/
structure IsOnePhrase (s : List Char) : Prop where
  opened : s.head? = some '\x22'
  ended : s.getLast? = some '\x22'
  closed : afterQuote? false s.tail = some []

/-- Each quote in a text is escaped, or none is. The second flag is for its first character. -/
def QuotesAre (escapes escaped : Bool) (s : List Char) : Prop :=
  ∀ a b, s = a ++ '\x22' :: b → escapesNext escaped a = escapes

variable {s : List Char} {c : Char} {escapes escaped : Bool}

theorem quotesAre_nil : QuotesAre escapes escaped [] := by
  intro a b heq
  simp at heq

theorem quotesAre_cons :
    QuotesAre escapes escaped (c :: s) ↔
      (c = '\x22' → escaped = escapes) ∧ QuotesAre escapes (c == '\\' && !escaped) s := by
  constructor
  · intro h
    refine ⟨?_, fun a b hs => h (c :: a) b (by rw [hs]; rfl)⟩
    rintro rfl
    exact h [] s rfl
  · rintro ⟨hfirst, hrest⟩ a b heq
    cases a with
    | nil =>
      obtain ⟨rfl, rfl⟩ := List.cons.inj heq
      exact hfirst rfl
    | cons d a =>
      obtain ⟨rfl, hs⟩ := List.cons.inj heq
      exact hrest a b hs

/-- A text is closed by the quote after it if that quote is not escaped and all before it are. -/
theorem afterQuote?_append_quote :
    afterQuote? escaped (s ++ ['\x22']) = some [] ↔
      escapesNext escaped s = false ∧ QuotesAre true escaped s := by
  induction s generalizing escaped with
  | nil => cases escaped <;> simp [afterQuote?, escapesNext, quotesAre_nil]
  | cons c s ih =>
    rw [quotesAre_cons, List.cons_append, afterQuote?]
    split
    case isTrue h =>
      obtain ⟨rfl, rfl⟩ := h
      simp
    case isFalse h =>
      have hfirst : c = '\x22' → escaped = true := by simpa using h
      rw [ih, and_iff_right hfirst]
      rfl

/-- A quote that is escaped once more is one that is not escaped. -/
theorem afterQuote?_escapeQuotes :
    afterQuote? escaped (escapeQuotes s ++ ['\x22']) = some [] ↔
      escapesNext escaped s = false ∧ QuotesAre false escaped s := by
  induction s generalizing escaped with
  | nil => cases escaped <;> simp [afterQuote?, escapesNext, escapeQuotes, quotesAre_nil]
  | cons c s ih =>
    rw [quotesAre_cons]
    by_cases hc : c = '\x22'
    · subst hc
      have hcons : escapeQuotes ('\x22' :: s) = '\\' :: '\x22' :: escapeQuotes s := rfl
      cases escaped <;> simp [hcons, afterQuote?, escapesNext, ih]
    · have hcons : escapeQuotes (c :: s) = c :: escapeQuotes s := by simp [escapeQuotes, hc]
      simp [hcons, afterQuote?, escapesNext, hc, ih]

/-! ## What is made of a text -/

theorem isOnePhrase_enquote :
    IsOnePhrase (enquote s) ↔ afterQuote? false (s ++ ['\x22']) = some [] := by
  have hended : (enquote s).getLast? = some '\x22' := List.getLast?_concat
  exact ⟨fun h => h.closed, fun h => ⟨rfl, hended, h⟩⟩

theorem eq_of_isEnclosed {opening closing : Char} (h : isEnclosed opening closing s = true) :
    s = opening :: inner s ++ [closing] := by
  simp only [isEnclosed, Bool.and_eq_true, decide_eq_true_eq, beq_iff_eq] at h
  obtain ⟨⟨hlength, hfirst⟩, hlast⟩ := h
  cases s with
  | nil => cases hfirst
  | cons c s =>
    obtain rfl := Option.some.inj hfirst
    rcases s.eq_nil_or_concat with rfl | ⟨t, d, rfl⟩
    · simp at hlength
    · rw [List.concat_eq_append, ← List.cons_append, List.getLast?_concat] at hlast
      obtain rfl := Option.some.inj hlast
      simp [inner]

/-- The phrase for a text is what is between quotes in it, or the text with its quotes escaped. -/
theorem toList_quotePhrase (v : String) :
    (quotePhrase v).toList =
      enquote (if isPhrase v then inner v.toList else escapeQuotes v.toList) := by
  unfold quotePhrase replaceBraces
  split
  case isFalse => simp
  case isTrue hphrase =>
    split
    case isTrue => simp
    case isFalse hbraced =>
      have hquoted : isEnclosed '\x22' '\x22' v.toList = true := by
        simpa [isPhrase, hbraced] using hphrase
      exact eq_of_isEnclosed hquoted

/-- What is made of a text is a phrase, and is made of a phrase only. -/
theorem isPhrase_quotePhrase (v : String) : isPhrase (quotePhrase v) = true := by
  have hquoted : isEnclosed '\x22' '\x22' (quotePhrase v).toList = true := by
    rw [toList_quotePhrase, isEnclosed, enquote, List.getLast?_concat]
    simp
  rw [isPhrase, hquoted, Bool.true_or]

/-- The phrase for a text is one phrase exactly if the quote that ends it is not escaped, the quotes
in a text that is a phrase already are, and those in any other text are not. -/
theorem isOnePhrase_quotePhrase_iff (v : String) :
    IsOnePhrase (quotePhrase v).toList ↔
      if isPhrase v then
        escapesNext false (inner v.toList) = false ∧ QuotesAre true false (inner v.toList)
      else escapesNext false v.toList = false ∧ QuotesAre false false v.toList := by
  rw [toList_quotePhrase, isOnePhrase_enquote]
  split
  · exact afterQuote?_append_quote
  · exact afterQuote?_escapeQuotes

/-- A backslash leaves a phrase open or closes it early, and so does a quote in one that is given in
braces or in quotes. -/
theorem not_isOnePhrase_quotePhrase :
    (¬ IsOnePhrase (quotePhrase "a\\").toList ∧ quotePhrase "a\\" = "\x22a\\\x22") ∧
      (¬ IsOnePhrase (quotePhrase "a\\\x22b").toList ∧
        quotePhrase "a\\\x22b" = "\x22a\\\\\x22b\x22") ∧
      (¬ IsOnePhrase (quotePhrase "\x7ba\x22b\x7d").toList ∧
        quotePhrase "\x7ba\x22b\x7d" = "\x22a\x22b\x22") ∧
      ¬ IsOnePhrase (quotePhrase "\x22a\x22 OR \x22b\x22").toList := by
  refine ⟨⟨?_, rfl⟩, ⟨?_, rfl⟩, ⟨?_, rfl⟩, ?_⟩ <;> exact fun h => absurd h.closed (by decide)

end SearchExpr.Text
