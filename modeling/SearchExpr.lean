import SearchExpr.Calendar.Date
import SearchExpr.Calendar.DateTime
import SearchExpr.Calendar.DayText
import SearchExpr.Calendar.Iso
import SearchExpr.Calendar.WallTime
import SearchExpr.Calendar.Zone
import SearchExpr.Calendar.ZoneTable
import SearchExpr.Check
import SearchExpr.Compiler.Basic
import SearchExpr.Compiler.Draft
import SearchExpr.Compiler.Leaf
import SearchExpr.Compiler.Tree
import SearchExpr.Criteria.Basic
import SearchExpr.Criteria.Key
import SearchExpr.Engine.Basic
import SearchExpr.Engine.Log
import SearchExpr.Engine.Settings
import SearchExpr.Engine.Variables
import SearchExpr.Expr.Basic
import SearchExpr.Expr.Description
import SearchExpr.Expr.Literal
import SearchExpr.Expr.Merges
import SearchExpr.Expr.Optimize
import SearchExpr.Expr.Simplify
import SearchExpr.Failure
import SearchExpr.Fault
import SearchExpr.Mapping.Basic
import SearchExpr.Mapping.Field
import SearchExpr.Number.Binary64
import SearchExpr.Number.Shortest
import SearchExpr.Number.Text
import SearchExpr.Proofs.Calendar.ClockChanges
import SearchExpr.Proofs.Calendar.DateParts
import SearchExpr.Proofs.Calendar.DayInstants
import SearchExpr.Proofs.Calendar.Days
import SearchExpr.Proofs.Calendar.EqualTimes
import SearchExpr.Proofs.Calendar.Instants
import SearchExpr.Proofs.Calendar.IsoReading
import SearchExpr.Proofs.Calendar.Offsets
import SearchExpr.Proofs.Calendar.YearlyRules
import SearchExpr.Proofs.Checks
import SearchExpr.Proofs.Compiler.Affixes
import SearchExpr.Proofs.Compiler.Blanks
import SearchExpr.Proofs.Compiler.DayPredicates
import SearchExpr.Proofs.Compiler.Failures
import SearchExpr.Proofs.Compiler.FieldNames
import SearchExpr.Proofs.Compiler.Folding
import SearchExpr.Proofs.Compiler.JoinedBounds
import SearchExpr.Proofs.Compiler.LeafQueries
import SearchExpr.Proofs.Compiler.Leaves
import SearchExpr.Proofs.Compiler.Locality
import SearchExpr.Proofs.Compiler.Matching
import SearchExpr.Proofs.Compiler.NegatedTexts
import SearchExpr.Proofs.Compiler.NestedScope
import SearchExpr.Proofs.Compiler.Reading
import SearchExpr.Proofs.Compiler.Scalars
import SearchExpr.Proofs.Compiler.SentSets
import SearchExpr.Proofs.Compiler.SingleChoice
import SearchExpr.Proofs.Compiler.Spelling
import SearchExpr.Proofs.Compiler.Switching
import SearchExpr.Proofs.Compiler.TextSearches
import SearchExpr.Proofs.Compiler.Vocabulary
import SearchExpr.Proofs.Criteria.BooleanLaws
import SearchExpr.Proofs.Criteria.Conversion
import SearchExpr.Proofs.Criteria.Keys
import SearchExpr.Proofs.Expr.BoundMerging
import SearchExpr.Proofs.Expr.CalendarLimits
import SearchExpr.Proofs.Expr.ChoiceMerging
import SearchExpr.Proofs.Expr.Confluence
import SearchExpr.Proofs.Expr.Division
import SearchExpr.Proofs.Expr.Insertion
import SearchExpr.Proofs.Expr.Interchange
import SearchExpr.Proofs.Expr.Meaning
import SearchExpr.Proofs.Expr.NormalForm
import SearchExpr.Proofs.Expr.Pairs
import SearchExpr.Proofs.Expr.Parts
import SearchExpr.Proofs.Expr.Rereading
import SearchExpr.Proofs.Expr.Rewriting
import SearchExpr.Proofs.Expr.SeveralValues
import SearchExpr.Proofs.Expr.Simplifying
import SearchExpr.Proofs.Expr.Trees
import SearchExpr.Proofs.Expr.Truth
import SearchExpr.Proofs.Mapping.Consistency
import SearchExpr.Proofs.Mapping.DerivedNames
import SearchExpr.Proofs.Mapping.Lookup
import SearchExpr.Proofs.Outcome
import SearchExpr.Proofs.Text.Blanks
import SearchExpr.Proofs.Text.Escapes
import SearchExpr.Proofs.Text.Paths
import SearchExpr.Proofs.Text.Phrases
import SearchExpr.Proofs.Text.Wildcards
import SearchExpr.Proofs.Value.Equality
import SearchExpr.Proofs.Value.FrozenForms
import SearchExpr.Proofs.Value.KeySets
import SearchExpr.Proofs.Value.LongNumbers
import SearchExpr.Proofs.Value.OrderedSets
import SearchExpr.Proofs.Value.Preparing
import SearchExpr.Proofs.Value.Sending
import SearchExpr.Proofs.Value.WrittenDates
import SearchExpr.Query.Basic
import SearchExpr.Query.Filter
import SearchExpr.Query.Fulltext
import SearchExpr.Text.Blank
import SearchExpr.Text.Case
import SearchExpr.Text.CaseTable
import SearchExpr.Text.CharSet
import SearchExpr.Text.Locale
import SearchExpr.Text.Path
import SearchExpr.Text.Phrase
import SearchExpr.Text.Printable
import SearchExpr.Text.Quoted
import SearchExpr.Text.Utf8
import SearchExpr.Value.Basic
import SearchExpr.Value.Choices
import SearchExpr.Value.Coerce
import SearchExpr.Value.Keys
import SearchExpr.Value.Literal
import SearchExpr.Value.Phrase
import SearchExpr.Value.Preparer
import SearchExpr.Value.Same
import SearchExpr.Value.Zoned
