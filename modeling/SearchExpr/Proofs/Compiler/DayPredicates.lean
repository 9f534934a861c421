import SearchExpr.Proofs.Calendar.DayInstants
import SearchExpr.Proofs.Calendar.IsoReading
import SearchExpr.Proofs.Compiler.Leaves
import SearchExpr.Proofs.Compiler.Reading
import SearchExpr.Proofs.Expr.Meaning
import SearchExpr.Proofs.Expr.Pairs

/-! # Conditions on days

Conditions on the day of a field are compiled to ranges of instants. Where the days of a zone follow
one another, a document is found by its instant exactly if its day is as the condition says, also
after two conditions have been joined to one.
-/

namespace SearchExpr

/-! ## Documents with instants -/

/-- The instant that a text denotes, in microseconds since 1970. -/
def Value.instant? : Value → Option Int
  | .str s => (DateTime.ofIso? s false).bind DateTime.instant?
  | _ => none

/-- How an instant has to stand to that of a bound. -/
def RangeKey.Holds : RangeKey → Int → Int → Prop
  | gt, t, bound => bound < t
  | gte, t, bound => bound ≤ t
  | lt, t, bound => t < bound
  | lte, t, bound => t ≤ bound

/-- A document that has instants in some of its fields, which bounds are compared with. -/
def IndexedDocument.ofInstants (instants : String → Option Int) : IndexedDocument where
  value? name := (instants name).map .int
  satisfies key v bound := ∃ t i, v = .int t ∧ bound.instant? = some i ∧ key.Holds t i
  answers _ := False

theorem Query.matchedBy_range_ofInstants {instants : String → Option Int} {name : String}
    {key : RangeKey} {bound : Value} {t i : Int} (hname : instants name = some t)
    (hbound : bound.instant? = some i) :
    (range name [(key, bound)]).MatchedBy (.ofInstants instants) ↔ key.Holds t i := by
  simp [MatchedBy, IndexedDocument.ofInstants, hname, hbound]

/-! ## Days in a zone -/

/-- How two days stand to one another, for the comparisons that there are of days. -/
def Comparison.ofDays? : Comparison → Option (Date → Date → Bool)
  | eq => some fun d bound => d == bound
  | ne => some fun d bound => d != bound
  | comparison => comparison.dayOrder?

namespace Expr

variable {lower : LowerComparison} {upper : UpperComparison} {d low high first last : Date}

theorem next?_ne_none_of_lastDay? (hhigh : high.next? ≠ none)
    (h : lastDay? upper high = some last) : last.next? ≠ none := by
  cases upper with
  | le => rwa [← Option.some.inj h]
  | lt =>
    have hnext : last.next? = some high :=
      Date.next?_eq_some.mpr (Date.previous?_eq_some.mp h).symm
    simp [hnext]

/-- The days between two bounds are those that meet both. -/
theorem ofDays_iff_of_join {below above : Date → Date → Bool}
    (hfirst : firstDay? lower low = some first) (hlast : lastDay? upper high = some last)
    (hbelow : lower.toComparison.ofDays? = some below)
    (habove : upper.toComparison.ofDays? = some above) :
    first.ordinal ≤ d.ordinal ∧ d.ordinal ≤ last.ordinal ↔
      below d low = true ∧ above d high = true := by
  refine and_congr ?_ ?_
  · cases lower <;> cases hbelow
    case ge.refl => rw [Option.some.inj hfirst, decide_eq_true_iff]
    case gt.refl =>
      rw [decide_eq_true_iff, Fin.le_def, Fin.lt_def, Date.next?_eq_some.mp hfirst]
      omega
  · cases upper <;> cases habove
    case le.refl => rw [Option.some.inj hlast, decide_eq_true_iff]
    case lt.refl =>
      rw [decide_eq_true_iff, Fin.le_def, Fin.lt_def, ← Date.previous?_eq_some.mp hlast]
      omega

end Expr

namespace Zone

open SearchExpr.Expr

variable {z : Zone} {t : Int} {d next today first last : Date} {name field : String}
  {instants : String → Option Int} {comparison : Comparison} {c : Compiler} {m : Mapping}
  {locale : Option String} {e : Expr} {q : Query}

/-- The beginning of a day, as it is sent. -/
def dayText (z : Zone) (d : Date) : Value :=
  .str (z.startOfDay d).isoText

theorem instant?_dayText (h : z.OffsetsWithin (-86399) 86399) (d : Date) :
    (z.dayText d).instant? = some (z.dayStart d) := by
  have hoffset := h.offsetOf (.midnight d)
  have hsize : (z.startOfDay d).offset.natAbs < 360000 := by
    have heq : (z.startOfDay d).offset = z.offsetOf (.midnight d) := rfl
    omega
  rw [dayText, Value.instant?, ofIso?_isoText _ hsize, Option.bind_some]
  refine congrArg some ?_
  simp only [dayStart, ZonedTime.instant, WallTime.seconds, Fin.val_zero]
  omega

section

variable (hoffsets : z.OffsetsWithin (-86399) 86399) (hmidnights : z.MidnightsIncrease)
  (htoday : z.IsDayOf t today) (hname : instants name = some t)

include hoffsets hmidnights htoday hname

theorem matchedBy_from :
    (Query.range name [(.gte, z.dayText d)]).MatchedBy (.ofInstants instants) ↔
      (d.ordinal : Nat) ≤ today.ordinal :=
  (Query.matchedBy_range_ofInstants hname (instant?_dayText hoffsets d)).trans
    (dayStart_le_iff hmidnights htoday)

theorem matchedBy_before :
    (Query.range name [(.lt, z.dayText d)]).MatchedBy (.ofInstants instants) ↔
      (today.ordinal : Nat) < d.ordinal :=
  (Query.matchedBy_range_ofInstants hname (instant?_dayText hoffsets d)).trans
    (lt_dayStart_iff hmidnights htoday)

/-- The instants from the beginning of a day to the end of another one are those of the days from
the first to the last. -/
theorem matchedBy_span (hnext : last.next? = some next) :
    (Query.range name [(.gte, z.dayText first), (.lt, z.dayText next)]).MatchedBy
        (.ofInstants instants) ↔
      (first.ordinal : Nat) ≤ today.ordinal ∧ (today.ordinal : Nat) ≤ last.ordinal := by
  rw [Query.matchedBy_range_two, matchedBy_from hoffsets hmidnights htoday hname,
    matchedBy_before hoffsets hmidnights htoday hname, Date.next?_eq_some.mp hnext,
    Nat.lt_succ_iff]

theorem matchedBy_dayBounds {bounds : List (RangeKey × Value)} {stands : Date → Date → Bool}
    (hnext : d.next? = some next) (hne : comparison ≠ .ne)
    (hbounds : Compiler.dayBounds? (z.dayText d) (z.dayText next) comparison = some bounds)
    (hstands : comparison.ofDays? = some stands) :
    (Query.range name bounds).MatchedBy (.ofInstants instants) ↔ stands today d = true := by
  have hordinal := Date.next?_eq_some.mp hnext
  have hfrom (d : Date) := matchedBy_from (d := d) hoffsets hmidnights htoday hname
  have hbefore (d : Date) := matchedBy_before (d := d) hoffsets hmidnights htoday hname
  cases comparison <;> cases hbounds <;> cases hstands
  case ne => exact absurd rfl hne
  case eq =>
    rw [matchedBy_span hoffsets hmidnights htoday hname hnext, beq_iff_eq, Date.eq_iff_ordinal]
    omega
  case gt =>
    rw [hfrom, hordinal, decide_eq_true_iff, Fin.lt_def]
    omega
  case ge => rw [hfrom, decide_eq_true_iff, Fin.le_def]
  case lt => rw [hbefore, decide_eq_true_iff, Fin.lt_def]
  case le =>
    rw [hbefore, hordinal, decide_eq_true_iff, Fin.le_def]
    omega

end

/-! ## Compiling -/

theorem dayStart_eq_dayText (hz : ofKey c.zoneKey = .ok z) (d : Date) :
    c.dayStart d = .ok (z.dayText d) := by
  rw [Compiler.dayStart, Date.startIn, hz]
  rfl

/-- In a zone, a condition on the day of a field is compiled to a query, which names the field as
the index does. -/
def Compiles (z : Zone) (field name : String) (e : Expr) (q : Query) : Prop :=
  ∀ (c : Compiler) (m : Mapping) locale, ofKey c.zoneKey = .ok z →
    (m.target locale field).name = name → c.compile m locale e = .ok (some q)

/-- Every zone has a key in some database. -/
theorem exists_ofKey (z : Zone) : ∃ key, ofKey key = .ok z := by
  have hkey : isKey defaultZoneKey = true := by decide
  exact ⟨⟨fun _ => some z, ""⟩, by simp [ofKey, ZoneKey.given, hkey]⟩

theorem Compiles.unique {q' : Query} (h : z.Compiles field name e q) (h' : z.Compiles field name e q')
    (hname : (m.target locale field).name = name) : q = q' := by
  obtain ⟨key, hkey⟩ := z.exists_ofKey
  let c : Compiler := { Compiler.standard with zoneKey := key }
  have hc : ofKey c.zoneKey = .ok z := hkey
  exact Option.some.inj (Except.ok.inj ((h c m locale hc hname).symm.trans (h' c m locale hc hname)))

theorem compiles_day {bounds : List (RangeKey × Value)} (field name : String)
    (hnext : d.next? = some next)
    (hbounds : Compiler.dayBounds? (z.dayText d) (z.dayText next) comparison = some bounds) :
    z.Compiles field name (.day field comparison d)
      (if comparison = .ne then (Query.rangeOn name bounds).not else .rangeOn name bounds) := by
  rintro c m locale hz rfl
  have hspan : c.daySpan d d = .ok (z.dayText d, z.dayText next) :=
    Compiler.daySpan_eq_ok.mpr
      ⟨dayStart_eq_dayText hz d, next, hnext, dayStart_eq_dayText hz next⟩
  rw [Compiler.compile_leaf c m locale rfl, Compiler.compileTree, Compiler.compileDay, hspan]
  simp only [bind, Except.bind, hbounds]
  rfl

theorem compiles_dayRange (field name : String) (hnext : last.next? = some next) :
    z.Compiles field name (.dayRange field first last)
      (.rangeOn name [(.gte, z.dayText first), (.lt, z.dayText next)]) := by
  rintro c m locale hz rfl
  rw [Compiler.compile_leaf c m locale rfl, Compiler.compileTree_dayRange]
  exact ⟨_, next, _, dayStart_eq_dayText hz first, hnext, dayStart_eq_dayText hz next, rfl⟩

/-! ## Days and instants -/

section

variable (hoffsets : z.OffsetsWithin (-86399) 86399) (hmidnights : z.MidnightsIncrease)
  (htoday : z.IsDayOf t today) (hname : instants (Query.parameterName name) = some t)

include hoffsets hmidnights htoday hname

theorem exists_compiles_day {stands : Date → Date → Bool} (field : String)
    (hd : d.next? ≠ none) (hstands : comparison.ofDays? = some stands) :
    ∃ q, z.Compiles field name (.day field comparison d) q ∧
      (q.MatchedBy (.ofInstants instants) ↔ stands today d = true) := by
  obtain ⟨next, hnext⟩ := Option.ne_none_iff_exists'.mp hd
  obtain ⟨bounds, hbounds⟩ :
      ∃ bounds, Compiler.dayBounds? (z.dayText d) (z.dayText next) comparison = some bounds := by
    cases comparison <;> cases hstands <;> exact ⟨_, rfl⟩
  refine ⟨_, compiles_day field name hnext hbounds, ?_⟩
  by_cases hne : comparison = .ne
  · -- The query for another day is the negation of the one for the day itself.
    subst hne
    obtain rfl := Option.some.inj hstands
    have hsame : Compiler.dayBounds? (z.dayText d) (z.dayText next) .eq = some bounds := hbounds
    rw [if_pos rfl, Query.matchedBy_not, Query.rangeOn,
      matchedBy_dayBounds hoffsets hmidnights htoday hname hnext (by decide) hsame rfl]
    simp
  · rw [if_neg hne]
    exact matchedBy_dayBounds hoffsets hmidnights htoday hname hnext hne hbounds hstands

theorem exists_compiles_dayRange (field : String) (first : Date) (hlast : last.next? ≠ none) :
    ∃ bounds, z.Compiles field name (.dayRange field first last) (.rangeOn name bounds) ∧
      ((Query.rangeOn name bounds).MatchedBy (.ofInstants instants) ↔
        first.ordinal ≤ today.ordinal ∧ today.ordinal ≤ last.ordinal) := by
  obtain ⟨next, hnext⟩ := Option.ne_none_iff_exists'.mp hlast
  exact ⟨_, compiles_dayRange field name hnext,
    matchedBy_span hoffsets hmidnights htoday hname hnext⟩

/-- The range that two bounds are joined to is matched on the days that meet both. -/
theorem exists_compiles_merged {lower : LowerComparison} {upper : UpperComparison}
    {low high : Date} {below above : Date → Date → Bool} {x y merged : Expr}
    (hfield : field ≠ fulltextField) (hhigh : high.next? ≠ none)
    (hbelow : lower.toComparison.ofDays? = some below)
    (habove : upper.toComparison.ofDays? = some above)
    (horder : InEitherOrder (.day field lower.toComparison low)
      (.day field upper.toComparison high) x y)
    (hmerged : optimize? (.operation .and [x, y]) = some merged) :
    ∃ bounds, z.Compiles field name merged (.rangeOn name bounds) ∧
      (∀ c : Compiler, c.optimizes = true → ∀ m locale,
        c.compile m locale (.operation .and [x, y]) = c.compile m locale merged) ∧
      ((Query.rangeOn name bounds).MatchedBy (.ofInstants instants) ↔
        below today low = true ∧ above today high = true) := by
  have hjoin := hmerged
  rw [optimize?_dayBounds_pair hfield horder] at hjoin
  obtain ⟨first, hfirst, last, hlast, rfl⟩ : ∃ first, firstDay? lower low = some first ∧
      ∃ last, lastDay? upper high = some last ∧ dayRange field first last = merged := by
    simpa [dayBounds, Option.bind_eq_some_iff] using hjoin
  obtain ⟨bounds, hcompiles, hspan⟩ := exists_compiles_dayRange hoffsets hmidnights htoday hname
    field first (next?_ne_none_of_lastDay? hhigh hlast)
  refine ⟨bounds, hcompiles, fun c hc m locale => ?_, ?_⟩
  · exact Compiler.compile_eq_of_optimize? hc rfl hmerged m locale
  · rw [hspan, ofDays_iff_of_join hfirst hlast hbelow habove]

end

/-- Conditions on days are met by the instants of the days that they mean. This holds for each
condition alone, and for a lower and an upper bound joined to one range. -/
theorem compiles_dayConditions (hoffsets : z.OffsetsWithin (-86399) 86399)
    (hmidnights : z.MidnightsIncrease) (htoday : z.IsDayOf t today)
    (hname : instants (Query.parameterName name) = some t) (field : String) :
    (∀ d, z.IsDayOf t d → d = today) ∧
    (∀ comparison stands d, comparison.ofDays? = some stands → d.next? ≠ none →
      ∃ q, z.Compiles field name (.day field comparison d) q ∧
        (q.MatchedBy (.ofInstants instants) ↔ stands today d = true)) ∧
    (∀ first last, last.next? ≠ none →
      ∃ q, z.Compiles field name (.dayRange field first last) q ∧
        (q.MatchedBy (.ofInstants instants) ↔
          first.ordinal ≤ today.ordinal ∧ today.ordinal ≤ last.ordinal)) ∧
    ∀ (lower : LowerComparison) (low : Date) (upper : UpperComparison) (high : Date),
      field ≠ fulltextField → low.next? ≠ none → high.next? ≠ none →
      ∃ q q', z.Compiles field name (.day field lower.toComparison low) q ∧
        z.Compiles field name (.day field upper.toComparison high) q' ∧
        ∀ x y merged, InEitherOrder (.day field lower.toComparison low)
            (.day field upper.toComparison high) x y →
          optimize? (.operation .and [x, y]) = some merged →
          ∃ bounds, z.Compiles field name merged (.rangeOn name bounds) ∧
            (∀ c : Compiler, c.optimizes = true → ∀ m locale,
              c.compile m locale (.operation .and [x, y]) = c.compile m locale merged) ∧
            ((Query.rangeOn name bounds).MatchedBy (.ofInstants instants) ↔
              q.MatchedBy (.ofInstants instants) ∧ q'.MatchedBy (.ofInstants instants)) := by
  refine ⟨fun d => IsDayOf.eq hmidnights htoday, fun comparison stands d hstands hd => ?_,
    fun first last hlast => ?_, fun lower low upper high hfield hlow hhigh => ?_⟩
  · exact exists_compiles_day hoffsets hmidnights htoday hname field hd hstands
  · obtain ⟨bounds, hrange⟩ :=
      exists_compiles_dayRange hoffsets hmidnights htoday hname field first hlast
    exact ⟨_, hrange⟩
  · obtain ⟨below, hbelow⟩ : ∃ below, lower.toComparison.ofDays? = some below := by
      cases lower <;> exact ⟨_, rfl⟩
    obtain ⟨above, habove⟩ : ∃ above, upper.toComparison.ofDays? = some above := by
      cases upper <;> exact ⟨_, rfl⟩
    obtain ⟨q, hq, hmatched⟩ :=
      exists_compiles_day hoffsets hmidnights htoday hname field hlow hbelow
    obtain ⟨q', hq', hmatched'⟩ :=
      exists_compiles_day hoffsets hmidnights htoday hname field hhigh habove
    refine ⟨q, q', hq, hq', fun x y merged horder hmerged => ?_⟩
    rw [hmatched, hmatched']
    exact exists_compiles_merged hoffsets hmidnights htoday hname hfield hhigh hbelow habove horder
      hmerged

section

set_option maxRecDepth 200000

theorem offsetOf_europeBerlin_spring :
    europeBerlin.offsetOf (.midnight ⟨739703⟩) = 3600 ∧
      europeBerlin.offsetOf (.midnight ⟨739704⟩) = 7200 :=
  ⟨offsetOf_of_table rfl (by decide +kernel), offsetOf_of_table rfl (by decide +kernel)⟩

end

/-- The last instant of 29 March 2026, a day of 23 hours in Berlin, is found by bounds that are met
by this day only. -/
theorem compiles_dayConditions_of_shortDay :
    let z := europeBerlin
    let t : Int := 1774821599999999
    let instants : String → Option Int := fun _ => some t
    let bounds : Expr := .operation .and
      [.day "on" .lt ⟨739704⟩, .day "on" .gt ⟨739702⟩]
    z.OffsetsWithin (-86399) 86399 ∧ z.MidnightsIncrease ∧ z.IsDayOf t ⟨739703⟩ ∧
      instants (Query.parameterName "on") = some t ∧
      z.dayStart ⟨739704⟩ - z.dayStart ⟨739703⟩ = 23 * 3600000000 ∧
      ∃ q, Compiler.standard.compile ⟨[], none⟩ none bounds = .ok (some q) ∧
        q.MatchedBy (.ofInstants instants) := by
  intro z t instants bounds
  have hoffsets : z.OffsetsWithin (-86399) 86399 :=
    offsetsWithin_europeBerlin.mono (by decide) (by decide)
  have hmidnights : z.MidnightsIncrease :=
    midnightsIncrease_of_offsetsWithin offsetsWithin_europeBerlin (by decide)
  obtain ⟨hspring, hsummer⟩ := offsetOf_europeBerlin_spring
  have hstart : z.dayStart ⟨739703⟩ = 1774738800000000 := by
    rw [dayStart_eq, hspring]
    rfl
  have hstop : z.dayStart ⟨739704⟩ = 1774821600000000 := by
    rw [dayStart_eq, hsummer]
    rfl
  have htoday : z.IsDayOf t ⟨739703⟩ :=
    ⟨⟨739704⟩, rfl, by rw [hstart]; decide, by rw [hstop]; decide⟩
  refine ⟨hoffsets, hmidnights, htoday, rfl, by rw [hstart, hstop]; decide, ?_⟩
  have hname : instants (Query.parameterName "on") = some t := rfl
  obtain ⟨-, hday, -, hpair⟩ := compiles_dayConditions hoffsets hmidnights htoday hname "on"
  obtain ⟨q, q', hq, hq', hjoin⟩ :=
    hpair .gt ⟨739702⟩ .lt ⟨739704⟩ (by decide) (by decide) (by decide)
  have horder : InEitherOrder (.day "on" .gt ⟨739702⟩) (.day "on" .lt ⟨739704⟩)
      (.day "on" .lt ⟨739704⟩) (.day "on" .gt ⟨739702⟩) := Or.inr ⟨rfl, rfl⟩
  have hmerged : optimize? bounds = some (.dayRange "on" ⟨739703⟩ ⟨739703⟩) := rfl
  obtain ⟨_, hcompiles, hcompile, hmatched⟩ := hjoin _ _ _ horder hmerged
  have hmet : ∀ comparison stands d q, comparison.ofDays? = some stands → d.next? ≠ none →
      z.Compiles "on" "on" (.day "on" comparison d) q → stands ⟨739703⟩ d = true →
      q.MatchedBy (.ofInstants instants) := by
    intro comparison stands d q hstands hd hq htrue
    obtain ⟨_, hquery, hiff⟩ := hday comparison stands d hstands hd
    have hsame : (Mapping.target ⟨[], none⟩ none "on").name = "on" := rfl
    rw [hq.unique hquery hsame, hiff]
    exact htrue
  refine ⟨_, (hcompile Compiler.standard rfl _ _).trans (hcompiles _ _ _ rfl rfl),
    hmatched.mpr ⟨?_, ?_⟩⟩
  · exact hmet .gt _ _ q rfl (by decide) hq (by decide)
  · exact hmet .lt _ _ q' rfl (by decide) hq' (by decide)

end Zone

end SearchExpr
