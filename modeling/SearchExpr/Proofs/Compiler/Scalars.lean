import SearchExpr.Proofs.Compiler.LeafQueries
import SearchExpr.Proofs.Value.KeySets
import SearchExpr.Proofs.Value.Preparing

/-! # Scalars in queries

A search request is made of scalars, lists and dictionaries with texts for keys. Filters are chosen
for values whose dates are not written as text yet, so every query has to write the date that it
sends, whether or not a preparer has changed it before.
-/

namespace SearchExpr

open SearchExpr.Expr

/-! ## Values -/

namespace Value

variable {v w : Value} {p : Preparer} {chain : List Preparer} {phrase : Bool} {key : ZoneKey}

def isScalar : Value → Bool
  | null | bool _ | int _ | float _ | str _ => true
  | _ => false

def isScalarOrDate (v : Value) : Bool :=
  v.isScalar || v.isDate

/-- What a request can hold: at every depth there are only scalars, lists and named entries. -/
inductive IsPlainData : Value → Prop where
  | scalar {v : Value} (h : v.isScalar = true) : IsPlainData v
  | list {xs : List Value} (h : ∀ x ∈ xs, IsPlainData x) : IsPlainData (.list xs)
  | dict {entries : List (Value × Value)} (hkeys : ∀ entry ∈ entries, ∃ name, entry.1 = .str name)
    (h : ∀ entry ∈ entries, IsPlainData entry.2) : IsPlainData (.dict entries)

theorem isPlainData_str (s : String) : (str s).IsPlainData :=
  .scalar rfl

theorem isPlainData_bool (b : Bool) : (bool b).IsPlainData :=
  .scalar rfl

theorem isScalar_of_isFalse (h : FlatBuilder.isFalse v = true) : v.isScalar = true := by
  cases v <;> first | rfl | simp [FlatBuilder.isFalse] at h

theorem isScalarOrDate_run (hp : p ∈ Preparer.builtIn) (hv : v.isScalarOrDate = true)
    (h : p.run v = .ok w) : w.isScalarOrDate = true := by
  simp only [Preparer.builtIn, List.mem_cons, List.not_mem_nil, or_false] at hp
  rcases hp with rfl | rfl | rfl <;> cases v <;> cases hv <;>
    obtain rfl := Except.ok.inj h <;> rfl

theorem isScalarOrDate_runAll (hchain : ∀ p ∈ chain, p ∈ Preparer.builtIn)
    (hv : v.isScalarOrDate = true) (h : Preparer.runAll chain v = .ok w) :
    w.isScalarOrDate = true := by
  rw [Preparer.runAll] at h
  induction chain generalizing v with
  | nil =>
    obtain rfl := Except.ok.inj h
    exact hv
  | cons p chain ih =>
    rw [List.foldlM_cons, bind_eq_ok] at h
    obtain ⟨v', hv', h⟩ := h
    have hrun := isScalarOrDate_run (hchain p List.mem_cons_self) hv hv'
    exact ih (fun q hq => hchain q (List.mem_cons_of_mem p hq)) hrun h

theorem isScalarOrDate_prepare (hchain : ∀ p ∈ chain, p ∈ Preparer.builtIn)
    (hv : v.isScalarOrDate = true) (h : v.prepare chain phrase = .ok w) :
    w.isScalarOrDate = true := by
  cases phrase with
  | true =>
    obtain rfl := Except.ok.inj h
    exact hv
  | false => exact isScalarOrDate_runAll hchain hv h

theorem isScalar_wire (h : v.isScalarOrDate = true) (hwire : v.wire key = .ok w) :
    w.isScalar = true := by
  rw [wire] at hwire
  split at hwire
  case isTrue =>
    obtain ⟨text, -, rfl⟩ := map_eq_ok.mp hwire
    rfl
  case isFalse hdate =>
    obtain rfl := Except.ok.inj hwire
    simpa [isScalarOrDate, hdate] using h

end Value

/-! ## Queries -/

namespace Query

variable {q : Query} {qs : List Query} {bounds : List (RangeKey × Value)}

mutual

/-- The values that a query looks for, at every depth. -/
def values : Query → List Value
  | bool _ qs => valuesInAll qs
  | term _ v => [v]
  | terms _ vs => vs
  | range _ bounds => bounds.map (·.2)
  | wildcard _ pattern => [.str pattern]
  | queryString query _ _ _ => [.str query]
  | nested _ q => values q
  | matchAll | matchNone | present _ => []

def valuesInAll : List Query → List Value
  | [] => []
  | q :: qs => values q ++ valuesInAll qs

end

def HasScalars (q : Query) : Prop :=
  ∀ v ∈ q.values, v.isScalar = true

theorem mem_valuesInAll {v : Value} : v ∈ valuesInAll qs ↔ ∃ q ∈ qs, v ∈ q.values := by
  induction qs with
  | nil => simp [valuesInAll]
  | cons q qs ih => simp [valuesInAll, ih]

theorem hasScalars_bool {clause : Clause} :
    (bool clause qs).HasScalars ↔ ∀ q ∈ qs, q.HasScalars := by
  simp only [HasScalars, values, mem_valuesInAll]
  exact ⟨fun h q hq v hv => h v ⟨q, hq, hv⟩, fun h v ⟨q, hq, hv⟩ => h q hq v hv⟩

theorem hasScalars_of_values_eq_nil (h : q.values = []) : q.HasScalars := by
  simp [HasScalars, h]

theorem HasScalars.not (h : q.HasScalars) : q.not.HasScalars :=
  hasScalars_bool.mpr (by simpa using h)

theorem hasScalars_termOn {field : String} {v : Value} :
    (termOn field v).HasScalars ↔ v.isScalar = true := by
  simp [HasScalars, termOn, values]

theorem hasScalars_rangeOn {field : String} :
    (rangeOn field bounds).HasScalars ↔ ∀ b ∈ bounds, b.2.isScalar = true := by
  simp only [HasScalars, rangeOn, values, List.forall_mem_map]

theorem hasScalars_wildcardOn (field pattern : String) : (wildcardOn field pattern).HasScalars := by
  simp [HasScalars, wildcardOn, values, Value.isScalar]

theorem hasScalars_queryString (text : String) (fields : List String)
    (operator : Option Connective) (analyze : Bool) :
    (queryString text fields operator analyze).HasScalars := by
  simp [HasScalars, values, Value.isScalar]

theorem mem_bodies {v : Value} : v ∈ bodies qs ↔ ∃ q ∈ qs, q.body = v := by
  induction qs with
  | nil => simp [bodies]
  | cons q qs ih => simp [bodies, ih, eq_comm]

theorem isPlainData_single {key : String} {v : Value} (h : v.IsPlainData) :
    (single key v).IsPlainData :=
  .dict (by simp) (by simpa using h)

theorem isPlainData_boundsBody (h : ∀ b ∈ bounds, b.2.isScalar = true) :
    (boundsBody bounds).IsPlainData := by
  refine .dict (fun entry hentry => ?_) fun entry hentry => ?_ <;>
    obtain ⟨b, hb, rfl⟩ := List.mem_map.mp hentry
  · exact ⟨_, rfl⟩
  · exact .scalar (h b hb)

/-- A query whose values are scalars is written as plain data. -/
theorem HasScalars.isPlainData_body : ∀ {q : Query}, q.HasScalars → q.body.IsPlainData
  | .matchAll, _ | .matchNone, _ => isPlainData_single (.dict nofun nofun)
  | .bool clause qs, h => by
    refine isPlainData_single (isPlainData_single (.list fun v hv => ?_))
    obtain ⟨q, hq, rfl⟩ := mem_bodies.mp hv
    exact isPlainData_body (hasScalars_bool.mp h q hq)
  | .term _ v, h => isPlainData_single (isPlainData_single (.scalar (h v (by simp [values]))))
  | .terms _ vs, h =>
    isPlainData_single (isPlainData_single (.list fun v hv => .scalar (h v hv)))
  | .range _ bounds, h =>
    isPlainData_single (isPlainData_single (isPlainData_boundsBody
      fun b hb => h b.2 (List.mem_map_of_mem hb)))
  | .wildcard _ pattern, _ =>
    isPlainData_single (isPlainData_single (isPlainData_single (Value.isPlainData_str pattern)))
  | .queryString query fields operator analyze, _ => by
    have hfields : (Value.list (fields.map .str)).IsPlainData := by
      refine .list fun v hv => ?_
      obtain ⟨field, -, rfl⟩ := List.mem_map.mp hv
      exact Value.isPlainData_str field
    refine isPlainData_single (.dict ?_ ?_) <;> cases operator <;> cases analyze <;>
      simp [hfields, Value.isPlainData_str, Value.isPlainData_bool]
  | .nested path q, h => by
    have hbody : q.body.IsPlainData := isPlainData_body (q := q) h
    refine isPlainData_single (.dict (by simp) ?_)
    simp [hbody, Value.isPlainData_str]
  | .present field, _ => isPlainData_single (isPlainData_single (Value.isPlainData_str field))

end Query

/-! ## Filters -/

namespace FlatBuilder

variable {v : Value} {context : FilterContext} {name : String} {q : Query}

/-- A value that is sent as it is has been found to be false or is text; a date is written. -/
theorem hasScalars_build (hv : v.isScalarOrDate = true)
    (h : (select v context).build name v context = .ok q) : q.HasScalars := by
  have hsupports := supports_select v context
  cases hselect : select v context <;> rw [hselect] at h hsupports
  case absence =>
    obtain rfl := Except.ok.inj h
    have hscalar := Value.isScalar_of_isFalse (Bool.and_eq_true_iff.mp hsupports).2
    have hpresent : (Query.present name).HasScalars := Query.hasScalars_of_values_eq_nil rfl
    exact Query.hasScalars_bool.mpr
      (by simp [Query.hasScalars_termOn.mpr hscalar, hpresent.not])
  case phrase | queryString =>
    obtain ⟨text, -, rfl⟩ := map_eq_ok.mp h
    exact Query.hasScalars_queryString _ _ _ _
  case term =>
    obtain ⟨w, hw, rfl⟩ := map_eq_ok.mp h
    exact Query.hasScalars_termOn.mpr (Value.isScalar_wire hv hw)

end FlatBuilder

/-! ## Conditions on a field -/

namespace Expr

variable {P : Value → Prop} {e : Expr}

/-- The values that a condition compares a field with. -/
def comparedValues : Expr → List Value
  | value _ _ v _ => [v]
  | isIn _ cs => cs.toList
  | range _ _ low _ high => [low, high]
  | _ => []

def Compares (P : Value → Prop) (e : Expr) : Prop :=
  ∀ v ∈ e.comparedValues, P v

/-- Merges bring no values into a tree. -/
theorem leafClosed_compares : LeafClosed (Compares P) where
  union field cs others h v hv := by
    obtain ⟨o, ho, hv⟩ := Choices.mem_union hv
    exact h o ho v hv
  common field cs others common h hcommon v hv :=
    h cs List.mem_cons_self v (Choices.mem_intersect? hcommon hv)
  range x z y hjoins hx hz := by
    obtain ⟨field, lower, low, upper, high, phrase, phrase', -, rfl, horder⟩ :=
      valueBounds_joins hjoins
    rcases horder with ⟨rfl, rfl⟩ | ⟨rfl, rfl⟩ <;>
      simp_all [Compares, comparedValues]
  dayRange x z y hjoins _ _ := by
    obtain ⟨_, _, _, _, _, _, _, -, -, -, rfl, -⟩ := dayBounds_joins hjoins
    exact nofun

end Expr

namespace Compiler

variable {c : Compiler} {m : Mapping} {locale : Option String} {target : Target} {v w : Value}
  {phrase : Bool} {p : PreparedValue} {e : Expr} {comparison : Comparison} {q : Query}
  {start stop : Value} {d : Date}

theorem isScalar_wireAs (hpreparers : ∀ p ∈ c.preparers, p ∈ Preparer.builtIn)
    (hv : v.isScalarOrDate = true) (h : c.wireAs phrase v = .ok w) : w.isScalar = true := by
  rw [wireAs, bind_eq_ok] at h
  obtain ⟨prepared, hprepared, hwire⟩ := h
  exact Value.isScalar_wire (Value.isScalarOrDate_prepare hpreparers hv hprepared) hwire

theorem hasScalars_query (hselect : FilterBuilder.select FilterBuilder.standard p.value p.context =
      .ok p.builder)
    (hvalue : p.value.isScalarOrDate = true) (hwire : p.wire.isScalar = true)
    (h : p.query comparison = .ok q) : q.HasScalars := by
  have hequality : ∀ {q}, p.equality = .ok q → q.HasScalars := by
    intro q hq
    obtain ⟨inner, q', hq', rfl⟩ := FilterBuilder.exists_flat_build hselect hq
    have hscalars : q'.HasScalars := FlatBuilder.hasScalars_build hvalue hq'
    cases FilterBuilder.scope? p.context <;> exact hscalars
  cases comparison
  case eq => exact hequality h
  case ne =>
    obtain ⟨q', hq', rfl⟩ := map_eq_ok.mp h
    exact (hequality hq').not
  case like | notLike =>
    obtain ⟨text, -, rfl⟩ := map_eq_ok.mp h
    exact Query.hasScalars_queryString _ _ _ _
  case gt | ge | lt | le =>
    obtain rfl := Except.ok.inj h
    exact Query.hasScalars_rangeOn.mpr (by simpa using hwire)
  case startsWith | endsWith | wildcard =>
    obtain ⟨text, rfl⟩ := exists_of_pattern h
    exact Query.hasScalars_wildcardOn _ _

theorem hasScalars_compileValue (hbuilders : c.builders = FilterBuilder.standard)
    (hpreparers : ∀ p ∈ c.preparers, p ∈ Preparer.builtIn) (hv : v.isScalarOrDate = true)
    (h : c.compileValue target comparison v phrase = .ok q) : q.HasScalars := by
  rw [compileValue, bind_eq_ok] at h
  obtain ⟨p, hprepare, hq⟩ := h
  have hp := prepares_of_prepareValue hprepare
  have hwire : c.wireAs phrase v = .ok p.wire :=
    (prepareValue_eq_ok hbuilders target).mp ⟨p, hprepare, hp.sameTarget, rfl⟩
  exact hasScalars_query (hbuilders ▸ hp.builder)
    (Value.isScalarOrDate_prepare hpreparers hv hp.value) (isScalar_wireAs hpreparers hv hwire) hq

theorem isScalar_dayStart (h : c.dayStart d = .ok start) : start.isScalar = true := by
  obtain ⟨_, -, rfl⟩ := map_eq_ok.mp h
  rfl

theorem isScalar_dayBounds {bounds : List (RangeKey × Value)} (hstart : start.isScalar = true)
    (hstop : stop.isScalar = true) (h : dayBounds? start stop comparison = some bounds) :
    ∀ b ∈ bounds, b.2.isScalar = true := by
  cases comparison <;> simp only [dayBounds?, reduceCtorEq, Option.some.injEq] at h <;> subst h <;>
    simp [hstart, hstop]

theorem hasScalars_compileDay (h : c.compileDay target comparison d = .ok q) : q.HasScalars := by
  simp only [compileDay, bind_eq_ok, Prod.exists] at h
  obtain ⟨start, stop, hspan, h⟩ := h
  split at h
  case h_1 => cases h
  case h_2 bounds hbounds =>
    obtain rfl := Except.ok.inj h
    obtain ⟨hstart, next, -, hstop⟩ := daySpan_eq_ok.mp hspan
    have hscalars : (Query.rangeOn target.name bounds).HasScalars := Query.hasScalars_rangeOn.mpr
      (isScalar_dayBounds (isScalar_dayStart hstart) (isScalar_dayStart hstop) hbounds)
    split
    · exact hscalars.not
    · exact hscalars

theorem hasScalars_fulltext {b : FulltextBuilder} {word : String}
    (h : b.build v word = .ok (some q)) : q.HasScalars := by
  have htext (text : String) : (b.textQuery text).HasScalars :=
    Query.hasScalars_queryString _ _ _ _
  obtain ⟨text, -, h⟩ := map_eq_ok.mp h
  simp only [FulltextBuilder.buildText] at h
  split_ifs at h <;> obtain rfl := Option.some.inj h
  · exact (htext _).not
  · exact htext _

theorem hasScalars_leaf (hbuilders : c.builders = FilterBuilder.standard)
    (hpreparers : ∀ p ∈ c.preparers, p ∈ Preparer.builtIn) (he : e.isLeaf = true)
    (hvalues : Compares (fun v => v.isScalarOrDate = true) e)
    (h : c.compileTree m locale e = .ok (some q)) : q.HasScalars := by
  cases e <;> simp only [isLeaf, Bool.false_eq_true] at he
  case value field comparison v phrase =>
    rw [compileTree] at h
    split at h
    case isTrue => exact hasScalars_fulltext h
    case isFalse =>
      obtain ⟨_, hq, ⟨⟩⟩ := map_eq_ok.mp h
      exact hasScalars_compileValue hbuilders hpreparers (hvalues v List.mem_cons_self) hq
  case isIn field cs =>
    obtain ⟨ws, hws, ⟨⟩⟩ := compileTree_isIn.mp h
    intro w hw
    obtain ⟨v, hv, hwire⟩ := exists_left_of_forall₂ hws hw
    have hwire : c.wireAs false v = .ok w := hwire
    exact isScalar_wireAs hpreparers (hvalues v hv) hwire
  case range field lower low upper high =>
    obtain ⟨a, b, ha, hb, ⟨⟩⟩ := compileTree_range.mp h
    have hlow := isScalar_wireAs hpreparers (hvalues low (by simp [comparedValues])) ha
    have hhigh := isScalar_wireAs hpreparers (hvalues high (by simp [comparedValues])) hb
    exact Query.hasScalars_rangeOn.mpr (by simp [hlow, hhigh])
  case day field comparison d =>
    obtain ⟨_, hq, ⟨⟩⟩ := map_eq_ok.mp h
    exact hasScalars_compileDay hq
  case dayRange field first last =>
    obtain ⟨a, next, b, ha, -, hb, ⟨⟩⟩ := compileTree_dayRange.mp h
    exact Query.hasScalars_rangeOn.mpr (by simp [isScalar_dayStart ha, isScalar_dayStart hb])
  case fulltext text => exact hasScalars_fulltext h

/-! ## Trees -/

theorem hasScalars_combine {connective : Connective} {answers : List (Option Query)}
    (hanswers : ∀ q, some q ∈ answers → q.HasScalars) (h : combine connective answers = some q) :
    q.HasScalars := by
  have hqueries : ∀ q ∈ answers.filterMap id, q.HasScalars := by simpa using hanswers
  unfold combine at h
  split at h
  case h_1 => cases h
  case h_2 q' hq' =>
    obtain rfl := Option.some.inj h
    exact hqueries q' (hq' ▸ List.mem_cons_self)
  case h_3 =>
    obtain rfl := Option.some.inj h
    exact Query.hasScalars_bool.mpr hqueries

theorem hasScalars_compileTree (hbuilders : c.builders = FilterBuilder.standard)
    (hpreparers : ∀ p ∈ c.preparers, p ∈ Preparer.builtIn)
    (hvalues : LeavesIn (Compares fun v => v.isScalarOrDate = true) e)
    (h : c.compileTree m locale e = .ok (some q)) : q.HasScalars := by
  induction e using treeInduction generalizing q with
  | base e he =>
    rcases he with he | he
    · exact hasScalars_leaf hbuilders hpreparers he (hvalues e .whole he) h
    · cases e <;> simp only [isConstant, Bool.false_eq_true] at he <;> cases h <;>
        exact Query.hasScalars_of_values_eq_nil rfl
  | operation connective es ih =>
    rw [compileTree] at h
    split at h
    case isTrue =>
      obtain rfl := Option.some.inj (Except.ok.inj h)
      cases connective <;> exact Query.hasScalars_of_values_eq_nil rfl
    case isFalse =>
      obtain ⟨answers, hanswers, hcombine⟩ := map_eq_ok.mp h
      refine hasScalars_combine (fun q' hq' => ?_) hcombine
      obtain ⟨x, hx, hx'⟩ := exists_left_of_forall₂ (compileEach_eq_ok.mp hanswers) hq'
      exact ih x hx (hvalues.operand hx) hx'
  | mustNot e ih =>
    obtain ⟨answer, hanswer, hnot⟩ := map_eq_ok.mp h
    obtain ⟨q', rfl, rfl⟩ := Option.map_eq_some_iff.mp hnot
    exact (ih hvalues.negated hanswer).not

/-- A tree over scalars and dates is compiled to a query for scalars, and a request with it is
written as plain data. -/
theorem isScalar_of_compile (hbuilders : c.builders = FilterBuilder.standard)
    (hpreparers : ∀ p ∈ c.preparers, p ∈ Preparer.builtIn)
    (hvalues : LeavesIn (Compares fun v => v.isScalarOrDate = true) e)
    (h : c.compile m locale e = .ok (some q)) :
    (∀ v ∈ q.values, v.isScalar = true) ∧ q.body.IsPlainData := by
  obtain ⟨e', htree, hcompile⟩ := bind_eq_ok.mp h
  have hscalars : q.HasScalars := hasScalars_compileTree hbuilders hpreparers
    (leavesIn_of_tree leafClosed_compares hvalues htree) hcompile
  exact ⟨hscalars, hscalars.isPlainData_body⟩

/-- Dates without a preparer for them: bounds that are merged, a choice, and a part of a nested
field. -/
theorem isScalar_of_compile_of_dates :
    let article : Field := ⟨"article", .nested, false, false, false, [], none⟩
    let m : Mapping := ⟨[article], none⟩
    let c := { standard with zoneKey := .tabulated "UTC", preparers := [.whitespace, .strip] }
    let noon : DateTime := ⟨⟨⟨739702⟩, 43200, 0, false⟩, .fixed 3600000000⟩
    let e : Expr := .operation .and
      [.value "on" .ge (.date ⟨739700⟩) false, .value "on" .lt (.dateTime noon) true,
        .isIn "seen" ⟨.date ⟨739701⟩, [.null, .dateTime noon]⟩,
        .mustNot (.value "article.on" .eq (.date ⟨739703⟩) false)]
    let q : Query := .bool .must
      [.range "on"
          [(.gte, .str "2026-03-26T00:00:00+00:00"), (.lt, .str "2026-03-28T11:00:00+00:00")],
        .terms "seen" [.str "2026-03-27T00:00:00+00:00", .null, .str "2026-03-28T11:00:00+00:00"],
        .not (.nested "article" (.term "article.on" (.str "2026-03-29T00:00:00+00:00")))]
    c.builders = FilterBuilder.standard ∧ (∀ p ∈ c.preparers, p ∈ Preparer.builtIn) ∧
      LeavesIn (Compares fun v => v.isScalarOrDate = true) e ∧
      c.compile m none e = .ok (some q) ∧ (∀ v ∈ q.values, v.isScalar = true) ∧
      q.body.IsPlainData := by
  intro article m c noon e q
  have hpreparers : ∀ p ∈ c.preparers, p ∈ Preparer.builtIn := by
    simp [c, Preparer.mem_builtIn]
  have hvalues : LeavesIn (Compares fun v => v.isScalarOrDate = true) e := by
    have hleaf {x : Expr} (hx : x.isLeaf = true)
        (hall : x.comparedValues.all Value.isScalarOrDate = true) :
        LeavesIn (Compares fun v => v.isScalarOrDate = true) x :=
      leavesIn_of_isLeaf (List.all_eq_true.mp hall) hx
    simp only [e, leavesIn_operation, List.forall_mem_cons, leavesIn_mustNot]
    exact ⟨hleaf rfl rfl, hleaf rfl rfl, hleaf rfl rfl, hleaf rfl rfl, nofun⟩
  have hcompile : c.compile m none e = .ok (some q) := by
    unfold e q m article noon c
    rfl
  exact ⟨rfl, hpreparers, hvalues, hcompile, isScalar_of_compile rfl hpreparers hvalues hcompile⟩

end Compiler

end SearchExpr
