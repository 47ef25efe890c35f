import Mathlib.Data.List.MinMax
import Musi.LintRatchet.Kernel.MetricStrategies

namespace Musi.LintRatchet
open Musi.Js
set_option autoImplicit true

/-! ## Complexity profiles -/

/-- The complexities of a list of functions, largest first. -/
def descending (fs : ComplexityFunctions) : List Nat :=
  (fs.map (·.complexity)).insertionSort (· ≥ ·)

/-- The complexity at a rank, counted from zero. -/
def rankedComplexity (fs : ComplexityFunctions) (rank : Nat) : Nat := (descending fs).getD rank 0

/-- The largest complexity among the functions of an identity. -/
def worstOf (fs : ComplexityFunctions) (identity : Nat × JsString) : Option Nat :=
  ((fs.filter fun f => complexityIdentity f = identity).map (·.complexity)).max?

/-- A function is worse than every earlier function of its identity, of which there is one. -/
def exactRise (baseline : ComplexityFunctions) (f : LintRatchetComplexityFunction) : Bool :=
  (worstOf baseline (complexityIdentity f)).any (· < f.complexity)

/-- Some rank of the profile is worse. -/
def RankRise (baseline current : ComplexityFunctions) : Prop :=
  ∃ rank < min baseline.length current.length,
    rankedComplexity baseline rank < rankedComplexity current rank

@[simp] theorem length_descending (fs : ComplexityFunctions) :
    (descending fs).length = fs.length := by
  simp [descending]

theorem sortBy_complexity [Host] (fs : ComplexityFunctions) :
    (sortBy compareComplexityFunction fs).map (·.complexity) = descending fs := by
  have hl : ((sortBy compareComplexityFunction fs).map (·.complexity)).Pairwise (· ≥ ·) :=
    List.pairwise_map.2 ((sortBy_sorted compareComplexityFunction_consistent fs).imp
      compareComplexityFunction_le)
  have hm : (descending fs).Pairwise (· ≥ ·) := List.pairwise_insertionSort _ _
  have hp : ((sortBy compareComplexityFunction fs).map (·.complexity)).Perm (descending fs) :=
    ((sortBy_perm _ fs).map _).trans (List.perm_insertionSort _ _).symm
  exact List.Perm.eq_of_pairwise (fun _ _ _ _ hab hba => le_antisymm hba hab) hl hm hp

theorem descending_head (fs : ComplexityFunctions) :
    (descending fs).head? = maxComplexityFor (some fs) := by
  cases fs with
  | nil => rfl
  | cons f fs =>
    have hsorted : (descending (f :: fs)).Pairwise (· ≥ ·) := List.pairwise_insertionSort _ _
    have hmem (m : Nat) : m ∈ descending (f :: fs) ↔ ∃ g ∈ f :: fs, g.complexity = m := by
      simp only [descending, List.mem_insertionSort, List.mem_map]
    have hfold : ∀ (gs : ComplexityFunctions) (best : Nat),
        (∀ g ∈ gs, g.complexity ≤ gs.foldl (fun b e => max b e.complexity) best) ∧
        best ≤ gs.foldl (fun b e => max b e.complexity) best ∧
        (gs.foldl (fun b e => max b e.complexity) best = best ∨
          ∃ g ∈ gs, g.complexity = gs.foldl (fun b e => max b e.complexity) best) := by
      intro gs
      induction gs with
      | nil => simp
      | cons g gs ih =>
        intro best
        obtain ⟨h1, h2, h3⟩ := ih (max best g.complexity)
        simp only [List.foldl_cons, List.forall_mem_cons]
        refine ⟨⟨(le_max_right _ _).trans h2, h1⟩, (le_max_left _ _).trans h2, ?_⟩
        rcases h3 with h3 | ⟨g', hg', he⟩
        · rcases le_total best g.complexity with hle | hle
          · exact .inr ⟨g, by simp, by rw [h3, max_eq_right hle]⟩
          · exact .inl (by rw [h3, max_eq_left hle])
        · exact .inr ⟨g', by simp [hg'], he⟩
    obtain ⟨h1, h2, h3⟩ := hfold fs f.complexity
    cases hd : descending (f :: fs) with
    | nil => simpa using congrArg List.length hd
    | cons m ms =>
      rw [hd, List.pairwise_cons] at hsorted
      obtain ⟨g, hg, rfl⟩ := (hmem m).1 (by simp [hd])
      rw [maxComplexityFor, List.head?_cons, Option.some.injEq]
      refine le_antisymm ?_ ?_
      · rcases List.mem_cons.1 hg with rfl | hg
        · exact h2
        · exact h1 g hg
      · have hmax : ∃ g ∈ f :: fs, g.complexity =
            fs.foldl (fun b e => max b e.complexity) f.complexity := by
          rcases h3 with h3 | ⟨g, hg, he⟩
          · exact ⟨f, by simp, h3.symm⟩
          · exact ⟨g, by simp [hg], he⟩
        have := (hmem _).2 hmax
        rw [hd] at this
        rcases List.mem_cons.1 this with he | hm
        · exact he.le
        · exact hsorted.1 _ hm

theorem descending_perm {fs gs : ComplexityFunctions} (h : fs.Perm gs) :
    descending fs = descending gs := by
  refine List.Perm.eq_of_pairwise (fun _ _ _ _ hab hba => le_antisymm hba hab)
    (List.pairwise_insertionSort _ _) (List.pairwise_insertionSort _ _) ?_
  exact (List.perm_insertionSort _ _).trans ((h.map _).trans (List.perm_insertionSort _ _).symm)

theorem maxComplexityFor_perm {fs gs : ComplexityFunctions} (h : fs.Perm gs) :
    maxComplexityFor (some fs) = maxComplexityFor (some gs) := by
  rw [← descending_head, ← descending_head, descending_perm h]

/-- The identity map holds the largest complexity of every identity. -/
theorem uniqueComplexityMap_worst (fs : ComplexityFunctions) (identity : Nat × JsString) :
    ((uniqueComplexityMap fs).lookup identity).map (·.complexity) = worstOf fs identity := by
  have h := uniqueComplexityMap_lookup fs identity
  cases hl : (uniqueComplexityMap fs).lookup identity with
  | none =>
    rw [hl] at h
    have hf : fs.filter (fun f => complexityIdentity f = identity) = [] :=
      List.filter_eq_nil_iff.2 fun f hf => by simpa using h f hf
    simp [worstOf, hf]
  | some p =>
    rw [hl] at h
    refine (List.max?_eq_some_iff.2 ⟨?_, fun m hm => ?_⟩).symm
    · exact List.mem_map_of_mem (List.mem_filter.2 ⟨h.1, by simpa using h.2.1⟩)
    · obtain ⟨f, hf, rfl⟩ := List.mem_map.1 hm
      rw [List.mem_filter, decide_eq_true_eq] at hf
      exact h.2.2 f hf.1 hf.2

theorem worstOf_perm {fs gs : ComplexityFunctions} (h : fs.Perm gs) (identity : Nat × JsString) :
    worstOf fs identity = worstOf gs identity := by
  have hp := (h.filter fun f => complexityIdentity f = identity).map (·.complexity)
  unfold worstOf
  cases hw : ((fs.filter fun f => complexityIdentity f = identity).map (·.complexity)).max? with
  | none =>
    rw [List.max?_eq_none_iff] at hw
    rw [hw] at hp
    rw [← hp.nil_eq, List.max?_nil]
  | some worst =>
    obtain ⟨hmem, hle⟩ := List.max?_eq_some_iff.1 hw
    exact (List.max?_eq_some_iff.2 ⟨hp.mem_iff.1 hmem, fun m hm => hle m (hp.mem_iff.2 hm)⟩).symm

theorem complexityDeltaOf_congr {previous previous' : LintRatchetComplexityFunction}
    (h : previous.complexity = previous'.complexity) (regression : Bool)
    (entry : LintRatchetComplexityFunction) :
    complexityDeltaOf regression previous entry = complexityDeltaOf regression previous' entry := by
  simp [complexityDeltaOf, complexityMoved, h]

/-- The exact search reads the baseline through the worst function of every identity. -/
theorem exactComplexityDelta_perm {baseline baseline' : ComplexityFunctions}
    (h : baseline.Perm baseline') (current : ComplexityFunctions) (regression : Bool) :
    exactComplexityDelta baseline current regression =
      exactComplexityDelta baseline' current regression := by
  rw [exactComplexityDelta, exactComplexityDelta]
  induction current with
  | nil => rfl
  | cons f current ih =>
    have hw := worstOf_perm h (complexityIdentity f)
    rw [← uniqueComplexityMap_worst, ← uniqueComplexityMap_worst] at hw
    rw [List.findSome?_cons, List.findSome?_cons, ih]
    cases hl : (uniqueComplexityMap baseline).lookup (complexityIdentity f) with
    | none =>
      rw [hl, Option.map_none, eq_comm, Option.map_eq_none_iff] at hw
      rw [hw]
    | some p =>
      rw [hl, Option.map_some, eq_comm, Option.map_eq_some_iff] at hw
      obtain ⟨q, hq, hqp⟩ := hw
      rw [hq]
      simp only [complexityDeltaOf_congr hqp]

/-- The exact search reports the first function that rises above its identity. -/
theorem exactComplexityDelta_rise (baseline current : ComplexityFunctions) :
    exactComplexityDelta baseline current true = (current.find? (exactRise baseline)).map fun f =>
      { baselineComplexity := (worstOf baseline (complexityIdentity f)).getD 0,
        currentComplexity := f.complexity, line := f.line, regression := true } := by
  rw [exactComplexityDelta]
  induction current with
  | nil => rfl
  | cons f current ih =>
    rw [List.findSome?_cons, List.find?_cons, exactRise]
    have hw := uniqueComplexityMap_worst baseline (complexityIdentity f)
    cases hl : (uniqueComplexityMap baseline).lookup (complexityIdentity f) with
    | none =>
      rw [hl] at hw
      simpa [← hw] using ih
    | some p =>
      rw [hl] at hw
      by_cases hgt : p.complexity < f.complexity
      · simp [← hw, complexityDeltaOf, complexityMoved, hgt]
      · simpa [← hw, complexityDeltaOf, complexityMoved, hgt] using ih

section Ranks
variable [Host] {baseline current : ComplexityFunctions}

omit [Host] in
theorem complexityDeltaOf_rise (previous entry : LintRatchetComplexityFunction) :
    complexityDeltaOf true previous entry = if previous.complexity < entry.complexity then
      some { baselineComplexity := previous.complexity, currentComplexity := entry.complexity,
             line := entry.line, regression := true } else none := by
  simp [complexityDeltaOf, complexityMoved]

omit [Host] in
theorem findSome?_zip_rise (bs cs : ComplexityFunctions) :
    ((bs.zip cs).findSome? fun p => complexityDeltaOf true p.1 p.2) = none ↔
      ∀ rank < min bs.length cs.length,
        (cs.map (·.complexity)).getD rank 0 ≤ (bs.map (·.complexity)).getD rank 0 := by
  induction bs generalizing cs with
  | nil => simp
  | cons b bs ih =>
    cases cs with
    | nil => simp
    | cons c cs =>
      rw [List.zip_cons_cons, List.findSome?_cons, complexityDeltaOf_rise]
      by_cases h : b.complexity < c.complexity
      · simp only [if_pos h, reduceCtorEq, false_iff]
        intro hall
        have := hall 0 (by simp)
        simp only [List.map_cons, List.getD_cons_zero] at this
        omega
      · rw [if_neg h, ih cs]
        constructor
        · rintro hall (_ | rank) hr
          · simpa using h
          · simpa using hall rank (by simpa using hr)
        · intro hall rank hr
          simpa using hall (rank + 1) (by simpa using hr)

theorem vectorComplexityDelta_rise_none :
    vectorComplexityDelta baseline current true = none ↔ ¬ RankRise baseline current := by
  rw [vectorComplexityDelta, findSome?_zip_rise]
  simp only [length_sortBy, sortBy_complexity, RankRise, rankedComplexity]
  push Not
  exact Iff.rfl

omit [Host] in
theorem findSome?_zip_congr {bs bs' : ComplexityFunctions}
    (h : bs.map (·.complexity) = bs'.map (·.complexity)) (cs : ComplexityFunctions)
    (regression : Bool) :
    ((bs.zip cs).findSome? fun p => complexityDeltaOf regression p.1 p.2) =
      (bs'.zip cs).findSome? fun p => complexityDeltaOf regression p.1 p.2 := by
  induction bs generalizing bs' cs with
  | nil => rw [List.map_eq_nil_iff.1 h.symm]
  | cons b bs ih =>
    cases bs' with
    | nil => cases h
    | cons b' bs' =>
      rw [List.map_cons, List.map_cons, List.cons.injEq] at h
      cases cs with
      | nil => rfl
      | cons c cs =>
        rw [List.zip_cons_cons, List.zip_cons_cons, List.findSome?_cons, List.findSome?_cons,
          complexityDeltaOf_congr h.1, ih h.2]

/-- The search by rank reads the baseline through its profile. -/
theorem vectorComplexityDelta_perm {baseline' : ComplexityFunctions} (h : baseline.Perm baseline')
    (regression : Bool) : vectorComplexityDelta baseline current regression =
      vectorComplexityDelta baseline' current regression := by
  refine findSome?_zip_congr ?_ _ regression
  rw [sortBy_complexity, sortBy_complexity, descending_perm h]

/-- When the largest complexity rises, the search by rank reports exactly that rise. -/
theorem vectorComplexityDelta_max (hb : maxComplexityFor (some baseline) = some b)
    (hc : maxComplexityFor (some current) = some c) (hlt : b < c) :
    ∃ d, vectorComplexityDelta baseline current true = some d ∧ d.baselineComplexity = b ∧
      d.currentComplexity = c ∧ d.regression = true := by
  rw [← descending_head, ← sortBy_complexity] at hb hc
  rw [vectorComplexityDelta]
  cases hbs : sortBy compareComplexityFunction baseline with
  | nil => simp [hbs] at hb
  | cons x xs =>
    cases hcs : sortBy compareComplexityFunction current with
    | nil => simp [hcs] at hc
    | cons y ys =>
      simp only [hbs, hcs, List.map_cons, List.head?_cons, Option.some.injEq] at hb hc
      subst hb hc
      simp only [List.zip_cons_cons, List.findSome?_cons, complexityDeltaOf_rise, if_pos hlt]
      exact ⟨_, rfl, rfl, rfl, rfl⟩

theorem RankRise.of_max (hb : maxComplexityFor (some baseline) = some b)
    (hc : maxComplexityFor (some current) = some c) (hlt : b < c) : RankRise baseline current := by
  obtain ⟨d, hd, -⟩ := vectorComplexityDelta_max hb hc hlt
  by_contra hn
  rw [vectorComplexityDelta_rise_none.2 hn] at hd
  cases hd

end Ranks

/-! ## The reported delta -/

section Deltas
variable {bs cs : ComplexityFunctions} {b c : LintRatchetMetricItem}

theorem complexityDeltaOf_regression (h : complexityDeltaOf regression p e = some d) :
    d.regression = regression := by
  unfold complexityDeltaOf at h
  split at h
  · cases h
    rfl
  · cases h

theorem exactComplexityDelta_regression (h : exactComplexityDelta bs cs regression = some d) :
    d.regression = regression := by
  obtain ⟨entry, -, he⟩ := List.exists_of_findSome?_eq_some h
  split at he
  · cases he
  · exact complexityDeltaOf_regression he

variable [Host]

theorem vectorComplexityDelta_regression (h : vectorComplexityDelta bs cs regression = some d) :
    d.regression = regression := by
  obtain ⟨entry, -, he⟩ := List.exists_of_findSome?_eq_some h
  exact complexityDeltaOf_regression he

/-- A function worse than its identity is reported first. -/
theorem complexityDelta_exact (hb : b.perFunction = some bs) (hc : c.perFunction = some cs)
    (hf : cs.find? (exactRise bs) = some f) : complexityDelta (some b) c =
      some { baselineComplexity := (worstOf bs (complexityIdentity f)).getD 0,
             currentComplexity := f.complexity, line := f.line, regression := true } := by
  simp [complexityDelta, hb, hc, exactComplexityDelta_rise, hf]

/-- Without one, a worse rank is reported, the largest complexity first. -/
theorem complexityDelta_rank (hb : b.perFunction = some bs) (hc : c.perFunction = some cs)
    (hf : cs.find? (exactRise bs) = none) (hr : RankRise bs cs) :
    ∃ d, complexityDelta (some b) c = some d ∧ d.regression = true ∧
      ∀ m n, maxComplexityFor (some bs) = some m → maxComplexityFor (some cs) = some n → m < n →
        d.baselineComplexity = m ∧ d.currentComplexity = n := by
  have hexact : exactComplexityDelta bs cs true = none := by rw [exactComplexityDelta_rise, hf]; rfl
  cases hv : vectorComplexityDelta bs cs true with
  | none => exact absurd hr (vectorComplexityDelta_rise_none.1 hv)
  | some d =>
    refine ⟨d, by simp [complexityDelta, hb, hc, hexact, hv], vectorComplexityDelta_regression hv,
      fun m n hm hn hlt => ?_⟩
    obtain ⟨d', hd', h1, h2, -⟩ := vectorComplexityDelta_max hm hn hlt
    rw [hv, Option.some.injEq] at hd'
    exact hd' ▸ ⟨h1, h2⟩

/-- With neither, whatever is reported is an improvement. -/
theorem complexityDelta_none (hb : b.perFunction = some bs) (hc : c.perFunction = some cs)
    (hf : cs.find? (exactRise bs) = none) (hr : ¬ RankRise bs cs)
    (hd : complexityDelta (some b) c = some d) : d.regression = false := by
  have hexact : exactComplexityDelta bs cs true = none := by rw [exactComplexityDelta_rise, hf]; rfl
  simp only [complexityDelta, Option.bind_some, hb, hc, hexact,
    vectorComplexityDelta_rise_none.2 hr, Option.none_or] at hd
  rcases Option.or_eq_some_iff.1 hd with h | ⟨-, h⟩
  · exact exactComplexityDelta_regression h
  · exact vectorComplexityDelta_regression h

end Deltas

/-! ## What the comparisons report -/

section Comparisons
variable {N : Type} [JsNumber N] {context : MetricItemComparisonContext N}
  {r : LintRatchetRegression N}

/-- A regression names the path it was found on and both counts. -/
structure RegressionFor (context : MetricItemComparisonContext N) (r : LintRatchetRegression N) :
    Prop where
  testId : r.testId = context.ratchet.id
  ruleId : r.ruleId = context.ratchet.ruleId
  path : r.path = context.path
  baselineCount : r.baselineCount = context.baselineCount
  currentCount : r.currentCount = context.current.count

omit [JsNumber N] in
theorem countIncreaseRegression_none {new old : NewPathPayload N} :
    countIncreaseRegression context new old = none ↔
      context.current.count ≤ context.baselineCount := by
  unfold countIncreaseRegression
  split
  · next h => simp [h]
  · next h => split <;> simpa using h

omit [JsNumber N] in
/-- A count regression is of a new path when nothing was there before. -/
theorem countIncreaseRegression_some {new old : NewPathPayload N}
    (h : countIncreaseRegression context new old = some r) :
    RegressionFor context r ∧ context.baselineCount < context.current.count ∧
      r.reason = if context.baselineCount = 0 then .newPath else .increasedCount := by
  unfold countIncreaseRegression at h
  split at h
  · cases h
  · next hlt =>
    rw [not_le] at hlt
    split at h <;> next h0 =>
      cases h
      exact ⟨⟨rfl, rfl, rfl, rfl, rfl⟩, hlt, by simp [h0, regressionBase,
        LintRatchetRegression.withPayload]⟩

omit [JsNumber N] in
theorem countComparison_regression (new old : NewPathPayload N) (other : MetricItemComparison N)
    (ho : other.regression = none) : ((countComparison context new old).getD other).regression =
      countIncreaseRegression context new old := by
  unfold countComparison
  cases countIncreaseRegression context new old with
  | some r => rfl
  | none =>
    cases countDecreaseImprovement context with
    | none => exact ho
    | some i => rfl

omit [JsNumber N] in
theorem compareMessageCountItem_regression : (compareMessageCountItem context).regression =
    countIncreaseRegression context
      { messageContextPayload context with line := context.current.firstLine }
      { messageContextPayload context with line := context.current.firstLine } := by
  rw [← countComparison_regression _ _ { info := equalCountMessageSwapInfo context } rfl]
  unfold compareMessageCountItem
  dsimp only
  split <;> next h => rw [h]; rfl

omit [JsNumber N] in
/-- Larger line counts take precedence over the count. -/
theorem compareEffectiveLineCountItem_lines
    (hb : context.baselineItem.bind (·.lines) = some b) (hc : context.current.lines = some c)
    (hlt : b < c) : ∃ r, (compareEffectiveLineCountItem context).regression = some r ∧
      RegressionFor context r ∧ r.reason = .increasedLines ∧ r.baselineLines = some b ∧
      r.currentLines = some c := by
  simp only [compareEffectiveLineCountItem, hb, hc, increasedLinesComparison, if_neg hlt.not_ge]
  exact ⟨_, rfl, ⟨rfl, rfl, rfl, rfl, rfl⟩, rfl, rfl, rfl⟩

omit [JsNumber N] in
theorem lowerLinesComparison_regression (b c : Option ℕ∞) :
    (lowerLinesComparison context b c).regression = none := by
  unfold lowerLinesComparison
  split
  · split <;> rfl
  · rfl

omit [JsNumber N] in
theorem compareEffectiveLineCountItem_count
    (h : ∀ b c, context.baselineItem.bind (·.lines) = some b → context.current.lines = some c →
      c ≤ b) : (compareEffectiveLineCountItem context).regression =
        countIncreaseRegression context
          { currentLines := context.current.lines, line := context.current.firstLine }
          (linePayload context.current.firstLine) := by
  have hnone : increasedLinesComparison context (context.baselineItem.bind (·.lines))
      context.current.lines = none := by
    unfold increasedLinesComparison
    split
    · next b c hb hc => rw [if_pos (h b c hb hc)]
    · rfl
  simp only [compareEffectiveLineCountItem, hnone]
  exact countComparison_regression _ _ _ (lowerLinesComparison_regression _ _)

variable [Host]

/-- A worse function takes precedence over the count. -/
theorem compareComplexitySeverityItem_delta {d : ComplexityDelta}
    (h : complexityDelta context.baselineItem context.current.toLintRatchetMetricItem = some d)
    (hd : d.regression = true) :
    ∃ r, (compareComplexitySeverityItem context).regression = some r ∧ RegressionFor context r ∧
      r.reason = .increasedComplexity ∧ r.baselineComplexity = some d.baselineComplexity ∧
      r.currentComplexity = some d.currentComplexity := by
  simp only [compareComplexitySeverityItem, h, increasedComplexityComparison, hd, if_true]
  exact ⟨_, rfl, ⟨rfl, rfl, rfl, rfl, rfl⟩, rfl, rfl, rfl⟩

omit [Host] [JsNumber N] in
theorem lowerComplexityComparison_regression (d : Option ComplexityDelta) :
    (lowerComplexityComparison context d).regression = none := by
  cases d <;> rfl

theorem compareComplexitySeverityItem_count
    (h : ∀ d, complexityDelta context.baselineItem context.current.toLintRatchetMetricItem = some d →
      d.regression = false) : ∃ new old, (compareComplexitySeverityItem context).regression =
        countIncreaseRegression context new old := by
  have hnone : increasedComplexityComparison context (complexityDelta context.baselineItem
      context.current.toLintRatchetMetricItem) = none := by
    cases hd : complexityDelta context.baselineItem context.current.toLintRatchetMetricItem with
    | none => rfl
    | some d => simp [increasedComplexityComparison, h d hd]
  simp only [compareComplexitySeverityItem, hnone]
  exact ⟨_, _, countComparison_regression _ _ _ (lowerComplexityComparison_regression _)⟩

/-- What a comparison of counts alone reports. -/
structure ReportsCount (context : MetricItemComparisonContext N)
    (report : Option (LintRatchetRegression N)) : Prop where
  kept : context.current.count ≤ context.baselineCount → report = none
  worse : context.baselineCount < context.current.count → ∃ r, report = some r ∧
    RegressionFor context r ∧
      r.reason = if context.baselineCount = 0 then .newPath else .increasedCount

omit [Host] [JsNumber N] in
theorem reportsCount (context : MetricItemComparisonContext N) (new old : NewPathPayload N) :
    ReportsCount context (countIncreaseRegression context new old) where
  kept h := countIncreaseRegression_none.2 h
  worse h := by
    cases hr : countIncreaseRegression context new old with
    | none => exact absurd (countIncreaseRegression_none.1 hr) (not_le.2 h)
    | some r =>
      obtain ⟨hfor, -, hreason⟩ := countIncreaseRegression_some hr
      exact ⟨r, rfl, hfor, hreason⟩

/-- Without a floor on the axis of the metric only the counts are compared. -/
theorem compareItem_reportsCount (context : MetricItemComparisonContext N)
    {metric : LintRatchetMetric}
    (hl : metric = .effectiveLineCount → context.baselineItem.bind (·.lines) = none)
    (hf : metric = .complexitySeverity → context.baselineItem.bind (·.perFunction) = none) :
    ReportsCount context (compareItem metric context).regression := by
  cases metric with
  | messageCount =>
    rw [compareItem, compareMessageCountItem_regression]
    exact reportsCount _ _ _
  | effectiveLineCount =>
    rw [compareItem, compareEffectiveLineCountItem_count (by simp [hl rfl])]
    exact reportsCount _ _ _
  | complexitySeverity =>
    have hnone : ∀ d, complexityDelta context.baselineItem
        context.current.toLintRatchetMetricItem = some d → d.regression = false := by
      simp [complexityDelta, hf rfl]
    obtain ⟨new, old, he⟩ := compareComplexitySeverityItem_count hnone
    rw [compareItem, he]
    exact reportsCount _ _ _

/-- Every regression names the path it was found on. -/
theorem compareItem_regressionFor {metric : LintRatchetMetric}
    (h : (compareItem metric context).regression = some r) : RegressionFor context r := by
  have hcount {report : Option (LintRatchetRegression N)} (hc : ReportsCount context report)
      (hr : report = some r) : RegressionFor context r := by
    rcases le_or_gt context.current.count context.baselineCount with hle | hgt
    · rw [hc.kept hle] at hr
      cases hr
    · obtain ⟨r', hr', hfor, -⟩ := hc.worse hgt
      rw [hr, Option.some.injEq] at hr'
      exact hr' ▸ hfor
  cases metric with
  | messageCount =>
    rw [compareItem, compareMessageCountItem_regression] at h
    exact hcount (reportsCount _ _ _) h
  | effectiveLineCount =>
    rw [compareItem] at h
    by_cases hle : ∀ b c, context.baselineItem.bind (·.lines) = some b →
        context.current.lines = some c → c ≤ b
    · rw [compareEffectiveLineCountItem_count hle] at h
      exact hcount (reportsCount _ _ _) h
    · push Not at hle
      obtain ⟨b, c, hb, hc, hlt⟩ := hle
      obtain ⟨r', hr', hfor, -⟩ := compareEffectiveLineCountItem_lines hb hc hlt
      rw [h, Option.some.injEq] at hr'
      exact hr' ▸ hfor
  | complexitySeverity =>
    rw [compareItem] at h
    by_cases hd : ∀ d, complexityDelta context.baselineItem
        context.current.toLintRatchetMetricItem = some d → d.regression = false
    · obtain ⟨new, old, he⟩ := compareComplexitySeverityItem_count hd
      rw [he] at h
      exact hcount (reportsCount _ _ _) h
    · push Not at hd
      obtain ⟨d, hd, hreg⟩ := hd
      obtain ⟨r', hr', hfor, -⟩ :=
        compareComplexitySeverityItem_delta hd (by simpa using hreg)
      rw [h, Option.some.injEq] at hr'
      exact hr' ▸ hfor

end Comparisons

end Musi.LintRatchet
