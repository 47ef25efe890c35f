import Musi.LintRatchet.Governance.DebtAccounting
import Musi.LintRatchet.Kernel.UpdateFacts

namespace Musi.LintRatchet
open Musi.Js
set_option autoImplicit true

variable {N : Type} {b g : LintRatchetBaselineTest N} {i : BaselineDebtIncrease}

/-! ## Which increases are collected -/

theorem mem_collectBaselineIncreases {base current : LintRatchetBaseline N} :
    i ∈ collectBaselineIncreases base current ↔ ∃ testId b g path,
      base.tests.own testId = some b ∧ current.tests.own testId = some g ∧
        pathIncrease testId b g path = some i := by
  simp only [collectBaselineIncreases, List.mem_flatMap, sortStrings, mem_sortBy]
  constructor
  · rintro ⟨testId, -, h⟩
    split at h
    · next g b hg hb =>
      obtain ⟨path, -, hi⟩ := List.mem_filterMap.1 h
      exact ⟨testId, b, g, path, hb, hg, hi⟩
    · simp at h
  · rintro ⟨testId, b, g, path, hb, hg, hi⟩
    refine ⟨testId, Record.mem_keys.2 ⟨g, hg⟩, ?_⟩
    simp only [hb, hg]
    refine List.mem_filterMap.2 ⟨path, mem_sortBy.2 (Record.mem_keys.2 ?_), hi⟩
    cases ho : g.items.own path with
    | none => simp [pathIncrease, ho] at hi
    | some item => exact ⟨item, rfl⟩

/-- The increase of a path that the base does not have. -/
theorem pathIncrease_absent (hi : g.items.own path = some item)
    (hb : b.items.read path = .absent) :
    pathIncrease testId b g path = some (newPathIncrease testId g.ruleId path item) := by
  simp [pathIncrease, hi, hb, baseItemFields]

/-- The context of a path that both tests have. -/
def sharedContext (testId path : JsString) (g : LintRatchetBaselineTest N)
    (previous item : LintRatchetMetricItem) : ItemIncreaseContext where
  testId := testId
  ruleId := g.ruleId
  path := path
  baseItem := { count := some previous.count, lines := previous.lines,
                maxComplexity := previous.maxComplexity }
  currentItem := item

theorem pathIncrease_shared {previous item : LintRatchetMetricItem}
    (hi : g.items.own path = some item) (hb : b.items.own path = some previous) :
    pathIncrease testId b g path =
      collectItemIncreasesForMetric (sharedContext testId path g previous item)
        (g.metric = b.metric) := by
  have hr : b.items.read path = .own previous := Record.read_own.2 hb
  simp [pathIncrease, hi, hr, baseItemFields, sharedContext]

/-- An item that a member of Object.prototype stands before: nothing is known of its base. -/
theorem pathIncrease_inherited (testId : JsString) (hi : g.items.own path = some item)
    (hb : b.items.read path = .inherited) :
    ∃ i, pathIncrease testId b g path = some i ∧ i.kind ≠ .newPath ∧ i.previousCount = none ∧
      i.previousLines = none ∧ i.previousComplexity = none := by
  simp only [pathIncrease, hi, hb, baseItemFields, collectItemIncreasesForMetric]
  split
  · simp only [collectItemIncreases, lineIncrease, complexityIncrease, countIncrease, notAbove,
      Option.any_none, Bool.false_eq_true, if_false]
    cases item.lines with
    | some l => exact ⟨_, rfl, by simp⟩
    | none =>
      cases item.maxComplexity with
      | some m => exact ⟨_, rfl, by simp⟩
      | none => exact ⟨_, rfl, by simp⟩
  · exact ⟨_, rfl, by simp⟩

theorem countIncrease_shared (testId path : JsString) (g : LintRatchetBaselineTest N)
    (previous item : LintRatchetMetricItem) :
    countIncrease (sharedContext testId path g previous item) =
      if item.count ≤ previous.count then none else some
        { testId, ruleId := g.ruleId, path, kind := .count, previousCount := some previous.count,
          currentCount := item.count } := by
  by_cases h : item.count ≤ previous.count <;>
    simp [countIncrease, sharedContext, notAbove, h]

/-- Without a current value on a severity axis only the counts are compared. -/
theorem collectItemIncreases_count {context : ItemIncreaseContext}
    (hl : context.currentItem.lines = none) (hm : context.currentItem.maxComplexity = none) :
    collectItemIncreases context = countIncrease context := by
  simp [collectItemIncreases, lineIncrease, complexityIncrease, hl, hm]

theorem collectItemIncreases_lines {previous item : LintRatchetMetricItem} {lb lg : ℕ∞}
    (hlb : previous.lines = some lb) (hlg : item.lines = some lg) (hm : item.maxComplexity = none) :
    collectItemIncreases (sharedContext testId path g previous item) =
      if lg ≤ lb then countIncrease (sharedContext testId path g previous item) else some
        { testId, ruleId := g.ruleId, path, kind := .lines, previousCount := some previous.count,
          currentCount := item.count, previousLines := some lb, currentLines := some lg } := by
  simp only [collectItemIncreases, lineIncrease, complexityIncrease, sharedContext, hlb, hlg, hm,
    notAbove, Option.any_some, decide_eq_true_eq, Option.none_or]
  split <;> rfl

theorem collectItemIncreases_complexity {previous item : LintRatchetMetricItem} {m n : Nat}
    (hl : item.lines = none) (hm : previous.maxComplexity = some m)
    (hn : item.maxComplexity = some n) :
    collectItemIncreases (sharedContext testId path g previous item) =
      if n ≤ m then countIncrease (sharedContext testId path g previous item) else some
        { testId, ruleId := g.ruleId, path, kind := .complexity,
          previousCount := some previous.count, currentCount := item.count,
          previousComplexity := some m, currentComplexity := some n } := by
  simp only [collectItemIncreases, lineIncrease, complexityIncrease, sharedContext, hl, hm, hn,
    notAbove, Option.any_some, decide_eq_true_eq, Option.none_or]
  split <;> rfl

/-- An increase names where it was found, and an increase of the count is one. -/
structure IncreaseAt (testId ruleId path : JsString) (i : BaselineDebtIncrease) : Prop where
  testId : i.testId = testId
  ruleId : i.ruleId = ruleId
  path : i.path = path
  rises : i.kind = .count → i.previousCount ≠ some i.currentCount

theorem countIncrease_at {context : ItemIncreaseContext} (h : countIncrease context = some i) :
    IncreaseAt context.testId context.ruleId context.path i := by
  unfold countIncrease at h
  split at h
  · cases h
  · next hno =>
    cases h
    refine ⟨rfl, rfl, rfl, fun _ he => hno ?_⟩
    dsimp only at he
    simp [notAbove, he]

theorem collectItemIncreases_at {context : ItemIncreaseContext}
    (h : collectItemIncreases context = some i) :
    IncreaseAt context.testId context.ruleId context.path i := by
  rcases Option.or_eq_some_iff.1 h with h | ⟨-, h⟩
  · unfold lineIncrease at h
    split at h
    · cases h
    · split at h
      · cases h
      · cases h
        exact ⟨rfl, rfl, rfl, by simp⟩
  · rcases Option.or_eq_some_iff.1 h with h | ⟨-, h⟩
    · unfold complexityIncrease at h
      split at h
      · cases h
      · split at h
        · cases h
        · cases h
          exact ⟨rfl, rfl, rfl, by simp⟩
    · exact countIncrease_at h

theorem pathIncrease_at (h : pathIncrease testId b g path = some i) :
    IncreaseAt testId g.ruleId path i := by
  unfold pathIncrease at h
  split at h
  · cases h
  · split at h
    · cases h
      exact ⟨rfl, rfl, rfl, by simp [newPathIncrease]⟩
    · unfold collectItemIncreasesForMetric at h
      split at h
      · exact collectItemIncreases_at h
      · exact countIncrease_at h

/-- Without records nothing is accounted for. -/
theorem hasAccountingEntry_nil (h : i.kind = .count → i.previousCount ≠ some i.currentCount) :
    hasAccountingEntry i ([] : List (LintRatchetDebtLogEntry N)) = false := by
  unfold hasAccountingEntry
  split
  · unfold lineChainAccountsForIncrease severityChainAccountsForIncrease
    split <;> simp [matchingRegressions]
  · unfold complexityChainAccountsForIncrease severityChainAccountsForIncrease
    split <;> simp [matchingRegressions]
  · next hk => simp [countChainAccountsForIncrease, matchingRegressions, hk]
  · next hk => simpa [countChainAccountsForIncrease, matchingRegressions, hk] using h hk

/-! ## Chains with no start, and chains of one record -/

theorem countChain_unknown (regressions : List (LintRatchetRegression N)) (seen : Bool) :
    ∃ seen', regressions.foldl countChainStep (none, seen) = (none, seen') := by
  induction regressions with
  | nil => exact ⟨seen, rfl⟩
  | cons r regressions ih =>
    have hstep : countChainStep (none, seen) r = (none, seen) := by
      simp [countChainStep, isNextCountTransition]
    rw [List.foldl_cons, hstep]
    exact ih

/-- Nothing accounts for an increase over an unknown base. -/
theorem hasAccountingEntry_unknown {entries : List (LintRatchetDebtLogEntry N)}
    (hc : i.previousCount = none) (hl : i.previousLines = none) (hm : i.previousComplexity = none) :
    hasAccountingEntry i entries = false := by
  unfold hasAccountingEntry
  split
  · simp [lineChainAccountsForIncrease, severityChainAccountsForIncrease, hl]
  · simp [complexityChainAccountsForIncrease, severityChainAccountsForIncrease, hm]
  all_goals
    obtain ⟨seen, hs⟩ := countChain_unknown (matchingRegressions i entries)
      (decide (i.kind ≠ .newPath))
    simp only [countChainAccountsForIncrease, hc, hs, reduceCtorEq, decide_false, Bool.and_false]

variable [JsNumber N] [Host] {committed generated : LintRatchetBaseline N}
  {ratchets : List (LintRatchetConfig N)}

/-- The records of one update for an increase: what the update reported at its path. -/
theorem matchingRegressions_update {options : LintRatchetUpdateOptions N}
    {decision : LintRatchetUpdateDecision N}
    (hd : decideLintRatchetUpdate committed generated ratchets options = some decision)
    (hr : ∀ r, updateRegressionAt committed generated ratchets i.testId i.path = some r →
      r.ruleId = i.ruleId) (reason : JsString) :
    matchingRegressions i [.acceptedDebt (buildLintRatchetDebtLogEntry decision reason)] =
      (updateRegressionAt committed generated ratchets i.testId i.path).toList.map
        debtLogRegressionFor := by
  have hkeys := decision_regressions hd i.testId i.path
  simp only [matchingRegressions, buildLintRatchetDebtLogEntry, List.flatMap_cons, List.flatMap_nil,
    List.append_nil, List.filter_map]
  refine congrArg (List.map debtLogRegressionFor) ?_
  rw [← hkeys]
  refine List.filter_congr fun r hm => ?_
  have hrule : (r.testId, r.path) = (i.testId, i.path) → r.ruleId = i.ruleId := fun he => by
    refine hr r (Option.mem_toList.1 ?_)
    rw [← hkeys]
    exact List.mem_filter.2 ⟨hm, by simp [he]⟩
  simp only [Function.comp_apply, debtLogRegressionFor, Prod.mk.injEq] at hrule ⊢
  by_cases h1 : r.testId = i.testId <;> by_cases h2 : r.path = i.path <;> simp [h1, h2]
  exact decide_eq_true (hrule ⟨h1, h2⟩)

omit [JsNumber N] [Host] in
/-- A chain of counts of at most one record. -/
theorem countChain_single {report : Option (LintRatchetRegression N)} {previous : Nat}
    (hr : ReportsCountAt i.ruleId previous i.currentCount report)
    (hlt : previous < i.currentCount) (hp : i.previousCount = some previous)
    (hk : i.kind = .newPath ↔ previous = 0) :
    countChainAccountsForIncrease i (report.toList.map debtLogRegressionFor) = true := by
  obtain ⟨r, rfl, -, hb, hc, hreason⟩ := hr.worse hlt
  by_cases h0 : previous = 0
  · simp [countChainAccountsForIncrease, countChainStep, isNextCountTransition, hk.2 h0, hp,
      debtLogRegressionFor, hb, hc, hreason, h0, (by omega : 0 < i.currentCount)]
  · simp [countChainAccountsForIncrease, countChainStep, isNextCountTransition, mt hk.1 h0, hp,
      debtLogRegressionFor, hb, hc, hreason, h0, hlt]

omit [JsNumber N] [Host] in
/-- A record on a severity axis leaves an increase of the count unaccounted. -/
theorem countChain_severity (i : BaselineDebtIncrease) {r : LintRatchetRegression N} {previous : Nat}
    (hreason : r.reason ≠ .newPath ∧ r.reason ≠ .increasedCount) (hlt : previous < i.currentCount)
    (hp : i.previousCount = some previous) : countChainAccountsForIncrease i [r] = false := by
  simp [countChainAccountsForIncrease, countChainStep, isNextCountTransition, hreason, hp, hlt.ne]

omit [JsNumber N] [Host] in
/-- A chain of one record on a severity axis has to match both ends and the count. -/
theorem severityChain_single {α : Type} [LinearOrder α] {r : LintRatchetRegression N}
    {reason : RegressionReason} {before after : LintRatchetRegression N → Option α}
    {previous current x y : α} {count : Nat} (hreason : r.reason = reason)
    (hx : before r = some x) (hy : after r = some y) (hc : r.currentCount = count)
    (hlt : previous < current) :
    severityChainAccountsForIncrease reason before after (some previous) (some current) count [r] =
      true ↔ x = previous ∧ y = current := by
  simp only [severityChainAccountsForIncrease, List.foldl_cons, List.foldl_nil, severityChainStep,
    hx, hy, hreason, decide_true, Bool.true_and, Bool.and_eq_true, decide_eq_true_eq]
  by_cases hstep : x = previous ∧ y > x
  · rw [if_pos hstep]
    simp [hstep.1, hc]
  · rw [if_neg hstep]
    simp only [hlt.ne, false_and, false_iff]
    rintro ⟨rfl, rfl⟩
    exact hstep ⟨rfl, hlt⟩

end Musi.LintRatchet
