import Musi.LintRatchet.Kernel.BaselineFacts
import Musi.LintRatchet.Kernel.BaselineUpdate
import Musi.LintRatchet.Kernel.MetricFacts

namespace Musi.LintRatchet
open Musi.Js
set_option autoImplicit true

variable {N : Type} [JsNumber N] [Host] {committed generated : LintRatchetBaseline N}
  {ratchets : List (LintRatchetConfig N)}

/-! ## The regressions of an update -/

omit [JsNumber N] [Host] in
theorem mem_migratedIds {testId : JsString} :
    testId ∈ (collectMetricMigrations committed generated).map (·.ratchetId) ↔
      ∃ b g, committed.tests.own testId = some b ∧ generated.tests.own testId = some g ∧
        b.metric ≠ g.metric := by
  simp only [collectMetricMigrations, List.map_map, List.mem_map, Function.comp_apply]
  constructor
  · rintro ⟨d, hd, rfl⟩
    obtain ⟨b, g, hb, hg, hne, -⟩ := mem_collectMetricChangeDiffs.1 hd
    exact ⟨b, g, hb, hg, hne⟩
  · rintro ⟨b, g, hb, hg, hne⟩
    exact ⟨⟨testId, g.ruleId, b.metric, g.metric⟩,
      mem_collectMetricChangeDiffs.2 ⟨b, g, hb, hg, hne, rfl, rfl, rfl⟩, rfl⟩

/-- The regression that an update reports at one path, if any. -/
def updateRegressionAt (committed generated : LintRatchetBaseline N)
    (ratchets : List (LintRatchetConfig N)) (testId path : JsString) :
    Option (LintRatchetRegression N) :=
  (comparisonAt committed ratchets (currentByIdFromBaseline generated) testId path).regression.filter
    fun r => testId ∉ (collectMetricMigrations committed generated).map (·.ratchetId) ||
      r.reason ∈ countComparableRegressionReasons

theorem comparisonAt_keys {currentById : LintRatchetCurrentById N} {testId path : JsString}
    {r : LintRatchetRegression N}
    (h : (comparisonAt committed ratchets currentById testId path).regression = some r) :
    (r.testId, r.path) = (testId, path) := by
  unfold comparisonAt at h
  split at h
  · next ratchet test hratchet _ =>
    dsimp only at h
    split at h
    · have hfor := compareItem_regressionFor h
      rw [hfor.testId, hfor.path, (registryById_id hratchet).2]
    · cases h
  · cases h

/-- The update compares every path once: what it reports of a path is what that path gives. -/
theorem updateComparison_regressions (committed generated : LintRatchetBaseline N)
    (ratchets : List (LintRatchetConfig N)) (workflowVocabulary : LintRatchetWorkflowVocabulary) :
    ∃ comparison, updateComparison committed generated ratchets workflowVocabulary =
      some comparison ∧ ∀ testId path,
        (comparison.regressions.filter fun r => (r.testId, r.path) = (testId, path)) =
          (updateRegressionAt committed generated ratchets testId path).toList := by
  obtain ⟨keys, hnodup, hout, heq⟩ := compareCurrentToBaseline_eq committed ratchets
    (currentByIdFromBaseline generated) workflowVocabulary
  refine ⟨_, by rw [updateComparison, heq]; rfl, fun testId path => ?_⟩
  have hkeyed := filter_filterMap_keyed hnodup (k := (testId, path))
    (f := fun k => (comparisonAt committed ratchets (currentByIdFromBaseline generated)
      k.1 k.2).regression) (fun r => (r.testId, r.path))
    (fun k r hr => comparisonAt_keys hr) fun hk => by rw [hout _ hk]
  set report := (comparisonAt committed ratchets (currentByIdFromBaseline generated)
    testId path).regression with hreport
  have hsorted : (sortBy (fun a b => compareByTestIdThenPath (a.testId, a.path) (b.testId, b.path))
      (keys.filterMap fun k => (comparisonAt committed ratchets (currentByIdFromBaseline generated)
        k.1 k.2).regression)).filter (fun r => (r.testId, r.path) = (testId, path)) =
      report.toList := by
    have hp := (sortBy_perm (fun a b : LintRatchetRegression N =>
      compareByTestIdThenPath (a.testId, a.path) (b.testId, b.path))
      (keys.filterMap fun k => (comparisonAt committed ratchets (currentByIdFromBaseline generated)
        k.1 k.2).regression)).filter fun r => (r.testId, r.path) = (testId, path)
    rw [hkeyed] at hp
    exact eq_toList_of_perm hp
  simp only [excludeIncomparableMigratedDeltas, sortedDeltas, List.filterMap_map,
    Function.comp_def]
  rw [List.filter_comm, hsorted, updateRegressionAt, ← hreport, Option.toList_filter]
  refine List.filter_congr fun r hr => ?_
  rw [(Prod.mk.inj (comparisonAt_keys (Option.mem_toList.1 hr))).1]

theorem updateComparison_regressions_nil {comparison : LintRatchetComparison N}
    (h : ∀ testId path,
      (comparison.regressions.filter fun r => (r.testId, r.path) = (testId, path)) =
        (updateRegressionAt committed generated ratchets testId path).toList) :
    comparison.regressions = [] ↔
      ∀ testId path, updateRegressionAt committed generated ratchets testId path = none := by
  constructor
  · intro hnil testId path
    have := h testId path
    rw [hnil, List.filter_nil] at this
    exact Option.toList_eq_nil_iff.1 this.symm
  · intro hall
    refine List.eq_nil_iff_forall_not_mem.2 fun r hr => ?_
    have hmem : r ∈ comparison.regressions.filter fun s => (s.testId, s.path) = (r.testId, r.path) :=
      List.mem_filter.2 ⟨hr, by simp⟩
    rw [h, hall] at hmem
    simp at hmem

/-- Every update is decided. -/
theorem decideLintRatchetUpdate_total (committed generated : LintRatchetBaseline N)
    (ratchets : List (LintRatchetConfig N)) (options : LintRatchetUpdateOptions N) :
    ∃ decision, decideLintRatchetUpdate committed generated ratchets options = some decision := by
  obtain ⟨comparison, hc, -⟩ := updateComparison_regressions committed generated ratchets
    options.workflowVocabulary
  exact ⟨_, by rw [decideLintRatchetUpdate, hc]; rfl⟩

section Decision
variable {options : LintRatchetUpdateOptions N} {decision : LintRatchetUpdateDecision N}

theorem decision_regressions
    (h : decideLintRatchetUpdate committed generated ratchets options = some decision)
    (testId path : JsString) :
    (decision.regressions.filter fun r => (r.testId, r.path) = (testId, path)) =
      (updateRegressionAt committed generated ratchets testId path).toList := by
  obtain ⟨comparison, hc, hr⟩ := updateComparison_regressions committed generated ratchets
    options.workflowVocabulary
  rw [decideLintRatchetUpdate, hc, Option.map_some, Option.some.injEq] at h
  subst h
  exact hr testId path

theorem decision_regressions_nil
    (h : decideLintRatchetUpdate committed generated ratchets options = some decision) :
    decision.regressions = [] ↔
      ∀ testId path, updateRegressionAt committed generated ratchets testId path = none := by
  obtain ⟨comparison, hc, hr⟩ := updateComparison_regressions committed generated ratchets
    options.workflowVocabulary
  rw [decideLintRatchetUpdate, hc, Option.map_some, Option.some.injEq] at h
  subst h
  exact updateComparison_regressions_nil hr

omit [Host] in
theorem regressionFailure_none {comparison : LintRatchetComparison N} :
    regressionFailure comparison options = none ↔
      options.allowWorse = true ∨ comparison.regressions = [] := by
  simp [regressionFailure, Classical.or_iff_not_imp_left]

omit [Host] in
theorem coverageShrinkFailure_none {shrinks : List LintRatchetCoverageShrink} :
    coverageShrinkFailure shrinks options = none ↔ options.allowWorse = true ∨ shrinks = [] := by
  simp [coverageShrinkFailure, Classical.or_iff_not_imp_left]

omit [Host] in
theorem orphanFailure_none {orphans : List LintRatchetOrphanRemoval} :
    (if options.allowWorse then none else formatOrphanFailure N orphans) = none ↔
      options.allowWorse = true ∨ orphans = [] := by
  simp [formatOrphanFailure, Classical.or_iff_not_imp_left]

/-- An update is allowed when none of the six gates objects. -/
theorem decision_allowed
    (h : decideLintRatchetUpdate committed generated ratchets options = some decision) :
    decision.allowed = true ↔
      (options.allowWorse = true ∨ decision.regressions = []) ∧
      (options.allowWorse = true ∨ collectCoverageShrinkDiffs committed generated = []) ∧
      metricMigrationFailure (collectMetricMigrations committed generated) options = none ∧
      (retireResolution committed ratchets options).failure = none ∧
      (options.allowWorse = true ∨ accountableOrphans (collectOrphanRemovals committed ratchets)
        (retireResolution committed ratchets options).retiredRatchetId = []) ∧
      reasonFailure options = none := by
  obtain ⟨comparison, hc, -⟩ := updateComparison_regressions committed generated ratchets
    options.workflowVocabulary
  rw [decideLintRatchetUpdate, hc, Option.map_some, Option.some.injEq] at h
  subst h
  have hshrinks : collectCoverageShrinks committed generated = [] ↔
      collectCoverageShrinkDiffs committed generated = [] := by simp [collectCoverageShrinks]
  rw [← hshrinks, decide_eq_true_eq, collectUpdateGate, List.filterMap_eq_nil_iff]
  simp only [List.forall_mem_cons, id, regressionFailure_none, coverageShrinkFailure_none,
    orphanFailure_none, List.not_mem_nil, false_imp_iff, implies_true, and_true]

end Decision

/-! ## One path of a ratchet that both baselines have -/

/-- A ratchet of both baselines: the committed test has only paths with findings, and the
generated test is as the registry has it. -/
structure SharedTest (committed generated : LintRatchetBaseline N)
    (ratchets : List (LintRatchetConfig N)) (testId : JsString)
    (b g : LintRatchetBaselineTest N) : Prop where
  committed : committed.tests.own testId = some b
  generated : generated.tests.own testId = some g
  registered : ∃ ratchet, (registryById ratchets).get testId = some ratchet ∧
    ratchet.ruleId = g.ruleId ∧ ratchet.metric = g.metric
  positive : ∀ path item, b.items.own path = some item → 0 < item.count

omit [JsNumber N] [Host] in
theorem registryById_get {testId : JsString} (h : testId ∈ ratchets.map (·.id)) :
    ∃ ratchet, (registryById ratchets).get testId = some ratchet := by
  cases hg : (registryById ratchets).get testId with
  | some ratchet => exact ⟨ratchet, rfl⟩
  | none =>
    rw [registryById, JsMap.get_ofList, Entries.lookup_none] at hg
    simp [Entries.keys] at hg
    obtain ⟨ratchet, hr, rfl⟩ := List.mem_map.1 h
    exact absurd rfl (hg ratchet hr)

theorem SharedTest.of_builtFrom {workflowVocabulary : LintRatchetWorkflowVocabulary}
    (hc : Accepted workflowVocabulary committed) (hg : BuiltFrom ratchets generated)
    (h1 : committed.tests.own testId = some b) (h2 : generated.tests.own testId = some g) :
    SharedTest committed generated ratchets testId b g where
  committed := h1
  generated := h2
  registered := by
    obtain ⟨ratchet, hr⟩ := registryById_get ((hg.ids testId).1 (Record.mem_keys.2 ⟨g, h2⟩))
    obtain ⟨hmem, rfl⟩ := registryById_id hr
    obtain ⟨h3, h4⟩ := hg.agrees ratchet hmem g h2
    exact ⟨ratchet, hr, h3.symm, h4.symm⟩
  positive _ _ hi := hc.count_pos h1 hi

/-- The items of a path as both validations leave them. -/
structure PathValid (b g : LintRatchetBaselineTest N) (path : JsString)
    (item : LintRatchetMetricItem) : Prop where
  valid : ItemValid g.metric item
  positive : 0 < item.count
  previous : ∀ previous, b.items.own path = some previous →
    ItemValid b.metric previous ∧ 0 < previous.count

theorem PathValid.of_accepted {testId path : JsString} {b g : LintRatchetBaselineTest N}
    {item : LintRatchetMetricItem} {w w' : LintRatchetWorkflowVocabulary}
    (hc : Accepted w committed) (hg : Accepted w' generated)
    (hcv : ItemsValid committed) (hgv : ItemsValid generated)
    (hb : committed.tests.own testId = some b) (hgt : generated.tests.own testId = some g)
    (hi : g.items.own path = some item) : PathValid b g path item where
  valid := hgv testId g hgt path item hi
  positive := hg.count_pos hgt hi
  previous p hp := ⟨hcv testId b hb path p hp, hc.count_pos hb hp⟩

/-- Only ratchets that both baselines have are reported on. -/
theorem updateRegressionAt_shared {testId path : JsString} (hfrom : BuiltFrom ratchets generated)
    (h : updateRegressionAt committed generated ratchets testId path ≠ none) :
    ∃ b g, committed.tests.own testId = some b ∧ generated.tests.own testId = some g := by
  obtain ⟨r, hr⟩ := Option.ne_none_iff_exists'.1 h
  rw [updateRegressionAt, Option.filter_eq_some_iff] at hr
  have hr := hr.1
  unfold comparisonAt at hr
  split at hr
  · next ratchet b hratchet hb =>
    obtain ⟨hmem, rfl⟩ := registryById_id hratchet
    obtain ⟨g, hg⟩ := Record.mem_keys.1 ((hfrom.ids ratchet.id).2 (List.mem_map_of_mem hmem))
    exact ⟨b, g, hb, hg⟩
  · cases hr

/-- A report on counts alone, from the count of the committed item. -/
structure ReportsCountAt (ruleId : JsString) (previous current : Nat)
    (report : Option (LintRatchetRegression N)) : Prop where
  kept : current ≤ previous → report = none
  worse : previous < current → ∃ r, report = some r ∧ r.ruleId = ruleId ∧
    r.baselineCount = previous ∧ r.currentCount = current ∧
      r.reason = if previous = 0 then .newPath else .increasedCount

def floorCount (item : Option LintRatchetMetricItem) : Nat := (item.map (·.count)).getD 0

section SharedTest
variable {testId path : JsString} {b g : LintRatchetBaselineTest N} {item : LintRatchetMetricItem}

theorem SharedTest.comparisonAt (h : SharedTest committed generated ratchets testId b g) :
    ∃ ratchet : LintRatchetConfig N, ratchet.ruleId = g.ruleId ∧ ∀ path,
      comparisonAt committed ratchets (currentByIdFromBaseline generated) testId path =
        match g.items.own path with
        | some item => compareItem g.metric { ratchet, path, baselineItem := b.items.own path,
                                              current := currentItemOf N item }
        | none => { improvement := (b.items.own path).map (removedPathImprovement ratchet path) } := by
  obtain ⟨ratchet, hr, hid, hm⟩ := h.registered
  refine ⟨ratchet, hid, fun path => ?_⟩
  have hpos : (b.items.own path).filter (fun item => item.count > 0) = b.items.own path := by
    cases hb : b.items.own path with
    | none => rfl
    | some item => simp [Option.filter, h.positive path item hb]
  simp only [LintRatchet.comparisonAt, hr, h.committed, hpos, get_currentByIdFromBaseline,
    h.generated, Option.bind_some, hm]
  cases g.items.own path <;> rfl

theorem SharedTest.removed (h : SharedTest committed generated ratchets testId b g)
    (hi : g.items.own path = none) :
    updateRegressionAt committed generated ratchets testId path = none := by
  obtain ⟨ratchet, -, hat⟩ := h.comparisonAt
  rw [updateRegressionAt, hat, hi]
  rfl

omit [JsNumber N] [Host] in
theorem SharedTest.migrated (h : SharedTest committed generated ratchets testId b g) :
    testId ∈ (collectMetricMigrations committed generated).map (·.ratchetId) ↔
      b.metric ≠ g.metric := by
  rw [mem_migratedIds, h.committed, h.generated]
  simp

omit [JsNumber N] [Host] in
theorem ReportsCount.at {context : MetricItemComparisonContext N}
    {report : Option (LintRatchetRegression N)} (hr : ReportsCount context report)
    (hid : context.ratchet.ruleId = ruleId) :
    ReportsCountAt ruleId context.baselineCount context.current.count report where
  kept hle := hr.kept hle
  worse hlt := by
    obtain ⟨r, rfl, hfor, hreason⟩ := hr.worse hlt
    exact ⟨r, rfl, hfor.ruleId.trans hid, hfor.baselineCount, hfor.currentCount, hreason⟩

omit [JsNumber N] [Host] in
/-- Reports on counts survive a metric change. -/
theorem ReportsCountAt.filter {report : Option (LintRatchetRegression N)}
    {keep : LintRatchetRegression N → Bool}
    (hr : ReportsCountAt ruleId previous current report)
    (hkeep : ∀ r, r.reason ∈ countComparableRegressionReasons → keep r = true) :
    ReportsCountAt ruleId previous current (report.filter keep) where
  kept hle := by rw [hr.kept hle]; rfl
  worse hlt := by
    obtain ⟨r, rfl, hid, hb, hc, hreason⟩ := hr.worse hlt
    have hk : keep r = true := by
      refine hkeep r ?_
      rw [hreason]
      split <;> simp [countComparableRegressionReasons]
    exact ⟨r, by simp [Option.filter, hk], hid, hb, hc, hreason⟩

/-- Where the metrics have no axis in common only the counts are compared. -/
theorem SharedTest.count (h : SharedTest committed generated ratchets testId b g)
    (hi : g.items.own path = some item)
    (hl : g.metric = .effectiveLineCount → (b.items.own path).bind (·.lines) = none)
    (hf : g.metric = .complexitySeverity → (b.items.own path).bind (·.perFunction) = none) :
    ReportsCountAt g.ruleId (floorCount (b.items.own path)) item.count
      (updateRegressionAt committed generated ratchets testId path) := by
  obtain ⟨ratchet, hid, hat⟩ := h.comparisonAt
  rw [updateRegressionAt, hat, hi]
  have hr := compareItem_reportsCount
    { ratchet, path, baselineItem := b.items.own path, current := currentItemOf N item } hl hf
  exact (hr.at hid).filter fun r hr => by simp [hr]

/-- A shared path on the axis of line counts. -/
theorem SharedTest.lines (h : SharedTest committed generated ratchets testId b g)
    (hm : b.metric = g.metric) (hlines : g.metric = .effectiveLineCount)
    {previous : LintRatchetMetricItem} (hb : b.items.own path = some previous)
    (hi : g.items.own path = some item) {lb lg : ℕ∞} (hlb : previous.lines = some lb)
    (hlg : item.lines = some lg) :
    (lb < lg → ∃ r, updateRegressionAt committed generated ratchets testId path = some r ∧
      r.ruleId = g.ruleId ∧ r.currentCount = item.count ∧ r.reason = .increasedLines ∧
        r.baselineLines = some lb ∧ r.currentLines = some lg) ∧
    (lg ≤ lb → ReportsCountAt g.ruleId previous.count item.count
      (updateRegressionAt committed generated ratchets testId path)) := by
  obtain ⟨ratchet, hid, hat⟩ := h.comparisonAt
  have hkeep : testId ∉ (collectMetricMigrations committed generated).map (·.ratchetId) :=
    fun hm' => h.migrated.1 hm' hm
  set context : MetricItemComparisonContext N :=
    { ratchet, path, baselineItem := b.items.own path, current := currentItemOf N item }
  have hbl : context.baselineItem.bind (·.lines) = some lb := by simp [context, hb, hlb]
  have hreport : updateRegressionAt committed generated ratchets testId path =
      (compareEffectiveLineCountItem context).regression := by
    rw [updateRegressionAt, hat, hi]
    simp only [hkeep, not_false_eq_true, decide_true, Bool.true_or, hlines, compareItem]
    cases (compareEffectiveLineCountItem context).regression <;> rfl
  rw [hreport]
  refine ⟨fun hlt => ?_, fun hle => ?_⟩
  · obtain ⟨r, hr, hfor, h1, h2, h3⟩ := compareEffectiveLineCountItem_lines hbl hlg hlt
    exact ⟨r, hr, hfor.ruleId.trans hid, hfor.currentCount, h1, h2, h3⟩
  · rw [compareEffectiveLineCountItem_count fun x y hx hy => by
      rw [hbl, Option.some.injEq] at hx
      rw [show context.current.lines = some lg from hlg, Option.some.injEq] at hy
      rwa [← hx, ← hy]]
    have hcount : context.baselineCount = previous.count := by
      simp [context, hb, MetricItemComparisonContext.baselineCount]
    rw [← hcount]
    exact (reportsCount context _ _).at hid

/-- A shared path on the axis of complexity. -/
theorem SharedTest.complexity (h : SharedTest committed generated ratchets testId b g)
    (hm : b.metric = g.metric) (hmetric : g.metric = .complexitySeverity)
    {previous : LintRatchetMetricItem} (hb : b.items.own path = some previous)
    (hi : g.items.own path = some item) {bs gs : ComplexityFunctions}
    (hbs : previous.perFunction = some bs) (hgs : item.perFunction = some gs) :
    (∀ f, gs.find? (exactRise bs) = some f → ∃ r,
      updateRegressionAt committed generated ratchets testId path = some r ∧
      r.ruleId = g.ruleId ∧ r.currentCount = item.count ∧ r.reason = .increasedComplexity ∧
        r.baselineComplexity = some ((worstOf bs (complexityIdentity f)).getD 0) ∧
          r.currentComplexity = some f.complexity) ∧
    (gs.find? (exactRise bs) = none → RankRise bs gs → ∃ r,
      updateRegressionAt committed generated ratchets testId path = some r ∧
      r.ruleId = g.ruleId ∧ r.currentCount = item.count ∧ r.reason = .increasedComplexity ∧
        ∀ m n, maxComplexityFor (some bs) = some m → maxComplexityFor (some gs) = some n → m < n →
          r.baselineComplexity = some m ∧ r.currentComplexity = some n) ∧
    (gs.find? (exactRise bs) = none → ¬ RankRise bs gs →
      ReportsCountAt g.ruleId previous.count item.count
        (updateRegressionAt committed generated ratchets testId path)) := by
  obtain ⟨ratchet, hid, hat⟩ := h.comparisonAt
  have hkeep : testId ∉ (collectMetricMigrations committed generated).map (·.ratchetId) :=
    fun hm' => h.migrated.1 hm' hm
  set context : MetricItemComparisonContext N :=
    { ratchet, path, baselineItem := b.items.own path, current := currentItemOf N item }
  have hbase : context.baselineItem = some previous := hb
  have hreport : updateRegressionAt committed generated ratchets testId path =
      (compareComplexitySeverityItem context).regression := by
    rw [updateRegressionAt, hat, hi]
    simp only [hkeep, not_false_eq_true, decide_true, Bool.true_or, hmetric, compareItem]
    cases (compareComplexitySeverityItem context).regression <;> rfl
  rw [hreport]
  refine ⟨fun f hf => ?_, fun hf hr => ?_, fun hf hr => ?_⟩
  · obtain ⟨r, hr, hfor, h1, h2, h3⟩ := compareComplexitySeverityItem_delta
      (by rw [hbase]; exact complexityDelta_exact hbs hgs hf) rfl
    exact ⟨r, hr, hfor.ruleId.trans hid, hfor.currentCount, h1, h2, h3⟩
  · obtain ⟨d, hd, hreg, hmax⟩ := complexityDelta_rank hbs hgs hf hr
    obtain ⟨r, hr, hfor, h1, h2, h3⟩ := compareComplexitySeverityItem_delta
      (by rw [hbase]; exact hd) hreg
    refine ⟨r, hr, hfor.ruleId.trans hid, hfor.currentCount, h1, fun m n hm hn hlt => ?_⟩
    rw [h2, h3, (hmax m n hm hn hlt).1, (hmax m n hm hn hlt).2]
    exact ⟨rfl, rfl⟩
  · obtain ⟨new, old, he⟩ := compareComplexitySeverityItem_count fun d hd => by
      rw [hbase] at hd
      exact complexityDelta_none hbs hgs hf hr hd
    have hcount : context.baselineCount = previous.count := by
      simp [context, hb, MetricItemComparisonContext.baselineCount]
    rw [he, ← hcount]
    exact (reportsCount context new old).at hid

end SharedTest

end Musi.LintRatchet
