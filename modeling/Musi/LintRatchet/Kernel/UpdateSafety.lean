import Musi.LintRatchet.Kernel.OneRatchet
import Musi.LintRatchet.Kernel.PosixHost
import Musi.LintRatchet.Kernel.UpdateFacts

namespace Musi.LintRatchet
open Musi.Js
set_option autoImplicit true

section Safety
variable {N : Type} [JsNumber N] [Host] {committed generated : LintRatchetBaseline N}
  {ratchets : List (LintRatchetConfig N)} {testId path : JsString}
  {b g : LintRatchetBaselineTest N}

/-! ## What an update reports of a path -/

def LinesRise (previous item : LintRatchetMetricItem) : Prop :=
  ∃ lb lg, previous.lines = some lb ∧ item.lines = some lg ∧ lb < lg

/-- Some function got worse, by its identity or by its rank. -/
def ComplexityRise (previous item : LintRatchetMetricItem) : Prop :=
  ∃ bs gs, previous.perFunction = some bs ∧ item.perFunction = some gs ∧
    ((∃ f ∈ gs, exactRise bs f = true) ∨ RankRise bs gs)

/-- A path got worse in its count, or on the axis of an unchanged metric. -/
inductive PathWorse (b g : LintRatchetBaselineTest N) (path : JsString) : Prop
  | count (h : floorCount (b.items.own path) < floorCount (g.items.own path))
  | axis {previous item : LintRatchetMetricItem} (hm : b.metric = g.metric)
      (hb : b.items.own path = some previous) (hi : g.items.own path = some item)
      (h : LinesRise previous item ∨ ComplexityRise previous item)

omit [JsNumber N] [Host] in
theorem ReportsCountAt.none_iff {report : Option (LintRatchetRegression N)}
    (h : ReportsCountAt ruleId previous current report) : report = none ↔ current ≤ previous := by
  refine ⟨fun hr => ?_, h.kept⟩
  by_contra hlt
  obtain ⟨r, hsome, -⟩ := h.worse (not_le.1 hlt)
  simp [hr] at hsome

omit [JsNumber N] [Host] in
/-- Off the axes only the count can get worse. -/
theorem pathWorse_count {previous item : LintRatchetMetricItem}
    (hb : b.items.own path = some previous) (hi : g.items.own path = some item)
    (h : b.metric = g.metric → ¬ LinesRise previous item ∧ ¬ ComplexityRise previous item) :
    PathWorse b g path ↔ previous.count < item.count := by
  constructor
  · rintro (h' | @⟨p, i, hm, hb', hi', h'⟩)
    · simpa [hb, hi, floorCount] using h'
    · rw [hb, Option.some.injEq] at hb'
      rw [hi, Option.some.injEq] at hi'
      subst hb' hi'
      exact h'.elim (absurd · (h hm).1) (absurd · (h hm).2)
  · intro h'
    exact .count (by simpa [hb, hi, floorCount] using h')

theorem SharedTest.regression_lines (h : SharedTest committed generated ratchets testId b g)
    (hm : b.metric = g.metric) (hmetric : g.metric = .effectiveLineCount)
    {previous item : LintRatchetMetricItem} (hb : b.items.own path = some previous)
    (hi : g.items.own path = some item) (hv : PathValid b g path item) :
    updateRegressionAt committed generated ratchets testId path = none ↔ ¬ PathWorse b g path := by
  have hpv := (hv.previous previous hb).1
  have hiv := hv.valid
  rw [hm, hmetric, itemValid_effectiveLineCount] at hpv
  rw [hmetric, itemValid_effectiveLineCount] at hiv
  obtain ⟨lb, hlb⟩ := Option.isSome_iff_exists.1 hpv.1
  obtain ⟨lg, hlg⟩ := Option.isSome_iff_exists.1 hiv.1
  obtain ⟨hworse, hkept⟩ := h.lines hm hmetric hb hi hlb hlg
  by_cases hle : lg ≤ lb
  · have hno : ¬ LinesRise previous item := by
      rintro ⟨x, y, hx, hy, hlt⟩
      rw [hlb, Option.some.injEq] at hx
      rw [hlg, Option.some.injEq] at hy
      exact absurd hlt (by rw [← hx, ← hy]; exact not_lt.2 hle)
    rw [(hkept hle).none_iff, pathWorse_count hb hi fun _ => ⟨hno, ?_⟩, not_lt]
    rintro ⟨bs, gs, hbs, -⟩
    simp [hpv.2.2.1] at hbs
  · obtain ⟨r, hr, -⟩ := hworse (not_le.1 hle)
    simp only [hr, reduceCtorEq, false_iff, not_not]
    exact .axis hm hb hi (.inl ⟨lb, lg, hlb, hlg, not_le.1 hle⟩)

theorem SharedTest.regression_complexity (h : SharedTest committed generated ratchets testId b g)
    (hm : b.metric = g.metric) (hmetric : g.metric = .complexitySeverity)
    {previous item : LintRatchetMetricItem} (hb : b.items.own path = some previous)
    (hi : g.items.own path = some item) (hv : PathValid b g path item) :
    updateRegressionAt committed generated ratchets testId path = none ↔ ¬ PathWorse b g path := by
  obtain ⟨hpv, hpos⟩ := hv.previous previous hb
  have hiv := hv.valid
  rw [hm, hmetric] at hpv
  rw [hmetric] at hiv
  obtain ⟨bs, m, hbs, -, -, -, hl, -⟩ := hpv.complexity hpos
  obtain ⟨gs, n, hgs, -⟩ := hiv.complexity hv.positive
  obtain ⟨hexact, hrank, hkept⟩ := h.complexity hm hmetric hb hi hbs hgs
  cases hf : gs.find? (exactRise bs) with
  | some f =>
    obtain ⟨r, hr, -⟩ := hexact f hf
    simp only [hr, reduceCtorEq, false_iff, not_not]
    exact .axis hm hb hi (.inr ⟨bs, gs, hbs, hgs,
      .inl ⟨f, List.mem_of_find?_eq_some hf, List.find?_some hf⟩⟩)
  | none =>
    by_cases hrise : RankRise bs gs
    · obtain ⟨r, hr, -⟩ := hrank hf hrise
      simp only [hr, reduceCtorEq, false_iff, not_not]
      exact .axis hm hb hi (.inr ⟨bs, gs, hbs, hgs, .inr hrise⟩)
    · rw [(hkept hf hrise).none_iff, pathWorse_count hb hi fun _ => ⟨?_, ?_⟩, not_lt]
      · rintro ⟨x, y, hx, -⟩
        simp [hl] at hx
      · rintro ⟨bs', gs', hbs', hgs', h'⟩
        rw [hbs, Option.some.injEq] at hbs'
        rw [hgs, Option.some.injEq] at hgs'
        subst hbs' hgs'
        rcases h' with ⟨f, hmem, hf'⟩ | h'
        · exact absurd hf' (List.find?_eq_none.1 hf f hmem)
        · exact hrise h'

/-- An update reports a path of a shared ratchet exactly when it got worse. -/
theorem SharedTest.regression_iff (h : SharedTest committed generated ratchets testId b g)
    (hv : ∀ item, g.items.own path = some item → PathValid b g path item) :
    updateRegressionAt committed generated ratchets testId path = none ↔ ¬ PathWorse b g path := by
  cases hi : g.items.own path with
  | none =>
    refine iff_of_true (h.removed hi) ?_
    rintro (h' | ⟨-, -, hi', -⟩)
    · simp [hi, floorCount] at h'
    · simp [hi] at hi'
  | some item =>
    have hv := hv item hi
    cases hb : b.items.own path with
    | none =>
      have hcount := h.count hi (by simp [hb]) (by simp [hb])
      rw [hb] at hcount
      refine iff_of_false (fun hr => ?_) fun hno => hno (.count ?_)
      · exact absurd (hcount.none_iff.1 hr) (not_le.2 hv.positive)
      · simpa [hb, hi, floorCount] using hv.positive
    | some previous =>
      obtain ⟨hpv, -⟩ := hv.previous previous hb
      have hcount (hl : g.metric = .effectiveLineCount → previous.lines = none)
          (hf : g.metric = .complexitySeverity → previous.perFunction = none)
          (ho : b.metric = g.metric → ¬ LinesRise previous item ∧ ¬ ComplexityRise previous item) :
          updateRegressionAt committed generated ratchets testId path = none ↔
            ¬ PathWorse b g path := by
        have hcount := h.count hi (by simpa [hb] using hl) (by simpa [hb] using hf)
        rw [hb] at hcount
        rw [hcount.none_iff, pathWorse_count hb hi ho, not_lt]
        rfl
      by_cases hm : b.metric = g.metric
      · cases hmetric : g.metric with
        | messageCount =>
          rw [hm, hmetric, itemValid_messageCount] at hpv
          refine hcount (by simp [hmetric]) (by simp [hmetric]) fun _ => ⟨?_, ?_⟩
          · rintro ⟨x, y, hx, -⟩
            simp [hpv.1] at hx
          · rintro ⟨bs, gs, hbs, -⟩
            simp [hpv.2.2] at hbs
        | effectiveLineCount => exact h.regression_lines hm hmetric hb hi hv
        | complexitySeverity => exact h.regression_complexity hm hmetric hb hi hv
      · exact hcount (fun he => hpv.lines_none fun he' => hm (he'.trans he.symm))
          (fun he => hpv.perFunction_none fun he' => hm (he'.trans he.symm)) fun he => absurd he hm

/-! ## Orphans -/

omit [JsNumber N] [Host] in
theorem mem_collectOrphanRemovals {o : LintRatchetOrphanRemoval} :
    o ∈ collectOrphanRemovals committed ratchets ↔ o.testId ∉ ratchets.map (·.id) ∧
      ∃ test, committed.tests.own o.testId = some test ∧
        o = { testId := o.testId, ruleId := test.ruleId, metric := test.metric,
              baselineItems := orphanBaselineItems test } := by
  simp only [collectOrphanRemovals, List.mem_filterMap, sortStrings, mem_sortBy]
  constructor
  · rintro ⟨testId, -, h⟩
    split at h
    · cases h
    · next hid =>
      obtain ⟨test, ht, rfl⟩ := Option.map_eq_some_iff.1 h
      exact ⟨hid, test, ht, rfl⟩
  · rintro ⟨hid, test, ht, he⟩
    exact ⟨o.testId, Record.mem_keys.2 ⟨test, ht⟩, by rw [if_neg hid, ht, Option.map_some, ← he]⟩

omit [Host] in
theorem orphanFindingTotal_zero {o : LintRatchetOrphanRemoval} (h : orphanFindingTotal o = 0) :
    ∀ item ∈ o.baselineItems, item.count = 0 := by
  have hsum : orphanFindingTotal o = (o.baselineItems.map (·.count)).sum := by
    rw [orphanFindingTotal, List.sum_eq_foldl, List.foldl_map]
  rw [hsum] at h
  intro item hi
  exact List.sum_eq_zero_iff_forall_eq_nat.1 h _ (List.mem_map_of_mem hi)

omit [Host] in
/-- A retirement is proven of an orphan without findings. -/
theorem retireResolution_some {options : LintRatchetUpdateOptions N}
    (h : (retireResolution committed ratchets options).retiredRatchetId = some testId) :
    ∃ retire o, options.retire = some retire ∧ retire.id = testId ∧ retire.normalErrorProven = true ∧
      o ∈ collectOrphanRemovals committed ratchets ∧ o.testId = testId ∧
        orphanFindingTotal o = 0 := by
  unfold retireResolution at h
  split at h
  · cases h
  · next retire hretire =>
    unfold resolveRetire at h
    split at h
    · cases h
    · next o ho =>
      split at h
      · cases h
      · next hzero =>
        split at h
        · cases h
        · next hproven =>
          cases h
          have hid := List.find?_some ho
          exact ⟨retire, o, hretire, rfl, by simpa using hproven, List.mem_of_find?_eq_some ho,
            by simpa using hid, by omega⟩

theorem decision_retired {options : LintRatchetUpdateOptions N}
    {decision : LintRatchetUpdateDecision N}
    (h : decideLintRatchetUpdate committed generated ratchets options = some decision)
    (ha : decision.allowed = true) :
    decision.retiredRatchetId = (retireResolution committed ratchets options).retiredRatchetId := by
  obtain ⟨comparison, hc, -⟩ := updateComparison_regressions committed generated ratchets
    options.workflowVocabulary
  rw [decideLintRatchetUpdate, hc, Option.map_some, Option.some.injEq] at h
  subst h
  simp only [decide_eq_true_eq] at ha
  simp [ha]

theorem decision_metricMigrations {options : LintRatchetUpdateOptions N}
    {decision : LintRatchetUpdateDecision N}
    (h : decideLintRatchetUpdate committed generated ratchets options = some decision) :
    decision.metricMigrations = collectMetricMigrations committed generated := by
  obtain ⟨comparison, -, rfl⟩ := Option.map_eq_some_iff.1 h
  rfl

theorem decision_orphanRemovals {options : LintRatchetUpdateOptions N}
    {decision : LintRatchetUpdateDecision N}
    (h : decideLintRatchetUpdate committed generated ratchets options = some decision) :
    decision.orphanRemovals = accountableOrphans (collectOrphanRemovals committed ratchets)
      (retireResolution committed ratchets options).retiredRatchetId := by
  obtain ⟨comparison, -, rfl⟩ := Option.map_eq_some_iff.1 h
  rfl

theorem decision_coverageShrinks {options : LintRatchetUpdateOptions N}
    {decision : LintRatchetUpdateDecision N}
    (h : decideLintRatchetUpdate committed generated ratchets options = some decision) :
    decision.coverageShrinks = collectCoverageShrinks committed generated := by
  obtain ⟨comparison, -, rfl⟩ := Option.map_eq_some_iff.1 h
  rfl

/-! ## What an update without accepted debt keeps -/

/-- Counts, lines and ranked complexities of a path do not rise. -/
structure PathKept (b g : LintRatchetBaselineTest N) (path : JsString) : Prop where
  count : floorCount (g.items.own path) ≤ floorCount (b.items.own path)
  lines : b.metric = g.metric → ∀ previous item lb lg, b.items.own path = some previous →
    g.items.own path = some item → previous.lines = some lb → item.lines = some lg → lg ≤ lb
  ranks : b.metric = g.metric → g.metric = .complexitySeverity → ∀ previous item bs gs,
    b.items.own path = some previous → g.items.own path = some item →
      previous.perFunction = some bs → item.perFunction = some gs →
        ∀ rank, rankedComplexity gs rank ≤ rankedComplexity bs rank

/-- The globs of a ratchet changed. -/
def GlobsChanged (b g : LintRatchetBaselineTest N) : Prop :=
  b.files ≠ g.files ∨ b.ignores ≠ g.ignores

/-- Nothing got worse without being accepted. -/
structure NothingWorse (committed generated : LintRatchetBaseline N)
    (ratchets : List (LintRatchetConfig N)) (options : LintRatchetUpdateOptions N)
    (decision : LintRatchetUpdateDecision N) : Prop where
  ids : ∀ testId b, committed.tests.own testId = some b → testId ∈ ratchets.map (·.id) ∨
    decision.retiredRatchetId = some testId ∧ b.items.keys = [] ∧
      ∃ retire, options.retire = some retire ∧ retire.id = testId ∧ retire.normalErrorProven = true
  metrics : ∀ testId b g, committed.tests.own testId = some b →
    generated.tests.own testId = some g → b.metric ≠ g.metric →
      ∃ m ∈ decision.metricMigrations, m.ratchetId = testId ∧ m.fromMetric = b.metric ∧
        m.toMetric = g.metric
  paths : ∀ testId b g, committed.tests.own testId = some b → generated.tests.own testId = some g →
    ∀ path, PathKept b g path
  coverage : ∀ testId b g, committed.tests.own testId = some b →
    generated.tests.own testId = some g → GlobsChanged b g → ∀ path ∈ b.items.keys,
      g.items.own path = none → matchesRatchet g.toLintRatchetBaselineGroupMeta path = true

/-- Dropped paths that are named like a member of Object.prototype stay in scope. -/
def InheritedInScope (committed generated : LintRatchetBaseline N) : Prop :=
  ∀ testId b g, committed.tests.own testId = some b → generated.tests.own testId = some g →
    GlobsChanged b g → ∀ path ∈ inheritedNames, path ∈ b.items.keys → g.items.own path = none →
      matchesRatchet g.toLintRatchetBaselineGroupMeta path = true

omit [JsNumber N] [Host] in
/-- A ranked complexity past the shorter profile cannot rise when the count does not. -/
theorem rankedComplexity_le {bs gs : ComplexityFunctions} (hlen : gs.length ≤ bs.length)
    (h : ¬ RankRise bs gs) (rank : Nat) : rankedComplexity gs rank ≤ rankedComplexity bs rank := by
  by_contra hlt
  rw [not_le] at hlt
  by_cases hr : rank < gs.length
  · exact h ⟨rank, lt_min (hr.trans_le hlen) hr, hlt⟩
  · have hnone : (descending gs)[rank]? = none := List.getElem?_eq_none (by simpa using hr)
    have hzero : rankedComplexity gs rank = 0 := by
      rw [rankedComplexity, List.getD_eq_getElem?_getD, hnone, Option.getD_none]
    omega

omit [JsNumber N] [Host] in
theorem PathKept.of_not_worse (hv : ∀ item, g.items.own path = some item → PathValid b g path item)
    (h : ¬ PathWorse b g path) : PathKept b g path where
  count := not_lt.1 fun hlt => h (.count hlt)
  lines hm previous item lb lg hb hi hlb hlg :=
    not_lt.1 fun hlt => h (.axis hm hb hi (.inl ⟨lb, lg, hlb, hlg, hlt⟩))
  ranks hm hmetric previous item bs gs hb hi hbs hgs := by
    have hv := hv item hi
    obtain ⟨hpv, hpos⟩ := hv.previous previous hb
    have hiv := hv.valid
    rw [hm, hmetric] at hpv
    rw [hmetric] at hiv
    obtain ⟨bs', -, hbs', -, -, hblen, -⟩ := hpv.complexity hpos
    obtain ⟨gs', -, hgs', -, -, hglen, -⟩ := hiv.complexity hv.positive
    rw [hbs, Option.some.injEq] at hbs'
    rw [hgs, Option.some.injEq] at hgs'
    subst hbs' hgs'
    have hcount : item.count ≤ previous.count := by
      have := not_lt.1 fun hlt => h (.count hlt)
      simpa [hb, hi, floorCount] using this
    exact rankedComplexity_le (by omega) fun hr =>
      h (.axis hm hb hi (.inr ⟨bs, gs, hbs, hgs, .inr hr⟩))

/-- An orphan without findings has no items. -/
theorem Accepted.orphan_empty {w : LintRatchetWorkflowVocabulary} {o : LintRatchetOrphanRemoval}
    (hc : Accepted w committed) (hb : committed.tests.own testId = some b)
    (ho : o ∈ collectOrphanRemovals committed ratchets) (hid : o.testId = testId)
    (hzero : orphanFindingTotal o = 0) : b.items.keys = [] := by
  obtain ⟨-, test, ht, he⟩ := mem_collectOrphanRemovals.1 ho
  rw [hid, hb, Option.some.injEq] at ht
  subst ht
  refine List.eq_nil_iff_forall_not_mem.2 fun path hp => ?_
  obtain ⟨item, hi⟩ := Record.mem_keys.1 hp
  have hitem : { item with path } ∈ o.baselineItems := by
    rw [he, orphanBaselineItems, mem_sortBy]
    exact List.mem_map.2 ⟨(path, item), Record.mem_entries.2 hi, rfl⟩
  have := orphanFindingTotal_zero hzero _ hitem
  exact absurd this (hc.count_pos hb hi).ne'

/-- Without accepted debt the only orphan that passes is the proven one. -/
theorem ids_of_allowed {options : LintRatchetUpdateOptions N}
    {decision : LintRatchetUpdateDecision N} {w : LintRatchetWorkflowVocabulary}
    (hc : Accepted w committed)
    (hd : decideLintRatchetUpdate committed generated ratchets options = some decision)
    (ha : decision.allowed = true) (hworse : options.allowWorse = false)
    (hb : committed.tests.own testId = some b) : testId ∈ ratchets.map (·.id) ∨
      decision.retiredRatchetId = some testId ∧ b.items.keys = [] ∧ ∃ retire,
        options.retire = some retire ∧ retire.id = testId ∧ retire.normalErrorProven = true := by
  refine or_iff_not_imp_left.2 fun hid => ?_
  obtain ⟨-, -, -, -, horphans, -⟩ := (decision_allowed hd).1 ha
  simp only [hworse, Bool.false_eq_true, false_or] at horphans
  set orphan : LintRatchetOrphanRemoval :=
    { testId, ruleId := b.ruleId, metric := b.metric, baselineItems := orphanBaselineItems b }
  have hmem : orphan ∈ collectOrphanRemovals committed ratchets :=
    mem_collectOrphanRemovals.2 ⟨hid, b, hb, rfl⟩
  have hretired : (retireResolution committed ratchets options).retiredRatchetId = some testId := by
    cases hr : (retireResolution committed ratchets options).retiredRatchetId with
    | none => simp [hr, accountableOrphans] at horphans; simp [horphans] at hmem
    | some id =>
      rw [hr, accountableOrphans, List.filter_eq_nil_iff] at horphans
      have := horphans orphan hmem
      simp only [ne_eq, decide_not, Bool.not_eq_true', decide_eq_false_iff_not, not_not] at this
      rw [← this]
  obtain ⟨retire, o, hretire, hrid, hproven, ho, hoid, hzero⟩ := retireResolution_some hretired
  exact ⟨(decision_retired hd ha).trans hretired, hc.orphan_empty hb ho hoid hzero, retire, hretire,
    hrid, hproven⟩

/-- An update allowed without accepted debt makes nothing worse, up to dropped paths that are named
like a member of Object.prototype: the shrink check sees a value at those. -/
theorem nothingWorse_iff {options : LintRatchetUpdateOptions N}
    {decision : LintRatchetUpdateDecision N} {w w' : LintRatchetWorkflowVocabulary}
    (hc : Accepted w committed) (hg : Accepted w' generated)
    (hcv : ItemsValid committed) (hgv : ItemsValid generated) (hfrom : BuiltFrom ratchets generated)
    (hd : decideLintRatchetUpdate committed generated ratchets options = some decision)
    (ha : decision.allowed = true) (hworse : options.allowWorse = false) :
    NothingWorse committed generated ratchets options decision ↔
      InheritedInScope committed generated := by
  constructor
  · intro h testId b g hb hgt hglobs path _ hp hi
    exact h.coverage testId b g hb hgt hglobs path hp hi
  · intro h
    obtain ⟨hregressions, hshrinks, -⟩ := (decision_allowed hd).1 ha
    simp only [hworse, Bool.false_eq_true, false_or] at hregressions hshrinks
    refine ⟨fun testId b hb => ids_of_allowed hc hd ha hworse hb, ?_, ?_, ?_⟩
    · intro testId b g hb hgt hne
      rw [decision_metricMigrations hd]
      exact ⟨_, List.mem_map_of_mem (mem_collectMetricChangeDiffs.2
        ⟨b, g, hb, hgt, hne, rfl, rfl, rfl⟩ :
          (⟨testId, g.ruleId, b.metric, g.metric⟩ : MetricChangeDiff) ∈ _), rfl, rfl, rfl⟩
    · intro testId b g hb hgt path
      have hv (item) (hi : g.items.own path = some item) : PathValid b g path item :=
        .of_accepted hc hg hcv hgv hb hgt hi
      exact .of_not_worse hv ((SharedTest.of_builtFrom hc hfrom hb hgt).regression_iff hv |>.1
        ((decision_regressions_nil hd).1 hregressions testId path))
    · intro testId b g hb hgt hglobs path hp hi
      by_cases hin : path ∈ inheritedNames
      · exact h testId b g hb hgt hglobs path hin hp hi
      · by_contra hm
        exact collectCoverageShrinkDiffs_nil.1 hshrinks testId b g hb hgt path
          ⟨hglobs, hp, Record.read_absent.2 ⟨hi, hin⟩, by simpa using hm⟩

end Safety

/-! ## A path that leaves coverage unseen -/

/-- Options that accept nothing. -/
def plainOptions : LintRatchetUpdateOptions Numeral :=
  { allowWorse := false, workflowVocabulary := plainVocabulary }

/-- The only finding is in a file called toString. -/
def toStringBaseline : LintRatchetBaseline Numeral :=
  oneBaseline .messageCount [js "toString"] [(js "toString", { count := 1 })]

/-- The globs moved on to another file. -/
def movedBaseline : LintRatchetBaseline Numeral := oneBaseline .messageCount [onePath] []

theorem toString_items : OneItems Numeral .messageCount [(js "toString", { count := 1 })] where
  nodup := by simp
  paths := by decide
  item := by
    simp only [List.mem_singleton, forall_eq]
    exact ⟨itemWellFormed_numeral (by simp) (by simp) (by simp), Nat.one_pos⟩
  valid := by
    simp only [List.mem_singleton, forall_eq]
    exact itemValid_messageCount.2 ⟨rfl, rfl, rfl⟩

theorem no_items : OneItems Numeral .messageCount [] where
  nodup := by simp
  paths := by simp
  item := by simp
  valid := by simp

/-- Moving the globs away from that file is allowed. -/
theorem moved_allowed {decision : LintRatchetUpdateDecision Numeral}
    (hd : decideLintRatchetUpdate toStringBaseline movedBaseline [oneFileRatchet .messageCount]
      plainOptions = some decision) : decision.allowed = true := by
  have hfrom : BuiltFrom [oneFileRatchet .messageCount] movedBaseline := builtFrom_one
  have hregressions : decision.regressions = [] := by
    refine (decision_regressions_nil hd).2 fun testId path => ?_
    by_contra hne
    obtain ⟨b, g, hb, hg⟩ := updateRegressionAt_shared hfrom hne
    refine hne ((SharedTest.of_builtFrom (toString_items.accepted plainVocabulary) hfrom hb
      hg).removed ?_)
    obtain ⟨-, rfl⟩ := oneTest_of_own hg
    rfl
  exact (decision_allowed hd).2
    ⟨.inr hregressions, .inr (by decide), by decide, rfl, .inr (by decide), rfl⟩

theorem nothingWorse_iff_moved : ∃ decision,
    decideLintRatchetUpdate toStringBaseline movedBaseline [oneFileRatchet .messageCount]
      plainOptions = some decision ∧
    (NothingWorse toStringBaseline movedBaseline [oneFileRatchet .messageCount] plainOptions
      decision ↔ InheritedInScope toStringBaseline movedBaseline) := by
  obtain ⟨decision, hd⟩ := decideLintRatchetUpdate_total toStringBaseline movedBaseline
    [oneFileRatchet .messageCount] plainOptions
  exact ⟨decision, hd, nothingWorse_iff (toString_items.accepted plainVocabulary)
    (no_items.accepted plainVocabulary) toString_items.itemsValid no_items.itemsValid builtFrom_one
    hd (moved_allowed hd) rfl⟩

/-- An update allowed without accepted debt that drops a path out of coverage. -/
theorem nothingWorse_fails : ∃ (committed generated : LintRatchetBaseline Numeral)
    (ratchets : List (LintRatchetConfig Numeral)) (options : LintRatchetUpdateOptions Numeral)
    (decision : LintRatchetUpdateDecision Numeral),
    Accepted plainVocabulary committed ∧ Accepted plainVocabulary generated ∧
    ItemsValid committed ∧ ItemsValid generated ∧ BuiltFrom ratchets generated ∧
    (ratchets.map (·.id)).Nodup ∧
    decideLintRatchetUpdate committed generated ratchets options = some decision ∧
    options.allowWorse = false ∧ decision.allowed = true ∧
    ¬ NothingWorse committed generated ratchets options decision := by
  obtain ⟨decision, hd⟩ := decideLintRatchetUpdate_total toStringBaseline movedBaseline
    [oneFileRatchet .messageCount] plainOptions
  refine ⟨_, _, _, _, _, toString_items.accepted plainVocabulary, no_items.accepted plainVocabulary,
    toString_items.itemsValid, no_items.itemsValid, builtFrom_one, by simp, hd, rfl,
    moved_allowed hd, fun h => ?_⟩
  have hmatch := h.coverage _ _ _ own_oneBaseline_self own_oneBaseline_self
    (.inl (show [js "toString"] ≠ [onePath] by decide)) (js "toString") (by decide) (by decide)
  revert hmatch
  decide

end Musi.LintRatchet
