import Musi.LintRatchet.Governance.AccountingFacts
import Musi.LintRatchet.Kernel.UpdateSafety

namespace Musi.LintRatchet
open Musi.Js
set_option autoImplicit true

section Strictness
variable {N : Type} {b g : LintRatchetBaselineTest N} {i : BaselineDebtIncrease}

/-! ## What the checker sees of a path -/

def MaximumRise (previous item : LintRatchetMetricItem) : Prop :=
  ∃ m n, previous.maxComplexity = some m ∧ item.maxComplexity = some n ∧ m < n

/-- A path got worse in its count, its lines or its largest complexity. -/
inductive PathVisiblyWorse (b g : LintRatchetBaselineTest N) (path : JsString) : Prop
  | count (h : floorCount (b.items.own path) < floorCount (g.items.own path))
  | axis {previous item : LintRatchetMetricItem} (hm : b.metric = g.metric)
      (hb : b.items.own path = some previous) (hi : g.items.own path = some item)
      (h : LinesRise previous item ∨ MaximumRise previous item)

/-- Below an unchanged maximum and an unchanged count some function of a path got worse. -/
structure PathHiddenWorse (b g : LintRatchetBaselineTest N) (path : JsString) : Prop where
  metric : b.metric = g.metric
  rise : ∃ previous item, b.items.own path = some previous ∧ g.items.own path = some item ∧
    ComplexityRise previous item ∧ ¬ MaximumRise previous item ∧ item.count ≤ previous.count

theorem MaximumRise.complexityRise [Host] {previous item : LintRatchetMetricItem}
    (h : MaximumRise previous item) (hp : ItemValid .complexitySeverity previous)
    (hpos : 0 < previous.count) (hi : ItemValid .complexitySeverity item) (hipos : 0 < item.count) :
    ComplexityRise previous item := by
  obtain ⟨m, n, hm, hn, hlt⟩ := h
  obtain ⟨bs, m', hbs, hm', hmax, -⟩ := hp.complexity hpos
  obtain ⟨gs, n', hgs, hn', hmax', -⟩ := hi.complexity hipos
  rw [hm, Option.some.injEq] at hm'
  rw [hn, Option.some.injEq] at hn'
  subst hm' hn'
  exact ⟨bs, gs, hbs, hgs, .inr (RankRise.of_max hmax hmax' hlt)⟩

theorem MaximumRise.metric {previous : LintRatchetMetricItem} {metric : LintRatchetMetric}
    (hm : previous.maxComplexity = some m) (hv : ItemValid metric previous) :
    metric = .complexitySeverity := by
  cases metric with
  | messageCount => simp [(itemValid_messageCount.1 hv).2.1] at hm
  | effectiveLineCount => simp [(itemValid_effectiveLineCount.1 hv).2.1] at hm
  | complexitySeverity => rfl

/-- What gets worse is seen or hidden. -/
theorem pathWorse_iff_visible_or_hidden [Host]
    (hv : ∀ item, g.items.own path = some item → PathValid b g path item) :
    PathWorse b g path ↔ PathVisiblyWorse b g path ∨ PathHiddenWorse b g path := by
  constructor
  · rintro (h | @⟨previous, item, hm, hb, hi, h | h⟩)
    · exact .inl (.count h)
    · exact .inl (.axis hm hb hi (.inl h))
    · by_cases hmax : MaximumRise previous item
      · exact .inl (.axis hm hb hi (.inr hmax))
      · by_cases hcount : item.count ≤ previous.count
        · exact .inr ⟨hm, previous, item, hb, hi, h, hmax, hcount⟩
        · exact .inl (.count (by simpa [hb, hi, floorCount] using hcount))
  · rintro ((h | @⟨previous, item, hm, hb, hi, h | h⟩) | ⟨hm, previous, item, hb, hi, h, -, -⟩)
    · exact .count h
    · exact .axis hm hb hi (.inl h)
    · have hv := hv item hi
      obtain ⟨hpv, hpos⟩ := hv.previous previous hb
      have hmetric := MaximumRise.metric h.choose_spec.choose_spec.1 hpv
      refine .axis hm hb hi (.inr (h.complexityRise (hmetric ▸ hpv) hpos ?_ hv.positive))
      have hiv := hv.valid
      rwa [← hm, hmetric] at hiv
    · exact .axis hm hb hi (.inr h)

/-- Off the axes the checker compares counts. -/
theorem pathVisiblyWorse_count {previous item : LintRatchetMetricItem}
    (hb : b.items.own path = some previous) (hi : g.items.own path = some item)
    (h : b.metric = g.metric → ¬ LinesRise previous item ∧ ¬ MaximumRise previous item) :
    PathVisiblyWorse b g path ↔ previous.count < item.count := by
  constructor
  · rintro (h' | @⟨p, i, hm, hb', hi', h'⟩)
    · simpa [hb, hi, floorCount] using h'
    · rw [hb, Option.some.injEq] at hb'
      rw [hi, Option.some.injEq] at hi'
      subst hb' hi'
      exact h'.elim (absurd · (h hm).1) (absurd · (h hm).2)
  · intro h'
    exact .count (by simpa [hb, hi, floorCount] using h')

theorem countIncrease_none {previous item : LintRatchetMetricItem} :
    countIncrease (sharedContext testId path g previous item) = none ↔
      item.count ≤ previous.count := by
  rw [countIncrease_shared]
  split <;> simp_all

/-- The checker collects an increase of a path exactly when it sees it worse. -/
theorem pathIncrease_none_iff
    (hv : ∀ item, g.items.own path = some item → PathValid b g path item) :
    pathIncrease testId b g path = none ↔ ¬ PathVisiblyWorse b g path := by
  cases hi : g.items.own path with
  | none =>
    refine iff_of_true (by simp [pathIncrease, hi]) ?_
    rintro (h' | ⟨-, -, hi', -⟩)
    · simp [hi, floorCount] at h'
    · simp [hi] at hi'
  | some item =>
    have hv := hv item hi
    cases hb : b.items.own path with
    | none =>
      refine iff_of_false ?_ fun hno => hno (.count (by simpa [hb, hi, floorCount] using hv.positive))
      by_cases hin : path ∈ inheritedNames
      · obtain ⟨i, hinc, -⟩ := pathIncrease_inherited testId hi
          (Record.read_inherited.2 ⟨hb, hin⟩)
        simp [hinc]
      · simp [pathIncrease_absent hi (Record.read_absent.2 ⟨hb, hin⟩)]
    | some previous =>
      obtain ⟨hpv, hpos⟩ := hv.previous previous hb
      have hiv := hv.valid
      rw [pathIncrease_shared hi hb]
      by_cases hm : b.metric = g.metric
      · rw [hm] at hpv ⊢
        simp only [collectItemIncreasesForMetric, decide_true, if_true]
        cases hmetric : g.metric with
        | messageCount =>
          rw [hmetric, itemValid_messageCount] at hiv hpv
          rw [collectItemIncreases_count hiv.1 hiv.2.1, countIncrease_none,
            pathVisiblyWorse_count hb hi fun _ => ⟨?_, ?_⟩, not_lt]
          · rintro ⟨x, y, hx, -⟩
            simp [hpv.1] at hx
          · rintro ⟨m, n, hx, -⟩
            simp [hpv.2.1] at hx
        | effectiveLineCount =>
          rw [hmetric, itemValid_effectiveLineCount] at hiv hpv
          obtain ⟨lb, hlb⟩ := Option.isSome_iff_exists.1 hpv.1
          obtain ⟨lg, hlg⟩ := Option.isSome_iff_exists.1 hiv.1
          rw [collectItemIncreases_lines hlb hlg hiv.2.1]
          split
          · next hle =>
            rw [countIncrease_none, pathVisiblyWorse_count hb hi fun _ => ⟨?_, ?_⟩, not_lt]
            · rintro ⟨x, y, hx, hy, hlt⟩
              rw [hlb, Option.some.injEq] at hx
              rw [hlg, Option.some.injEq] at hy
              exact absurd hlt (by rw [← hx, ← hy]; exact not_lt.2 hle)
            · rintro ⟨m, n, hx, -⟩
              simp [hpv.2.1] at hx
          · next hlt =>
            exact iff_of_false (by simp) fun hno =>
              hno (.axis hm hb hi (.inl ⟨lb, lg, hlb, hlg, not_le.1 hlt⟩))
        | complexitySeverity =>
          rw [hmetric] at hiv hpv
          obtain ⟨bs, m, -, hbm, -, -, hbl, -⟩ := hpv.complexity hpos
          obtain ⟨gs, n, -, hgn, -, -, hgl, -⟩ := hiv.complexity hv.positive
          rw [collectItemIncreases_complexity hgl hbm hgn]
          split
          · next hle =>
            rw [countIncrease_none, pathVisiblyWorse_count hb hi fun _ => ⟨?_, ?_⟩, not_lt]
            · rintro ⟨x, y, hx, -⟩
              simp [hbl] at hx
            · rintro ⟨x, y, hx, hy, hlt⟩
              rw [hbm, Option.some.injEq] at hx
              rw [hgn, Option.some.injEq] at hy
              omega
          · next hlt =>
            exact iff_of_false (by simp) fun hno =>
              hno (.axis hm hb hi (.inr ⟨m, n, hbm, hgn, not_le.1 hlt⟩))
      · have hm' : ¬ g.metric = b.metric := fun he => hm he.symm
        simp only [collectItemIncreasesForMetric, hm', decide_false, Bool.false_eq_true, if_false]
        rw [countIncrease_none, pathVisiblyWorse_count hb hi fun he => absurd he hm, not_lt]

/-! ## Both gates -/

variable [JsNumber N] [Host] {committed generated : LintRatchetBaseline N}
  {ratchets : List (LintRatchetConfig N)}

/-- A change of the ratchets themselves: an id is gone, a metric changed, paths left coverage. -/
inductive LifecycleChange (committed generated : LintRatchetBaseline N) : Prop
  | dropped {testId : JsString} {previous : LintRatchetBaselineTest N}
      (hb : committed.tests.own testId = some previous) (hg : generated.tests.own testId = none)
  | metric {testId : JsString} {previous current : LintRatchetBaselineTest N}
      (hb : committed.tests.own testId = some previous)
      (hg : generated.tests.own testId = some current) (h : previous.metric ≠ current.metric)
  | coverage {testId path : JsString} {previous current : LintRatchetBaselineTest N}
      (hb : committed.tests.own testId = some previous)
      (hg : generated.tests.own testId = some current) (h : LeavesCoverage previous current path)

/-- The checker sees something worse. -/
def VisiblyWorse (committed generated : LintRatchetBaseline N) : Prop :=
  LifecycleChange committed generated ∨ ∃ testId b g path, committed.tests.own testId = some b ∧
    generated.tests.own testId = some g ∧ PathVisiblyWorse b g path

/-- Some path got worse where the checker does not look. -/
def HiddenWorse (committed generated : LintRatchetBaseline N) : Prop :=
  ∃ testId b g path, committed.tests.own testId = some b ∧
    generated.tests.own testId = some g ∧ PathHiddenWorse b g path

omit [JsNumber N] in
theorem lifecycleChange_iff : LifecycleChange committed generated ↔
    collectMissingRatchets committed generated ≠ [] ∨
      collectMetricChangeDiffs committed generated ≠ [] ∨
        collectCoverageShrinkDiffs committed generated ≠ [] := by
  constructor
  · rintro (@⟨testId, b, hb, hg⟩ | @⟨testId, b, g, hb, hg, h⟩ | @⟨testId, path, b, g, hb, hg, h⟩)
    · refine .inl (List.ne_nil_of_mem (a := (testId, b)) (List.mem_filter.2 ⟨?_, by simp [hg]⟩))
      exact Record.mem_entries.2 hb
    · exact .inr (.inl (List.ne_nil_of_mem (mem_collectMetricChangeDiffs.2
        ⟨b, g, hb, hg, h, rfl, rfl, rfl⟩ :
          (⟨testId, g.ruleId, b.metric, g.metric⟩ : MetricChangeDiff) ∈ _)))
    · exact .inr (.inr fun hnil =>
        collectCoverageShrinkDiffs_nil.1 hnil testId b g hb hg path h)
  · rintro (h | h | h)
    · obtain ⟨⟨testId, b⟩, he⟩ := List.exists_mem_of_ne_nil _ h
      obtain ⟨hb, hg⟩ := List.mem_filter.1 he
      exact .dropped (Record.mem_entries.1 hb) (by simpa using hg)
    · obtain ⟨d, hd⟩ := List.exists_mem_of_ne_nil _ h
      obtain ⟨b, g, hb, hg, hne, -⟩ := mem_collectMetricChangeDiffs.1 hd
      exact .metric hb hg hne
    · by_contra hno
      refine h (collectCoverageShrinkDiffs_nil.2 fun testId b g hb hg path hl => ?_)
      exact hno (.coverage hb hg hl)

omit [JsNumber N] in
/-- A diff of coverage always names paths. -/
theorem removedPaths_of_mem {d : CoverageShrinkDiff}
    (h : d ∈ collectCoverageShrinkDiffs committed generated) : d.removedPaths ≠ [] := by
  obtain ⟨testId, -, h⟩ := List.mem_filterMap.1 h
  split at h
  · unfold coverageShrinkDiff at h
    split at h
    · cases h
    · split at h
      · cases h
      · next hne =>
        cases h
        exact hne
  · cases h

/-- Without records every change of a ratchet is reported. -/
theorem collectUnaccountedLifecycleChanges_nil :
    collectUnaccountedLifecycleChanges committed generated [] ≠ [] ↔
      LifecycleChange committed generated := by
  rw [lifecycleChange_iff, collectUnaccountedLifecycleChanges]
  have hshrinks : (collectCoverageShrinkDiffs committed generated).filterMap (fun diff =>
      unaccountedCoverageShrink diff ([] : List (LintRatchetDebtLogEntry N))) = [] ↔
        collectCoverageShrinkDiffs committed generated = [] := by
    rw [List.filterMap_eq_nil_iff]
    refine ⟨fun h => List.eq_nil_iff_forall_not_mem.2 fun d hd => ?_, fun h => by simp [h]⟩
    have := h d hd
    simp [unaccountedCoverageShrink, removedPaths_of_mem hd] at this
  simp only [accountsForMissingRatchet, accountsForMetricChange, List.any_nil, Bool.false_eq_true,
    if_false, List.filterMap_eq_map', ne_eq, List.append_eq_nil_iff, List.map_eq_nil_iff, hshrinks,
    not_and_or, or_assoc]

/-- Without records the checker reports exactly what it sees. -/
theorem accountingResult_nil {w w' : LintRatchetWorkflowVocabulary} (hc : Accepted w committed)
    (hg : Accepted w' generated) (hcv : ItemsValid committed) (hgv : ItemsValid generated) :
    (accountingResult committed generated []).failures ≠ [] ↔ VisiblyWorse committed generated := by
  have hincrease : (collectBaselineIncreases committed generated).filter
      (fun i => !hasAccountingEntry i ([] : List (LintRatchetDebtLogEntry N))) =
        collectBaselineIncreases committed generated := by
    refine List.filter_eq_self.2 fun i hi => ?_
    obtain ⟨testId, b, g, path, -, -, h⟩ := mem_collectBaselineIncreases.1 hi
    simp [hasAccountingEntry_nil (pathIncrease_at h).rises]
  have hv {testId b g path item} (h1 : committed.tests.own testId = some b)
      (h2 : generated.tests.own testId = some g) (hi : g.items.own path = some item) :
      PathValid b g path item := .of_accepted hc hg hcv hgv h1 h2 hi
  rw [accountingResult]
  simp only [hincrease, ne_eq, List.append_eq_nil_iff, List.map_eq_nil_iff, not_and_or]
  rw [← ne_eq (collectUnaccountedLifecycleChanges _ _ _), collectUnaccountedLifecycleChanges_nil,
    or_comm, VisiblyWorse]
  refine or_congr_right ⟨fun h => ?_, ?_⟩
  · obtain ⟨i, hi⟩ := List.exists_mem_of_ne_nil _ h
    obtain ⟨testId, b, g, path, hb, hg, hinc⟩ := mem_collectBaselineIncreases.1 hi
    refine ⟨testId, b, g, path, hb, hg, ?_⟩
    by_contra hno
    rw [(pathIncrease_none_iff fun item => hv hb hg).2 hno] at hinc
    cases hinc
  · rintro ⟨testId, b, g, path, hb, hg, hvis⟩ hnil
    cases hinc : pathIncrease testId b g path with
    | none =>
      exact (pathIncrease_none_iff fun item => hv hb hg).1 hinc hvis
    | some i =>
      have hmem := mem_collectBaselineIncreases.2 ⟨testId, b, g, path, hb, hg, hinc⟩
      simp [hnil] at hmem

section Refusal
variable {w : LintRatchetWorkflowVocabulary} {decision : LintRatchetUpdateDecision N}

omit [JsNumber N] [Host] in
theorem metricMigrationFailure_plain [JsNumber N] (migrations : List LintRatchetMetricMigration) :
    metricMigrationFailure (N := N) migrations { allowWorse := false, workflowVocabulary := w } =
      none ↔ migrations = [] := by
  simp [metricMigrationFailure, trim]

omit [JsNumber N] [Host] in
/-- The orphans of a baseline that was built from the registry are the dropped tests. -/
theorem collectOrphanRemovals_nil (hfrom : BuiltFrom ratchets generated) :
    collectOrphanRemovals committed ratchets = [] ↔ collectMissingRatchets committed generated = [] := by
  have hid (testId : JsString) :
      testId ∈ ratchets.map (·.id) ↔ generated.tests.own testId ≠ none := by
    rw [← hfrom.ids, Record.mem_keys, Option.ne_none_iff_exists']
  simp only [List.eq_nil_iff_forall_not_mem]
  constructor
  · rintro h ⟨testId, b⟩ he
    obtain ⟨hb, hg⟩ := List.mem_filter.1 he
    have hno : testId ∉ ratchets.map (·.id) := fun hmem => (hid testId).1 hmem (by simpa using hg)
    exact h ⟨testId, b.ruleId, b.metric, orphanBaselineItems b⟩
      (mem_collectOrphanRemovals.2 ⟨hno, b, Record.mem_entries.1 hb, rfl⟩)
  · intro h o ho
    obtain ⟨hno, b, hb, -⟩ := mem_collectOrphanRemovals.1 ho
    rw [hid, not_not] at hno
    exact h (o.testId, b) (List.mem_filter.2 ⟨Record.mem_entries.2 hb, by simp [hno]⟩)

/-- A plain update is refused exactly when something got worse. -/
theorem refused_iff {w' w'' : LintRatchetWorkflowVocabulary} (hc : Accepted w' committed)
    (hg : Accepted w'' generated) (hcv : ItemsValid committed) (hgv : ItemsValid generated)
    (hfrom : BuiltFrom ratchets generated)
    (hd : decideLintRatchetUpdate committed generated ratchets
      { allowWorse := false, workflowVocabulary := w } = some decision) :
    decision.allowed = false ↔ LifecycleChange committed generated ∨
      ∃ testId b g path, committed.tests.own testId = some b ∧
        generated.tests.own testId = some g ∧ PathWorse b g path := by
  have hregressions : decision.regressions ≠ [] ↔ ∃ testId b g path,
      committed.tests.own testId = some b ∧ generated.tests.own testId = some g ∧
        PathWorse b g path := by
    rw [Ne, decision_regressions_nil hd]
    have hiff {testId b g path} (h1 : committed.tests.own testId = some b)
        (h2 : generated.tests.own testId = some g) :
        updateRegressionAt committed generated ratchets testId path = none ↔
          ¬ PathWorse b g path :=
      (SharedTest.of_builtFrom hc hfrom h1 h2).regression_iff
        fun item => .of_accepted hc hg hcv hgv h1 h2
    constructor
    · intro h
      obtain ⟨testId, path, h⟩ : ∃ testId path,
          updateRegressionAt committed generated ratchets testId path ≠ none := by
        simpa only [not_forall] using h
      obtain ⟨b, g, h1, h2⟩ := updateRegressionAt_shared hfrom h
      exact ⟨testId, b, g, path, h1, h2, not_not.1 (mt (hiff h1 h2).2 h)⟩
    · rintro ⟨testId, b, g, path, h1, h2, hworse⟩ h
      exact (hiff h1 h2).1 (h testId path) hworse
  have hretire : retireResolution committed ratchets
      ({ allowWorse := false, workflowVocabulary := w } : LintRatchetUpdateOptions N) = {} := rfl
  rw [← hregressions, lifecycleChange_iff, Ne, ← collectOrphanRemovals_nil hfrom,
    ← Bool.not_eq_true, decision_allowed hd]
  simp only [hretire, accountableOrphans, metricMigrationFailure_plain, collectMetricMigrations,
    List.map_eq_nil_iff, reasonFailure, Bool.false_eq_true, if_false, false_or, true_and, and_true]
  tauto

end Refusal

/-- Nothing was added to a valid log that is unchanged. -/
theorem addedDebtLogEntries_self {log debtLogName : JsString}
    {entries : List (LintRatchetDebtLogEntry N)}
    (h : parseDebtLogJsonl log (debtLogName ++ js " at base") = .ok entries) :
    (addedDebtLogEntries log log debtLogName : Except JsString (List (LintRatchetDebtLogEntry N))) =
      .ok [] := by
  have happended : appendedDebtLogText log log debtLogName = .ok [] := by
    rw [appendedDebtLogText, if_pos (startsWith_iff.2 (List.prefix_refl log)), List.drop_length]
    split <;> rfl
  rw [addedDebtLogEntries, h, happended]
  rfl

/-- The verdict on parsed baselines and the entries that were added. -/
theorem checkBaselineDebtAccounting_ok {options : BaselineDebtAccountingOptions}
    {entries : List (LintRatchetDebtLogEntry N)} (hbn : options.baselineDisplayName = none)
    (hb : parseLintRatchetBaselineStructure options.baseBaselineText options.workflowVocabulary =
      .ok committed)
    (hg : parseLintRatchetBaselineStructure options.currentBaselineText options.workflowVocabulary =
      .ok generated)
    (hlog : addedDebtLogEntries options.baseDebtLogText options.currentDebtLogText
      (options.debtLogDisplayName.getD defaultDebtLogFilename) = .ok entries) :
    checkBaselineDebtAccounting N options = .ok (accountingResult committed generated entries) := by
  simp only [checkBaselineDebtAccounting, parseAccountedBaseline, hbn, Option.getD_none, hb, hg, hlog]

/-- With an unchanged log the checker reports something for every refused plain update exactly when
no worsening is hidden from it, or something else got visibly worse. -/
theorem refusedIsReported_iff {w : LintRatchetWorkflowVocabulary}
    {baseText currentText log : JsString} {decision : LintRatchetUpdateDecision N}
    {entries : List (LintRatchetDebtLogEntry N)}
    (hb : parseLintRatchetBaselineStructure baseText w = .ok committed)
    (hg : parseLintRatchetBaselineStructure currentText w = .ok generated)
    (hcv : ItemsValid committed) (hgv : ItemsValid generated) (hfrom : BuiltFrom ratchets generated)
    (hlog : parseDebtLogJsonl log (defaultDebtLogFilename ++ js " at base") = .ok entries)
    (hd : decideLintRatchetUpdate committed generated ratchets
      { allowWorse := false, workflowVocabulary := w } = some decision) :
    ∃ result, checkBaselineDebtAccounting N
        { baseBaselineText := baseText, currentBaselineText := currentText, baseDebtLogText := log,
          currentDebtLogText := log, workflowVocabulary := w } = .ok result ∧
      ((decision.allowed = false → result.failures ≠ []) ↔
        (HiddenWorse committed generated → VisiblyWorse committed generated)) := by
  refine ⟨_, checkBaselineDebtAccounting_ok rfl hb hg (addedDebtLogEntries_self hlog), ?_⟩
  rw [refused_iff ⟨_, hb⟩ ⟨_, hg⟩ hcv hgv hfrom hd, accountingResult_nil ⟨_, hb⟩ ⟨_, hg⟩ hcv hgv]
  have hiff {testId b g} (path) (h1 : committed.tests.own testId = some b)
      (h2 : generated.tests.own testId = some g) :
      PathWorse b g path ↔ PathVisiblyWorse b g path ∨ PathHiddenWorse b g path :=
    pathWorse_iff_visible_or_hidden fun item => .of_accepted ⟨_, hb⟩ ⟨_, hg⟩ hcv hgv h1 h2
  constructor
  · rintro h ⟨testId, b, g, path, h1, h2, hidden⟩
    exact h (.inr ⟨testId, b, g, path, h1, h2, (hiff path h1 h2).2 (.inr hidden)⟩)
  · rintro h (hchange | ⟨testId, b, g, path, h1, h2, hworse⟩)
    · exact .inl hchange
    · rcases (hiff path h1 h2).1 hworse with hvisible | hidden
      · exact .inr ⟨testId, b, g, path, h1, h2, hvisible⟩
      · exact h ⟨testId, b, g, path, h1, h2, hidden⟩

end Strictness

/-! ## A rise below the maximum -/

/-- A file before a small function rose. -/
def beforeSmallRise : LintRatchetMetricItem := complexityItem [⟨1, js "g", 20⟩, ⟨9, js "f", 5⟩]

def afterSmallRise : LintRatchetMetricItem := complexityItem [⟨1, js "g", 20⟩, ⟨9, js "f", 6⟩]

theorem oneItem_beforeSmallRise : OneItem .complexitySeverity beforeSmallRise :=
  oneItem_complexity (by simp) (by decide)

theorem oneItem_afterSmallRise : OneItem .complexitySeverity afterSmallRise :=
  oneItem_complexity (by simp) (by decide)

/-- The log has no entries. -/
theorem parseDebtLogJsonl_nil [Host] (label : JsString) :
    (parseDebtLogJsonl [] label : Except JsString (List (LintRatchetDebtLogEntry Numeral))) =
      .ok [] := rfl

theorem refusedIsReported_iff_smallRise : ∃ decision,
    decideLintRatchetUpdate (oneFile .complexitySeverity beforeSmallRise)
      (oneFile .complexitySeverity afterSmallRise) [oneFileRatchet .complexitySeverity]
        { allowWorse := false, workflowVocabulary := plainVocabulary } = some decision ∧
    ∃ result, checkBaselineDebtAccounting Numeral
        { baseBaselineText := baselineText (oneFile .complexitySeverity beforeSmallRise)
          currentBaselineText := baselineText (oneFile .complexitySeverity afterSmallRise)
          baseDebtLogText := [], currentDebtLogText := []
          workflowVocabulary := plainVocabulary } = .ok result ∧
      ((decision.allowed = false → result.failures ≠ []) ↔
        (HiddenWorse (oneFile .complexitySeverity beforeSmallRise)
            (oneFile .complexitySeverity afterSmallRise) →
          VisiblyWorse (oneFile .complexitySeverity beforeSmallRise)
            (oneFile .complexitySeverity afterSmallRise))) := by
  obtain ⟨decision, hd⟩ := decideLintRatchetUpdate_total
    (oneFile .complexitySeverity beforeSmallRise) (oneFile .complexitySeverity afterSmallRise)
    [oneFileRatchet .complexitySeverity]
    { allowWorse := false, workflowVocabulary := plainVocabulary }
  exact ⟨decision, hd, refusedIsReported_iff (oneItem_beforeSmallRise.parsed plainVocabulary)
    (oneItem_afterSmallRise.parsed plainVocabulary) oneItem_beforeSmallRise.itemsValid
    oneItem_afterSmallRise.itemsValid builtFrom_oneFile (parseDebtLogJsonl_nil _) hd⟩

/-- A refused update of which the checker says nothing. -/
theorem refusedIsReported_fails : ∃ (committed generated : LintRatchetBaseline Numeral)
    (ratchets : List (LintRatchetConfig Numeral)) (baseText currentText log : JsString)
    (decision : LintRatchetUpdateDecision Numeral) (result : BaselineDebtAccountingResult),
    parseLintRatchetBaselineStructure baseText plainVocabulary = .ok committed ∧
    parseLintRatchetBaselineStructure currentText plainVocabulary = .ok generated ∧
    ItemsValid committed ∧ ItemsValid generated ∧ BuiltFrom ratchets generated ∧
    decideLintRatchetUpdate committed generated ratchets
      { allowWorse := false, workflowVocabulary := plainVocabulary } = some decision ∧
    decision.allowed = false ∧
    checkBaselineDebtAccounting Numeral
      { baseBaselineText := baseText, currentBaselineText := currentText, baseDebtLogText := log,
        currentDebtLogText := log, workflowVocabulary := plainVocabulary } = .ok result ∧
    result.failures = [] := by
  have hb := oneItem_beforeSmallRise.parsed plainVocabulary
  have hg := oneItem_afterSmallRise.parsed plainVocabulary
  have hcv := oneItem_beforeSmallRise.itemsValid
  have hgv := oneItem_afterSmallRise.itemsValid
  obtain ⟨decision, hd⟩ := decideLintRatchetUpdate_total
    (oneFile .complexitySeverity beforeSmallRise) (oneFile .complexitySeverity afterSmallRise)
    [oneFileRatchet .complexitySeverity]
    { allowWorse := false, workflowVocabulary := plainVocabulary }
  refine ⟨_, _, _, _, _, [], decision, _, hb, hg, hcv, hgv, builtFrom_oneFile, hd, ?_,
    checkBaselineDebtAccounting_ok rfl hb hg (addedDebtLogEntries_self (parseDebtLogJsonl_nil _)),
    by decide⟩
  refine (refused_iff ⟨_, hb⟩ ⟨_, hg⟩ hcv hgv builtFrom_oneFile hd).2
    (.inr ⟨_, _, _, onePath, own_oneFile, own_oneFile, ?_⟩)
  exact .axis rfl own_oneFileTest own_oneFileTest
    (.inr ⟨_, _, rfl, rfl, .inl ⟨⟨9, js "f", 6⟩, by decide, by decide⟩⟩)

end Musi.LintRatchet
