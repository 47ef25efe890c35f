import Musi.LintRatchet.Kernel.UpdateSafety

namespace Musi.LintRatchet
open Musi.Js
set_option autoImplicit true

section Migration
variable {N : Type} [JsNumber N] [Host] {committed generated : LintRatchetBaseline N}
  {ratchets : List (LintRatchetConfig N)} {testId path : JsString}
  {b g : LintRatchetBaselineTest N} {context : MetricItemComparisonContext N}

/-! ## What takes precedence over the count -/

/-- The metric finds its own axis in both items, and it rises. -/
def AxisRise (metric : LintRatchetMetric) (previous item : LintRatchetMetricItem) : Prop :=
  metric = .effectiveLineCount ∧ LinesRise previous item ∨
    metric = .complexitySeverity ∧ ComplexityRise previous item

omit [JsNumber N] in
/-- A difference of functions is a regression exactly when some function got worse. -/
theorem complexityDelta_regression {previous item : LintRatchetMetricItem} :
    (∃ d, complexityDelta (some previous) item = some d ∧ d.regression = true) ↔
      ComplexityRise previous item := by
  constructor
  · rintro ⟨d, hd, hreg⟩
    cases hb : previous.perFunction with
    | none => simp [complexityDelta, hb] at hd
    | some bs =>
      cases hc : item.perFunction with
      | none => simp [complexityDelta, hb, hc] at hd
      | some gs =>
        refine ⟨bs, gs, hb, hc, ?_⟩
        by_contra hno
        rw [not_or] at hno
        have hfind : gs.find? (exactRise bs) = none :=
          List.find?_eq_none.2 fun f hf hrise => hno.1 ⟨f, hf, hrise⟩
        simp [complexityDelta_none hb hc hfind hno.2 hd] at hreg
  · rintro ⟨bs, gs, hb, hc, hrise⟩
    cases hf : gs.find? (exactRise bs) with
    | some f => exact ⟨_, complexityDelta_exact hb hc hf, rfl⟩
    | none =>
      have hrank : RankRise bs gs := by
        rcases hrise with ⟨f, hmem, hf'⟩ | hrank
        · exact absurd hf' (List.find?_eq_none.1 hf f hmem)
        · exact hrank
      obtain ⟨d, hd, hreg, -⟩ := complexityDelta_rank hb hc hf hrank
      exact ⟨d, hd, hreg⟩

/-- Where no axis rises only the counts are compared. -/
theorem compareItem_reportsCount_of_not_axis {metric : LintRatchetMetric}
    (h : ∀ previous, context.baselineItem = some previous →
      ¬ AxisRise metric previous context.current.toLintRatchetMetricItem) :
    ReportsCount context (compareItem metric context).regression := by
  cases metric with
  | messageCount => exact compareItem_reportsCount context (by simp) (by simp)
  | effectiveLineCount =>
    rw [compareItem, compareEffectiveLineCountItem_count fun lb lg hlb hlg => ?_]
    · exact reportsCount _ _ _
    · obtain ⟨previous, hprevious, hlb⟩ := Option.bind_eq_some_iff.1 hlb
      by_contra hlt
      exact h previous hprevious (.inl ⟨rfl, lb, lg, hlb, hlg, not_le.1 hlt⟩)
  | complexitySeverity =>
    have hkept (d) (hd : complexityDelta context.baselineItem
        context.current.toLintRatchetMetricItem = some d) : d.regression = false := by
      cases hprevious : context.baselineItem with
      | none => simp [complexityDelta, hprevious] at hd
      | some previous =>
        by_contra hreg
        rw [hprevious] at hd
        have hrise := complexityDelta_regression.1 ⟨d, hd, by simpa using hreg⟩
        exact h previous hprevious (.inr ⟨rfl, hrise⟩)
    obtain ⟨new, old, he⟩ := compareComplexitySeverityItem_count hkept
    rw [compareItem, he]
    exact reportsCount _ _ _

/-- Where one does, the report is of the axis. -/
theorem compareItem_axis {metric : LintRatchetMetric} {previous : LintRatchetMetricItem}
    (hprevious : context.baselineItem = some previous)
    (h : AxisRise metric previous context.current.toLintRatchetMetricItem) :
    ∃ r, (compareItem metric context).regression = some r ∧
      r.reason ∉ countComparableRegressionReasons := by
  rcases h with ⟨rfl, lb, lg, hlb, hlg, hlt⟩ | ⟨rfl, hrise⟩
  · obtain ⟨r, hr, -, hreason, -⟩ :=
      compareEffectiveLineCountItem_lines (by simp [hprevious, hlb]) hlg hlt
    exact ⟨r, hr, by simp [hreason, countComparableRegressionReasons]⟩
  · obtain ⟨d, hd, hreg⟩ := complexityDelta_regression.2 hrise
    obtain ⟨r, hr, -, hreason, -⟩ :=
      compareComplexitySeverityItem_delta (by rw [hprevious]; exact hd) hreg
    exact ⟨r, hr, by simp [hreason, countComparableRegressionReasons]⟩

/-! ## Paths of a migrated ratchet -/

/-- The count of a path rose, and so did the axis of the new metric, whose field the committed item
already carries. -/
def CountMasked (b g : LintRatchetBaselineTest N) (path : JsString) : Prop :=
  ∃ previous item, b.items.own path = some previous ∧ g.items.own path = some item ∧
    AxisRise g.metric previous item

/-- What the update reports of a path of a migrated ratchet that got more findings. -/
theorem SharedTest.regression_migrated (h : SharedTest committed generated ratchets testId b g)
    (hm : b.metric ≠ g.metric)
    (hlt : floorCount (b.items.own path) < floorCount (g.items.own path)) :
    (CountMasked b g path → updateRegressionAt committed generated ratchets testId path = none) ∧
    (¬ CountMasked b g path → ∃ r,
      updateRegressionAt committed generated ratchets testId path = some r ∧
        r.baselineCount = floorCount (b.items.own path) ∧
          r.currentCount = floorCount (g.items.own path)) := by
  obtain ⟨ratchet, hid, hat⟩ := h.comparisonAt
  have hmigrated := h.migrated.2 hm
  cases hi : g.items.own path with
  | none => simp [hi, floorCount] at hlt
  | some item =>
    rw [hi] at hlt
    set context : MetricItemComparisonContext N :=
      { ratchet, path, baselineItem := b.items.own path, current := currentItemOf N item }
    constructor
    · rintro ⟨previous, item', hb, hi', hrise⟩
      rw [hi, Option.some.injEq] at hi'
      subst hi'
      obtain ⟨r, hr, hreason⟩ := @compareItem_axis _ _ _ context _ _ hb hrise
      rw [updateRegressionAt, hat, hi]
      dsimp only
      rw [hr]
      simp [Option.filter, hmigrated, hreason]
    · intro hno
      have hreport : ReportsCount context (compareItem g.metric context).regression :=
        compareItem_reportsCount_of_not_axis fun previous hb hrise =>
          hno ⟨previous, item, hb, hi, hrise⟩
      have hkept : ReportsCountAt g.ruleId context.baselineCount context.current.count
          (updateRegressionAt committed generated ratchets testId path) := by
        rw [updateRegressionAt, hat, hi]
        exact (hreport.at hid).filter fun r hr => by simp [hr]
      obtain ⟨r, hr, -, hbase, hcurrent, -⟩ := hkept.worse hlt
      exact ⟨r, hr, hbase, hcurrent⟩

/-! ## Migrations and count debt -/

/-- Every path of a migrated ratchet that got more findings is gated on. -/
def CountDebtGated (committed generated : LintRatchetBaseline N)
    (options : LintRatchetUpdateOptions N) (decision : LintRatchetUpdateDecision N) : Prop :=
  ∀ testId b g path, committed.tests.own testId = some b → generated.tests.own testId = some g →
    b.metric ≠ g.metric → floorCount (b.items.own path) < floorCount (g.items.own path) →
      (∃ r ∈ decision.regressions, r.testId = testId ∧ r.path = path ∧
        r.baselineCount = floorCount (b.items.own path) ∧
          r.currentCount = floorCount (g.items.own path)) ∧
      (options.allowWorse = false → decision.allowed = false)

/-- No committed item carries the axis of the metric that a migration moves to, risen with the
count. -/
def NoCountMasked (committed generated : LintRatchetBaseline N) : Prop :=
  ∀ testId b g path, committed.tests.own testId = some b → generated.tests.own testId = some g →
    b.metric ≠ g.metric → floorCount (b.items.own path) < floorCount (g.items.own path) →
      ¬ CountMasked b g path

/-- A migration masks count debt exactly where the axis of the new metric rises as well. -/
theorem countDebtGated_iff {options : LintRatchetUpdateOptions N}
    {decision : LintRatchetUpdateDecision N} {w : LintRatchetWorkflowVocabulary}
    (hc : Accepted w committed) (hfrom : BuiltFrom ratchets generated)
    (hd : decideLintRatchetUpdate committed generated ratchets options = some decision) :
    CountDebtGated committed generated options decision ↔ NoCountMasked committed generated := by
  constructor
  · intro h testId b g path hb hg hm hlt hmasked
    obtain ⟨⟨r, hr, hid, hpath, -⟩, -⟩ := h testId b g path hb hg hm hlt
    have hkeys := decision_regressions hd testId path
    rw [((SharedTest.of_builtFrom hc hfrom hb hg).regression_migrated hm hlt).1 hmasked,
      Option.toList_none, List.filter_eq_nil_iff] at hkeys
    exact hkeys r hr (by simp [hid, hpath])
  · intro h testId b g path hb hg hm hlt
    obtain ⟨r, hr, hbase, hcurrent⟩ :=
      ((SharedTest.of_builtFrom hc hfrom hb hg).regression_migrated hm hlt).2
        (h testId b g path hb hg hm hlt)
    have hmem : r ∈ decision.regressions.filter fun r => (r.testId, r.path) = (testId, path) := by
      rw [decision_regressions hd, hr]
      exact List.mem_singleton_self r
    obtain ⟨hmem, hkeys⟩ := List.mem_filter.1 hmem
    obtain ⟨hid, hpath⟩ := Prod.mk.inj (of_decide_eq_true hkeys)
    refine ⟨⟨r, hmem, hid, hpath, hbase, hcurrent⟩, fun hworse => ?_⟩
    rw [Bool.eq_false_iff]
    intro ha
    have hnil := ((decision_allowed hd).1 ha).1.resolve_left (by simp [hworse])
    rw [hnil] at hmem
    cases hmem

end Migration

/-! ## A migration that hides a new finding -/

/-- A message count that also carries a line count. -/
def countWithLines : LintRatchetMetricItem := { count := 1, lines := some 5 }

/-- One finding more, in a longer file. -/
def moreLines : LintRatchetMetricItem := { count := 2, lines := some 6 }

theorem lines_items {item : LintRatchetMetricItem} (hcount : 0 < item.count)
    (hv : ItemValid .effectiveLineCount item) (hl : item.lines ≠ some ⊤) :
    OneItem .effectiveLineCount item := by
  obtain ⟨-, -, hf, hs⟩ := itemValid_effectiveLineCount.1 hv
  exact .of_valid (itemWellFormed_numeral hl (by simp [hf]) (by simp [hs])) hcount hv

/-- The reason of the migration, and nothing accepted. -/
def migratingOptions : LintRatchetUpdateOptions Numeral :=
  { plainOptions with migrationReason := some (js "lines measure the debt") }

theorem moreLines_item : OneItem .effectiveLineCount moreLines :=
  lines_items (by decide) (itemValid_effectiveLineCount.2 ⟨rfl, rfl, rfl, rfl⟩) (by decide)

theorem countWithLines_item : OneItem .effectiveLineCount countWithLines :=
  lines_items (by decide) (itemValid_effectiveLineCount.2 ⟨rfl, rfl, rfl, rfl⟩) (by decide)

theorem countDebtGated_iff_lines : ∃ decision,
    decideLintRatchetUpdate (oneFile .messageCount { count := 1 })
      (oneFile .effectiveLineCount moreLines) [oneFileRatchet .effectiveLineCount]
      migratingOptions = some decision ∧
    (CountDebtGated (oneFile .messageCount { count := 1 }) (oneFile .effectiveLineCount moreLines)
        migratingOptions decision ↔
      NoCountMasked (oneFile .messageCount { count := 1 })
        (oneFile .effectiveLineCount moreLines)) := by
  obtain ⟨decision, hd⟩ := decideLintRatchetUpdate_total (oneFile .messageCount { count := 1 })
    (oneFile .effectiveLineCount moreLines) [oneFileRatchet .effectiveLineCount] migratingOptions
  exact ⟨decision, hd, countDebtGated_iff ((oneItem_count Nat.one_pos).accepted plainVocabulary)
    builtFrom_oneFile hd⟩

/-- A migration that is allowed without accepted debt although a path got a new finding. -/
theorem countDebtGated_fails : ∃ (committed generated : LintRatchetBaseline Numeral)
    (ratchets : List (LintRatchetConfig Numeral)) (options : LintRatchetUpdateOptions Numeral)
    (decision : LintRatchetUpdateDecision Numeral),
    Accepted plainVocabulary committed ∧ Accepted plainVocabulary generated ∧
    ItemsValid generated ∧ BuiltFrom ratchets generated ∧
    decideLintRatchetUpdate committed generated ratchets options = some decision ∧
    options.allowWorse = false ∧ decision.allowed = true ∧
    ¬ CountDebtGated committed generated options decision := by
  obtain ⟨decision, hd⟩ := decideLintRatchetUpdate_total (oneFile .messageCount countWithLines)
    (oneFile .effectiveLineCount moreLines) [oneFileRatchet .effectiveLineCount] migratingOptions
  have hallowed : (decideLintRatchetUpdate (oneFile .messageCount countWithLines)
      (oneFile .effectiveLineCount moreLines) [oneFileRatchet .effectiveLineCount]
      migratingOptions).map (·.allowed) = some true := by decide +kernel
  rw [hd, Option.map_some, Option.some.injEq] at hallowed
  refine ⟨_, _, _, _, decision, OneItems.accepted countWithLines_item plainVocabulary,
    moreLines_item.accepted plainVocabulary, moreLines_item.itemsValid, builtFrom_oneFile, hd, rfl,
    hallowed, fun h => ?_⟩
  obtain ⟨-, hrefused⟩ := h (js "ratchet/one") _ _ onePath own_oneFile own_oneFile
    (by decide) (by decide)
  rw [hallowed] at hrefused
  exact absurd (hrefused rfl) (by decide)

end Musi.LintRatchet
