import Musi.LintRatchet.Governance.UpdateRecords

namespace Musi.LintRatchet
open Musi.Js
set_option autoImplicit true

section
variable {N : Type} [JsNumber N] [Host] {committed generated : LintRatchetBaseline N}
  {ratchets : List (LintRatchetConfig N)} {options : LintRatchetUpdateOptions N}
  {decision : LintRatchetUpdateDecision N}

/-! ## What is recorded of a ratchet that goes, changes its metric or loses paths -/

omit [JsNumber N] [Host] in
/-- The dropped tests of a baseline built from the registry are its orphans. -/
theorem mem_collectMissingRatchets (hfrom : BuiltFrom ratchets generated) :
    (testId, b) ∈ collectMissingRatchets committed generated ↔
      committed.tests.own testId = some b ∧ testId ∉ ratchets.map (·.id) := by
  rw [collectMissingRatchets, List.mem_filter, Record.mem_entries, ← hfrom.ids, Record.mem_keys,
    Option.isNone_iff_eq_none, Option.eq_none_iff_forall_ne_some, not_exists]

omit [Host] in
/-- The snapshot of an orphan matches the test that it was taken from. -/
theorem orphanMatches_self (testId : JsString) (b : LintRatchetBaselineTest N) :
    orphanMatchesRemovedBaseline
      { testId, ruleId := b.ruleId, metric := b.metric, baselineItems := orphanBaselineItems b }
      testId b = true := by
  have hsorted : sortBy (fun a b => compareByCodepoint a.path b.path) (orphanBaselineItems b) =
      orphanBaselineItems b :=
    sortBy_idem (compareByCodepoint_strict.toConsistentComparator.comap _) _
  have hitems : orphanItemsText N (orphanBaselineItems b) =
      orphanItemsText N (b.items.entries.map fun e => { e.2 with path := e.1 }) := by
    rw [orphanItemsText, hsorted]
    rfl
  simp [orphanMatchesRemovedBaseline, hitems]

omit [JsNumber N] [Host] in
theorem recorded_accepted (hworse : options.allowWorse = true) (hdebt : hasAcceptedDebt decision = true) :
    .acceptedDebt (buildLintRatchetDebtLogEntry decision (trim (options.reason.getD []))) ∈
      debtLogEntriesForUpdate (some decision) options := by
  simp [debtLogEntriesForUpdate, hworse, hdebt]

omit [JsNumber N] [Host] in
theorem recorded_retirement {id : JsString} (h : decision.retiredRatchetId = some id) :
    .retirement (buildLintRatchetRetirementLogEntry id decision.retirementOptionsAttestation) ∈
      debtLogEntriesForUpdate (some decision) options := by
  simp [debtLogEntriesForUpdate, h]

omit [JsNumber N] [Host] in
theorem recorded_metricMigration {migration : LintRatchetMetricMigration}
    (h : migration ∈ decision.metricMigrations) : ∃ reason,
      .metricMigration (buildLintRatchetMetricMigrationLogEntry migration reason) ∈
        debtLogEntriesForUpdate (some decision) options := by
  refine ⟨(options.migrationReason.map trim).getD (trim (options.reason.getD [])), ?_⟩
  simp only [debtLogEntriesForUpdate, List.mem_append, List.mem_map]
  exact .inl (.inr ⟨migration, h, rfl⟩)

omit [JsNumber N] [Host] in
theorem recorded_coverageShrink {shrink : LintRatchetCoverageShrink}
    (hworse : options.allowWorse = true) (h : shrink ∈ decision.coverageShrinks) :
    .coverageShrink (buildLintRatchetCoverageShrinkLogEntry shrink (trim (options.reason.getD []))) ∈
      debtLogEntriesForUpdate (some decision) options := by
  simp only [debtLogEntriesForUpdate, List.mem_append, List.mem_map, hworse, if_true]
  exact .inl (.inl (.inr ⟨shrink, h, rfl⟩))

theorem missingRatchet_recorded {w : LintRatchetWorkflowVocabulary} (hc : Accepted w committed)
    (hfrom : BuiltFrom ratchets generated)
    (hd : decideLintRatchetUpdate committed generated ratchets options = some decision)
    (ha : decision.allowed = true) (h : (testId, b) ∈ collectMissingRatchets committed generated) :
    accountsForMissingRatchet testId b (debtLogEntriesForUpdate (some decision) options) = true := by
  obtain ⟨hb, hid⟩ := (mem_collectMissingRatchets hfrom).1 h
  obtain ⟨-, -, -, -, horphans, -⟩ := (decision_allowed hd).1 ha
  have hmem := mem_collectOrphanRemovals (o := ⟨testId, b.ruleId, b.metric, orphanBaselineItems b⟩)
    |>.2 ⟨hid, b, hb, rfl⟩
  rw [accountsForMissingRatchet, List.any_eq_true]
  by_cases hretired : (retireResolution committed ratchets options).retiredRatchetId = some testId
  · obtain ⟨retire, o, -, -, -, ho, hoid, hzero⟩ := retireResolution_some hretired
    refine ⟨_, recorded_retirement ((decision_retired hd ha).trans hretired), ?_⟩
    simp [buildLintRatchetRetirementLogEntry, hc.orphan_empty hb ho hoid hzero]
  · have haccountable : (⟨testId, b.ruleId, b.metric, orphanBaselineItems b⟩ : LintRatchetOrphanRemoval) ∈
        decision.orphanRemovals := by
      rw [decision_orphanRemovals hd]
      unfold accountableOrphans
      split
      · exact hmem
      · next id hid' =>
        refine List.mem_filter.2 ⟨hmem, ?_⟩
        rw [hid'] at hretired
        have hne : testId ≠ id := fun heq => hretired (by rw [heq])
        simpa using hne
    have hworse : options.allowWorse = true := horphans.resolve_right fun hnil => by
      rw [decision_orphanRemovals hd, hnil] at haccountable
      cases haccountable
    have hdebt : hasAcceptedDebt decision = true := by
      simp [hasAcceptedDebt, List.ne_nil_of_mem haccountable]
    exact ⟨_, recorded_accepted hworse hdebt,
      List.any_eq_true.2 ⟨_, haccountable, orphanMatches_self testId b⟩⟩

theorem metricChange_recorded
    (hd : decideLintRatchetUpdate committed generated ratchets options = some decision)
    {change : MetricChangeDiff} (h : change ∈ collectMetricChangeDiffs committed generated) :
    accountsForMetricChange change (debtLogEntriesForUpdate (some decision) options) = true := by
  have hmigration : (⟨change.testId, change.ruleId, change.fromMetric, change.toMetric⟩ :
      LintRatchetMetricMigration) ∈ decision.metricMigrations := by
    rw [decision_metricMigrations hd]
    exact List.mem_map_of_mem h
  obtain ⟨reason, hmem⟩ := @recorded_metricMigration _ options decision _ hmigration
  rw [accountsForMetricChange, List.any_eq_true]
  exact ⟨_, hmem, by simp [buildLintRatchetMetricMigrationLogEntry]⟩

theorem coverageShrink_recorded
    (hd : decideLintRatchetUpdate committed generated ratchets options = some decision)
    (ha : decision.allowed = true) {diff : CoverageShrinkDiff}
    (h : diff ∈ collectCoverageShrinkDiffs committed generated) :
    unaccountedCoverageShrink diff (debtLogEntriesForUpdate (some decision) options) = none := by
  obtain ⟨-, hshrinks, -⟩ := (decision_allowed hd).1 ha
  have hworse : options.allowWorse = true := hshrinks.resolve_right (List.ne_nil_of_mem h)
  have hshrink : (⟨diff.testId, diff.ruleId, diff.previousFiles, diff.currentFiles,
      diff.previousIgnores, diff.currentIgnores, diff.removedPaths⟩ : LintRatchetCoverageShrink) ∈
        decision.coverageShrinks := by
    rw [decision_coverageShrinks hd]
    exact List.mem_map_of_mem h
  have hentry := recorded_coverageShrink hworse hshrink
  rw [unaccountedCoverageShrink]
  rw [if_pos]
  refine List.filter_eq_nil_iff.2 fun path hpath => ?_
  rw [decide_eq_true_eq, not_not, List.mem_flatMap]
  refine ⟨buildLintRatchetCoverageShrinkLogEntry ⟨diff.testId, diff.ruleId, diff.previousFiles,
    diff.currentFiles, diff.previousIgnores, diff.currentIgnores, diff.removedPaths⟩
    (trim (options.reason.getD [])), List.mem_flatMap.2 ⟨_, hentry, ?_⟩, hpath⟩
  simp [buildLintRatchetCoverageShrinkLogEntry]

omit [Host] in
theorem appended_empty {entries : List (LintRatchetDebtLogEntry N)} {appended : Option JsString}
    (h : appendValidatedDebtLogEntries entries [] = .ok appended) :
    (∀ entry ∈ entries, (parseLintRatchetDebtLogEntry (debtLogEntryJson entry)).isSome = true) ∧
      appended.getD [] = if entries = [] then [] else debtLogBatch entries := by
  obtain ⟨hvalid, rfl⟩ := appendValidatedDebtLogEntries_ok.1 h
  refine ⟨hvalid, ?_⟩
  have hbatch : ¬ debtLogBatch entries <:+ [] := by simp [debtLogBatch]
  by_cases hnil : entries = []
  · rw [if_pos (.inl hnil), if_pos hnil, Option.getD_none]
  · rw [if_neg (by simp [hnil, hbatch]), if_neg hnil]
    rfl

/-- The records that an allowed update appends, read back, account for every change of a ratchet. -/
theorem collectUnaccountedLifecycleChanges_recorded {w : LintRatchetWorkflowVocabulary}
    {appended : Option JsString} (hc : Accepted w committed) (hfrom : BuiltFrom ratchets generated)
    (hd : decideLintRatchetUpdate committed generated ratchets options = some decision)
    (ha : decision.allowed = true) (hbuilt : OptionsBuilt options)
    (happend : appendValidatedDebtLogEntries (debtLogEntriesForUpdate (some decision) options) [] =
      .ok appended) (label : JsString) :
    ∃ records, parseDebtLogJsonl (appended.getD []) label = .ok records ∧
      collectUnaccountedLifecycleChanges committed generated records = [] := by
  obtain ⟨hvalid, htext⟩ := appended_empty happend
  have hread : parseDebtLogJsonl (appended.getD []) label =
      .ok (debtLogEntriesForUpdate (some decision) options) := by
    rw [htext]
    split_ifs with hnil
    · rw [hnil]
      rfl
    · exact parseDebtLogJsonl_batch hnil (fun entry hentry =>
        ⟨entriesBuilt_of_decision hd hbuilt entry hentry, hvalid entry hentry⟩) label
  refine ⟨_, hread, ?_⟩
  rw [collectUnaccountedLifecycleChanges]
  simp only [List.append_eq_nil_iff, List.filterMap_eq_nil_iff, Prod.forall]
  refine ⟨⟨fun testId b h => ?_, fun change h => ?_⟩, fun diff h => coverageShrink_recorded hd ha h⟩
  · rw [if_pos (missingRatchet_recorded hc hfrom hd ha h)]
  · rw [if_pos (metricChange_recorded hd h)]

end

/-- A ratchet over one file turns from counting messages to counting lines. -/
def migrationOptions : LintRatchetUpdateOptions Numeral :=
  { allowWorse := false, workflowVocabulary := plainVocabulary, migrationReason := some (js "ok") }

def migrationEntry : LintRatchetDebtLogEntry Numeral :=
  .metricMigration
    { reason := js "ok", ratchetId := js "ratchet/one", fromMetric := .messageCount
      toMetric := .effectiveLineCount }

theorem collectUnaccountedLifecycleChanges_recorded_migration :
    let committed := oneFile .messageCount { count := 1 }
    let generated := oneFile .effectiveLineCount { count := 1, lines := some 9 }
    ∃ records, parseDebtLogJsonl (debtLogBatch [migrationEntry]) defaultDebtLogFilename =
        .ok records ∧
      collectUnaccountedLifecycleChanges committed generated records = [] := by
  intro committed generated
  let decide' := decideLintRatchetUpdate committed generated [oneFileRatchet .effectiveLineCount]
    migrationOptions
  have hsome : decide'.isSome = true := by decide +kernel
  obtain ⟨decision, hd⟩ := Option.isSome_iff_exists.1 hsome
  have hdecided : decide'.map (fun decision => (decision.allowed, debtLogEntriesForUpdate
      (some decision) migrationOptions)) = some (true, [migrationEntry]) := by decide +kernel
  rw [hd, Option.map_some, Option.some.injEq, Prod.mk.injEq] at hdecided
  have happend : appendValidatedDebtLogEntries (debtLogEntriesForUpdate (some decision)
      migrationOptions) [] = .ok (some (debtLogBatch [migrationEntry])) := by
    rw [hdecided.2]
    decide +kernel
  exact collectUnaccountedLifecycleChanges_recorded
    ((oneItem_count Nat.one_pos).accepted plainVocabulary) builtFrom_oneFile hd hdecided.1
    (fun _ h => nomatch h) happend defaultDebtLogFilename

end Musi.LintRatchet
