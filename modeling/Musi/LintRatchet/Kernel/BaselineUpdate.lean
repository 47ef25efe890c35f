import Musi.LintRatchet.Kernel.BaselineCompare
import Musi.LintRatchet.Kernel.Types

namespace Musi.LintRatchet
open Musi.Js
set_option autoImplicit true

section
variable {N : Type} [Host]

/-- One glob with `dot: true`. -/
def matchesAny (path : JsString) (patterns : List JsString) : Bool :=
  patterns.any fun pattern => Host.minimatch path pattern

/-- A path is in the scope that a test's globs name. -/
def matchesRatchet (ratchet : LintRatchetBaselineGroupMeta N) (trackedFile : JsString) : Bool :=
  matchesAny trackedFile ratchet.files && !matchesAny trackedFile ratchet.ignores

def equalStrings (left right : List JsString) : Bool :=
  left.length = right.length && (left.zip right).all fun p => p.1 = p.2

structure CoverageShrinkDiff where
  testId : JsString
  ruleId : JsString
  previousFiles : List JsString
  currentFiles : List JsString
  previousIgnores : List JsString
  currentIgnores : List JsString
  removedPaths : List JsString
  deriving DecidableEq

structure MetricChangeDiff where
  testId : JsString
  ruleId : JsString
  fromMetric : LintRatchetMetric
  toMetric : LintRatchetMetric
  deriving DecidableEq

/-- The paths that left both the items and the scope of a test. The source asks whether
`current.items[path]` is undefined, which a member of Object.prototype is not. -/
def removedPaths (previous current : LintRatchetBaselineTest N) : List JsString :=
  sortStrings (previous.items.keys.filter fun path =>
    current.items.read path = .absent && !matchesRatchet current.toLintRatchetBaselineGroupMeta path)

def coverageShrinkDiff (testId : JsString) (previous current : LintRatchetBaselineTest N) :
    Option CoverageShrinkDiff :=
  if equalStrings previous.files current.files && equalStrings previous.ignores current.ignores then
    none
  else if removedPaths previous current = [] then none
  else some
    { testId, ruleId := current.ruleId, previousFiles := previous.files,
      currentFiles := current.files, previousIgnores := previous.ignores,
      currentIgnores := current.ignores, removedPaths := removedPaths previous current }

def collectCoverageShrinkDiffs (baseBaseline currentBaseline : LintRatchetBaseline N) :
    List CoverageShrinkDiff :=
  currentBaseline.tests.keys.filterMap fun testId =>
    match baseBaseline.tests.own testId, currentBaseline.tests.own testId with
    | some previous, some current => coverageShrinkDiff testId previous current
    | _, _ => none

def metricChangeDiff (testId : JsString) (previous current : LintRatchetBaselineTest N) :
    Option MetricChangeDiff :=
  if previous.metric = current.metric then none
  else some { testId, ruleId := current.ruleId, fromMetric := previous.metric,
              toMetric := current.metric }

def collectMetricChangeDiffs (baseBaseline currentBaseline : LintRatchetBaseline N) :
    List MetricChangeDiff :=
  currentBaseline.tests.keys.filterMap fun testId =>
    match baseBaseline.tests.own testId, currentBaseline.tests.own testId with
    | some previous, some current => metricChangeDiff testId previous current
    | _, _ => none

omit [Host] in
@[simp] theorem equalStrings_iff {left right : List JsString} :
    equalStrings left right = true ↔ left = right := by
  rw [equalStrings, Bool.and_eq_true, decide_eq_true_eq]
  constructor
  · rintro ⟨hl, hall⟩
    induction left generalizing right with
    | nil => simpa using hl.symm
    | cons a left ih =>
      cases right with
      | nil => simp at hl
      | cons b right =>
        rw [List.zip_cons_cons, List.all_cons, Bool.and_eq_true, decide_eq_true_eq] at hall
        exact List.cons_eq_cons.2 ⟨hall.1, ih (by simpa using hl) hall.2⟩
  · rintro rfl
    refine ⟨rfl, ?_⟩
    induction left with
    | nil => rfl
    | cons a left ih => simpa using ih

/-- A path leaves coverage when the globs changed, it has no item left and they miss it. -/
structure LeavesCoverage (previous current : LintRatchetBaselineTest N) (path : JsString) : Prop where
  globs : previous.files ≠ current.files ∨ previous.ignores ≠ current.ignores
  previous : path ∈ previous.items.keys
  absent : current.items.read path = .absent
  unmatched : matchesRatchet current.toLintRatchetBaselineGroupMeta path = false

theorem mem_removedPaths {previous current : LintRatchetBaselineTest N} {path : JsString} :
    path ∈ removedPaths previous current ↔ path ∈ previous.items.keys ∧
      current.items.read path = .absent ∧
        matchesRatchet current.toLintRatchetBaselineGroupMeta path = false := by
  simp [removedPaths, sortStrings]

theorem coverageShrinkDiff_none {previous current : LintRatchetBaselineTest N} :
    coverageShrinkDiff testId previous current = none ↔
      ∀ path, ¬ LeavesCoverage previous current path := by
  unfold coverageShrinkDiff
  split
  · next h =>
    simp only [Bool.and_eq_true, equalStrings_iff] at h
    simp only [true_iff]
    rintro path ⟨hg, -, -, -⟩
    exact hg.elim (· h.1) (· h.2)
  · next h =>
    simp only [Bool.and_eq_true, equalStrings_iff, not_and_or] at h
    split
    · next hr =>
      simp only [true_iff]
      rintro path ⟨-, hp, ha, hm⟩
      have := mem_removedPaths.2 ⟨hp, ha, hm⟩
      simp [hr] at this
    · next hr =>
      simp only [reduceCtorEq, false_iff, not_forall, not_not]
      obtain ⟨path, hp⟩ := List.exists_mem_of_ne_nil _ hr
      obtain ⟨hp, ha, hm⟩ := mem_removedPaths.1 hp
      exact ⟨path, h, hp, ha, hm⟩

theorem collectCoverageShrinkDiffs_nil {base current : LintRatchetBaseline N} :
    collectCoverageShrinkDiffs base current = [] ↔ ∀ testId b c,
      base.tests.own testId = some b → current.tests.own testId = some c →
        ∀ path, ¬ LeavesCoverage b c path := by
  rw [collectCoverageShrinkDiffs, List.filterMap_eq_nil_iff]
  constructor
  · intro h testId b c hb hc
    have := h testId (Record.mem_keys.2 ⟨c, hc⟩)
    simp only [hb, hc] at this
    exact coverageShrinkDiff_none.1 this
  · intro h testId _
    cases hb : base.tests.own testId with
    | none => rfl
    | some b =>
      cases hc : current.tests.own testId with
      | none => rfl
      | some c => exact coverageShrinkDiff_none.2 (h testId b c hb hc)

omit [Host] in
theorem mem_collectMetricChangeDiffs {base current : LintRatchetBaseline N} {d : MetricChangeDiff} :
    d ∈ collectMetricChangeDiffs base current ↔ ∃ b c, base.tests.own d.testId = some b ∧
      current.tests.own d.testId = some c ∧ b.metric ≠ c.metric ∧ d.ruleId = c.ruleId ∧
        d.fromMetric = b.metric ∧ d.toMetric = c.metric := by
  simp only [collectMetricChangeDiffs, List.mem_filterMap]
  constructor
  · rintro ⟨testId, -, h⟩
    split at h
    · next b c hb hc =>
      unfold metricChangeDiff at h
      split at h
      · cases h
      · next hne =>
        cases h
        exact ⟨b, c, hb, hc, hne, rfl, rfl, rfl⟩
    · cases h
  · rintro ⟨b, c, hb, hc, hne, hr, hf, ht⟩
    refine ⟨d.testId, Record.mem_keys.2 ⟨c, hc⟩, ?_⟩
    simp only [hb, hc, metricChangeDiff, if_neg hne]
    rw [← hr, ← hf, ← ht]

end

section
variable {N : Type} [JsNumber N] [Host]

/-! ## Reasons -/

/-- RATCHET_REGRESSION_REASON_PLACEHOLDER -/
def regressionReasonPlaceholder : JsString :=
  js "<why accepting this baseline increase is better than forcing a low-quality fix now>"

/-- No other character lower-cases to a letter of the prefix, so the ASCII mapping decides. -/
def isRatchetRegressionReasonPlaceholder (reason : JsString) : Bool :=
  trim reason = regressionReasonPlaceholder || startsWith ((trim reason).map asciiLower) (js "<why")

def ratchetRegressionReasonFailure (reason : JsString) : Option JsString :=
  if trim reason = [] then some (js "--allow-worse requires a non-empty --reason")
  else if isRatchetRegressionReasonPlaceholder (trim reason) then
    some (js "--allow-worse requires a real --reason, not the placeholder")
  else none

def allowWorseReasonSuffix (leadIn : JsString) : JsString :=
  leadIn ++ js " --allow-worse --reason \"" ++ regressionReasonPlaceholder ++ js "\""

/-! ## Options and decision -/

structure LintRatchetRetirementOptionsAttestation (N : Type) where
  reason : JsString
  ratchetOptions : List (Json N)
  normalLintOptions : List (List (Json N))
  deriving DecidableEq

structure LintRatchetRetireRequest (N : Type) where
  id : JsString
  normalErrorProven : Bool
  optionsAttestation : Option (LintRatchetRetirementOptionsAttestation N)

structure LintRatchetUpdateOptions (N : Type) where
  allowWorse : Bool
  workflowVocabulary : LintRatchetWorkflowVocabulary
  reason : Option JsString := none
  migrationReason : Option JsString := none
  retire : Option (LintRatchetRetireRequest N) := none

structure LintRatchetOrphanBaselineItem extends LintRatchetMetricItem where
  path : JsString
  deriving DecidableEq

structure LintRatchetOrphanRemoval where
  testId : JsString
  ruleId : JsString
  metric : LintRatchetMetric
  baselineItems : List LintRatchetOrphanBaselineItem
  deriving DecidableEq

structure LintRatchetCoverageShrink where
  ratchetId : JsString
  ruleId : JsString
  previousFiles : List JsString
  currentFiles : List JsString
  previousIgnores : List JsString
  currentIgnores : List JsString
  removedPaths : List JsString
  deriving DecidableEq

structure LintRatchetMetricMigration where
  ratchetId : JsString
  ruleId : JsString
  fromMetric : LintRatchetMetric
  toMetric : LintRatchetMetric
  deriving DecidableEq

structure LintRatchetUpdateDecision (N : Type) extends LintRatchetComparison N where
  allowed : Bool
  failures : List JsString
  warnings : List JsString
  orphanRemovals : List LintRatchetOrphanRemoval
  coverageShrinks : List LintRatchetCoverageShrink
  metricMigrations : List LintRatchetMetricMigration
  retiredRatchetId : Option JsString
  retirementOptionsAttestation : Option (LintRatchetRetirementOptionsAttestation N)

/-! ## Lifecycle collectors -/

def collectCoverageShrinks (committed generated : LintRatchetBaseline N) :
    List LintRatchetCoverageShrink :=
  (collectCoverageShrinkDiffs committed generated).map fun diff =>
    { ratchetId := diff.testId, ruleId := diff.ruleId, previousFiles := diff.previousFiles,
      currentFiles := diff.currentFiles, previousIgnores := diff.previousIgnores,
      currentIgnores := diff.currentIgnores, removedPaths := diff.removedPaths }

def collectMetricMigrations (committed generated : LintRatchetBaseline N) :
    List LintRatchetMetricMigration :=
  (collectMetricChangeDiffs committed generated).map fun change =>
    { ratchetId := change.testId, ruleId := change.ruleId, fromMetric := change.fromMetric,
      toMetric := change.toMetric }

/-- COUNT_COMPARABLE_REGRESSION_REASONS -/
def countComparableRegressionReasons : List RegressionReason := [.newPath, .increasedCount]

/-- COUNT_COMPARABLE_IMPROVEMENT_REASONS -/
def countComparableImprovementReasons : List ImprovementReason := [.removedPath, .lowerCount]

/-- For a migrated ratchet only the deltas of the count survive. -/
def excludeIncomparableMigratedDeltas (comparison : LintRatchetComparison N)
    (migratedIds : List JsString) : LintRatchetComparison N where
  regressions := comparison.regressions.filter fun r =>
    r.testId ∉ migratedIds || r.reason ∈ countComparableRegressionReasons
  improvements := comparison.improvements.filter fun i =>
    i.testId ∉ migratedIds || i.reason ∈ countComparableImprovementReasons
  infos := comparison.infos.filter fun i => i.testId ∉ migratedIds

def metricMigrationFailure (metricMigrations : List LintRatchetMetricMigration)
    (options : LintRatchetUpdateOptions N) : Option JsString :=
  if metricMigrations = [] then none
  else
    let reason := trim ((options.migrationReason.or options.reason).getD [])
    if reason ≠ [] && !isRatchetRegressionReasonPlaceholder reason then none
    else
      let flag := if options.migrationReason.isNone then js "--reason" else js "--migration-reason"
      let changes := join (js ", ") (metricMigrations.map fun migration =>
        migration.ratchetId ++ js " (" ++ migration.fromMetric.text ++ js " → " ++
          migration.toMetric.text ++ js ")")
      some (js "changing a ratchet metric for " ++ changes ++ js " needs " ++ flag ++
        js " \"<why the new metric is the right measure>\" so the migration is recorded in the " ++
        js "debt log; per-path values are not comparable across metrics")

/-! ## Warnings -/

structure ZeroToNonzeroTransition where
  testId : JsString
  ruleId : JsString
  newPaths : List (JsString × Nat)

def detectZeroToNonzeroTransitions (committed generated : LintRatchetBaseline N) :
    List ZeroToNonzeroTransition :=
  generated.tests.entries.filterMap fun (testId, genTest) =>
    match committed.tests.own testId with
    | none => none
    | some committedTest =>
      let generatedPaths := sortBy (fun a b => Host.localeCompare a.1 b.1)
        (genTest.items.entries.map fun e => (e.1, e.2.count))
      if committedTest.items.keys = [] && generatedPaths ≠ [] then
        some { testId, ruleId := genTest.ruleId, newPaths := generatedPaths }
      else none

def formatZeroToNonzeroWarnings (N : Type) [JsNumber N] (transitions : List ZeroToNonzeroTransition) :
    List JsString :=
  transitions.map fun t =>
    js "lint:ratchet:update accepted new findings for a previously clean ratchet " ++
    t.testId ++ js " (rule: " ++ t.ruleId ++ js "): " ++ numberText N t.newPaths.length ++
    js " path(s) — " ++ join (js ", ") (t.newPaths.map fun entry =>
      entry.1 ++ js ": " ++ numberText N entry.2) ++ js ". " ++
    js "Inspect these paths before committing; fix accidental findings instead of baselining them."

/-! ## Orphans and retirement -/

def orphanBaselineItems (test : LintRatchetBaselineTest N) : List LintRatchetOrphanBaselineItem :=
  sortBy (fun a b => compareByCodepoint a.path b.path)
    (test.items.entries.map fun e => { e.2 with path := e.1 })

def collectOrphanRemovals (committed : LintRatchetBaseline N)
    (ratchets : List (LintRatchetConfig N)) : List LintRatchetOrphanRemoval :=
  (sortStrings committed.tests.keys).filterMap fun testId =>
    if testId ∈ ratchets.map (·.id) then none
    else (committed.tests.own testId).map fun test =>
      { testId, ruleId := test.ruleId, metric := test.metric,
        baselineItems := orphanBaselineItems test }

def formatOrphanFailure (N : Type) [JsNumber N] (orphanRemovals : List LintRatchetOrphanRemoval) :
    Option JsString :=
  if orphanRemovals = [] then none
  else
    let orphanIds := orphanRemovals.map (·.testId)
    some (js "committed baseline carries " ++ numberText N orphanIds.length ++ js " entr" ++
      (if orphanIds.length = 1 then js "y" else js "ies") ++ js " " ++
      js "with no matching registry id (" ++ join (js ", ") orphanIds ++ js "); " ++
      js "this looks like a rename or removal — " ++ allowWorseReasonSuffix (js "pass") ++ js " " ++
      js "so count protection is not bypassed silently")

def orphanFindingTotal (orphan : LintRatchetOrphanRemoval) : Nat :=
  orphan.baselineItems.foldl (fun total item => total + item.count) 0

structure RetireResolution (N : Type) where
  retiredRatchetId : Option JsString := none
  optionsAttestation : Option (LintRatchetRetirementOptionsAttestation N) := none
  failure : Option JsString := none

def resolveRetire (retire : LintRatchetRetireRequest N)
    (orphanRemovals : List LintRatchetOrphanRemoval) : RetireResolution N :=
  match orphanRemovals.find? fun removal => removal.testId = retire.id with
  | none =>
    { failure := some (js "--retire-ratchet " ++ retire.id ++ js " requires " ++ retire.id ++
        js " to be an orphaned committed " ++
        js "baseline entry (an id removed from the registry); no such entry was found") }
  | some orphan =>
    if orphanFindingTotal orphan > 0 then
      { failure := some (js "--retire-ratchet " ++ retire.id ++
          js " only retires a zero-finding orphan; " ++ retire.id ++ js " still " ++
          js "carries " ++ numberText N (orphanFindingTotal orphan) ++
          js " finding(s) — drain or " ++ allowWorseReasonSuffix (js "accept them with") ++
          js " instead") }
    else if !retire.normalErrorProven then
      { failure := some (js "--retire-ratchet " ++ retire.id ++
          js " requires proof the rule was promoted: normal lint must " ++
          js "error on the retired scope. It does not, so the guard may have been dropped without a " ++
          js "replacement — " ++ allowWorseReasonSuffix (js "accept the removal with") ++
          js " instead") }
    else { retiredRatchetId := some retire.id, optionsAttestation := retire.optionsAttestation }

/-- The orphans left after a proven retirement. -/
def accountableOrphans (allOrphanRemovals : List LintRatchetOrphanRemoval)
    (retiredRatchetId : Option JsString) : List LintRatchetOrphanRemoval :=
  match retiredRatchetId with
  | none => allOrphanRemovals
  | some id => allOrphanRemovals.filter fun removal => removal.testId ≠ id

/-! ## The gate -/

def coverageShrinkFailure (coverageShrinks : List LintRatchetCoverageShrink)
    (options : LintRatchetUpdateOptions N) : Option JsString :=
  if options.allowWorse || coverageShrinks = [] then none
  else some (js "registry glob changes cause a coverage shrink for " ++
    numberText N coverageShrinks.length ++ js " ratchet(s): " ++
    join (js "; ") (coverageShrinks.map fun shrink =>
      shrink.ratchetId ++ js " (" ++ join (js ", ") shrink.removedPaths ++ js ")") ++ js "; " ++
    allowWorseReasonSuffix (js "pass") ++ js " to accept and record the removed coverage")

def regressionFailure (comparison : LintRatchetComparison N) (options : LintRatchetUpdateOptions N) :
    Option JsString :=
  if options.allowWorse || comparison.regressions.isEmpty then none
  else some (js "generated baseline is worse for " ++
    numberText N comparison.regressions.length ++ js " path(s); " ++
    allowWorseReasonSuffix (js "pass") ++ js " to accept intentional new debt")

def reasonFailure (options : LintRatchetUpdateOptions N) : Option JsString :=
  if options.allowWorse then ratchetRegressionReasonFailure (trim (options.reason.getD [])) else none

/-- The retire request of the options against the orphans of the committed baseline. -/
def retireResolution (committed : LintRatchetBaseline N) (ratchets : List (LintRatchetConfig N))
    (options : LintRatchetUpdateOptions N) : RetireResolution N :=
  match options.retire with
  | none => {}
  | some retire => resolveRetire retire (collectOrphanRemovals committed ratchets)

/-- The failures of the gate, in order, and the orphans that stay accountable. -/
def collectUpdateGate (committed generated : LintRatchetBaseline N)
    (ratchets : List (LintRatchetConfig N)) (comparison : LintRatchetComparison N)
    (options : LintRatchetUpdateOptions N) : List JsString × List LintRatchetOrphanRemoval :=
  let retire := retireResolution committed ratchets options
  let orphanRemovals :=
    accountableOrphans (collectOrphanRemovals committed ratchets) retire.retiredRatchetId
  ([regressionFailure comparison options,
    coverageShrinkFailure (collectCoverageShrinks committed generated) options,
    metricMigrationFailure (collectMetricMigrations committed generated) options,
    retire.failure,
    if options.allowWorse then none else formatOrphanFailure N orphanRemovals,
    reasonFailure options].filterMap id, orphanRemovals)

/-- The comparison of an update: what a metric change makes incomparable is left out. -/
def updateComparison (committed generated : LintRatchetBaseline N)
    (ratchets : List (LintRatchetConfig N)) (workflowVocabulary : LintRatchetWorkflowVocabulary) :
    Option (LintRatchetComparison N) :=
  (compareCurrentToBaseline committed ratchets (currentByIdFromBaseline generated)
    workflowVocabulary).map fun comparison =>
      excludeIncomparableMigratedDeltas comparison
        ((collectMetricMigrations committed generated).map (·.ratchetId))

def decideLintRatchetUpdate (committed generated : LintRatchetBaseline N)
    (ratchets : List (LintRatchetConfig N)) (options : LintRatchetUpdateOptions N) :
    Option (LintRatchetUpdateDecision N) :=
  (updateComparison committed generated ratchets options.workflowVocabulary).map fun comparison =>
    let gate := collectUpdateGate committed generated ratchets comparison options
    let retire := retireResolution committed ratchets options
    let allowed := gate.1 = []
    { comparison with
      allowed
      failures := gate.1
      warnings := formatZeroToNonzeroWarnings N (detectZeroToNonzeroTransitions committed generated)
      orphanRemovals := gate.2
      coverageShrinks := collectCoverageShrinks committed generated
      metricMigrations := collectMetricMigrations committed generated
      retiredRatchetId := if allowed then retire.retiredRatchetId else none
      retirementOptionsAttestation :=
        if allowed && retire.retiredRatchetId.isSome then retire.optionsAttestation else none }

end

end Musi.LintRatchet
