import Musi.LintRatchet.Governance.DebtLog

namespace Musi.LintRatchet
open Musi.Js
set_option autoImplicit true

variable {N : Type} [JsNumber N] [Host]

/-! ## Increases -/

inductive BaselineDebtIncreaseKind where
  | newPath
  | count
  | lines
  | complexity
  deriving DecidableEq

structure BaselineDebtIncrease where
  testId : JsString
  ruleId : JsString
  path : JsString
  kind : BaselineDebtIncreaseKind
  previousCount : Option Nat
  currentCount : Nat
  previousLines : Option ℕ∞ := none
  currentLines : Option ℕ∞ := none
  previousComplexity : Option Nat := none
  currentComplexity : Option Nat := none
  deriving DecidableEq

/-- What the accounting reads of a base item; undefined is `none`. -/
structure BaseItemFields where
  count : Option Nat := none
  lines : Option ℕ∞ := none
  maxComplexity : Option Nat := none

/-- The base item that a property read gives; a member of Object.prototype has none of the
fields. -/
def baseItemFields : Property LintRatchetMetricItem → Option BaseItemFields
  | .own item =>
    some { count := some item.count, lines := item.lines, maxComplexity := item.maxComplexity }
  | .inherited => some {}
  | .absent => none

structure ItemIncreaseContext where
  testId : JsString
  ruleId : JsString
  path : JsString
  baseItem : BaseItemFields
  currentItem : LintRatchetMetricItem

/-- `current <= previous`, which undefined never satisfies. -/
def notAbove {α : Type} [LE α] [DecidableLE α] (current : α) (previous : Option α) : Bool :=
  previous.any fun previous => current ≤ previous

def countIncrease (context : ItemIncreaseContext) : Option BaselineDebtIncrease :=
  if notAbove context.currentItem.count context.baseItem.count then none
  else some
    { testId := context.testId, ruleId := context.ruleId, path := context.path, kind := .count,
      previousCount := context.baseItem.count, currentCount := context.currentItem.count }

def lineIncrease (context : ItemIncreaseContext) : Option BaselineDebtIncrease :=
  match context.currentItem.lines with
  | none => none
  | some lines =>
    if notAbove lines context.baseItem.lines then none
    else some
      { testId := context.testId, ruleId := context.ruleId, path := context.path, kind := .lines,
        previousCount := context.baseItem.count, currentCount := context.currentItem.count,
        previousLines := context.baseItem.lines, currentLines := some lines }

def complexityIncrease (context : ItemIncreaseContext) : Option BaselineDebtIncrease :=
  match context.currentItem.maxComplexity with
  | none => none
  | some maxComplexity =>
    if notAbove maxComplexity context.baseItem.maxComplexity then none
    else some
      { testId := context.testId, ruleId := context.ruleId, path := context.path,
        kind := .complexity, previousCount := context.baseItem.count,
        currentCount := context.currentItem.count,
        previousComplexity := context.baseItem.maxComplexity,
        currentComplexity := some maxComplexity }

def newPathIncrease (testId ruleId path : JsString) (currentItem : LintRatchetMetricItem) :
    BaselineDebtIncrease :=
  { testId, ruleId, path, kind := .newPath, previousCount := some 0,
    currentCount := currentItem.count }

def collectItemIncreases (context : ItemIncreaseContext) : Option BaselineDebtIncrease :=
  (lineIncrease context).or <| (complexityIncrease context).or <| countIncrease context

def collectItemIncreasesForMetric (context : ItemIncreaseContext) (metricsMatch : Bool) :
    Option BaselineDebtIncrease :=
  if metricsMatch then collectItemIncreases context else countIncrease context

/-- The increase at one path of the current items. -/
def pathIncrease (testId : JsString) (baseTest currentTest : LintRatchetBaselineTest N)
    (path : JsString) : Option BaselineDebtIncrease :=
  match currentTest.items.own path with
  | none => none
  | some currentItem =>
    match baseItemFields (baseTest.items.read path) with
    | none => some (newPathIncrease testId currentTest.ruleId path currentItem)
    | some baseItem => collectItemIncreasesForMetric
        { testId, ruleId := currentTest.ruleId, path, baseItem, currentItem }
        (currentTest.metric = baseTest.metric)

def collectBaselineIncreases (baseBaseline currentBaseline : LintRatchetBaseline N) :
    List BaselineDebtIncrease :=
  (sortStrings currentBaseline.tests.keys).flatMap fun testId =>
    match currentBaseline.tests.own testId, baseBaseline.tests.own testId with
    | some currentTest, some baseTest =>
      (sortStrings currentTest.items.keys).filterMap (pathIncrease testId baseTest currentTest)
    | _, _ => []

/-! ## Chains of recorded regressions -/

def matchingRegressions (increase : BaselineDebtIncrease) (entries : List (LintRatchetDebtLogEntry N)) :
    List (LintRatchetRegression N) :=
  entries.flatMap fun
    | .acceptedDebt entry => entry.regressions.filter fun regression =>
        regression.testId = increase.testId && regression.ruleId = increase.ruleId &&
          regression.path = increase.path
    | .retirement _ | .metricMigration _ | .coverageShrink _ => []

def isNextCountTransition (regression : LintRatchetRegression N) (count : Option Nat)
    (expectedReason : RegressionReason) : Bool :=
  regression.reason = expectedReason && some regression.baselineCount = count &&
    regression.currentCount > regression.baselineCount

/-- One round of the count chain over its count and whether a new path was seen. -/
def countChainStep (state : Option Nat × Bool) (regression : LintRatchetRegression N) :
    Option Nat × Bool :=
  if !state.2 && isNextCountTransition regression state.1 .newPath then
    (some regression.currentCount, true)
  else if state.2 && isNextCountTransition regression state.1 .increasedCount then
    (some regression.currentCount, state.2)
  else state

def countChainAccountsForIncrease (increase : BaselineDebtIncrease)
    (regressions : List (LintRatchetRegression N)) : Bool :=
  let final := regressions.foldl countChainStep
    (increase.previousCount, decide (increase.kind ≠ .newPath))
  final.2 && final.1 = some increase.currentCount

/-- One round of a chain on a severity axis: the value reached and the count recorded with it. -/
def severityChainStep {α : Type} [DecidableEq α] [LT α] [DecidableLT α] (reason : RegressionReason)
    (before after : LintRatchetRegression N → Option α) (state : α × Option Nat)
    (regression : LintRatchetRegression N) : α × Option Nat :=
  match before regression, after regression with
  | some baseline, some current =>
    if regression.reason = reason && baseline = state.1 && current > baseline then
      (current, some regression.currentCount)
    else state
  | _, _ => state

/-- A chain on a severity axis from one value to another that ends on the current count. -/
def severityChainAccountsForIncrease {α : Type} [DecidableEq α] [LT α] [DecidableLT α]
    (reason : RegressionReason) (before after : LintRatchetRegression N → Option α)
    (previous current : Option α) (currentCount : Nat) (regressions : List (LintRatchetRegression N)) :
    Bool :=
  match previous, current with
  | some previous, some current =>
    let final := regressions.foldl (severityChainStep reason before after) (previous, none)
    final.1 = current && final.2 = some currentCount
  | _, _ => false

def lineChainAccountsForIncrease (increase : BaselineDebtIncrease)
    (regressions : List (LintRatchetRegression N)) : Bool :=
  severityChainAccountsForIncrease .increasedLines (·.baselineLines) (·.currentLines)
    increase.previousLines increase.currentLines increase.currentCount regressions

def complexityChainAccountsForIncrease (increase : BaselineDebtIncrease)
    (regressions : List (LintRatchetRegression N)) : Bool :=
  severityChainAccountsForIncrease .increasedComplexity (·.baselineComplexity) (·.currentComplexity)
    increase.previousComplexity increase.currentComplexity increase.currentCount regressions

def hasAccountingEntry (increase : BaselineDebtIncrease) (entries : List (LintRatchetDebtLogEntry N)) :
    Bool :=
  let regressions := matchingRegressions increase entries
  match increase.kind with
  | .lines => lineChainAccountsForIncrease increase regressions
  | .complexity => complexityChainAccountsForIncrease increase regressions
  | .newPath | .count => countChainAccountsForIncrease increase regressions

/-! ## Lifecycle changes -/

inductive LifecycleAccountingFailure where
  | missingRatchet (testId ruleId : JsString)
  | metricChange (testId ruleId : JsString) (previousMetric currentMetric : LintRatchetMetric)
  | coverageShrink (diff : CoverageShrinkDiff) (unaccountedPaths : List JsString)
      (hasShrinkRecords : Bool)
  deriving DecidableEq

/-- The ratchets of the base that the current baseline has not, with their tests. -/
def collectMissingRatchets (baseBaseline currentBaseline : LintRatchetBaseline N) :
    Entries (LintRatchetBaselineTest N) :=
  baseBaseline.tests.entries.filter fun e => (currentBaseline.tests.own e.1).isNone

/-- The items of an orphan record in path order, as serialized. -/
def orphanItemsText (N : Type) [JsNumber N] (items : List LintRatchetOrphanBaselineItem) : JsString :=
  stringify (N := N) (.arr
    ((sortBy (fun a b => compareByCodepoint a.path b.path) items).map orphanItemJson))

def orphanMatchesRemovedBaseline (orphan : LintRatchetOrphanRemoval) (testId : JsString)
    (baseTest : LintRatchetBaselineTest N) : Bool :=
  if orphan.testId ≠ testId || orphan.ruleId ≠ baseTest.ruleId || orphan.metric ≠ baseTest.metric then
    false
  else
    orphanItemsText N orphan.baselineItems =
      orphanItemsText N (baseTest.items.entries.map fun e => { e.2 with path := e.1 })

def accountsForMissingRatchet (testId : JsString) (baseTest : LintRatchetBaselineTest N)
    (entries : List (LintRatchetDebtLogEntry N)) : Bool :=
  entries.any fun
    | .retirement entry => entry.ratchetId = testId && baseTest.items.keys = []
    | .acceptedDebt entry => entry.orphansRemoved.any fun orphan =>
        orphanMatchesRemovedBaseline orphan testId baseTest
    | .coverageShrink _ | .metricMigration _ => false

def accountsForMetricChange (change : MetricChangeDiff)
    (entries : List (LintRatchetDebtLogEntry N)) : Bool :=
  entries.any fun
    | .metricMigration entry => entry.ratchetId = change.testId &&
        entry.fromMetric = change.fromMetric && entry.toMetric = change.toMetric
    | .acceptedDebt _ | .coverageShrink _ | .retirement _ => false

def unaccountedCoverageShrink (diff : CoverageShrinkDiff)
    (entries : List (LintRatchetDebtLogEntry N)) : Option LifecycleAccountingFailure :=
  let shrinkEntries : List LintRatchetCoverageShrinkLogEntry := entries.flatMap fun
    | .coverageShrink entry => if entry.ratchetId = diff.testId then [entry] else []
    | .acceptedDebt _ | .metricMigration _ | .retirement _ => []
  let recordedPaths := shrinkEntries.flatMap (·.removedPaths)
  let unaccountedPaths := diff.removedPaths.filter fun path => path ∉ recordedPaths
  if unaccountedPaths = [] then none
  else some (.coverageShrink diff unaccountedPaths (!shrinkEntries.isEmpty))

def collectUnaccountedLifecycleChanges (baseBaseline currentBaseline : LintRatchetBaseline N)
    (entries : List (LintRatchetDebtLogEntry N)) : List LifecycleAccountingFailure :=
  ((collectMissingRatchets baseBaseline currentBaseline).filterMap fun e =>
    if accountsForMissingRatchet e.1 e.2 entries then none
    else some (.missingRatchet e.1 e.2.ruleId)) ++
  ((collectMetricChangeDiffs baseBaseline currentBaseline).filterMap fun change =>
    if accountsForMetricChange change entries then none
    else some (.metricChange change.testId change.ruleId change.fromMetric change.toMetric)) ++
  (collectCoverageShrinkDiffs baseBaseline currentBaseline).filterMap fun diff =>
    unaccountedCoverageShrink diff entries

/-! ## The accounting gate -/

inductive BaselineDebtAccountingFailure where
  | increase (increase : BaselineDebtIncrease)
  | lifecycle (failure : LifecycleAccountingFailure)
  deriving DecidableEq

structure BaselineDebtAccountingResult where
  increases : List BaselineDebtIncrease
  failures : List BaselineDebtAccountingFailure
  deriving DecidableEq

structure BaselineDebtAccountingOptions where
  baseBaselineText : JsString
  currentBaselineText : JsString
  baseDebtLogText : JsString
  currentDebtLogText : JsString
  baselineDisplayName : Option JsString := none
  debtLogDisplayName : Option JsString := none
  workflowVocabulary : LintRatchetWorkflowVocabulary

def parseAccountedBaseline (label text : JsString) (options : BaselineDebtAccountingOptions) :
    Except JsString (LintRatchetBaseline N) :=
  match parseLintRatchetBaselineStructure text options.workflowVocabulary defaultVersionPolicy
      (options.baselineDisplayName.getD defaultBaselineFilename) with
  | .ok baseline => .ok baseline
  | .error failures => .error (label ++ js " is not a valid lint-ratchet baseline:\n" ++
      join [0x0A] failures)

/-- `appendedText.replace(/^\r?\n/u, "")` -/
def dropLeadingNewline : JsString → JsString
  | 0x0A :: rest => rest
  | 0x0D :: 0x0A :: rest => rest
  | text => text

/-- The part of the current log after the base log, which must be its exact prefix. A base that
lacks its last newline is terminated by the appended text. -/
def appendedDebtLogText (baseDebtLogText currentDebtLogText debtLogName : JsString) :
    Except JsString JsString :=
  if startsWith currentDebtLogText baseDebtLogText then
    let appendedText := currentDebtLogText.drop baseDebtLogText.length
    .ok (if baseDebtLogText ≠ [] && !endsWith baseDebtLogText [0x0A] then
      dropLeadingNewline appendedText else appendedText)
  else .error (debtLogName ++ js " must be append-only: current content does not preserve the base file as an exact prefix. Restore historical lines and append new accepted-debt entries at the end.")

def addedDebtLogEntries (baseDebtLogText currentDebtLogText debtLogName : JsString) :
    Except JsString (List (LintRatchetDebtLogEntry N)) :=
  match (parseDebtLogJsonl baseDebtLogText (debtLogName ++ js " at base") :
      Except JsString (List (LintRatchetDebtLogEntry N))) with
  | .error message => .error message
  | .ok _ =>
    match appendedDebtLogText baseDebtLogText currentDebtLogText debtLogName with
    | .error message => .error message
    | .ok appendedText => parseDebtLogJsonl appendedText (debtLogName ++ js " appended entries")

/-- The verdict on two parsed baselines and the entries added between them. -/
def accountingResult (baseBaseline currentBaseline : LintRatchetBaseline N)
    (addedEntries : List (LintRatchetDebtLogEntry N)) : BaselineDebtAccountingResult :=
  let increases := collectBaselineIncreases baseBaseline currentBaseline
  { increases
    failures := (increases.filter fun increase => !hasAccountingEntry increase addedEntries).map
        .increase ++
      (collectUnaccountedLifecycleChanges baseBaseline currentBaseline addedEntries).map
        .lifecycle }

def checkBaselineDebtAccounting (N : Type) [JsNumber N] (options : BaselineDebtAccountingOptions) :
    Except JsString BaselineDebtAccountingResult :=
  let baselineName := options.baselineDisplayName.getD defaultBaselineFilename
  let debtLogName := options.debtLogDisplayName.getD defaultDebtLogFilename
  match (parseAccountedBaseline (baselineName ++ js " at base") options.baseBaselineText options :
      Except JsString (LintRatchetBaseline N)) with
  | .error message => .error message
  | .ok baseBaseline =>
    match (parseAccountedBaseline baselineName options.currentBaselineText options :
        Except JsString (LintRatchetBaseline N)) with
    | .error message => .error message
    | .ok currentBaseline =>
      match addedDebtLogEntries options.baseDebtLogText options.currentDebtLogText debtLogName with
      | .error message => .error message
      | .ok addedEntries => .ok (accountingResult baseBaseline currentBaseline addedEntries)

end Musi.LintRatchet
