import Musi.LintRatchet.Kernel.BaselineHash
import Musi.LintRatchet.Kernel.MetricsComplexity

namespace Musi.LintRatchet
open Musi.Js
set_option autoImplicit true

section
variable {N : Type} [JsNumber N]

structure MetricItemComparisonContext (N : Type) where
  ratchet : LintRatchetConfig N
  path : JsString
  baselineItem : Option LintRatchetMetricItem
  current : LintRatchetCurrentItem N

structure MetricItemComparison (N : Type) where
  regression : Option (LintRatchetRegression N) := none
  improvement : Option LintRatchetImprovement := none
  info : Option LintRatchetInfo := none

/-- The optional fields a comparison adds to a regression. -/
structure NewPathPayload (N : Type) where
  currentComplexity : Option Nat := none
  currentLines : Option ℕ∞ := none
  firstMessage : Option JsString := none
  firstMessageId : Option JsString := none
  line : Option N := none

def linePayload (line : Option N) : NewPathPayload N := { line }

def MetricItemComparisonContext.baselineCount (context : MetricItemComparisonContext N) : Nat :=
  (context.baselineItem.map (·.count)).getD 0

/-- A message id is carried only next to its message. -/
def messageContextPayload (context : MetricItemComparisonContext N) : NewPathPayload N :=
  match context.current.firstMessage with
  | none => {}
  | some firstMessage =>
    { firstMessage := some firstMessage, firstMessageId := context.current.firstMessageId }

def highestComplexityFunction (current : LintRatchetCurrentItem N) :
    Option LintRatchetComplexityFunction :=
  match current.perFunction with
  | none => none
  | some fs => fs.foldl (fun best entry => match best with
    | none => some entry
    | some b => if entry.complexity > b.complexity then some entry else some b) none

/-- The fields every regression of a context starts from. -/
def regressionBase (context : MetricItemComparisonContext N) (reason : RegressionReason) :
    LintRatchetRegression N where
  testId := context.ratchet.id
  ruleId := context.ratchet.ruleId
  path := context.path
  baselineCount := context.baselineCount
  currentCount := context.current.count
  reason := reason

def LintRatchetRegression.withPayload (regression : LintRatchetRegression N)
    (payload : NewPathPayload N) : LintRatchetRegression N :=
  { regression with
    currentComplexity := payload.currentComplexity, currentLines := payload.currentLines,
    firstMessage := payload.firstMessage, firstMessageId := payload.firstMessageId,
    line := payload.line }

def countIncreaseRegression (context : MetricItemComparisonContext N)
    (newPathPayload existingPathPayload : NewPathPayload N) : Option (LintRatchetRegression N) :=
  if context.current.count ≤ context.baselineCount then none
  else if context.baselineCount = 0 then
    some ((regressionBase context .newPath).withPayload newPathPayload)
  else some ((regressionBase context .increasedCount).withPayload existingPathPayload)

/-- The fields every improvement of a context starts from. -/
def improvementBase (context : MetricItemComparisonContext N) (reason : ImprovementReason) :
    LintRatchetImprovement where
  testId := context.ratchet.id
  ruleId := context.ratchet.ruleId
  path := context.path
  baselineCount := context.baselineCount
  currentCount := context.current.count
  reason := reason

def countDecreaseImprovement (context : MetricItemComparisonContext N) :
    Option LintRatchetImprovement :=
  if context.current.count ≥ context.baselineCount then none
  else some (improvementBase context .lowerCount)

def countComparison (context : MetricItemComparisonContext N)
    (newPathPayload existingPathPayload : NewPathPayload N) : Option (MetricItemComparison N) :=
  match countIncreaseRegression context newPathPayload existingPathPayload with
  | some regression => some { regression := some regression }
  | none => (countDecreaseImprovement context).map fun improvement =>
      { improvement := some improvement }

def equalCountMessageSwapInfo (context : MetricItemComparisonContext N) : Option LintRatchetInfo :=
  if context.ratchet.metric ≠ .messageCount then none
  else if context.current.count ≠ context.baselineCount then none
  else match context.baselineItem.bind (·.messagesFingerprint), context.current.messagesFingerprint with
    | some baselineFingerprint, some currentFingerprint =>
      if currentFingerprint = baselineFingerprint then none
      else some
        { testId := context.ratchet.id, ruleId := context.ratchet.ruleId, path := context.path,
          baselineCount := context.baselineCount, currentCount := context.current.count }
    | _, _ => none

def compareMessageCountItem (context : MetricItemComparisonContext N) : MetricItemComparison N :=
  let messagePayload := { messageContextPayload context with line := context.current.firstLine }
  match countComparison context messagePayload messagePayload with
  | some count => count
  | none => { info := equalCountMessageSwapInfo context }

def increasedLinesComparison (context : MetricItemComparisonContext N)
    (baselineLines currentLines : Option ℕ∞) : Option (MetricItemComparison N) :=
  match baselineLines, currentLines with
  | some baseline, some current =>
    if current ≤ baseline then none
    else some { regression := some { regressionBase context .increasedLines with
      baselineLines := some baseline, currentLines := some current,
      line := context.current.firstLine } }
  | _, _ => none

def lowerLinesComparison (context : MetricItemComparisonContext N)
    (baselineLines currentLines : Option ℕ∞) : MetricItemComparison N :=
  match baselineLines, currentLines with
  | some baseline, some current =>
    if current ≥ baseline then {}
    else { improvement := some { improvementBase context .lowerLines with
      baselineLines := some baseline, currentLines := some current } }
  | _, _ => {}

def compareEffectiveLineCountItem (context : MetricItemComparisonContext N) :
    MetricItemComparison N :=
  let baselineLines := context.baselineItem.bind (·.lines)
  let currentLines := context.current.lines
  match increasedLinesComparison context baselineLines currentLines with
  | some regression => regression
  | none =>
    (countComparison context { currentLines, line := context.current.firstLine }
      (linePayload context.current.firstLine)).getD
        (lowerLinesComparison context baselineLines currentLines)

def increasedComplexityComparison (context : MetricItemComparisonContext N)
    (change : Option ComplexityDelta) : Option (MetricItemComparison N) :=
  match change with
  | none => none
  | some delta =>
    if delta.regression then
      some { regression := some { regressionBase context .increasedComplexity with
        baselineComplexity := some delta.baselineComplexity,
        currentComplexity := some delta.currentComplexity,
        line := some (JsNumber.ofInt delta.line) } }
    else none

def lowerComplexityComparison (context : MetricItemComparisonContext N)
    (change : Option ComplexityDelta) : MetricItemComparison N :=
  match change with
  | none => {}
  | some delta => { improvement := some { improvementBase context .lowerComplexity with
      baselineComplexity := some delta.baselineComplexity,
      currentComplexity := some delta.currentComplexity } }

def compareComplexitySeverityItem [Host] (context : MetricItemComparisonContext N) :
    MetricItemComparison N :=
  let change := complexityDelta context.baselineItem context.current.toLintRatchetMetricItem
  match increasedComplexityComparison context change with
  | some regression => regression
  | none =>
    let maxEntry := highestComplexityFunction context.current
    let currentComplexity := (maxEntry.map (·.complexity)).or context.current.maxComplexity
    let line := (maxEntry.map fun entry => JsNumber.ofInt entry.line).or context.current.firstLine
    (countComparison context { currentComplexity, line }
      (linePayload context.current.firstLine)).getD (lowerComplexityComparison context change)

end

section
variable {N : Type} [JsNumber N]

/-- Two items of one count merged on the other axis: the item kept, or why none can be. -/
structure SameCountMerge where
  item : Option LintRatchetMetricItem := none
  postMergeTruthUpRequired : Bool
  failure : Option JsString := none

def deterministicMessagesFingerprint (left right : Option JsString) : Option JsString :=
  if left = right then left
  else match left, right with
    | none, right => right
    | left, none => left
    | some l, some r => if stringLess l r then some l else some r

def sortedComplexityFunctions [Host] (item : LintRatchetMetricItem) : Option ComplexityFunctions :=
  item.perFunction.map (sortBy compareComplexityFunction)

/-- The canonical committed form of an item: the gating fields of its metric. -/
def formatItem [Host] (metric : LintRatchetMetric) (item : LintRatchetMetricItem) :
    LintRatchetMetricItem :=
  match metric with
  | .messageCount => { count := item.count, messagesFingerprint := item.messagesFingerprint }
  | .effectiveLineCount => { count := item.count, lines := item.lines }
  | .complexitySeverity =>
    match sortedComplexityFunctions item, maxComplexityFor (sortedComplexityFunctions item) with
    | some perFunction, some maxComplexity =>
      { count := item.count, maxComplexity := some maxComplexity, perFunction := some perFunction }
    | _, _ => { count := item.count }

/-- metricItemForFormat delegates to the strategy. -/
def metricItemForFormat [Host] (metric : LintRatchetMetric) (item : LintRatchetMetricItem) :
    LintRatchetMetricItem := formatItem metric item

/-- A failure message when its condition holds. -/
def failWhen (bad : Bool) (message : JsString) : List JsString := if bad then [message] else []

def onlyForEffectiveLineCount (path : JsString) (item : LintRatchetMetricItem) : List JsString :=
  failWhen item.lines.isSome (path ++ js ".lines is only valid for effective-line-count")

def maxComplexityOnlyForComplexity (path : JsString) (item : LintRatchetMetricItem) :
    List JsString :=
  failWhen item.maxComplexity.isSome
    (path ++ js ".maxComplexity is only valid for complexity-severity")

def perFunctionOnlyForComplexity (path : JsString) (item : LintRatchetMetricItem) :
    List JsString :=
  failWhen item.perFunction.isSome (path ++ js ".perFunction is only valid for complexity-severity")

def onlyForMessageCount (path : JsString) (item : LintRatchetMetricItem) : List JsString :=
  failWhen item.messagesFingerprint.isSome
    (path ++ js ".messagesFingerprint is only valid for message-count")

/-- The failures that validateMetricItem appends, in order. -/
def validateMetricItem (path : JsString) (metric : LintRatchetMetric)
    (item : LintRatchetMetricItem) : List JsString :=
  match metric with
  | .messageCount =>
    onlyForEffectiveLineCount path item ++ maxComplexityOnlyForComplexity path item ++
      perFunctionOnlyForComplexity path item
  | .effectiveLineCount =>
    failWhen item.lines.isNone (path ++ js ".lines is required for effective-line-count") ++
      maxComplexityOnlyForComplexity path item ++ perFunctionOnlyForComplexity path item ++
      onlyForMessageCount path item
  | .complexitySeverity =>
    failWhen item.maxComplexity.isNone
      (path ++ js ".maxComplexity is required for complexity-severity") ++
    failWhen item.perFunction.isNone
      (path ++ js ".perFunction is required for complexity-severity") ++
    onlyForEffectiveLineCount path item ++ onlyForMessageCount path item ++
    failWhen (item.perFunction.any fun fs => fs.length ≠ item.count)
      (path ++ js ".perFunction length must equal count") ++
    failWhen ((maxComplexityFor item.perFunction).any fun m => item.maxComplexity ≠ some m)
      (path ++ js ".maxComplexity must match perFunction maximum")

/-- The comparison of a metric. -/
def compareItem [Host] (metric : LintRatchetMetric) (context : MetricItemComparisonContext N) :
    MetricItemComparison N :=
  match metric with
  | .messageCount => compareMessageCountItem context
  | .effectiveLineCount => compareEffectiveLineCountItem context
  | .complexitySeverity => compareComplexitySeverityItem context

section Json

/-- The JSON value of an integer field. -/
def natJson (n : Nat) : Json N := .num (JsNumber.ofInt n)

/-- JSON.stringify writes an infinite number as null. -/
def linesJson : ℕ∞ → Json N
  | none => .null
  | some n => natJson n

def complexityFunctionJson (entry : LintRatchetComplexityFunction) : Json N :=
  .obj [(js "line", natJson entry.line), (js "label", .str entry.label),
    (js "complexity", natJson entry.complexity)]

/-- The fields of an item in the order the formatter and the parser both build them. -/
def itemFields (item : LintRatchetMetricItem) : Entries (Json N) :=
  [(js "count", natJson item.count)] ++
    (item.lines.toList.map fun lines => (js "lines", linesJson lines)) ++
    (item.maxComplexity.toList.map fun m => (js "maxComplexity", natJson m)) ++
    (item.perFunction.toList.map fun fs =>
      (js "perFunction", .arr (fs.map complexityFunctionJson))) ++
    (item.messagesFingerprint.toList.map fun s => (js "messagesFingerprint", .str s))

def itemJson (item : LintRatchetMetricItem) : Json N := .obj (itemFields item)

end Json

/-- The merge of two items of one count. -/
def meetSameCountItem (N : Type) [JsNumber N] [Host] (metric : LintRatchetMetric) (path : JsString)
    (left right : LintRatchetMetricItem) : SameCountMerge :=
  match metric with
  | .messageCount =>
    { item := some { count := left.count, messagesFingerprint :=
        deterministicMessagesFingerprint left.messagesFingerprint right.messagesFingerprint }
      postMergeTruthUpRequired := left.messagesFingerprint ≠ right.messagesFingerprint }
  | .effectiveLineCount =>
    match left.lines, right.lines with
    | some leftLines, some rightLines =>
      { item := some
          { count := left.count
            lines := some (if leftLines ≤ rightLines then leftLines else rightLines) }
        postMergeTruthUpRequired := leftLines ≠ rightLines }
    | _, _ =>
      { postMergeTruthUpRequired := false
        failure := some (path ++ js ": effective-line-count items need lines on both sides") }
  | .complexitySeverity =>
    let formattedLeft := formatItem .complexitySeverity left
    if sameCanonicalValue (itemJson formattedLeft : Json N)
        (itemJson (formatItem .complexitySeverity right)) then
      { item := some formattedLeft, postMergeTruthUpRequired := false }
    else
      { postMergeTruthUpRequired := false
        failure := some (path ++ js ": equal-count complexity-severity payloads differ") }

end

end Musi.LintRatchet
