import Musi.LintRatchet.Kernel.BaselineUpdate

namespace Musi.LintRatchet
open Musi.Js
set_option autoImplicit true

section
variable {N : Type} [JsNumber N]

/-! ## Entries -/

structure LintRatchetAcceptedDebtLogEntry (N : Type) where
  acceptanceReason : JsString
  regressions : List (LintRatchetRegression N)
  orphansRemoved : List LintRatchetOrphanRemoval
  deriving DecidableEq

structure LintRatchetRetirementLogEntry (N : Type) where
  ratchetId : JsString
  optionsAttestation : Option (LintRatchetRetirementOptionsAttestation N)
  deriving DecidableEq

structure LintRatchetMetricMigrationLogEntry where
  ratchetId : JsString
  fromMetric : LintRatchetMetric
  toMetric : LintRatchetMetric
  reason : JsString
  deriving DecidableEq

structure LintRatchetCoverageShrinkLogEntry where
  ratchetId : JsString
  previousFiles : List JsString
  currentFiles : List JsString
  previousIgnores : List JsString
  currentIgnores : List JsString
  removedPaths : List JsString
  reason : JsString
  deriving DecidableEq

/-- The four kinds of a debt-log entry, all of version "1". -/
inductive LintRatchetDebtLogEntry (N : Type) where
  | acceptedDebt (entry : LintRatchetAcceptedDebtLogEntry N)
  | retirement (entry : LintRatchetRetirementLogEntry N)
  | metricMigration (entry : LintRatchetMetricMigrationLogEntry)
  | coverageShrink (entry : LintRatchetCoverageShrinkLogEntry)
  deriving DecidableEq

/-! ## The object that an entry is -/

def optionalJson {α : Type} (name : JsString) (value : Option α) (write : α → Json N) :
    Entries (Json N) := value.toList.map fun v => (name, write v)

def regressionJson (r : LintRatchetRegression N) : Json N :=
  .obj ([(js "testId", .str r.testId), (js "ruleId", .str r.ruleId), (js "path", .str r.path),
    (js "baselineCount", natJson r.baselineCount), (js "currentCount", natJson r.currentCount),
    (js "reason", .str r.reason.text)] ++
    optionalJson (js "baselineLines") r.baselineLines linesJson ++
    optionalJson (js "currentLines") r.currentLines linesJson ++
    optionalJson (js "baselineComplexity") r.baselineComplexity natJson ++
    optionalJson (js "currentComplexity") r.currentComplexity natJson ++
    optionalJson (js "line") r.line .num)

def orphanItemJson (item : LintRatchetOrphanBaselineItem) : Json N :=
  .obj ((js "path", .str item.path) :: itemFields item.toLintRatchetMetricItem)

def orphanJson (orphan : LintRatchetOrphanRemoval) : Json N :=
  .obj [(js "testId", .str orphan.testId), (js "ruleId", .str orphan.ruleId),
    (js "metric", .str orphan.metric.text),
    (js "baselineItems", .arr (orphan.baselineItems.map orphanItemJson))]

def attestationJson (attestation : LintRatchetRetirementOptionsAttestation N) : Json N :=
  .obj [(js "reason", .str attestation.reason), (js "ratchetOptions", .arr attestation.ratchetOptions),
    (js "normalLintOptions", .arr (attestation.normalLintOptions.map .arr))]

/-- The fields of an entry in the order its builder writes them. -/
def debtLogEntryJson : LintRatchetDebtLogEntry N → Json N
  | .acceptedDebt entry =>
    .obj [(js "version", .str (js "1")), (js "kind", .str (js "accepted-debt")),
      (js "acceptanceReason", .str entry.acceptanceReason),
      (js "regressions", .arr (entry.regressions.map regressionJson)),
      (js "orphansRemoved", .arr (entry.orphansRemoved.map orphanJson))]
  | .retirement entry =>
    .obj ([(js "version", .str (js "1")), (js "kind", .str (js "retirement")),
      (js "ratchetId", .str entry.ratchetId),
      (js "promotionProof", .str (js "normal-lint-error"))] ++
      optionalJson (js "optionsAttestation") entry.optionsAttestation attestationJson)
  | .metricMigration entry =>
    .obj [(js "version", .str (js "1")), (js "kind", .str (js "metric-migration")),
      (js "ratchetId", .str entry.ratchetId), (js "fromMetric", .str entry.fromMetric.text),
      (js "toMetric", .str entry.toMetric.text), (js "reason", .str entry.reason)]
  | .coverageShrink entry =>
    .obj [(js "version", .str (js "1")), (js "kind", .str (js "coverage-shrink")),
      (js "ratchetId", .str entry.ratchetId), (js "previousFiles", stringsJson entry.previousFiles),
      (js "currentFiles", stringsJson entry.currentFiles),
      (js "previousIgnores", stringsJson entry.previousIgnores),
      (js "currentIgnores", stringsJson entry.currentIgnores),
      (js "removedPaths", stringsJson entry.removedPaths), (js "reason", .str entry.reason)]

/-! ## The schema. Its issues carry the texts of the schema library, so a rejected value is
`none` here. -/

/-- The fields of a `.strict()` object: no other name than the listed ones. -/
def strictFields (names : List JsString) (v : Json N) : Option (Entries (Json N)) :=
  (recordFields v).filter fun fields => (Entries.keys fields).all fun k => k ∈ names

def required {T : Type} (fields : Entries (Json N)) (name : JsString) (read : Json N → Option T) :
    Option T := (List.lookup name fields).bind read

/-- `.optional()`: absent, or accepted. -/
def optional {T : Type} (fields : Entries (Json N)) (name : JsString) (read : Json N → Option T) :
    Option (Option T) :=
  match List.lookup name fields with
  | none => some none
  | some v => (read v).map some

def arrayOf {T : Type} (read : Json N → Option T) : Json N → Option (List T)
  | .arr values => values.mapM read
  | _ => none

def stringWhere (accept : JsString → Bool) : Json N → Option JsString
  | .str s => if accept s then some s else none
  | _ => none

def literal (s : JsString) : Json N → Option JsString := stringWhere fun t => t = s

/-- nonNegativeInt -/
def nonNegativeInt (v : Json N) : Option Nat :=
  (safeInteger v).bind fun k => if k < 0 then none else some k.toNat

def nonEmpty (s : JsString) : Bool := s ≠ []

/-- nonBlankString -/
def nonBlank (s : JsString) : Bool := trim s ≠ []

/-- realReason -/
def realReason (s : JsString) : Bool := nonEmpty s && !isRatchetRegressionReasonPlaceholder s

/-- acceptanceReasonSchema -/
def acceptanceReasonAccepted (s : JsString) : Bool :=
  nonBlank s && !isRatchetRegressionReasonPlaceholder s

def reasonValue (v : Json N) : Option RegressionReason :=
  [RegressionReason.newPath, .increasedCount, .increasedLines, .increasedComplexity].find? fun r =>
    v = .str r.text

inductive SeverityDeltaField where
  | baselineLines
  | currentLines
  | baselineComplexity
  | currentComplexity
  deriving DecidableEq

/-- SEVERITY_DELTA_FIELDS -/
def severityDeltaFields : List SeverityDeltaField :=
  [.baselineLines, .currentLines, .baselineComplexity, .currentComplexity]

structure RegressionShapeRule where
  required : List SeverityDeltaField
  allowed : List SeverityDeltaField
  atMostOne : List SeverityDeltaField := []

/-- REGRESSION_SHAPE_RULES -/
def regressionShapeRule : RegressionReason → RegressionShapeRule
  | .increasedLines => { required := [.baselineLines, .currentLines], allowed := [] }
  | .increasedComplexity => { required := [.baselineComplexity, .currentComplexity], allowed := [] }
  | .increasedCount => { required := [], allowed := [] }
  | .newPath => { required := [], allowed := [.currentLines, .currentComplexity],
                  atMostOne := [.currentLines, .currentComplexity] }

def hasSeverity (r : LintRatchetRegression N) : SeverityDeltaField → Bool
  | .baselineLines => r.baselineLines.isSome
  | .currentLines => r.currentLines.isSome
  | .baselineComplexity => r.baselineComplexity.isSome
  | .currentComplexity => r.currentComplexity.isSome

/-- validateRegressionShape raises no issue. -/
def regressionShapeAccepted (r : LintRatchetRegression N) : Bool :=
  let rule := regressionShapeRule r.reason
  rule.required.all (hasSeverity r) &&
    (severityDeltaFields.all fun field =>
      field ∈ rule.required ++ rule.allowed || !hasSeverity r field) &&
    (rule.atMostOne.filter (hasSeverity r)).length ≤ 1

/-- debtLogRegressionSchema -/
def parseDebtLogRegression (v : Json N) : Option (LintRatchetRegression N) := do
  let fields ← strictFields [js "testId", js "ruleId", js "path", js "baselineCount",
    js "currentCount", js "baselineLines", js "currentLines", js "baselineComplexity",
    js "currentComplexity", js "line", js "reason"] v
  let testId ← required fields (js "testId") (stringWhere nonEmpty)
  let ruleId ← required fields (js "ruleId") (stringWhere nonEmpty)
  let path ← required fields (js "path") (stringWhere isNormalizedPath)
  let baselineCount ← required fields (js "baselineCount") nonNegativeInt
  let currentCount ← required fields (js "currentCount") nonNegativeInt
  let baselineLines ← optional fields (js "baselineLines") nonNegativeInt
  let currentLines ← optional fields (js "currentLines") nonNegativeInt
  let baselineComplexity ← optional fields (js "baselineComplexity") nonNegativeInt
  let currentComplexity ← optional fields (js "currentComplexity") nonNegativeInt
  let line ← optional fields (js "line") nonNegativeInt
  let reason ← required fields (js "reason") reasonValue
  let regression : LintRatchetRegression N :=
    { testId, ruleId, path, baselineCount, currentCount,
      baselineLines := baselineLines.map Nat.cast, currentLines := currentLines.map Nat.cast,
      baselineComplexity, currentComplexity,
      line := line.map fun n => JsNumber.ofInt (n : Int), reason }
  if regressionShapeAccepted regression then some regression else none

def parseOrphanFunction (v : Json N) : Option LintRatchetComplexityFunction := do
  let fields ← strictFields [js "line", js "label", js "complexity"] v
  let line ← required fields (js "line") nonNegativeInt
  let label ← required fields (js "label") (stringWhere nonEmpty)
  let complexity ← required fields (js "complexity") nonNegativeInt
  some { line, label, complexity }

/-- orphanBaselineItemSchema -/
def parseOrphanBaselineItem (v : Json N) : Option LintRatchetOrphanBaselineItem := do
  let fields ← strictFields (js "path" :: [js "count", js "lines", js "maxComplexity",
    js "perFunction", js "messagesFingerprint"]) v
  let path ← required fields (js "path") (stringWhere isNormalizedPath)
  let count ← required fields (js "count") nonNegativeInt
  let lines ← optional fields (js "lines") nonNegativeInt
  let maxComplexity ← optional fields (js "maxComplexity") nonNegativeInt
  let perFunction ← optional fields (js "perFunction") (arrayOf parseOrphanFunction)
  let messagesFingerprint ← optional fields (js "messagesFingerprint") (stringWhere isSha256Hash)
  some { path, count, lines := lines.map Nat.cast, maxComplexity, perFunction,
         messagesFingerprint }

/-- debtLogOrphanRemovalSchema -/
def parseDebtLogOrphan (v : Json N) : Option LintRatchetOrphanRemoval := do
  let fields ← strictFields [js "testId", js "ruleId", js "metric", js "baselineItems"] v
  let testId ← required fields (js "testId") (stringWhere nonEmpty)
  let ruleId ← required fields (js "ruleId") (stringWhere nonEmpty)
  let metric ← required fields (js "metric") metricValue
  let baselineItems ← required fields (js "baselineItems") (arrayOf parseOrphanBaselineItem)
  if baselineItems.all fun item => validateMetricItem [] metric item.toLintRatchetMetricItem = [] then
    some { testId, ruleId, metric, baselineItems }
  else none

def acceptedEntryNames : List JsString :=
  [js "version", js "acceptanceReason", js "regressions", js "orphansRemoved"]

/-- The fields that both forms of an accepted entry have. -/
def parseAcceptedFields (fields : Entries (Json N)) : Option (LintRatchetDebtLogEntry N) := do
  let _ ← required fields (js "version") (literal (js "1"))
  let acceptanceReason ←
    required fields (js "acceptanceReason") (stringWhere acceptanceReasonAccepted)
  let regressions ← required fields (js "regressions") (arrayOf parseDebtLogRegression)
  let orphansRemoved ← required fields (js "orphansRemoved") (arrayOf parseDebtLogOrphan)
  if regressions.isEmpty && orphansRemoved.isEmpty then none
  else some (.acceptedDebt { acceptanceReason, regressions, orphansRemoved })

def parseAttestation (v : Json N) : Option (LintRatchetRetirementOptionsAttestation N) := do
  let fields ← strictFields [js "reason", js "ratchetOptions", js "normalLintOptions"] v
  let jsonValue (v : Json N) : Option (Json N) := if isJsonValue v then some v else none
  let reason ← required fields (js "reason") (stringWhere nonBlank)
  let ratchetOptions ← required fields (js "ratchetOptions") (arrayOf jsonValue)
  let normalLintOptions ← required fields (js "normalLintOptions") (arrayOf (arrayOf jsonValue))
  some { reason, ratchetOptions, normalLintOptions }

/-- retirementEntrySchema -/
def parseRetirementEntry (v : Json N) : Option (LintRatchetDebtLogEntry N) := do
  let fields ← strictFields [js "version", js "kind", js "ratchetId", js "promotionProof",
    js "optionsAttestation"] v
  let _ ← required fields (js "version") (literal (js "1"))
  let ratchetId ← required fields (js "ratchetId") (stringWhere nonBlank)
  let _ ← required fields (js "promotionProof") (literal (js "normal-lint-error"))
  let optionsAttestation ← optional fields (js "optionsAttestation") parseAttestation
  some (.retirement { ratchetId, optionsAttestation })

/-- metricMigrationEntrySchema -/
def parseMetricMigrationEntry (v : Json N) : Option (LintRatchetDebtLogEntry N) := do
  let fields ← strictFields [js "version", js "kind", js "ratchetId", js "fromMetric",
    js "toMetric", js "reason"] v
  let _ ← required fields (js "version") (literal (js "1"))
  let ratchetId ← required fields (js "ratchetId") (stringWhere nonBlank)
  let fromMetric ← required fields (js "fromMetric") metricValue
  let toMetric ← required fields (js "toMetric") metricValue
  let reason ← required fields (js "reason") (stringWhere nonBlank)
  if fromMetric = toMetric then none
  else some (.metricMigration { ratchetId, fromMetric, toMetric, reason })

/-- coverageShrinkLogEntrySchema -/
def parseCoverageShrinkEntry (v : Json N) : Option (LintRatchetDebtLogEntry N) := do
  let fields ← strictFields [js "version", js "kind", js "ratchetId", js "previousFiles",
    js "currentFiles", js "previousIgnores", js "currentIgnores", js "removedPaths", js "reason"] v
  let _ ← required fields (js "version") (literal (js "1"))
  let strings := arrayOf (stringWhere nonEmpty)
  let ratchetId ← required fields (js "ratchetId") (stringWhere nonEmpty)
  let previousFiles ← required fields (js "previousFiles") strings
  let currentFiles ← required fields (js "currentFiles") strings
  let previousIgnores ← required fields (js "previousIgnores") strings
  let currentIgnores ← required fields (js "currentIgnores") strings
  let removedPaths ← required fields (js "removedPaths") strings
  let reason ← required fields (js "reason") (stringWhere realReason)
  if removedPaths = [] then none
  else some (.coverageShrink { ratchetId, previousFiles, currentFiles, previousIgnores,
                               currentIgnores, removedPaths, reason })

/-- An entry without a kind is a legacy accepted-debt entry. -/
def parseLintRatchetDebtLogEntry (v : Json N) : Option (LintRatchetDebtLogEntry N) :=
  match v.field (js "kind") with
  | none => (strictFields acceptedEntryNames v).bind parseAcceptedFields
  | some kind =>
    if kind = .str (js "accepted-debt") then
      (strictFields (js "kind" :: acceptedEntryNames) v).bind parseAcceptedFields
    else if kind = .str (js "retirement") then parseRetirementEntry v
    else if kind = .str (js "metric-migration") then parseMetricMigrationEntry v
    else if kind = .str (js "coverage-shrink") then parseCoverageShrinkEntry v
    else none

end

section
variable {N : Type} [JsNumber N] [Host]

/-! ## Reading -/

/-- Dropping one carriage return at the end of a line. -/
def chopReturn (line : JsString) : JsString :=
  if line.getLast? = some 0x0D then line.dropLast else line

/-- `text.split(/\r?\n/u)`: only a terminated line can end in a carriage return that goes. -/
def splitLines (text : JsString) : List JsString :=
  let parts := splitOn 0x0A text
  parts.dropLast.map chopReturn ++ parts.getLast?.toList

/-- The lines of a log: exactly one empty last line is forgiven. -/
def debtLogLines (text : JsString) : List JsString :=
  if text = [] then []
  else
    let lines := splitLines text
    if lines.getLast? = some [] then lines.dropLast else lines

/-- The issues of an invalid entry follow the message in the source. -/
def parseDebtLogJsonlLine (line : JsString) (lineNumber : Nat) (label : JsString) :
    Except JsString (LintRatchetDebtLogEntry N) :=
  match parseJson line with
  | none => .error (label ++ js " line " ++ numberText N lineNumber ++ js " is not valid JSON: " ++
      Host.jsonSyntaxError line)
  | some value =>
    match parseLintRatchetDebtLogEntry value with
    | none => .error (label ++ js " line " ++ numberText N lineNumber ++ js " is invalid:\n")
    | some entry => .ok entry

def parseDebtLogLines (label : JsString) :
    Nat → List JsString → Except JsString (List (LintRatchetDebtLogEntry N))
  | _, [] => .ok []
  | lineNumber, line :: lines =>
    match parseDebtLogJsonlLine line lineNumber label with
    | .error message => .error message
    | .ok entry => (parseDebtLogLines label (lineNumber + 1) lines).map (entry :: ·)

def parseDebtLogJsonl (text label : JsString) : Except JsString (List (LintRatchetDebtLogEntry N)) :=
  parseDebtLogLines label 1 (debtLogLines text)

/-! ## Writing -/

/-- The row of a regression: the diagnostic text of the current run is stripped. -/
def debtLogRegressionFor (regression : LintRatchetRegression N) : LintRatchetRegression N :=
  { regression with firstMessage := none, firstMessageId := none }

def buildLintRatchetDebtLogEntry (decision : LintRatchetUpdateDecision N)
    (acceptanceReason : JsString) : LintRatchetAcceptedDebtLogEntry N where
  acceptanceReason := acceptanceReason
  regressions := decision.regressions.map debtLogRegressionFor
  orphansRemoved := decision.orphanRemovals

def buildLintRatchetRetirementLogEntry (ratchetId : JsString)
    (optionsAttestation : Option (LintRatchetRetirementOptionsAttestation N)) :
    LintRatchetRetirementLogEntry N := { ratchetId, optionsAttestation }

def buildLintRatchetMetricMigrationLogEntry (migration : LintRatchetMetricMigration)
    (reason : JsString) : LintRatchetMetricMigrationLogEntry :=
  { ratchetId := migration.ratchetId, fromMetric := migration.fromMetric,
    toMetric := migration.toMetric, reason }

def buildLintRatchetCoverageShrinkLogEntry (shrink : LintRatchetCoverageShrink)
    (reason : JsString) : LintRatchetCoverageShrinkLogEntry :=
  { ratchetId := shrink.ratchetId, previousFiles := shrink.previousFiles,
    currentFiles := shrink.currentFiles, previousIgnores := shrink.previousIgnores,
    currentIgnores := shrink.currentIgnores, removedPaths := shrink.removedPaths, reason }

def hasAcceptedDebt (decision : LintRatchetUpdateDecision N) : Bool :=
  !decision.regressions.isEmpty || decision.orphanRemovals ≠ []

/-- The records of an update; nothing is recorded for a first baseline. -/
def debtLogEntriesForUpdate (decision : Option (LintRatchetUpdateDecision N))
    (options : LintRatchetUpdateOptions N) : List (LintRatchetDebtLogEntry N) :=
  match decision with
  | none => []
  | some decision =>
    let reason := trim (options.reason.getD [])
    let acceptedDebt : List (LintRatchetDebtLogEntry N) :=
      if options.allowWorse && hasAcceptedDebt decision then
        [.acceptedDebt (buildLintRatchetDebtLogEntry decision reason)] else []
    let coverageShrinks : List (LintRatchetDebtLogEntry N) :=
      if options.allowWorse then decision.coverageShrinks.map fun shrink =>
        .coverageShrink (buildLintRatchetCoverageShrinkLogEntry shrink reason) else []
    let migrationReason := (options.migrationReason.map trim).getD reason
    let metricMigrations : List (LintRatchetDebtLogEntry N) :=
      decision.metricMigrations.map fun migration =>
        .metricMigration (buildLintRatchetMetricMigrationLogEntry migration migrationReason)
    let retirement : List (LintRatchetDebtLogEntry N) :=
      decision.retiredRatchetId.toList.map fun id =>
        .retirement (buildLintRatchetRetirementLogEntry id decision.retirementOptionsAttestation)
    acceptedDebt ++ coverageShrinks ++ metricMigrations ++ retirement

/-- The lines of a batch of entries, each terminated. -/
def debtLogBatch (entries : List (LintRatchetDebtLogEntry N)) : JsString :=
  join [0x0A] (entries.map fun entry => stringify (debtLogEntryJson entry)) ++ [0x0A]

/-- What has to be appended to an existing log: nothing for no entries or for a batch that is
already its tail. The whole batch is validated before; built entries always have a kind. -/
def appendValidatedDebtLogEntries (entries : List (LintRatchetDebtLogEntry N))
    (existing : JsString) : Except JsString (Option JsString) :=
  if entries.isEmpty then .ok none
  else if entries.all fun entry =>
      (parseLintRatchetDebtLogEntry (debtLogEntryJson entry)).isSome then
    let batch := debtLogBatch entries
    if endsWith existing batch then .ok none
    else
      let separator : JsString :=
        if existing ≠ [] && !endsWith existing [0x0A] then [0x0A] else []
      .ok (some (separator ++ batch))
  else .error (js "refusing to append an invalid debt-log entry:\n")

end

end Musi.LintRatchet
