import Mathlib.Data.ENat.Basic
import Musi.Js.Json

namespace Musi.LintRatchet
open Musi.Js
set_option autoImplicit true

inductive LintRatchetMode where
  | noNew
  deriving DecidableEq

inductive LintRatchetMetric where
  | complexitySeverity
  | effectiveLineCount
  | messageCount
  deriving DecidableEq

def LintRatchetMode.text : LintRatchetMode → JsString
  | .noNew => js "no-new"

def LintRatchetMetric.text : LintRatchetMetric → JsString
  | .complexitySeverity => js "complexity-severity"
  | .effectiveLineCount => js "effective-line-count"
  | .messageCount => js "message-count"

inductive LintRatchetParserProfile where
  | minimalTs
  | typeAwareTs
  deriving DecidableEq

inductive LintRatchetRuleSource where
  | localRule
  | thirdParty (pluginModule : JsString)
  | core
  deriving DecidableEq

inductive LintRatchetZeroBaselineDispositionKind where
  | intentionalRatchetOnly
  | narrowFloor
  | promoteToNormalLint
  | temporaryRatchetOnly
  deriving DecidableEq

structure LintRatchetZeroBaselineDisposition where
  kind : LintRatchetZeroBaselineDispositionKind
  reason : JsString
  exitPath : Option JsString
  deriving DecidableEq

/-- A registry entry. -/
structure LintRatchetConfig (N : Type) where
  id : JsString
  ruleId : JsString
  files : List JsString
  ignores : List JsString
  ruleOptions : List (Json N)
  mode : LintRatchetMode
  metric : LintRatchetMetric
  principle : JsString
  zeroBaselineDisposition : Option LintRatchetZeroBaselineDisposition
  source : Option LintRatchetRuleSource
  parserProfile : Option LintRatchetParserProfile
  typeAwareProject : Option JsString
  deriving DecidableEq

/-- One function of a complexity diagnostic. The three numbers passed Number.isInteger. -/
structure LintRatchetComplexityFunction where
  line : Nat
  label : JsString
  complexity : Nat
  deriving DecidableEq

/-- The debt floor of one path. A line count is read off a message with Number, so it can be
infinite; the other numbers are integers. -/
structure LintRatchetMetricItem where
  count : Nat
  lines : Option ℕ∞ := none
  maxComplexity : Option Nat := none
  perFunction : Option (List LintRatchetComplexityFunction) := none
  messagesFingerprint : Option JsString := none
  deriving DecidableEq

/-- A collected item: the floor it would set, and where its first finding is. -/
structure LintRatchetCurrentItem (N : Type) extends LintRatchetMetricItem where
  firstLine : Option N := none
  firstMessage : Option JsString := none
  firstMessageId : Option JsString := none
  deriving DecidableEq

/-- The committed form of one ratchet without its items. -/
structure LintRatchetBaselineGroupMeta (N : Type) where
  ruleId : JsString
  mode : LintRatchetMode
  metric : LintRatchetMetric
  files : List JsString
  ignores : List JsString
  ruleOptions : List (Json N)
  configHash : JsString
  ruleSourceHash : JsString
  deriving DecidableEq

structure LintRatchetBaselineTest (N : Type) extends LintRatchetBaselineGroupMeta N where
  items : Record LintRatchetMetricItem
  deriving DecidableEq

/-- A committed or generated baseline. Test ids start with `ratchet/`, so no read by test id
meets a member of Object.prototype; paths carry no such promise. -/
structure LintRatchetBaseline (N : Type) where
  version : Nat
  regenerate : Option (Json N)
  tests : Record (LintRatchetBaselineTest N)
  deriving DecidableEq

abbrev LintRatchetCurrentById (N : Type) := JsMap (JsMap (LintRatchetCurrentItem N))

inductive RegressionReason where
  | newPath
  | increasedCount
  | increasedLines
  | increasedComplexity
  deriving DecidableEq

def RegressionReason.text : RegressionReason → JsString
  | .newPath => js "new-path"
  | .increasedCount => js "increased-count"
  | .increasedLines => js "increased-lines"
  | .increasedComplexity => js "increased-complexity"

structure LintRatchetRegression (N : Type) where
  testId : JsString
  ruleId : JsString
  path : JsString
  baselineCount : Nat
  currentCount : Nat
  baselineLines : Option ℕ∞ := none
  currentLines : Option ℕ∞ := none
  baselineComplexity : Option Nat := none
  currentComplexity : Option Nat := none
  line : Option N := none
  firstMessage : Option JsString := none
  firstMessageId : Option JsString := none
  reason : RegressionReason
  deriving DecidableEq

inductive ImprovementReason where
  | removedPath
  | lowerCount
  | lowerLines
  | lowerComplexity
  deriving DecidableEq

structure LintRatchetImprovement where
  testId : JsString
  ruleId : JsString
  path : JsString
  baselineCount : Nat
  currentCount : Nat
  baselineLines : Option ℕ∞ := none
  currentLines : Option ℕ∞ := none
  baselineComplexity : Option Nat := none
  currentComplexity : Option Nat := none
  reason : ImprovementReason
  deriving DecidableEq

/-- An equal-count message swap, the only information the comparison reports. -/
structure LintRatchetInfo where
  testId : JsString
  ruleId : JsString
  path : JsString
  baselineCount : Nat
  currentCount : Nat
  deriving DecidableEq

structure LintRatchetComparison (N : Type) where
  regressions : List (LintRatchetRegression N)
  improvements : List LintRatchetImprovement
  infos : List LintRatchetInfo
  deriving DecidableEq

/-- The commands that the repository adapter binds for messages. -/
structure LintRatchetWorkflowVocabulary where
  updateCommand : JsString
  installMergeDriverCommand : JsString
  restoreBaselineOursCommand : JsString → JsString

/-- What the runtime and the packages give the engine: locale order, hashing, glob matching,
path resolution and the text of a JSON syntax error. -/
class Host where
  localeCompare : JsString → JsString → Int
  sha256 : JsString → JsString
  minimatch : JsString → JsString → Bool
  isAbsolute : JsString → Bool
  relative : JsString → JsString → JsString
  jsonSyntaxError : JsString → JsString
  localeCompare_consistent : ConsistentComparator localeCompare
  sha256_length : ∀ s, (sha256 s).length = 64
  sha256_hex : ∀ s, ∀ c ∈ sha256 s, isDigit c || (0x61 ≤ c && c ≤ 0x66)

def defaultBaselineFilename : JsString := js "lint-ratchet.baseline.json"

def defaultDebtLogFilename : JsString := js "lint-ratchet.debt-log.jsonl"

/-- String(n) for an integer. -/
def numberText (N : Type) [JsNumber N] (n : Int) : JsString := JsNumber.toText (JsNumber.ofInt n : N)

end Musi.LintRatchet
