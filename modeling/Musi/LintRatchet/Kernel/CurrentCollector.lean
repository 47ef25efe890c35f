import Musi.Js.Buckets
import Musi.Js.Throw
import Musi.LintRatchet.Kernel.MessageIdentity
import Musi.LintRatchet.Kernel.Types

namespace Musi.LintRatchet
open Musi.Js
set_option autoImplicit true

section
variable {N : Type} [JsNumber N]

/-! ## What a metric reads of a message -/

/-- The fields of an ESLint message that the collector reads. -/
structure ESLintMessage (N : Type) where
  ruleId : Option JsString
  severity : N
  message : JsString
  messageId : Option JsString := none
  line : Option N := none
  column : Option N := none
  fatal : Bool := false

structure ESLintFileResult (N : Type) where
  filePath : JsString
  messages : List (ESLintMessage N)

/-- One message reduced to what it adds to the item of its file. -/
structure MetricFinding where
  lines : Option ℕ∞ := none
  complexity : Option LintRatchetComplexityFunction := none
  message : Option JsString := none
  messageId : Option JsString := none

def requireRuleId (ratchet : LintRatchetConfig N) (metric ruleId : JsString) : Except JsString Unit :=
  if ratchet.ruleId ≠ ruleId then
    .error (js "ratchet " ++ ratchet.id ++ js ": " ++ metric ++ js " requires " ++ ruleId)
  else .ok ()

/-- The digits of `This file has (\d+) effective lines, above the \d+ line limit` at the start. -/
def effectiveLinesAt (s : JsString) : Option JsString := do
  let s ← s.dropPrefix? (js "This file has ")
  let afterDigits ← skipDigits s
  let limit ← afterDigits.dropPrefix? (js " effective lines, above the ")
  let rest ← skipDigits limit
  if startsWith rest (js " line limit") then some (s.takeWhile isDigit) else none
where
  skipDigits (s : JsString) : Option JsString :=
    if s.takeWhile isDigit = [] then none else some (s.dropWhile isDigit)

/-- MAX_LINES_MESSAGE_PATTERN at its first match. -/
def maxLinesMatch : JsString → Option JsString
  | [] => none
  | c :: s => (effectiveLinesAt (c :: s)).or (maxLinesMatch s)

/-- `Number(digits)`, when it is an integer: it is infinite otherwise. -/
def numberOfDigits (N : Type) [JsNumber N] (digits : JsString) : Option Nat :=
  (JsNumber.toInt? (JsNumber.ofInt (digitsValue digits) : N)).map Int.toNat

def effectiveLineCountFor (ratchet : LintRatchetConfig N) (path : JsString)
    (message : ESLintMessage N) : Except JsString ℕ∞ :=
  match maxLinesMatch message.message with
  | none => .error (js "ratchet " ++ ratchet.id ++ js ": could not parse effective line count for " ++
      path ++ js ": " ++ message.message)
  | some lines => .ok (((numberOfDigits N lines).map Nat.cast).getD ⊤)

def isLineTerminator (c : UInt16) : Bool := c = 0x0A || c = 0x0D || c = 0x2028 || c = 0x2029

/-- The label and the digits of COMPLEXITY_MESSAGE_PATTERN. It is read from its end, where only one
way to match is left. -/
def complexityMessageMatch (s : JsString) : Option (JsString × JsString) := do
  let s ← s.dropSuffix? (js ".")
  let s ← dropDigits s
  let s ← s.dropSuffix? (js ". Maximum allowed is ")
  let complexity := s.rtakeWhile isDigit
  let s ← dropDigits s
  let label ← s.dropSuffix? (js " has a complexity of ")
  if label ≠ [] ∧ label.all (fun c => !isLineTerminator c) then
    some (label, complexity)
  else none
where
  dropDigits (s : JsString) : Option JsString :=
    if s.rtakeWhile isDigit = [] then none else some (s.rdropWhile isDigit)

def complexityDiagnosticPrefix (ratchetId path : JsString) : JsString :=
  js "ratchet " ++ ratchetId ++ js ": complexity diagnostic for " ++ path

def parseComplexitySeverityMessage (ratchetId path : JsString) (message : ESLintMessage N) :
    Except JsString LintRatchetComplexityFunction :=
  match message.messageId.filter fun messageId => messageId ≠ js "complex" with
  | some messageId => .error (complexityDiagnosticPrefix ratchetId path ++
      js " has unexpected messageId " ++ messageId)
  | none =>
    match (complexityMessageMatch message.message).bind fun (label, digits) =>
        (numberOfDigits N digits).map fun complexity => (label, complexity) with
    | none => .error (js "ratchet " ++ ratchetId ++ js ": could not parse complexity for " ++ path ++
        js ": " ++ message.message)
    | some (label, complexity) =>
      match (message.line.bind JsNumber.toInt?).filter fun line => 0 ≤ line with
      | none => .error (complexityDiagnosticPrefix ratchetId path ++ js " is missing a line")
      | some line => .ok { line := line.toNat, label, complexity }

/-- The reduceMessage of a metric. -/
def reduceMessage (ratchet : LintRatchetConfig N) (path : JsString) (message : ESLintMessage N) :
    Except JsString MetricFinding :=
  match ratchet.metric with
  | .messageCount => .ok { message := some message.message, messageId := message.messageId }
  | .effectiveLineCount => do
    requireRuleId ratchet (js "effective-line-count") (js "local/max-lines")
    let lines ← effectiveLineCountFor ratchet path message
    .ok { lines := some lines }
  | .complexitySeverity => do
    requireRuleId ratchet (js "complexity-severity") (js "complexity")
    let complexity ← parseComplexitySeverityMessage ratchet.id path message
    .ok { complexity := some complexity }

end

section
variable {N : Type} [JsNumber N]

/-! ## The item of a file -/

def minDefined (left right : Option N) : Option N :=
  match left, right with
  | none, right => right
  | left, none => left
  | some left, some right => some (if JsNumber.less right left then right else left)

/-- Math.max of two line counts. -/
def maxLines (left right : ℕ∞) : ℕ∞ := if left ≤ right then right else left

def mergeLines (previous : Option (LintRatchetCurrentItem N)) (metric : MetricFinding) : Option ℕ∞ :=
  match metric.lines, previous.bind (·.lines) with
  | none, previousLines => previousLines
  | some lines, none => some lines
  | some lines, some previousLines => some (maxLines previousLines lines)

def mergePerFunction (previous : Option (LintRatchetCurrentItem N)) (metric : MetricFinding) :
    Option (List LintRatchetComplexityFunction) :=
  match metric.complexity with
  | none => previous.bind (·.perFunction)
  | some complexity => some (((previous.bind (·.perFunction)).getD []) ++ [complexity])

/-- The first message with its id. -/
def mergeFirstMessageContext (previous : Option (LintRatchetCurrentItem N)) (metric : MetricFinding) :
    Option JsString × Option JsString :=
  match previous with
  | some item =>
    if item.firstMessage.isSome then (item.firstMessage, item.firstMessageId)
    else (metric.message, metric.messageId)
  | none => (metric.message, metric.messageId)

/-- The item that addFinding sets. -/
def nextItem (line : Option N) (metric : MetricFinding)
    (previous : Option (LintRatchetCurrentItem N)) : LintRatchetCurrentItem N where
  count := (previous.map fun item => item.count).getD 0 + 1
  firstLine := minDefined (previous.bind (·.firstLine)) line
  lines := mergeLines previous metric
  perFunction := mergePerFunction previous metric
  firstMessage := (mergeFirstMessageContext previous metric).1
  firstMessageId := (mergeFirstMessageContext previous metric).2

def addFinding (items : JsMap (LintRatchetCurrentItem N)) (path : JsString) (line : Option N)
    (metric : MetricFinding) : JsMap (LintRatchetCurrentItem N) :=
  items.set path (nextItem line metric (items.get path))

/-! ## Message identities -/

/-- Only findings of message-count ratchets have one. -/
def recordsMessageIdentity (metric : LintRatchetMetric) : Bool := metric = .messageCount

def recordMessageIdentity (ratchet : LintRatchetConfig N)
    (identitiesByPath : JsMap (List JsString)) (path : JsString) (metric : MetricFinding)
    (location : MessageIdentityLocation N) (repoRootPath : JsString) : JsMap (List JsString) :=
  if recordsMessageIdentity ratchet.metric then
    match messageIdentityForFinding metric.message metric.messageId location repoRootPath with
    | none => identitiesByPath
    | some identity => identitiesByPath.set path ((identitiesByPath.get path).getD [] ++ [identity])
  else identitiesByPath

section Host
variable [Host]

def messageFingerprintFor (N : Type) [JsNumber N] (identities : List JsString) : JsString :=
  js "sha256:" ++ Host.sha256 (stringify (.arr ((sortStrings identities).map .str) : Json N))

def addMessageFingerprint (items : JsMap (LintRatchetCurrentItem N))
    (entry : JsString × List JsString) : JsMap (LintRatchetCurrentItem N) :=
  match items.get entry.1 with
  | none => items
  | some item =>
    if entry.2 = [] then items
    else items.set entry.1 { item with messagesFingerprint := some (messageFingerprintFor N entry.2) }

def addMessageFingerprints (items : JsMap (LintRatchetCurrentItem N))
    (identitiesByPath : JsMap (List JsString)) : JsMap (LintRatchetCurrentItem N) :=
  identitiesByPath.entries.foldl addMessageFingerprint items

/-! ## The collector -/

def withSlashes (path : JsString) : JsString :=
  path.map fun c => if c = unit '\\' then unit '/' else c

def relativePathForRoot (filePath repoRootPath : JsString) : JsString :=
  if !Host.isAbsolute filePath then withSlashes filePath
  else if Host.relative repoRootPath filePath = [] then filePath
  else withSlashes (Host.relative repoRootPath filePath)

/-- A message of no rule that is fatal, or of severity error. -/
def isFatalMessage (message : ESLintMessage N) : Bool :=
  message.ruleId = none && (message.fatal || message.severity = JsNumber.ofInt 2)

structure Collected (N : Type) where
  items : JsMap (LintRatchetCurrentItem N) := .empty
  messageIdentitiesByPath : JsMap (List JsString) := .empty

def collectMessage (ratchet : LintRatchetConfig N) (repoRootPath filePath : JsString)
    (collected : Collected N) (message : ESLintMessage N) : Except JsString (Collected N) :=
  let path := relativePathForRoot filePath repoRootPath
  if isFatalMessage message then
    .error (js "ESLint could not parse " ++ path ++ js ": " ++ message.message)
  else if message.ruleId ≠ some ratchet.ruleId then .ok collected
  else do
    let metric ← reduceMessage ratchet path message
    .ok
      { items := addFinding collected.items path message.line metric
        messageIdentitiesByPath := recordMessageIdentity ratchet collected.messageIdentitiesByPath
          path metric ⟨filePath, message.line, message.column⟩ repoRootPath }

def collectResult (ratchet : LintRatchetConfig N) (repoRootPath : JsString)
    (collected : Collected N) (result : ESLintFileResult N) : Except JsString (Collected N) :=
  result.messages.foldlM (collectMessage ratchet repoRootPath result.filePath) collected

def itemsFromResults (ratchet : LintRatchetConfig N) (results : List (ESLintFileResult N))
    (repoRootPath : JsString) : Except JsString (JsMap (LintRatchetCurrentItem N)) := do
  let collected ← results.foldlM (collectResult ratchet repoRootPath) {}
  .ok (addMessageFingerprints collected.items collected.messageIdentitiesByPath)

end Host

/-! ## Running ESLint -/

def maxEslintPositionalFiles : Nat := 500

def fileChunks (files : List JsString) : List (List JsString) :=
  if files = [] then []
  else files.take maxEslintPositionalFiles :: fileChunks (files.drop maxEslintPositionalFiles)
termination_by files.length
decreasing_by
  rename_i h
  have hpos := List.length_pos_iff.2 h
  rw [List.length_drop, maxEslintPositionalFiles]
  omega

/-- The results of the chunks one after the other. -/
def runEslintForChunks (spawnEslint : List JsString → Except JsString (List (ESLintFileResult N)))
    (chunks : List (List JsString)) : Except JsString (List (ESLintFileResult N)) :=
  (chunks.mapM spawnEslint).map List.flatten

def runEslintForFiles (spawnEslint : List JsString → Except JsString (List (ESLintFileResult N)))
    (files : List JsString) : Except JsString (List (ESLintFileResult N)) :=
  runEslintForChunks spawnEslint (fileChunks files)

theorem fileChunks_flatten (files : List JsString) : (fileChunks files).flatten = files := by
  induction files using fileChunks.induct with
  | case1 => rw [fileChunks, if_pos rfl, List.flatten_nil]
  | case2 files hne ih =>
    rw [fileChunks, if_neg hne, List.flatten_cons, ih, List.take_append_drop]

end

end Musi.LintRatchet
