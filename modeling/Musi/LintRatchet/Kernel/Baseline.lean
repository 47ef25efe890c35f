import Musi.LintRatchet.Kernel.BaselineSpec

namespace Musi.LintRatchet
open Musi.Js
set_option autoImplicit true

variable {N : Type} [JsNumber N] [Host]

/-! ## Building and formatting -/

/-- The floor items of the paths with findings, assigned in path order. -/
def positiveMetricItems (metric : LintRatchetMetric)
    (currentItems : Option (JsMap (LintRatchetCurrentItem N))) : Record LintRatchetMetricItem :=
  let entries := (currentItems.map (·.entries)).getD []
  Record.assignAll
    (((sortBy (fun a b => compareByCodepoint a.1 b.1) entries).filter fun e => e.2.count > 0).map
      fun e => (e.1, metricItemForFormat metric e.2.toLintRatchetMetricItem))

def baselineTestFromConfig (config : LintRatchetConfig N)
    (currentItems : Option (JsMap (LintRatchetCurrentItem N))) (ruleSourceHash : JsString) :
    LintRatchetBaselineTest N where
  ruleId := config.ruleId
  mode := config.mode
  metric := config.metric
  files := normalizeStringList config.files
  ignores := normalizeStringList config.ignores
  ruleOptions := normalizeRuleOptions config.ruleOptions
  configHash := computeLintRatchetConfigHash config
  ruleSourceHash := ruleSourceHash
  items := positiveMetricItems config.metric currentItems

/-- The tests that the build loop assigns; `none` is the throw on a missing rule source hash. -/
def builtTests (currentById : LintRatchetCurrentById N) (ruleSourceHashesById : JsMap JsString) :
    List (LintRatchetConfig N) → Option (Entries (LintRatchetBaselineTest N))
  | [] => some []
  | ratchet :: ratchets =>
    match ruleSourceHashesById.get ratchet.id, builtTests currentById ruleSourceHashesById ratchets with
    | some hash, some tests =>
      some ((ratchet.id, baselineTestFromConfig ratchet (currentById.get ratchet.id) hash) :: tests)
    | _, _ => none

def buildLintRatchetBaseline (ratchets : List (LintRatchetConfig N))
    (currentById : LintRatchetCurrentById N) (ruleSourceHashesById : JsMap JsString)
    (workflowVocabulary : LintRatchetWorkflowVocabulary)
    (versionPolicy : LintRatchetBaselineVersionPolicy := defaultVersionPolicy) :
    Option (LintRatchetBaseline N) :=
  (builtTests currentById ruleSourceHashesById ratchets).map fun tests =>
    { version := versionPolicy.writeVersion
      regenerate := (regenerateForVersion versionPolicy.writeVersion
        workflowVocabulary.updateCommand).map .str
      tests := Record.assignAll tests }

def currentItemOf (N : Type) (item : LintRatchetMetricItem) : LintRatchetCurrentItem N :=
  { item with }

def currentByIdFromBaseline (baseline : LintRatchetBaseline N) : LintRatchetCurrentById N :=
  JsMap.ofList (baseline.tests.entries.map fun e =>
    (e.1, JsMap.ofList (e.2.items.entries.map fun i => (i.1, currentItemOf N i.2))))

/-- The tests family always has a document. -/
def formatLintRatchetBaseline (baseline : LintRatchetBaseline N)
    (workflowVocabulary : LintRatchetWorkflowVocabulary) : JsString :=
  (formatGroupedBaselineDocument
    (lintRatchetBaselineSpec defaultVersionPolicy workflowVocabulary defaultBaselineFilename)
    (lintRatchetBaselineToGrouped baseline)).getD []

/-! ## Validation -/

inductive ValidationFailureCode where
  | configHashMismatch
  | filesMismatch
  | ignoresMismatch
  | metricItemInvalid
  | metricMismatch
  | missingRatchet
  | nondeterministicJson
  | orphanRatchet
  | ruleIdMismatch
  | ruleOptionsMismatch
  | ruleSourceDrift
  | ruleSourceHashRequired
  | structural
  deriving DecidableEq

structure LintRatchetBaselineValidationFailure where
  code : ValidationFailureCode
  message : JsString
  deriving DecidableEq

structure ParsedLintRatchetBaseline (N : Type) where
  baseline : Option (LintRatchetBaseline N)
  validationFailures : List LintRatchetBaselineValidationFailure
  warnings : List JsString

def ParsedLintRatchetBaseline.failures (parsed : ParsedLintRatchetBaseline N) : List JsString :=
  parsed.validationFailures.map (·.message)

def pushWhen (bad : Bool) (code : ValidationFailureCode) (message : JsString) :
    List LintRatchetBaselineValidationFailure := if bad then [{ code, message }] else []

def validateBaselineTestMetadata (testId : JsString) (test expected : LintRatchetBaselineTest N) :
    List LintRatchetBaselineValidationFailure :=
  pushWhen (test.ruleId ≠ expected.ruleId) .ruleIdMismatch (testId ++ js ".ruleId is stale") ++
  pushWhen (test.metric ≠ expected.metric) .metricMismatch (testId ++ js ".metric is stale") ++
  pushWhen (stableJson (stringsJson test.files : Json N) ≠
      stableJson (stringsJson expected.files : Json N)) .filesMismatch
    (testId ++ js ".files is stale") ++
  pushWhen (stableJson (stringsJson test.ignores : Json N) ≠
      stableJson (stringsJson expected.ignores : Json N)) .ignoresMismatch
    (testId ++ js ".ignores is stale") ++
  pushWhen (stableJson (.arr test.ruleOptions) ≠ stableJson (.arr expected.ruleOptions))
    .ruleOptionsMismatch (testId ++ js ".ruleOptions is stale") ++
  pushWhen (test.configHash ≠ expected.configHash) .configHashMismatch
    (testId ++ js ".configHash is stale")

def validateBaselineRuleSourceHash (testId : JsString) (test : LintRatchetBaselineTest N)
    (expectedRuleSourceHash : JsString) (workflowVocabulary : LintRatchetWorkflowVocabulary) :
    List LintRatchetBaselineValidationFailure :=
  if test.ruleSourceHash = [] then
    [{ code := .ruleSourceHashRequired, message := testId ++ js ".ruleSourceHash is required" }]
  else pushWhen (test.ruleSourceHash ≠ expectedRuleSourceHash) .ruleSourceDrift
    (testId ++ js ".ruleSourceHash is stale (run \"" ++ workflowVocabulary.updateCommand ++
      js "\" to regenerate)")

def validateBaselineMetricItems (testId : JsString) (test : LintRatchetBaselineTest N) :
    List LintRatchetBaselineValidationFailure :=
  test.items.entries.flatMap fun e =>
    (validateMetricItem (testId ++ js ".items." ++ e.1) test.metric e.2).map fun message =>
      { code := .metricItemInvalid, message }

def validateBaselineTestAgainstRatchet (testId : JsString) (test : LintRatchetBaselineTest N)
    (ratchet : LintRatchetConfig N) (expectedRuleSourceHash : JsString)
    (workflowVocabulary : LintRatchetWorkflowVocabulary) :
    List LintRatchetBaselineValidationFailure :=
  validateBaselineTestMetadata testId test
    (baselineTestFromConfig ratchet none expectedRuleSourceHash) ++
  validateBaselineRuleSourceHash testId test expectedRuleSourceHash workflowVocabulary ++
  validateBaselineMetricItems testId test

/-- `new Map(ratchets.map((ratchet) => [ratchet.id, ratchet]))` -/
def registryById (ratchets : List (LintRatchetConfig N)) : JsMap (LintRatchetConfig N) :=
  JsMap.ofList (ratchets.map fun ratchet => (ratchet.id, ratchet))

def validateBaselineAgainstRegistry (baseline : LintRatchetBaseline N)
    (ratchets : List (LintRatchetConfig N)) (ruleSourceHashesById : JsMap JsString)
    (workflowVocabulary : LintRatchetWorkflowVocabulary) :
    List LintRatchetBaselineValidationFailure :=
  (baseline.tests.entries.flatMap fun (testId, test) =>
    match (registryById ratchets).get testId with
    | none => [{ code := .orphanRatchet,
                 message := testId ++ js ": baseline has no matching ratchet registry entry" }]
    | some ratchet => validateBaselineTestAgainstRatchet testId test ratchet
        ((ruleSourceHashesById.get testId).getD []) workflowVocabulary) ++
  ratchets.flatMap fun ratchet =>
    pushWhen (baseline.tests.own ratchet.id).isNone .missingRatchet
      (ratchet.id ++ js ": baseline is missing registry ratchet")

def regenerateWarning (baseline : LintRatchetBaseline N)
    (workflowVocabulary : LintRatchetWorkflowVocabulary) : List JsString :=
  match baseline.regenerate with
  | none => []
  | some committed =>
    if committed = .str workflowVocabulary.updateCommand then []
    else [js "baseline regenerate annotation is stale; regenerate with `" ++
      workflowVocabulary.updateCommand ++ js "` (committed " ++ stringify committed ++ js ")"]

/-- The baseline of a text, or every structural failure. -/
def parseLintRatchetBaselineStructure (text : JsString)
    (workflowVocabulary : LintRatchetWorkflowVocabulary)
    (versionPolicy : LintRatchetBaselineVersionPolicy := defaultVersionPolicy)
    (baselineFile : JsString := defaultBaselineFilename) :
    Except (List JsString) (LintRatchetBaseline N) :=
  match parseGroupedBaselineDocument
      (lintRatchetBaselineSpec versionPolicy workflowVocabulary baselineFile) text with
  | .failure error errors => .error (failureList error errors)
  | .ok value _ => .ok (lintRatchetBaselineFromGrouped value)

def parseLintRatchetBaseline (text : JsString) (ratchets : List (LintRatchetConfig N))
    (ruleSourceHashesById : JsMap JsString) (workflowVocabulary : LintRatchetWorkflowVocabulary)
    (versionPolicy : LintRatchetBaselineVersionPolicy := defaultVersionPolicy)
    (baselineFile : JsString := defaultBaselineFilename) : ParsedLintRatchetBaseline N :=
  match parseLintRatchetBaselineStructure text workflowVocabulary versionPolicy baselineFile with
  | .error failures =>
    { baseline := none
      validationFailures := failures.map fun message => { code := .structural, message }
      warnings := [] }
  | .ok baseline =>
    let registry :=
      validateBaselineAgainstRegistry baseline ratchets ruleSourceHashesById workflowVocabulary
    let failures := registry ++
      pushWhen (registry = [] && formatLintRatchetBaseline baseline workflowVocabulary ≠ text)
        .nondeterministicJson
        (js "baseline JSON is not deterministic; run " ++ workflowVocabulary.updateCommand)
    { baseline := if failures = [] then some baseline else none
      validationFailures := failures
      warnings := regenerateWarning baseline workflowVocabulary }

end Musi.LintRatchet
