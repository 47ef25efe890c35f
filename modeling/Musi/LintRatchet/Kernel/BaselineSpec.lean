import Musi.LintRatchet.Kernel.BaselineItemParse
import Musi.LintRatchet.Kernel.GroupBaselineMerge
import Musi.LintRatchet.Kernel.GroupBaselineParse

namespace Musi.LintRatchet
open Musi.Js
set_option autoImplicit true

variable {N : Type} [JsNumber N]

/-! ## Group metadata -/

/-- The strings of an array of strings. -/
def stringValues : List (Json N) → Option (List JsString)
  | [] => some []
  | .str s :: vs => (stringValues vs).map (s :: ·)
  | _ :: _ => none

def parseStringArray (v : Option (Json N)) (field : JsString) : Parsed (List JsString) :=
  match v with
  | some (.arr values) =>
    match stringValues values with
    | some strings => .ok strings
    | none => .fail (field ++ js " must contain only strings")
  | _ => .fail (field ++ js " must be an array")

def parseRuleOptions (v : Option (Json N)) : Parsed (List (Json N)) :=
  match v with
  | some (.arr values) =>
    if values.all isJsonValue then .ok (values.map normalizeJsonValue)
    else .fail (js "ruleOptions must contain only JSON values")
  | _ => .fail (js "ruleOptions must be an array")

def ruleIdString (v : Json N) : Option JsString :=
  match v with
  | .str s => if isBaselineRuleId s then some s else none
  | _ => none

def modeValue (v : Json N) : Option LintRatchetMode :=
  if v = .str LintRatchetMode.noNew.text then some .noNew else none

def metricValue (v : Json N) : Option LintRatchetMetric :=
  if v = .str LintRatchetMetric.complexitySeverity.text then some .complexitySeverity
  else if v = .str LintRatchetMetric.effectiveLineCount.text then some .effectiveLineCount
  else if v = .str LintRatchetMetric.messageCount.text then some .messageCount
  else none

/-- An absent ruleSourceHash is left for the registry validation to report. -/
def parseRuleSourceHash (v : Option (Json N)) : Parsed (Option JsString) :=
  { value := some (v.bind sha256String)
    failures := failWhen (v.isSome && (v.bind sha256String).isNone)
      (js "ruleSourceHash must be a sha256 hash") }

def parseGroupMetaParts (fields : Entries (Json N)) : Parsed (LintRatchetBaselineGroupMeta N) :=
  let get (name : JsString) := List.lookup name fields
  let ruleId := requiredField (get (js "ruleId")) ruleIdString
    (js "ruleId must be a bare or namespaced ESLint rule id")
  let mode := requiredField (get (js "mode")) modeValue (js "mode is unknown")
  let metric := requiredField (get (js "metric")) metricValue (js "metric is unknown")
  let configHash := requiredField (get (js "configHash")) sha256String
    (js "configHash must be a sha256 hash")
  let ruleSourceHash := parseRuleSourceHash (get (js "ruleSourceHash"))
  let files := parseStringArray (get (js "files")) (js "files")
  let ignores := parseStringArray (get (js "ignores")) (js "ignores")
  let ruleOptions := parseRuleOptions (get (js "ruleOptions"))
  { value := match ruleId.value, mode.value, metric.value, configHash.value, files.value,
        ignores.value, ruleOptions.value with
      | some ruleId, some mode, some metric, some configHash, some files, some ignores,
          some ruleOptions =>
        some { ruleId, mode, metric, files, ignores, ruleOptions, configHash,
               ruleSourceHash := ruleSourceHash.value.join.getD [] }
      | _, _, _, _, _, _, _ => none
    failures := failWhen (get (js "files")).isNone (js "files is required") ++
      failWhen (get (js "ruleOptions")).isNone (js "ruleOptions is required") ++
      ruleId.failures ++ mode.failures ++ metric.failures ++ configHash.failures ++
      ruleSourceHash.failures ++ files.failures ++ ignores.failures ++ ruleOptions.failures }

def parseLintRatchetGroupMeta (testId : JsString) (fields : Entries (Json N)) :
    GroupedParseResult (LintRatchetBaselineGroupMeta N) :=
  let parts := parseGroupMetaParts fields
  match failWhen (!isRatchetId testId) (js "id must match ratchet/<name>") ++ parts.failures,
      parts.value with
  | [], some value => .ok value []
  | [], none => .failure (js "metadata is invalid") (some [js "metadata is invalid"])
  | error :: errors, _ => .failure error (some (error :: errors))

/-- The fields of a group's metadata in the order the formatter writes them. -/
def metaFields (m : LintRatchetBaselineGroupMeta N) : Entries (Json N) :=
  [(js "ruleId", .str m.ruleId), (js "mode", .str m.mode.text), (js "metric", .str m.metric.text),
    (js "files", stringsJson m.files), (js "ignores", stringsJson m.ignores),
    (js "ruleOptions", .arr m.ruleOptions), (js "configHash", .str m.configHash),
    (js "ruleSourceHash", .str m.ruleSourceHash)]

/-- The metadata with its lists and options in canonical form. -/
def normalizedMeta (m : LintRatchetBaselineGroupMeta N) : LintRatchetBaselineGroupMeta N :=
  { m with files := normalizeStringList m.files, ignores := normalizeStringList m.ignores,
           ruleOptions := normalizeRuleOptions m.ruleOptions }

def formatGroupMeta (m : LintRatchetBaselineGroupMeta N) : Entries (Json N) :=
  metaFields (normalizedMeta m)

def metaJson (m : LintRatchetBaselineGroupMeta N) : Json N := .obj (metaFields m)

/-! ## Items -/

def relativeLintRatchetItemFailure (location failure : JsString) : JsString :=
  if startsWith failure (location ++ js ".") then failure.drop (location ++ js ".").length
  else if startsWith failure (location ++ js ": ") then failure.drop (location ++ js ": ").length
  else failure

def parseItem (testId : JsString) (path : Option JsString) (raw : Json N) :
    GroupedParseResult (KeyedGroupedItem LintRatchetMetricItem) :=
  match path with
  | none =>
    let error := testId ++ js ".items path is required"
    .failure error (some [error])
  | some path =>
    let location := testId ++ js ".items." ++ path
    let parsed := parseLintRatchetBaselineItem path raw location
    match parsed.value, parsed.failures with
    | some item, [] => .ok { key := path, item } []
    | none, [] => .failure (js "item is invalid") (some [js "item is invalid"])
    | _, failures =>
      let errors := failures.map (relativeLintRatchetItemFailure location)
      .failure (errors.head?.getD (js "item is invalid")) (some errors)

def lowerCountItem (left right : LintRatchetMetricItem) : Option LintRatchetMetricItem :=
  if left.count < right.count then some left
  else if right.count < left.count then some right
  else none

def mergeSharedItem (N : Type) [JsNumber N] [Host] (metric : LintRatchetMetric)
    (testId path : JsString) (current other : LintRatchetMetricItem) :
    ItemMergeOutcome LintRatchetMetricItem :=
  match lowerCountItem current other with
  | some lower => { item := some lower, truthUp := true }
  | none =>
    let result := meetSameCountItem N metric (testId ++ js ".items." ++ path) current other
    match result.failure with
    | some failure => { failure := some failure }
    | none => { item := result.item, truthUp := result.postMergeTruthUpRequired }

def itemMergePolicy [Host] (testId : JsString) (m : LintRatchetBaselineGroupMeta N) :
    GroupedItemMergePolicy LintRatchetMetricItem where
  mergeShared := mergeSharedItem N m.metric testId
  mergeOneSided _ present base :=
    match base with
    | none => { item := some present }
    | some _ => { truthUp := true }

/-! ## The spec and the two representations of a baseline -/

structure LintRatchetBaselineVersionPolicy where
  writeVersion : Nat
  acceptedVersions : List Nat

def legacyVersion : Nat := 1

def annotatedVersion : Nat := 2

/-- createLintRatchetBaselineVersionPolicy -/
def versionPolicyFor (writeVersion : Nat) : LintRatchetBaselineVersionPolicy where
  writeVersion := writeVersion
  acceptedVersions := [legacyVersion, annotatedVersion]

/-- LINT_RATCHET_BASELINE_VERSION_POLICY -/
def defaultVersionPolicy : LintRatchetBaselineVersionPolicy := versionPolicyFor annotatedVersion

def regenerateForVersion (version : Nat) (updateCommand : JsString) : Option JsString :=
  if version = annotatedVersion then some updateCommand else none

def lintRatchetBaselineSpec [Host] (versionPolicy : LintRatchetBaselineVersionPolicy)
    (workflowVocabulary : LintRatchetWorkflowVocabulary) (baselineFile : JsString) :
    GroupedBaselineSpec N (LintRatchetBaselineGroupMeta N) LintRatchetMetricItem where
  writeVersion := versionPolicy.writeVersion
  acceptedReadVersions := versionPolicy.acceptedVersions
  rootKey := .tests
  regenerate := regenerateForVersion versionPolicy.writeVersion workflowVocabulary.updateCommand
  preserveRegenerateOnFormat := true
  conflictMarkerRemediation := some
    { baselineFile, installerCommand := workflowVocabulary.installMergeDriverCommand
      restoreOursCommand := workflowVocabulary.restoreBaselineOursCommand baselineFile
      updateCommand := workflowVocabulary.updateCommand }
  singleGroupId := none
  requireSortedKeysOnParse := false
  compareGroupKeys := compareByCodepoint
  compareItemKeys := compareByCodepoint
  parseGroupMeta testId fields _ := parseLintRatchetGroupMeta testId fields
  formatGroupMeta _ m _ _ := formatGroupMeta m
  sameGroupMeta left right := sameCanonicalValue (metaJson left) (metaJson right)
  parseItem := parseItem
  formatItem _ _ item m := itemJson (formatItem m.metric item)
  itemCount item := JsNumber.ofInt item.count
  itemMergePolicy := itemMergePolicy

abbrev RatchetGroup (N : Type) :=
  GroupedBaselineGroup (LintRatchetBaselineGroupMeta N) LintRatchetMetricItem

abbrev RatchetGrouped (N : Type) :=
  GroupedBaseline N (LintRatchetBaselineGroupMeta N) LintRatchetMetricItem

def positiveItemMap (items : Record LintRatchetMetricItem) : JsMap LintRatchetMetricItem :=
  JsMap.ofList (items.entries.filter fun e => e.2.count > 0)

def groupOfTest (test : LintRatchetBaselineTest N) : RatchetGroup N :=
  { groupMeta := test.toLintRatchetBaselineGroupMeta, items := positiveItemMap test.items }

def lintRatchetBaselineToGrouped (baseline : LintRatchetBaseline N) : RatchetGrouped N where
  version := baseline.version
  regenerate := baseline.regenerate
  groups := JsMap.ofList (baseline.tests.entries.map fun e => (e.1, groupOfTest e.2))

omit [JsNumber N] in
theorem get_toGrouped (baseline : LintRatchetBaseline N) (testId : JsString) :
    (lintRatchetBaselineToGrouped baseline).groups.get testId =
      (baseline.tests.own testId).map groupOfTest :=
  JsMap.get_ofList_map baseline.tests.nodup (fun _ => groupOfTest) testId

def baselineTestFromGroup (group : RatchetGroup N) : LintRatchetBaselineTest N :=
  { group.groupMeta with
    items := Record.fromEntries (group.items.entries.filter fun e => e.2.count > 0) }

/-- The source throws on a version its policy does not accept; its callers have checked it. -/
def lintRatchetBaselineFromGrouped (baseline : RatchetGrouped N) : LintRatchetBaseline N where
  version := baseline.version
  regenerate := baseline.regenerate
  tests := Record.fromEntries (baseline.groups.entries.map fun e =>
    (e.1, baselineTestFromGroup e.2))

end Musi.LintRatchet
