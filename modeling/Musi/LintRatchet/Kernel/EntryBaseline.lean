import Musi.Js.JsonWire
import Musi.LintRatchet.Kernel.ItemMerge
import Musi.LintRatchet.Kernel.GroupBaselineParse

namespace Musi.LintRatchet
open Musi.Js
set_option autoImplicit true

/-! ## The flat family: one group of entries -/

/-- What the flat family reads of an entry, and the spread that replaces its count. -/
class BaselineEntry (N Entry : Type) where
  key : Entry → JsString
  count : Entry → Option N
  withCount : Entry → N → Entry
  key_withCount : ∀ e n, key (withCount e n) = key e
  count_withCount : ∀ e n, count (withCount e n) = some n

/-- One concrete entry type bound to the flat family. Its records hold values that the language
can build. -/
structure BaselineMetricSpec (N Entry : Type) where
  tool : JsString
  metric : JsString
  fixedFields : Record JsString
  regenerate : Option JsString
  conflictMarkerRemediation : Option BaselineConflictMarkerRemediation
  parseEntry : Json N → GroupedParseResult Entry
  formatEntry : Entry → Record (Json N)
  summarize : List Entry → Record (Json N)
  built_formatEntry : ∀ entry, ∀ e ∈ (formatEntry entry).entries, Built e.2
  built_summarize : ∀ entries, ∀ e ∈ (summarize entries).entries, Built e.2

structure SingleGroupMeta where
  tool : JsString
  metric : JsString
  fixedFields : Record JsString

inductive OneSidedEntryStrategy where
  | intersection
  | baseAware
  deriving DecidableEq

/-- The options of a merge; without a strategy it is `intersection`. -/
structure SingleGroupMergePolicyOptions (Entry : Type) where
  oneSidedEntryStrategy : Option OneSidedEntryStrategy := none
  preserveOneSidedAddition : Option (Entry → Bool) := none

def singleGroupId : JsString := js "baseline"

def singleGroupSchemaVersion : Nat := 2

section
variable {N Entry : Type} [JsNumber N] [BaselineEntry N Entry]

def entryCount (N : Type) {Entry : Type} [JsNumber N] [BaselineEntry N Entry] (entry : Entry) : N :=
  (BaselineEntry.count entry).getD (JsNumber.ofInt 1)

variable (spec : BaselineMetricSpec N Entry)

/-- The record that an entry is written as. -/
def BaselineMetricSpec.entryJson (entry : Entry) : Json N := .obj (spec.formatEntry entry).entries

def BaselineMetricSpec.summaryJson (entries : List Entry) : Json N :=
  .obj (spec.summarize entries).entries

def fixedMeta : SingleGroupMeta where
  tool := spec.tool
  metric := spec.metric
  fixedFields := spec.fixedFields

def checkHeader (raw : Entries (Json N)) : Option JsString :=
  if List.lookup (js "tool") raw ≠ some (.str spec.tool) then
    some (js "baseline tool must be '" ++ spec.tool ++ js "'")
  else if List.lookup (js "metric") raw ≠ some (.str spec.metric) then
    some (js "baseline metric must be '" ++ spec.metric ++ js "'")
  else (spec.fixedFields.entries.find? fun e => List.lookup e.1 raw ≠ some (.str e.2)).map fun e =>
    js "baseline " ++ e.1 ++ js " must be '" ++ e.2 ++ js "'"

def summaryWarning (raw : Entries (Json N)) (items : List (KeyedGroupedItem Entry)) :
    Option JsString :=
  let derivedSummary := stringify (spec.summaryJson (items.map (·.item)))
  let committedSummary := stringify ((List.lookup (js "summary") raw).getD .null)
  if derivedSummary = committedSummary then none
  else some (js "baseline summary does not match the entries; entries govern enforcement (derived " ++
    derivedSummary ++ js ", committed " ++ committedSummary ++ js ")")

def parseGroupMeta (raw : Entries (Json N)) (items : List (KeyedGroupedItem Entry)) :
    GroupedParseResult SingleGroupMeta :=
  match checkHeader spec raw with
  | some headerError => .failure headerError none
  | none => .ok (fixedMeta spec) (summaryWarning spec raw items).toList

/-- The fields of a flat document between its version and its entries. -/
def singleGroupFields (groupMeta : SingleGroupMeta) (entries : List Entry)
    (regenerate : Option JsString) : Entries (Json N) :=
  (Record.fromEntries ([(js "tool", .str groupMeta.tool), (js "metric", .str groupMeta.metric)] ++
    (groupMeta.fixedFields.entries.map fun e => (e.1, .str e.2)) ++
    regenerateField (regenerate.map .str) ++
    [(js "summary", spec.summaryJson entries)])).entries

def singleGroupMetaJson (m : SingleGroupMeta) : Json N :=
  .obj [(js "tool", .str m.tool), (js "metric", .str m.metric),
    (js "meta", .obj (m.fixedFields.entries.map fun e => (e.1, .str e.2)))]

/-- Two entries that differ in more than their counts. -/
def nonCountPayloadDiffers (current other : Entry) : Bool :=
  let normalize (entry : Entry) : JsString :=
    stringify (spec.entryJson (BaselineEntry.withCount entry (JsNumber.ofInt 0 : N)))
  normalize current ≠ normalize other

def mergeSharedEntry (key : JsString) (current other : Entry) : ItemMergeOutcome Entry :=
  let currentCount := entryCount N current
  let otherCount := entryCount N other
  if currentCount ≠ otherCount then
    if nonCountPayloadDiffers spec current other then
      { failure := some (key ++ js ": conflicting counts also disagree on non-count fields; reconcile the baseline by hand") }
    else
      { item := some (if JsNumber.less currentCount otherCount then current else other)
        truthUp := true }
  else if stringify (spec.entryJson current) ≠ stringify (spec.entryJson other) then
    { failure := some (key ++ js ": equal-count entries disagree; regenerate the baseline") }
  else { item := some current }

def mergeOneSidedEntry (options : SingleGroupMergePolicyOptions Entry) (presentEntry : Entry)
    (baseEntry : Option Entry) : ItemMergeOutcome Entry :=
  match options.oneSidedEntryStrategy.getD .intersection with
  | .intersection =>
    if baseEntry.isNone && options.preserveOneSidedAddition.any (· presentEntry) then
      { item := some presentEntry }
    else { truthUp := true }
  | .baseAware =>
    match baseEntry with
    | none => { item := some presentEntry }
    | some baseEntry =>
      { truthUp := stringify (spec.entryJson baseEntry) ≠ stringify (spec.entryJson presentEntry) }

def entryMergePolicy (options : SingleGroupMergePolicyOptions Entry) :
    GroupedItemMergePolicy Entry where
  mergeShared := mergeSharedEntry spec
  mergeOneSided _ := mergeOneSidedEntry spec options

def parseKeyedEntry (raw : Json N) : GroupedParseResult (KeyedGroupedItem Entry) :=
  match spec.parseEntry raw with
  | .failure error errors => .failure error errors
  | .ok entry _ => .ok ⟨BaselineEntry.key N entry, entry⟩ []

def singleGroupSpec [Host] (options : SingleGroupMergePolicyOptions Entry) :
    GroupedBaselineSpec N SingleGroupMeta Entry where
  writeVersion := singleGroupSchemaVersion
  acceptedReadVersions := [singleGroupSchemaVersion]
  rootKey := .entries
  regenerate := spec.regenerate
  preserveRegenerateOnFormat := false
  conflictMarkerRemediation := spec.conflictMarkerRemediation
  singleGroupId := some singleGroupId
  requireSortedKeysOnParse := true
  compareGroupKeys := Host.localeCompare
  compareItemKeys := Host.localeCompare
  parseGroupMeta _ raw items := parseGroupMeta spec raw items
  formatGroupMeta _ m items regenerate :=
    singleGroupFields spec m (items.map (·.item)) regenerate
  sameGroupMeta left right :=
    stringify (singleGroupMetaJson left : Json N) = stringify (singleGroupMetaJson right : Json N)
  parseItem _ _ raw := parseKeyedEntry spec raw
  formatItem _ _ entry _ := spec.entryJson entry
  itemCount := entryCount N
  itemMergePolicy _ _ := entryMergePolicy spec options

/-- The flat document of a map of entries. -/
def flatGroups (items : JsMap Entry) (version : Nat) : GroupedBaseline N SingleGroupMeta Entry where
  version := version
  regenerate := none
  groups := JsMap.ofList [(singleGroupId, { groupMeta := fixedMeta spec, items := items })]

def singleGroupBaseline (entries : List Entry) (version : Nat) :
    GroupedBaseline N SingleGroupMeta Entry :=
  flatGroups spec (JsMap.ofList (entries.map fun entry => (BaselineEntry.key N entry, entry)))
    version

/-- parseEntry and formatEntry are inverse on accepted entries: what JSON.parse reads back from
the record of an entry is that entry again. -/
def EntryInverse (spec : BaselineMetricSpec N Entry) : Prop :=
  ∀ raw entry warnings, spec.parseEntry raw = .ok entry warnings →
    ∃ warnings', spec.parseEntry (wire (spec.entryJson entry)) = .ok entry warnings'

omit [JsNumber N] [BaselineEntry N Entry] in
theorem BaselineMetricSpec.built_entryJson (spec : BaselineMetricSpec N Entry) (entry : Entry) :
    Built (spec.entryJson entry) :=
  .obj (spec.formatEntry entry).nodup (spec.formatEntry entry).ordered
    (spec.built_formatEntry entry)

omit [JsNumber N] [BaselineEntry N Entry] in
theorem BaselineMetricSpec.built_summaryJson (spec : BaselineMetricSpec N Entry)
    (entries : List Entry) : Built (spec.summaryJson entries) :=
  .obj (spec.summarize entries).nodup (spec.summarize entries).ordered
    (spec.built_summarize entries)

end

end Musi.LintRatchet
