import Musi.LintRatchet.Kernel.BaselineFacts
import Musi.LintRatchet.Kernel.CanonicalValue
import Musi.LintRatchet.Kernel.ItemMerge
import Musi.Merge.ThreeWay

namespace Musi.LintRatchet
set_option autoImplicit true

section
open Musi.Js

/-! ## The merge of ratchet baselines -/

structure MergeLintRatchetBaselinesOptions where
  baseText : JsString
  currentText : JsString
  otherText : JsString
  versionPolicy : LintRatchetBaselineVersionPolicy := defaultVersionPolicy
  workflowVocabulary : LintRatchetWorkflowVocabulary
  baselineFile : JsString := defaultBaselineFilename

structure MergeLintRatchetBaselinesResult where
  mergedText : Option JsString := none
  failures : List JsString
  postMergeTruthUpRequired : Bool
  deriving DecidableEq

/-- String.prototype.replace of the first occurrence of a string. -/
def replaceFirst (pattern replacement : JsString) (s : JsString) : JsString :=
  if startsWith s pattern then replacement ++ s.drop pattern.length
  else match s with
    | [] => []
    | c :: cs => c :: replaceFirst pattern replacement cs
termination_by structural s

def ratchetMergeFailure (failure : JsString) : JsString :=
  replaceFirst (js ": one side removed the baseline group while the other changed it;")
    (js ": one side removed the ratchet while the other changed it;")
    (replaceFirst (js ": baseline group metadata differs between sides;")
      (js ": ratchet metadata differs between sides;") failure)

section
variable {N : Type} [JsNumber N] [Host]

/-- The baseline that a blank base stands for. -/
def emptyBaseline (options : MergeLintRatchetBaselinesOptions) : LintRatchetBaseline N where
  version := options.versionPolicy.writeVersion
  regenerate := (regenerateForVersion options.versionPolicy.writeVersion
    options.workflowVocabulary.updateCommand).map .str
  tests := Record.empty

def parseMergeBaseline (options : MergeLintRatchetBaselinesOptions) (label text : JsString) :
    Except (List JsString) (LintRatchetBaseline N) :=
  if label = js "base" ∧ trim text = [] then .ok (emptyBaseline options)
  else match parseLintRatchetBaselineStructure text options.workflowVocabulary
      options.versionPolicy options.baselineFile with
  | .ok baseline => .ok baseline
  | .error failures => .error (failures.map fun failure => label ++ js " " ++ failure)

def parseFailures : Except (List JsString) (LintRatchetBaseline N) → List JsString
  | .ok _ => []
  | .error failures => failures

/-- The merged baseline, or the surviving part of it; `none` is the throw on a version that the
policy does not accept. -/
def mergedBaseline (baseline : RatchetGrouped N)
    (versionPolicy : LintRatchetBaselineVersionPolicy) : Option (LintRatchetBaseline N) :=
  if baseline.version ∈ versionPolicy.acceptedVersions then
    some (lintRatchetBaselineFromGrouped baseline)
  else none

def validateMergedBaseline (baseline : LintRatchetBaseline N) : List JsString :=
  baseline.tests.entries.flatMap fun t =>
    failWhen (t.2.ruleSourceHash = []) (t.1 ++ js ".ruleSourceHash is required") ++
      t.2.items.entries.flatMap fun i =>
        validateMetricItem (t.1 ++ js ".items." ++ i.1) t.2.metric i.2

/-- The merge of three parsed baselines. -/
def mergeParsed (options : MergeLintRatchetBaselinesOptions)
    (base current other : LintRatchetBaseline N) : Option MergeLintRatchetBaselinesResult :=
  let grouped := mergeGroupedBaselineDocuments
    (lintRatchetBaselineSpec options.versionPolicy options.workflowVocabulary options.baselineFile)
    { base := lintRatchetBaselineToGrouped base, current := lintRatchetBaselineToGrouped current,
      other := lintRatchetBaselineToGrouped other }
  (mergedBaseline grouped.baseline options.versionPolicy).map fun baseline =>
    let failures := grouped.failures.map ratchetMergeFailure ++ validateMergedBaseline baseline
    if failures ≠ [] then { failures, postMergeTruthUpRequired := false }
    else
      { mergedText := some (formatLintRatchetBaseline baseline options.workflowVocabulary)
        failures := []
        postMergeTruthUpRequired := grouped.postMergeTruthUpRequired }

variable (N) in
def mergeLintRatchetBaselines (options : MergeLintRatchetBaselinesOptions) :
    Option MergeLintRatchetBaselinesResult :=
  let base : Except (List JsString) (LintRatchetBaseline N) :=
    parseMergeBaseline options (js "base") options.baseText
  let current : Except (List JsString) (LintRatchetBaseline N) :=
    parseMergeBaseline options (js "current") options.currentText
  let other : Except (List JsString) (LintRatchetBaseline N) :=
    parseMergeBaseline options (js "other") options.otherText
  match base, current, other with
  | .ok base, .ok current, .ok other => mergeParsed options base current other
  | _, _, _ => some
      { failures := parseFailures base ++ parseFailures current ++ parseFailures other
        postMergeTruthUpRequired := false }

end

end

section
open Musi.Js Musi.Merge

/-! ## The rounds of a merge -/

section Documents
variable {N GroupMeta Item : Type} [JsNumber N] {spec : GroupedBaselineSpec N GroupMeta Item}
  {input : MergeGroupedBaselineInput N GroupMeta Item}

omit [JsNumber N] in
theorem groupVersions_absent {groupId : JsString} (h : groupId ∉ allGroupIds spec input) :
    groupVersions input groupId = { base := none, current := none, other := none } := by
  simp only [allGroupIds, mem_sortBy, List.mem_eraseDups, List.mem_append, not_or,
    ← JsMap.get_none] at h
  simp only [groupVersions, h]

/-- What a merge makes of each group. -/
theorem get_mergeDocuments (groupId : JsString) :
    (mergeGroupedBaselineDocuments spec input).baseline.groups.get groupId =
      (mergeGroup spec groupId (groupVersions input groupId)).group := by
  have hn : (allGroupIds spec input).Nodup := nodup_sortBy.2 (nodup_eraseDups _)
  rw [mergeGroupedBaselineDocuments, groupedMergeOutput]
  dsimp only
  rw [List.filterMap_map]
  refine (JsMap.get_ofList_filterMap hn groupId).trans ?_
  split
  · rfl
  · next h =>
    rw [groupVersions_absent h]
    rfl

theorem failures_mergeDocuments : (mergeGroupedBaselineDocuments spec input).failures = [] ↔
    ∀ groupId, (mergeGroup spec groupId (groupVersions input groupId)).failures = [] := by
  simp only [mergeGroupedBaselineDocuments, List.flatMap_eq_nil_iff, List.forall_mem_map]
  refine ⟨fun h groupId => ?_, fun h groupId _ => h groupId⟩
  by_cases hid : groupId ∈ allGroupIds spec input
  · exact h groupId hid
  · rw [groupVersions_absent hid]
    rfl

theorem truthUp_mergeDocuments (h : (mergeGroupedBaselineDocuments spec input).failures = []) :
    (mergeGroupedBaselineDocuments spec input).postMergeTruthUpRequired = true ↔
      ∃ groupId, (mergeGroup spec groupId (groupVersions input groupId)).truthUpRequired = true := by
  simp only [mergeGroupedBaselineDocuments] at h ⊢
  rw [h, List.isEmpty_nil, Bool.true_and, List.any_map, List.any_eq_true]
  refine ⟨fun ⟨groupId, _, h⟩ => ⟨groupId, h⟩, fun ⟨groupId, h⟩ => ⟨groupId, ?_, h⟩⟩
  by_contra hid
  rw [groupVersions_absent hid] at h
  cases h

end Documents

/-! ## The rounds of ratchets -/

/-- The tests of one id in the three baselines of a merge. -/
structure TestVersions (N : Type) where
  base : Option (LintRatchetBaselineTest N)
  current : Option (LintRatchetBaselineTest N)
  other : Option (LintRatchetBaselineTest N)

def TestVersions.groups (versions : TestVersions N) :
    GroupVersions (LintRatchetBaselineGroupMeta N) LintRatchetMetricItem where
  base := versions.base.map groupOfTest
  current := versions.current.map groupOfTest
  other := versions.other.map groupOfTest

def testVersions (base current other : LintRatchetBaseline N) (testId : JsString) :
    TestVersions N where
  base := base.tests.own testId
  current := current.tests.own testId
  other := other.tests.own testId

variable {N : Type} [JsNumber N] [Host]

/-- Every test of a baseline is one that the structural parser accepts. -/
def TestsWellFormed (baseline : LintRatchetBaseline N) : Prop :=
  ∀ testId test, baseline.tests.own testId = some test → TestWellFormed testId test

/-- The tests of one id are ones that the structural parser accepts. -/
structure VersionsWellFormed (testId : JsString) (versions : TestVersions N) : Prop where
  base : ∀ test, versions.base = some test → TestWellFormed testId test
  current : ∀ test, versions.current = some test → TestWellFormed testId test
  other : ∀ test, versions.other = some test → TestWellFormed testId test

omit [Host] in
theorem TestsWellFormed.versions {base current other : LintRatchetBaseline N}
    (hb : TestsWellFormed base) (hc : TestsWellFormed current) (ho : TestsWellFormed other)
    (testId : JsString) : VersionsWellFormed testId (testVersions base current other testId) :=
  ⟨hb testId, hc testId, ho testId⟩

omit [JsNumber N] [Host] in
theorem groupVersions_toGrouped (base current other : LintRatchetBaseline N) (testId : JsString) :
    groupVersions { base := lintRatchetBaselineToGrouped base
                    current := lintRatchetBaselineToGrouped current
                    other := lintRatchetBaselineToGrouped other } testId =
      (testVersions base current other testId).groups := by
  simp only [groupVersions, get_toGrouped, TestVersions.groups, testVersions]

omit [Host] in
theorem itemsJson_injective {a b : Record LintRatchetMetricItem}
    (ha : ∀ path item, a.own path = some item → ItemWellFormed N item)
    (hb : ∀ path item, b.own path = some item → ItemWellFormed N item)
    (h : (itemsJson a : Json N) = itemsJson b) : a = b := by
  refine Record.ext (eq_of_map_eq (Json.obj.inj h) fun e he f hf heq => ?_)
  obtain ⟨hkey, hitem⟩ := Prod.mk.inj heq
  exact Prod.ext hkey (itemJson_injective (ha e.1 e.2 (Record.mem_entries.1 he))
    (hb f.1 f.2 (Record.mem_entries.1 hf)) hitem)

/-- Two well-formed tests are written alike exactly when they have one canonical form. -/
theorem sameCanonicalGroup_tests {testId : JsString} {left right : LintRatchetBaselineTest N}
    (versionPolicy : LintRatchetBaselineVersionPolicy)
    (workflowVocabulary : LintRatchetWorkflowVocabulary) (baselineFile : JsString)
    (hl : TestWellFormed testId left) (hr : TestWellFormed testId right) :
    sameCanonicalGroup (lintRatchetBaselineSpec versionPolicy workflowVocabulary baselineFile) testId
      (groupOfTest left) (groupOfTest right) = true ↔ canonicalTest left = canonicalTest right := by
  rw [sameCanonicalGroup, decide_eq_true_eq, formattedGroupedTest_eq, formattedGroupedTest_eq]
  refine ⟨fun h => ?_, fun h => by rw [h]⟩
  have hfields := Json.obj.inj (stringify_injective (canonical_testFields hl.canonical)
    (canonical_testFields hr.canonical) h)
  obtain ⟨hmeta, hitems⟩ := List.append_inj hfields rfl
  have hmeta := metaFields_injective hmeta
  simp only [List.cons.injEq, Prod.mk.injEq, true_and, and_true] at hitems
  have hitems := itemsJson_injective (fun p i hi => (hl.canonical.items p i hi).1)
    (fun p i hi => (hr.canonical.items p i hi).1) hitems
  generalize canonicalTest left = l at hmeta hitems
  generalize canonicalTest right = r at hmeta hitems
  cases l
  cases r
  cases hmeta
  cases hitems
  rfl

/-- Which side of a test a merge takes. -/
def TestVersions.choice (versions : TestVersions N) : Choice :=
  choose (versions.base.map canonicalTest) (versions.current.map canonicalTest)
    (versions.other.map canonicalTest)

section Rounds
variable (versionPolicy : LintRatchetBaselineVersionPolicy)
  (workflowVocabulary : LintRatchetWorkflowVocabulary) (baselineFile : JsString)

theorem chooseSimpleGroupMerge_tests {testId : JsString} {versions : TestVersions N}
    (h : VersionsWellFormed testId versions) :
    chooseSimpleGroupMerge (lintRatchetBaselineSpec versionPolicy workflowVocabulary baselineFile)
      testId versions.groups =
        match versions.choice with
        | .current => .resolved versions.groups.current
        | .other => .resolved versions.groups.other
        | .both => .unresolved := by
  have hsame {left right : LintRatchetBaselineTest N} (hl : TestWellFormed testId left)
      (hr : TestWellFormed testId right) :
      sameCanonicalGroup (lintRatchetBaselineSpec versionPolicy workflowVocabulary baselineFile)
        testId (groupOfTest left) (groupOfTest right) =
          decide (canonicalTest left = canonicalTest right) :=
    Bool.eq_iff_iff.2 ((sameCanonicalGroup_tests versionPolicy workflowVocabulary baselineFile hl
      hr).trans (decide_eq_true_iff).symm)
  obtain ⟨base, current, other⟩ := versions
  simp only [TestVersions.choice, TestVersions.groups, choose]
  cases current with
  | none =>
    cases other with
    | none => rfl
    | some other =>
      cases base with
      | none => rfl
      | some base =>
        simp only [chooseSimpleGroupMerge, chooseAgainstBase, sameOptionalGroup, Option.map_some,
          Option.map_none, hsame (h.other _ rfl) (h.base _ rfl), decide_eq_true_eq,
          Option.some.injEq, reduceCtorEq, Bool.false_eq_true, if_false]
        split <;> rfl
  | some current =>
    cases other with
    | none =>
      cases base with
      | none => rfl
      | some base =>
        simp only [chooseSimpleGroupMerge, chooseAgainstBase, sameOptionalGroup, Option.map_some,
          Option.map_none, hsame (h.current _ rfl) (h.base _ rfl), decide_eq_true_eq,
          Option.some.injEq, reduceCtorEq, Bool.false_eq_true, if_false]
        split <;> rfl
    | some other =>
      cases base with
      | none =>
        simp only [chooseSimpleGroupMerge, chooseAgainstBase, chooseWithoutBase, Option.map_some,
          Option.map_none, hsame (h.current _ rfl) (h.other _ rfl), decide_eq_true_eq,
          Option.some.injEq, reduceCtorEq, if_false]
        split <;> rfl
      | some base =>
        simp only [chooseSimpleGroupMerge, chooseAgainstBase, sameOptionalGroup, Option.map_some,
          hsame (h.current _ rfl) (h.other _ rfl), hsame (h.current _ rfl) (h.base _ rfl),
          hsame (h.other _ rfl) (h.base _ rfl), decide_eq_true_eq, Option.some.injEq]
        split
        · rfl
        · split
          · rfl
          · split <;> rfl

/-- The merge of one ratchet. -/
def mergeTest (testId : JsString) (versions : TestVersions N) :
    ChangedGroupResult (LintRatchetBaselineGroupMeta N) LintRatchetMetricItem :=
  match versions.choice with
  | .current => { group := versions.groups.current, failures := [], truthUpRequired := false }
  | .other => { group := versions.groups.other, failures := [], truthUpRequired := false }
  | .both =>
    match versions.current, versions.other with
    | some current, some other =>
      mergeChangedGroup (lintRatchetBaselineSpec versionPolicy workflowVocabulary baselineFile)
        testId versions.groups.base (groupOfTest current) (groupOfTest other)
    | _, _ =>
      { group := none
        failures := [testId ++ js ": one side removed the baseline group while the other changed it; regenerate the baseline after resolving other conflicts"]
        truthUpRequired := false }

theorem mergeGroup_tests {testId : JsString} {versions : TestVersions N}
    (h : VersionsWellFormed testId versions) :
    mergeGroup (lintRatchetBaselineSpec versionPolicy workflowVocabulary baselineFile) testId
      versions.groups =
        mergeTest versionPolicy workflowVocabulary baselineFile testId versions := by
  rw [mergeGroup, chooseSimpleGroupMerge_tests versionPolicy workflowVocabulary baselineFile h,
    mergeTest]
  obtain ⟨base, current, other⟩ := versions
  cases TestVersions.choice { base, current, other } with
  | current => rfl
  | other => rfl
  | both => cases current <;> cases other <;> rfl

end Rounds

/-! ## The merged baseline -/

section Merged
variable (options : MergeLintRatchetBaselinesOptions) (base current other : LintRatchetBaseline N)

/-- The merge of the three baselines as grouped documents. -/
def groupedMerge : MergeGroupedBaselineResult N (LintRatchetBaselineGroupMeta N)
    LintRatchetMetricItem :=
  mergeGroupedBaselineDocuments
    (lintRatchetBaselineSpec options.versionPolicy options.workflowVocabulary options.baselineFile)
    { base := lintRatchetBaselineToGrouped base, current := lintRatchetBaselineToGrouped current,
      other := lintRatchetBaselineToGrouped other }

/-- The round of one ratchet in the merge of three baselines. -/
def mergeRound (testId : JsString) :
    ChangedGroupResult (LintRatchetBaselineGroupMeta N) LintRatchetMetricItem :=
  mergeTest options.versionPolicy options.workflowVocabulary options.baselineFile testId
    (testVersions base current other testId)

/-- The baseline that the rounds leave. -/
def mergedOf : LintRatchetBaseline N :=
  lintRatchetBaselineFromGrouped (groupedMerge options base current other).baseline

/-- Every test has its rule source hash, and every item is one of its metric. -/
structure MergedValid (baseline : LintRatchetBaseline N) : Prop where
  ruleSourceHash : ∀ testId test, baseline.tests.own testId = some test → test.ruleSourceHash ≠ []
  items : ItemsValid baseline

omit [JsNumber N] [Host] in
theorem validateMergedBaseline_nil {baseline : LintRatchetBaseline N} :
    validateMergedBaseline baseline = [] ↔ MergedValid baseline := by
  simp only [validateMergedBaseline, List.flatMap_eq_nil_iff, List.append_eq_nil_iff, failWhen_nil,
    decide_eq_false_iff_not, validateMetricItem_nil, Prod.forall, Record.mem_entries]
  exact ⟨fun h => ⟨fun id t ht => (h id t ht).1, fun id t ht p i hi => (h id t ht).2 p i hi⟩,
    fun h id t ht => ⟨h.ruleSourceHash id t ht, fun p i hi => h.items id t ht p i hi⟩⟩

variable {options base current other}

theorem mergeRound_eq (hb : TestsWellFormed base) (hc : TestsWellFormed current)
    (ho : TestsWellFormed other) (testId : JsString) :
    mergeGroup (lintRatchetBaselineSpec options.versionPolicy options.workflowVocabulary
        options.baselineFile) testId
      (groupVersions { base := lintRatchetBaselineToGrouped base
                       current := lintRatchetBaselineToGrouped current
                       other := lintRatchetBaselineToGrouped other } testId) =
      mergeRound options base current other testId := by
  rw [groupVersions_toGrouped]
  exact mergeGroup_tests _ _ _ (hb.versions hc ho testId)

theorem own_mergedOf (hb : TestsWellFormed base) (hc : TestsWellFormed current)
    (ho : TestsWellFormed other) (testId : JsString) :
    (mergedOf options base current other).tests.own testId =
      (mergeRound options base current other testId).group.map baselineTestFromGroup := by
  rw [mergedOf, own_fromGrouped, groupedMerge, get_mergeDocuments, mergeRound_eq hb hc ho]

theorem groupedMerge_failures (hb : TestsWellFormed base) (hc : TestsWellFormed current)
    (ho : TestsWellFormed other) : (groupedMerge options base current other).failures = [] ↔
      ∀ testId, (mergeRound options base current other testId).failures = [] := by
  simp only [groupedMerge, failures_mergeDocuments, mergeRound_eq hb hc ho]

theorem groupedMerge_truthUp (hb : TestsWellFormed base) (hc : TestsWellFormed current)
    (ho : TestsWellFormed other) (h : (groupedMerge options base current other).failures = []) :
    (groupedMerge options base current other).postMergeTruthUpRequired = true ↔
      ∃ testId, (mergeRound options base current other testId).truthUpRequired = true := by
  rw [groupedMerge, truthUp_mergeDocuments h]
  simp only [mergeRound_eq hb hc ho]

/-- The merge of three parsed baselines resolves. -/
structure Resolves (options : MergeLintRatchetBaselinesOptions)
    (base current other : LintRatchetBaseline N) : Prop where
  version : options.versionPolicy.writeVersion ∈ options.versionPolicy.acceptedVersions
  rounds : ∀ testId, (mergeRound options base current other testId).failures = []
  valid : MergedValid (mergedOf options base current other)

def resolvedResult (options : MergeLintRatchetBaselinesOptions)
    (base current other : LintRatchetBaseline N) : MergeLintRatchetBaselinesResult where
  mergedText := some (formatLintRatchetBaseline (mergedOf options base current other)
    options.workflowVocabulary)
  failures := []
  postMergeTruthUpRequired := (groupedMerge options base current other).postMergeTruthUpRequired

theorem mergeParsed_resolves (hb : TestsWellFormed base) (hc : TestsWellFormed current)
    (ho : TestsWellFormed other) (h : Resolves options base current other) :
    mergeParsed options base current other = some (resolvedResult options base current other) := by
  have hfail := (groupedMerge_failures hb hc ho).2 h.rounds
  have hvalid := validateMergedBaseline_nil.2 h.valid
  have hmerged : mergedBaseline (groupedMerge options base current other).baseline
      options.versionPolicy = some (mergedOf options base current other) := if_pos h.version
  rw [mergeParsed]
  change (mergedBaseline (groupedMerge options base current other).baseline
    options.versionPolicy).map _ = _
  rw [hmerged, Option.map_some]
  change some (if (groupedMerge options base current other).failures.map ratchetMergeFailure ++ _ ≠ []
    then _ else _) = _
  rw [hfail, hvalid]
  rfl

/-- A merge with a text resolves. -/
theorem mergeParsed_text (hb : TestsWellFormed base) (hc : TestsWellFormed current)
    (ho : TestsWellFormed other) {result : MergeLintRatchetBaselinesResult}
    (h : mergeParsed options base current other = some result) (ht : result.mergedText ≠ none) :
    Resolves options base current other ∧ result = resolvedResult options base current other := by
  have hresolves : Resolves options base current other := by
    change (mergedBaseline (groupedMerge options base current other).baseline
      options.versionPolicy).map _ = _ at h
    obtain ⟨baseline, hmerged, hresult⟩ := Option.map_eq_some_iff.1 h
    rw [mergedBaseline] at hmerged
    split at hmerged
    · next hversion =>
      cases hmerged
      dsimp only at hresult
      split at hresult
      · rw [← hresult] at ht
        exact (ht rfl).elim
      · next hnil =>
        obtain ⟨hfail, hvalid⟩ := List.append_eq_nil_iff.1 (not_not.1 hnil)
        exact ⟨hversion, (groupedMerge_failures hb hc ho).1 (List.map_eq_nil_iff.1 hfail),
          validateMergedBaseline_nil.1 hvalid⟩
    · cases hmerged
  rw [mergeParsed_resolves hb hc ho hresolves] at h
  exact ⟨hresolves, (Option.some.inj h).symm⟩

end Merged

end

end Musi.LintRatchet
