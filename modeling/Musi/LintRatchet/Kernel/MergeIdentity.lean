import Musi.LintRatchet.Kernel.MergeRounds
import Musi.LintRatchet.Kernel.OneRatchet
import Musi.LintRatchet.Kernel.PosixHost

namespace Musi.LintRatchet
open Musi.Js Musi.Merge
set_option autoImplicit true

section
variable {N : Type} [JsNumber N] [Host] {options : MergeLintRatchetBaselinesOptions}
  {base current other : LintRatchetBaseline N}

/-! ## What the texts of a merge parse to -/

theorem parse_structure_not_blank {text : JsString} {workflowVocabulary : LintRatchetWorkflowVocabulary}
    {versionPolicy : LintRatchetBaselineVersionPolicy} {baselineFile : JsString}
    {baseline : LintRatchetBaseline N}
    (h : parseLintRatchetBaselineStructure text workflowVocabulary versionPolicy baselineFile =
      .ok baseline) : trim text ≠ [] := by
  intro hblank
  obtain ⟨value, warnings, hparse, -⟩ := parse_structure_ok h
  rw [parseGroupedBaselineDocument, parseJsonText, parseJson_blank hblank] at hparse
  cases hparse

variable (options) in
/-- A text that the structural parser accepts, as a side or as the base of a merge. -/
theorem parseMergeBaseline_accepted {text : JsString} {baseline : LintRatchetBaseline N}
    (h : parseLintRatchetBaselineStructure text options.workflowVocabulary options.versionPolicy
      options.baselineFile = .ok baseline) (label : JsString) :
    parseMergeBaseline options label text = .ok baseline := by
  rw [parseMergeBaseline, if_neg fun hb => parse_structure_not_blank h hb.2, h]

theorem mergeLintRatchetBaselines_parsed
    (hb : parseMergeBaseline options (js "base") options.baseText = .ok base)
    (hc : parseMergeBaseline options (js "current") options.currentText = .ok current)
    (ho : parseMergeBaseline options (js "other") options.otherText = .ok other) :
    mergeLintRatchetBaselines N options = mergeParsed options base current other := by
  simp only [mergeLintRatchetBaselines, hb, hc, ho]

theorem parseMergeBaseline_wellFormed {label text : JsString} {baseline : LintRatchetBaseline N}
    (h : parseMergeBaseline options label text = .ok baseline) : TestsWellFormed baseline := by
  unfold parseMergeBaseline at h
  split at h
  · cases h
    intro testId test ht
    cases ht
  · split at h
    · next hparse =>
      cases h
      exact fun testId test ht => parse_structure_wellFormed hparse ht
    · cases h

/-! ## The identity laws -/

/-- A baseline as the merge writes it: at the write version, with that version's annotation. -/
def atWriteVersion (options : MergeLintRatchetBaselinesOptions) (baseline : LintRatchetBaseline N) :
    LintRatchetBaseline N :=
  { baseline with
    version := options.versionPolicy.writeVersion
    regenerate := (regenerateForVersion options.versionPolicy.writeVersion
      options.workflowVocabulary.updateCommand).map .str }

/-- A round that takes a test as it is. -/
def takenRound (test : Option (LintRatchetBaselineTest N)) :
    ChangedGroupResult (LintRatchetBaselineGroupMeta N) LintRatchetMetricItem :=
  { group := test.map groupOfTest, failures := [], truthUpRequired := false }

omit [Host] in
/-- A well-formed test survives the trip through its group. -/
theorem baselineTestFromGroup_groupOfTest {test : LintRatchetBaselineTest N}
    (h : TestWellFormed testId test) : baselineTestFromGroup (groupOfTest test) = test := by
  have hpos (path item) (hi : test.items.own path = some item) : 0 < item.count := (h.items path item hi).2
  have hfilter : test.items.entries.filter (fun e => e.2.count > 0) = test.items.entries :=
    List.filter_eq_self.2 fun e he => by simpa using hpos e.1 e.2 (Record.mem_entries.1 he)
  rw [groupOfTest, positiveItemMap, hfilter]
  exact baselineTestFromGroup_testGroup hpos

omit [Host] in
/-- The test of a round that takes it as it is. -/
theorem takenRound_test {test : Option (LintRatchetBaselineTest N)}
    (h : ∀ t, test = some t → TestWellFormed testId t) :
    (takenRound test).group.map baselineTestFromGroup = test := by
  cases test with
  | none => rfl
  | some t => exact congrArg some (baselineTestFromGroup_groupOfTest (h t rfl))

/-- A merge whose rounds all take tests that are written as those of one baseline writes that
baseline. -/
theorem mergeParsed_taken (hb : TestsWellFormed base) (hc : TestsWellFormed current)
    (ho : TestsWellFormed other) {result : LintRatchetBaseline N} (hr : MergedValid result)
    (hversion : options.versionPolicy.writeVersion ∈ options.versionPolicy.acceptedVersions)
    (hround : ∀ testId, ∃ test, mergeRound options base current other testId = takenRound test ∧
      test.map canonicalTest = (result.tests.own testId).map canonicalTest ∧
      ∀ t, test = some t → TestWellFormed testId t ∧
        ∀ path item, t.items.own path = some item → ItemValid t.metric item) :
    mergeParsed options base current other = some
      { mergedText := some (formatLintRatchetBaseline (atWriteVersion options result)
          options.workflowVocabulary)
        failures := [], postMergeTruthUpRequired := false } := by
  have hown (testId : JsString) : ∃ test,
      (mergedOf options base current other).tests.own testId = test ∧
      test.map canonicalTest = (result.tests.own testId).map canonicalTest ∧
      ∀ t, test = some t → ∀ path item, t.items.own path = some item → ItemValid t.metric item := by
    obtain ⟨test, htaken, hcanonical, htest⟩ := hround testId
    refine ⟨test, ?_, hcanonical, fun t ht => (htest t ht).2⟩
    rw [own_mergedOf hb hc ho, htaken, takenRound]
    cases test with
    | none => rfl
    | some t => exact congrArg some (baselineTestFromGroup_groupOfTest (htest t rfl).1)
  have hresolves : Resolves options base current other := by
    refine ⟨hversion, fun testId => ?_, fun testId test ht => ?_, fun testId test ht => ?_⟩
    · obtain ⟨test, htaken, -⟩ := hround testId
      rw [htaken]
      rfl
    · obtain ⟨_, rfl, hcanonical, -⟩ := hown testId
      rw [ht, Option.map_some] at hcanonical
      obtain ⟨raw, hraw, heq⟩ := Option.map_eq_some_iff.1 hcanonical.symm
      have hhash : (canonicalTest raw).ruleSourceHash = (canonicalTest test).ruleSourceHash := by
        rw [heq]
      exact hhash ▸ hr.ruleSourceHash testId raw hraw
    · obtain ⟨_, rfl, -, hvalid⟩ := hown testId
      exact hvalid test ht
  have htests : (canonicalBaseline (mergedOf options base current other)).tests =
      (canonicalBaseline (atWriteVersion options result)).tests := by
    refine sortedRecord_congr (Record.nodup _) (Record.nodup _) fun testId => ?_
    obtain ⟨_, rfl, hcanonical, -⟩ := hown testId
    exact hcanonical
  have htext : formatLintRatchetBaseline (mergedOf options base current other)
      options.workflowVocabulary = formatLintRatchetBaseline (atWriteVersion options result)
        options.workflowVocabulary := by
    rw [formatLintRatchetBaseline_eq, formatLintRatchetBaseline_eq]
    exact congrArg baselineText (congrArg (LintRatchetBaseline.mk _ _) htests)
  have htruth : (groupedMerge options base current other).postMergeTruthUpRequired = false := by
    refine Bool.eq_false_iff.2 fun h => ?_
    obtain ⟨testId, h⟩ := (groupedMerge_truthUp hb hc ho
      ((groupedMerge_failures hb hc ho).2 hresolves.rounds)).1 h
    obtain ⟨test, htaken, -⟩ := hround testId
    rw [htaken] at h
    cases h
  rw [mergeParsed_resolves hb hc ho hresolves, resolvedResult, htext, htruth]

/-- A round whose choice is the current test. -/
theorem mergeRound_current
    (h : (testVersions base current other testId).choice = .current) :
    mergeRound options base current other testId = takenRound (current.tests.own testId) := by
  rw [mergeRound, mergeTest, h]
  rfl

theorem mergeRound_other (h : (testVersions base current other testId).choice = .other) :
    mergeRound options base current other testId = takenRound (other.tests.own testId) := by
  rw [mergeRound, mergeTest, h]
  rfl

/-- The items of a baseline are valid in every test that it writes as another baseline does. -/
def SharedItemsValid (baseline other : LintRatchetBaseline N) : Prop :=
  ∀ testId test written, baseline.tests.own testId = some test →
    other.tests.own testId = some written → canonicalTest test = canonicalTest written →
      ∀ path item, test.items.own path = some item → ItemValid test.metric item

/-- Merging a side with itself, or with the base, leaves that side. -/
theorem mergeLintRatchetBaselines_identity {baseText sideText : JsString}
    {versionPolicy : LintRatchetBaselineVersionPolicy}
    {workflowVocabulary : LintRatchetWorkflowVocabulary} {baselineFile : JsString}
    {base side : LintRatchetBaseline N}
    (hversion : versionPolicy.writeVersion ∈ versionPolicy.acceptedVersions)
    (hb : parseLintRatchetBaselineStructure baseText workflowVocabulary versionPolicy baselineFile =
      .ok base)
    (hs : parseLintRatchetBaselineStructure sideText workflowVocabulary versionPolicy baselineFile =
      .ok side) (hvalid : MergedValid side) :
    let merge (currentText otherText : JsString) : MergeLintRatchetBaselinesOptions :=
      { baseText, currentText, otherText, versionPolicy, workflowVocabulary, baselineFile }
    let resolved : MergeLintRatchetBaselinesResult :=
      { mergedText := some (formatLintRatchetBaseline (atWriteVersion (merge sideText sideText) side)
          workflowVocabulary)
        failures := [], postMergeTruthUpRequired := false }
    mergeLintRatchetBaselines N (merge sideText sideText) = some resolved ∧
      mergeLintRatchetBaselines N (merge sideText baseText) = some resolved ∧
      (SharedItemsValid base side →
        mergeLintRatchetBaselines N (merge baseText sideText) = some resolved) := by
  intro merge resolved
  have hbase : TestsWellFormed base := fun testId test ht => parse_structure_wellFormed hb ht
  have hside : TestsWellFormed side := fun testId test ht => parse_structure_wellFormed hs ht
  have htaken (testId : JsString) (t : LintRatchetBaselineTest N)
      (ht : side.tests.own testId = some t) : TestWellFormed testId t ∧
        ∀ path item, t.items.own path = some item → ItemValid t.metric item :=
    ⟨hside testId t ht, hvalid.items testId t ht⟩
  have hmerge {currentText otherText : JsString} {current other : LintRatchetBaseline N}
      (hc : parseLintRatchetBaselineStructure currentText workflowVocabulary versionPolicy
        baselineFile = .ok current)
      (ho : parseLintRatchetBaselineStructure otherText workflowVocabulary versionPolicy
        baselineFile = .ok other) : mergeLintRatchetBaselines N (merge currentText otherText) =
          mergeParsed (merge currentText otherText) base current other :=
    mergeLintRatchetBaselines_parsed
      (parseMergeBaseline_accepted (merge currentText otherText) hb _)
      (parseMergeBaseline_accepted (merge currentText otherText) hc _)
      (parseMergeBaseline_accepted (merge currentText otherText) ho _)
  refine ⟨?_, ?_, fun hshared => ?_⟩
  · rw [hmerge hs hs]
    refine mergeParsed_taken hbase hside hside hvalid hversion fun testId => ?_
    exact ⟨_, mergeRound_current (choose_same _ _), rfl, htaken testId⟩
  · rw [hmerge hs hb]
    refine mergeParsed_taken hbase hside hbase hvalid hversion fun testId => ?_
    exact ⟨_, mergeRound_current (choose_base_other _ _), rfl, htaken testId⟩
  · rw [hmerge hb hs]
    refine mergeParsed_taken hbase hbase hside hvalid hversion fun testId => ?_
    have hchoice : (testVersions base base side testId).choice = _ := choose_base_current _ _
    by_cases heq : (base.tests.own testId).map canonicalTest = (side.tests.own testId).map canonicalTest
    · refine ⟨_, mergeRound_current (hchoice.trans (if_pos heq)), heq, fun t ht => ⟨hbase testId t ht, ?_⟩⟩
      rw [ht, Option.map_some] at heq
      obtain ⟨written, hwritten, hcanonical⟩ := Option.map_eq_some_iff.1 heq.symm
      exact hshared testId t written ht hwritten hcanonical.symm
    · exact ⟨_, mergeRound_other (hchoice.trans (if_neg heq)), rfl, htaken testId⟩

end

/-- Merging a base of two findings with a side of one. -/
def drainMerge (currentText otherText : JsString) : MergeLintRatchetBaselinesOptions where
  baseText := baselineText (oneFile .messageCount { count := 2 })
  currentText := currentText
  otherText := otherText
  workflowVocabulary := plainVocabulary

theorem mergeLintRatchetBaselines_identity_drain :
    let baseText := baselineText (oneFile .messageCount { count := 2 })
    let sideText := baselineText (oneFile .messageCount { count := 1 })
    let resolved : MergeLintRatchetBaselinesResult :=
      { mergedText := some (formatLintRatchetBaseline
          (atWriteVersion (drainMerge sideText sideText) (oneFile .messageCount { count := 1 }))
          plainVocabulary)
        failures := [], postMergeTruthUpRequired := false }
    mergeLintRatchetBaselines Numeral (drainMerge sideText sideText) = some resolved ∧
      mergeLintRatchetBaselines Numeral (drainMerge sideText baseText) = some resolved ∧
      mergeLintRatchetBaselines Numeral (drainMerge baseText sideText) = some resolved := by
  have hone : OneItem .messageCount { count := 1 } := oneItem_count (by decide)
  have htwo : OneItem .messageCount { count := 2 } := oneItem_count (by decide)
  have hvalid : MergedValid (oneFile .messageCount { count := 1 }) :=
    ⟨fun testId test ht => by
      obtain ⟨-, rfl⟩ := oneTest_of_own ht
      decide, hone.itemsValid⟩
  obtain ⟨hsame, hother, hcurrent⟩ := mergeLintRatchetBaselines_identity
    (show defaultVersionPolicy.writeVersion ∈ defaultVersionPolicy.acceptedVersions by decide)
    (htwo.parsed plainVocabulary)
    (hone.parsed plainVocabulary) hvalid
  exact ⟨hsame, hother, hcurrent fun testId test written ht _ _ => htwo.itemsValid testId test ht⟩

/-- A baseline whose one ratchet has no rule source hash. -/
def unhashed : LintRatchetBaseline Numeral :=
  { version := legacyVersion
    regenerate := none
    tests := Record.fromEntries [(js "ratchet/one",
      { oneFileTest .messageCount { count := 1 } with ruleSourceHash := [] })] }

def unhashedText : JsString :=
  stringify (.obj [(js "version", .num (.int 1)), (js "tests", .obj
    [(js "ratchet/one", .obj ((testFields (oneFileTest .messageCount { count := 1 })).filter fun f =>
      f.1 ≠ js "ruleSourceHash"))])])

theorem unhashed_parsed :
    parseLintRatchetBaselineStructure unhashedText plainVocabulary = .ok unhashed := by
  decide +kernel

theorem unhashed_itemsValid : ItemsValid unhashed := by
  intro testId test ht path item hi
  have htest : ∀ e ∈ unhashed.tests.entries, ∀ i ∈ e.2.items.entries, ItemValid e.2.metric i.2 := by
    decide +kernel
  exact htest _ (Record.mem_entries.2 ht) _ (Record.mem_entries.2 hi)

/-- Such a baseline is accepted, but no merge of it resolves. -/
theorem mergeLintRatchetBaselines_unhashed :
    parseLintRatchetBaselineStructure unhashedText plainVocabulary = .ok unhashed ∧
      ItemsValid unhashed ∧
      mergeLintRatchetBaselines Numeral
          { baseText := unhashedText, currentText := unhashedText, otherText := unhashedText
            workflowVocabulary := plainVocabulary } = some
        { failures := [js "ratchet/one.ruleSourceHash is required"]
          postMergeTruthUpRequired := false } := by
  refine ⟨unhashed_parsed, unhashed_itemsValid, ?_⟩
  decide +kernel

end Musi.LintRatchet
