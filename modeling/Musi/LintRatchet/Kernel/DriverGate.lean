import Musi.LintRatchet.Kernel.DriverFloor

namespace Musi.LintRatchet
open Musi.Js Musi.Merge
set_option autoImplicit true

section
variable {N : Type} [JsNumber N] [Host] {options : MergeLintRatchetBaselinesOptions}
  {base current other : LintRatchetBaseline N} {ratchets : List (LintRatchetConfig N)}
  {ruleSourceHashesById : JsMap JsString} {workflowVocabulary : LintRatchetWorkflowVocabulary}

/-! ## What the gate accepts -/

omit [JsNumber N] in
/-- The canonical form of a valid item is valid. -/
theorem ItemValid.formatItem {metric : LintRatchetMetric} {item : LintRatchetMetricItem}
    (h : ItemValid metric item) (hpos : 0 < item.count) :
    ItemValid metric (formatItem metric item) := by
  cases metric with
  | messageCount => exact itemValid_messageCount.2 ⟨rfl, rfl, rfl⟩
  | effectiveLineCount =>
    exact itemValid_effectiveLineCount.2 ⟨(itemValid_effectiveLineCount.1 h).1, rfl, rfl, rfl⟩
  | complexitySeverity =>
    obtain ⟨fs, m, hfs, -, -, hlength, -, -⟩ := h.complexity hpos
    have hsorted : sortedComplexityFunctions item = some (sortBy compareComplexityFunction fs) := by
      rw [sortedComplexityFunctions, hfs, Option.map_some]
    have hlen : (sortBy compareComplexityFunction fs).length = item.count :=
      (sortBy_perm _ _).length_eq.trans hlength
    obtain ⟨n, hn⟩ : ∃ n, maxComplexityFor (some (sortBy compareComplexityFunction fs)) = some n := by
      cases hs : sortBy compareComplexityFunction fs with
      | nil =>
        rw [hs] at hlen
        simp at hlen
        omega
      | cons f fs => exact ⟨_, rfl⟩
    rw [formatItem_complexity hsorted hn, ← validateMetricItem_nil []]
    simp [validateMetricItem, onlyForEffectiveLineCount, onlyForMessageCount, failWhen, hlen, hn]

/-- A baseline that the strict parser accepts against a registry. -/
structure GateValid (ratchets : List (LintRatchetConfig N)) (ruleSourceHashesById : JsMap JsString)
    (workflowVocabulary : LintRatchetWorkflowVocabulary) (baseline : LintRatchetBaseline N) :
    Prop where
  present : ∀ ratchet ∈ ratchets, ∃ test, baseline.tests.own ratchet.id = some test
  tests : ∀ testId test, baseline.tests.own testId = some test →
    ∃ ratchet, (registryById ratchets).get testId = some ratchet ∧
      validateBaselineTestMetadata testId test (baselineTestFromConfig ratchet none
        ((ruleSourceHashesById.get testId).getD [])) = [] ∧
      validateBaselineRuleSourceHash testId test ((ruleSourceHashesById.get testId).getD [])
        workflowVocabulary = [] ∧
      ∀ path item, test.items.own path = some item → ItemValid test.metric item

omit [JsNumber N] [Host] in
theorem pushWhen_nil {bad : Bool} {code : ValidationFailureCode} {message : JsString} :
    pushWhen bad code message = [] ↔ bad = false := by
  cases bad <;> simp [pushWhen]

theorem validateBaselineAgainstRegistry_nil {baseline : LintRatchetBaseline N} :
    validateBaselineAgainstRegistry baseline ratchets ruleSourceHashesById workflowVocabulary = [] ↔
      GateValid ratchets ruleSourceHashesById workflowVocabulary baseline := by
  have hitems (testId : JsString) (test : LintRatchetBaselineTest N) :
      validateBaselineMetricItems testId test = [] ↔
        ∀ path item, test.items.own path = some item → ItemValid test.metric item := by
    simp only [validateBaselineMetricItems, List.flatMap_eq_nil_iff, List.map_eq_nil_iff,
      validateMetricItem_nil, Prod.forall, Record.mem_entries]
  simp only [validateBaselineAgainstRegistry, List.append_eq_nil_iff, List.flatMap_eq_nil_iff,
    pushWhen_nil, Option.isNone_eq_false_iff, Prod.forall, Record.mem_entries]
  constructor
  · rintro ⟨htests, hpresent⟩
    refine ⟨fun ratchet hr => Option.isSome_iff_exists.1 (hpresent ratchet hr), fun testId test ht => ?_⟩
    have h := htests testId test ht
    split at h
    · cases h
    · next ratchet hratchet =>
      simp only [validateBaselineTestAgainstRatchet, List.append_eq_nil_iff, hitems] at h
      exact ⟨ratchet, hratchet, h.1.1, h.1.2, h.2⟩
  · intro h
    refine ⟨fun testId test ht => ?_, fun ratchet hr => Option.isSome_iff_exists.2 (h.present ratchet hr)⟩
    obtain ⟨ratchet, hratchet, hmeta, hhash, hvalid⟩ := h.tests testId test ht
    simp only [hratchet, validateBaselineTestAgainstRatchet, List.append_eq_nil_iff, hitems]
    exact ⟨⟨hmeta, hhash⟩, hvalid⟩

/-- What the strict parser accepts, it accepts without failures. -/
theorem parseLintRatchetBaseline_accepted {text : JsString}
    {versionPolicy : LintRatchetBaselineVersionPolicy} {baselineFile : JsString}
    {baseline : LintRatchetBaseline N} :
    (parseLintRatchetBaseline text ratchets ruleSourceHashesById workflowVocabulary
        versionPolicy baselineFile).baseline = some baseline ↔
      parseLintRatchetBaselineStructure text workflowVocabulary versionPolicy baselineFile =
          .ok baseline ∧
        GateValid ratchets ruleSourceHashesById workflowVocabulary baseline ∧
        formatLintRatchetBaseline baseline workflowVocabulary = text := by
  unfold parseLintRatchetBaseline
  split
  · next failures hparse =>
    rw [hparse]
    exact iff_of_false nofun nofun
  · next parsed hparse =>
    rw [hparse, Except.ok.injEq]
    dsimp only
    constructor
    · intro h
      split at h
      · next hnil =>
        cases h
        obtain ⟨hregistry, hformat⟩ := List.append_eq_nil_iff.1 hnil
        have hformat := pushWhen_nil.1 hformat
        rw [hregistry, decide_eq_true rfl, Bool.true_and, decide_eq_false_iff_not, not_not] at hformat
        exact ⟨rfl, validateBaselineAgainstRegistry_nil.1 hregistry, hformat⟩
      · cases h
    · rintro ⟨rfl, hgate, hformat⟩
      rw [if_pos (List.append_eq_nil_iff.2 ⟨validateBaselineAgainstRegistry_nil.2 hgate,
        pushWhen_nil.2 (by simp [hformat])⟩)]

omit [Host] in
/-- String arrays are told apart by their stable JSON. -/
theorem stableJson_strings {a b : List JsString}
    (h : stableJson (stringsJson a : Json N) = stableJson (stringsJson b : Json N)) : a = b := by
  have hcanonical (values : List JsString) :
      Canonical (normalizeJsonValue (stringsJson values) : Json N) := by
    rw [normalizeJsonValue_strings]
    refine .arr fun v hv => ?_
    obtain ⟨s, -, rfl⟩ := List.mem_map.1 hv
    exact .str s
  have h := stringify_injective (hcanonical a) (hcanonical b) h
  rw [normalizeJsonValue_strings, normalizeJsonValue_strings] at h
  exact stringsJson_injective h

/-- Metadata that the registry accepts is in canonical form. -/
theorem normalizedMeta_of_registry {testId hash : JsString} {test : LintRatchetBaselineTest N}
    {ratchet : LintRatchetConfig N} (hwf : TestWellFormed testId test)
    (h : validateBaselineTestMetadata testId test (baselineTestFromConfig ratchet none hash) = []) :
    normalizedMeta test.toLintRatchetBaselineGroupMeta = test.toLintRatchetBaselineGroupMeta := by
  simp only [validateBaselineTestMetadata, List.append_eq_nil_iff, pushWhen_nil, ne_eq,
    decide_eq_false_iff_not, not_not] at h
  obtain ⟨⟨⟨⟨-, hfiles⟩, hignores⟩, -⟩, -⟩ := h
  have hsort (values : List JsString) :
      normalizeStringList (normalizeStringList values) = normalizeStringList values :=
    sortBy_idem compareByCodepoint_strict.toConsistentComparator values
  have hfiles : normalizeStringList test.files = test.files := by
    rw [stableJson_strings hfiles]
    exact hsort _
  have hignores : normalizeStringList test.ignores = test.ignores := by
    rw [stableJson_strings hignores]
    exact hsort _
  have hoptions : normalizeRuleOptions test.ruleOptions = test.ruleOptions :=
    (List.map_congr_left fun v hv => (hwf.ruleOptions v hv).2).trans (List.map_id _)
  rw [normalizedMeta, hfiles, hignores, hoptions]

omit [Host] in
/-- The registry reads the metadata of a test only. -/
theorem validateMetadata_congr {testId : JsString} {test test' expected : LintRatchetBaselineTest N}
    (h : test.toLintRatchetBaselineGroupMeta = test'.toLintRatchetBaselineGroupMeta) :
    validateBaselineTestMetadata testId test expected =
      validateBaselineTestMetadata testId test' expected := by
  simp only [validateBaselineTestMetadata, h]

omit [JsNumber N] [Host] in
theorem validateRuleSourceHash_congr {testId hash : JsString} {test test' : LintRatchetBaselineTest N}
    (h : test.toLintRatchetBaselineGroupMeta = test'.toLintRatchetBaselineGroupMeta) :
    validateBaselineRuleSourceHash testId test hash workflowVocabulary =
      validateBaselineRuleSourceHash testId test' hash workflowVocabulary := by
  simp only [validateBaselineRuleSourceHash, h]

/-- A resolved round leaves a test with the metadata of a side. -/
theorem mergeRound_side (hb : TestsWellFormed base) (hc : TestsWellFormed current)
    (ho : TestsWellFormed other)
    (hf : (mergeRound options base current other testId).failures = [])
    (hcur : ∃ test, current.tests.own testId = some test)
    (hoth : ∃ test, other.tests.own testId = some test) :
    ∃ side test, (current.tests.own testId = some side ∨ other.tests.own testId = some side) ∧
      (mergeRound options base current other testId).group.map baselineTestFromGroup = some test ∧
      test.toLintRatchetBaselineGroupMeta = side.toLintRatchetBaselineGroupMeta := by
  cases hchoice : (testVersions base current other testId).choice with
  | current =>
    obtain ⟨test, ht⟩ := hcur
    refine ⟨test, test, .inl ht, ?_, rfl⟩
    rw [mergeRound_current hchoice, takenRound_test (hc testId), ht]
  | other =>
    obtain ⟨test, ht⟩ := hoth
    refine ⟨test, test, .inr ht, ?_, rfl⟩
    rw [mergeRound_other hchoice, takenRound_test (ho testId), ht]
  | both =>
    obtain ⟨c, o, m, hc', -, hm, hchanged⟩ := mergeRound_both hb hc ho hchoice hf
    exact ⟨c, m, .inl hc', hm, hchanged.mergedMeta⟩

/-- A round over an id that no side has leaves nothing. -/
theorem mergeRound_absent (hc : current.tests.own testId = none) (ho : other.tests.own testId = none) :
    (mergeRound options base current other testId).group = none := by
  have halike : WrittenAlike current other testId := by rw [WrittenAlike, hc, ho]
  rw [mergeRound_alike halike, hc]
  rfl

/-- The merge of two baselines that the gate accepts is one that it accepts. -/
theorem Resolves.gateValid (hb : TestsWellFormed base) (hc : TestsWellFormed current)
    (ho : TestsWellFormed other) (h : Resolves options base current other)
    (hgc : GateValid ratchets ruleSourceHashesById workflowVocabulary current)
    (hgo : GateValid ratchets ruleSourceHashesById workflowVocabulary other) :
    GateValid ratchets ruleSourceHashesById workflowVocabulary
      (canonicalBaseline (mergedOf options base current other)) := by
  have hown (testId : JsString) :
      (canonicalBaseline (mergedOf options base current other)).tests.own testId =
        ((mergeRound options base current other testId).group.map baselineTestFromGroup).map
          canonicalTest := by
    rw [own_canonicalBaseline, own_mergedOf hb hc ho]
  have hboth {testId : JsString} (hcur : ∃ test, current.tests.own testId = some test)
      (hoth : ∃ test, other.tests.own testId = some test) :=
    mergeRound_side hb hc ho (h.rounds testId) hcur hoth
  -- a registered id is on both sides, and no side has any other
  have hregistered {testId : JsString} {ratchet : LintRatchetConfig N}
      (hr : (registryById ratchets).get testId = some ratchet) :
      ratchet ∈ ratchets ∧ ratchet.id = testId := by
    obtain ⟨r, hmem, heq⟩ := List.mem_map.1 (JsMap.mem_of_get_ofList hr)
    cases heq
    exact ⟨hmem, rfl⟩
  have hsides {testId : JsString} {test : LintRatchetBaselineTest N}
      (ht : current.tests.own testId = some test ∨ other.tests.own testId = some test) :
      (∃ test, current.tests.own testId = some test) ∧ ∃ test, other.tests.own testId = some test := by
    obtain ⟨ratchet, hr⟩ : ∃ ratchet, (registryById ratchets).get testId = some ratchet := by
      rcases ht with ht | ht
      · exact (hgc.tests testId test ht).imp fun _ h => h.1
      · exact (hgo.tests testId test ht).imp fun _ h => h.1
    obtain ⟨hmem, rfl⟩ := hregistered hr
    exact ⟨hgc.present ratchet hmem, hgo.present ratchet hmem⟩
  refine ⟨fun ratchet hr => ?_, fun testId test ht => ?_⟩
  · obtain ⟨side, test, -, hround, -⟩ := hboth (hgc.present ratchet hr) (hgo.present ratchet hr)
    exact ⟨canonicalTest test, by rw [hown, hround, Option.map_some]⟩
  · rw [hown] at ht
    obtain ⟨raw, hraw, rfl⟩ := Option.map_eq_some_iff.1 ht
    have hside : ∃ test, current.tests.own testId = some test ∨ other.tests.own testId = some test := by
      by_contra hnone
      push Not at hnone
      have hgroup : (mergeRound options base current other testId).group = none := mergeRound_absent
        (Option.eq_none_iff_forall_ne_some.2 fun t => (hnone t).1)
        (Option.eq_none_iff_forall_ne_some.2 fun t => (hnone t).2)
      rw [hgroup] at hraw
      cases hraw
    obtain ⟨t, ht⟩ := hside
    obtain ⟨hcur, hoth⟩ := hsides ht
    obtain ⟨side, merged, hside, hround, hmeta⟩ := hboth hcur hoth
    rw [hraw] at hround
    cases hround
    have hrawOwn : (mergedOf options base current other).tests.own testId = some raw := by
      rw [own_mergedOf hb hc ho, hraw]
    obtain ⟨hwf, ratchet, hr, hvalidMeta, hhash, -⟩ : TestWellFormed testId side ∧
        ∃ ratchet, (registryById ratchets).get testId = some ratchet ∧
          validateBaselineTestMetadata testId side (baselineTestFromConfig ratchet none
            ((ruleSourceHashesById.get testId).getD [])) = [] ∧
          validateBaselineRuleSourceHash testId side ((ruleSourceHashesById.get testId).getD [])
            workflowVocabulary = [] ∧
          ∀ path item, side.items.own path = some item → ItemValid side.metric item :=
      hside.elim (fun hs => ⟨hc testId side hs, hgc.tests testId side hs⟩)
        fun hs => ⟨ho testId side hs, hgo.tests testId side hs⟩
    have hcanonical : (canonicalTest raw).toLintRatchetBaselineGroupMeta =
        side.toLintRatchetBaselineGroupMeta := by
      rw [canonicalTest, hmeta]
      exact normalizedMeta_of_registry hwf hvalidMeta
    refine ⟨ratchet, hr, ?_, ?_, fun path item hi => ?_⟩
    · rw [validateMetadata_congr hcanonical]
      exact hvalidMeta
    · rw [validateRuleSourceHash_congr hcanonical]
      exact hhash
    · have hpos (item : LintRatchetMetricItem) (hi : raw.items.own path = some item) :
          0 < item.count :=
        ((mergeRound_wellFormed hb hc ho (h.rounds testId) hraw).items path item hi).2
      rw [own_canonicalTest raw path hpos] at hi
      obtain ⟨rawItem, hrawItem, rfl⟩ := Option.map_eq_some_iff.1 hi
      exact (h.valid.items testId raw hrawOwn path rawItem hrawItem).formatItem (hpos rawItem hrawItem)

/-- Merging two baselines that the gate accepts gives a baseline that it accepts. -/
theorem mergeLintRatchetBaselines_gateValid {result : MergeLintRatchetBaselinesResult}
    {text : JsString}
    (hwrite : options.versionPolicy.writeVersion ∈ [legacyVersion, annotatedVersion])
    (hb : parseMergeBaseline options (js "base") options.baseText = .ok base)
    (hc : (parseLintRatchetBaseline options.currentText ratchets ruleSourceHashesById
      options.workflowVocabulary options.versionPolicy options.baselineFile).baseline = some current)
    (ho : (parseLintRatchetBaseline options.otherText ratchets ruleSourceHashesById
      options.workflowVocabulary options.versionPolicy options.baselineFile).baseline = some other)
    (hresult : mergeLintRatchetBaselines N options = some result)
    (htext : result.mergedText = some text) :
    ∃ merged, (parseLintRatchetBaseline text ratchets ruleSourceHashesById
      options.workflowVocabulary options.versionPolicy options.baselineFile).baseline = some merged := by
  obtain ⟨hc, hgc, -⟩ := parseLintRatchetBaseline_accepted.1 hc
  obtain ⟨ho, hgo, -⟩ := parseLintRatchetBaseline_accepted.1 ho
  obtain ⟨⟨hb, hc, ho⟩, hresolves, rfl, rfl⟩ :=
    mergeLintRatchetBaselines_resolved hb hc ho hresult htext
  exact ⟨_, parseLintRatchetBaseline_accepted.2 ⟨hresolves.parse_text hb hc ho hwrite _ _,
    hresolves.gateValid hb hc ho hgc hgo, format_canonicalBaseline _ _ _⟩⟩

end

/-- The baseline of one ratchet over one file, as an update builds it. -/
def gatedFile (count : Nat) : LintRatchetBaseline Numeral where
  version := annotatedVersion
  regenerate := some (.str plainVocabulary.updateCommand)
  tests := Record.fromEntries [(js "ratchet/one",
    { oneFileTest .messageCount { count } with
      configHash := computeLintRatchetConfigHash (oneFileRatchet .messageCount) })]

/-- Two such baselines that meet without a base. -/
def gatedMerge : MergeLintRatchetBaselinesOptions where
  baseText := []
  currentText := formatLintRatchetBaseline (gatedFile 1) plainVocabulary
  otherText := formatLintRatchetBaseline (gatedFile 2) plainVocabulary
  workflowVocabulary := plainVocabulary

theorem mergeLintRatchetBaselines_gateValid_one :
    ∃ merged, (parseLintRatchetBaseline (formatLintRatchetBaseline (gatedFile 1) plainVocabulary)
      [oneFileRatchet .messageCount] (JsMap.ofList [(js "ratchet/one", zeroHash)])
      plainVocabulary).baseline = some merged := by
  have hgated (count : Nat) (h : count = 1 ∨ count = 2) :
      (parseLintRatchetBaseline (formatLintRatchetBaseline (gatedFile count) plainVocabulary)
        [oneFileRatchet .messageCount] (JsMap.ofList [(js "ratchet/one", zeroHash)])
        plainVocabulary).baseline = some (gatedFile count) := by
    rcases h with rfl | rfl <;> decide +kernel
  have hwrite : gatedMerge.versionPolicy.writeVersion ∈ [legacyVersion, annotatedVersion] := by decide
  have hbase : parseMergeBaseline gatedMerge (js "base") gatedMerge.baseText =
      .ok (emptyBaseline gatedMerge : LintRatchetBaseline Numeral) := rfl
  have hmerged : mergeLintRatchetBaselines Numeral gatedMerge =
      some
        { mergedText := some (formatLintRatchetBaseline (gatedFile 1) plainVocabulary)
          failures := []
          postMergeTruthUpRequired := true } := by
    decide +kernel
  exact @mergeLintRatchetBaselines_gateValid Numeral _ _ gatedMerge _ _ _ _ _ _ _ hwrite hbase
    (hgated 1 (.inl rfl)) (hgated 2 (.inr rfl)) hmerged rfl

end Musi.LintRatchet
