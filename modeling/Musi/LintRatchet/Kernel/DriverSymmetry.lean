import Musi.LintRatchet.Kernel.MergeItems

namespace Musi.LintRatchet
open Musi.Js Musi.Merge
set_option autoImplicit true

section
variable {N : Type} [JsNumber N] [Host] {options : MergeLintRatchetBaselinesOptions}
  {base current other : LintRatchetBaseline N}

/-! ## The rounds of swapped sides -/

omit [Host] in
theorem resolveItem_comm {metric : LintRatchetMetric} {testId path : JsString} [Host]
    {b x y : Option LintRatchetMetricItem} (hx : ∀ item ∈ x, ItemWellFormed N item)
    (hy : ∀ item ∈ y, ItemWellFormed N item) :
    resolveItem N metric testId path b x y = resolveItem N metric testId path b y x := by
  cases x with
  | none => cases y <;> rfl
  | some x =>
    cases y with
    | none => rfl
    | some y => exact mergeSharedItem_comm (hx x rfl) (hy y rfl)

/-- Two changed tests of the same metadata merge alike from either side. -/
theorem mergeItems_comm {testId : JsString} {b : Option (LintRatchetBaselineTest N)}
    {c o : LintRatchetBaselineTest N} (hb : ∀ test, b = some test → TestWellFormed testId test)
    (hc : TestWellFormed testId c) (ho : TestWellFormed testId o)
    (hmeta : c.toLintRatchetBaselineGroupMeta = o.toLintRatchetBaselineGroupMeta) :
    mergeItems testId b c o = mergeItems testId b o c := by
  have hkeys : unionKeys compareByCodepoint (groupOfTest c).items (groupOfTest o).items =
      unionKeys compareByCodepoint (groupOfTest o).items (groupOfTest c).items := by
    refine sortBy_eq_of_perm compareByCodepoint_strict
      ((List.perm_ext_iff_of_nodup (nodup_eraseDups _) (nodup_eraseDups _)).2 fun k => ?_)
    simp [or_comm]
  have hround (path : JsString) : resolvePath testId b c o path = resolvePath testId b o c path := by
    rw [resolvePath, resolvePath, hmeta]
    exact resolveItem_comm (fun item hi => (hc.items path item hi).1)
      (fun item hi => (ho.items path item hi).1)
  simp only [mergeItems, mergeItemMaps, resolveKey_tests hb hc ho, resolveKey_tests hb ho hc, hkeys,
    hround]
  rfl

theorem mergeChangedGroup_comm {testId : JsString} {b : Option (LintRatchetBaselineTest N)}
    {c o : LintRatchetBaselineTest N}
    (versionPolicy : LintRatchetBaselineVersionPolicy)
    (workflowVocabulary : LintRatchetWorkflowVocabulary) (baselineFile : JsString)
    (hb : ∀ test, b = some test → TestWellFormed testId test)
    (hc : TestWellFormed testId c) (ho : TestWellFormed testId o) :
    mergeChangedGroup (lintRatchetBaselineSpec versionPolicy workflowVocabulary baselineFile)
        testId (b.map groupOfTest) (groupOfTest c) (groupOfTest o) =
      mergeChangedGroup (lintRatchetBaselineSpec versionPolicy workflowVocabulary baselineFile)
        testId (b.map groupOfTest) (groupOfTest o) (groupOfTest c) := by
  have hsame := sameMeta_iff hc.ruleOptions ho.ruleOptions
  have hsame' := sameMeta_iff ho.ruleOptions hc.ruleOptions
  rw [mergeChangedGroup_eq, mergeChangedGroup_eq]
  by_cases h : c.toLintRatchetBaselineGroupMeta = o.toLintRatchetBaselineGroupMeta
  · rw [if_pos (hsame.2 h), if_pos (hsame'.2 h.symm), mergeItems_comm hb hc ho h, h]
  · rw [if_neg (mt hsame.1 h), if_neg (mt hsame'.1 (Ne.symm h))]

/-- The test of an id is written alike in two baselines, or is in neither. -/
def WrittenAlike (left right : LintRatchetBaseline N) (testId : JsString) : Prop :=
  (left.tests.own testId).map canonicalTest = (right.tests.own testId).map canonicalTest

/-- A ratchet that the sides write differently merges alike from either side. -/
theorem mergeRound_comm (hb : TestsWellFormed base) (hc : TestsWellFormed current)
    (ho : TestsWellFormed other) (h : ¬ WrittenAlike current other testId) :
    mergeRound options base current other testId = mergeRound options base other current testId := by
  have hswap := choose_swap ((base.tests.own testId).map canonicalTest) h
  change (testVersions base other current testId).choice =
    (testVersions base current other testId).choice.swap at hswap
  cases hchoice : (testVersions base current other testId).choice with
  | current =>
    rw [hchoice] at hswap
    rw [mergeRound_current hchoice, mergeRound_other hswap]
  | other =>
    rw [hchoice] at hswap
    rw [mergeRound_other hchoice, mergeRound_current hswap]
  | both =>
    rw [hchoice] at hswap
    rw [mergeRound, mergeRound, mergeTest, mergeTest, hchoice, hswap]
    dsimp only [Choice.swap, testVersions, TestVersions.groups]
    cases hcur : current.tests.own testId with
    | none => cases other.tests.own testId <;> rfl
    | some c =>
      cases hoth : other.tests.own testId with
      | none => rfl
      | some o => exact mergeChangedGroup_comm _ _ _ (hb testId) (hc testId c hcur) (ho testId o hoth)

/-- A ratchet that both sides write alike is taken from the current one. -/
theorem mergeRound_alike (h : WrittenAlike current other testId) :
    mergeRound options base current other testId = takenRound (current.tests.own testId) :=
  mergeRound_current ((congrArg (choose _ _) h.symm).trans (choose_same _ _))

/-! ## When a merge resolves -/

/-- A merged test can be committed: it has its rule source hash and items of its metric. -/
def TestMergeable (test : LintRatchetBaselineTest N) : Prop :=
  test.ruleSourceHash ≠ [] ∧ ∀ path item, test.items.own path = some item → ItemValid test.metric item

/-- Every ratchet that the sides write differently merges, and into a test that can be committed. -/
def UnlikeRatchetsMerge (options : MergeLintRatchetBaselinesOptions)
    (base current other : LintRatchetBaseline N) : Prop :=
  ∀ testId, ¬ WrittenAlike current other testId →
    (mergeRound options base current other testId).failures = [] ∧
      ∀ test, (mergeRound options base current other testId).group.map baselineTestFromGroup =
        some test → TestMergeable test

/-- Every ratchet that both sides write alike has its rule source hash. -/
def AlikeRatchetsHashed (current other : LintRatchetBaseline N) : Prop :=
  ∀ testId test, current.tests.own testId = some test → WrittenAlike current other testId →
    test.ruleSourceHash ≠ []

variable (options) in
theorem resolves_iff (hb : TestsWellFormed base) (hc : TestsWellFormed current)
    (ho : TestsWellFormed other) : Resolves options base current other ↔
      options.versionPolicy.writeVersion ∈ options.versionPolicy.acceptedVersions ∧
        UnlikeRatchetsMerge options base current other ∧ AlikeRatchetsHashed current other ∧
          SharedItemsValid current other := by
  have hown (testId : JsString) : (mergedOf options base current other).tests.own testId = _ :=
    own_mergedOf hb hc ho testId
  have halike {testId : JsString} {test : LintRatchetBaselineTest N}
      (ht : current.tests.own testId = some test) (h : WrittenAlike current other testId) :
      (mergedOf options base current other).tests.own testId = some test := by
    rw [hown, mergeRound_alike h, ht]
    exact congrArg some (baselineTestFromGroup_groupOfTest (hc testId test ht))
  constructor
  · rintro ⟨hversion, hrounds, hvalid⟩
    refine ⟨hversion, fun testId _ => ⟨hrounds testId, fun test ht => ?_⟩, fun testId test ht h => ?_,
      fun testId test written ht hw heq => ?_⟩
    · rw [← hown] at ht
      exact ⟨hvalid.ruleSourceHash testId test ht, hvalid.items testId test ht⟩
    · exact hvalid.ruleSourceHash testId test (halike ht h)
    · refine hvalid.items testId test (halike ht ?_)
      rw [WrittenAlike, ht, hw, Option.map_some, Option.map_some, heq]
  · rintro ⟨hversion, hunlike, hhash, hitems⟩
    have hmergeable (testId : JsString) (test : LintRatchetBaselineTest N)
        (ht : (mergedOf options base current other).tests.own testId = some test) :
        TestMergeable test := by
      by_cases h : WrittenAlike current other testId
      · cases hcur : current.tests.own testId with
        | none =>
          rw [hown, mergeRound_alike h, hcur] at ht
          cases ht
        | some t =>
          rw [halike hcur h] at ht
          cases ht
          obtain ⟨written, hw, heq⟩ : ∃ written, other.tests.own testId = some written ∧
              canonicalTest written = canonicalTest test := by
            rw [WrittenAlike, hcur, Option.map_some] at h
            exact Option.map_eq_some_iff.1 h.symm
          exact ⟨hhash testId test hcur h, hitems testId test written hcur hw heq.symm⟩
      · rw [hown] at ht
        exact (hunlike testId h).2 test ht
    refine ⟨hversion, fun testId => ?_, fun testId test ht => (hmergeable testId test ht).1,
      fun testId test ht => (hmergeable testId test ht).2⟩
    by_cases h : WrittenAlike current other testId
    · rw [mergeRound_alike h]
      rfl
    · exact (hunlike testId h).1

/-! ## Swapped sides -/

def MergeLintRatchetBaselinesOptions.swapSides (options : MergeLintRatchetBaselinesOptions) :
    MergeLintRatchetBaselinesOptions :=
  { options with currentText := options.otherText, otherText := options.currentText }

/-- What a merge tells its caller: the text, if it resolves, and whether a truth-up is due. -/
def mergeOutcome (result : Option MergeLintRatchetBaselinesResult) :
    Option (Option JsString × Bool) :=
  result.map fun r => (r.mergedText, r.postMergeTruthUpRequired)

/-- The outcome of a merge that does not resolve. -/
theorem mergeOutcome_unresolved (hb : TestsWellFormed base) (hc : TestsWellFormed current)
    (ho : TestsWellFormed other)
    (hversion : options.versionPolicy.writeVersion ∈ options.versionPolicy.acceptedVersions)
    (h : ¬ Resolves options base current other) :
    mergeOutcome (mergeParsed options base current other) = some (none, false) := by
  have hmerged : mergedBaseline (groupedMerge options base current other).baseline
      options.versionPolicy = some (mergedOf options base current other) := if_pos hversion
  have hfailures : (groupedMerge options base current other).failures.map ratchetMergeFailure ++
      validateMergedBaseline (mergedOf options base current other) ≠ [] := by
    intro hnil
    obtain ⟨hfail, hvalid⟩ := List.append_eq_nil_iff.1 hnil
    exact h ⟨hversion, (groupedMerge_failures hb hc ho).1 (List.map_eq_nil_iff.1 hfail),
      validateMergedBaseline_nil.1 hvalid⟩
  rw [mergeParsed]
  change mergeOutcome ((mergedBaseline (groupedMerge options base current other).baseline
    options.versionPolicy).map _) = _
  rw [hmerged, Option.map_some]
  exact congrArg (fun result => mergeOutcome (some result)) (if_pos hfailures)

theorem mergeOutcome_resolved (hb : TestsWellFormed base) (hc : TestsWellFormed current)
    (ho : TestsWellFormed other) (h : Resolves options base current other) :
    mergeOutcome (mergeParsed options base current other) =
      some (some (formatLintRatchetBaseline (mergedOf options base current other)
        options.workflowVocabulary),
        (groupedMerge options base current other).postMergeTruthUpRequired) := by
  rw [mergeParsed_resolves hb hc ho h]
  rfl

/-- Merges that resolve from either side have one text and one flag. -/
theorem mergeOutcome_comm (hb : TestsWellFormed base) (hc : TestsWellFormed current)
    (ho : TestsWellFormed other) (h : Resolves options base current other)
    (h' : Resolves options base other current) :
    mergeOutcome (mergeParsed options base current other) =
      mergeOutcome (mergeParsed options base other current) := by
  have htests : (canonicalBaseline (mergedOf options base current other)).tests =
      (canonicalBaseline (mergedOf options base other current)).tests := by
    refine sortedRecord_congr (Record.nodup _) (Record.nodup _) fun testId => ?_
    change ((mergedOf options base current other).tests.own testId).map _ =
      ((mergedOf options base other current).tests.own testId).map _
    rw [own_mergedOf hb hc ho, own_mergedOf hb ho hc]
    by_cases halike : WrittenAlike current other testId
    · rw [mergeRound_alike halike, mergeRound_alike (Eq.symm halike), takenRound_test (hc testId),
        takenRound_test (ho testId)]
      exact halike
    · rw [mergeRound_comm hb hc ho halike]
  have htruth : (groupedMerge options base current other).postMergeTruthUpRequired =
      (groupedMerge options base other current).postMergeTruthUpRequired := by
    rw [Bool.eq_iff_iff, groupedMerge_truthUp hb hc ho ((groupedMerge_failures hb hc ho).2 h.rounds),
      groupedMerge_truthUp hb ho hc ((groupedMerge_failures hb ho hc).2 h'.rounds)]
    refine exists_congr fun testId => ?_
    by_cases halike : WrittenAlike current other testId
    · rw [mergeRound_alike halike, mergeRound_alike (Eq.symm halike)]
      rfl
    · rw [mergeRound_comm hb hc ho halike]
  rw [mergeOutcome_resolved hb hc ho h, mergeOutcome_resolved hb ho hc h', htruth,
    formatLintRatchetBaseline_eq, formatLintRatchetBaseline_eq]
  exact congrArg (fun tests => some (some (baselineText (LintRatchetBaseline.mk _ _ tests)), _)) htests

theorem unlikeRatchetsMerge_comm (hb : TestsWellFormed base) (hc : TestsWellFormed current)
    (ho : TestsWellFormed other) : UnlikeRatchetsMerge options base current other ↔
      UnlikeRatchetsMerge options base other current := by
  refine forall_congr' fun testId => ?_
  by_cases h : WrittenAlike current other testId
  · exact iff_of_true (fun hn => (hn h).elim) fun hn => (hn (Eq.symm h)).elim
  · rw [mergeRound_comm hb hc ho h]
    exact ⟨fun hm _ => hm h, fun hm _ => hm fun hs => h (Eq.symm hs)⟩

omit [JsNumber N] in
theorem alikeRatchetsHashed_comm :
    AlikeRatchetsHashed current other ↔ AlikeRatchetsHashed other current := by
  have hone {left right : LintRatchetBaseline N} (h : AlikeRatchetsHashed left right) :
      AlikeRatchetsHashed right left := by
    intro testId test ht halike
    rw [WrittenAlike, ht, Option.map_some] at halike
    obtain ⟨written, hw, heq⟩ := Option.map_eq_some_iff.1 halike.symm
    have hhash : (canonicalTest written).ruleSourceHash = (canonicalTest test).ruleSourceHash := by
      rw [heq]
    exact hhash ▸ h testId written hw (by rw [WrittenAlike, hw, ht, Option.map_some, Option.map_some, heq])
  exact ⟨hone, hone⟩

/-- Swapping the sides of a ratchet merge changes nothing, exactly when it fails for a reason that
both orders see, or the copies that the two sides hold of the ratchets they write alike are equally
valid. -/
theorem mergeLintRatchetBaselines_swapSides_iff
    (hb : parseLintRatchetBaselineStructure options.baseText options.workflowVocabulary
      options.versionPolicy options.baselineFile = .ok base)
    (hc : parseLintRatchetBaselineStructure options.currentText options.workflowVocabulary
      options.versionPolicy options.baselineFile = .ok current)
    (ho : parseLintRatchetBaselineStructure options.otherText options.workflowVocabulary
      options.versionPolicy options.baselineFile = .ok other) :
    mergeOutcome (mergeLintRatchetBaselines N options) =
        mergeOutcome (mergeLintRatchetBaselines N options.swapSides) ↔
      (options.versionPolicy.writeVersion ∈ options.versionPolicy.acceptedVersions →
        UnlikeRatchetsMerge options base current other → AlikeRatchetsHashed current other →
          (SharedItemsValid current other ↔ SharedItemsValid other current)) := by
  have hmerge : mergeLintRatchetBaselines N options = mergeParsed options base current other :=
    mergeLintRatchetBaselines_parsed (parseMergeBaseline_accepted _ hb _)
      (parseMergeBaseline_accepted _ hc _) (parseMergeBaseline_accepted _ ho _)
  have hswapped : mergeLintRatchetBaselines N options.swapSides =
      mergeParsed options base other current :=
    mergeLintRatchetBaselines_parsed
      (parseMergeBaseline_accepted options.swapSides hb _)
      (parseMergeBaseline_accepted options.swapSides ho _)
      (parseMergeBaseline_accepted options.swapSides hc _)
  have hb : TestsWellFormed base := fun testId test ht => parse_structure_wellFormed hb ht
  have hc : TestsWellFormed current := fun testId test ht => parse_structure_wellFormed hc ht
  have ho : TestsWellFormed other := fun testId test ht => parse_structure_wellFormed ho ht
  have hleft := resolves_iff options hb hc ho
  have hright := resolves_iff options hb ho hc
  rw [← unlikeRatchetsMerge_comm hb hc ho, ← alikeRatchetsHashed_comm] at hright
  rw [hmerge, hswapped]
  by_cases hversion : options.versionPolicy.writeVersion ∈ options.versionPolicy.acceptedVersions
  · by_cases hr : Resolves options base current other
    · by_cases hr' : Resolves options base other current
      · refine iff_of_true (mergeOutcome_comm hb hc ho hr hr') fun _ _ _ => ?_
        exact iff_of_true (hleft.1 hr).2.2.2 (hright.1 hr').2.2.2
      · refine iff_of_false ?_ fun h => hr' (hright.2 ?_)
        · rw [mergeOutcome_resolved hb hc ho hr, mergeOutcome_unresolved hb ho hc hversion hr']
          nofun
        · obtain ⟨-, hunlike, hhash, hitems⟩ := hleft.1 hr
          exact ⟨hversion, hunlike, hhash, (h hversion hunlike hhash).1 hitems⟩
    · by_cases hr' : Resolves options base other current
      · refine iff_of_false ?_ fun h => hr (hleft.2 ?_)
        · rw [mergeOutcome_resolved hb ho hc hr', mergeOutcome_unresolved hb hc ho hversion hr]
          nofun
        · obtain ⟨-, hunlike, hhash, hitems⟩ := hright.1 hr'
          exact ⟨hversion, hunlike, hhash, (h hversion hunlike hhash).2 hitems⟩
      · refine iff_of_true ?_ fun _ hunlike hhash => ?_
        · rw [mergeOutcome_unresolved hb hc ho hversion hr, mergeOutcome_unresolved hb ho hc hversion hr']
        · exact iff_of_false (fun hitems => hr (hleft.2 ⟨hversion, hunlike, hhash, hitems⟩))
            fun hitems => hr' (hright.2 ⟨hversion, hunlike, hhash, hitems⟩)
  · refine iff_of_true ?_ fun h => (hversion h).elim
    have hnone (left right : LintRatchetBaseline N) : mergeParsed options base left right = none := by
      rw [mergeParsed]
      exact Option.map_eq_none_iff.2 (if_neg hversion)
    rw [hnone, hnone]

end

/-- Merging a base of two findings in one file with two sides of the same ratchet. -/
def oneFileMerge (current other : LintRatchetMetricItem) : MergeLintRatchetBaselinesOptions :=
  drainMerge (baselineText (oneFile .messageCount current)) (baselineText (oneFile .messageCount other))

theorem mergeLintRatchetBaselines_swapSides_iff_one :
    mergeOutcome (mergeLintRatchetBaselines Numeral (oneFileMerge { count := 1 } { count := 3 })) =
        mergeOutcome (mergeLintRatchetBaselines Numeral
          (oneFileMerge { count := 1 } { count := 3 }).swapSides) ∧
      ((oneFileMerge { count := 1 } { count := 3 }).versionPolicy.writeVersion ∈
          (oneFileMerge { count := 1 } { count := 3 }).versionPolicy.acceptedVersions →
        UnlikeRatchetsMerge (oneFileMerge { count := 1 } { count := 3 })
          (oneFile .messageCount { count := 2 }) (oneFile .messageCount { count := 1 })
          (oneFile .messageCount { count := 3 }) →
        AlikeRatchetsHashed (oneFile .messageCount { count := 1 })
          (oneFile .messageCount { count := 3 }) →
        (SharedItemsValid (oneFile .messageCount { count := 1 })
            (oneFile .messageCount { count := 3 }) ↔
          SharedItemsValid (oneFile .messageCount { count := 3 })
            (oneFile .messageCount { count := 1 }))) := by
  have hsame : mergeOutcome (mergeLintRatchetBaselines Numeral
      (oneFileMerge { count := 1 } { count := 3 })) = mergeOutcome (mergeLintRatchetBaselines Numeral
        (oneFileMerge { count := 1 } { count := 3 }).swapSides) := by decide +kernel
  have hparsed {n : Nat} (hn : 0 < n) := (oneItem_count hn).parsed plainVocabulary
  exact ⟨hsame, (@mergeLintRatchetBaselines_swapSides_iff Numeral _ _
    (oneFileMerge { count := 1 } { count := 3 }) _ _ _ (hparsed (by decide))
    (hparsed (by decide)) (hparsed (by decide))).1 hsame⟩

/-- A copy that holds a field of another metric is refused where the same ratchet, as it would be
written, is taken from the other side. -/
theorem mergeLintRatchetBaselines_swapSides_fails :
    let options := oneFileMerge { count := 1, lines := some 5 } { count := 1 }
    parseLintRatchetBaselineStructure options.baseText plainVocabulary =
        .ok (oneFile .messageCount { count := 2 }) ∧
      parseLintRatchetBaselineStructure options.currentText plainVocabulary =
        .ok (oneFile .messageCount { count := 1, lines := some 5 }) ∧
      parseLintRatchetBaselineStructure options.otherText plainVocabulary =
        .ok (oneFile .messageCount { count := 1 }) ∧
      (mergeOutcome (mergeLintRatchetBaselines Numeral options)).map (·.1.isSome) = some false ∧
      (mergeOutcome (mergeLintRatchetBaselines Numeral options.swapSides)).map (·.1.isSome) =
        some true := by
  refine ⟨?_, ?_, ?_, ?_, ?_⟩ <;> decide +kernel

end Musi.LintRatchet
