import Musi.LintRatchet.Kernel.DriverSymmetry

namespace Musi.LintRatchet
open Musi.Js Musi.Merge
set_option autoImplicit true

section
variable {N : Type} [JsNumber N] [Host] {options : MergeLintRatchetBaselinesOptions}
  {base current other : LintRatchetBaseline N}

/-! ## The floor of one path -/

/-- What one path of two changed tests may resolve to. -/
structure PathFloor (N : Type) [JsNumber N] (metric : LintRatchetMetric)
    (base current other : Option LintRatchetMetricItem)
    (outcome : ItemMergeOutcome LintRatchetMetricItem) : Prop where
  wellFormed : ∀ z, outcome.item = some z → ItemWellFormed N z ∧ 0 < z.count
  carried : ∀ z, outcome.item = some z → ∃ x, current = some x ∨ other = some x
  added : ∀ z, outcome.item = some z → (current.isSome ∧ other.isSome) ∨ base = none
  floor : ∀ z, outcome.item = some z → ∀ x, current = some x ∨ other = some x →
    FloorOf metric outcome.truthUp x z
  silent : outcome.truthUp = false → ∀ x, current = some x ∨ other = some x →
    ∃ z, outcome.item = some z

/-- An item that one side carries is kept, if its base has no such item. -/
theorem pathFloor_oneSided {metric : LintRatchetMetric} {b c o : Option LintRatchetMetricItem}
    {item : LintRatchetMetricItem} (hitem : ItemWellFormed N item ∧ 0 < item.count)
    (hside : ∀ x, c = some x ∨ o = some x ↔ x = item) :
    PathFloor N metric b c o (if b.isNone then { item := some item } else { truthUp := true }) := by
  cases b with
  | none =>
    refine ⟨fun z hz => ?_, fun z hz => ⟨item, (hside item).2 rfl⟩, fun z _ => .inr rfl,
      fun z hz x hx => ?_, fun _ x hx => ⟨item, rfl⟩⟩
    · cases hz
      exact hitem
    · cases hz
      rw [(hside x).1 hx]
      exact .refl _ _ _
  | some b => exact ⟨nofun, nofun, nofun, nofun, nofun⟩

theorem resolveItem_floor {metric : LintRatchetMetric} {testId path : JsString}
    {b c o : Option LintRatchetMetricItem}
    (hc : ∀ item ∈ c, ItemWellFormed N item ∧ 0 < item.count)
    (ho : ∀ item ∈ o, ItemWellFormed N item ∧ 0 < item.count)
    (hf : (resolveItem N metric testId path b c o).failure = none) :
    PathFloor N metric b c o (resolveItem N metric testId path b c o) := by
  cases c with
  | none =>
    cases o with
    | none => exact ⟨nofun, nofun, nofun, nofun, fun _ x hx => by simp at hx⟩
    | some y => exact pathFloor_oneSided (ho y rfl) fun x => by simp [eq_comm]
  | some x =>
    cases o with
    | none => exact pathFloor_oneSided (hc x rfl) fun y => by simp [eq_comm]
    | some y =>
      obtain ⟨z, hitem, hwf, hcount, hx, hy⟩ := mergeSharedItem_floor (hc x rfl).1 (ho y rfl).1 hf
      have hpos : 0 < z.count := by
        have := (hc x rfl).2
        have := (ho y rfl).2
        omega
      have hone {w : LintRatchetMetricItem}
          (hw : (resolveItem N metric testId path b (some x) (some y)).item = some w) : w = z :=
        Option.some.inj (hw.symm.trans hitem)
      refine ⟨fun w hw => hone hw ▸ ⟨hwf, hpos⟩, fun w _ => ⟨x, .inl rfl⟩, fun w _ => .inl ⟨rfl, rfl⟩,
        fun w hw v hv => ?_, fun _ v _ => ⟨z, hitem⟩⟩
      rw [hone hw]
      rcases hv with hv | hv
      · cases hv
        exact hx
      · cases hv
        exact hy

/-! ## What a resolved round leaves -/

/-- What the round of two changed tests leaves. -/
structure ChangedTest (testId : JsString) (base : Option (LintRatchetBaselineTest N))
    (current other merged : LintRatchetBaselineTest N) (truthUp : Bool) : Prop where
  sameMeta : current.toLintRatchetBaselineGroupMeta = other.toLintRatchetBaselineGroupMeta
  mergedMeta : merged.toLintRatchetBaselineGroupMeta = current.toLintRatchetBaselineGroupMeta
  resolved : ∀ path, (resolvePath testId base current other path).failure = none
  items : ∀ path z, merged.items.own path = some z ↔
    (resolvePath testId base current other path).item = some z ∧ 0 < z.count
  truthUp : truthUp = true ↔ ∃ path, (resolvePath testId base current other path).truthUp = true

theorem mergeRound_both (hb : TestsWellFormed base) (hc : TestsWellFormed current)
    (ho : TestsWellFormed other)
    (hchoice : (testVersions base current other testId).choice = .both)
    (hf : (mergeRound options base current other testId).failures = []) :
    ∃ c o m, current.tests.own testId = some c ∧ other.tests.own testId = some o ∧
      (mergeRound options base current other testId).group.map baselineTestFromGroup = some m ∧
      ChangedTest testId (base.tests.own testId) c o m
        (mergeRound options base current other testId).truthUpRequired := by
  rw [mergeRound, mergeTest, hchoice] at hf ⊢
  dsimp only [testVersions, TestVersions.groups] at hf ⊢
  cases hcur : current.tests.own testId with
  | none =>
    rw [hcur] at hf
    cases hoth : other.tests.own testId with
    | none =>
      rw [hoth] at hf
      cases hf
    | some o =>
      rw [hoth] at hf
      cases hf
  | some c =>
    cases hoth : other.tests.own testId with
    | none =>
      rw [hcur, hoth] at hf
      cases hf
    | some o =>
      rw [hcur, hoth] at hf
      have hround := mergeChangedGroup_tests options.versionPolicy options.workflowVocabulary
        options.baselineFile (hb testId) (hc testId c hcur) (ho testId o hoth)
      obtain ⟨hmeta, hresolved⟩ := hround.failures.1 hf
      obtain ⟨group, hgroup, hgroupMeta, hget⟩ := hround.group hf
      refine ⟨c, o, baselineTestFromGroup group, rfl, rfl, ?_, hmeta, hgroupMeta, hresolved,
        fun path z => ?_, hround.truthUp hf⟩
      · dsimp only at hgroup ⊢
        rw [hgroup, Option.map_some]
      · rw [own_baselineTestFromGroup, Option.filter_eq_some_iff, hget]
        simp

theorem ChangedTest.floor {b : Option (LintRatchetBaselineTest N)}
    {c o m : LintRatchetBaselineTest N} {truthUp : Bool} (h : ChangedTest testId b c o m truthUp)
    (hc : TestWellFormed testId c) (ho : TestWellFormed testId o) (path : JsString) :
    PathFloor N c.metric (b.bind (·.items.own path)) (c.items.own path) (o.items.own path)
      (resolvePath testId b c o path) :=
  resolveItem_floor (hc.items path) (ho.items path) (h.resolved path)

theorem ChangedTest.wellFormed {b : Option (LintRatchetBaselineTest N)}
    {c o m : LintRatchetBaselineTest N} {truthUp : Bool} (h : ChangedTest testId b c o m truthUp)
    (hc : TestWellFormed testId c) (ho : TestWellFormed testId o) : TestWellFormed testId m := by
  have hmeta := h.mergedMeta
  refine ⟨hc.id, hmeta ▸ hc.ruleId, hmeta ▸ hc.configHash, hmeta ▸ hc.ruleSourceHash,
    hmeta ▸ hc.ruleOptions, fun path z hz => ?_, fun path z hz => ?_⟩
  · obtain ⟨x, hx⟩ := (h.floor hc ho path).carried z ((h.items path z).1 hz).1
    exact hx.elim (hc.paths path x) (ho.paths path x)
  · exact (h.floor hc ho path).wellFormed z ((h.items path z).1 hz).1

/-- A round leaves a test that the structural parser would accept. -/
theorem mergeRound_wellFormed (hb : TestsWellFormed base) (hc : TestsWellFormed current)
    (ho : TestsWellFormed other)
    (hf : (mergeRound options base current other testId).failures = []) {test : LintRatchetBaselineTest N}
    (ht : (mergeRound options base current other testId).group.map baselineTestFromGroup = some test) :
    TestWellFormed testId test := by
  cases hchoice : (testVersions base current other testId).choice with
  | current =>
    rw [mergeRound_current hchoice, takenRound_test (hc testId)] at ht
    exact hc testId test ht
  | other =>
    rw [mergeRound_other hchoice, takenRound_test (ho testId)] at ht
    exact ho testId test ht
  | both =>
    obtain ⟨c, o, m, hcur, hoth, hm, hchanged⟩ := mergeRound_both hb hc ho hchoice hf
    rw [hm] at ht
    cases ht
    exact hchanged.wellFormed (hc testId c hcur) (ho testId o hoth)

theorem Resolves.wellFormed (hb : TestsWellFormed base) (hc : TestsWellFormed current)
    (ho : TestsWellFormed other) (h : Resolves options base current other)
    (hwrite : options.versionPolicy.writeVersion ∈ [legacyVersion, annotatedVersion]) :
    BaselineWellFormed (mergedOf options base current other) := by
  refine ⟨hwrite, fun r hr => ?_, fun testId test ht => ?_⟩
  · obtain ⟨command, -, rfl⟩ := Option.map_eq_some_iff.1 hr
    exact .str _
  · refine ⟨?_, h.valid.ruleSourceHash testId test ht⟩
    rw [own_mergedOf hb hc ho] at ht
    exact mergeRound_wellFormed hb hc ho (h.rounds testId) ht

/-- The text of a resolved merge is read back as the canonical form of what it merged. -/
theorem Resolves.parse_text (hb : TestsWellFormed base) (hc : TestsWellFormed current)
    (ho : TestsWellFormed other) (h : Resolves options base current other)
    (hwrite : options.versionPolicy.writeVersion ∈ [legacyVersion, annotatedVersion])
    (w : LintRatchetWorkflowVocabulary) (baselineFile : JsString) :
    parseLintRatchetBaselineStructure (formatLintRatchetBaseline (mergedOf options base current other)
        options.workflowVocabulary) w options.versionPolicy baselineFile =
      .ok (canonicalBaseline (mergedOf options base current other)) :=
  parse_formatLintRatchetBaseline (h.wellFormed hb hc ho hwrite) _ h.version _ _ _

/-! ## The floor of a merge -/

/-- The merged items of a ratchet that both sides keep and changed. -/
structure MergedItems (base : Option (LintRatchetBaselineTest N))
    (current other merged : LintRatchetBaselineTest N) (truthUp : Bool) : Prop where
  carried : ∀ path z, merged.items.own path = some z →
    ((current.items.own path).isSome ∧ (other.items.own path).isSome) ∨
      base.bind (·.items.own path) = none
  floor : ∀ path z x, merged.items.own path = some z →
    current.items.own path = some x ∨ other.items.own path = some x →
      z.count ≤ x.count ∧ (z.count = x.count → ∀ l ∈ x.lines, ∀ m ∈ z.lines, m ≤ l)
  kept : truthUp = false → ∀ path x,
    current.items.own path = some x ∨ other.items.own path = some x →
      merged.items.own path = some (formatItem merged.metric x)

/-- What a resolved merge holds for one ratchet: the merged items, where both sides keep the ratchet
and changed it differently; the canonical group of the side that changed it, everywhere else. -/
structure RatchetFloor (base current other merged : LintRatchetBaseline N) (truthUp : Bool)
    (testId : JsString) : Prop where
  changed : ∀ c o, current.tests.own testId = some c → other.tests.own testId = some o →
    ¬ WrittenAlike current other testId → ¬ WrittenAlike current base testId →
    ¬ WrittenAlike other base testId → ∃ m, merged.tests.own testId = some m ∧
      MergedItems (base.tests.own testId) c o m truthUp
  taken : (current.tests.own testId = none ∨ other.tests.own testId = none ∨
      WrittenAlike current other testId ∨ WrittenAlike current base testId ∨
      WrittenAlike other base testId) →
    (merged.tests.own testId = (current.tests.own testId).map canonicalTest ∧
        (WrittenAlike current other testId ∨ WrittenAlike other base testId)) ∨
      (merged.tests.own testId = (other.tests.own testId).map canonicalTest ∧
        WrittenAlike current base testId)

omit [JsNumber N] in
theorem formatItem_lines {metric : LintRatchetMetric} {item : LintRatchetMetricItem} {l : ℕ∞}
    (h : l ∈ (formatItem metric item).lines) : l ∈ item.lines := by
  cases metric with
  | messageCount => cases h
  | effectiveLineCount => exact h
  | complexitySeverity =>
    simp only [formatItem] at h
    split at h <;> cases h

omit [JsNumber N] in
theorem own_canonicalTest (test : LintRatchetBaselineTest N) (path : JsString)
    (h : ∀ item, test.items.own path = some item → 0 < item.count) :
    (canonicalTest test).items.own path = (test.items.own path).map (formatItem test.metric) := by
  rw [canonicalTest, own_canonicalItems]
  cases hi : test.items.own path with
  | none => rfl
  | some item => rw [Option.filter_some, if_pos (by simpa using h item hi)]

/-- The canonical form of the test that two changed ones merge into. -/
theorem ChangedTest.mergedItems {b : Option (LintRatchetBaselineTest N)}
    {c o m : LintRatchetBaselineTest N} {truthUp roundTruthUp : Bool}
    (h : ChangedTest testId b c o m roundTruthUp)
    (hc : TestWellFormed testId c) (ho : TestWellFormed testId o)
    (htruth : truthUp = false → roundTruthUp = false) :
    MergedItems b c o (canonicalTest m) truthUp := by
  have hm := h.wellFormed hc ho
  have hmetric : m.metric = c.metric :=
    congrArg (fun g : LintRatchetBaselineGroupMeta N => g.metric) h.mergedMeta
  have hown (path : JsString) := own_canonicalTest m path fun item hi => (hm.items path item hi).2
  have hraw {path : JsString} {z : LintRatchetMetricItem}
      (hz : (canonicalTest m).items.own path = some z) :
      ∃ w, (resolvePath testId b c o path).item = some w ∧ z = formatItem m.metric w := by
    rw [hown] at hz
    obtain ⟨w, hw, rfl⟩ := Option.map_eq_some_iff.1 hz
    exact ⟨w, ((h.items path w).1 hw).1, rfl⟩
  refine ⟨fun path z hz => ?_, fun path z x hz hx => ?_, fun hquiet path x hx => ?_⟩
  · obtain ⟨w, hw, -⟩ := hraw hz
    exact (h.floor hc ho path).added w hw
  · obtain ⟨w, hw, rfl⟩ := hraw hz
    have hfloor := (h.floor hc ho path).floor w hw x hx
    rw [formatItem_count]
    exact ⟨hfloor.count, fun heq l hl k hk => hfloor.lines heq l hl k (formatItem_lines hk)⟩
  · have hsilent : (resolvePath testId b c o path).truthUp = false := by
      refine Bool.eq_false_iff.2 fun hpath => ?_
      rw [h.truthUp.2 ⟨path, hpath⟩] at htruth
      cases htruth hquiet
    obtain ⟨w, hw⟩ := (h.floor hc ho path).silent hsilent x hx
    have hpos := ((h.floor hc ho path).wellFormed w hw).2
    have hkept := ((h.floor hc ho path).floor w hw x hx).kept hsilent
    rw [hown, (h.items path w).2 ⟨hw, hpos⟩, Option.map_some, hmetric, hkept]
    exact congrArg (fun metric => some (formatItem metric x)) hmetric.symm

/-- The parsed sides of a merge with a text, and that text. -/
theorem mergeLintRatchetBaselines_resolved {result : MergeLintRatchetBaselinesResult} {text : JsString}
    (hb : parseMergeBaseline options (js "base") options.baseText = .ok base)
    (hc : parseLintRatchetBaselineStructure options.currentText options.workflowVocabulary
      options.versionPolicy options.baselineFile = .ok current)
    (ho : parseLintRatchetBaselineStructure options.otherText options.workflowVocabulary
      options.versionPolicy options.baselineFile = .ok other)
    (hresult : mergeLintRatchetBaselines N options = some result)
    (htext : result.mergedText = some text) :
    (TestsWellFormed base ∧ TestsWellFormed current ∧ TestsWellFormed other) ∧
      Resolves options base current other ∧ result = resolvedResult options base current other ∧
      text = formatLintRatchetBaseline (mergedOf options base current other)
        options.workflowVocabulary := by
  rw [mergeLintRatchetBaselines_parsed hb (parseMergeBaseline_accepted _ hc _)
    (parseMergeBaseline_accepted _ ho _)] at hresult
  have hb := parseMergeBaseline_wellFormed hb
  have hc : TestsWellFormed current := fun testId test ht => parse_structure_wellFormed hc ht
  have ho : TestsWellFormed other := fun testId test ht => parse_structure_wellFormed ho ht
  obtain ⟨hresolves, rfl⟩ := mergeParsed_text hb hc ho hresult (by simp [htext])
  exact ⟨⟨hb, hc, ho⟩, hresolves, rfl, (Option.some.inj htext).symm⟩

/-- A merge that resolves keeps the minimum floor, and says when it gave information up. -/
theorem mergeLintRatchetBaselines_floor {result : MergeLintRatchetBaselinesResult} {text : JsString}
    (hwrite : options.versionPolicy.writeVersion ∈ [legacyVersion, annotatedVersion])
    (hb : parseMergeBaseline options (js "base") options.baseText = .ok base)
    (hc : parseLintRatchetBaselineStructure options.currentText options.workflowVocabulary
      options.versionPolicy options.baselineFile = .ok current)
    (ho : parseLintRatchetBaselineStructure options.otherText options.workflowVocabulary
      options.versionPolicy options.baselineFile = .ok other)
    (hresult : mergeLintRatchetBaselines N options = some result)
    (htext : result.mergedText = some text) :
    ∃ merged, parseLintRatchetBaselineStructure text options.workflowVocabulary
        options.versionPolicy options.baselineFile = .ok merged ∧
      ∀ testId, RatchetFloor base current other merged result.postMergeTruthUpRequired testId := by
  obtain ⟨⟨hb, hc, ho⟩, hresolves, rfl, rfl⟩ :=
    mergeLintRatchetBaselines_resolved hb hc ho hresult htext
  refine ⟨_, hresolves.parse_text hb hc ho hwrite _ _, fun testId => ?_⟩
  have hown (testId : JsString) :
      (canonicalBaseline (mergedOf options base current other)).tests.own testId =
        ((mergeRound options base current other testId).group.map baselineTestFromGroup).map
          canonicalTest := by
    rw [own_canonicalBaseline, own_mergedOf hb hc ho]
  have htaken {test : Option (LintRatchetBaselineTest N)}
      (hround : mergeRound options base current other testId = takenRound test)
      (hwf : ∀ t, test = some t → TestWellFormed testId t) :
      (canonicalBaseline (mergedOf options base current other)).tests.own testId =
        test.map canonicalTest := by
    rw [hown, hround, takenRound_test hwf]
  cases hchoice : (testVersions base current other testId).choice with
  | current =>
    have halike := choose_current hchoice
    refine ⟨fun c o _ _ hco _ hob => (halike.elim hco hob).elim, fun _ => .inl ⟨?_, halike⟩⟩
    exact htaken (mergeRound_current hchoice) (hc testId)
  | other =>
    have halike := choose_other hchoice
    refine ⟨fun c o _ _ _ hcb _ => (hcb halike.1).elim, fun _ => .inr ⟨?_, halike.1⟩⟩
    exact htaken (mergeRound_other hchoice) (ho testId)
  | both =>
    obtain ⟨hco, hcb, hob⟩ := choose_both.1 hchoice
    obtain ⟨c, o, m, hcur, hoth, hm, hchanged⟩ :=
      mergeRound_both hb hc ho hchoice (hresolves.rounds testId)
    refine ⟨fun c' o' hc' ho' _ _ _ => ?_, fun h => ?_⟩
    · cases hcur.symm.trans hc'
      cases hoth.symm.trans ho'
      refine ⟨canonicalTest m, by rw [hown, hm, Option.map_some], ?_⟩
      refine hchanged.mergedItems (hc testId c hcur) (ho testId o hoth) fun hquiet => ?_
      have hfail := (groupedMerge_failures hb hc ho).2 hresolves.rounds
      refine Bool.eq_false_iff.2 fun htruth => ?_
      have hflag := (groupedMerge_truthUp hb hc ho hfail).2 ⟨testId, htruth⟩
      rw [resolvedResult, hflag] at hquiet
      cases hquiet
    · rcases h with h | h | h | h | h
      · cases h.symm.trans hcur
      · cases h.symm.trans hoth
      · exact (hco h).elim
      · exact (hcb h).elim
      · exact (hob h).elim

end

/-- The result and the text of a merge that has one. -/
theorem exists_mergedText (merged : Option MergeLintRatchetBaselinesResult)
    (h : (merged.bind (·.mergedText)).isSome = true) :
    ∃ result text, merged = some result ∧ result.mergedText = some text := by
  obtain ⟨text, hbind⟩ := Option.isSome_iff_exists.1 h
  obtain ⟨result, hresult, htext⟩ := Option.bind_eq_some_iff.1 hbind
  exact ⟨result, text, hresult, htext⟩

/-- A side that drained one file further than the other. -/
theorem mergeLintRatchetBaselines_floor_one :
    ∃ result text, mergeLintRatchetBaselines Numeral (oneFileMerge { count := 1 } { count := 3 }) =
        some result ∧ result.mergedText = some text ∧
      ∃ merged, parseLintRatchetBaselineStructure text plainVocabulary = .ok merged ∧
        ∀ testId, RatchetFloor (oneFile .messageCount { count := 2 })
          (oneFile .messageCount { count := 1 }) (oneFile .messageCount { count := 3 }) merged
          result.postMergeTruthUpRequired testId := by
  have hparsed (n : Nat) (hn : 0 < n) := (oneItem_count hn).parsed plainVocabulary
  have hbase : parseMergeBaseline (oneFileMerge { count := 1 } { count := 3 }) (js "base")
      (oneFileMerge { count := 1 } { count := 3 }).baseText =
        .ok (oneFile .messageCount { count := 2 }) :=
    parseMergeBaseline_accepted (oneFileMerge { count := 1 } { count := 3 })
      (hparsed 2 (by decide)) _
  obtain ⟨result, text, hresult, htext⟩ := exists_mergedText
    (mergeLintRatchetBaselines Numeral (oneFileMerge { count := 1 } { count := 3 })) (by decide +kernel)
  have hwrite : (oneFileMerge { count := 1 } { count := 3 }).versionPolicy.writeVersion ∈
      [legacyVersion, annotatedVersion] := by decide
  exact ⟨result, text, hresult, htext, @mergeLintRatchetBaselines_floor Numeral _ _
    (oneFileMerge { count := 1 } { count := 3 }) _ _ _ _ _ hwrite hbase (hparsed 1 (by decide)) (hparsed 3 (by decide)) hresult htext⟩

end Musi.LintRatchet
