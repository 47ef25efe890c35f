import Musi.LintRatchet.Kernel.CodecRoundTrip
import Musi.LintRatchet.Kernel.UpdateSafety

namespace Musi.LintRatchet
open Musi.Js
set_option autoImplicit true

/-! ## Values up to a relation -/

section Relations
variable {α β : Type} {R : α → α → Prop} {o p q : Option α} {l m : List α}

theorem rel_cases {R : α → β → Prop} {o : Option α} {p : Option β} (h : Option.Rel R o p) :
    (o = none ∧ p = none) ∨ ∃ a b, o = some a ∧ p = some b ∧ R a b := by
  cases h with
  | none => exact .inl ⟨rfl, rfl⟩
  | some hab => exact .inr ⟨_, _, rfl, rfl, hab⟩

theorem rel_refl (h : ∀ a, R a a) (o : Option α) : Option.Rel R o o := by
  cases o with
  | none => exact .none
  | some a => exact .some (h a)

theorem rel_symm (h : ∀ {a b}, R a b → R b a) (hop : Option.Rel R o p) : Option.Rel R p o := by
  cases hop with
  | none => exact .none
  | some hab => exact .some (h hab)

theorem rel_trans (h : ∀ {a b c}, R a b → R b c → R a c) (hop : Option.Rel R o p)
    (hpq : Option.Rel R p q) : Option.Rel R o q := by
  cases hop with
  | none => exact hpq
  | some hab =>
    cases hpq with
    | some hbc => exact .some (h hab hbc)

/-- What a function makes of related values when it does not tell them apart. -/
theorem rel_map_eq {f : α → β} (h : ∀ {a b}, R a b → f a = f b) (hop : Option.Rel R o p) :
    o.map f = p.map f := by
  cases hop with
  | none => rfl
  | some hab => exact congrArg some (h hab)

theorem rel_filter {f : α → Bool} (h : ∀ {a b}, R a b → f a = f b) (hop : Option.Rel R o p) :
    Option.Rel R (o.filter f) (p.filter f) := by
  cases hop with
  | none => exact .none
  | @some a b hab =>
    rw [Option.filter_some, Option.filter_some, h hab]
    split
    · exact .some hab
    · exact .none

theorem forall₂_map_eq {f : α → β} (h : ∀ {a b}, R a b → f a = f b) (hl : List.Forall₂ R l m) :
    l.map f = m.map f := by
  induction hl with
  | nil => rfl
  | cons hab _ ih => rw [List.map_cons, List.map_cons, h hab, ih]

theorem forall₂_filter {f : α → Bool} (h : ∀ {a b}, R a b → f a = f b)
    (hl : List.Forall₂ R l m) : List.Forall₂ R (l.filter f) (m.filter f) := by
  induction hl with
  | nil => exact .nil
  | @cons a b _ _ hab _ ih =>
    rw [List.filter_cons, List.filter_cons, h hab]
    split
    · exact .cons hab ih
    · exact ih

/-- Lists that agree on a key agree entry by entry on what the key decides. -/
theorem forall₂_of_map_eq (f : α → β) (h : l.map f = m.map f)
    (hR : ∀ a ∈ l, ∀ b ∈ m, f a = f b → R a b) : List.Forall₂ R l m := by
  induction l generalizing m with
  | nil =>
    rw [List.map_eq_nil_iff.1 h.symm]
    exact .nil
  | cons a l ih =>
    cases m with
    | nil => cases h
    | cons b m =>
      rw [List.map_cons, List.map_cons, List.cons.injEq] at h
      refine .cons (hR a (by simp) b (by simp) h.1) (ih h.2 fun x hx y hy => ?_)
      exact hR x (List.mem_cons_of_mem _ hx) y (List.mem_cons_of_mem _ hy)

end Relations

/-! ## Reordered items and tests -/

section Reordered
variable {item item' item'' : LintRatchetMetricItem}

theorem ReorderedItem.refl (item : LintRatchetMetricItem) : ReorderedItem item item :=
  ⟨rfl, rfl, rfl, rel_refl List.Perm.refl _, rfl⟩

theorem ReorderedItem.symm (h : ReorderedItem item item') : ReorderedItem item' item :=
  ⟨h.count.symm, h.lines.symm, h.maxComplexity.symm, rel_symm List.Perm.symm h.perFunction,
    h.messagesFingerprint.symm⟩

theorem ReorderedItem.trans (h : ReorderedItem item item') (h' : ReorderedItem item' item'') :
    ReorderedItem item item'' :=
  ⟨h'.count.trans h.count, h'.lines.trans h.lines, h'.maxComplexity.trans h.maxComplexity,
    rel_trans List.Perm.trans h'.perFunction h.perFunction,
    h'.messagesFingerprint.trans h.messagesFingerprint⟩

variable {N : Type} {test test' test'' : LintRatchetBaselineTest N}

theorem ReorderedTest.refl (test : LintRatchetBaselineTest N) : ReorderedTest test test :=
  ⟨rfl, rfl, rfl, .refl _, .refl _, rfl, rfl, rfl, fun _ => rel_refl ReorderedItem.refl _⟩

theorem ReorderedTest.symm (h : ReorderedTest test test') : ReorderedTest test' test :=
  ⟨h.ruleId.symm, h.mode.symm, h.metric.symm, h.files.symm, h.ignores.symm, h.ruleOptions.symm,
    h.configHash.symm, h.ruleSourceHash.symm, fun path => rel_symm ReorderedItem.symm (h.items path)⟩

theorem ReorderedTest.trans (h : ReorderedTest test test') (h' : ReorderedTest test' test'') :
    ReorderedTest test test'' :=
  ⟨h'.ruleId.trans h.ruleId, h'.mode.trans h.mode, h'.metric.trans h.metric,
    h'.files.trans h.files, h'.ignores.trans h.ignores, h'.ruleOptions.trans h.ruleOptions,
    h'.configHash.trans h.configHash, h'.ruleSourceHash.trans h.ruleSourceHash,
    fun path => rel_trans ReorderedItem.trans (h.items path) (h'.items path)⟩

theorem ReorderedTest.mem_keys (h : ReorderedTest test test') (path : JsString) :
    path ∈ test.items.keys ↔ path ∈ test'.items.keys := by
  rw [Record.mem_keys, Record.mem_keys]
  obtain ⟨hn, hn'⟩ | ⟨item, item', hi, hi', -⟩ := rel_cases (h.items path)
  · simp [hn, hn']
  · simp [hi, hi']

theorem ReorderedTest.keys_perm (h : ReorderedTest test test') :
    test.items.keys.Perm test'.items.keys :=
  (List.perm_ext_iff_of_nodup test.items.nodup test'.items.nodup).2 h.mem_keys

variable [JsNumber N] [Host]

/-- Valid tests with one canonical form are the same up to order. -/
theorem ReorderedTest.of_canonical (h : canonicalTest test = canonicalTest test')
    (hwf : TestWellFormed testId test) (hwf' : TestWellFormed testId test')
    (hitems : TestItemsValid test) (hitems' : TestItemsValid test') : ReorderedTest test test' := by
  have hleft := reread_canonicalTest hwf hitems
  rw [h] at hleft
  exact hleft.trans (reread_canonicalTest hwf' hitems').symm

end Reordered

/-! ## The comparison -/

section Comparison
variable {N : Type} [JsNumber N] [Host] {item item' : LintRatchetMetricItem}

omit [JsNumber N] in
theorem complexityDelta_reordered {baseline baseline' : Option LintRatchetMetricItem}
    (h : Option.Rel ReorderedItem baseline baseline') (current : LintRatchetMetricItem) :
    complexityDelta baseline current = complexityDelta baseline' current := by
  cases h with
  | none => rfl
  | @some item item' hitem =>
    obtain ⟨hn, hn'⟩ | ⟨gs, fs, hgs, hfs, hperm⟩ := rel_cases hitem.perFunction
    · simp only [complexityDelta, Option.bind_some, hn, hn']
    · simp only [complexityDelta, Option.bind_some, hgs, hfs]
      cases current.perFunction with
      | none => rfl
      | some cs => simp only [exactComplexityDelta_perm hperm, vectorComplexityDelta_perm hperm]

/-- No comparison tells reordered items apart. -/
theorem compareItem_reordered {baseline baseline' : Option LintRatchetMetricItem}
    (h : Option.Rel ReorderedItem baseline baseline') (metric : LintRatchetMetric)
    (ratchet : LintRatchetConfig N) (path : JsString) (current : LintRatchetCurrentItem N) :
    compareItem metric { ratchet, path, baselineItem := baseline, current } =
      compareItem metric { ratchet, path, baselineItem := baseline', current } := by
  have hdelta := complexityDelta_reordered h current.toLintRatchetMetricItem
  cases h with
  | none => rfl
  | @some item item' hi =>
    obtain ⟨count, lines, maxComplexity, perFunction, fingerprint⟩ := item
    obtain ⟨count', lines', maxComplexity', perFunction', fingerprint'⟩ := item'
    obtain ⟨rfl, rfl, rfl, -, rfl⟩ := hi
    cases metric with
    | messageCount => rfl
    | effectiveLineCount => rfl
    | complexitySeverity =>
      simp only [compareItem, compareComplexitySeverityItem, hdelta]
      rfl

/-- Two documents with the same tests up to order. -/
def ReorderedTests (left right : LintRatchetBaseline N) : Prop :=
  ∀ testId, Option.Rel ReorderedTest (left.tests.own testId) (right.tests.own testId)

variable {left right : LintRatchetBaseline N} (h : ReorderedTests left right)
  (ratchets : List (LintRatchetConfig N)) (currentById : LintRatchetCurrentById N)
include h

theorem comparisonAt_reordered (testId path : JsString) :
    comparisonAt left ratchets currentById testId path =
      comparisonAt right ratchets currentById testId path := by
  unfold comparisonAt
  cases (registryById ratchets).get testId with
  | none => rfl
  | some ratchet =>
    obtain ⟨hl, hr⟩ | ⟨test, test', hl, hr, htest⟩ := rel_cases (h testId)
    · rw [hl, hr]
    · rw [hl, hr]
      have hitem := rel_filter (f := fun item => decide (item.count > 0))
        (fun hi => by rw [hi.count]) (htest.items path)
      dsimp only
      cases (currentById.get testId).bind fun items => items.get path with
      | some current => exact compareItem_reordered hitem _ _ _ _
      | none =>
        refine congrArg (fun improvement => ({ improvement } : MetricItemComparison N))
          (rel_map_eq (fun hi => ?_) hitem)
        rw [removedPathImprovement, removedPathImprovement, hi.count]

omit [JsNumber N] [Host] in
theorem mem_comparedGroups_keys (testId : JsString) :
    testId ∈ (comparedGroups left ratchets).keys ↔ testId ∈ (comparedGroups right ratchets).keys := by
  rw [← not_iff_not, ← JsMap.get_none, ← JsMap.get_none, get_comparedGroups, get_comparedGroups]
  obtain ⟨hl, hr⟩ | ⟨test, test', hl, hr, -⟩ := rel_cases (h testId)
  · rw [hl, hr]
  · rw [hl, hr]
    split <;> simp

omit [JsNumber N] [Host] in
theorem mem_comparedItems_keys (testId path : JsString) :
    path ∈ (groupItems (comparedGroups left ratchets) testId).keys ↔
      path ∈ (groupItems (comparedGroups right ratchets) testId).keys := by
  rw [← not_iff_not, ← JsMap.get_none, ← JsMap.get_none, groupItems, groupItems,
    get_comparedGroups, get_comparedGroups]
  obtain ⟨hl, hr⟩ | ⟨test, test', hl, hr, htest⟩ := rel_cases (h testId)
  · rw [hl, hr]
  · rw [hl, hr]
    split
    · have hitem := rel_filter (f := fun item => decide (item.count > 0))
        (fun hi => by rw [hi.count]) (htest.items path)
      have hget := rel_map_eq (f := fun _ => ()) (fun _ => rfl) hitem
      rw [← get_positiveItemMap, ← get_positiveItemMap] at hget
      simp only [Option.map_some, Option.getD_some, groupOfTest]
      rw [← Option.map_eq_none_iff, hget, Option.map_eq_none_iff]
    · rfl

omit [JsNumber N] [Host] in
theorem currentItems_reordered (testId : JsString) :
    groupItems (currentGroups (comparedGroups left ratchets) currentById) testId =
      groupItems (currentGroups (comparedGroups right ratchets) currentById) testId := by
  simp only [groupItems, get_currentGroups, Option.map_map, Function.comp_def, get_comparedGroups]
  obtain ⟨hl, hr⟩ | ⟨test, test', hl, hr, -⟩ := rel_cases (h testId)
  · rw [hl, hr]
  · rw [hl, hr]
    split <;> rfl

omit [JsNumber N] [Host] in
theorem mem_currentGroups_keys (testId : JsString) :
    testId ∈ (currentGroups (comparedGroups left ratchets) currentById).keys ↔
      testId ∈ (currentGroups (comparedGroups right ratchets) currentById).keys := by
  rw [← not_iff_not, ← JsMap.get_none, ← JsMap.get_none, get_currentGroups, get_currentGroups,
    Option.map_eq_none_iff, Option.map_eq_none_iff, JsMap.get_none, JsMap.get_none,
    mem_comparedGroups_keys h]

theorem visitedKeys_reordered (workflowVocabulary : LintRatchetWorkflowVocabulary) :
    visitedKeys left ratchets currentById workflowVocabulary =
      visitedKeys right ratchets currentById workflowVocabulary := by
  have hgroups := unionKeys_congr compareByCodepoint_strict
    (mem_comparedGroups_keys h ratchets) (mem_currentGroups_keys h ratchets currentById)
  have hcurrent (testId path : JsString) := iff_of_eq (congrArg (fun items => path ∈ JsMap.keys items)
    (currentItems_reordered h ratchets currentById testId))
  have hitems (testId : JsString) := unionKeys_congr compareByCodepoint_strict
    (mem_comparedItems_keys h ratchets testId) (hcurrent testId)
  change (unionKeys compareByCodepoint _ _).flatMap _ = (unionKeys compareByCodepoint _ _).flatMap _
  rw [hgroups]
  exact List.flatMap_congr fun testId _ => congrArg (List.map _) (hitems testId)

/-- The comparison does not tell documents with reordered tests apart. -/
theorem compareCurrentToBaseline_reordered (workflowVocabulary : LintRatchetWorkflowVocabulary) :
    compareCurrentToBaseline left ratchets currentById workflowVocabulary =
      compareCurrentToBaseline right ratchets currentById workflowVocabulary := by
  rw [compareCurrentToBaseline_visited, compareCurrentToBaseline_visited, visitedKeys_reordered h]
  simp only [comparisonAt_reordered h]

end Comparison

/-! ## The update decision -/

section Decision
variable {N : Type} [JsNumber N] [Host] {left right : LintRatchetBaseline N}

/-- The same orphan up to the order of the functions of its items. -/
structure ReorderedOrphan (left right : LintRatchetOrphanRemoval) : Prop where
  testId : left.testId = right.testId
  ruleId : left.ruleId = right.ruleId
  metric : left.metric = right.metric
  items : List.Forall₂ (fun a b => a.path = b.path ∧
    ReorderedItem a.toLintRatchetMetricItem b.toLintRatchetMetricItem)
      left.baselineItems right.baselineItems

/-- The same decision up to the order of the functions in its orphans. -/
structure ReorderedDecision (left right : LintRatchetUpdateDecision N) : Prop where
  same : { left with orphanRemovals := right.orphanRemovals } = right
  orphans : List.Forall₂ ReorderedOrphan left.orphanRemovals right.orphanRemovals

/-- Tests of one id list the same globs in the same order. -/
def SameGlobs (left right : LintRatchetBaseline N) : Prop :=
  ∀ testId l r, left.tests.own testId = some l → right.tests.own testId = some r →
    l.files = r.files ∧ l.ignores = r.ignores

omit [JsNumber N] [Host] in
theorem orphanBaselineItems_reordered {test test' : LintRatchetBaselineTest N}
    (h : ReorderedTest test test') :
    List.Forall₂ (fun a b => a.path = b.path ∧
      ReorderedItem a.toLintRatchetMetricItem b.toLintRatchetMetricItem)
      (orphanBaselineItems test) (orphanBaselineItems test') := by
  have hpaths (t : LintRatchetBaselineTest N) : (orphanBaselineItems t).map (·.path) =
      sortBy compareByCodepoint t.items.keys := by
    rw [orphanBaselineItems, ← sortBy_map (fun item : LintRatchetOrphanBaselineItem => item.path)
      compareByCodepoint, List.map_map]
    rfl
  have hmem {t : LintRatchetBaselineTest N} {a : LintRatchetOrphanBaselineItem}
      (ha : a ∈ orphanBaselineItems t) :
      t.items.own a.path = some a.toLintRatchetMetricItem := by
    obtain ⟨e, he, rfl⟩ := List.mem_map.1 (mem_sortBy.1 ha)
    exact Record.mem_entries.1 he
  refine forall₂_of_map_eq (·.path) ?_ fun a ha b hb hab => ⟨hab, ?_⟩
  · rw [hpaths, hpaths, sortBy_eq_of_perm compareByCodepoint_strict h.keys_perm]
  · have hitem := h.items a.path
    rw [hmem ha, hab, hmem hb] at hitem
    cases hitem with
    | some hi => exact hi

omit [JsNumber N] [Host] in
theorem tests_keys_perm (h : ReorderedTests left right) :
    left.tests.keys.Perm right.tests.keys := by
  refine (List.perm_ext_iff_of_nodup left.tests.nodup right.tests.nodup).2 fun testId => ?_
  change testId ∈ left.tests.keys ↔ testId ∈ right.tests.keys
  rw [Record.mem_keys, Record.mem_keys]
  obtain ⟨hl, hr⟩ | ⟨test, test', hl, hr, -⟩ := rel_cases (h testId)
  · simp [hl, hr]
  · simp [hl, hr]

omit [JsNumber N] [Host] in
theorem collectOrphanRemovals_reordered (h : ReorderedTests left right)
    (ratchets : List (LintRatchetConfig N)) : List.Forall₂ ReorderedOrphan
      (collectOrphanRemovals left ratchets) (collectOrphanRemovals right ratchets) := by
  rw [collectOrphanRemovals, collectOrphanRemovals, sortStrings,
    sortBy_eq_of_perm compareCodeUnits_strict (tests_keys_perm h), ← sortStrings]
  refine List.rel_filterMap (R := Eq) (fun testId _ hid => ?_) (List.forall₂_refl _)
  subst hid
  split
  · exact .none
  · obtain ⟨hl, hr⟩ | ⟨test, test', hl, hr, htest⟩ := rel_cases (h testId)
    · rw [hl, hr]
      exact .none
    · rw [hl, hr]
      exact .some ⟨rfl, htest.ruleId.symm, htest.metric.symm,
        orphanBaselineItems_reordered htest⟩

omit [JsNumber N] [Host] in
theorem orphanFindingTotal_reordered {a b : LintRatchetOrphanRemoval} (h : ReorderedOrphan a b) :
    orphanFindingTotal a = orphanFindingTotal b := by
  have hcounts : a.baselineItems.map (·.count) = b.baselineItems.map (·.count) :=
    forall₂_map_eq (fun hi => hi.2.count.symm) h.items
  have hsum := congrArg (fun counts => counts.foldl (· + ·) 0) hcounts
  simp only [List.foldl_map] at hsum
  exact hsum

omit [Host] in
theorem resolveRetire_reordered {as bs : List LintRatchetOrphanRemoval}
    (h : List.Forall₂ ReorderedOrphan as bs) (retire : LintRatchetRetireRequest N) :
    resolveRetire retire as = resolveRetire retire bs := by
  have hfind : Option.Rel ReorderedOrphan (as.find? fun removal => removal.testId = retire.id)
      (bs.find? fun removal => removal.testId = retire.id) := by
    induction h with
    | nil => exact .none
    | cons hab _ ih =>
      rw [List.find?_cons, List.find?_cons, hab.testId]
      split
      · exact .some hab
      · exact ih
  unfold resolveRetire
  obtain ⟨ha, hb⟩ | ⟨a, b, ha, hb, hab⟩ := rel_cases hfind
  · rw [ha, hb]
  · rw [ha, hb]
    simp only [orphanFindingTotal_reordered hab]

omit [Host] in
theorem retireResolution_reordered (h : ReorderedTests left right)
    (ratchets : List (LintRatchetConfig N)) (options : LintRatchetUpdateOptions N) :
    retireResolution left ratchets options = retireResolution right ratchets options := by
  unfold retireResolution
  cases options.retire with
  | none => rfl
  | some retire => exact resolveRetire_reordered (collectOrphanRemovals_reordered h ratchets) retire

omit [Host] in
theorem accountableOrphans_reordered {as bs : List LintRatchetOrphanRemoval}
    (h : List.Forall₂ ReorderedOrphan as bs) (retired : Option JsString) :
    List.Forall₂ ReorderedOrphan (accountableOrphans as retired) (accountableOrphans bs retired) := by
  cases retired with
  | none => exact h
  | some id => exact forall₂_filter (fun hab => by rw [hab.testId]) h

omit [Host] in
theorem formatOrphanFailure_reordered {as bs : List LintRatchetOrphanRemoval}
    (h : List.Forall₂ ReorderedOrphan as bs) :
    formatOrphanFailure N as = formatOrphanFailure N bs := by
  have hids : as.map (·.testId) = bs.map (·.testId) := forall₂_map_eq (fun hab => hab.testId) h
  have hnil : as = [] ↔ bs = [] := by
    rw [← List.map_eq_nil_iff (f := (·.testId)), hids, List.map_eq_nil_iff]
  unfold formatOrphanFailure
  simp only [hnil, hids]

omit [JsNumber N] in
theorem coverageShrinkDiff_reordered {test test' current : LintRatchetBaselineTest N}
    (h : ReorderedTest test test') (hfiles : test.files = test'.files)
    (hignores : test.ignores = test'.ignores) (testId : JsString) :
    coverageShrinkDiff testId test current = coverageShrinkDiff testId test' current := by
  have hremoved : removedPaths test current = removedPaths test' current :=
    sortBy_eq_of_perm compareCodeUnits_strict (h.keys_perm.filter _)
  rw [coverageShrinkDiff, coverageShrinkDiff, hfiles, hignores, hremoved]

omit [JsNumber N] in
theorem collectCoverageShrinkDiffs_reordered (h : ReorderedTests left right)
    (hglobs : SameGlobs left right) (generated : LintRatchetBaseline N) :
    collectCoverageShrinkDiffs left generated = collectCoverageShrinkDiffs right generated := by
  refine List.filterMap_congr fun testId _ => ?_
  obtain ⟨hl, hr⟩ | ⟨test, test', hl, hr, htest⟩ := rel_cases (h testId)
  · rw [hl, hr]
  · obtain ⟨hfiles, hignores⟩ := hglobs testId test test' hl hr
    rw [hl, hr]
    cases generated.tests.own testId with
    | none => rfl
    | some current => exact coverageShrinkDiff_reordered htest hfiles hignores testId

omit [JsNumber N] [Host] in
theorem collectMetricChangeDiffs_reordered (h : ReorderedTests left right)
    (generated : LintRatchetBaseline N) :
    collectMetricChangeDiffs left generated = collectMetricChangeDiffs right generated := by
  refine List.filterMap_congr fun testId _ => ?_
  obtain ⟨hl, hr⟩ | ⟨test, test', hl, hr, htest⟩ := rel_cases (h testId)
  · rw [hl, hr]
  · rw [hl, hr]
    cases generated.tests.own testId with
    | none => rfl
    | some current => simp only [metricChangeDiff, htest.metric]

omit [JsNumber N] in
theorem detectZeroToNonzeroTransitions_reordered (h : ReorderedTests left right)
    (generated : LintRatchetBaseline N) :
    detectZeroToNonzeroTransitions left generated =
      detectZeroToNonzeroTransitions right generated := by
  refine List.filterMap_congr fun (testId, genTest) _ => ?_
  obtain ⟨hl, hr⟩ | ⟨test, test', hl, hr, htest⟩ := rel_cases (h testId)
  · simp only [hl, hr]
  · have hnil : test.items.keys = [] ↔ test'.items.keys = [] :=
      ⟨fun hk => (hk ▸ htest.keys_perm).nil_eq.symm, fun hk => (hk ▸ htest.keys_perm).eq_nil⟩
    simp only [hl, hr, hnil]

/-- The update does not tell documents with reordered tests apart, but for the orphans that it
records as they were committed. -/
theorem decideLintRatchetUpdate_reordered (h : ReorderedTests left right)
    (hglobs : SameGlobs left right) (generated : LintRatchetBaseline N)
    (ratchets : List (LintRatchetConfig N)) (options : LintRatchetUpdateOptions N) :
    Option.Rel ReorderedDecision (decideLintRatchetUpdate left generated ratchets options)
      (decideLintRatchetUpdate right generated ratchets options) := by
  have horphans := accountableOrphans_reordered (collectOrphanRemovals_reordered h ratchets)
    (retireResolution right ratchets options).retiredRatchetId
  have hmigrations : collectMetricMigrations left generated =
      collectMetricMigrations right generated :=
    congrArg (List.map _) (collectMetricChangeDiffs_reordered h generated)
  have hshrinks : collectCoverageShrinks left generated = collectCoverageShrinks right generated :=
    congrArg (List.map _) (collectCoverageShrinkDiffs_reordered h hglobs generated)
  have hcomparison : updateComparison left generated ratchets options.workflowVocabulary =
      updateComparison right generated ratchets options.workflowVocabulary := by
    rw [updateComparison, updateComparison, compareCurrentToBaseline_reordered h, hmigrations]
  have hfailures (comparison : LintRatchetComparison N) :
      (collectUpdateGate left generated ratchets comparison options).1 =
        (collectUpdateGate right generated ratchets comparison options).1 := by
    simp only [collectUpdateGate, retireResolution_reordered h, hshrinks, hmigrations,
      formatOrphanFailure_reordered horphans]
  rw [decideLintRatchetUpdate, decideLintRatchetUpdate, hcomparison]
  cases updateComparison right generated ratchets options.workflowVocabulary with
  | none => exact .none
  | some comparison =>
    refine .some ⟨?_, ?_⟩
    · simp only [hfailures, retireResolution_reordered h, hshrinks, hmigrations,
        detectZeroToNonzeroTransitions_reordered h]
    · simp only [collectUpdateGate, retireResolution_reordered h]
      exact horphans

end Decision

/-! ## Canonical equality -/

section Lossless
variable {N : Type} [JsNumber N] [Host]

/-- Two documents that hold one test or another under an id and agree on every other id. -/
structure TestSwapped (testId : JsString) (test test' : LintRatchetBaselineTest N)
    (left right : LintRatchetBaseline N) : Prop where
  first : left.tests.own testId = some test
  second : right.tests.own testId = some test'
  others : ∀ other, other ≠ testId → left.tests.own other = right.tests.own other

variable {testId : JsString} {test test' : LintRatchetBaselineTest N}
  {left right : LintRatchetBaseline N}

omit [JsNumber N] [Host] in
theorem TestSwapped.symm (h : TestSwapped testId test test' left right) :
    TestSwapped testId test' test right left :=
  ⟨h.second, h.first, fun other hne => (h.others other hne).symm⟩

omit [JsNumber N] [Host] in
theorem TestSwapped.cases (h : TestSwapped testId test test' left right) {other : JsString}
    {found : LintRatchetBaselineTest N} (hr : right.tests.own other = some found) :
    (other = testId ∧ found = test') ∨ left.tests.own other = some found := by
  by_cases hid : other = testId
  · subst hid
    rw [h.second, Option.some.injEq] at hr
    exact .inl ⟨rfl, hr.symm⟩
  · exact .inr (by rw [h.others other hid, hr])

omit [JsNumber N] [Host] in
theorem TestSwapped.reordered (h : TestSwapped testId test test' left right)
    (htest : ReorderedTest test test') : ReorderedTests left right := by
  intro other
  by_cases hid : other = testId
  · subst hid
    rw [h.first, h.second]
    exact .some htest
  · rw [h.others other hid]
    exact rel_refl ReorderedTest.refl _

omit [JsNumber N] [Host] in
theorem TestSwapped.sameGlobs (h : TestSwapped testId test test' left right)
    (hfiles : test.files = test'.files) (hignores : test.ignores = test'.ignores) :
    SameGlobs left right := by
  intro other l r hl hr
  rcases h.cases hr with ⟨rfl, rfl⟩ | hr
  · rw [h.first, Option.some.injEq] at hl
    subst hl
    exact ⟨hfiles, hignores⟩
  · rw [hl, Option.some.injEq] at hr
    subst hr
    exact ⟨rfl, rfl⟩

omit [JsNumber N] [Host] in
/-- A valid document stays valid with a valid test of the same hash in it. -/
theorem TestSwapped.mergedValid (h : TestSwapped testId test test' left right)
    (hhash : test'.ruleSourceHash = test.ruleSourceHash) (hitems : TestItemsValid test')
    (hvalid : MergedValid left) : MergedValid right where
  ruleSourceHash other found hr := by
    rcases h.cases hr with ⟨-, rfl⟩ | hr
    · rw [hhash]
      exact hvalid.ruleSourceHash testId test h.first
    · exact hvalid.ruleSourceHash other found hr
  items other found hr := by
    rcases h.cases hr with ⟨-, rfl⟩ | hr
    · exact hitems
    · exact hvalid.items other found hr

/-- Accepted tests of one canonical form, with valid items, are interchangeable in a document. -/
theorem sameCanonicalGroup_lossless {w : LintRatchetWorkflowVocabulary}
    {committed committed' : LintRatchetBaseline N} (hc : Accepted w committed)
    (hc' : Accepted w committed') (ht : committed.tests.own testId = some test)
    (ht' : committed'.tests.own testId = some test') (hitems : TestItemsValid test)
    (hitems' : TestItemsValid test') (versionPolicy : LintRatchetBaselineVersionPolicy)
    (baselineFile : JsString)
    (hsame : sameCanonicalGroup (lintRatchetBaselineSpec versionPolicy w baselineFile) testId
      (groupOfTest test) (groupOfTest test') = true)
    (hswap : TestSwapped testId test test' left right) :
    (validateMergedBaseline left = [] ↔ validateMergedBaseline right = []) ∧
    (∀ (ratchets : List (LintRatchetConfig N)) (currentById : LintRatchetCurrentById N)
      (workflowVocabulary : LintRatchetWorkflowVocabulary),
      compareCurrentToBaseline left ratchets currentById workflowVocabulary =
        compareCurrentToBaseline right ratchets currentById workflowVocabulary) ∧
    (test.files = test'.files → test.ignores = test'.ignores →
      ∀ (generated : LintRatchetBaseline N) (ratchets : List (LintRatchetConfig N))
        (options : LintRatchetUpdateOptions N),
        Option.Rel ReorderedDecision (decideLintRatchetUpdate left generated ratchets options)
          (decideLintRatchetUpdate right generated ratchets options)) := by
  have hwf := hc.wellFormed ht
  have hwf' := hc'.wellFormed ht'
  have htest : ReorderedTest test test' := .of_canonical
    ((sameCanonicalGroup_tests versionPolicy w baselineFile hwf hwf').1 hsame) hwf hwf' hitems hitems'
  refine ⟨?_, fun ratchets currentById vocabulary => ?_, fun hfiles hignores generated ratchets
    options => ?_⟩
  · rw [validateMergedBaseline_nil, validateMergedBaseline_nil]
    exact ⟨hswap.mergedValid htest.ruleSourceHash hitems',
      hswap.symm.mergedValid htest.ruleSourceHash.symm hitems⟩
  · exact compareCurrentToBaseline_reordered (hswap.reordered htest) ratchets currentById vocabulary
  · exact decideLintRatchetUpdate_reordered (hswap.reordered htest)
      (hswap.sameGlobs hfiles hignores) generated ratchets options

end Lossless

/-- Two functions in the order that the formatter writes. -/
def sortedFunctions : ComplexityFunctions :=
  [{ line := 9, label := js "g", complexity := 5 }, { line := 1, label := js "f", complexity := 2 }]

theorem sameCanonicalGroup_lossless_functions :
    Option.Rel ReorderedDecision
      (decideLintRatchetUpdate (oneFile .complexitySeverity (complexityItem unsortedFunctions))
        (oneFile .complexitySeverity (complexityItem sortedFunctions))
        [oneFileRatchet .complexitySeverity] plainOptions)
      (decideLintRatchetUpdate (oneFile .complexitySeverity (complexityItem sortedFunctions))
        (oneFile .complexitySeverity (complexityItem sortedFunctions))
        [oneFileRatchet .complexitySeverity] plainOptions) := by
  have hone : OneItem .complexitySeverity (complexityItem unsortedFunctions) :=
    oneItem_complexity (by decide) (by decide)
  have hone' : OneItem .complexitySeverity (complexityItem sortedFunctions) :=
    oneItem_complexity (by decide) (by decide)
  have hlossless := sameCanonicalGroup_lossless (hone.accepted plainVocabulary)
    (hone'.accepted plainVocabulary) own_oneFile own_oneFile (hone.itemsValid _ _ own_oneFile)
    (hone'.itemsValid _ _ own_oneFile) defaultVersionPolicy defaultBaselineFilename
    (by decide +kernel) ⟨own_oneFile, own_oneFile, fun other hne => by
      rw [oneFile, own_oneBaseline, oneFile, own_oneBaseline, if_neg hne, if_neg hne]⟩
  exact hlossless.2.2 rfl rfl _ _ _

/-! ## Globs in another order -/

/-- A finding committed outside of the globs. -/
def strayItems : Entries LintRatchetMetricItem := [(js "src/c.ts", { count := 1 })]

def strayTest (files : List JsString) : LintRatchetBaselineTest Numeral :=
  oneTest .messageCount files strayItems

def strayBaseline (files : List JsString) : LintRatchetBaseline Numeral :=
  oneBaseline .messageCount files strayItems

def globsAB : List JsString := [js "a.ts", js "b.ts"]

def globsBA : List JsString := [js "b.ts", js "a.ts"]

theorem strayItems_items : OneItems Numeral .messageCount strayItems where
  nodup := by decide
  paths := by decide
  item := by
    simp only [strayItems, List.mem_singleton, forall_eq]
    exact ⟨itemWellFormed_numeral (by simp) (by simp) (by simp), Nat.one_pos⟩
  valid := by
    simp only [strayItems, List.mem_singleton, forall_eq]
    exact itemValid_messageCount.2 ⟨rfl, rfl, rfl⟩

/-- The formatter sorts the globs; the coverage check compares them as listed. -/
theorem sameCanonicalGroup_lossless_fails :
    Accepted plainVocabulary (strayBaseline globsAB) ∧
    Accepted plainVocabulary (strayBaseline globsBA) ∧
    sameCanonicalGroup (lintRatchetBaselineSpec defaultVersionPolicy plainVocabulary
      defaultBaselineFilename) (js "ratchet/one") (groupOfTest (strayTest globsAB))
        (groupOfTest (strayTest globsBA)) = true ∧
    (decideLintRatchetUpdate (strayBaseline globsAB) (oneBaseline .messageCount globsAB [])
      [oneRatchet Numeral .messageCount globsAB] plainOptions).map (·.allowed) = some true ∧
    (decideLintRatchetUpdate (strayBaseline globsBA) (oneBaseline .messageCount globsAB [])
      [oneRatchet Numeral .messageCount globsAB] plainOptions).map (·.allowed) = some false := by
  refine ⟨strayItems_items.accepted plainVocabulary, strayItems_items.accepted plainVocabulary, ?_,
    ?_, ?_⟩
  · decide +kernel
  · decide +kernel
  · decide +kernel

end Musi.LintRatchet
