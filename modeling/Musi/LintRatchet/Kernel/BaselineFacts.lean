import Musi.LintRatchet.Kernel.BaselineRoundTrip

namespace Musi.LintRatchet
open Musi.Js
set_option autoImplicit true

/-! ## Items of a metric -/

/-- The item passes the validation of its metric. -/
def ItemValid (metric : LintRatchetMetric) (item : LintRatchetMetricItem) : Prop :=
  ∀ path, validateMetricItem path metric item = []

@[simp] theorem failWhen_nil : failWhen bad message = [] ↔ bad = false := by
  cases bad <;> simp [failWhen]

/-- The verdict does not depend on the location that the failures name. -/
theorem validateMetricItem_nil (path : JsString) :
    validateMetricItem path metric item = [] ↔ ItemValid metric item := by
  refine ⟨fun h other => ?_, fun h => h path⟩
  cases metric <;>
    simp only [validateMetricItem, onlyForEffectiveLineCount, maxComplexityOnlyForComplexity,
      perFunctionOnlyForComplexity, onlyForMessageCount, List.append_eq_nil_iff,
      failWhen_nil] at h ⊢ <;>
    exact h

instance : Decidable (ItemValid metric item) :=
  decidable_of_iff (validateMetricItem [] metric item = []) (validateMetricItem_nil [])

theorem itemValid_messageCount : ItemValid .messageCount item ↔
    item.lines = none ∧ item.maxComplexity = none ∧ item.perFunction = none := by
  rw [← validateMetricItem_nil []]
  simp [validateMetricItem, onlyForEffectiveLineCount, maxComplexityOnlyForComplexity,
    perFunctionOnlyForComplexity]

theorem itemValid_effectiveLineCount : ItemValid .effectiveLineCount item ↔
    item.lines.isSome ∧ item.maxComplexity = none ∧ item.perFunction = none ∧
      item.messagesFingerprint = none := by
  rw [← validateMetricItem_nil []]
  simp [validateMetricItem, onlyForMessageCount, maxComplexityOnlyForComplexity,
    perFunctionOnlyForComplexity, Option.isSome_iff_ne_none]

/-- A complexity item with findings: one function a finding, and their largest complexity. -/
theorem ItemValid.complexity (h : ItemValid .complexitySeverity item) (hc : 0 < item.count) :
    ∃ fs m, item.perFunction = some fs ∧ item.maxComplexity = some m ∧
      maxComplexityFor (some fs) = some m ∧ fs.length = item.count ∧ item.lines = none ∧
        item.messagesFingerprint = none := by
  have h0 := h []
  simp only [validateMetricItem, List.append_eq_nil_iff, failWhen_nil, onlyForEffectiveLineCount,
    onlyForMessageCount] at h0
  obtain ⟨⟨⟨⟨⟨hm, hf⟩, hl⟩, hs⟩, hlen⟩, hmax⟩ := h0
  obtain ⟨m, hm'⟩ := Option.isSome_iff_exists.1 (Option.isNone_eq_false_iff.1 hm)
  obtain ⟨fs, hf'⟩ := Option.isSome_iff_exists.1 (Option.isNone_eq_false_iff.1 hf)
  rw [hf'] at hlen hmax
  have hlen' : fs.length = item.count := by simpa using hlen
  cases fs with
  | nil =>
    rw [List.length_nil] at hlen'
    omega
  | cons f fs =>
    refine ⟨f :: fs, m, hf', hm', ?_, hlen', by simpa using hl, by simpa using hs⟩
    simp only [maxComplexityFor, Option.any_some, decide_eq_false_iff_not, ne_eq, not_not] at hmax ⊢
    rw [← hmax, hm']

theorem ItemValid.lines_none (h : ItemValid metric item) (hm : metric ≠ .effectiveLineCount) :
    item.lines = none := by
  cases metric with
  | messageCount => exact (itemValid_messageCount.1 h).1
  | effectiveLineCount => exact absurd rfl hm
  | complexitySeverity =>
    have h0 := h []
    simp only [validateMetricItem, List.append_eq_nil_iff, failWhen_nil,
      onlyForEffectiveLineCount] at h0
    simpa using h0.1.1.1.2

theorem ItemValid.perFunction_none (h : ItemValid metric item)
    (hm : metric ≠ .complexitySeverity) : item.perFunction = none := by
  cases metric with
  | messageCount => exact (itemValid_messageCount.1 h).2.2
  | effectiveLineCount => exact (itemValid_effectiveLineCount.1 h).2.2.1
  | complexitySeverity => exact absurd rfl hm

/-! ## Accepted baselines -/

section Accepted
variable {N : Type} [JsNumber N] [Host]

/-- The baseline is what the structural parser makes of some text. -/
def Accepted (workflowVocabulary : LintRatchetWorkflowVocabulary) (baseline : LintRatchetBaseline N) :
    Prop := ∃ text, parseLintRatchetBaselineStructure text workflowVocabulary = .ok baseline

/-- Every item passes the validation of its test's metric. -/
def ItemsValid (baseline : LintRatchetBaseline N) : Prop :=
  ∀ testId test, baseline.tests.own testId = some test →
    ∀ path item, test.items.own path = some item → ItemValid test.metric item

/-- The tests are exactly the registry's, with its rule ids and metrics. -/
structure BuiltFrom (ratchets : List (LintRatchetConfig N)) (baseline : LintRatchetBaseline N) :
    Prop where
  ids : ∀ testId, testId ∈ baseline.tests.keys ↔ testId ∈ ratchets.map (·.id)
  agrees : ∀ ratchet ∈ ratchets, ∀ test, baseline.tests.own ratchet.id = some test →
    test.ruleId = ratchet.ruleId ∧ test.metric = ratchet.metric

theorem parse_structure_ok {text : JsString} {workflowVocabulary : LintRatchetWorkflowVocabulary}
    {versionPolicy : LintRatchetBaselineVersionPolicy} {baselineFile : JsString}
    {baseline : LintRatchetBaseline N}
    (h : parseLintRatchetBaselineStructure text workflowVocabulary versionPolicy baselineFile =
      .ok baseline) : ∃ value warnings, parseGroupedBaselineDocument
        (lintRatchetBaselineSpec versionPolicy workflowVocabulary baselineFile) text =
          .ok value warnings ∧ baseline = lintRatchetBaselineFromGrouped value := by
  unfold parseLintRatchetBaselineStructure at h
  split at h
  · cases h
  · next value warnings hv => exact ⟨value, warnings, hv, (Except.ok.inj h).symm⟩

omit [JsNumber N] [Host] in
theorem own_fromGrouped (value : RatchetGrouped N) (testId : JsString) :
    (lintRatchetBaselineFromGrouped value).tests.own testId =
      (value.groups.get testId).map baselineTestFromGroup := by
  have hn : (Entries.keys (value.groups.entries.map fun e =>
      (e.1, baselineTestFromGroup e.2))).Nodup := by
    rw [Entries.keys_map fun _ => baselineTestFromGroup]
    exact value.groups.nodup
  rw [lintRatchetBaselineFromGrouped, Record.own_fromEntries_of_nodup hn]
  exact Entries.lookup_map (fun _ => baselineTestFromGroup) _ _

omit [JsNumber N] [Host] in
theorem own_baselineTestFromGroup (group : RatchetGroup N) (path : JsString) :
    (baselineTestFromGroup group).items.own path =
      (group.items.get path).filter fun item => item.count > 0 := by
  have hn : (Entries.keys (group.items.entries.filter fun e => e.2.count > 0)).Nodup :=
    group.items.nodup.sublist (List.filter_sublist.map _)
  rw [baselineTestFromGroup, Record.own_fromEntries_of_nodup hn]
  exact Entries.lookup_filter group.items.nodup (fun e => e.2.count > 0) path

/-- Only paths with findings survive parsing. -/
theorem Accepted.count_pos {workflowVocabulary : LintRatchetWorkflowVocabulary}
    {baseline : LintRatchetBaseline N} (h : Accepted workflowVocabulary baseline)
    (ht : baseline.tests.own testId = some test) (hi : test.items.own path = some item) :
    0 < item.count := by
  obtain ⟨text, h⟩ := h
  obtain ⟨value, warnings, -, rfl⟩ := parse_structure_ok h
  rw [own_fromGrouped] at ht
  obtain ⟨group, -, rfl⟩ := Option.map_eq_some_iff.1 ht
  rw [own_baselineTestFromGroup, Option.filter_eq_some_iff] at hi
  simpa using hi.2

/-! ## What acceptance guarantees -/

section Parsing
variable {GroupMeta Item : Type} {spec : GroupedBaselineSpec N GroupMeta Item}

omit [JsNumber N] [Host] in
theorem Gathered.append_failures {T : Type} {a b : Gathered T} :
    (a.append b).failures = [] ↔ a.failures = [] ∧ b.failures = [] :=
  List.append_eq_nil_iff

omit [Host] [JsNumber N] in
theorem parseObjectItems_ok {groupId : JsString} {previous : Option JsString}
    {es : Entries (Json N)} (h : (parseObjectItems spec groupId previous es).failures = []) :
    ∀ v ∈ (parseObjectItems spec groupId previous es).values, ∃ raw warnings,
      (v.key, raw) ∈ es ∧ spec.parseItem groupId (some v.key) raw = .ok v warnings := by
  induction es generalizing previous with
  | nil => simp [parseObjectItems]
  | cons e es ih =>
    obtain ⟨itemKey, rawItem⟩ := e
    simp only [parseObjectItems, Gathered.append_failures] at h
    intro v hv
    simp only [parseObjectItems, Gathered.append, List.nil_append, List.mem_append] at hv
    rcases hv with hv | hv
    · have hitem := h.1.2
      unfold parseObjectItem at hv hitem
      cases hp : spec.parseItem groupId (some itemKey) rawItem with
      | failure error errors => simp [hp] at hv
      | ok value warnings =>
        simp only [hp] at hv hitem
        split at hv
        · simp at hv
        · next hkey =>
          obtain rfl := List.mem_singleton.1 hv
          rw [not_not] at hkey
          exact ⟨rawItem, warnings, by simp [hkey], by rw [hkey]; exact hp⟩
    · obtain ⟨raw, warnings, hmem, hp⟩ := ih h.2 v hv
      exact ⟨raw, warnings, List.mem_cons_of_mem _ hmem, hp⟩

/-- A group parsed without a failure, with what it was parsed from. -/
structure GroupParsed (spec : GroupedBaselineSpec N GroupMeta Item) (groupId : JsString)
    (rawGroup : Json N) (group : GroupedBaselineGroup GroupMeta Item) : Prop where
  parts : ∃ fields rawItems warnings, recordFields rawGroup = some fields ∧
    (List.lookup (js "items") fields).bind recordFields = some rawItems ∧
    (parseObjectItems spec groupId none rawItems).failures = [] ∧
    spec.parseGroupMeta groupId fields (parseObjectItems spec groupId none rawItems).values =
      .ok group.groupMeta warnings ∧
    group.items = keyedItemMap (parseObjectItems spec groupId none rawItems).values

omit [Host] [JsNumber N] in
theorem parseTestGroup_ok {groupId : JsString} {rawGroup : Json N}
    (h : (parseTestGroup spec groupId rawGroup).failures = []) :
    ∀ g ∈ (parseTestGroup spec groupId rawGroup).values,
      g.1 = groupId ∧ GroupParsed spec groupId rawGroup g.2 := by
  intro g hg
  unfold parseTestGroup at h hg
  cases hr : (recordFields rawGroup).bind fun fields =>
      ((List.lookup (js "items") fields).bind recordFields).map fun items => (fields, items) with
  | none =>
    rw [hr] at h
    cases h
  | some p =>
    obtain ⟨fields, hfields, hp⟩ := Option.bind_eq_some_iff.1 hr
    obtain ⟨rawItems, hitems, rfl⟩ := Option.map_eq_some_iff.1 hp
    simp only [hr] at h hg
    split at h
    · next error errors hm =>
      simp only [hm] at hg
      simp at hg
    · next groupMeta warnings hm =>
      simp only [hm, List.mem_singleton] at hg
      subst hg
      exact ⟨rfl, ⟨fields, rawItems, warnings, hfields, hitems, h, hm, rfl⟩⟩

omit [Host] [JsNumber N] in
theorem parseTestGroups_ok {previous : Option JsString} {es : Entries (Json N)}
    (h : (parseTestGroups spec previous es).failures = []) :
    ∀ g ∈ (parseTestGroups spec previous es).values, ∃ raw, GroupParsed spec g.1 raw g.2 := by
  induction es generalizing previous with
  | nil => simp [parseTestGroups]
  | cons e es ih =>
    obtain ⟨groupId, rawGroup⟩ := e
    simp only [parseTestGroups, Gathered.append_failures] at h
    intro g hg
    simp only [parseTestGroups, Gathered.append, List.nil_append, List.mem_append] at hg
    rcases hg with hg | hg
    · obtain ⟨rfl, hparsed⟩ := parseTestGroup_ok h.1.2 g hg
      exact ⟨rawGroup, hparsed⟩
    · exact ih h.2 g hg

/-- Every group of a parsed document of the tests family was parsed without a failure. -/
theorem parseGroupedBaselineDocument_groups {text : JsString} (hroot : spec.rootKey = .tests)
    {value : GroupedBaseline N GroupMeta Item} {warnings : List JsString}
    (h : parseGroupedBaselineDocument spec text = .ok value warnings)
    {groupId : JsString} {group : GroupedBaselineGroup GroupMeta Item}
    (hg : value.groups.get groupId = some group) : ∃ raw, GroupParsed spec groupId raw group := by
  unfold parseGroupedBaselineDocument at h
  split at h
  · cases h
  · split at h
    · cases h
    · next version envelope _ _ =>
      simp only [hroot] at h
      split at h
      · cases h
      · next groups more hgroups =>
        cases h
        unfold parseTestsFamily at hgroups
        split at hgroups
        · cases hgroups
        · next rawTests _ =>
          simp only at hgroups
          split at hgroups
          · next hnil =>
            cases hgroups
            exact parseTestGroups_ok hnil _ (JsMap.mem_of_get_ofList hg)
          · cases hgroups

end Parsing

omit [Host] in
theorem isJsonValue_canonical {v : Json N} (h : Canonical v) : isJsonValue v = true := by
  induction h with
  | null | bool | str => rfl
  | num h => exact h
  | arr h ih =>
    rw [isJsonValue, isJsonValueList_eq, List.all_eq_true]
    exact ih
  | obj _ _ h ih =>
    rw [isJsonValue, isJsonValueFields_eq, List.all_eq_true]
    exact ih

omit [Host] in
theorem parseRuleOptions_value {v : Option (Json N)} {values : List (Json N)}
    (h : (parseRuleOptions v).value = some values) :
    ∀ w ∈ values, isJsonValue w = true ∧ normalizeJsonValue w = w := by
  unfold parseRuleOptions at h
  split at h
  · split at h
    · next hall =>
      cases h
      intro w hw
      obtain ⟨u, hu, rfl⟩ := List.mem_map.1 hw
      exact ⟨isJsonValue_canonical (canonical_normalizeJsonValue u (List.all_eq_true.1 hall u hu)),
        normalizeJsonValue_idem u⟩
    · cases h
  · cases h

omit [Host] [JsNumber N] in
theorem sha256String_some {v : Json N} (h : sha256String v = some s) : isSha256Hash s = true := by
  unfold sha256String at h
  split at h
  · split at h
    · next hx => exact Option.some.inj h ▸ hx
    · cases h
  · cases h

/-- The metadata of an accepted group. -/
structure MetaWellFormed (m : LintRatchetBaselineGroupMeta N) : Prop where
  ruleId : isBaselineRuleId m.ruleId = true
  configHash : isSha256Hash m.configHash = true
  ruleSourceHash : m.ruleSourceHash = [] ∨ isSha256Hash m.ruleSourceHash = true
  ruleOptions : ∀ v ∈ m.ruleOptions, isJsonValue v = true ∧ normalizeJsonValue v = v

omit [Host] in
theorem parseGroupMetaParts_value {fields : Entries (Json N)} {m : LintRatchetBaselineGroupMeta N}
    (h : (parseGroupMetaParts fields).value = some m) : MetaWellFormed m := by
  simp only [parseGroupMetaParts] at h
  split at h
  · next ruleId mode metric configHash files ignores ruleOptions h1 h2 h3 h4 h5 h6 h7 =>
    cases h
    obtain ⟨v1, -, hv1⟩ := requiredField_value h1
    obtain ⟨v4, -, hv4⟩ := requiredField_value h4
    refine ⟨?_, sha256String_some hv4, ?_, parseRuleOptions_value h7⟩
    · unfold ruleIdString at hv1
      split at hv1
      · split at hv1
        · next hx => exact Option.some.inj hv1 ▸ hx
        · cases hv1
      · cases hv1
    · simp only [parseRuleSourceHash, Option.join_some]
      cases hs : (List.lookup (js "ruleSourceHash") fields).bind sha256String with
      | none => exact .inl rfl
      | some s =>
        obtain ⟨w, -, hw⟩ := Option.bind_eq_some_iff.1 hs
        exact .inr (sha256String_some hw)
  · cases h

omit [Host] in
theorem parseLintRatchetGroupMeta_ok {testId : JsString} {fields : Entries (Json N)}
    {m : LintRatchetBaselineGroupMeta N} {warnings : List JsString}
    (h : parseLintRatchetGroupMeta testId fields = .ok m warnings) :
    isRatchetId testId = true ∧ MetaWellFormed m := by
  unfold parseLintRatchetGroupMeta at h
  simp only at h
  split at h
  · next hnil hvalue =>
    cases h
    rw [List.append_eq_nil_iff, failWhen_nil, Bool.not_eq_false'] at hnil
    exact ⟨hnil.1, parseGroupMetaParts_value hvalue⟩
  · cases h
  · cases h

omit [Host] in
theorem parseItem_ok {testId path : JsString} {raw : Json N}
    {value : KeyedGroupedItem LintRatchetMetricItem} {warnings : List JsString}
    (h : parseItem testId (some path) raw = .ok value warnings) :
    isNormalizedPath path = true ∧ ItemWellFormed N value.item := by
  unfold parseItem at h
  simp only at h
  split at h
  · next hvalue _ =>
    cases h
    exact parseLintRatchetBaselineItem_wellFormed hvalue
  · cases h
  · cases h

omit [JsNumber N] [Host] in
theorem recordFields_ne_proto {v : Json N} {fields : Entries (Json N)}
    (h : recordFields v = some fields) : ∀ e ∈ fields, e.1 ≠ js "__proto__" := by
  obtain ⟨es, -, rfl⟩ := Option.map_eq_some_iff.1 h
  intro e he
  simpa using (List.mem_filter.1 he).2

/-- Every test of a parsed baseline is well formed. -/
theorem parse_structure_wellFormed {text : JsString}
    {workflowVocabulary : LintRatchetWorkflowVocabulary}
    {versionPolicy : LintRatchetBaselineVersionPolicy} {baselineFile : JsString}
    {baseline : LintRatchetBaseline N}
    (h : parseLintRatchetBaselineStructure text workflowVocabulary versionPolicy baselineFile =
      .ok baseline) (ht : baseline.tests.own testId = some test) : TestWellFormed testId test := by
  obtain ⟨value, warnings, hparse, rfl⟩ := parse_structure_ok h
  rw [own_fromGrouped] at ht
  obtain ⟨group, hgroup, rfl⟩ := Option.map_eq_some_iff.1 ht
  obtain ⟨raw, fields, rawItems, warnings', hfields, hitems, hnil, hmeta, hkeyed⟩ :=
    parseGroupedBaselineDocument_groups rfl hparse hgroup
  obtain ⟨hid, hm⟩ := parseLintRatchetGroupMeta_ok hmeta
  have hitem {path item} (hi : (baselineTestFromGroup group).items.own path = some item) :
      isNormalizedPath path = true ∧ path ≠ js "__proto__" ∧ ItemWellFormed N item ∧
        0 < item.count := by
    rw [own_baselineTestFromGroup, Option.filter_eq_some_iff, hkeyed] at hi
    obtain ⟨keyed, hmem, he⟩ := List.mem_map.1 (JsMap.mem_of_get_ofList hi.1)
    obtain ⟨rfl, rfl⟩ := Prod.mk.inj he
    obtain ⟨raw', w, hraw, hp⟩ := parseObjectItems_ok hnil keyed hmem
    obtain ⟨hnorm, hwf⟩ := parseItem_ok hp
    obtain ⟨items, -, hrecord⟩ := Option.bind_eq_some_iff.1 hitems
    exact ⟨hnorm, recordFields_ne_proto hrecord _ hraw, hwf, by simpa using hi.2⟩
  exact ⟨hid, hm.ruleId, hm.configHash, hm.ruleSourceHash, hm.ruleOptions,
    fun path item hi => ⟨(hitem hi).1, (hitem hi).2.1⟩, fun path item hi => (hitem hi).2.2⟩

theorem Accepted.wellFormed {workflowVocabulary : LintRatchetWorkflowVocabulary}
    {baseline : LintRatchetBaseline N} (h : Accepted workflowVocabulary baseline)
    (ht : baseline.tests.own testId = some test) : TestWellFormed testId test :=
  h.elim fun _ h => parse_structure_wellFormed h ht

end Accepted

end Musi.LintRatchet
