import Musi.LintRatchet.Kernel.Baseline
import Musi.LintRatchet.Kernel.ItemCodec

namespace Musi.LintRatchet
open Musi.Js
set_option autoImplicit true

variable {N : Type} [JsNumber N]

/-! ## Well-formed baselines -/

/-- What the structural parser guarantees of a test. -/
structure TestWellFormed (testId : JsString) (test : LintRatchetBaselineTest N) : Prop where
  id : isRatchetId testId = true
  ruleId : isBaselineRuleId test.ruleId = true
  configHash : isSha256Hash test.configHash = true
  ruleSourceHash : test.ruleSourceHash = [] ∨ isSha256Hash test.ruleSourceHash = true
  ruleOptions : ∀ v ∈ test.ruleOptions, isJsonValue v = true ∧ normalizeJsonValue v = v
  paths : ∀ path item, test.items.own path = some item →
    isNormalizedPath path = true ∧ path ≠ js "__proto__"
  items : ∀ path item, test.items.own path = some item → ItemWellFormed N item ∧ 0 < item.count

/-- A baseline that is written and read back as it is. -/
structure BaselineWellFormed (baseline : LintRatchetBaseline N) : Prop where
  version : baseline.version ∈ [legacyVersion, annotatedVersion]
  regenerate : ∀ r ∈ baseline.regenerate, Canonical r
  tests : ∀ testId test, baseline.tests.own testId = some test →
    TestWellFormed testId test ∧ test.ruleSourceHash ≠ []

/-! ## The document of a baseline -/

def itemsJson (items : Record LintRatchetMetricItem) : Json N :=
  .obj (items.entries.map fun e => (e.1, itemJson e.2))

def testFields (test : LintRatchetBaselineTest N) : Entries (Json N) :=
  metaFields test.toLintRatchetBaselineGroupMeta ++ [(js "items", itemsJson test.items)]

def baselineFields (baseline : LintRatchetBaseline N) : Entries (Json N) :=
  [(js "version", .num (JsNumber.ofInt baseline.version))] ++ regenerateField baseline.regenerate ++
    [(js "tests", .obj (baseline.tests.entries.map fun e => (e.1, .obj (testFields e.2))))]

def baselineText (baseline : LintRatchetBaseline N) : JsString :=
  stringifyIndented (.obj (baselineFields baseline)) ++ [0x0A]

/-! ## Reading a document back -/

omit [JsNumber N] in
@[simp] theorem stringValues_map (values : List JsString) :
    stringValues (values.map Json.str : List (Json N)) = some values := by
  induction values with
  | nil => rfl
  | cons s values ih => rw [List.map_cons, stringValues, ih, Option.map_some]

theorem parseRuleOptions_arr {values : List (Json N)}
    (h : ∀ v ∈ values, isJsonValue v = true ∧ normalizeJsonValue v = v) :
    parseRuleOptions (some (.arr values)) = .ok values := by
  have hall : values.all isJsonValue = true := List.all_eq_true.2 fun v hv => (h v hv).1
  have hmap : values.map normalizeJsonValue = values :=
    (List.map_congr_left fun v hv => (h v hv).2).trans (List.map_id _)
  rw [parseRuleOptions, if_pos hall, hmap]

@[simp] theorem metricValue_text (metric : LintRatchetMetric) :
    metricValue (.str metric.text : Json N) = some metric := by
  cases metric <;> simp +decide [metricValue, LintRatchetMetric.text]

@[simp] theorem modeValue_text (mode : LintRatchetMode) :
    modeValue (.str mode.text : Json N) = some mode := by
  cases mode
  simp [modeValue]

theorem parseGroupMetaParts_fields {testId : JsString} {test : LintRatchetBaselineTest N}
    (h : TestWellFormed testId test) (hs : test.ruleSourceHash ≠ []) (rest : Entries (Json N)) :
    parseGroupMetaParts (metaFields test.toLintRatchetBaselineGroupMeta ++ rest) =
      .ok test.toLintRatchetBaselineGroupMeta := by
  have hsource : isSha256Hash test.ruleSourceHash = true := h.ruleSourceHash.resolve_left hs
  set fields := metaFields test.toLintRatchetBaselineGroupMeta ++ rest with hfields
  have h1 : List.lookup (js "ruleId") fields = some (.str test.ruleId) := rfl
  have h2 : List.lookup (js "mode") fields = some (.str test.mode.text) := rfl
  have h3 : List.lookup (js "metric") fields = some (.str test.metric.text) := rfl
  have h4 : List.lookup (js "files") fields = some (stringsJson test.files) := rfl
  have h5 : List.lookup (js "ignores") fields = some (stringsJson test.ignores) := rfl
  have h6 : List.lookup (js "ruleOptions") fields = some (.arr test.ruleOptions) := rfl
  have h7 : List.lookup (js "configHash") fields = some (.str test.configHash) := rfl
  have h8 : List.lookup (js "ruleSourceHash") fields = some (.str test.ruleSourceHash) := rfl
  simp [parseGroupMetaParts, h1, h2, h3, h4, h5, h6, h7, h8, requiredField, ruleIdString, h.ruleId,
    sha256String, h.configHash, hsource, parseRuleSourceHash, parseStringArray, stringsJson,
    parseRuleOptions_arr h.ruleOptions, failWhen, Parsed.ok]

section Spec
variable [Host] (versionPolicy : LintRatchetBaselineVersionPolicy)
  (workflowVocabulary : LintRatchetWorkflowVocabulary) (baselineFile : JsString)

omit [Host] in
theorem parseItem_json (testId : JsString) (hp : isNormalizedPath path = true)
    (h : ItemWellFormed N item) :
    parseItem testId (some path) (itemJson item : Json N) = .ok { key := path, item } [] := by
  rw [parseItem]
  simp only [parseLintRatchetBaselineItem_json hp h, Parsed.ok]

theorem parseObjectItems_json (testId : JsString) (previous : Option JsString)
    {es : Entries LintRatchetMetricItem}
    (h : ∀ e ∈ es, isNormalizedPath e.1 = true ∧ ItemWellFormed N e.2) :
    parseObjectItems (lintRatchetBaselineSpec (N := N) versionPolicy workflowVocabulary baselineFile)
      testId previous (es.map fun e => (e.1, itemJson e.2)) =
        { values := es.map fun e => ⟨e.1, e.2⟩ } := by
  induction es generalizing previous with
  | nil => rfl
  | cons e es ih =>
    rw [List.forall_mem_cons] at h
    have hitem : (lintRatchetBaselineSpec (N := N) versionPolicy workflowVocabulary
        baselineFile).parseItem testId (some e.1) (itemJson e.2) = .ok ⟨e.1, e.2⟩ [] :=
      parseItem_json testId h.1.1 h.1.2
    have hunsorted : unsortedFailure (lintRatchetBaselineSpec (N := N) versionPolicy
        workflowVocabulary baselineFile).requireSortedKeysOnParse (lintRatchetBaselineSpec (N := N)
        versionPolicy workflowVocabulary baselineFile).compareItemKeys (testId ++ js ".items")
        previous e.1 = [] := by
      cases previous <;> rfl
    rw [List.map_cons, parseObjectItems, ih _ h.2, parseObjectItem, hitem, hunsorted]
    simp [Gathered.append]

omit [JsNumber N] [Host] in
/-- A record of items has no name that parsing an object leaves out. -/
theorem recordFields_obj {es : Entries (Json N)} (h : ∀ e ∈ es, e.1 ≠ js "__proto__") :
    recordFields (.obj es) = some es := by
  rw [recordFields, Json.asRecord, Option.map_some, Option.some.injEq]
  exact List.filter_eq_self.2 fun e he => by simpa using h e he

omit [Host] in
theorem lookup_items (test : LintRatchetBaselineTest N) :
    List.lookup (js "items") (testFields test) = some (itemsJson test.items) := rfl

omit [Host] in
theorem testFields_ne_proto (test : LintRatchetBaselineTest N) :
    ∀ e ∈ testFields test, e.1 ≠ js "__proto__" := by
  have h : ∀ k ∈ [js "ruleId", js "mode", js "metric", js "files", js "ignores", js "ruleOptions",
      js "configHash", js "ruleSourceHash", js "items"], k ≠ js "__proto__" := by decide
  intro e he
  exact h e.1 (List.mem_map_of_mem (f := Prod.fst) he)

/-- The group of a test. -/
def testGroup (test : LintRatchetBaselineTest N) : RatchetGroup N :=
  { groupMeta := test.toLintRatchetBaselineGroupMeta
    items := JsMap.ofList test.items.entries }

theorem parseTestGroup_fields {test : LintRatchetBaselineTest N} (h : TestWellFormed testId test)
    (hs : test.ruleSourceHash ≠ []) :
    parseTestGroup (lintRatchetBaselineSpec versionPolicy workflowVocabulary baselineFile) testId
      (.obj (testFields test)) = { values := [(testId, testGroup test)] } := by
  have hpaths (e) (he : e ∈ test.items.entries) := h.paths e.1 e.2 (Record.mem_entries.1 he)
  have hitems : recordFields (itemsJson test.items : Json N) =
      some (test.items.entries.map fun e => (e.1, itemJson e.2)) := by
    refine recordFields_obj fun e he => ?_
    obtain ⟨f, hf, rfl⟩ := List.mem_map.1 he
    exact (hpaths f hf).2
  have hparsed := parseObjectItems_json (N := N) versionPolicy workflowVocabulary baselineFile testId
    none fun e he => ⟨(hpaths e he).1, (h.items e.1 e.2 (Record.mem_entries.1 he)).1⟩
  have hmeta (items : List (KeyedGroupedItem LintRatchetMetricItem)) :
      (lintRatchetBaselineSpec (N := N) versionPolicy workflowVocabulary baselineFile).parseGroupMeta
        testId (testFields test) items = .ok test.toLintRatchetBaselineGroupMeta [] := by
    simp only [lintRatchetBaselineSpec, parseLintRatchetGroupMeta, testFields,
      parseGroupMetaParts_fields h hs, h.id, Parsed.ok]
    rfl
  rw [parseTestGroup, recordFields_obj (testFields_ne_proto test)]
  simp only [Option.bind_some, lookup_items, hitems, Option.map_some, hparsed, hmeta]
  simp [keyedItemMap, testGroup, List.map_map, Function.comp_def]

theorem parseTestGroups_fields (previous : Option JsString)
    {es : Entries (LintRatchetBaselineTest N)}
    (h : ∀ e ∈ es, TestWellFormed e.1 e.2 ∧ e.2.ruleSourceHash ≠ []) :
    parseTestGroups (lintRatchetBaselineSpec versionPolicy workflowVocabulary baselineFile) previous
      (es.map fun e => (e.1, .obj (testFields e.2))) =
        { values := es.map fun e => (e.1, testGroup e.2) } := by
  induction es generalizing previous with
  | nil => rfl
  | cons e es ih =>
    rw [List.forall_mem_cons] at h
    have hunsorted : unsortedFailure (lintRatchetBaselineSpec (N := N) versionPolicy
        workflowVocabulary baselineFile).requireSortedKeysOnParse (lintRatchetBaselineSpec (N := N)
        versionPolicy workflowVocabulary baselineFile).compareGroupKeys (js "baseline tests")
        previous e.1 = [] := by
      cases previous <;> rfl
    rw [List.map_cons, parseTestGroups, ih _ h.2,
      parseTestGroup_fields versionPolicy workflowVocabulary baselineFile h.1.1 h.1.2, hunsorted]
    simp [Gathered.append]

omit [Host] in
theorem lookup_tests (baseline : LintRatchetBaseline N) :
    List.lookup (js "tests") (baselineFields baseline) =
      some (.obj (baseline.tests.entries.map fun e => (e.1, .obj (testFields e.2)))) := by
  rw [baselineFields]
  cases baseline.regenerate <;> rfl

omit [Host] in
theorem lookup_version (baseline : LintRatchetBaseline N) :
    List.lookup (js "version") (baselineFields baseline) =
      some (.num (JsNumber.ofInt baseline.version)) := rfl

omit [Host] in
theorem lookup_regenerate (baseline : LintRatchetBaseline N) :
    List.lookup (js "regenerate") (baselineFields baseline) = baseline.regenerate := by
  rw [baselineFields]
  cases baseline.regenerate <;> rfl

omit [Host] in
theorem baselineFields_sublist (baseline : LintRatchetBaseline N) :
    (Entries.keys (baselineFields baseline)).Sublist
      [js "version", js "regenerate", js "tests"] := by
  rw [baselineFields]
  cases baseline.regenerate with
  | none => exact ((List.Sublist.refl [js "tests"]).cons (js "regenerate")).cons_cons (js "version")
  | some r => exact List.Sublist.refl _

omit [Host] in
theorem safeInteger_version {version : Nat} (h : version ∈ [legacyVersion, annotatedVersion]) :
    safeInteger (.num (JsNumber.ofInt version) : Json N) = some (version : Int) := by
  have hle : version ≤ 2 := by
    simp only [legacyVersion, annotatedVersion, List.mem_cons, List.not_mem_nil, or_false] at h
    omega
  rw [safeInteger, JsNumber.toInt_ofInt (by omega)]
  simp only [Option.filter_some, Int.natAbs_natCast, decide_eq_true_eq, ite_eq_left_iff]
  omega

theorem checkedEnvelope_fields {baseline : LintRatchetBaseline N} (h : BaselineWellFormed baseline)
    (hv : baseline.version ∈ versionPolicy.acceptedVersions) :
    checkedEnvelope (lintRatchetBaselineSpec versionPolicy workflowVocabulary baselineFile)
      (.obj (baselineFields baseline)) = .ok (baseline.version, baselineFields baseline) [] := by
  have hrecord : recordFields (.obj (baselineFields baseline)) = some (baselineFields baseline) := by
    have hnames : ∀ k ∈ [js "version", js "regenerate", js "tests"], k ≠ js "__proto__" := by decide
    exact recordFields_obj fun e he =>
      hnames e.1 ((baselineFields_sublist baseline).subset (List.mem_map_of_mem (f := Prod.fst) he))
  have hversion : envelopeVersion .tests (baselineFields baseline) = some (baseline.version : Int) := by
    simp only [envelopeVersion, RootKey.text, lookup_tests, lookup_version, if_true,
      Option.bind_some, safeInteger_version h.version]
  have haccepted : (versionPolicy.acceptedVersions.any fun accepted =>
      (accepted : Int) = baseline.version) = true :=
    List.any_eq_true.2 ⟨_, hv, by simp⟩
  rw [checkedEnvelope, hrecord]
  simp only [lintRatchetBaselineSpec, RootKey.text, lookup_tests, Option.isSome_some, Bool.not_true,
    Bool.false_and, Bool.false_eq_true, if_false, hversion, haccepted, if_true, Int.toNat_natCast]

theorem parseTestsFamily_fields {baseline : LintRatchetBaseline N} (h : BaselineWellFormed baseline) :
    parseTestsFamily (lintRatchetBaselineSpec versionPolicy workflowVocabulary baselineFile)
      (baselineFields baseline) =
        .ok (JsMap.ofList (baseline.tests.entries.map fun e => (e.1, testGroup e.2))) [] := by
  have htests (e) (he : e ∈ baseline.tests.entries) := h.tests e.1 e.2 (Record.mem_entries.1 he)
  have hrecord : recordFields (.obj (baseline.tests.entries.map fun e =>
      (e.1, .obj (testFields e.2))) : Json N) =
        some (baseline.tests.entries.map fun e => (e.1, .obj (testFields e.2))) := by
    refine recordFields_obj fun e he => ?_
    obtain ⟨f, hf, rfl⟩ := List.mem_map.1 he
    intro hproto
    have := (htests f hf).1.id
    rw [show f.1 = js "__proto__" from hproto] at this
    revert this
    decide
  rw [parseTestsFamily, lookup_tests, Option.bind_some, hrecord]
  simp only [parseTestGroups_fields versionPolicy workflowVocabulary baselineFile none htests]

omit [JsNumber N] [Host] in
/-- A test is the test of its group. -/
theorem baselineTestFromGroup_testGroup {test : LintRatchetBaselineTest N}
    (h : ∀ path item, test.items.own path = some item → 0 < item.count) :
    baselineTestFromGroup (testGroup test) = test := by
  have hfilter : test.items.entries.filter (fun e => e.2.count > 0) = test.items.entries :=
    List.filter_eq_self.2 fun e he => by simpa using h e.1 e.2 (Record.mem_entries.1 he)
  rw [baselineTestFromGroup, testGroup, JsMap.ofList_entries test.items.nodup, hfilter,
    Record.fromEntries_self]

omit [Host] in
theorem canonical_testFields {test : LintRatchetBaselineTest N} (h : TestWellFormed testId test) :
    Canonical (.obj (testFields test)) := by
  have hstrings (values : List JsString) : Canonical (stringsJson values : Json N) := by
    refine .arr fun v hv => ?_
    obtain ⟨s, -, rfl⟩ := List.mem_map.1 hv
    exact .str s
  have hitems : Canonical (itemsJson test.items : Json N) := by
    refine .obj ?_ ?_ fun e he => ?_
    · rw [Entries.keys_map fun _ => itemJson]
      exact test.items.nodup
    · rw [ownKeyOrder_map fun _ => itemJson, test.items.ordered]
    · obtain ⟨f, hf, rfl⟩ := List.mem_map.1 he
      exact canonical_itemJson (h.items f.1 f.2 (Record.mem_entries.1 hf)).1
  have hoptions : Canonical (.arr test.ruleOptions) := by
    refine .arr fun v hv => ?_
    rw [← (h.ruleOptions v hv).2]
    exact canonical_normalizeJsonValue v (h.ruleOptions v hv).1
  refine canonical_obj [js "ruleId", js "mode", js "metric", js "files", js "ignores",
    js "ruleOptions", js "configHash", js "ruleSourceHash", js "items"] (List.Sublist.refl _)
    (by decide) (by decide) ?_
  simp only [testFields, metaFields, List.cons_append, List.nil_append, List.forall_mem_cons]
  exact ⟨.str _, .str _, .str _, hstrings _, hstrings _, hoptions, .str _, .str _, hitems, by simp⟩

omit [Host] in
theorem canonical_baselineFields {baseline : LintRatchetBaseline N}
    (h : BaselineWellFormed baseline) : Canonical (.obj (baselineFields baseline)) := by
  refine canonical_obj _ (baselineFields_sublist baseline) (by decide) (by decide) fun e he => ?_
  simp only [baselineFields, regenerateField, List.mem_append, List.mem_singleton, List.mem_map,
    Option.mem_toList] at he
  rcases he with (rfl | ⟨r, hr, rfl⟩) | rfl
  · exact .num (JsNumber.finite_of_toInt (JsNumber.toInt_ofInt (by
      have := h.version
      simp only [legacyVersion, annotatedVersion, List.mem_cons, List.not_mem_nil, or_false] at this
      omega)))
  · exact h.regenerate r hr
  · refine .obj ?_ ?_ fun e he => ?_
    · rw [Entries.keys_map fun _ (t : LintRatchetBaselineTest N) => Json.obj (testFields t)]
      exact baseline.tests.nodup
    · rw [ownKeyOrder_map fun _ (t : LintRatchetBaselineTest N) => Json.obj (testFields t),
        baseline.tests.ordered]
    · obtain ⟨f, hf, rfl⟩ := List.mem_map.1 he
      exact canonical_testFields (h.tests f.1 f.2 (Record.mem_entries.1 hf)).1

/-- The structural parser reads a well-formed baseline back from its text. -/
theorem parseLintRatchetBaselineStructure_text {baseline : LintRatchetBaseline N}
    (h : BaselineWellFormed baseline) (hv : baseline.version ∈ versionPolicy.acceptedVersions) :
    parseLintRatchetBaselineStructure (baselineText baseline) workflowVocabulary versionPolicy
      baselineFile = .ok baseline := by
  have hjson : parseJson (baselineText baseline) = some (.obj (baselineFields baseline)) :=
    parseJson_render (by decide) (canonical_baselineFields h) (by decide)
  have hdocument : parseGroupedBaselineDocument
      (lintRatchetBaselineSpec versionPolicy workflowVocabulary baselineFile)
      (baselineText baseline) = .ok
        { version := baseline.version, regenerate := baseline.regenerate
          groups := JsMap.ofList (baseline.tests.entries.map fun e => (e.1, testGroup e.2)) }
        (collectRegenerateWarning (lintRatchetBaselineSpec versionPolicy workflowVocabulary
          baselineFile) (baselineFields baseline) ++ []) := by
    have henvelope := checkedEnvelope_fields versionPolicy workflowVocabulary baselineFile h hv
    have htests := parseTestsFamily_fields versionPolicy workflowVocabulary baselineFile h
    rw [parseGroupedBaselineDocument, parseJsonText, hjson]
    simp only [henvelope]
    simp only [show (lintRatchetBaselineSpec (N := N) versionPolicy workflowVocabulary
      baselineFile).rootKey = .tests from rfl, htests, lookup_regenerate]
  have htests : Record.fromEntries ((JsMap.ofList (baseline.tests.entries.map fun e =>
      (e.1, testGroup e.2))).entries.map fun e => (e.1, baselineTestFromGroup e.2)) =
        baseline.tests := by
    rw [JsMap.ofList_entries (by
      rw [Entries.keys_map fun _ => testGroup]
      exact baseline.tests.nodup), List.map_map]
    refine Eq.trans (congrArg Record.fromEntries ?_) (Record.fromEntries_self baseline.tests)
    refine (List.map_congr_left fun e he => ?_).trans (List.map_id _)
    have hpos (path item) (hi : e.2.items.own path = some item) : 0 < item.count :=
      ((h.tests e.1 e.2 (Record.mem_entries.1 he)).1.items path item hi).2
    simp [baselineTestFromGroup_testGroup hpos]
  rw [parseLintRatchetBaselineStructure, hdocument]
  simp only [lintRatchetBaselineFromGrouped, htests]

end Spec

/-! ## The canonical form that the formatter writes -/

section Format
variable [Host]

/-- A new object from entries in code point order, with every value rewritten. -/
def sortedRecord {α β : Type} (f : α → β) (es : Entries α) : Record β :=
  Record.fromEntries ((sortBy (fun a b => compareByCodepoint a.1 b.1) es).map fun e => (e.1, f e.2))

/-- The formatted items of a test: those with findings, in path order. -/
def canonicalItems (metric : LintRatchetMetric) (items : Record LintRatchetMetricItem) :
    Record LintRatchetMetricItem :=
  sortedRecord (formatItem metric) (items.entries.filter fun e => e.2.count > 0)

def canonicalTest (test : LintRatchetBaselineTest N) : LintRatchetBaselineTest N :=
  { normalizedMeta test.toLintRatchetBaselineGroupMeta with
    items := canonicalItems test.metric test.items }

def canonicalBaseline (baseline : LintRatchetBaseline N) : LintRatchetBaseline N :=
  { baseline with tests := sortedRecord canonicalTest baseline.tests.entries }

section SortedRecord
variable {α β γ : Type} {es : Entries α}

omit [Host] in
theorem nodup_keys_sortBy (cmp : JsString × α → JsString × α → Int)
    (h : (Entries.keys es).Nodup) : (Entries.keys (sortBy cmp es)).Nodup :=
  ((sortBy_perm cmp es).map Prod.fst).nodup_iff.2 h

omit [Host] in
theorem nodup_keys_mapValues (h : (Entries.keys es).Nodup) (f : α → β) :
    (Entries.keys (es.map fun e => (e.1, f e.2))).Nodup := by
  rw [Entries.keys_map fun _ => f]
  exact h

omit [Host] in
theorem sortedRecord_entries (hn : (Entries.keys es).Nodup) (f : α → β) :
    (sortedRecord f es).entries = ownKeyOrder
      ((sortBy (fun a b => compareByCodepoint a.1 b.1) es).map fun e => (e.1, f e.2)) :=
  Record.fromEntries_entries (nodup_keys_mapValues (nodup_keys_sortBy _ hn) f)

omit [Host] in
/-- Rewriting the values afterwards. -/
theorem sortedRecord_map (hn : (Entries.keys es).Nodup) (f : α → β) (g : β → γ) :
    (sortedRecord (fun v => g (f v)) es).entries =
      (sortedRecord f es).entries.map fun e => (e.1, g e.2) := by
  rw [sortedRecord_entries hn, sortedRecord_entries hn, ← ownKeyOrder_map fun _ => g, List.map_map]
  rfl

omit [Host] in
theorem own_sortedRecord (hn : (Entries.keys es).Nodup) (f : α → β) (k : JsString) :
    (sortedRecord f es).own k = (es.lookup k).map f := by
  rw [sortedRecord, Record.own_fromEntries_of_nodup (nodup_keys_mapValues (nodup_keys_sortBy _ hn) f),
    Entries.lookup_map fun _ => f, Entries.lookup_perm (nodup_keys_sortBy _ hn) (sortBy_perm _ es)]

omit [Host] in
/-- Entries with distinct keys have one order by key. -/
theorem sortBy_keys_perm {fs : Entries α} (hn : (Entries.keys es).Nodup) (hp : es.Perm fs) :
    sortBy (fun a b => compareByCodepoint a.1 b.1) es =
      sortBy (fun a b => compareByCodepoint a.1 b.1) fs := by
  have hsorted (l : Entries α) := sortBy_sorted
    (compareByCodepoint_strict.toConsistentComparator.comap (Prod.fst : JsString × α → JsString)) l
  refine eq_of_perm_sorted (hsorted es) (hsorted fs)
    ((sortBy_perm _ es).trans (hp.trans (sortBy_perm _ fs).symm)) fun a ha b hb hab hba => ?_
  have hk : a.1 = b.1 := compareByCodepoint_strict.antisymm hab hba
  have hla := (Entries.mem_iff_lookup hn).1 (show (a.1, a.2) ∈ es from mem_sortBy.1 ha)
  have hlb := (Entries.mem_iff_lookup hn).1 (show (b.1, b.2) ∈ es from
    hp.mem_iff.2 (mem_sortBy.1 hb))
  rw [hk, hlb] at hla
  exact Prod.ext hk (Option.some.inj hla).symm

omit [Host] in
/-- A sorted object depends on what each key is rewritten to. -/
theorem sortedRecord_congr {fs : Entries β} {f : α → γ} {g : β → γ} (he : (Entries.keys es).Nodup)
    (hf : (Entries.keys fs).Nodup) (h : ∀ k, (es.lookup k).map f = (fs.lookup k).map g) :
    sortedRecord f es = sortedRecord g fs := by
  have hpair {δ : Type} {ds : Entries δ} {d : δ → γ} (hd : (Entries.keys ds).Nodup) :
      (ds.map fun e => (e.1, d e.2)).Nodup := List.Nodup.of_map Prod.fst (nodup_keys_mapValues hd d)
  have hperm : (es.map fun e => (e.1, f e.2)).Perm (fs.map fun e => (e.1, g e.2)) := by
    refine (List.perm_ext_iff_of_nodup (hpair he) (hpair hf)).2 fun ⟨k, v⟩ => ?_
    rw [Entries.mem_iff_lookup (nodup_keys_mapValues he f),
      Entries.mem_iff_lookup (nodup_keys_mapValues hf g), Entries.lookup_map fun _ => f,
      Entries.lookup_map fun _ => g, h k]
  have hsort := sortBy_keys_perm (nodup_keys_mapValues he f) hperm
  have hleft := sortBy_map (fun e : JsString × α => (e.1, f e.2))
    (fun a b => compareByCodepoint a.1 b.1) es
  have hright := sortBy_map (fun e : JsString × β => (e.1, g e.2))
    (fun a b => compareByCodepoint a.1 b.1) fs
  rw [sortedRecord, sortedRecord, ← hleft, ← hright, hsort]

omit [Host] in
/-- Sorting a sorted object again changes nothing. -/
theorem sortedRecord_idem (hn : (Entries.keys es).Nodup) {f : α → β} {g : β → β}
    (h : ∀ e ∈ es, g (f e.2) = f e.2) :
    sortedRecord g (sortedRecord f es).entries = sortedRecord f es := by
  set sorted := (sortBy (fun a b => compareByCodepoint a.1 b.1) es).map fun e => (e.1, f e.2)
    with hsorted
  have hns : (Entries.keys sorted).Nodup := nodup_keys_mapValues (nodup_keys_sortBy _ hn) f
  have hsort : sortBy (fun a b => compareByCodepoint a.1 b.1) (sortedRecord f es).entries =
      sorted := by
    rw [sortedRecord_entries hn, ← hsorted,
      sortBy_keys_perm (nodup_ownKeyOrder hns) (ownKeyOrder_perm sorted)]
    refine sortBy_of_sorted (List.pairwise_map.2 ?_)
    exact sortBy_sorted (compareByCodepoint_strict.toConsistentComparator.comap Prod.fst) es
  rw [sortedRecord, hsort]
  refine congrArg Record.fromEntries ((List.map_congr_left fun e he => ?_).trans (List.map_id _))
  obtain ⟨e', he', rfl⟩ := List.mem_map.1 he
  simp [h e' (mem_sortBy.1 he')]

end SortedRecord

/-- A formatted group is the document of the canonical test. -/
theorem formattedGroupedTest_eq (versionPolicy : LintRatchetBaselineVersionPolicy)
    (workflowVocabulary : LintRatchetWorkflowVocabulary) (baselineFile testId : JsString)
    (test : LintRatchetBaselineTest N) :
    formattedGroupedTest (lintRatchetBaselineSpec versionPolicy workflowVocabulary baselineFile)
      testId (groupOfTest test) = .obj (testFields (canonicalTest test)) := by
  have hn : (Entries.keys (test.items.entries.filter fun e => e.2.count > 0)).Nodup :=
    test.items.nodup.sublist (List.filter_sublist.map _)
  have hitems := sortedRecord_map hn (formatItem test.metric) (itemJson (N := N))
  rw [formattedGroupedTest, sortedGroupedItems, groupOfTest, positiveItemMap,
    JsMap.ofList_entries hn]
  simp only [List.map_map]
  exact congrArg (fun v => Json.obj (metaFields (normalizedMeta
    test.toLintRatchetBaselineGroupMeta) ++ [(js "items", Json.obj v)])) hitems

/-- What the formatter writes is the text of the canonical baseline. -/
theorem formatLintRatchetBaseline_eq (baseline : LintRatchetBaseline N)
    (workflowVocabulary : LintRatchetWorkflowVocabulary) :
    formatLintRatchetBaseline baseline workflowVocabulary =
      baselineText (canonicalBaseline baseline) := by
  have hmap := sortBy_map (fun e : JsString × LintRatchetBaselineTest N => (e.1, groupOfTest e.2))
    (fun a b => compareByCodepoint a.1 b.1) baseline.tests.entries
  have htests : (Record.fromEntries ((sortBy (fun a b => compareByCodepoint a.1 b.1)
      (baseline.tests.entries.map fun e => (e.1, groupOfTest e.2))).map fun e =>
        (e.1, formattedGroupedTest (lintRatchetBaselineSpec defaultVersionPolicy workflowVocabulary
          defaultBaselineFilename) e.1 e.2))).entries =
      (canonicalBaseline baseline).tests.entries.map fun e => (e.1, .obj (testFields e.2)) := by
    rw [canonicalBaseline, ← sortedRecord_map baseline.tests.nodup canonicalTest fun t =>
      Json.obj (testFields t), hmap, List.map_map, sortedRecord]
    refine congrArg (fun es => (Record.fromEntries es).entries) (List.map_congr_left fun e _ => ?_)
    simp only [Function.comp_apply, formattedGroupedTest_eq]
  have hdocument : formatTestsDocument (lintRatchetBaselineSpec defaultVersionPolicy
      workflowVocabulary defaultBaselineFilename) (lintRatchetBaselineToGrouped baseline) =
        .obj (baselineFields (canonicalBaseline baseline)) := by
    rw [formatTestsDocument, lintRatchetBaselineToGrouped,
      JsMap.ofList_entries (nodup_keys_mapValues baseline.tests.nodup groupOfTest), baselineFields,
      ← htests]
    rfl
  exact congrArg (fun d => stringifyIndented d ++ [0x0A]) hdocument

theorem own_canonicalItems (metric : LintRatchetMetric) (items : Record LintRatchetMetricItem)
    (path : JsString) : (canonicalItems metric items).own path =
      ((items.own path).filter fun item => item.count > 0).map (formatItem metric) := by
  rw [canonicalItems, own_sortedRecord (items.nodup.sublist (List.filter_sublist.map _)),
    Entries.lookup_filter items.nodup fun e => e.2.count > 0]
  rfl

omit [JsNumber N] in
theorem own_canonicalBaseline (baseline : LintRatchetBaseline N) (testId : JsString) :
    (canonicalBaseline baseline).tests.own testId =
      (baseline.tests.own testId).map canonicalTest :=
  own_sortedRecord baseline.tests.nodup canonicalTest testId

theorem TestWellFormed.canonical {test : LintRatchetBaselineTest N} (h : TestWellFormed testId test) :
    TestWellFormed testId (canonicalTest test) := by
  have hitem {path item} (hi : (canonicalTest test).items.own path = some item) :
      ∃ raw, test.items.own path = some raw ∧ item = formatItem test.metric raw := by
    rw [canonicalTest, own_canonicalItems] at hi
    obtain ⟨raw, hraw, rfl⟩ := Option.map_eq_some_iff.1 hi
    exact ⟨raw, (Option.filter_eq_some_iff.1 hraw).1, rfl⟩
  refine ⟨h.id, h.ruleId, h.configHash, h.ruleSourceHash, fun v hv => ?_, ?_, ?_⟩
  · obtain ⟨w, hw, rfl⟩ := List.mem_map.1 hv
    rw [(h.ruleOptions w hw).2]
    exact h.ruleOptions w hw
  · intro path item hi
    obtain ⟨raw, hraw, -⟩ := hitem hi
    exact h.paths path raw hraw
  · intro path item hi
    obtain ⟨raw, hraw, rfl⟩ := hitem hi
    exact ⟨(h.items path raw hraw).1.formatItem _, by simpa using (h.items path raw hraw).2⟩

theorem BaselineWellFormed.canonical {baseline : LintRatchetBaseline N}
    (h : BaselineWellFormed baseline) : BaselineWellFormed (canonicalBaseline baseline) := by
  refine ⟨h.version, h.regenerate, fun testId test ht => ?_⟩
  rw [own_canonicalBaseline] at ht
  obtain ⟨raw, hraw, rfl⟩ := Option.map_eq_some_iff.1 ht
  exact ⟨(h.tests testId raw hraw).1.canonical, (h.tests testId raw hraw).2⟩

omit [JsNumber N] [Host] in
theorem normalizedMeta_idem (m : LintRatchetBaselineGroupMeta N) :
    normalizedMeta (normalizedMeta m) = normalizedMeta m := by
  simp only [normalizedMeta, normalizeStringList, normalizeRuleOptions, List.map_map,
    sortBy_idem compareByCodepoint_strict.toConsistentComparator, Function.comp_def,
    normalizeJsonValue_idem]

omit [JsNumber N] in
theorem canonicalTest_idem (test : LintRatchetBaselineTest N) :
    canonicalTest (canonicalTest test) = canonicalTest test := by
  have hn : (Entries.keys (test.items.entries.filter fun e => e.2.count > 0)).Nodup :=
    test.items.nodup.sublist (List.filter_sublist.map _)
  have hitems : canonicalItems test.metric (canonicalItems test.metric test.items) =
      canonicalItems test.metric test.items := by
    have hpositive : (canonicalItems test.metric test.items).entries.filter
        (fun e => e.2.count > 0) = (canonicalItems test.metric test.items).entries := by
      refine List.filter_eq_self.2 fun e he => ?_
      have hi := Record.mem_entries.1 (show (e.1, e.2) ∈ _ from he)
      rw [own_canonicalItems] at hi
      obtain ⟨raw, hraw, he2⟩ := Option.map_eq_some_iff.1 hi
      rw [← he2, formatItem_count]
      simpa using (Option.filter_eq_some_iff.1 hraw).2
    rw [canonicalItems, hpositive, canonicalItems]
    exact sortedRecord_idem hn fun e _ => formatItem_idem _ _
  simp only [canonicalTest, normalizedMeta_idem]
  exact congrArg (fun items => LintRatchetBaselineTest.mk _ items) hitems

omit [JsNumber N] in
theorem canonicalBaseline_idem (baseline : LintRatchetBaseline N) :
    canonicalBaseline (canonicalBaseline baseline) = canonicalBaseline baseline :=
  congrArg (LintRatchetBaseline.mk baseline.version baseline.regenerate)
    (sortedRecord_idem baseline.tests.nodup fun e _ => canonicalTest_idem e.2)

/-- The formatted text of a well-formed baseline is read back as its canonical form. -/
theorem parse_formatLintRatchetBaseline {baseline : LintRatchetBaseline N}
    (h : BaselineWellFormed baseline) (versionPolicy : LintRatchetBaselineVersionPolicy)
    (hv : baseline.version ∈ versionPolicy.acceptedVersions)
    (w w' : LintRatchetWorkflowVocabulary) (baselineFile : JsString) :
    parseLintRatchetBaselineStructure (formatLintRatchetBaseline baseline w) w' versionPolicy
      baselineFile = .ok (canonicalBaseline baseline) := by
  rw [formatLintRatchetBaseline_eq]
  exact parseLintRatchetBaselineStructure_text versionPolicy w' baselineFile h.canonical hv

theorem format_canonicalBaseline (baseline : LintRatchetBaseline N)
    (w w' : LintRatchetWorkflowVocabulary) :
    formatLintRatchetBaseline (canonicalBaseline baseline) w =
      formatLintRatchetBaseline baseline w' := by
  rw [formatLintRatchetBaseline_eq, formatLintRatchetBaseline_eq, canonicalBaseline_idem]

end Format

end Musi.LintRatchet
