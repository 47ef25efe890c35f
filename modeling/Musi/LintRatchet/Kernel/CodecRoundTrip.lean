import Musi.Js.JsonWire
import Musi.LintRatchet.Kernel.DriverFloor
import Musi.LintRatchet.Kernel.MergeIdentity
import Musi.LintRatchet.Kernel.MetricFacts

namespace Musi.LintRatchet
open Musi.Js
set_option autoImplicit true

section Codec
variable {N : Type} [JsNumber N]

/-! ## What reading a formatted baseline back keeps -/

/-- The same item up to the order of its functions. -/
structure ReorderedItem (item reread : LintRatchetMetricItem) : Prop where
  count : reread.count = item.count
  lines : reread.lines = item.lines
  maxComplexity : reread.maxComplexity = item.maxComplexity
  perFunction : Option.Rel List.Perm reread.perFunction item.perFunction
  messagesFingerprint : reread.messagesFingerprint = item.messagesFingerprint

/-- The same test up to the order of its globs and of the functions of its items. -/
structure ReorderedTest (test reread : LintRatchetBaselineTest N) : Prop where
  ruleId : reread.ruleId = test.ruleId
  mode : reread.mode = test.mode
  metric : reread.metric = test.metric
  files : reread.files.Perm test.files
  ignores : reread.ignores.Perm test.ignores
  ruleOptions : reread.ruleOptions = test.ruleOptions
  configHash : reread.configHash = test.configHash
  ruleSourceHash : reread.ruleSourceHash = test.ruleSourceHash
  items : ∀ path, Option.Rel ReorderedItem (test.items.own path) (reread.items.own path)

/-- A baseline is read back with its tests. Its annotation is read back as JSON.stringify writes
it. -/
structure RereadBaseline (baseline reread : LintRatchetBaseline N) : Prop where
  version : reread.version = baseline.version
  regenerate : reread.regenerate = baseline.regenerate.map wire
  tests : ∀ testId, Option.Rel ReorderedTest (baseline.tests.own testId) (reread.tests.own testId)

omit [JsNumber N] in
/-- The formatter drops nothing of a valid item. -/
theorem reread_formatItem [Host] {metric : LintRatchetMetric} {item : LintRatchetMetricItem}
    (h : ItemValid metric item) (hpos : 0 < item.count) :
    ReorderedItem item (formatItem metric item) := by
  cases metric with
  | messageCount =>
    obtain ⟨hl, hm, hf⟩ := itemValid_messageCount.1 h
    exact ⟨rfl, hl.symm, hm.symm, by rw [hf]; exact .none, rfl⟩
  | effectiveLineCount =>
    obtain ⟨-, hm, hf, hs⟩ := itemValid_effectiveLineCount.1 h
    exact ⟨rfl, rfl, hm.symm, by rw [hf]; exact .none, hs.symm⟩
  | complexitySeverity =>
    obtain ⟨fs, m, hfs, hm, hmax, -, hl, hs⟩ := h.complexity hpos
    have hperm := sortBy_perm compareComplexityFunction fs
    have hsorted : sortedComplexityFunctions item = some (sortBy compareComplexityFunction fs) := by
      rw [sortedComplexityFunctions, hfs, Option.map_some]
    rw [formatItem_complexity hsorted ((maxComplexityFor_perm hperm).trans hmax)]
    exact ⟨rfl, hl.symm, hm.symm, by rw [hfs]; exact .some hperm, hs.symm⟩

/-! ## The annotation -/

/-- The annotation as it is read back. -/
def rereadRegenerate (baseline : LintRatchetBaseline N) : LintRatchetBaseline N :=
  { baseline with regenerate := baseline.regenerate.map wire }

variable [Host]

theorem format_rereadRegenerate (baseline : LintRatchetBaseline N)
    (w : LintRatchetWorkflowVocabulary) :
    formatLintRatchetBaseline (rereadRegenerate baseline) w =
      formatLintRatchetBaseline baseline w := by
  rw [formatLintRatchetBaseline_eq, formatLintRatchetBaseline_eq]
  obtain ⟨version, regenerate, tests⟩ := baseline
  cases regenerate with
  | none => rfl
  | some r =>
    simp only [rereadRegenerate, canonicalBaseline, baselineText, baselineFields, regenerateField,
      Option.map_some, Option.toList_some, List.map_cons, List.map_nil, List.cons_append,
      List.nil_append, stringifyIndented, render, renderFields, renderField, render_wire]

theorem parseJsonText_built {text : JsString}
    {remediation : Option BaselineConflictMarkerRemediation} {v : Json N} {warnings : List JsString}
    (h : parseJsonText text remediation = .ok v warnings) : Built v := by
  unfold parseJsonText at h
  split at h
  · next hv =>
    cases h
    exact parseJson_built hv
  · cases h

omit [JsNumber N] [Host] in
theorem recordFields_built {v : Json N} {fields : Entries (Json N)} (hv : Built v)
    (h : recordFields v = some fields) : ∀ e ∈ fields, Built e.2 := by
  obtain ⟨es, hes, rfl⟩ := Option.map_eq_some_iff.1 h
  intro e he
  cases hv with
  | obj _ _ hall =>
    cases hes
    exact hall e (List.mem_filter.1 he).1
  | _ => cases hes

omit [Host] in
/-- An accepted envelope has an accepted version and the fields of the document. -/
theorem checkedEnvelope_ok {GroupMeta Item : Type} {spec : GroupedBaselineSpec N GroupMeta Item}
    {raw : Json N} {version : Nat} {envelope : Entries (Json N)} {warnings : List JsString}
    (h : checkedEnvelope spec raw = .ok (version, envelope) warnings) :
    version ∈ spec.acceptedReadVersions ∧ recordFields raw = some envelope := by
  unfold checkedEnvelope at h
  split at h
  · cases h
  · next fields hfields =>
    dsimp only at h
    split at h
    · cases h
    · split at h
      · cases h
      · next found _ =>
        split at h
        · next hversion =>
          cases h
          obtain ⟨accepted, hmem, haccepted⟩ := List.any_eq_true.1 hversion
          refine ⟨?_, hfields⟩
          rw [← of_decide_eq_true haccepted]
          exact hmem
        · split at h <;> cases h

/-- The version of an accepted baseline is one that the policy accepts, and its annotation is a
parsed value. -/
theorem parse_structure_envelope {text : JsString} {w : LintRatchetWorkflowVocabulary}
    {versionPolicy : LintRatchetBaselineVersionPolicy} {baselineFile : JsString}
    {baseline : LintRatchetBaseline N}
    (h : parseLintRatchetBaselineStructure text w versionPolicy baselineFile = .ok baseline) :
    baseline.version ∈ versionPolicy.acceptedVersions ∧ ∀ r ∈ baseline.regenerate, Built r := by
  obtain ⟨value, warnings, hparse, rfl⟩ := parse_structure_ok h
  unfold parseGroupedBaselineDocument at hparse
  split at hparse
  · cases hparse
  · next raw _ hraw =>
    split at hparse
    · cases hparse
    · next version envelope _ henvelope =>
      obtain ⟨hversion, hfields⟩ := checkedEnvelope_ok henvelope
      dsimp only at hparse
      split at hparse
      · cases hparse
      · cases hparse
        refine ⟨hversion, fun r hr => ?_⟩
        obtain ⟨before, after, rfl, -⟩ := List.lookup_eq_some_iff.1 hr
        exact recordFields_built (parseJsonText_built hraw) hfields (js "regenerate", r) (by simp)

/-! ## The round trip -/

omit [JsNumber N] [Host] in
theorem normalizeStringList_perm (values : List JsString) : (normalizeStringList values).Perm values :=
  sortBy_perm _ _

/-- A parsed baseline is read back as its canonical form, with the annotation as it is written. -/
theorem parse_format_canonical {text : JsString} {w w' : LintRatchetWorkflowVocabulary}
    {versionPolicy : LintRatchetBaselineVersionPolicy} {baselineFile : JsString}
    {baseline : LintRatchetBaseline N}
    (hv : ∀ v ∈ versionPolicy.acceptedVersions, v ∈ [legacyVersion, annotatedVersion])
    (h : parseLintRatchetBaselineStructure text w versionPolicy baselineFile = .ok baseline)
    (hhash : ∀ testId test, baseline.tests.own testId = some test → test.ruleSourceHash ≠ []) :
    parseLintRatchetBaselineStructure (formatLintRatchetBaseline baseline w') w versionPolicy
      baselineFile = .ok (canonicalBaseline (rereadRegenerate baseline)) := by
  obtain ⟨hversion, hregenerate⟩ := parse_structure_envelope h
  have hwf : BaselineWellFormed (rereadRegenerate baseline) := by
    refine ⟨hv _ hversion, fun r hr => ?_, fun testId test ht => ?_⟩
    · obtain ⟨r', hr', rfl⟩ := Option.map_eq_some_iff.1 hr
      exact canonical_wire (hregenerate r' hr')
    · exact ⟨parse_structure_wellFormed h ht, hhash testId test ht⟩
  rw [← format_rereadRegenerate]
  exact parse_formatLintRatchetBaseline hwf versionPolicy hversion w' w baselineFile

/-- The items of a test are valid for its metric. -/
def TestItemsValid (test : LintRatchetBaselineTest N) : Prop :=
  ∀ path item, test.items.own path = some item → ItemValid test.metric item

theorem reread_canonicalTest {test : LintRatchetBaselineTest N} (h : TestWellFormed testId test)
    (hitems : TestItemsValid test) : ReorderedTest test (canonicalTest test) where
  ruleId := rfl
  mode := rfl
  metric := rfl
  files := normalizeStringList_perm _
  ignores := normalizeStringList_perm _
  ruleOptions := (List.map_congr_left fun v hv => (h.ruleOptions v hv).2).trans (List.map_id _)
  configHash := rfl
  ruleSourceHash := rfl
  items path := by
    rw [own_canonicalTest test path fun item hi => (h.items path item hi).2]
    cases hi : test.items.own path with
    | none => exact .none
    | some item => exact .some (reread_formatItem (hitems path item hi) (h.items path item hi).2)

/-- The canonical form keeps every test and every item of a valid baseline. -/
theorem reread_canonicalBaseline {baseline : LintRatchetBaseline N}
    (hpos : ∀ testId test, baseline.tests.own testId = some test →
      TestWellFormed testId test) (hitems : ItemsValid baseline) :
    RereadBaseline baseline (canonicalBaseline (rereadRegenerate baseline)) where
  version := rfl
  regenerate := rfl
  tests testId := by
    rw [own_canonicalBaseline]
    change Option.Rel ReorderedTest (baseline.tests.own testId)
      ((baseline.tests.own testId).map canonicalTest)
    cases ht : baseline.tests.own testId with
    | none => exact .none
    | some test => exact .some (reread_canonicalTest (hpos testId test ht) (hitems testId test ht))

/-- What the structural parser accepts with valid items and every hash is read back from its
canonical formatting, which formatting again leaves as it is. -/
theorem parse_format_reread {text : JsString} {w : LintRatchetWorkflowVocabulary}
    {versionPolicy : LintRatchetBaselineVersionPolicy} {baselineFile : JsString}
    {baseline : LintRatchetBaseline N}
    (hv : ∀ v ∈ versionPolicy.acceptedVersions, v ∈ [legacyVersion, annotatedVersion])
    (h : parseLintRatchetBaselineStructure text w versionPolicy baselineFile = .ok baseline)
    (hitems : ItemsValid baseline)
    (hhash : ∀ testId test, baseline.tests.own testId = some test → test.ruleSourceHash ≠ []) :
    ∃ reread, parseLintRatchetBaselineStructure (formatLintRatchetBaseline baseline w) w
        versionPolicy baselineFile = .ok reread ∧
      RereadBaseline baseline reread ∧
      formatLintRatchetBaseline reread w = formatLintRatchetBaseline baseline w :=
  ⟨_, parse_format_canonical hv h hhash,
    reread_canonicalBaseline (fun _ _ ht => parse_structure_wellFormed h ht) hitems,
    (format_canonicalBaseline _ w w).trans (format_rereadRegenerate baseline w)⟩

end Codec

/-- Two functions whose order the formatter changes. -/
def unsortedFunctions : ComplexityFunctions :=
  [{ line := 1, label := js "f", complexity := 2 }, { line := 9, label := js "g", complexity := 5 }]

theorem parse_format_reread_functions : ∃ reread, parseLintRatchetBaselineStructure
      (formatLintRatchetBaseline (oneFile .complexitySeverity (complexityItem unsortedFunctions))
        plainVocabulary) plainVocabulary = .ok reread ∧
    RereadBaseline (oneFile .complexitySeverity (complexityItem unsortedFunctions)) reread ∧
    formatLintRatchetBaseline reread plainVocabulary = formatLintRatchetBaseline
      (oneFile .complexitySeverity (complexityItem unsortedFunctions)) plainVocabulary := by
  have hone : OneItem .complexitySeverity (complexityItem unsortedFunctions) :=
    oneItem_complexity (by decide) (by decide)
  refine parse_format_reread (by decide) (hone.parsed plainVocabulary) hone.itemsValid
    fun testId test ht => ?_
  obtain ⟨-, rfl⟩ := oneTest_of_own ht
  exact show zeroHash ≠ [] by decide

/-- A baseline without a rule source hash is formatted with an empty one, which is refused. -/
theorem parse_format_reread_fails :
    parseLintRatchetBaselineStructure unhashedText plainVocabulary = .ok unhashed ∧
      ItemsValid unhashed ∧
      (parseLintRatchetBaselineStructure (formatLintRatchetBaseline unhashed plainVocabulary)
          plainVocabulary : Except (List JsString) (LintRatchetBaseline Numeral)) =
        .error [js "ratchet/one: ruleSourceHash must be a sha256 hash"] := by
  refine ⟨unhashed_parsed, unhashed_itemsValid, ?_⟩
  decide +kernel

end Musi.LintRatchet
