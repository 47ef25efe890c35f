import Musi.LintRatchet.Kernel.BaselineCompare
import Musi.LintRatchet.Kernel.CollectorIndependence
import Musi.LintRatchet.Kernel.DriverGate
import Musi.LintRatchet.Kernel.RegistryOrder

namespace Musi.LintRatchet
open Musi.Js
set_option autoImplicit true

section
variable {N : Type} [JsNumber N]

/-! ## What the collector makes of a path -/

/-- A line count is a number that was read, or infinite. -/
def LineCount (N : Type) [JsNumber N] (lines : ℕ∞) : Prop := lines = ⊤ ∨ ∃ n : Nat, lines = n ∧ Exact N n

/-- What a metric reads of a message. -/
def ReadBy (metric : LintRatchetMetric) (finding : Finding N) : Prop :=
  match metric with
  | .messageCount => finding.metric.lines = none ∧ finding.metric.complexity = none
  | .effectiveLineCount => (∃ lines, finding.metric.lines = some lines ∧ LineCount N lines) ∧
      finding.metric.complexity = none ∧ finding.identity = none
  | .complexitySeverity => finding.metric.lines = none ∧
      (∃ f, finding.metric.complexity = some f ∧ FunctionWellFormed N f) ∧ finding.identity = none

/-- The item of a path as the collector leaves it. -/
structure CollectedItem (N : Type) [JsNumber N] (metric : LintRatchetMetric)
    (item : LintRatchetMetricItem) : Prop where
  count : 0 < item.count
  maxComplexity : item.maxComplexity = none
  lines : if metric = .effectiveLineCount then ∃ lines, item.lines = some lines ∧ LineCount N lines
    else item.lines = none
  functions : if metric = .complexitySeverity then ∃ fs, item.perFunction = some fs ∧
      fs.length = item.count ∧ ∀ f ∈ fs, FunctionWellFormed N f
    else item.perFunction = none
  fingerprint : ∀ s ∈ item.messagesFingerprint, metric = .messageCount ∧ isSha256Hash s = true

theorem effectiveLineCountFor_lineCount {ratchet : LintRatchetConfig N} {path : JsString}
    {message : ESLintMessage N} {lines : ℕ∞}
    (h : effectiveLineCountFor ratchet path message = .ok lines) : LineCount N lines := by
  unfold effectiveLineCountFor at h
  split at h
  · cases h
  · next digits _ =>
    obtain rfl := Except.ok.inj h
    cases hn : numberOfDigits N digits with
    | none => exact .inl rfl
    | some n => exact .inr ⟨n, rfl, numberOfDigits_exact hn⟩

theorem reduceMessage_readBy [Host] {ratchet : LintRatchetConfig N} {repoRootPath filePath path : JsString}
    {message : ESLintMessage N} {metric : MetricFinding}
    (h : reduceMessage ratchet path message = .ok metric) :
    ReadBy ratchet.metric (findingFor ratchet repoRootPath filePath message metric) := by
  unfold reduceMessage at h
  unfold ReadBy findingFor recordsMessageIdentity
  split at h
  · next hmetric =>
    cases h
    rw [hmetric]
    exact ⟨rfl, rfl⟩
  · next hmetric =>
    obtain ⟨-, -, h⟩ := bind_ok.1 h
    obtain ⟨lines, hlines, h⟩ := bind_ok.1 h
    cases h
    rw [hmetric]
    exact ⟨⟨lines, rfl, effectiveLineCountFor_lineCount hlines⟩, rfl, rfl⟩
  · next hmetric =>
    obtain ⟨-, -, h⟩ := bind_ok.1 h
    obtain ⟨f, hf, h⟩ := bind_ok.1 h
    cases h
    rw [hmetric]
    exact ⟨rfl, ⟨f, rfl, parseComplexitySeverityMessage_wellFormed hf⟩, rfl⟩

theorem largest_mem {lines : List ℕ∞} (h : lines ≠ []) : ∃ l ∈ lines, largest lines = some l := by
  induction lines using List.reverseRecOn with
  | nil => exact absurd rfl h
  | append_singleton lines line ih =>
    rw [largest_append]
    by_cases hempty : lines = []
    · subst hempty
      exact ⟨line, List.mem_singleton.2 rfl, rfl⟩
    · obtain ⟨l, hl, hlargest⟩ := ih hempty
      rw [hlargest, Option.map_some, Option.getD_some, maxLines]
      split
      · exact ⟨line, List.mem_append_right _ (List.mem_singleton.2 rfl), rfl⟩
      · exact ⟨l, List.mem_append_left _ hl, rfl⟩

/-- The item of findings that a metric has read. -/
theorem ItemOf.collected {metric : LintRatchetMetric} {findings : List (Finding N)}
    {item : LintRatchetMetricItem} (h : ItemOf findings item) (hne : findings ≠ [])
    (hread : ∀ finding ∈ findings, ReadBy metric finding) : CollectedItem N metric item := by
  have hpos : 0 < item.count := by
    rw [h.count]
    exact List.length_pos_iff.2 hne
  have hnone {α : Type} {f : Finding N → Option α} (hf : ∀ finding ∈ findings, f finding = none) :
      findings.filterMap f = [] := List.filterMap_eq_nil_iff.2 hf
  refine ⟨hpos, h.maxComplexity, ?_, ?_, fun s hs => ?_⟩
  · rw [h.lines]
    cases metric with
    | messageCount => rw [if_neg (by decide), hnone fun f hf => (hread f hf).1]; rfl
    | complexitySeverity => rw [if_neg (by decide), hnone fun f hf => (hread f hf).1]; rfl
    | effectiveLineCount =>
      rw [if_pos rfl]
      have hlines : (findings.filterMap fun f => f.metric.lines) ≠ [] := by
        obtain ⟨f, hf⟩ := List.exists_mem_of_ne_nil _ hne
        obtain ⟨⟨lines, hl, -⟩, -⟩ := hread f hf
        exact List.ne_nil_of_mem (List.mem_filterMap.2 ⟨f, hf, hl⟩)
      obtain ⟨l, hl, hlargest⟩ := largest_mem hlines
      obtain ⟨f, hf, he⟩ := List.mem_filterMap.1 hl
      obtain ⟨⟨lines, hlines, hcount⟩, -⟩ := hread f hf
      obtain rfl := Option.some.inj (he.symm.trans hlines)
      exact ⟨l, hlargest, hcount⟩
  · rw [h.perFunction]
    cases metric with
    | messageCount => rw [if_neg (by decide), hnone fun f hf => (hread f hf).2]; rfl
    | effectiveLineCount => rw [if_neg (by decide), hnone fun f hf => (hread f hf).2.1]; rfl
    | complexitySeverity =>
      rw [if_pos rfl]
      have hlength : (findings.filterMap fun f => f.metric.complexity).length = findings.length := by
        rw [List.filterMap_length_eq_length]
        intro f hf
        obtain ⟨-, ⟨g, hg, -⟩, -⟩ := hread f hf
        exact Option.isSome_iff_exists.2 ⟨g, hg⟩
      refine ⟨_, ?_, hlength.trans h.count.symm, fun g hg => ?_⟩
      · rw [listed, if_neg]
        exact List.ne_nil_of_length_pos (by rw [hlength]; exact List.length_pos_iff.2 hne)
      · obtain ⟨f, hf, he⟩ := List.mem_filterMap.1 hg
        obtain ⟨-, ⟨g', hg', hwf⟩, -⟩ := hread f hf
        obtain rfl := Option.some.inj (he.symm.trans hg')
        exact hwf
  · rw [h.messagesFingerprint] at hs
    cases hs

section Host
variable [Host] {ratchet : LintRatchetConfig N} {repoRootPath path : JsString}
  {results : List (ESLintFileResult N)} {items : JsMap (LintRatchetCurrentItem N)}
  {metric : LintRatchetMetric} {item : LintRatchetMetricItem}

theorem itemsFromResults_collected (h : itemsFromResults ratchet results repoRootPath = .ok items)
    {current : LintRatchetCurrentItem N} (hget : items.get path = some current) :
    CollectedItem N ratchet.metric current.toLintRatchetMetricItem := by
  rw [itemsFromResults_eq] at h
  obtain ⟨found, hfound, rfl⟩ := map_ok.1 h
  have hread : ∀ finding ∈ found.reduceOption, ReadBy ratchet.metric finding := by
    intro finding hf
    obtain ⟨x, -, hx⟩ := mem_findings hfound hf
    obtain ⟨-, metric, hreduce, rfl⟩ := findingOf_some hx
    exact reduceMessage_readBy hreduce
  rw [get_itemsOf] at hget
  obtain ⟨item, hitem, rfl⟩ := Option.map_eq_some_iff.1 hget
  rcases itemFor_itemOf (found.reduceOption.filter fun f => f.path = path) with
    ⟨-, hnone⟩ | ⟨made, hmade, hof⟩
  · rw [hitem] at hnone
    cases hnone
  · obtain rfl := Option.some.inj (hitem.symm.trans hmade)
    have hne : (found.reduceOption.filter fun f => f.path = path) ≠ [] := by
      intro hempty
      rw [hempty] at hitem
      cases hitem
    have hcollected := hof.collected hne fun finding hf => hread finding (List.mem_filter.1 hf).1
    unfold stampFingerprint
    split
    · exact hcollected
    · next hidentities =>
      refine ⟨hcollected.count, hcollected.maxComplexity, hcollected.lines, hcollected.functions,
        fun s hs => ?_⟩
      obtain rfl := Option.some.inj hs
      refine ⟨?_, isSha256Hash_append (Host.sha256_length _) (Host.sha256_hex _)⟩
      obtain ⟨identity, hidentity⟩ := List.exists_mem_of_ne_nil _ hidentities
      obtain ⟨e, he, rfl⟩ := List.mem_map.1 hidentity
      obtain ⟨finding, hf, he⟩ := List.mem_filterMap.1 (List.mem_filter.1 he).1
      obtain ⟨identity, hidentity, -⟩ := Option.map_eq_some_iff.1 he
      have hby := hread finding hf
      unfold ReadBy at hby
      split at hby
      · assumption
      · rw [hby.2.2] at hidentity
        cases hidentity
      · rw [hby.2.2] at hidentity
        cases hidentity

/-! ## The floor of a collected item -/

omit [Host] in
theorem CollectedItem.wellFormed (h : CollectedItem N metric item) (hcount : Exact N item.count)
    (hlines : item.lines ≠ some ⊤) : ItemWellFormed N item := by
  refine ⟨hcount, fun l hl => ?_, fun m hm => ?_, fun fs hfs f hf => ?_,
    fun s hs => (h.fingerprint s hs).2⟩
  · have hshape := h.lines
    split at hshape
    · obtain ⟨lines, hlines', hcount⟩ := hshape
      obtain rfl := Option.some.inj (hl.symm.trans hlines')
      rcases hcount with rfl | hexact
      · exact absurd hl hlines
      · exact hexact
    · rw [hshape] at hl
      cases hl
  · rw [h.maxComplexity] at hm
    cases hm
  · have hshape := h.functions
    split at hshape
    · obtain ⟨gs, hgs, -, hwf⟩ := hshape
      obtain rfl := Option.some.inj (hgs.symm.trans hfs)
      exact hwf f hf
    · rw [hshape] at hfs
      cases hfs

/-- The functions of a complexity item as they are committed. -/
theorem CollectedItem.formatted (h : CollectedItem N .complexitySeverity item) :
    ∃ fs m, item.perFunction = some fs ∧ fs.length = item.count ∧
      maxComplexityFor (some (sortBy compareComplexityFunction fs)) = some m ∧
      formatItem .complexitySeverity item = { count := item.count, maxComplexity := some m
                                              perFunction := some (sortBy compareComplexityFunction fs) } := by
  have hshape := h.functions
  rw [if_pos rfl] at hshape
  obtain ⟨fs, hfs, hlength, -⟩ := hshape
  have hsorted : sortedComplexityFunctions item = some (sortBy compareComplexityFunction fs) := by
    rw [sortedComplexityFunctions, hfs, Option.map_some]
  obtain ⟨m, hm⟩ : ∃ m, maxComplexityFor (some (sortBy compareComplexityFunction fs)) = some m := by
    have hpos : 0 < (sortBy compareComplexityFunction fs).length := by
      rw [length_sortBy, hlength]
      exact h.count
    cases hs : sortBy compareComplexityFunction fs with
    | nil =>
      rw [hs] at hpos
      cases hpos
    | cons f fs => exact ⟨_, rfl⟩
  exact ⟨fs, m, hfs, hlength, hm, formatItem_complexity hsorted hm⟩

theorem CollectedItem.valid (h : CollectedItem N metric item) :
    ItemValid metric (formatItem metric item) := by
  cases metric with
  | messageCount => exact itemValid_messageCount.2 ⟨rfl, rfl, rfl⟩
  | effectiveLineCount =>
    have hshape := h.lines
    rw [if_pos rfl] at hshape
    obtain ⟨lines, hlines, -⟩ := hshape
    exact itemValid_effectiveLineCount.2 ⟨Option.isSome_iff_exists.2 ⟨lines, hlines⟩, rfl, rfl, rfl⟩
  | complexitySeverity =>
    obtain ⟨fs, m, -, hlength, hm, hformat⟩ := h.formatted
    rw [hformat, ← validateMetricItem_nil []]
    simp [validateMetricItem, onlyForEffectiveLineCount, onlyForMessageCount, failWhen, hlength, hm,
      length_sortBy]

/-! ## A collected item against its floor -/

/-- The functions of a complexity item that have one line and label have one complexity. -/
def OneComplexity (metric : LintRatchetMetric) (item : LintRatchetMetricItem) : Prop :=
  metric = .complexitySeverity → ∀ fs ∈ item.perFunction, ∀ f ∈ fs, ∀ g ∈ fs,
    complexityIdentity f = complexityIdentity g → f.complexity = g.complexity

omit [Host] in
/-- Against the same functions, the exact search finds a fall only below another function of the
same identity. -/
theorem exactComplexityDelta_self {bs cs : ComplexityFunctions} (h : bs.Perm cs) :
    exactComplexityDelta bs cs true = none ∧ (exactComplexityDelta bs cs false = none ↔
      ∀ f ∈ cs, ∀ g ∈ cs, complexityIdentity f = complexityIdentity g →
        f.complexity = g.complexity) := by
  have hworst (f : LintRatchetComplexityFunction) (hf : f ∈ cs) :
      ∃ p, (uniqueComplexityMap bs).lookup (complexityIdentity f) = some p ∧ p ∈ cs ∧
        complexityIdentity p = complexityIdentity f ∧
        ∀ g ∈ cs, complexityIdentity g = complexityIdentity f → g.complexity ≤ p.complexity := by
    have hlookup := uniqueComplexityMap_lookup bs (complexityIdentity f)
    cases hp : (uniqueComplexityMap bs).lookup (complexityIdentity f) with
    | none =>
      rw [hp] at hlookup
      exact absurd rfl (hlookup f (h.mem_iff.2 hf))
    | some p =>
      rw [hp] at hlookup
      exact ⟨p, rfl, h.mem_iff.1 hlookup.1, hlookup.2.1,
        fun g hg => hlookup.2.2 g (h.mem_iff.2 hg)⟩
  simp only [exactComplexityDelta, List.findSome?_eq_none_iff]
  constructor
  · intro f hf
    obtain ⟨p, hp, -, -, hle⟩ := hworst f hf
    have := hle f hf rfl
    simp only [hp, complexityDeltaOf, complexityMoved, if_true]
    exact if_neg (by simpa using this)
  · constructor
    · intro hnone f hf g hg hid
      have hfall (f : LintRatchetComplexityFunction) (hf : f ∈ cs)
          (p : LintRatchetComplexityFunction)
          (hp : (uniqueComplexityMap bs).lookup (complexityIdentity f) = some p) :
          p.complexity ≤ f.complexity := by
        have hdelta := hnone f hf
        simp only [hp, complexityDeltaOf, complexityMoved] at hdelta
        simpa using hdelta
      obtain ⟨p, hp, -, -, hle⟩ := hworst f hf
      have hpg := hp
      rw [hid] at hpg
      have h₁ := hfall f hf p hp
      have h₂ := hfall g hg p hpg
      have h₃ := hle f hf rfl
      have h₄ := hle g hg hid.symm
      omega
    · intro hone f hf
      obtain ⟨p, hp, hmem, hid, -⟩ := hworst f hf
      have hsame := hone p hmem f hf hid
      simp [hp, complexityDeltaOf, complexityMoved, hsame]

theorem vectorComplexityDelta_self {bs cs : ComplexityFunctions} (h : bs.Perm cs)
    (regression : Bool) : vectorComplexityDelta bs cs regression = none := by
  rw [vectorComplexityDelta_perm h, vectorComplexityDelta, List.findSome?_eq_none_iff]
  rintro ⟨previous, entry⟩ hmem
  have hsame : previous = entry := by
    obtain ⟨i, hi, he⟩ := List.mem_iff_getElem.1 hmem
    rw [List.getElem_zip] at he
    cases he
    rfl
  subst hsame
  cases regression <;> simp [complexityDeltaOf, complexityMoved]

/-- Against its own floor, a complexity item only ever seems to have fallen. -/
theorem complexityDelta_floor (h : CollectedItem N .complexitySeverity item) :
    (∀ delta, complexityDelta (some (formatItem .complexitySeverity item)) item = some delta →
        delta.regression = false) ∧
      (complexityDelta (some (formatItem .complexitySeverity item)) item = none ↔
        OneComplexity .complexitySeverity item) := by
  obtain ⟨fs, m, hfs, -, -, hformat⟩ := h.formatted
  have hperm := sortBy_perm compareComplexityFunction fs
  obtain ⟨hrise, hfall⟩ := exactComplexityDelta_self hperm
  have hdelta : complexityDelta (some (formatItem .complexitySeverity item)) item =
      exactComplexityDelta (sortBy compareComplexityFunction fs) fs false := by
    rw [hformat]
    simp only [complexityDelta, Option.bind_some, hfs, hrise, vectorComplexityDelta_self hperm,
      Option.none_or, Option.or_none]
  rw [hdelta, hfall]
  refine ⟨fun delta hd => ?_, fun hone _ gs hgs => ?_, fun hone => hone rfl fs hfs⟩
  · obtain ⟨f, -, hf⟩ := List.exists_of_findSome?_eq_some hd
    split at hf
    · cases hf
    · unfold complexityDeltaOf at hf
      split at hf
      · cases hf
        rfl
      · cases hf
  · obtain rfl := Option.some.inj (hfs.symm.trans hgs)
    exact hone

/-- A collected item is compared with its own floor. -/
theorem compareItem_floor (context : MetricItemComparisonContext N)
    (hmetric : context.ratchet.metric = metric)
    (h : CollectedItem N metric context.current.toLintRatchetMetricItem)
    (hfloor : context.baselineItem = some (formatItem metric context.current.toLintRatchetMetricItem)) :
    (compareItem metric context).regression = none ∧ (compareItem metric context).info = none ∧
      ((compareItem metric context).improvement = none ↔
        OneComplexity metric context.current.toLintRatchetMetricItem) := by
  have hcount : context.baselineCount = context.current.count := by
    rw [MetricItemComparisonContext.baselineCount, hfloor, Option.map_some, formatItem_count]
    rfl
  have hlevel (p q : NewPathPayload N) : countComparison context p q = none := by
    simp [countComparison, countIncreaseRegression, countDecreaseImprovement, hcount]
  cases metric with
  | messageCount =>
    have hinfo : equalCountMessageSwapInfo context = none := by
      unfold equalCountMessageSwapInfo
      rw [hfloor, Option.bind_some, formatItem, if_neg (by simp [hmetric]), if_neg (by simp [hcount])]
      cases context.current.messagesFingerprint <;> simp
    simp [compareItem, compareMessageCountItem, hlevel, hinfo, OneComplexity]
  | effectiveLineCount =>
    have hlines : context.baselineItem.bind (·.lines) = context.current.lines := by
      rw [hfloor]
      rfl
    have hrise : increasedLinesComparison context context.current.lines context.current.lines = none := by
      unfold increasedLinesComparison
      split <;> simp_all
    have hfall : lowerLinesComparison context context.current.lines context.current.lines = {} := by
      unfold lowerLinesComparison
      split <;> simp_all
    simp [compareItem, compareEffectiveLineCountItem, hlevel, hlines, hrise, hfall, OneComplexity]
  | complexitySeverity =>
    obtain ⟨hregression, hnone⟩ := complexityDelta_floor h
    rw [← hfloor] at hregression hnone
    simp only [compareItem, compareComplexitySeverityItem, hlevel, Option.getD_none]
    cases hdelta : complexityDelta context.baselineItem context.current.toLintRatchetMetricItem with
    | none =>
      rw [hdelta] at hnone
      exact ⟨rfl, rfl, iff_of_true rfl (hnone.1 rfl)⟩
    | some delta =>
      rw [hdelta] at hnone
      have hfalse := hregression delta hdelta
      simp only [increasedComplexityComparison, hfalse, Bool.false_eq_true, if_false,
        lowerComplexityComparison, reduceCtorEq, false_iff, true_and]
      exact fun hone => absurd (hnone.2 hone) (Option.some_ne_none _)

/-! ## The baseline of a registry -/

omit [Host] in
/-- What an accepted registry says of a ratchet that its test is written with. -/
theorem validateLintRatchetRegistry_test {ratchets : List (LintRatchetConfig N)}
    {options : ValidateLintRatchetRegistryOptions}
    (h : validateLintRatchetRegistry ratchets options = []) : ∀ ratchet ∈ ratchets,
      isRatchetId ratchet.id = true ∧ isBaselineRuleId ratchet.ruleId = true ∧
        ∀ option ∈ ratchet.ruleOptions, isJsonValue option = true := by
  intro ratchet hr
  obtain ⟨ctx, seen, he⟩ := validateLintRatchetRegistry_entry h ratchet hr
  simp only [validateRatchetEntry, validateRatchetIdAndParserProfile, validateRatchetSource,
    validateRatchetRuleOptions, List.append_eq_nil_iff, List.flatMap_eq_nil_iff, failWhen,
    ite_eq_right_iff, reduceCtorEq, imp_false, Bool.not_eq_true, Bool.not_eq_false'] at he
  obtain ⟨⟨⟨⟨⟨⟨⟨⟨⟨⟨hid, -⟩, hsource⟩, -⟩, -⟩, -⟩, -⟩, hoptions⟩, -⟩, -⟩, -⟩ := he
  refine ⟨hid, ?_, hoptions⟩
  split at hsource
  · simp only [validateLocalSource, List.append_eq_nil_iff] at hsource
    obtain ⟨-, hregistered⟩ := hsource
    split at hregistered
    · cases hregistered
    · next hlocal => exact isLocalRuleId_baseline (by simpa using hlocal)
  · simp only [validateCoreSource, failWhen, ite_eq_right_iff, reduceCtorEq, imp_false,
      Bool.not_eq_true, Bool.not_eq_false'] at hsource
    rw [isBaselineRuleId, hsource, Bool.true_or]
  · simp only [validateThirdPartySource, List.append_eq_nil_iff] at hsource
    obtain ⟨-, hallowed⟩ := hsource
    split at hallowed
    · cases hallowed
    · next hnamespace =>
      unfold ruleNamespace at hnamespace
      split at hnamespace
      · next hnamespaced => rw [isBaselineRuleId, hnamespaced, Bool.or_true]
      · cases hnamespace

omit [Host] in
theorem validateLintRatchetRegistry_ids {ratchets : List (LintRatchetConfig N)}
    {options : ValidateLintRatchetRegistryOptions}
    (h : validateLintRatchetRegistry ratchets options = []) :
    (ratchets.map fun ratchet => ratchet.id).Nodup := by
  simp only [validateLintRatchetRegistry, List.append_eq_nil_iff, failWhen, ite_eq_right_iff,
    reduceCtorEq, imp_false, Bool.not_eq_true, Bool.not_eq_false'] at h
  exact ((sortBy_unchanged_iff compareCodeUnits_strict _).2 ((isSortedUnique_iff _).1 h.1.1)).1

/-- The test that is generated for a ratchet. -/
def generatedTest (currentById : LintRatchetCurrentById N) (ruleSourceHashesById : JsMap JsString)
    (ratchet : LintRatchetConfig N) : LintRatchetBaselineTest N :=
  baselineTestFromConfig ratchet (currentById.get ratchet.id)
    ((ruleSourceHashesById.get ratchet.id).getD [])

variable {ratchets : List (LintRatchetConfig N)} {options : ValidateLintRatchetRegistryOptions}
  {currentById : LintRatchetCurrentById N} {ruleSourceHashesById : JsMap JsString}
  {workflowVocabulary : LintRatchetWorkflowVocabulary} {generated : LintRatchetBaseline N}

theorem builtTests_some {tests : Entries (LintRatchetBaselineTest N)}
    (h : builtTests currentById ruleSourceHashesById ratchets = some tests) :
    tests = ratchets.map fun ratchet =>
      (ratchet.id, generatedTest currentById ruleSourceHashesById ratchet) := by
  induction ratchets generalizing tests with
  | nil =>
    cases h
    rfl
  | cons ratchet ratchets ih =>
    rw [builtTests] at h
    split at h
    · next hash tests hhash htests =>
      obtain rfl := Option.some.inj h
      rw [ih htests, List.map_cons, generatedTest, hhash]
      rfl
    · cases h

theorem buildLintRatchetBaseline_total
    (h : ∀ ratchet ∈ ratchets, ∃ hash, ruleSourceHashesById.get ratchet.id = some hash) :
    ∃ generated, buildLintRatchetBaseline ratchets currentById ruleSourceHashesById
      workflowVocabulary = some generated := by
  have htests (ratchets : List (LintRatchetConfig N))
      (h : ∀ ratchet ∈ ratchets, ∃ hash, ruleSourceHashesById.get ratchet.id = some hash) :
      ∃ tests, builtTests currentById ruleSourceHashesById ratchets = some tests := by
    induction ratchets with
    | nil => exact ⟨[], rfl⟩
    | cons ratchet ratchets ih =>
      obtain ⟨hash, hhash⟩ := h ratchet List.mem_cons_self
      obtain ⟨tests, htests⟩ := ih fun r hr => h r (List.mem_cons_of_mem _ hr)
      rw [builtTests, hhash, htests]
      exact ⟨_, rfl⟩
  obtain ⟨tests, htests⟩ := htests ratchets h
  rw [buildLintRatchetBaseline, htests]
  exact ⟨_, rfl⟩

theorem own_generated (hregistry : validateLintRatchetRegistry ratchets options = [])
    (h : buildLintRatchetBaseline ratchets currentById ruleSourceHashesById workflowVocabulary =
      some generated) (testId : JsString) (test : LintRatchetBaselineTest N) :
    generated.tests.own testId = some test ↔ ∃ ratchet ∈ ratchets, ratchet.id = testId ∧
      generatedTest currentById ruleSourceHashesById ratchet = test := by
  obtain ⟨tests, htests, rfl⟩ := Option.map_eq_some_iff.1 h
  obtain rfl := builtTests_some htests
  have hkeys : (Entries.keys (ratchets.map fun ratchet =>
      (ratchet.id, generatedTest currentById ruleSourceHashesById ratchet))).Nodup := by
    rw [Entries.keys, List.map_map]
    exact validateLintRatchetRegistry_ids hregistry
  rw [own_assignAll hkeys]
  split
  · next hproto =>
    refine iff_of_false (by simp) ?_
    rintro ⟨ratchet, hr, rfl, -⟩
    have hid := (validateLintRatchetRegistry_test hregistry ratchet hr).1
    rw [hproto] at hid
    exact absurd hid (by decide)
  · rw [← Entries.mem_iff_lookup hkeys, List.mem_map]
    simp only [Prod.mk.injEq]

/-- A path that the baseline can name, and the item that it can write there. -/
structure Committable (N : Type) [JsNumber N] (path : JsString) (item : LintRatchetMetricItem) :
    Prop where
  normalized : isNormalizedPath path = true
  named : path ≠ js "__proto__"
  count : Exact N item.count
  lines : item.lines ≠ some ⊤

/-- What a registry has collected, and hashed, can be committed. -/
structure Collection (ratchets : List (LintRatchetConfig N)) (ruleSourceHashesById : JsMap JsString)
    (currentById : LintRatchetCurrentById N) : Prop where
  hashes : ∀ ratchet ∈ ratchets, isSha256Hash ((ruleSourceHashesById.get ratchet.id).getD []) = true
  items : ∀ ratchet ∈ ratchets, ∃ items, currentById.get ratchet.id = some items ∧
    ∀ path current, items.get path = some current →
      CollectedItem N ratchet.metric current.toLintRatchetMetricItem ∧
        Committable N path current.toLintRatchetMetricItem

/-- The floor of a path is the formatted item that was collected there. -/
theorem Collection.own_items (h : Collection ratchets ruleSourceHashesById currentById)
    (hr : ratchet ∈ ratchets) (path : JsString) :
    (generatedTest currentById ruleSourceHashesById ratchet).items.own path =
      ((currentById.get ratchet.id).bind fun items => items.get path).map fun current =>
        formatItem ratchet.metric current.toLintRatchetMetricItem := by
  obtain ⟨items, hitems, hall⟩ := h.items ratchet hr
  rw [generatedTest, hitems, Option.bind_some]
  refine (own_positiveMetricItems ratchet.metric items path).trans ?_
  cases hget : items.get path with
  | none =>
    rw [Option.filter_none, Option.map_none, ite_self]
  | some current =>
    obtain ⟨hcollected, hcommittable⟩ := hall path current hget
    rw [if_neg hcommittable.named, Option.filter_some, if_pos (by simpa using hcollected.count)]

theorem Collection.wellFormed (h : Collection ratchets ruleSourceHashesById currentById)
    (hregistry : validateLintRatchetRegistry ratchets options = []) (hr : ratchet ∈ ratchets) :
    TestWellFormed ratchet.id (generatedTest currentById ruleSourceHashesById ratchet) := by
  obtain ⟨hid, hrule, hoptions⟩ := validateLintRatchetRegistry_test hregistry ratchet hr
  have hitem {path : JsString} {item : LintRatchetMetricItem}
      (hown : (generatedTest currentById ruleSourceHashesById ratchet).items.own path = some item) :
      ∃ current : LintRatchetCurrentItem N,
        CollectedItem N ratchet.metric current.toLintRatchetMetricItem ∧
          Committable N path current.toLintRatchetMetricItem ∧
          formatItem ratchet.metric current.toLintRatchetMetricItem = item := by
    rw [h.own_items hr] at hown
    obtain ⟨current, hget, hformat⟩ := Option.map_eq_some_iff.1 hown
    obtain ⟨items, hitems, hall⟩ := h.items ratchet hr
    rw [hitems] at hget
    obtain ⟨hcollected, hcommittable⟩ := hall path current hget
    exact ⟨current, hcollected, hcommittable, hformat⟩
  refine ⟨hid, hrule, computeLintRatchetConfigHash_sha256 ratchet, .inr (h.hashes ratchet hr),
    fun v hv => ?_, fun path item hown => ?_, fun path item hown => ?_⟩
  · obtain ⟨w, hw, rfl⟩ := List.mem_map.1 hv
    exact ⟨isJsonValue_canonical (canonical_normalizeJsonValue w (hoptions w hw)),
      normalizeJsonValue_idem w⟩
  · obtain ⟨current, -, hcommittable, -⟩ := hitem hown
    exact ⟨hcommittable.normalized, hcommittable.named⟩
  · obtain ⟨current, hcollected, hcommittable, rfl⟩ := hitem hown
    refine ⟨(hcollected.wellFormed hcommittable.count hcommittable.lines).formatItem _, ?_⟩
    rw [formatItem_count]
    exact hcollected.count

theorem generated_envelope (h : buildLintRatchetBaseline ratchets currentById ruleSourceHashesById
      workflowVocabulary = some generated) : generated.version = annotatedVersion ∧
    generated.regenerate = some (.str workflowVocabulary.updateCommand) := by
  obtain ⟨tests, -, rfl⟩ := Option.map_eq_some_iff.1 h
  exact ⟨rfl, rfl⟩

theorem Collection.baselineWellFormed (h : Collection ratchets ruleSourceHashesById currentById)
    (hregistry : validateLintRatchetRegistry ratchets options = [])
    (hbuild : buildLintRatchetBaseline ratchets currentById ruleSourceHashesById workflowVocabulary =
      some generated) : BaselineWellFormed generated := by
  obtain ⟨hversion, hregenerate⟩ := generated_envelope hbuild
  refine ⟨by rw [hversion]; decide, fun r hr => ?_, fun testId test ht => ?_⟩
  · obtain rfl := Option.some.inj (hregenerate.symm.trans hr)
    exact .str _
  · obtain ⟨ratchet, hr, rfl, rfl⟩ := (own_generated hregistry hbuild testId test).1 ht
    refine ⟨h.wellFormed hregistry hr, fun hempty => ?_⟩
    have hhash := h.hashes ratchet hr
    change (ruleSourceHashesById.get ratchet.id).getD [] = [] at hempty
    rw [hempty] at hhash
    exact absurd hhash (by decide)

omit [JsNumber N] [Host] in
theorem registryById_of_nodup (h : (ratchets.map fun ratchet => ratchet.id).Nodup)
    (testId : JsString) (ratchet : LintRatchetConfig N) :
    (registryById ratchets).get testId = some ratchet ↔ ratchet ∈ ratchets ∧ ratchet.id = testId := by
  refine ⟨registryById_id, ?_⟩
  rintro ⟨hr, rfl⟩
  exact JsMap.get_ofList_of_mem h _ hr

theorem Collection.own_canonical (h : Collection ratchets ruleSourceHashesById currentById)
    (hregistry : validateLintRatchetRegistry ratchets options = []) (hr : ratchet ∈ ratchets)
    (path : JsString) :
    (canonicalTest (generatedTest currentById ruleSourceHashesById ratchet)).items.own path =
      (generatedTest currentById ruleSourceHashesById ratchet).items.own path := by
  have hpos := fun item hown => ((h.wellFormed hregistry hr).items path item hown).2
  rw [own_canonicalTest _ path hpos, h.own_items hr, Option.map_map]
  refine congrArg (Option.map · _) (funext fun current => ?_)
  exact formatItem_idem ratchet.metric current.toLintRatchetMetricItem

/-- The strict parser accepts what was generated. -/
theorem Collection.gateValid (h : Collection ratchets ruleSourceHashesById currentById)
    (hregistry : validateLintRatchetRegistry ratchets options = [])
    (hbuild : buildLintRatchetBaseline ratchets currentById ruleSourceHashesById workflowVocabulary =
      some generated) :
    GateValid ratchets ruleSourceHashesById workflowVocabulary (canonicalBaseline generated) := by
  refine ⟨fun ratchet hr => ?_, fun testId test ht => ?_⟩
  · have hown := (own_generated hregistry hbuild ratchet.id _).2 ⟨ratchet, hr, rfl, rfl⟩
    exact ⟨_, by rw [own_canonicalBaseline, hown, Option.map_some]⟩
  · rw [own_canonicalBaseline] at ht
    obtain ⟨test, hown, rfl⟩ := Option.map_eq_some_iff.1 ht
    obtain ⟨ratchet, hr, rfl, rfl⟩ := (own_generated hregistry hbuild testId test).1 hown
    -- the generated metadata is normalized already
    have hmeta : (canonicalTest (generatedTest currentById ruleSourceHashesById
        ratchet)).toLintRatchetBaselineGroupMeta =
          (generatedTest currentById ruleSourceHashesById ratchet).toLintRatchetBaselineGroupMeta :=
      normalizedMeta_idem
        { ruleId := ratchet.ruleId, mode := ratchet.mode, metric := ratchet.metric
          files := ratchet.files, ignores := ratchet.ignores, ruleOptions := ratchet.ruleOptions
          configHash := computeLintRatchetConfigHash ratchet
          ruleSourceHash := (ruleSourceHashesById.get ratchet.id).getD [] }
    refine ⟨ratchet, (registryById_of_nodup (validateLintRatchetRegistry_ids hregistry) _ _).2
      ⟨hr, rfl⟩, ?_, ?_, fun path item hi => ?_⟩
    · rw [validateMetadata_congr hmeta]
      simp [validateBaselineTestMetadata, pushWhen, generatedTest, baselineTestFromConfig]
    · have hne : (generatedTest currentById ruleSourceHashesById ratchet).ruleSourceHash ≠ [] :=
        ((h.baselineWellFormed hregistry hbuild).tests _ _ hown).2
      rw [validateRuleSourceHash_congr hmeta, validateBaselineRuleSourceHash, if_neg hne]
      exact pushWhen_nil.2 (decide_eq_false (by simp [generatedTest, baselineTestFromConfig]))
    · rw [h.own_canonical hregistry hr, h.own_items hr] at hi
      obtain ⟨current, hget, rfl⟩ := Option.map_eq_some_iff.1 hi
      obtain ⟨items, hitems, hall⟩ := h.items ratchet hr
      rw [hitems] at hget
      exact (hall path current hget).1.valid

theorem Collection.parses (h : Collection ratchets ruleSourceHashesById currentById)
    (hregistry : validateLintRatchetRegistry ratchets options = [])
    (hbuild : buildLintRatchetBaseline ratchets currentById ruleSourceHashesById workflowVocabulary =
      some generated) (baselineFile : JsString) :
    (parseLintRatchetBaseline (formatLintRatchetBaseline generated workflowVocabulary) ratchets
        ruleSourceHashesById workflowVocabulary defaultVersionPolicy baselineFile).baseline =
      some (canonicalBaseline generated) :=
  parseLintRatchetBaseline_accepted.2
    ⟨parse_formatLintRatchetBaseline (h.baselineWellFormed hregistry hbuild) _
      (by rw [(generated_envelope hbuild).1]; decide) _ _ _,
      h.gateValid hregistry hbuild, format_canonicalBaseline _ _ _⟩

/-- The annotation of what was generated is up to date. -/
theorem Collection.warnings (h : Collection ratchets ruleSourceHashesById currentById)
    (hregistry : validateLintRatchetRegistry ratchets options = [])
    (hbuild : buildLintRatchetBaseline ratchets currentById ruleSourceHashesById workflowVocabulary =
      some generated) (baselineFile : JsString) :
    (parseLintRatchetBaseline (formatLintRatchetBaseline generated workflowVocabulary) ratchets
        ruleSourceHashesById workflowVocabulary defaultVersionPolicy baselineFile).warnings = [] := by
  have hregenerate : (canonicalBaseline generated).regenerate =
      some (.str workflowVocabulary.updateCommand) := (generated_envelope hbuild).2
  have hparse := (parseLintRatchetBaseline_accepted.1 (h.parses hregistry hbuild baselineFile)).1
  simp only [parseLintRatchetBaseline, hparse, regenerateWarning, hregenerate, if_true]

/-! ## The gate on what was generated -/

/-- No two functions of one line and label differ, anywhere in a collection. -/
def OneComplexityEach (ratchets : List (LintRatchetConfig N))
    (currentById : LintRatchetCurrentById N) : Prop :=
  ∀ ratchet ∈ ratchets, ∀ items path current, currentById.get ratchet.id = some items →
    items.get path = some current → OneComplexity ratchet.metric current.toLintRatchetMetricItem

/-- One path of one ratchet, compared with what was generated for it. -/
theorem Collection.comparisonAt (h : Collection ratchets ruleSourceHashesById currentById)
    (hregistry : validateLintRatchetRegistry ratchets options = [])
    (hbuild : buildLintRatchetBaseline ratchets currentById ruleSourceHashesById workflowVocabulary =
      some generated) (testId path : JsString) :
    let compared := comparisonAt (canonicalBaseline generated) ratchets currentById testId path
    compared.regression = none ∧ compared.info = none ∧
      (compared.improvement = none ↔ ∀ ratchet ∈ ratchets, ratchet.id = testId →
        ∀ items current, currentById.get ratchet.id = some items → items.get path = some current →
          OneComplexity ratchet.metric current.toLintRatchetMetricItem) := by
  have hregistered := registryById_of_nodup (validateLintRatchetRegistry_ids hregistry) testId
  unfold Musi.LintRatchet.comparisonAt
  split
  · next ratchet test hratchet htest =>
    obtain ⟨hr, rfl⟩ := (hregistered ratchet).1 hratchet
    rw [own_canonicalBaseline, (own_generated hregistry hbuild ratchet.id _).2 ⟨ratchet, hr, rfl, rfl⟩,
      Option.map_some] at htest
    obtain rfl := Option.some.inj htest
    obtain ⟨items, hitems, hall⟩ := h.items ratchet hr
    have hsame (other : LintRatchetConfig N) (hother : other ∈ ratchets)
        (hid : other.id = ratchet.id) : other = ratchet :=
      Option.some.inj (((hregistered other).2 ⟨hother, hid⟩).symm.trans hratchet)
    simp only [h.own_canonical hregistry hr, h.own_items hr, hitems, Option.bind_some]
    cases hget : items.get path with
    | none =>
      refine ⟨rfl, rfl, iff_of_true rfl fun other hother hid items' current hitems' hget' => ?_⟩
      obtain rfl := hsame other hother hid
      obtain rfl := Option.some.inj (hitems.symm.trans hitems')
      rw [hget] at hget'
      cases hget'
    | some current =>
      obtain ⟨hcollected, -⟩ := hall path current hget
      have hfloor : (Option.map (fun current : LintRatchetCurrentItem N =>
          formatItem ratchet.metric current.toLintRatchetMetricItem) (some current)).filter
            (fun item => item.count > 0) =
              some (formatItem ratchet.metric current.toLintRatchetMetricItem) := by
        rw [Option.map_some, Option.filter_some, if_pos]
        simpa using hcollected.count
      simp only [hfloor]
      obtain ⟨hregression, hinfo, himprovement⟩ := compareItem_floor
        { ratchet, path, current,
          baselineItem := some (formatItem ratchet.metric current.toLintRatchetMetricItem) }
        rfl hcollected rfl
      refine ⟨hregression, hinfo, himprovement.trans ⟨?_, fun hone => ?_⟩⟩
      · intro hone other hother hid items' current' hitems' hget'
        obtain rfl := hsame other hother hid
        obtain rfl := Option.some.inj (hitems.symm.trans hitems')
        obtain rfl := Option.some.inj (hget.symm.trans hget')
        exact hone
      · exact hone ratchet hr rfl items current hitems hget
  · next hnone =>
    refine ⟨rfl, rfl, iff_of_true rfl fun ratchet hr hid _ _ _ _ => ?_⟩
    have hown := (own_generated hregistry hbuild testId _).2 ⟨ratchet, hr, hid, rfl⟩
    refine absurd ?_ (hnone ratchet (canonicalTest (generatedTest currentById ruleSourceHashesById
      ratchet)) ((hregistered ratchet).2 ⟨hr, hid⟩))
    rw [own_canonicalBaseline, hown, Option.map_some]

/-- What was generated is compared without regressions, and without improvements exactly where no two
functions of one line and label differ. -/
theorem Collection.compares (h : Collection ratchets ruleSourceHashesById currentById)
    (hregistry : validateLintRatchetRegistry ratchets options = [])
    (hbuild : buildLintRatchetBaseline ratchets currentById ruleSourceHashesById workflowVocabulary =
      some generated) :
    ∃ comparison, compareCurrentToBaseline (canonicalBaseline generated) ratchets currentById
        workflowVocabulary = some comparison ∧
      comparison.regressions = [] ∧ comparison.infos = [] ∧
      (comparison.improvements = [] ↔ OneComplexityEach ratchets currentById) := by
  have hat := h.comparisonAt hregistry hbuild
  obtain ⟨keys, -, hout, hcompare⟩ := compareCurrentToBaseline_eq (canonicalBaseline generated)
    ratchets currentById workflowVocabulary
  refine ⟨_, hcompare, ?_, ?_, ?_⟩
  · rw [sortedDeltas, sortBy_eq_nil, List.filterMap_eq_nil_iff, List.forall_mem_map]
    exact fun k _ => (hat k.1 k.2).1
  · rw [sortedDeltas, sortBy_eq_nil, List.filterMap_eq_nil_iff, List.forall_mem_map]
    exact fun k _ => (hat k.1 k.2).2.1
  · rw [sortedDeltas, sortBy_eq_nil, List.filterMap_eq_nil_iff, List.forall_mem_map]
    constructor
    · intro hnone ratchet hr items path current hitems hget
      refine (hat ratchet.id path).2.2.1 ?_ ratchet hr rfl items current hitems hget
      by_cases hk : (ratchet.id, path) ∈ keys
      · exact hnone _ hk
      · rw [hout _ hk]
    · intro hone k _
      exact (hat k.1 k.2).2.2.2 fun ratchet hr _ items current hitems hget =>
        hone ratchet hr items k.2 current hitems hget

end Host

end

end Musi.LintRatchet
