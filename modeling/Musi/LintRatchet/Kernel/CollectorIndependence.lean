import Musi.LintRatchet.Kernel.CollectorOrder
import Musi.LintRatchet.Kernel.MergeSymmetry
import Musi.LintRatchet.Kernel.OneRatchet

namespace Musi.LintRatchet
open Musi.Js
set_option autoImplicit true

section Independence
variable {N : Type} [JsNumber N]

/-! ## What a text says of the functions of a path -/

/-- The functions of a path in a document. -/
def functionsAt (document : Json N) (testId path : JsString) : Option (Json N) :=
  ((((document.field (js "tests")).bind fun tests => tests.field testId).bind fun test =>
    test.field (js "items")).bind fun items => items.field path).bind fun item =>
      item.field (js "perFunction")

theorem functionsAt_wire (document : Json N) (testId path : JsString) :
    functionsAt (wire document) testId path = (functionsAt document testId path).map wire := by
  have hbind (o : Option (Json N)) (k : JsString) :
      ((o.map wire).bind fun v => v.field k) = (o.bind fun v => v.field k).map wire := by
    cases o with
    | none => rfl
    | some v => exact wire_field v k
  simp only [functionsAt, wire_field, hbind]

theorem functionsAt_baselineFields (baseline : LintRatchetBaseline N) (testId path : JsString) :
    functionsAt (.obj (baselineFields baseline)) testId path =
      ((baseline.tests.own testId).bind fun test => test.items.own path).bind fun item =>
        item.perFunction.map fun functions => .arr (functions.map complexityFunctionJson) := by
  have htests : (Json.obj (baselineFields baseline)).field (js "tests") = some (.obj
      (baseline.tests.entries.map fun e => (e.1, .obj (testFields e.2)))) := lookup_tests baseline
  have htest : (Json.obj (baseline.tests.entries.map fun e =>
      (e.1, .obj (testFields e.2)))).field testId =
        (baseline.tests.own testId).map fun test => .obj (testFields test) :=
    Entries.lookup_map (fun _ (test : LintRatchetBaselineTest N) => Json.obj (testFields test))
      baseline.tests.entries testId
  rw [functionsAt, htests, Option.bind_some, htest]
  cases baseline.tests.own testId with
  | none => rfl
  | some test =>
    have hitems : (Json.obj (testFields test)).field (js "items") = some (itemsJson test.items) :=
      lookup_items test
    have hitem : (itemsJson test.items : Json N).field path =
        (test.items.own path).map itemJson :=
      Entries.lookup_map (fun _ => itemJson) test.items.entries path
    rw [Option.map_some, Option.bind_some, hitems, Option.bind_some, hitem, Option.bind_some]
    cases test.items.own path with
    | none => rfl
    | some item => exact field_itemJson item (js "perFunction")

/-! ## The document can be built -/

omit [JsNumber N] in
theorem built_normalizeJsonValue (v : Json N) : Built (normalizeJsonValue v) := by
  induction v using Json.induct with
  | null => exact .null
  | bool b => exact .bool b
  | num n => exact .num n
  | str s => exact .str s
  | arr vs ih =>
    rw [normalizeJsonValue, normalizeJsonList_eq]
    refine .arr fun v hv => ?_
    obtain ⟨w, hw, rfl⟩ := List.mem_map.1 hv
    exact ih w hw
  | obj es ih =>
    rw [normalizeJsonValue, normalizeJsonFields_eq]
    refine .obj (Record.nodup _) (Record.ordered _) fun e he => ?_
    obtain ⟨f, hf, rfl⟩ := List.mem_map.1 (mem_sortBy.1 (Record.mem_assignAll he))
    exact ih f hf

theorem built_itemJson (item : LintRatchetMetricItem) : Built (itemJson item : Json N) := by
  refine built_obj itemNames (itemFields_sublist item) (by decide) (by decide) fun e he => ?_
  simp only [itemFields, List.mem_append, List.mem_singleton, List.mem_map, Option.mem_toList] at he
  rcases he with (((rfl | ⟨l, -, rfl⟩) | ⟨m, -, rfl⟩) | ⟨fs, -, rfl⟩) | ⟨s, -, rfl⟩
  · exact .num _
  · cases l with
    | top => exact .null
    | coe n => exact .num _
  · exact .num _
  · refine .arr fun v hv => ?_
    obtain ⟨f, -, rfl⟩ := List.mem_map.1 hv
    refine built_obj [js "line", js "label", js "complexity"] (List.Sublist.refl _) (by decide)
      (by decide) ?_
    simp only [List.forall_mem_cons]
    exact ⟨.num _, .str _, .num _, by simp⟩
  · exact .str s

variable [Host]

theorem built_canonicalTest (test : LintRatchetBaselineTest N) :
    Built (.obj (testFields (canonicalTest test))) := by
  have hstrings (values : List JsString) : Built (stringsJson values : Json N) := by
    refine .arr fun v hv => ?_
    obtain ⟨s, -, rfl⟩ := List.mem_map.1 hv
    exact .str s
  have hitems (items : Record LintRatchetMetricItem) : Built (itemsJson items : Json N) := by
    refine .obj ?_ ?_ fun e he => ?_
    · rw [Entries.keys_map fun _ => itemJson]
      exact items.nodup
    · rw [ownKeyOrder_map fun _ => itemJson, items.ordered]
    · obtain ⟨f, -, rfl⟩ := List.mem_map.1 he
      exact built_itemJson f.2
  have hoptions : Built (.arr (normalizeRuleOptions test.ruleOptions)) := by
    refine .arr fun v hv => ?_
    obtain ⟨w, -, rfl⟩ := List.mem_map.1 hv
    exact built_normalizeJsonValue w
  refine built_obj [js "ruleId", js "mode", js "metric", js "files", js "ignores",
    js "ruleOptions", js "configHash", js "ruleSourceHash", js "items"] (List.Sublist.refl _)
    (by decide) (by decide) ?_
  simp only [testFields, metaFields, List.cons_append, List.nil_append, List.forall_mem_cons]
  exact ⟨.str _, .str _, .str _, hstrings _, hstrings _, hoptions, .str _, .str _, hitems _, by simp⟩

theorem built_canonicalBaseline {baseline : LintRatchetBaseline N}
    (h : ∀ r ∈ baseline.regenerate, Built r) :
    Built (.obj (baselineFields (canonicalBaseline baseline))) := by
  refine built_obj _ (baselineFields_sublist _) (by decide) (by decide) fun e he => ?_
  simp only [baselineFields, regenerateField, List.mem_append, List.mem_singleton, List.mem_map,
    Option.mem_toList] at he
  rcases he with (rfl | ⟨r, hr, rfl⟩) | rfl
  · exact .num _
  · exact h r hr
  · refine .obj ?_ ?_ fun e he => ?_
    · rw [Entries.keys_map fun _ (t : LintRatchetBaselineTest N) => Json.obj (testFields t)]
      exact (canonicalBaseline baseline).tests.nodup
    · rw [ownKeyOrder_map fun _ (t : LintRatchetBaselineTest N) => Json.obj (testFields t),
        (canonicalBaseline baseline).tests.ordered]
    · obtain ⟨f, hf, rfl⟩ := List.mem_map.1 he
      have hown := Record.mem_entries.1 hf
      rw [own_canonicalBaseline] at hown
      obtain ⟨test, -, htest⟩ := Option.map_eq_some_iff.1 hown
      rw [← htest]
      exact built_canonicalTest test

/-- Texts that are the same list the same functions. -/
theorem functionsAt_of_format {left right : LintRatchetBaseline N}
    {workflowVocabulary : LintRatchetWorkflowVocabulary} (hl : ∀ r ∈ left.regenerate, Built r)
    (hr : ∀ r ∈ right.regenerate, Built r)
    (h : formatLintRatchetBaseline left workflowVocabulary =
      formatLintRatchetBaseline right workflowVocabulary) (testId path : JsString) :
    (functionsAt (.obj (baselineFields (canonicalBaseline left))) testId path).map wire =
      (functionsAt (.obj (baselineFields (canonicalBaseline right))) testId path).map wire := by
  rw [formatLintRatchetBaseline_eq, formatLintRatchetBaseline_eq, baselineText, baselineText] at h
  have htext := List.append_cancel_right h
  rw [stringifyIndented_eq_iff (built_canonicalBaseline hl) (built_canonicalBaseline hr)] at htext
  rw [← functionsAt_wire, ← functionsAt_wire, htext]

/-! ## Functions that a message names -/

omit [Host] in
theorem numberOfDigits_exact {digits : JsString} (h : numberOfDigits N digits = some n) :
    Exact N n := by
  obtain ⟨k, hk, rfl⟩ := Option.map_eq_some_iff.1 h
  have hround := JsNumber.ofInt_toInt hk
  have hnonneg : 0 ≤ k := by
    by_cases hzero : digitsValue digits = 0
    · rw [hzero, JsNumber.toInt_ofInt (by decide)] at hk
      exact (Option.some.inj hk).le
    · have hless := JsNumber.less_ofInt (N := N) (j := 0) (k := k) (by decide)
      rw [hround, JsNumber.less_ofInt (by decide)] at hless
      have hpos : (0 : Int) < digitsValue digits := by omega
      rw [decide_eq_true hpos] at hless
      exact (of_decide_eq_true hless.symm).le
  rw [Exact, Int.toNat_of_nonneg hnonneg, hround]
  exact hk

omit [Host] in
theorem parseComplexitySeverityMessage_wellFormed {ratchetId path : JsString}
    {message : ESLintMessage N} {f : LintRatchetComplexityFunction}
    (h : parseComplexitySeverityMessage ratchetId path message = .ok f) : FunctionWellFormed N f := by
  unfold parseComplexitySeverityMessage at h
  split at h
  · cases h
  · split at h
    · cases h
    · next label complexity hmatch =>
      split at h
      · cases h
      · next line hline =>
        cases h
        obtain ⟨⟨matched, digits⟩, hm, hdigits⟩ := Option.bind_eq_some_iff.1 hmatch
        obtain ⟨value, hvalue, he⟩ := Option.map_eq_some_iff.1 hdigits
        cases he
        obtain ⟨hbind, hnonneg⟩ := Option.filter_eq_some_iff.1 hline
        obtain ⟨m, -, hint⟩ := Option.bind_eq_some_iff.1 hbind
        refine ⟨?_, ?_, numberOfDigits_exact hvalue⟩
        · rw [Exact, Int.toNat_of_nonneg (of_decide_eq_true hnonneg), JsNumber.ofInt_toInt hint]
          exact hint
        · unfold complexityMessageMatch at hm
          simp only [Option.bind_eq_bind, Option.bind_eq_some_iff] at hm
          obtain ⟨_, -, _, -, _, -, _, -, label, -, hm⟩ := hm
          split at hm
          · next hlabel =>
            cases hm
            exact hlabel.1
          · cases hm

omit [Host] in
theorem reduceMessage_complexity {ratchet : LintRatchetConfig N} {path : JsString}
    {message : ESLintMessage N} {metric : MetricFinding}
    (hmetric : ratchet.metric = .complexitySeverity)
    (h : reduceMessage ratchet path message = .ok metric) :
    ∃ f, parseComplexitySeverityMessage ratchet.id path message = .ok f ∧
      metric = { complexity := some f } := by
  rw [reduceMessage, hmetric] at h
  obtain ⟨-, -, h⟩ := bind_ok.1 h
  obtain ⟨f, hf, h⟩ := bind_ok.1 h
  exact ⟨f, hf, (Except.ok.inj h).symm⟩

omit [Host] in
theorem wire_complexityFunctionJson {f : LintRatchetComplexityFunction}
    (h : FunctionWellFormed N f) :
    wire (complexityFunctionJson f : Json N) = complexityFunctionJson f := by
  have hnum {n : Nat} (hn : Exact N n) : wire (natJson n : Json N) = natJson n := by
    rw [natJson, wire, if_pos hn.finite]
  rw [complexityFunctionJson, wire_obj]
  simp only [List.map_cons, List.map_nil, hnum h.line, hnum h.complexity, wire_str]

omit [Host] in
theorem complexityFunctionJson_injective {f g : LintRatchetComplexityFunction}
    (hf : FunctionWellFormed N f) (hg : FunctionWellFormed N g)
    (h : (complexityFunctionJson f : Json N) = complexityFunctionJson g) : f = g := by
  have hparse := parseComplexityFunction_json hf (js "a")
  rw [h, parseComplexityFunction_json hg] at hparse
  simpa [Parsed.ok] using hparse.symm

/-! ## Order independence -/

/-- The same bytes for the results in every order, and for every way to split their files. -/
def OrderIndependent (ratchet : LintRatchetConfig N) (ruleSourceHash repoRootPath : JsString)
    (workflowVocabulary : LintRatchetWorkflowVocabulary) (results : List (ESLintFileResult N)) :
    Prop :=
  (∀ results', Rearranged results results' →
    collectedText ratchet ruleSourceHash repoRootPath workflowVocabulary results' =
      collectedText ratchet ruleSourceHash repoRootPath workflowVocabulary results) ∧
  ∀ spawnEslint lint, LintsAlone spawnEslint lint → ∀ files chunks, chunks.flatten = files →
    spawnEslint files = .ok results →
      ∃ results', runEslintForChunks spawnEslint chunks = .ok results' ∧
        collectedText ratchet ruleSourceHash repoRootPath workflowVocabulary results' =
          collectedText ratchet ruleSourceHash repoRootPath workflowVocabulary results

/-- The counts of the items add up to the messages of the rule. -/
def CountConserved (ratchet : LintRatchetConfig N) (repoRootPath : JsString)
    (results : List (ESLintFileResult N)) : Prop :=
  ∀ items, itemsFromResults ratchet results repoRootPath = .ok items →
    totalCount items = (results.flatMap fun result => result.messages).countP fun message =>
      message.ruleId = some ratchet.ruleId

/-- A message of the ratchet's rule under a path. -/
structure MessageAt (ratchet : LintRatchetConfig N) (repoRootPath : JsString)
    (results : List (ESLintFileResult N)) (path : JsString) (x : JsString × ESLintMessage N) :
    Prop where
  mem : x ∈ located results
  rule : x.2.ruleId = some ratchet.ruleId
  path : relativePathForRoot x.1 repoRootPath = path

/-- Where the messages of a complexity ratchet can all be read, functions of one path, one
complexity and one line whose labels compare as equal have one label. A test or a path named
`__proto__` does not reach the file. -/
def TiesAgree (ratchet : LintRatchetConfig N) (repoRootPath : JsString)
    (results : List (ESLintFileResult N)) : Prop :=
  ratchet.metric = .complexitySeverity → ratchet.id ≠ js "__proto__" →
    (∀ path x, MessageAt ratchet repoRootPath results path x →
      ∃ metric, reduceMessage ratchet path x.2 = .ok metric) →
    ∀ path x y, path ≠ js "__proto__" → MessageAt ratchet repoRootPath results path x →
      MessageAt ratchet repoRootPath results path y →
      ∀ f g, parseComplexitySeverityMessage ratchet.id path x.2 = .ok f →
        parseComplexitySeverityMessage ratchet.id path y.2 = .ok g →
        f.complexity = g.complexity → f.line = g.line →
        Host.localeCompare f.label g.label = 0 → f.label = g.label

variable {ratchet : LintRatchetConfig N} {ruleSourceHash repoRootPath : JsString}
  {workflowVocabulary : LintRatchetWorkflowVocabulary} {results : List (ESLintFileResult N)}

/-- What is collected once the messages are read. -/
theorem collectedText_ok {found : List (Option (Finding N))}
    (h : (located results).mapM (findingOf ratchet repoRootPath) = .ok found) :
    collectedText ratchet ruleSourceHash repoRootPath workflowVocabulary results =
      some (formatLintRatchetBaseline (collectedDocument ratchet ruleSourceHash workflowVocabulary
        (itemsOf found.reduceOption)) workflowVocabulary) := by
  rw [collectedText, itemsFromResults_eq, h]
  exact congrArg (Option.map fun baseline => formatLintRatchetBaseline baseline workflowVocabulary)
    (collectedBaseline_eq ratchet ruleSourceHash workflowVocabulary _)

/-- What a read message of the rule is to a complexity ratchet. -/
theorem findingOf_some {x : JsString × ESLintMessage N} {finding : Finding N}
    (h : findingOf ratchet repoRootPath x = .ok (some finding)) :
    x.2.ruleId = some ratchet.ruleId ∧
      ∃ metric, reduceMessage ratchet (relativePathForRoot x.1 repoRootPath) x.2 = .ok metric ∧
        finding = findingFor ratchet repoRootPath x.1 x.2 metric := by
  unfold findingOf at h
  dsimp only at h
  split at h
  · cases h
  · split at h
    · cases h
    · next hrule =>
      refine ⟨not_not.1 hrule, ?_⟩
      cases hr : reduceMessage ratchet (relativePathForRoot x.1 repoRootPath) x.2 with
      | error e =>
        rw [hr] at h
        cases h
      | ok metric =>
        rw [hr] at h
        exact ⟨metric, rfl, (Option.some.inj (Except.ok.inj h)).symm⟩

theorem findingOf_rule {x : JsString × ESLintMessage N} {metric : MetricFinding}
    (hfatal : isFatalMessage x.2 = false) (hrule : x.2.ruleId = some ratchet.ruleId)
    (h : reduceMessage ratchet (relativePathForRoot x.1 repoRootPath) x.2 = .ok metric) :
    findingOf ratchet repoRootPath x =
      .ok (some (findingFor ratchet repoRootPath x.1 x.2 metric)) := by
  unfold findingOf
  dsimp only
  rw [hfatal, if_neg Bool.false_ne_true, if_neg (not_not.2 hrule), h]
  rfl

/-- Every finding is that of a message. -/
theorem mem_findings {found : List (Option (Finding N))}
    (h : (located results).mapM (findingOf ratchet repoRootPath) = .ok found) {finding : Finding N}
    (hf : finding ∈ found.reduceOption) :
    ∃ x ∈ located results, findingOf ratchet repoRootPath x = .ok (some finding) :=
  mapM_ok_mem h (List.reduceOption_mem_iff.1 hf)

/-- A complexity finding is the function that its message names. -/
theorem finding_complexity (hmetric : ratchet.metric = .complexitySeverity)
    {found : List (Option (Finding N))}
    (h : (located results).mapM (findingOf ratchet repoRootPath) = .ok found) {path : JsString}
    {f : LintRatchetComplexityFunction}
    (hf : f ∈ (found.reduceOption.filter fun finding => finding.path = path).filterMap
      fun finding => finding.metric.complexity) :
    ∃ x, MessageAt ratchet repoRootPath results path x ∧
      parseComplexitySeverityMessage ratchet.id path x.2 = .ok f := by
  obtain ⟨finding, hmem, hcomplexity⟩ := List.mem_filterMap.1 hf
  obtain ⟨hmem, hpath⟩ := List.mem_filter.1 hmem
  obtain ⟨x, hx, hfinding⟩ := mem_findings h hmem
  obtain ⟨hrule, metric, hreduce, rfl⟩ := findingOf_some hfinding
  obtain rfl := of_decide_eq_true hpath
  obtain ⟨g, hparse, rfl⟩ := reduceMessage_complexity hmetric hreduce
  cases hcomplexity
  exact ⟨x, ⟨hx, hrule, rfl⟩, hparse⟩

omit [JsNumber N] in
theorem compareComplexityFunction_zero {f g : LintRatchetComplexityFunction} :
    compareComplexityFunction f g = 0 ↔
      f.complexity = g.complexity ∧ f.line = g.line ∧ Host.localeCompare f.label g.label = 0 := by
  unfold compareComplexityFunction
  grind

/-- Where ties agree, the order of the messages does not reach the file. -/
theorem collectedText_perm (hties : TiesAgree ratchet repoRootPath results)
    {results' : List (ESLintFileResult N)} (hp : (located results).Perm (located results')) :
    collectedText ratchet ruleSourceHash repoRootPath workflowVocabulary results' =
      collectedText ratchet ruleSourceHash repoRootPath workflowVocabulary results := by
  cases hm : (located results).mapM (findingOf ratchet repoRootPath) with
  | error e =>
    cases hm' : (located results').mapM (findingOf ratchet repoRootPath) with
    | error e' =>
      rw [collectedText, collectedText, itemsFromResults_eq, itemsFromResults_eq, hm, hm']
      rfl
    | ok found' =>
      obtain ⟨found, hfound, -⟩ := mapM_ok_perm hp.symm hm'
      rw [hm] at hfound
      cases hfound
  | ok found =>
    obtain ⟨found', hfound', hperm⟩ := mapM_ok_perm hp hm
    rw [collectedText_ok hm, collectedText_ok hfound']
    refine congrArg some (format_collectedDocument ratchet ruleSourceHash workflowVocabulary
      fun hid path => own_itemsOf_perm (hperm.filterMap id) path fun hmetric hproto => ?_).symm
    intro f hf g hg hzero
    obtain ⟨x, hx, hparse⟩ := finding_complexity hmetric hm hf
    obtain ⟨y, hy, hparse'⟩ := finding_complexity hmetric hm hg
    obtain ⟨hcomplexity, hline, hlocale⟩ := compareComplexityFunction_zero.1 hzero
    have hread (path : JsString) (x : JsString × ESLintMessage N)
        (hx : MessageAt ratchet repoRootPath results path x) :
        ∃ metric, reduceMessage ratchet path x.2 = .ok metric := by
      obtain ⟨o, -, ho⟩ := mapM_ok_of_mem hm hx.mem
      obtain rfl := hx.path
      cases hr : reduceMessage ratchet (relativePathForRoot x.1 repoRootPath) x.2 with
      | ok metric => exact ⟨metric, rfl⟩
      | error e =>
        unfold findingOf at ho
        dsimp only at ho
        rw [if_neg (not_not.2 hx.rule), hr] at ho
        split at ho <;> cases ho
    have hlabel := hties hmetric hid hread path x y hproto hx hy f g hparse hparse' hcomplexity
      hline hlocale
    cases f
    cases g
    simp only at hcomplexity hline hlabel
    rw [hcomplexity, hline, hlabel]

/-! ## Ties that do not agree -/

/-- The file lists the functions of a path in the order of the comparator. -/
theorem functionsAt_collected (hmetric : ratchet.metric = .complexitySeverity)
    (hid : ratchet.id ≠ js "__proto__") {path : JsString} (hproto : path ≠ js "__proto__")
    {findings : List (Finding N)} {f : LintRatchetComplexityFunction} {fs : ComplexityFunctions}
    (hfs : (findings.filter fun finding => finding.path = path).filterMap
      (fun finding => finding.metric.complexity) = f :: fs) :
    functionsAt (.obj (baselineFields (canonicalBaseline (collectedDocument ratchet ruleSourceHash
        workflowVocabulary (itemsOf findings))))) ratchet.id path =
      some (.arr ((sortBy compareComplexityFunction (f :: fs)).map complexityFunctionJson)) := by
  rcases itemFor_itemOf (findings.filter fun finding => finding.path = path) with
    ⟨hnil, -⟩ | ⟨item, hitem, hof⟩
  · rw [hnil] at hfs
    cases hfs
  · have hpositive : item.count > 0 := by
      have hne : findings.filter (fun finding => finding.path = path) ≠ [] := fun he => by
        rw [he] at hfs
        cases hfs
      have hlength := List.length_pos_iff.2 hne
      have hcount := hof.count
      omega
    obtain ⟨m, hmax⟩ : ∃ m, maxComplexityFor
        (some (sortBy compareComplexityFunction (f :: fs))) = some m := by
      rw [maxComplexityFor_perm (sortBy_perm _ _)]
      exact ⟨_, rfl⟩
    have hstamp : (stampFingerprint (identitiesFor findings path) item).count = item.count ∧
        (stampFingerprint (identitiesFor findings path) item).perFunction = item.perFunction := by
      rw [stampFingerprint]
      split <;> exact ⟨rfl, rfl⟩
    have hsorted : sortedComplexityFunctions (stampFingerprint (identitiesFor findings path)
        item).toLintRatchetMetricItem = some (sortBy compareComplexityFunction (f :: fs)) := by
      rw [sortedComplexityFunctions, hstamp.2, hof.perFunction, hfs, listed, if_neg (by simp),
        Option.map_some]
    have hformat := formatItem_complexity hsorted hmax
    have hown : (positiveMetricItems ratchet.metric (some (itemsOf findings))).own path =
        some (formatItem .complexitySeverity
          (stampFingerprint (identitiesFor findings path) item).toLintRatchetMetricItem) := by
      rw [own_positiveMetricItems, if_neg hproto, get_itemsOf, hitem, Option.map_some,
        Option.filter_some, hstamp.1, decide_eq_true hpositive, if_pos rfl, Option.map_some, hmetric]
    rw [functionsAt_baselineFields, own_canonicalBaseline, own_collectedDocument, if_neg hid,
      if_pos rfl, Option.map_some, Option.bind_some]
    have hitems : (canonicalTest (collectedTest ratchet ruleSourceHash (itemsOf findings))).items.own
        path = some (formatItem .complexitySeverity
          (stampFingerprint (identitiesFor findings path) item).toLintRatchetMetricItem) := by
      refine (own_canonicalItems ratchet.metric
        (positiveMetricItems ratchet.metric (some (itemsOf findings))) path).trans ?_
      rw [hown, Option.filter_some, formatItem_count, hstamp.1, decide_eq_true hpositive, if_pos rfl,
        Option.map_some, hmetric, formatItem_idem]
    rw [hitems, Option.bind_some, hformat, Option.map_some]

variable (ruleSourceHash workflowVocabulary) in
/-- Every message of a path can come first, and then its function is the first of its ties. -/
theorem collectedText_first (hfatal : ∀ x ∈ located results, isFatalMessage x.2 = false)
    (hmetric : ratchet.metric = .complexitySeverity) (hid : ratchet.id ≠ js "__proto__")
    (hread : ∀ path x, MessageAt ratchet repoRootPath results path x →
      ∃ metric, reduceMessage ratchet path x.2 = .ok metric) {path : JsString}
    (hproto : path ≠ js "__proto__") {x : JsString × ESLintMessage N}
    (hx : MessageAt ratchet repoRootPath results path x) {f : LintRatchetComplexityFunction}
    (hf : parseComplexitySeverityMessage ratchet.id path x.2 = .ok f) :
    ∃ results' items fs, Rearranged results results' ∧
      collectedText ratchet ruleSourceHash repoRootPath workflowVocabulary results' =
        some (formatLintRatchetBaseline (collectedDocument ratchet ruleSourceHash workflowVocabulary
          items) workflowVocabulary) ∧
      functionsAt (.obj (baselineFields (canonicalBaseline (collectedDocument ratchet ruleSourceHash
        workflowVocabulary items)))) ratchet.id path =
          some (.arr ((sortBy compareComplexityFunction (f :: fs)).map complexityFunctionJson)) ∧
      ∀ g ∈ f :: fs, FunctionWellFormed N g := by
  obtain ⟨results', hrearranged, rest, hlocated⟩ := exists_rearranged_first hx.mem
  have hperm := hrearranged.located
  have hall (y : JsString × ESLintMessage N) (hy : y ∈ located results') :
      ∃ o, findingOf ratchet repoRootPath y = .ok o := by
    have hy' := hperm.mem_iff.2 hy
    by_cases hrule : y.2.ruleId = some ratchet.ruleId
    · obtain ⟨metric, hmetric⟩ := hread _ y ⟨hy', hrule, rfl⟩
      exact ⟨_, findingOf_rule (hfatal y hy') hrule hmetric⟩
    · unfold findingOf
      dsimp only
      rw [hfatal y hy', if_neg Bool.false_ne_true, if_pos hrule]
      exact ⟨_, rfl⟩
  obtain ⟨found, hfound⟩ := mapM_ok_of_forall hall
  obtain ⟨metric, hreduce⟩ := hread path x hx
  obtain ⟨g, hg, rfl⟩ := reduceMessage_complexity hmetric hreduce
  rw [hf] at hg
  cases hg
  obtain rfl := hx.path
  have hhead := findingOf_rule (hfatal x hx.mem) hx.rule hreduce
  obtain ⟨tail, rfl⟩ : ∃ tail, found = some (findingFor ratchet repoRootPath x.1 x.2
      { complexity := some f }) :: tail := by
    have hforall := mapM_ok.1 hfound
    rw [hlocated] at hforall
    cases hforall with
    | @cons _ o _ tail ho _ =>
      rw [hhead] at ho
      cases ho
      exact ⟨tail, rfl⟩
  set findings := (some (findingFor ratchet repoRootPath x.1 x.2 { complexity := some f }) ::
    tail).reduceOption with hfindings
  have hfunctions : ∃ fs, (findings.filter fun finding =>
      finding.path = relativePathForRoot x.1 repoRootPath).filterMap
        (fun finding => finding.metric.complexity) = f :: fs := by
    rw [hfindings, List.reduceOption_cons_of_some,
      List.filter_cons_of_pos (by simp [findingFor])]
    exact ⟨_, List.filterMap_cons_some rfl⟩
  obtain ⟨fs, hfs⟩ := hfunctions
  refine ⟨results', itemsOf findings, fs, hrearranged, collectedText_ok hfound,
    functionsAt_collected hmetric hid hproto hfs, fun g hg => ?_⟩
  rw [← hfs] at hg
  obtain ⟨y, -, hparse⟩ := finding_complexity hmetric hfound hg
  exact parseComplexitySeverityMessage_wellFormed hparse

/-- Bytes that no order changes tell the labels of tied functions apart. -/
theorem tiesAgree_of_independent (hfatal : ∀ x ∈ located results, isFatalMessage x.2 = false)
    (h : ∀ results', Rearranged results results' →
      collectedText ratchet ruleSourceHash repoRootPath workflowVocabulary results' =
        collectedText ratchet ruleSourceHash repoRootPath workflowVocabulary results) :
    TiesAgree ratchet repoRootPath results := by
  intro hmetric hid hread path x y hproto hx hy f g hf hg hcomplexity hline hlocale
  obtain ⟨left, items, fs, hleft, htext, hfunctions, hwf⟩ :=
    collectedText_first ruleSourceHash workflowVocabulary hfatal hmetric hid hread hproto hx hf
  obtain ⟨right, items', gs, hright, htext', hfunctions', hwf'⟩ :=
    collectedText_first ruleSourceHash workflowVocabulary hfatal hmetric hid hread hproto hy hg
  have hsame := (h left hleft).trans (h right hright).symm
  rw [htext, htext', Option.some.injEq] at hsame
  have hbuilt (items : JsMap (LintRatchetCurrentItem N)) : ∀ r ∈ (collectedDocument ratchet
      ruleSourceHash workflowVocabulary items).regenerate, Built r := by
    rintro _ ⟨⟩
    exact .str _
  have hwire := functionsAt_of_format (hbuilt items) (hbuilt items') hsame ratchet.id path
  rw [hfunctions, hfunctions', Option.map_some, Option.map_some, wire_arr, wire_arr,
    Option.some.injEq, Json.arr.injEq, List.map_map, List.map_map] at hwire
  have hsorted : sortBy compareComplexityFunction (f :: fs) =
      sortBy compareComplexityFunction (g :: gs) := by
    refine eq_of_map_eq hwire fun a ha b hb hab => ?_
    have ha' := hwf a (mem_sortBy.1 ha)
    have hb' := hwf' b (mem_sortBy.1 hb)
    simp only [Function.comp_apply, wire_complexityFunctionJson ha',
      wire_complexityFunctionJson hb'] at hab
    exact complexityFunctionJson_injective ha' hb' hab
  have hconsistent := compareComplexityFunction_consistent
  have htie : compareComplexityFunction f g = 0 :=
    compareComplexityFunction_zero.2 ⟨hcomplexity, hline, hlocale⟩
  have hfirst := find?_sortBy_cons hconsistent f fs
  have hfirst' := find?_sortBy_cons hconsistent g gs
  -- what ties with one of the two ties with the other
  have hclass : (fun a => decide (compareComplexityFunction f a = 0)) =
      fun a => decide (compareComplexityFunction g a = 0) := by
    funext a
    refine decide_eq_decide.2 ?_
    have hswap := hconsistent.zero_of_le ((hconsistent.swap g f).2 htie.ge)
      htie.le
    constructor
    · intro ha
      exact hconsistent.zero_of_le (hconsistent.trans hswap.le ha.le)
        (hconsistent.trans ((hconsistent.swap a f).2 ha.ge) htie.le)
    · intro ha
      exact hconsistent.zero_of_le (hconsistent.trans htie.le ha.le)
        (hconsistent.trans ((hconsistent.swap a g).2 ha.ge) hswap.le)
  rw [hsorted, hclass, hfirst', Option.some.injEq] at hfirst
  rw [hfirst]

/-- Every message of the rule is counted once. -/
theorem countConserved (ratchet : LintRatchetConfig N) (repoRootPath : JsString)
    (results : List (ESLintFileResult N)) : CountConserved ratchet repoRootPath results := by
  intro items hitems
  rw [itemsFromResults_eq] at hitems
  cases hm : (located results).mapM (findingOf ratchet repoRootPath) with
  | error e =>
    rw [hm] at hitems
    cases hitems
  | ok found =>
    rw [hm] at hitems
    obtain rfl := Except.ok.inj hitems
    have hmessages : (results.flatMap fun result => result.messages) =
        (located results).map Prod.snd := by
      simp [located, List.map_flatMap, Function.comp_def]
    have hcount {xs : List (JsString × ESLintMessage N)} {os : List (Option (Finding N))}
        (h : List.Forall₂ (fun x o => findingOf ratchet repoRootPath x = .ok o) xs os) :
        os.reduceOption.length = xs.countP fun x => x.2.ruleId = some ratchet.ruleId := by
      induction h with
      | nil => rfl
      | @cons x o _ _ ho _ ih =>
        cases o with
        | none =>
          have hrule : x.2.ruleId ≠ some ratchet.ruleId := fun hrule => by
            unfold findingOf at ho
            dsimp only at ho
            rw [if_neg (not_not.2 hrule)] at ho
            cases hr : reduceMessage ratchet (relativePathForRoot x.1 repoRootPath) x.2 <;>
              rw [hr] at ho <;> split at ho <;> cases ho
          rw [List.reduceOption_cons_of_none, ih, List.countP_cons_of_neg (by simpa using hrule)]
        | some finding =>
          rw [List.reduceOption_cons_of_some, List.length_cons, ih,
            List.countP_cons_of_pos (by simpa using (findingOf_some ho).1)]
    rw [totalCount_itemsOf, hcount (mapM_ok.1 hm), hmessages, List.countP_map]
    rfl

/-- The collector does not depend on the order of what ESLint reports, and counts every message,
exactly when tied functions have one label. -/
theorem collector_orderIndependent_iff (ratchet : LintRatchetConfig N)
    (ruleSourceHash repoRootPath : JsString) (workflowVocabulary : LintRatchetWorkflowVocabulary)
    (results : List (ESLintFileResult N))
    (hfatal : ∀ result ∈ results, ∀ message ∈ result.messages, isFatalMessage message = false) :
    (OrderIndependent ratchet ruleSourceHash repoRootPath workflowVocabulary results ∧
      CountConserved ratchet repoRootPath results) ↔ TiesAgree ratchet repoRootPath results := by
  have hlocated : ∀ x ∈ located results, isFatalMessage x.2 = false := fun x hx => by
    obtain ⟨result, hresult, hx⟩ := List.mem_flatMap.1 hx
    obtain ⟨message, hmessage, rfl⟩ := List.mem_map.1 hx
    exact hfatal result hresult message hmessage
  constructor
  · rintro ⟨⟨hrearranged, -⟩, -⟩
    exact tiesAgree_of_independent hlocated hrearranged
  · intro hties
    refine ⟨⟨fun results' h => collectedText_perm hties h.located, ?_⟩,
      countConserved ratchet repoRootPath results⟩
    rintro spawnEslint lint hlint files chunks rfl hresults
    obtain ⟨results', hrun, hp⟩ := runEslintForChunks_perm hlint chunks hresults
    exact ⟨results', hrun, collectedText_perm hties (hp.flatMap_right _)⟩

end Independence

/-! ## Two functions on one line -/

/-- A complexity diagnostic of a function. -/
def complexMessage (name : JsString) : ESLintMessage Numeral where
  ruleId := some (js "complexity")
  severity := JsNumber.ofInt 2
  message := js "Function '" ++ name ++ js "' has a complexity of 21. Maximum allowed is 20."
  messageId := some (js "complex")
  line := some (JsNumber.ofInt 7)
  column := some (JsNumber.ofInt 1)

def complexResults (names : List JsString) : List (ESLintFileResult Numeral) :=
  [⟨js "/musi/src/a.ts", names.map complexMessage⟩]

def complexRatchet : LintRatchetConfig Numeral :=
  { oneRatchet Numeral .complexitySeverity [js "src/a.ts"] with ruleId := js "complexity" }

theorem complexResults_unfatal (names : List JsString) : ∀ result ∈ complexResults names,
    ∀ message ∈ result.messages, isFatalMessage message = false := by
  intro result hresult message hmessage
  obtain rfl := List.mem_singleton.1 hresult
  obtain ⟨name, -, rfl⟩ := List.mem_map.1 hmessage
  rfl

theorem located_complexResults (names : List JsString) : located (complexResults names) =
    names.map fun name => (js "/musi/src/a.ts", complexMessage name) := by
  simp [located, complexResults]

theorem messageAt_complexResults [Host] {names : List JsString} {path : JsString}
    {x : JsString × ESLintMessage Numeral}
    (h : MessageAt complexRatchet (js "/musi") (complexResults names) path x) :
    ∃ name ∈ names, x = (js "/musi/src/a.ts", complexMessage name) := by
  have hmem := h.mem
  rw [located_complexResults] at hmem
  obtain ⟨name, hname, rfl⟩ := List.mem_map.1 hmem
  exact ⟨name, hname, rfl⟩

/-- Two functions with one label. -/
theorem collector_orderIndependent_iff_same :
    OrderIndependent complexRatchet zeroHash (js "/musi") plainVocabulary
        (complexResults [js "f", js "f"]) ∧
      CountConserved complexRatchet (js "/musi") (complexResults [js "f", js "f"]) := by
  refine (collector_orderIndependent_iff complexRatchet zeroHash (js "/musi") plainVocabulary _
    (complexResults_unfatal _)).2 fun _ _ _ path x y _ hx hy f g hf hg _ _ _ => ?_
  obtain ⟨name, hname, rfl⟩ := messageAt_complexResults hx
  obtain ⟨other, hother, rfl⟩ := messageAt_complexResults hy
  have hsame : other = name := by
    simp only [List.mem_cons, List.not_mem_nil, or_false, or_self] at hname hother
    rw [hname, hother]
  subst hsame
  rw [hf] at hg
  cases hg
  rfl

def complexFunction (name : JsString) : LintRatchetComplexityFunction :=
  ⟨7, js "Function '" ++ name ++ js "'", 21⟩

/-- What ties ask of two functions on one line. -/
theorem TiesAgree.complexFunctions [Host] {a b : JsString}
    (h : TiesAgree complexRatchet (js "/musi") (complexResults [a, b]))
    (hpath : relativePathForRoot (js "/musi/src/a.ts") (js "/musi") = js "src/a.ts")
    (ha : parseComplexitySeverityMessage complexRatchet.id (js "src/a.ts") (complexMessage a) =
      .ok (complexFunction a))
    (hb : parseComplexitySeverityMessage complexRatchet.id (js "src/a.ts") (complexMessage b) =
      .ok (complexFunction b))
    (hlocale : Host.localeCompare (complexFunction a).label (complexFunction b).label = 0) :
    (complexFunction a).label = (complexFunction b).label := by
  have hat (name : JsString) (hname : name ∈ [a, b]) :
      MessageAt complexRatchet (js "/musi") (complexResults [a, b]) (js "src/a.ts")
        (js "/musi/src/a.ts", complexMessage name) :=
    ⟨by rw [located_complexResults]; exact List.mem_map_of_mem hname, rfl, hpath⟩
  refine h rfl (by decide) (fun path x hx => ?_) (js "src/a.ts") _ _ (by decide) (hat a (by simp))
    (hat b (by simp)) _ _ ha hb rfl rfl hlocale
  obtain ⟨name, hname, rfl⟩ := messageAt_complexResults hx
  obtain rfl := hx.path.symm.trans hpath
  rcases List.mem_pair.1 hname with rfl | rfl
  · exact ⟨{ complexity := some (complexFunction name) }, by
      simp only [reduceMessage, complexRatchet, oneRatchet] at ha ⊢
      rw [ha]
      rfl⟩
  · exact ⟨{ complexity := some (complexFunction name) }, by
      simp only [reduceMessage, complexRatchet, oneRatchet] at hb ⊢
      rw [hb]
      rfl⟩

/-- Two functions on one line, named by the two code points of one letter: their order in the file
is the order in which ESLint reports them. -/
theorem collector_orderIndependent_fails :
    (∀ result ∈ complexResults [[0x212B], [0xC5]], ∀ message ∈ result.messages,
      isFatalMessage message = false) ∧
    ¬ @OrderIndependent _ _ angstromHost complexRatchet zeroHash (js "/musi") plainVocabulary
      (complexResults [[0x212B], [0xC5]]) := by
  refine ⟨complexResults_unfatal _, fun h => ?_⟩
  have hties := @tiesAgree_of_independent _ _ angstromHost _ _ _ _ _ (fun x hx => by
    rw [located_complexResults] at hx
    obtain ⟨name, -, rfl⟩ := List.mem_map.1 hx
    rfl) h.1
  have hlabels := @TiesAgree.complexFunctions angstromHost _ _ hties (by decide +kernel)
    (by decide +kernel) (by decide +kernel) (by decide +kernel)
  exact absurd hlabels (by decide)

end Musi.LintRatchet
