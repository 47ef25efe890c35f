import Musi.LintRatchet.Governance.EditCheckSweep
import Musi.LintRatchet.Governance.UpdateRetry
import Musi.LintRatchet.Kernel.CodecRoundTrip
import Musi.LintRatchet.Kernel.GeneratedBaseline
import Musi.LintRatchet.Kernel.MigrationSafety

namespace Musi.LintRatchet
open Musi.Js Musi.System
set_option autoImplicit true

section
variable {N : Type} [JsNumber N] [Host]

/-! ## The gate and the update -/

def totalCurrentCount (currentById : LintRatchetCurrentById N) : Nat :=
  (currentById.entries.map fun e => (e.2.entries.map fun i => i.2.count).sum).sum

inductive OperationError where
  | missingBaseline (relativeBaselinePath : JsString)
  | baselineParse (failures warnings : List JsString)
  | config (message : JsString)
  | collector (message : JsString)
  | missingRuleSourceHash
  | typeError
  | apply (error : UpdateError)
  deriving DecidableEq

structure LintRatchetGateResult (N : Type) where
  comparison : LintRatchetComparison N
  currentFindingCount : Nat
  baselineWarnings : List JsString

structure LintRatchetUpdateResult where
  currentFindingCount : Nat
  recordedDebt : Bool
  deriving DecidableEq

def baselineName (engine : LintRatchetEditCheckEngine N) : JsString :=
  relativeToRepoRoot engine.repoRoot engine.baselinePath

def parseForEngine (engine : LintRatchetEditCheckEngine N) (text : JsString) :
    ParsedLintRatchetBaseline N :=
  parseLintRatchetBaseline text engine.registry (buildRuleSourceHashesById engine engine.registry)
    engine.workflowVocabulary defaultVersionPolicy (baselineName engine)

def parseCommittedBaseline (engine : LintRatchetEditCheckEngine N) (files : UpdateFiles) :
    Except OperationError (LintRatchetBaseline N × List JsString) :=
  match files.baseline with
  | none => .error (.missingBaseline (baselineName engine))
  | some text =>
    let parsed := parseForEngine engine text
    match parsed.baseline with
    | none => .error (.baselineParse parsed.failures parsed.warnings)
    | some baseline => .ok (baseline, parsed.warnings)

/-- The gate on the files on disk: the baseline is parsed before anything is linted. -/
def runLintRatchetGate (engine : LintRatchetEditCheckEngine N) (trackedFiles : List JsString)
    (files : UpdateFiles) : Except OperationError (LintRatchetGateResult N) := do
  let (baseline, baselineWarnings) ← parseCommittedBaseline engine files
  let currentById ← (collectCurrentById engine trackedFiles).mapError .collector
  let comparison ← (compareCurrentToBaseline baseline engine.registry currentById
    engine.workflowVocabulary).elim (.error .typeError) .ok
  .ok { comparison, currentFindingCount := totalCurrentCount currentById, baselineWarnings }

structure OperationRun where
  effects : List UpdateEffect := []
  result : Except OperationError LintRatchetUpdateResult

/-- What is applied for a generated baseline. -/
def applyParams (engine : LintRatchetEditCheckEngine N) (updateOptions : LintRatchetUpdateOptions N)
    (generated : LintRatchetBaseline N) : ApplyLintRatchetUpdateParams N where
  baselineName := baselineName engine
  generated := generated
  rendered := formatLintRatchetBaseline generated engine.workflowVocabulary
  registry := engine.registry
  options := { updateOptions with workflowVocabulary := engine.workflowVocabulary }

/-- The baseline of a collection, once its text has passed the parser. -/
def generateBaseline (engine : LintRatchetEditCheckEngine N) (currentById : LintRatchetCurrentById N) :
    Except OperationError (LintRatchetBaseline N) :=
  match buildLintRatchetBaseline engine.registry currentById
      (buildRuleSourceHashesById engine engine.registry) engine.workflowVocabulary with
  | none => .error .missingRuleSourceHash
  | some generated =>
    let parsedGenerated :=
      parseForEngine engine (formatLintRatchetBaseline generated engine.workflowVocabulary)
    if parsedGenerated.baseline.isNone then
      .error (.config (js "generated baseline failed validation:\n" ++
        join [0x0A] parsedGenerated.failures))
    else .ok generated

def runLintRatchetUpdate (engine : LintRatchetEditCheckEngine N) (trackedFiles : List JsString)
    (updateOptions : LintRatchetUpdateOptions N) (files : UpdateFiles) : OperationRun :=
  match collectCurrentById engine trackedFiles with
  | .error message => { result := .error (.collector message) }
  | .ok currentById =>
    match generateBaseline engine currentById with
    | .error error => { result := .error error }
    | .ok generated =>
      let run := applyLintRatchetUpdate (applyParams engine updateOptions generated) files
      { effects := run.effects
        result := (run.result.mapError .apply).map fun recordedDebt =>
          { currentFindingCount := totalCurrentCount currentById, recordedDebt } }

variable {engine : LintRatchetEditCheckEngine N} {trackedFiles : List JsString} {files : UpdateFiles}
  {updateOptions : LintRatchetUpdateOptions N} {result : LintRatchetUpdateResult}
  {options : ValidateLintRatchetRegistryOptions} {currentById : LintRatchetCurrentById N}
  {workflowVocabulary : LintRatchetWorkflowVocabulary}

/-- Every collected path and item can be committed. -/
def CommittableEach (ratchets : List (LintRatchetConfig N)) (currentById : LintRatchetCurrentById N) :
    Prop :=
  ∀ ratchet ∈ ratchets, ∀ items path current, currentById.get ratchet.id = some items →
    items.get path = some current → Committable N path current.toLintRatchetMetricItem

omit [JsNumber N] [Host] in
theorem get_buildRuleSourceHashesById (hids : (engine.registry.map fun ratchet => ratchet.id).Nodup)
    (hr : ratchet ∈ engine.registry) :
    (buildRuleSourceHashesById engine engine.registry).get ratchet.id =
      some (engine.computeRuleSourceHash ratchet) :=
  JsMap.get_ofList_of_mem hids _ hr

/-- A sweep of an accepted registry can be committed. -/
theorem collection_of_sweep (hregistry : validateLintRatchetRegistry engine.registry options = [])
    (hhashes : ∀ ratchet ∈ engine.registry, isSha256Hash (engine.computeRuleSourceHash ratchet) = true)
    (hsweep : collectCurrentById engine trackedFiles = .ok currentById)
    (hcommittable : CommittableEach engine.registry currentById) :
    Collection engine.registry (buildRuleSourceHashesById engine engine.registry) currentById := by
  have hids := validateLintRatchetRegistry_ids hregistry
  refine ⟨fun ratchet hr => ?_, fun ratchet hr => ?_⟩
  · rw [get_buildRuleSourceHashesById hids hr]
    exact hhashes ratchet hr
  · obtain ⟨hash, items, hcollect, hitems⟩ := collectCurrentById_get hids hsweep hr
    obtain ⟨results, -, hcollect⟩ := bind_ok.1 hcollect
    exact ⟨items, hitems, fun path current hget =>
      ⟨itemsFromResults_collected hcollect hget, hcommittable ratchet hr items path current hitems hget⟩⟩

/-- A run that is not refused leaves its baseline on disk. -/
theorem applyLintRatchetUpdate_baseline {params : ApplyLintRatchetUpdateParams N} {recordedDebt : Bool}
    (hrendered : params.rendered ≠ [])
    (h : (applyLintRatchetUpdate params files).result = .ok recordedDebt) :
    (performAll UpdateFiles.perform files (applyLintRatchetUpdate params files).effects).baseline =
      some params.rendered := by
  cases hgate : gateCommittedBaseline params files with
  | error error =>
    rw [applyLintRatchetUpdate, hgate] at h
    cases h
  | ok decision =>
    by_cases hsame : files.baseline.getD [] = params.rendered
    · have hrun : applyLintRatchetUpdate params files = { effects := [], result := .ok false } := by
        simp only [applyLintRatchetUpdate, hgate, if_pos hsame]
      rw [hrun, performAll_nil]
      cases hbaseline : files.baseline with
      | none =>
        rw [hbaseline] at hsame
        exact absurd hsame.symm hrendered
      | some text =>
        rw [hbaseline] at hsame
        exact congrArg some hsame
    · cases happend : appendValidatedDebtLogEntries (debtLogEntriesForUpdate decision params.options)
          (files.debtLog.getD []) with
      | error message =>
        simp only [applyLintRatchetUpdate, hgate, if_neg hsame, happend] at h
        cases h
      | ok appended =>
        have happlied : Applied params files decision appended := ⟨hgate, hsame, happend⟩
        simp only [happlied.run, performAll_append, performAll_cons, performAll_nil, UpdateFiles.perform]

theorem formatLintRatchetBaseline_ne_nil (baseline : LintRatchetBaseline N) :
    formatLintRatchetBaseline baseline workflowVocabulary ≠ [] := by
  rw [formatLintRatchetBaseline_eq, baselineText]
  simp

theorem runLintRatchetGate_ok {baseline : LintRatchetBaseline N} {warnings : List JsString}
    {comparison : LintRatchetComparison N}
    (hcommitted : parseCommittedBaseline engine files = .ok (baseline, warnings))
    (hsweep : collectCurrentById engine trackedFiles = .ok currentById)
    (hcompare : compareCurrentToBaseline baseline engine.registry currentById
      engine.workflowVocabulary = some comparison) :
    runLintRatchetGate engine trackedFiles files = .ok
      { comparison, currentFindingCount := totalCurrentCount currentById
        baselineWarnings := warnings } := by
  rw [runLintRatchetGate, hcommitted, hsweep]
  simp only [Except.mapError, bind, Except.bind, hcompare, Option.elim_some]

/-- What a collection generates passes the parser. -/
theorem Collection.generates
    (h : Collection engine.registry (buildRuleSourceHashesById engine engine.registry) currentById)
    (hregistry : validateLintRatchetRegistry engine.registry options = []) :
    ∃ generated, generateBaseline engine currentById = .ok generated ∧
      buildLintRatchetBaseline engine.registry currentById
        (buildRuleSourceHashesById engine engine.registry) engine.workflowVocabulary =
          some generated := by
  have hhash (ratchet : LintRatchetConfig N) (hr : ratchet ∈ engine.registry) :=
    get_buildRuleSourceHashesById (validateLintRatchetRegistry_ids hregistry) hr
  obtain ⟨generated, hbuild⟩ : ∃ generated, buildLintRatchetBaseline engine.registry currentById
      (buildRuleSourceHashesById engine engine.registry) engine.workflowVocabulary =
        some generated :=
    buildLintRatchetBaseline_total fun ratchet hr => ⟨_, hhash ratchet hr⟩
  refine ⟨generated, ?_, hbuild⟩
  rw [generateBaseline, hbuild]
  exact if_neg (by simp [parseForEngine, h.parses hregistry hbuild])

/-- After an update that is not refused, the gate on the same tree finds no regression. It finds no
improvement either exactly where no two functions of one line and label differ in complexity. Another
update has nothing to do. -/
theorem runLintRatchetGate_updated
    (hregistry : validateLintRatchetRegistry engine.registry options = [])
    (hhashes : ∀ ratchet ∈ engine.registry, isSha256Hash (engine.computeRuleSourceHash ratchet) = true)
    (hsweep : collectCurrentById engine trackedFiles = .ok currentById)
    (hcommittable : CommittableEach engine.registry currentById)
    (hupdate : (runLintRatchetUpdate engine trackedFiles updateOptions files).result = .ok result) :
    let updated := performAll UpdateFiles.perform files
      (runLintRatchetUpdate engine trackedFiles updateOptions files).effects
    (∃ gate, runLintRatchetGate engine trackedFiles updated = .ok gate ∧
      gate.currentFindingCount = result.currentFindingCount ∧ gate.baselineWarnings = [] ∧
      gate.comparison.regressions = [] ∧ gate.comparison.infos = [] ∧
      (gate.comparison.improvements = [] ↔ OneComplexityEach engine.registry currentById)) ∧
    ∀ again, (runLintRatchetUpdate engine trackedFiles again updated).effects = [] := by
  have hcollection := collection_of_sweep hregistry hhashes hsweep hcommittable
  obtain ⟨generated, hgenerate, hbuild⟩ := hcollection.generates hregistry
  simp only [runLintRatchetUpdate, hsweep, hgenerate] at hupdate ⊢
  obtain ⟨recordedDebt, hresult, rfl⟩ := map_ok.1 hupdate
  have hwritten := applyLintRatchetUpdate_baseline (formatLintRatchetBaseline_ne_nil generated)
    (mapError_ok.1 hresult)
  generalize performAll UpdateFiles.perform files
    (applyLintRatchetUpdate (applyParams engine updateOptions generated) files).effects = updated
      at hwritten
  refine ⟨?_, fun again => ?_⟩
  · obtain ⟨comparison, hcompare, hregressions, hinfos, himprovements⟩ :=
      hcollection.compares hregistry hbuild
    have hcommitted : parseCommittedBaseline engine updated = .ok (canonicalBaseline generated, []) := by
      rw [parseCommittedBaseline, hwritten]
      simp only [parseForEngine, applyParams, hcollection.parses hregistry hbuild,
        hcollection.warnings hregistry hbuild]
    exact ⟨_, runLintRatchetGate_ok hcommitted hsweep hcompare, rfl, rfl, hregressions, hinfos,
      himprovements⟩
  · obtain ⟨baseline, debtLog⟩ := updated
    obtain rfl : baseline = some (applyParams engine again generated).rendered := hwritten
    exact applyLintRatchetUpdate_written debtLog

end

/-! ## Two functions of one line -/

/-- The complexity of an arrow function, one of several in a line. -/
def arrowMessage (complexity : JsString) : ESLintMessage Numeral :=
  { complexMessage [] with
    message := js "Arrow function has a complexity of " ++ complexity ++ js ". Maximum allowed is 20." }

def twinRatchet : LintRatchetConfig Numeral := { complexRatchet with source := some .core }

def twinEngine : LintRatchetEditCheckEngine Numeral :=
  { editEngine with
    registry := [twinRatchet]
    spawnEslint := fun _ _ files => .ok (files.map fun _ =>
      ⟨js "/musi/src/a.ts", [arrowMessage (js "21"), arrowMessage (js "22")]⟩) }

def twinItem : LintRatchetCurrentItem Numeral where
  count := 2
  firstLine := some (JsNumber.ofInt 7)
  perFunction := some [⟨7, js "Arrow function", 21⟩, ⟨7, js "Arrow function", 22⟩]

def twinItems : LintRatchetCurrentById Numeral :=
  JsMap.ofList [(twinRatchet.id, JsMap.ofList [(onePath, twinItem)])]

theorem registry_twins : validateLintRatchetRegistry twinEngine.registry {} = [] := by
  decide +kernel

theorem collectCurrentById_twins : collectCurrentById twinEngine [onePath] = .ok twinItems :=
  ok_of_toOption (by decide +kernel)

theorem twinItems_own :
    twinItems.get twinRatchet.id = some (JsMap.ofList [(onePath, twinItem)]) := by
  decide +kernel

theorem twinItems_get {items : JsMap (LintRatchetCurrentItem Numeral)} {path : JsString}
    {current : LintRatchetCurrentItem Numeral} (hitems : twinItems.get twinRatchet.id = some items)
    (hget : items.get path = some current) : path = onePath ∧ current = twinItem := by
  obtain rfl := Option.some.inj (twinItems_own.symm.trans hitems)
  have hentry := List.mem_singleton.1 (JsMap.mem_of_get_ofList hget)
  exact Prod.mk.inj hentry

theorem committable_twins : CommittableEach twinEngine.registry twinItems := by
  intro ratchet hr items path current hitems hget
  obtain rfl := List.mem_singleton.1 hr
  obtain ⟨rfl, rfl⟩ := twinItems_get hitems hget
  exact ⟨by decide, by decide, exact_numeral _, by decide⟩

/-- A first update. -/
def freeUpdate : LintRatchetUpdateOptions Numeral :=
  { allowWorse := false, workflowVocabulary := plainVocabulary }

theorem runLintRatchetUpdate_twins :
    (runLintRatchetUpdate twinEngine [onePath] freeUpdate ⟨none, none⟩).result =
      .ok { currentFindingCount := 2, recordedDebt := false } :=
  ok_of_toOption (by decide +kernel)

/-- Two arrow functions of one line: the gate asks for an update that has nothing to do. -/
theorem runLintRatchetGate_updated_twins :
    let updated := performAll UpdateFiles.perform ⟨none, none⟩
      (runLintRatchetUpdate twinEngine [onePath] freeUpdate ⟨none, none⟩).effects
    (∃ gate, runLintRatchetGate twinEngine [onePath] updated = .ok gate ∧
      gate.currentFindingCount = 2 ∧ gate.comparison.regressions = [] ∧
      gate.comparison.improvements ≠ []) ∧
    ∀ again, (runLintRatchetUpdate twinEngine [onePath] again updated).effects = [] := by
  obtain ⟨⟨gate, hgate, hcount, -, hregressions, -, himprovements⟩, hagain⟩ :=
    runLintRatchetGate_updated registry_twins
      (fun _ _ => (by decide : isSha256Hash zeroHash = true)) collectCurrentById_twins
      committable_twins runLintRatchetUpdate_twins
  refine ⟨⟨gate, hgate, hcount, hregressions, fun hnil => ?_⟩, hagain⟩
  have hone := himprovements.1 hnil twinRatchet (List.mem_singleton.2 rfl) _ onePath twinItem
    twinItems_own (by decide +kernel) rfl _ rfl ⟨7, js "Arrow function", 21⟩ (by simp)
    ⟨7, js "Arrow function", 22⟩ (by simp) rfl
  exact absurd hone (by decide)

/-! ## Drift of rule sources -/

section Drift
variable {N : Type} [JsNumber N] [Host] {ratchets : List (LintRatchetConfig N)}
  {ruleSourceHashesById : JsMap JsString} {workflowVocabulary : LintRatchetWorkflowVocabulary}
  {baseline : LintRatchetBaseline N} {text baselineFile : JsString}

structure ParsedBaselineWithRuleSourceDrift (N : Type) where
  baseline : Option (LintRatchetBaseline N) := none
  failures : List JsString
  ruleSourceIdentityDrift : Bool

def isOnlyRuleSourceStaleFailure (failures : List LintRatchetBaselineValidationFailure) : Bool :=
  !failures.isEmpty && failures.all fun failure => failure.code = .ruleSourceDrift

def parseBaselineWithRuleSourceDrift (text : JsString) (ratchets : List (LintRatchetConfig N))
    (ruleSourceHashesById : JsMap JsString) (workflowVocabulary : LintRatchetWorkflowVocabulary)
    (baselineFile : JsString := defaultBaselineFilename) : ParsedBaselineWithRuleSourceDrift N :=
  let strict := parseLintRatchetBaseline text ratchets ruleSourceHashesById workflowVocabulary
    defaultVersionPolicy baselineFile
  match strict.baseline with
  | some baseline => { baseline := some baseline, failures := [], ruleSourceIdentityDrift := false }
  | none =>
    if !isOnlyRuleSourceStaleFailure strict.validationFailures then
      { failures := strict.failures, ruleSourceIdentityDrift := false }
    else
      match parseLintRatchetBaselineStructure text workflowVocabulary defaultVersionPolicy
          baselineFile with
      | .error failures =>
        { failures := strict.failures ++ failures, ruleSourceIdentityDrift := false }
      | .ok baseline =>
        { baseline := some baseline, failures := strict.failures, ruleSourceIdentityDrift := true }

/-- The tests agree with the registry in all but the hashes of their rule sources. -/
structure RegistryValid (ratchets : List (LintRatchetConfig N)) (baseline : LintRatchetBaseline N) :
    Prop where
  present : ∀ ratchet ∈ ratchets, ∃ test, baseline.tests.own ratchet.id = some test
  tests : ∀ testId test, baseline.tests.own testId = some test →
    ∃ ratchet, (registryById ratchets).get testId = some ratchet ∧
      validateBaselineTestMetadata testId test (baselineTestFromConfig ratchet none []) = [] ∧
      ∀ path item, test.items.own path = some item → ItemValid test.metric item

/-- Every test has a hash of its rule source. -/
def Hashed (baseline : LintRatchetBaseline N) : Prop :=
  ∀ testId test, baseline.tests.own testId = some test → test.ruleSourceHash ≠ []

/-- The baseline with the hashes of today's rule sources. -/
def refreshHashes (ruleSourceHashesById : JsMap JsString) (baseline : LintRatchetBaseline N) :
    LintRatchetBaseline N :=
  { baseline with
    tests := baseline.tests.map fun testId test =>
      { test with ruleSourceHash := (ruleSourceHashesById.get testId).getD [] } }

omit [JsNumber N] [Host] in
theorem validateBaselineRuleSourceHash_nil {testId expected : JsString}
    {test : LintRatchetBaselineTest N} :
    validateBaselineRuleSourceHash testId test expected workflowVocabulary = [] ↔
      test.ruleSourceHash ≠ [] ∧ test.ruleSourceHash = expected := by
  unfold validateBaselineRuleSourceHash
  split
  · next hempty => exact iff_of_false (by simp) fun h => h.1 hempty
  · next hne => rw [pushWhen_nil, decide_eq_false_iff_not, not_not, and_iff_right hne]

theorem gateValid_iff : GateValid ratchets ruleSourceHashesById workflowVocabulary baseline ↔
    RegistryValid ratchets baseline ∧ ∀ testId test, baseline.tests.own testId = some test →
      test.ruleSourceHash ≠ [] ∧
        test.ruleSourceHash = (ruleSourceHashesById.get testId).getD [] := by
  constructor
  · intro h
    refine ⟨⟨h.present, fun testId test ht => ?_⟩, fun testId test ht => ?_⟩
    · obtain ⟨ratchet, hr, hmeta, -, hitems⟩ := h.tests testId test ht
      exact ⟨ratchet, hr, hmeta, hitems⟩
    · obtain ⟨ratchet, -, -, hhash, -⟩ := h.tests testId test ht
      exact validateBaselineRuleSourceHash_nil.1 hhash
  · rintro ⟨h, hhashes⟩
    refine ⟨h.present, fun testId test ht => ?_⟩
    obtain ⟨ratchet, hr, hmeta, hitems⟩ := h.tests testId test ht
    exact ⟨ratchet, hr, hmeta, validateBaselineRuleSourceHash_nil.2 (hhashes testId test ht), hitems⟩

omit [JsNumber N] [Host] in
theorem pushWhen_code {bad : Bool} {code code' : ValidationFailureCode} {message : JsString} :
    (∀ failure ∈ pushWhen bad code message, failure.code = code') ↔ bad = false ∨ code = code' := by
  cases bad <;> simp [pushWhen]

/-- Nothing but stale hashes: all the rest is in line with the registry. -/
theorem ruleSourceDrift_iff :
    (∀ failure ∈ validateBaselineAgainstRegistry baseline ratchets ruleSourceHashesById
        workflowVocabulary, failure.code = .ruleSourceDrift) ↔
      RegistryValid ratchets baseline ∧ Hashed baseline := by
  have hmeta (testId : JsString) (test expected : LintRatchetBaselineTest N) :
      (∀ failure ∈ validateBaselineTestMetadata testId test expected,
        failure.code = .ruleSourceDrift) ↔ validateBaselineTestMetadata testId test expected = [] := by
    simp only [validateBaselineTestMetadata, List.forall_mem_append, pushWhen_code, pushWhen_nil,
      List.append_eq_nil_iff, reduceCtorEq, or_false]
  have hhash (testId expected : JsString) (test : LintRatchetBaselineTest N) :
      (∀ failure ∈ validateBaselineRuleSourceHash testId test expected workflowVocabulary,
        failure.code = .ruleSourceDrift) ↔ test.ruleSourceHash ≠ [] := by
    unfold validateBaselineRuleSourceHash
    split
    · next hempty => simp [hempty]
    · next hne => simp [pushWhen_code, hne]
  have hitems (testId : JsString) (test : LintRatchetBaselineTest N) :
      (∀ failure ∈ validateBaselineMetricItems testId test, failure.code = .ruleSourceDrift) ↔
        ∀ path item, test.items.own path = some item → ItemValid test.metric item := by
    have hnil : validateBaselineMetricItems testId test = [] ↔
        ∀ path item, test.items.own path = some item → ItemValid test.metric item := by
      simp only [validateBaselineMetricItems, List.flatMap_eq_nil_iff, List.map_eq_nil_iff,
        validateMetricItem_nil, Prod.forall, Record.mem_entries]
    rw [← hnil]
    refine ⟨fun h => List.eq_nil_iff_forall_not_mem.2 fun failure hf => ?_, fun h => by simp [h]⟩
    have hcode : failure.code = .metricItemInvalid := by
      obtain ⟨e, -, he⟩ := List.mem_flatMap.1 hf
      obtain ⟨message, -, rfl⟩ := List.mem_map.1 he
      rfl
    rw [h failure hf] at hcode
    cases hcode
  simp only [validateBaselineAgainstRegistry, List.forall_mem_append, List.forall_mem_flatMap,
    pushWhen_code, reduceCtorEq, or_false, Option.isNone_eq_false_iff, Prod.forall,
    Record.mem_entries]
  constructor
  · rintro ⟨htests, hpresent⟩
    have hall (testId : JsString) (test : LintRatchetBaselineTest N)
        (ht : baseline.tests.own testId = some test) :
        (∃ ratchet, (registryById ratchets).get testId = some ratchet ∧
          validateBaselineTestMetadata testId test (baselineTestFromConfig ratchet none []) = [] ∧
          ∀ path item, test.items.own path = some item → ItemValid test.metric item) ∧
        test.ruleSourceHash ≠ [] := by
      have h := htests testId test ht
      split at h
      · cases h _ (List.mem_singleton.2 rfl)
      · next ratchet hratchet =>
        simp only [validateBaselineTestAgainstRatchet, List.forall_mem_append, hmeta, hhash,
          hitems] at h
        exact ⟨⟨ratchet, hratchet, h.1.1, h.2⟩, h.1.2⟩
    exact ⟨⟨fun ratchet hr => Option.isSome_iff_exists.1 (hpresent ratchet hr),
      fun testId test ht => (hall testId test ht).1⟩, fun testId test ht => (hall testId test ht).2⟩
  · rintro ⟨h, hhashed⟩
    refine ⟨fun testId test ht => ?_, fun ratchet hr =>
      Option.isSome_iff_exists.2 (h.present ratchet hr)⟩
    obtain ⟨ratchet, hratchet, hvalid, hall⟩ := h.tests testId test ht
    simp only [hratchet, validateBaselineTestAgainstRatchet, List.forall_mem_append, hmeta, hhash,
      hitems]
    exact ⟨⟨hvalid, hhashed testId test ht⟩, hall⟩

theorem parseBaselineWithRuleSourceDrift_error {failures : List JsString}
    (h : (parseLintRatchetBaselineStructure text workflowVocabulary defaultVersionPolicy
      baselineFile : Except _ (LintRatchetBaseline N)) = .error failures) :
    let parsed : ParsedBaselineWithRuleSourceDrift N := parseBaselineWithRuleSourceDrift text ratchets
      ruleSourceHashesById workflowVocabulary baselineFile
    parsed.baseline = none ∧ parsed.ruleSourceIdentityDrift = false := by
  simp only [parseBaselineWithRuleSourceDrift, parseLintRatchetBaseline, h]
  split <;> exact ⟨rfl, rfl⟩

/-- What the parser makes of a text with a valid structure. The text of a drift is not compared. -/
theorem parseBaselineWithRuleSourceDrift_ok
    (h : parseLintRatchetBaselineStructure text workflowVocabulary defaultVersionPolicy
      baselineFile = .ok baseline) :
    let parsed : ParsedBaselineWithRuleSourceDrift N := parseBaselineWithRuleSourceDrift text ratchets
      ruleSourceHashesById workflowVocabulary baselineFile
    (parsed.ruleSourceIdentityDrift = true ↔ RegistryValid ratchets baseline ∧ Hashed baseline ∧
      ¬ GateValid ratchets ruleSourceHashesById workflowVocabulary baseline) ∧
    ∀ found, parsed.baseline = some found ↔ found = baseline ∧
      (parsed.ruleSourceIdentityDrift = true ∨
        GateValid ratchets ruleSourceHashesById workflowVocabulary baseline ∧
          formatLintRatchetBaseline baseline workflowVocabulary = text) := by
  intro parsed
  by_cases hgate : GateValid ratchets ruleSourceHashesById workflowVocabulary baseline
  · have hregistry := validateBaselineAgainstRegistry_nil.2 hgate
    by_cases hformat : formatLintRatchetBaseline baseline workflowVocabulary = text
    · have hparsed : parsed = { baseline := some baseline, failures := []
                                ruleSourceIdentityDrift := false } := by
        simp [parsed, parseBaselineWithRuleSourceDrift, parseLintRatchetBaseline, h, hregistry, hformat,
          pushWhen]
      simp only [hparsed, Bool.false_eq_true, Option.some.injEq]
      exact ⟨iff_of_false id fun hdrift => hdrift.2.2 hgate,
        fun found => ⟨fun he => ⟨he.symm, .inr ⟨hgate, hformat⟩⟩, fun he => he.1.symm⟩⟩
    · have hparsed : parsed.baseline = none ∧ parsed.ruleSourceIdentityDrift = false := by
        simp [parsed, parseBaselineWithRuleSourceDrift, parseLintRatchetBaseline, h, hregistry, hformat,
          pushWhen, isOnlyRuleSourceStaleFailure]
      simp only [hparsed.1, hparsed.2, Bool.false_eq_true, reduceCtorEq, false_or, false_iff]
      exact ⟨fun hdrift => hdrift.2.2 hgate, fun found he => hformat he.2.2⟩
  · have hne : validateBaselineAgainstRegistry baseline ratchets ruleSourceHashesById
        workflowVocabulary ≠ [] := fun hnil => hgate (validateBaselineAgainstRegistry_nil.1 hnil)
    have hstale : isOnlyRuleSourceStaleFailure (validateBaselineAgainstRegistry baseline ratchets
        ruleSourceHashesById workflowVocabulary) = true ↔
          RegistryValid ratchets baseline ∧ Hashed baseline := by
      have hdrift := @ruleSourceDrift_iff N _ _ ratchets ruleSourceHashesById workflowVocabulary baseline
      rw [← hdrift]
      simp [isOnlyRuleSourceStaleFailure, hne]
    have hparsed : parsed.ruleSourceIdentityDrift = isOnlyRuleSourceStaleFailure
          (validateBaselineAgainstRegistry baseline ratchets ruleSourceHashesById
            workflowVocabulary) ∧
        parsed.baseline = if parsed.ruleSourceIdentityDrift then some baseline else none := by
      simp only [parsed, parseBaselineWithRuleSourceDrift, parseLintRatchetBaseline, h]
      generalize validateBaselineAgainstRegistry baseline ratchets ruleSourceHashesById
        workflowVocabulary = registry at hne
      simp only [hne, decide_false, Bool.false_and, pushWhen, Bool.false_eq_true, if_false,
        List.append_nil]
      cases isOnlyRuleSourceStaleFailure registry <;> exact ⟨rfl, rfl⟩
    have hdrift : parsed.ruleSourceIdentityDrift = true ↔
        RegistryValid ratchets baseline ∧ Hashed baseline := by rw [hparsed.1, hstale]
    refine ⟨by rw [hdrift, and_iff_left hgate], fun found => ?_⟩
    rw [hparsed.2]
    cases parsed.ruleSourceIdentityDrift with
    | false => simp [hgate]
    | true => simp [eq_comm]

/-- A baseline is found, strictly or as drifted, only in line with the registry. -/
theorem registryValid_of_parsed
    (h : (parseBaselineWithRuleSourceDrift text ratchets ruleSourceHashesById workflowVocabulary
      baselineFile).baseline = some baseline) :
    parseLintRatchetBaselineStructure text workflowVocabulary defaultVersionPolicy baselineFile =
        .ok baseline ∧ RegistryValid ratchets baseline := by
  cases hparse : (parseLintRatchetBaselineStructure text workflowVocabulary defaultVersionPolicy
      baselineFile : Except _ (LintRatchetBaseline N)) with
  | error failures =>
    have hnone := (@parseBaselineWithRuleSourceDrift_error N _ _ ratchets ruleSourceHashesById
      workflowVocabulary text baselineFile failures hparse).1
    rw [h] at hnone
    cases hnone
  | ok found =>
    have hok := @parseBaselineWithRuleSourceDrift_ok N _ _ ratchets ruleSourceHashesById
      workflowVocabulary found text baselineFile hparse
    obtain ⟨rfl, hdrift | ⟨hgate, -⟩⟩ := (hok.2 baseline).1 h
    · exact ⟨rfl, (hok.1.1 hdrift).1⟩
    · exact ⟨rfl, (gateValid_iff.1 hgate).1⟩

omit [JsNumber N] [Host] in
theorem own_refreshHashes (baseline : LintRatchetBaseline N) (testId : JsString) :
    (refreshHashes ruleSourceHashesById baseline).tests.own testId =
      (baseline.tests.own testId).map fun test =>
        { test with ruleSourceHash := (ruleSourceHashesById.get testId).getD [] } :=
  Record.own_map _ _ _

/-- Fresh hashes change nothing that the registry says of a test. -/
theorem registryValid_refreshHashes : RegistryValid ratchets (refreshHashes ruleSourceHashesById baseline) ↔
    RegistryValid ratchets baseline := by
  constructor
  · refine fun h => ⟨fun ratchet hr => ?_, fun testId test ht => ?_⟩
    · obtain ⟨test, ht⟩ := h.present ratchet hr
      rw [own_refreshHashes] at ht
      obtain ⟨raw, hraw, -⟩ := Option.map_eq_some_iff.1 ht
      exact ⟨raw, hraw⟩
    · obtain ⟨ratchet, hr, hmeta, hitems⟩ := h.tests testId _ (by rw [own_refreshHashes, ht]; rfl)
      exact ⟨ratchet, hr, hmeta, hitems⟩
  · refine fun h => ⟨fun ratchet hr => ?_, fun testId test ht => ?_⟩
    · obtain ⟨test, ht⟩ := h.present ratchet hr
      exact ⟨_, by rw [own_refreshHashes, ht]; rfl⟩
    · rw [own_refreshHashes] at ht
      obtain ⟨raw, hraw, rfl⟩ := Option.map_eq_some_iff.1 ht
      exact h.tests testId raw hraw

/-- The registry's ratchets have hashes of their rule sources. -/
def HashesRegistry (ratchets : List (LintRatchetConfig N)) (ruleSourceHashesById : JsMap JsString) :
    Prop :=
  ∀ ratchet ∈ ratchets, isSha256Hash ((ruleSourceHashesById.get ratchet.id).getD []) = true

theorem gateValid_refreshHashes (hhashes : HashesRegistry ratchets ruleSourceHashesById) :
    GateValid ratchets ruleSourceHashesById workflowVocabulary
        (refreshHashes ruleSourceHashesById baseline) ↔ RegistryValid ratchets baseline := by
  rw [gateValid_iff, registryValid_refreshHashes, and_iff_left_iff_imp]
  intro h testId test ht
  rw [own_refreshHashes] at ht
  obtain ⟨raw, hraw, rfl⟩ := Option.map_eq_some_iff.1 ht
  obtain ⟨ratchet, hr, -⟩ := h.tests testId raw hraw
  obtain ⟨hmem, rfl⟩ := registryById_id hr
  refine ⟨fun hempty => ?_, rfl⟩
  have hhash := hhashes ratchet hmem
  change (ruleSourceHashesById.get ratchet.id).getD [] = [] at hempty
  rw [hempty] at hhash
  exact absurd hhash (by decide)

/-- The canonical form of an accepted baseline is accepted. -/
theorem GateValid.canonical (hwf : TestsWellFormed baseline)
    (h : GateValid ratchets ruleSourceHashesById workflowVocabulary baseline) :
    GateValid ratchets ruleSourceHashesById workflowVocabulary (canonicalBaseline baseline) := by
  refine ⟨fun ratchet hr => ?_, fun testId test ht => ?_⟩
  · obtain ⟨test, ht⟩ := h.present ratchet hr
    exact ⟨canonicalTest test, by rw [own_canonicalBaseline, ht, Option.map_some]⟩
  · rw [own_canonicalBaseline] at ht
    obtain ⟨raw, hraw, rfl⟩ := Option.map_eq_some_iff.1 ht
    obtain ⟨ratchet, hr, hmeta, hhash, hitems⟩ := h.tests testId raw hraw
    have hcanonical : (canonicalTest raw).toLintRatchetBaselineGroupMeta =
        raw.toLintRatchetBaselineGroupMeta := normalizedMeta_of_registry (hwf testId raw hraw) hmeta
    refine ⟨ratchet, hr, ?_, ?_, fun path item hi => ?_⟩
    · rw [validateMetadata_congr hcanonical]
      exact hmeta
    · rw [validateRuleSourceHash_congr hcanonical]
      exact hhash
    · have hpos (item : LintRatchetMetricItem) (hi : raw.items.own path = some item) :
          0 < item.count := ((hwf testId raw hraw).items path item hi).2
      rw [own_canonicalTest raw path hpos] at hi
      obtain ⟨rawItem, hrawItem, rfl⟩ := Option.map_eq_some_iff.1 hi
      exact (hitems path rawItem hrawItem).formatItem (hpos rawItem hrawItem)

/-- With fresh hashes, the formatted text of a baseline in line with the registry is accepted. -/
theorem RegistryValid.refreshed (hhashes : HashesRegistry ratchets ruleSourceHashesById)
    (h : RegistryValid ratchets baseline)
    (hparse : parseLintRatchetBaselineStructure text workflowVocabulary defaultVersionPolicy
      baselineFile = .ok baseline) :
    (parseLintRatchetBaseline (formatLintRatchetBaseline (refreshHashes ruleSourceHashesById baseline)
        workflowVocabulary) ratchets ruleSourceHashesById workflowVocabulary defaultVersionPolicy
          baselineFile).baseline =
      some (canonicalBaseline (rereadRegenerate (refreshHashes ruleSourceHashesById baseline))) := by
  have hgate : GateValid ratchets ruleSourceHashesById workflowVocabulary
      (refreshHashes ruleSourceHashesById baseline) := (gateValid_refreshHashes hhashes).2 h
  obtain ⟨hversion, hregenerate⟩ := parse_structure_envelope hparse
  have htests : TestsWellFormed (refreshHashes ruleSourceHashesById baseline) := by
    intro testId test ht
    rw [own_refreshHashes] at ht
    obtain ⟨raw, hraw, rfl⟩ := Option.map_eq_some_iff.1 ht
    obtain ⟨ratchet, hr, -⟩ := h.tests testId raw hraw
    obtain ⟨hmem, rfl⟩ := registryById_id hr
    have hwf := parse_structure_wellFormed hparse hraw
    exact ⟨hwf.id, hwf.ruleId, hwf.configHash, .inr (hhashes ratchet hmem), hwf.ruleOptions, hwf.paths,
      hwf.items⟩
  have hwf : BaselineWellFormed (rereadRegenerate (refreshHashes ruleSourceHashesById baseline)) := by
    refine ⟨?_, fun r hr => ?_, fun testId test ht =>
      ⟨htests testId test ht, ((gateValid_iff.1 hgate).2 testId test ht).1⟩⟩
    · exact (by decide : defaultVersionPolicy.acceptedVersions ⊆ [legacyVersion, annotatedVersion]) hversion
    · obtain ⟨r', hr', rfl⟩ := Option.map_eq_some_iff.1 hr
      exact canonical_wire (hregenerate r' hr')
  refine parseLintRatchetBaseline_accepted.2 ⟨?_, ?_, ?_⟩
  · rw [← format_rereadRegenerate]
    exact parse_formatLintRatchetBaseline hwf _ hversion _ _ _
  · exact GateValid.canonical htests ⟨hgate.present, hgate.tests⟩
  · rw [format_canonicalBaseline _ _ workflowVocabulary, format_rereadRegenerate]

/-- Drift is reported exactly where fresh hashes, and nothing less, bring the tests in line with the
registry. The text itself is not looked at; the formatted one is accepted with fresh hashes. -/
theorem ruleSourceIdentityDrift_iff (hhashes : HashesRegistry ratchets ruleSourceHashesById) :
    let parsed : ParsedBaselineWithRuleSourceDrift N := parseBaselineWithRuleSourceDrift text ratchets
      ruleSourceHashesById workflowVocabulary baselineFile
    (parsed.ruleSourceIdentityDrift = true ↔ ∃ baseline, parseLintRatchetBaselineStructure text
        workflowVocabulary defaultVersionPolicy baselineFile = .ok baseline ∧ Hashed baseline ∧
      ¬ GateValid ratchets ruleSourceHashesById workflowVocabulary baseline ∧
      GateValid ratchets ruleSourceHashesById workflowVocabulary
        (refreshHashes ruleSourceHashesById baseline)) ∧
    ∀ baseline, parsed.baseline = some baseline → ∃ reread, (parseLintRatchetBaseline
      (formatLintRatchetBaseline (refreshHashes ruleSourceHashesById baseline) workflowVocabulary)
        ratchets ruleSourceHashesById workflowVocabulary defaultVersionPolicy baselineFile).baseline =
          some reread := by
  cases hparse : (parseLintRatchetBaselineStructure text workflowVocabulary defaultVersionPolicy
      baselineFile : Except _ (LintRatchetBaseline N)) with
  | error failures =>
    have h := @parseBaselineWithRuleSourceDrift_error N _ _ ratchets ruleSourceHashesById
      workflowVocabulary text baselineFile failures hparse
    simp only [h.1, h.2, reduceCtorEq, Bool.false_eq_true, false_and, exists_false, IsEmpty.forall_iff,
      implies_true, and_self]
  | ok baseline =>
    have h := @parseBaselineWithRuleSourceDrift_ok N _ _ ratchets ruleSourceHashesById
      workflowVocabulary baseline text baselineFile hparse
    refine ⟨h.1.trans ⟨?_, ?_⟩, fun found hfound => ?_⟩
    · rintro ⟨hvalid, hhashed, hgate⟩
      exact ⟨baseline, rfl, hhashed, hgate, (gateValid_refreshHashes hhashes).2 hvalid⟩
    · rintro ⟨found, he, hhashed, hgate, hrefreshed⟩
      obtain rfl := Except.ok.inj he
      exact ⟨(gateValid_refreshHashes hhashes).1 hrefreshed, hhashed, hgate⟩
    · obtain ⟨rfl, hdrift | ⟨hgate, -⟩⟩ := (h.2 found).1 hfound
      · exact ⟨_, (h.1.1 hdrift).1.refreshed hhashes hparse⟩
      · exact ⟨_, (gateValid_iff.1 hgate).1.refreshed hhashes hparse⟩

end Drift

def freshHash : JsString := js "sha256:" ++ List.replicate 64 (unit '1')

def freshHashes : JsMap JsString := JsMap.ofList [(js "ratchet/one", freshHash)]

/-- A stale hash, and a line feed too many. -/
def driftedText : JsString := formatLintRatchetBaseline (gatedFile 1) plainVocabulary ++ [0x0A]

/-- The drift is reported, though with a fresh hash the text still has its line feed too many. -/
theorem ruleSourceIdentityDrift_iff_one :
    (∃ baseline : LintRatchetBaseline Numeral, Hashed baseline ∧
      GateValid [oneFileRatchet .messageCount] freshHashes plainVocabulary
        (refreshHashes freshHashes baseline)) ∧
    (∃ reread, (parseLintRatchetBaseline (formatLintRatchetBaseline
      (refreshHashes freshHashes (gatedFile 1)) plainVocabulary) [oneFileRatchet .messageCount]
        freshHashes plainVocabulary).baseline = some reread) ∧
    (parseLintRatchetBaseline (formatLintRatchetBaseline (refreshHashes freshHashes (gatedFile 1))
      plainVocabulary ++ [0x0A]) [oneFileRatchet .messageCount] freshHashes
        plainVocabulary).baseline = none := by
  have hhashes : HashesRegistry [oneFileRatchet .messageCount] freshHashes := by
    intro ratchet hr
    obtain rfl := List.mem_singleton.1 hr
    decide +kernel
  obtain ⟨hiff, hreread⟩ := @ruleSourceIdentityDrift_iff Numeral _ _ _ _ plainVocabulary driftedText
    defaultBaselineFilename hhashes
  obtain ⟨baseline, -, hhashed, -, hgate⟩ := hiff.1 (by decide +kernel)
  exact ⟨⟨baseline, hhashed, hgate⟩, hreread (gatedFile 1) (by decide +kernel), by decide +kernel⟩

/-! ## The check and the update -/

section Plain
variable {N : Type} [JsNumber N] [Host] {ratchets : List (LintRatchetConfig N)}
  {ruleSourceHashesById : JsMap JsString} {workflowVocabulary : LintRatchetWorkflowVocabulary}
  {options : ValidateLintRatchetRegistryOptions} {currentById : LintRatchetCurrentById N}
  {baseline generated : LintRatchetBaseline N} {updateOptions : LintRatchetUpdateOptions N}
  {decision : LintRatchetUpdateDecision N} {metric : LintRatchetMetric}

/-- A path is without a regression where neither its count nor its axis rose. -/
theorem compareItem_regression_none (context : MetricItemComparisonContext N) :
    (compareItem metric context).regression = none ↔
      context.current.count ≤ context.baselineCount ∧ ∀ previous,
        context.baselineItem = some previous →
          ¬ AxisRise metric previous context.current.toLintRatchetMetricItem := by
  constructor
  · intro hnone
    have haxis (previous : LintRatchetMetricItem) (hprevious : context.baselineItem = some previous) :
        ¬ AxisRise metric previous context.current.toLintRatchetMetricItem := by
      intro hrise
      obtain ⟨r, hr, -⟩ := compareItem_axis hprevious hrise
      rw [hnone] at hr
      cases hr
    refine ⟨?_, haxis⟩
    by_contra hlt
    obtain ⟨r, hr, -⟩ := (compareItem_reportsCount_of_not_axis haxis).worse (not_le.1 hlt)
    rw [hnone] at hr
    cases hr
  · rintro ⟨hcount, haxis⟩
    exact (compareItem_reportsCount_of_not_axis haxis).kept hcount

/-- What is committed of an item rises where the item does. -/
theorem axisRise_formatItem {previous item : LintRatchetMetricItem} (h : CollectedItem N metric item) :
    AxisRise metric previous (formatItem metric item) ↔ AxisRise metric previous item := by
  cases metric with
  | messageCount => simp [AxisRise]
  | effectiveLineCount => simp [AxisRise, LinesRise, formatItem]
  | complexitySeverity =>
    obtain ⟨fs, m, hfs, -, -, hformat⟩ := h.formatted
    have hperm := sortBy_perm compareComplexityFunction fs
    have hrank (bs : ComplexityFunctions) :
        RankRise bs (sortBy compareComplexityFunction fs) ↔ RankRise bs fs := by
      unfold RankRise rankedComplexity
      rw [descending_perm hperm, hperm.length_eq]
    simp only [AxisRise, ComplexityRise, hformat, hfs, reduceCtorEq, false_and, true_and, false_or,
      Option.some.injEq, exists_and_left, exists_eq_left', hperm.mem_iff, hrank]

/-- The update finds a regression in what was generated where the check finds one in what was
collected. -/
theorem regression_generated (h : Collection ratchets ruleSourceHashesById currentById)
    (hregistry : validateLintRatchetRegistry ratchets options = [])
    (hbuild : buildLintRatchetBaseline ratchets currentById ruleSourceHashesById workflowVocabulary =
      some generated) (baseline : LintRatchetBaseline N) (testId path : JsString) :
    (comparisonAt baseline ratchets (currentByIdFromBaseline generated) testId path).regression = none ↔
      (comparisonAt baseline ratchets currentById testId path).regression = none := by
  unfold Musi.LintRatchet.comparisonAt
  split
  · next ratchet test hratchet _ =>
    obtain ⟨hr, rfl⟩ := registryById_id hratchet
    rw [get_currentByIdFromBaseline,
      (own_generated hregistry hbuild ratchet.id _).2 ⟨ratchet, hr, rfl, rfl⟩, Option.bind_some,
      h.own_items hr, Option.map_map]
    obtain ⟨items, hitems, hall⟩ := h.items ratchet hr
    simp only [hitems, Option.bind_some]
    cases hget : items.get path with
    | none => exact Iff.rfl
    | some current =>
      obtain ⟨hcollected, -⟩ := hall path current hget
      simp only [Option.map_some, Function.comp_apply, compareItem_regression_none]
      refine and_congr ?_ (forall₂_congr fun previous _ => not_congr (axisRise_formatItem hcollected))
      change (formatItem ratchet.metric current.toLintRatchetMetricItem).count ≤ _ ↔ _
      rw [formatItem_count]
      exact Iff.rfl
  · exact Iff.rfl

/-- A committed test and the one that is generated in its place have the registry's globs and metric. -/
theorem RegistryValid.agrees (hvalid : RegistryValid ratchets baseline)
    (hregistry : validateLintRatchetRegistry ratchets options = [])
    (hbuild : buildLintRatchetBaseline ratchets currentById ruleSourceHashesById workflowVocabulary =
      some generated) {testId : JsString} {b g : LintRatchetBaselineTest N}
    (hb : baseline.tests.own testId = some b) (hg : generated.tests.own testId = some g) :
    b.files = g.files ∧ b.ignores = g.ignores ∧ b.metric = g.metric := by
  obtain ⟨ratchet, hr, rfl, rfl⟩ := (own_generated hregistry hbuild testId g).1 hg
  obtain ⟨other, hother, hmeta, -⟩ := hvalid.tests _ b hb
  have hids := validateLintRatchetRegistry_ids hregistry
  obtain rfl : other = ratchet := Option.some.inj
    (hother.symm.trans ((registryById_of_nodup hids ratchet.id ratchet).2 ⟨hr, rfl⟩))
  simp only [validateBaselineTestMetadata, List.append_eq_nil_iff, pushWhen_nil, ne_eq,
    decide_eq_false_iff_not, not_not] at hmeta
  obtain ⟨⟨⟨⟨⟨-, hmetric⟩, hfiles⟩, hignores⟩, -⟩, -⟩ := hmeta
  exact ⟨stableJson_strings hfiles, stableJson_strings hignores, hmetric⟩

/-- A plain update of a baseline in line with the registry is decided by the check's regressions. -/
theorem RegistryValid.decides (hvalid : RegistryValid ratchets baseline)
    (h : Collection ratchets ruleSourceHashesById currentById)
    (hregistry : validateLintRatchetRegistry ratchets options = [])
    (hbuild : buildLintRatchetBaseline ratchets currentById ruleSourceHashesById workflowVocabulary =
      some generated) (hworse : updateOptions.allowWorse = false) (hretire : updateOptions.retire = none)
    (hdecide : decideLintRatchetUpdate baseline generated ratchets updateOptions = some decision) :
    (decision.allowed = true ↔ ∀ testId path,
      (comparisonAt baseline ratchets currentById testId path).regression = none) ∧
    debtLogEntriesForUpdate (some decision) updateOptions = [] := by
  have hmigrations : collectMetricMigrations baseline generated = [] := by
    rw [collectMetricMigrations, List.map_eq_nil_iff]
    refine List.eq_nil_iff_forall_not_mem.2 fun d hd => ?_
    obtain ⟨b, g, hb, hg, hne, -⟩ := mem_collectMetricChangeDiffs.1 hd
    exact hne (hvalid.agrees hregistry hbuild hb hg).2.2
  have hshrinks : collectCoverageShrinkDiffs baseline generated = [] := by
    rw [collectCoverageShrinkDiffs, List.filterMap_eq_nil_iff]
    intro testId _
    split
    · next b g hb hg =>
      obtain ⟨hfiles, hignores, -⟩ := hvalid.agrees hregistry hbuild hb hg
      rw [coverageShrinkDiff, if_pos]
      simp [hfiles, hignores]
    · rfl
  have horphans : collectOrphanRemovals baseline ratchets = [] := by
    refine List.eq_nil_iff_forall_not_mem.2 fun o ho => ?_
    obtain ⟨hid, test, ht, -⟩ := mem_collectOrphanRemovals.1 ho
    obtain ⟨ratchet, hr, -⟩ := hvalid.tests _ test ht
    obtain ⟨hmem, he⟩ := registryById_id hr
    exact hid (List.mem_map.2 ⟨ratchet, hmem, he⟩)
  have hnoretire : retireResolution baseline ratchets updateOptions = {} := by
    rw [retireResolution, hretire]
  have hregressions : decision.regressions = [] ↔ ∀ testId path,
      (comparisonAt baseline ratchets currentById testId path).regression = none := by
    rw [decision_regressions_nil hdecide]
    refine forall₂_congr fun testId path => ?_
    rw [← regression_generated h hregistry hbuild, updateRegressionAt, hmigrations]
    simp [Option.eq_none_iff_forall_ne_some]
  have hallowed : decision.allowed = true ↔ decision.regressions = [] := by
    rw [decision_allowed hdecide]
    simp [hworse, hshrinks, hmigrations, hnoretire, horphans, metricMigrationFailure, reasonFailure,
      accountableOrphans]
  refine ⟨hallowed.trans hregressions, ?_⟩
  have hretired : decision.retiredRatchetId = none := by
    obtain ⟨comparison, -, rfl⟩ := Option.map_eq_some_iff.1 hdecide
    simp [hnoretire]
  simp [debtLogEntriesForUpdate, hworse, decision_metricMigrations hdecide, hmigrations, hretired]

variable {engine : LintRatchetEditCheckEngine N} {trackedFiles : List JsString} {files : UpdateFiles}
  {text : JsString} {comparison : LintRatchetComparison N}

theorem comparison_regressions_nil (hcompare : compareCurrentToBaseline baseline ratchets currentById
      workflowVocabulary = some comparison) :
    comparison.regressions = [] ↔ ∀ testId path,
      (comparisonAt baseline ratchets currentById testId path).regression = none := by
  obtain ⟨-, hspec⟩ := regressions_spec hcompare
  constructor
  · intro hnil testId path
    refine Option.eq_none_iff_forall_ne_some.2 fun r hr => ?_
    obtain ⟨rfl, rfl⟩ := Prod.mk.inj (comparisonAt_keys hr)
    have hmem := (hspec r).2 hr
    rw [hnil] at hmem
    cases hmem
  · intro hnone
    refine List.eq_nil_iff_forall_not_mem.2 fun r hr => ?_
    have hat := (hspec r).1 hr
    rw [hnone] at hat
    cases hat

/-- The check of the default mode and a plain update agree. Where the check finds a baseline, drifted
or not, and no regression, the update is accepted and records no debt. Where it finds a regression, the
update is refused and leaves the files. -/
theorem runLintRatchetUpdate_check
    (hregistry : validateLintRatchetRegistry engine.registry options = [])
    (hhashes : ∀ ratchet ∈ engine.registry, isSha256Hash (engine.computeRuleSourceHash ratchet) = true)
    (hsweep : collectCurrentById engine trackedFiles = .ok currentById)
    (hcommittable : CommittableEach engine.registry currentById)
    (hfile : files.baseline = some text)
    (hparse : (parseBaselineWithRuleSourceDrift text engine.registry
      (buildRuleSourceHashesById engine engine.registry) engine.workflowVocabulary
        (baselineName engine)).baseline = some baseline)
    (hcompare : compareCurrentToBaseline baseline engine.registry currentById
      engine.workflowVocabulary = some comparison)
    (hworse : updateOptions.allowWorse = false) (hretire : updateOptions.retire = none) :
    let run := runLintRatchetUpdate engine trackedFiles updateOptions files
    (comparison.regressions = [] →
      run.result = .ok { currentFindingCount := totalCurrentCount currentById, recordedDebt := false } ∧
        (performAll UpdateFiles.perform files run.effects).debtLog = files.debtLog) ∧
    (comparison.regressions ≠ [] → run.effects = [] ∧ ∃ message,
      run.result = .error (.apply (.worseBaseline message))) := by
  have hcollection := collection_of_sweep hregistry hhashes hsweep hcommittable
  obtain ⟨generated, hgenerate, hbuild⟩ := hcollection.generates hregistry
  obtain ⟨hstructure, hvalid⟩ := registryValid_of_parsed hparse
  obtain ⟨decision, hdecide⟩ := decideLintRatchetUpdate_total baseline generated engine.registry
    { updateOptions with workflowVocabulary := engine.workflowVocabulary }
  obtain ⟨hallowed, hentries⟩ := hvalid.decides hcollection hregistry hbuild hworse hretire hdecide
  rw [← comparison_regressions_nil hcompare] at hallowed
  have hcommitted : parseCommittedStructure (applyParams engine updateOptions generated) text =
      .ok baseline := by
    rw [parseCommittedStructure]
    simp only [applyParams, hstructure]
  have hgate : gateCommittedBaseline (applyParams engine updateOptions generated) files =
      if decision.allowed then .ok (some decision)
      else .error (.worseBaseline (join [0x0A] decision.failures)) := by
    rw [gateCommittedBaseline, hfile]
    simp only [hcommitted]
    rw [show decideLintRatchetUpdate baseline (applyParams engine updateOptions generated).generated
      (applyParams engine updateOptions generated).registry
      (applyParams engine updateOptions generated).options = some decision from hdecide]
  simp only [runLintRatchetUpdate, hsweep, hgenerate]
  constructor
  · intro hnil
    rw [if_pos (hallowed.2 hnil)] at hgate
    have hrun : (applyLintRatchetUpdate (applyParams engine updateOptions generated) files).result =
          .ok false ∧
        ((applyLintRatchetUpdate (applyParams engine updateOptions generated) files).effects = [] ∨
          ∃ data, (applyLintRatchetUpdate (applyParams engine updateOptions generated) files).effects =
            [.writeBaseline data]) := by
      rw [applyLintRatchetUpdate]
      simp only [hgate]
      split_ifs with hsame
      · exact ⟨rfl, .inl rfl⟩
      · rw [show debtLogEntriesForUpdate (some decision)
          (applyParams engine updateOptions generated).options = [] from hentries]
        exact ⟨rfl, .inr ⟨_, rfl⟩⟩
    obtain ⟨hresult, heffects⟩ := hrun
    refine ⟨by rw [hresult]; rfl, ?_⟩
    rcases heffects with heffects | ⟨data, heffects⟩ <;> rw [heffects] <;> rfl
  · intro hne
    rw [if_neg fun ha => hne (hallowed.1 ha)] at hgate
    have hrun : applyLintRatchetUpdate (applyParams engine updateOptions generated) files =
        { effects := [], result := .error (.worseBaseline (join [0x0A] decision.failures)) } := by
      rw [applyLintRatchetUpdate]
      simp only [hgate]
    rw [hrun]
    exact ⟨rfl, _, rfl⟩

end Plain

/-- One of the two functions is committed, under a stale hash. -/
def twinCommitted : LintRatchetBaseline Numeral where
  version := annotatedVersion
  regenerate := some (.str plainVocabulary.updateCommand)
  tests := Record.fromEntries [(js "ratchet/one",
    { oneTest .complexitySeverity [onePath]
        [(onePath, complexityItem [⟨7, js "Arrow function", 21⟩])] with
      ruleId := js "complexity"
      configHash := computeLintRatchetConfigHash twinRatchet
      ruleSourceHash := freshHash })]

def twinFiles : UpdateFiles :=
  { baseline := some (formatLintRatchetBaseline twinCommitted plainVocabulary), debtLog := none }

/-- The other function is a regression of the drifted baseline, and a plain update is refused. -/
theorem runLintRatchetUpdate_check_twins :
    (runLintRatchetUpdate twinEngine [onePath] freeUpdate twinFiles).effects = [] ∧ ∃ message,
      (runLintRatchetUpdate twinEngine [onePath] freeUpdate twinFiles).result =
        .error (.apply (.worseBaseline message)) := by
  have hcompared : (compareCurrentToBaseline twinCommitted twinEngine.registry twinItems
      twinEngine.workflowVocabulary).map (fun comparison => comparison.regressions.length) = some 1 := by
    decide +kernel
  obtain ⟨comparison, hcompare, hone⟩ := Option.map_eq_some_iff.1 hcompared
  refine (runLintRatchetUpdate_check registry_twins
    (fun _ _ => (by decide : isSha256Hash zeroHash = true)) collectCurrentById_twins
    committable_twins rfl (by decide +kernel) hcompare rfl rfl).2 fun hnil => ?_
  rw [hnil] at hone
  cases hone

end Musi.LintRatchet
