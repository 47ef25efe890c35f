import Mathlib.Data.List.ReduceOption
import Musi.Js.Buckets
import Musi.LintRatchet.Kernel.BaselineUpdate
import Musi.LintRatchet.Kernel.CurrentCollector
import Musi.System.Runs

namespace Musi.LintRatchet
open Musi.Js Musi.System
set_option autoImplicit true

section
variable {N : Type}

/-! ## The edit-time check -/

/-- One (edited file, cacheable ratchet) pair the edit-time hook may check. -/
structure EditCheckTarget where
  path : JsString
  testId : JsString
  ruleId : JsString
  cacheIdentity : Option JsString := none
  deriving DecidableEq

structure EditCheckRegression (N : Type) where
  path : JsString
  testId : JsString
  ruleId : JsString
  reason : RegressionReason
  line : Option N := none
  baselineCount : Nat
  currentCount : Nat
  repairCommand : Option JsString := none
  deriving DecidableEq

/-- The repo binding of the check: the text of the baseline file, if there is one, what hashes the
rule source of a ratchet, and ESLint as it is run for a ratchet, a rule-source hash and some files. -/
structure LintRatchetEditCheckEngine (N : Type) where
  repoRoot : JsString
  baselinePath : JsString
  baselineText : Option JsString
  registry : List (LintRatchetConfig N)
  computeRuleSourceHash : LintRatchetConfig N → JsString
  spawnEslint : LintRatchetConfig N → JsString → List JsString →
    Except JsString (List (ESLintFileResult N))
  workflowVocabulary : LintRatchetWorkflowVocabulary

def usesEslintCache (ratchet : LintRatchetConfig N) : Bool :=
  ratchetParserProfile ratchet = .minimalTs

def isEligibleEditCheckRatchet (ratchet : LintRatchetConfig N) : Bool := usesEslintCache ratchet

def buildRuleSourceHashesById (engine : LintRatchetEditCheckEngine N)
    (ratchets : List (LintRatchetConfig N)) : JsMap JsString :=
  JsMap.ofList (ratchets.map fun ratchet => (ratchet.id, engine.computeRuleSourceHash ratchet))

section Host
variable [JsNumber N] [Host]

/-- matchesRatchet at a registry ratchet. -/
def configMatches (ratchet : LintRatchetConfig N) (trackedFile : JsString) : Bool :=
  matchesAny trackedFile ratchet.files && !matchesAny trackedFile ratchet.ignores

def matchingTrackedFiles (ratchet : LintRatchetConfig N) (trackedFiles : List JsString) :
    List JsString :=
  trackedFiles.filter (configMatches ratchet)

def relativeToRepoRoot (repoRoot filePath : JsString) : JsString :=
  relativePathForRoot filePath repoRoot

def byPathThenTestId (left right : JsString × JsString) : Int :=
  orElse (Host.localeCompare left.1 right.1) (Host.localeCompare left.2 right.2)

/-- The baseline that the check reads: none without a file, or where its structure is invalid. -/
def LintRatchetEditCheckEngine.structuralBaseline (engine : LintRatchetEditCheckEngine N) :
    Option (LintRatchetBaseline N) :=
  engine.baselineText.bind fun text =>
    (parseLintRatchetBaselineStructure text engine.workflowVocabulary defaultVersionPolicy
      (relativeToRepoRoot engine.repoRoot engine.baselinePath)).toOption

/-- `tests[testId]`, or none for undefined. The source throws where it goes on to read the items of
a member of Object.prototype: the outer none. -/
def readTest (baseline : LintRatchetBaseline N) (testId : JsString) :
    Option (Option (LintRatchetBaselineTest N)) :=
  match baseline.tests.read testId with
  | .own test => some (some test)
  | .inherited => none
  | .absent => some none

/-! ## Discovery -/

/-- The variables of the discovery loop. -/
structure Discovery (N : Type) where
  targets : List EditCheckTarget := []
  seen : List JsString := []
  matchedRatchets : JsMap (LintRatchetConfig N) := .empty

def discoverTarget (path : JsString) (d : Discovery N) (ratchet : LintRatchetConfig N) :
    Discovery N :=
  if !isEligibleEditCheckRatchet ratchet then d
  else if !configMatches ratchet path then d
  else if path ++ js "\t" ++ ratchet.id ∈ d.seen then d
  else
    { targets := d.targets ++ [{ path, testId := ratchet.id, ruleId := ratchet.ruleId }]
      seen := d.seen ++ [path ++ js "\t" ++ ratchet.id]
      matchedRatchets := d.matchedRatchets.set ratchet.id ratchet }

def discoverPath (engine : LintRatchetEditCheckEngine N) (d : Discovery N) (rawPath : JsString) :
    Discovery N :=
  engine.registry.foldl (discoverTarget (relativeToRepoRoot engine.repoRoot rawPath)) d

def baselineItemIdentity (item : LintRatchetMetricItem) : Json N :=
  .obj ([(js "count", natJson item.count)] ++
    (item.lines.toList.map fun lines => (js "lines", linesJson lines)) ++
    (item.maxComplexity.toList.map fun complexity => (js "maxComplexity", natJson complexity)) ++
    (item.perFunction.toList.map fun entries => (js "perFunction", .arr (entries.map fun entry =>
      .obj [(js "complexity", natJson entry.complexity), (js "label", .str entry.label),
        (js "line", natJson entry.line)]))))

def baselineItemsIdentity (items : Record LintRatchetMetricItem) : Json N :=
  .obj (Record.assignAll (items.entries.map fun e =>
    (e.1, (baselineItemIdentity e.2 : Json N)))).entries

def editCheckTargetCacheIdentity (ratchet : LintRatchetConfig N)
    (baselineTest : Option (LintRatchetBaselineTest N)) (ruleSourceHash : Option JsString) :
    JsString :=
  js "sha256:" ++ Host.sha256 (stableJson (N := N) (.obj
    [(js "baselineTest", baselineTest.elim .null fun test => .obj
      [(js "configHash", .str test.configHash), (js "files", stringsJson test.files),
        (js "ignores", stringsJson test.ignores), (js "items", baselineItemsIdentity test.items),
        (js "metric", .str test.metric.text), (js "mode", .str test.mode.text),
        (js "ruleId", .str test.ruleId), (js "ruleOptions", .arr test.ruleOptions),
        (js "ruleSourceHash", .str test.ruleSourceHash)]),
      (js "liveConfigHash", .str (computeLintRatchetConfigHash ratchet)),
      (js "liveRuleSourceHash", ruleSourceHash.elim .null .str),
      (js "testId", .str ratchet.id)]))

/-- The target with its cache identity. -/
def identifyTarget (engine : LintRatchetEditCheckEngine N) (d : Discovery N)
    (target : EditCheckTarget) : Option EditCheckTarget :=
  match d.matchedRatchets.get target.testId with
  | none => some target
  | some ratchet =>
    (engine.structuralBaseline.elim (some none) fun baseline => readTest baseline ratchet.id).map
      fun baselineTest =>
        { target with cacheIdentity := some (editCheckTargetCacheIdentity ratchet baselineTest
            ((buildRuleSourceHashesById engine (d.matchedRatchets.entries.map Prod.snd)).get
              ratchet.id)) }

/-- The eligible ratchets whose globs match each edited path; none where the source throws. -/
def discoverEditCheckTargets (engine : LintRatchetEditCheckEngine N) (paths : List JsString) :
    Option (List EditCheckTarget) :=
  let d := paths.foldl (discoverPath engine) {}
  (d.targets.mapM (identifyTarget engine d)).map
    (sortBy fun a b => byPathThenTestId (a.path, a.testId) (b.path, b.testId))

/-! ## Groups -/

/-- The files of one ratchet. -/
structure EditCheckGroup (N : Type) where
  ratchet : LintRatchetConfig N
  ruleSourceHash : JsString
  files : List JsString
  deriving DecidableEq

/-- A target that is checked. -/
structure CheckedTarget (N : Type) where
  path : JsString
  ratchet : LintRatchetConfig N
  ruleSourceHash : JsString

def validateBaselineTestForRatchet (testId : JsString) (test : LintRatchetBaselineTest N)
    (ratchet : LintRatchetConfig N) (expectedRuleSourceHash : JsString)
    (workflowVocabulary : LintRatchetWorkflowVocabulary) : List JsString :=
  (validateBaselineTestAgainstRatchet testId test ratchet expectedRuleSourceHash
    workflowVocabulary).map (·.message)

/-- A target whose test is missing, or is not that of the live registry, is not checked. -/
def checkTest (engine : LintRatchetEditCheckEngine N) (target : EditCheckTarget)
    (ratchet : LintRatchetConfig N) (test : LintRatchetBaselineTest N) :
    Option (CheckedTarget N) :=
  ((buildRuleSourceHashesById engine engine.registry).get target.testId).bind fun ruleSourceHash =>
    if validateBaselineTestForRatchet target.testId test ratchet ruleSourceHash
        engine.workflowVocabulary = [] then
      some { path := target.path, ratchet, ruleSourceHash }
    else none

/-- One pass of the grouping loop; the outer none where the source throws. -/
def checkTarget (engine : LintRatchetEditCheckEngine N) (baseline : LintRatchetBaseline N)
    (target : EditCheckTarget) : Option (Option (CheckedTarget N)) :=
  match (registryById engine.registry).get target.testId with
  | none => some none
  | some ratchet =>
    if !isEligibleEditCheckRatchet ratchet then some none
    else if target.ruleId ≠ ratchet.ruleId then some none
    else (readTest baseline target.testId).map fun test => test.bind (checkTest engine target ratchet)

def joinGroup (group : Option (EditCheckGroup N)) (checked : CheckedTarget N) : EditCheckGroup N :=
  let group := group.getD
    { ratchet := checked.ratchet, ruleSourceHash := checked.ruleSourceHash, files := [] }
  if checked.path ∈ group.files then group
  else { group with files := group.files ++ [checked.path] }

def groupChecked (checked : List (CheckedTarget N)) : JsMap (EditCheckGroup N) :=
  groupFold (fun c => c.ratchet.id) joinGroup .empty checked

def groupTargets (engine : LintRatchetEditCheckEngine N) (targets : List EditCheckTarget)
    (baseline : LintRatchetBaseline N) : Option (List (EditCheckGroup N)) :=
  (targets.mapM (checkTarget engine baseline)).map fun checked =>
    (groupChecked checked.reduceOption).entries.map Prod.snd

/-! ## Linting the groups -/

structure GroupResult (N : Type) where
  regressions : List (EditCheckRegression N) := []
  checked : List JsString := []

abbrev EditCheckResult (N : Type) := GroupResult N

def collectCurrentForRatchet (engine : LintRatchetEditCheckEngine N) (ratchet : LintRatchetConfig N)
    (ruleSourceHash : JsString) (files : List JsString) :
    Except JsString (JsMap (LintRatchetCurrentItem N)) := do
  let results ← runEslintForFiles (engine.spawnEslint ratchet ruleSourceHash) files
  itemsFromResults ratchet results engine.repoRoot

def editCheckRegression (regression : LintRatchetRegression N) : EditCheckRegression N where
  path := regression.path
  testId := regression.testId
  ruleId := regression.ruleId
  reason := regression.reason
  line := regression.line
  baselineCount := regression.baselineCount
  currentCount := regression.currentCount

/-- A file that cannot be parsed is no regression: the group is left out. -/
def regressionsForGroup (engine : LintRatchetEditCheckEngine N) (baseline : LintRatchetBaseline N)
    (group : EditCheckGroup N) : Option (GroupResult N) :=
  match collectCurrentForRatchet engine group.ratchet group.ruleSourceHash group.files with
  | .error _ => some {}
  | .ok items =>
    (compareCurrentToBaseline baseline [group.ratchet] (JsMap.ofList [(group.ratchet.id, items)])
      engine.workflowVocabulary).map fun comparison =>
        { regressions := comparison.regressions.map editCheckRegression, checked := group.files }

/-- The workers, and what they have pushed so far. -/
structure GroupRun (N : Type) extends Pool where
  regressions : List (EditCheckRegression N) := []
  checked : List JsString := []

/-- The states between two callbacks, in whatever order the groups settle. -/
inductive GroupRun.Reachable (engine : LintRatchetEditCheckEngine N)
    (baseline : LintRatchetBaseline N) (groups : List (EditCheckGroup N)) (limit : Nat) :
    GroupRun N → Prop
  | start : Reachable engine baseline groups limit { Pool.start groups.length limit with }
  | settle {run : GroupRun N} {index : Nat} {group : EditCheckGroup N} {result : GroupResult N}
      (reached : Reachable engine baseline groups limit run) (busy : index ∈ run.busy)
      (named : groups[index]? = some group)
      (outcome : regressionsForGroup engine baseline group = some result) :
      Reachable engine baseline groups limit
        { run.toPool.finish groups.length index with
          regressions := run.regressions ++ result.regressions
          checked := run.checked ++ result.checked }

/-- The results that the groups can end with. -/
def RunGroupsWithConcurrency (engine : LintRatchetEditCheckEngine N)
    (groups : List (EditCheckGroup N)) (concurrency : Int) (baseline : LintRatchetBaseline N)
    (result : EditCheckResult N) : Prop :=
  ∃ run, GroupRun.Reachable engine baseline groups
      (max 1 (min concurrency groups.length)).toNat run ∧ run.busy = [] ∧
    result = { regressions := run.regressions, checked := run.checked }

def compareRegressions (left right : EditCheckRegression N) : Int :=
  byPathThenTestId (left.path, left.testId) (right.path, right.testId)

def sortRegressions (regressions : List (EditCheckRegression N)) : List (EditCheckRegression N) :=
  sortBy compareRegressions regressions

/-- The results that the check can end with. -/
inductive RunEditCheckRegressions (engine : LintRatchetEditCheckEngine N)
    (targets : List EditCheckTarget) (concurrency : Int) : EditCheckResult N → Prop
  | untargeted (targets_eq : targets = []) : RunEditCheckRegressions engine targets concurrency {}
  | unread (targets_ne : targets ≠ []) (unread : engine.structuralBaseline = none) :
      RunEditCheckRegressions engine targets concurrency {}
  | merged {baseline : LintRatchetBaseline N} {groups : List (EditCheckGroup N)}
      {result : EditCheckResult N} (targets_ne : targets ≠ [])
      (read : engine.structuralBaseline = some baseline)
      (grouped : groupTargets engine targets baseline = some groups)
      (settled : RunGroupsWithConcurrency engine groups concurrency baseline result) :
      RunEditCheckRegressions engine targets concurrency
        { regressions := sortRegressions result.regressions, checked := result.checked }

/-! ## The full sweep -/

def collectRatchet (engine : LintRatchetEditCheckEngine N) (trackedFiles : List JsString)
    (ratchet : LintRatchetConfig N) :
    Except JsString (JsString × JsMap (LintRatchetCurrentItem N)) :=
  match (buildRuleSourceHashesById engine engine.registry).get ratchet.id with
  | none => .error (js "lint:ratchet: missing rule source hash for " ++ ratchet.id)
  | some ruleSourceHash =>
    (collectCurrentForRatchet engine ratchet ruleSourceHash
      (matchingTrackedFiles ratchet trackedFiles)).map fun items => (ratchet.id, items)

/-- What the gate collects, once every ratchet is collected. -/
def collectCurrentById (engine : LintRatchetEditCheckEngine N) (trackedFiles : List JsString) :
    Except JsString (LintRatchetCurrentById N) :=
  (engine.registry.mapM (collectRatchet engine trackedFiles)).map JsMap.ofList

end Host

/-! ## What the groups hold -/

section Groups
variable {engine : LintRatchetEditCheckEngine N} {targets : List EditCheckTarget}
  {baseline : LintRatchetBaseline N} {groups : List (EditCheckGroup N)} [JsNumber N] [Host]

/-- The check of a target, when it is checked. -/
def checkOf (engine : LintRatchetEditCheckEngine N) (baseline : LintRatchetBaseline N)
    (target : EditCheckTarget) : Option (CheckedTarget N) :=
  (checkTarget engine baseline target).join

theorem checkOf_some {target : EditCheckTarget} {checked : CheckedTarget N}
    (h : checkOf engine baseline target = some checked) :
    checked.path = target.path ∧ checked.ratchet.id = target.testId ∧
      checked.ratchet.ruleId = target.ruleId ∧
      (registryById engine.registry).get checked.ratchet.id = some checked.ratchet := by
  unfold checkOf checkTarget at h
  cases hratchet : (registryById engine.registry).get target.testId with
  | none =>
    rw [hratchet] at h
    cases h
  | some ratchet =>
    have hid := (registryById_id hratchet).2
    simp only [hratchet] at h
    split at h
    · cases h
    · split at h
      · cases h
      · next hrule =>
        obtain ⟨o, ho, h⟩ := Option.join_eq_some_iff.1 h |> fun h => Option.map_eq_some_iff.1 h
        obtain ⟨test, -, htest⟩ := Option.bind_eq_some_iff.1 h
        obtain ⟨hash, -, hcheck⟩ := Option.bind_eq_some_iff.1 htest
        split at hcheck
        · cases hcheck
          exact ⟨rfl, hid, (not_not.1 hrule).symm, hid ▸ hratchet⟩
        · cases hcheck

omit [JsNumber N] [Host] in
/-- Some checked targets of one ratchet are the files of one group. -/
theorem foldl_joinGroup (cs : List (CheckedTarget N)) :
    (cs = [] ∧ cs.foldl (fun o c => some (joinGroup o c)) none = none) ∨
      ∃ group, cs.foldl (fun o c => some (joinGroup o c)) none = some group ∧
        (∃ c ∈ cs, c.ratchet = group.ratchet) ∧ group.files.Nodup ∧
        ∀ path, path ∈ group.files ↔ ∃ c ∈ cs, c.path = path := by
  induction cs using List.reverseRecOn with
  | nil => exact .inl ⟨rfl, rfl⟩
  | append_singleton cs c ih =>
    refine .inr ⟨joinGroup (cs.foldl (fun o c => some (joinGroup o c)) none) c, ?_, ?_⟩
    · rw [List.foldl_append, List.foldl_cons, List.foldl_nil]
    · rcases ih with ⟨rfl, -⟩ | ⟨group, hgroup, ⟨d, hd, hratchet⟩, hnodup, hfiles⟩
      · have hone : joinGroup (List.foldl (fun o c => some (joinGroup o c)) none []) c =
            { ratchet := c.ratchet, ruleSourceHash := c.ruleSourceHash, files := [c.path] } := rfl
        rw [hone]
        exact ⟨⟨c, by simp, rfl⟩, by simp, fun path => by simp [eq_comm]⟩
      · rw [hgroup]
        unfold joinGroup
        dsimp only [Option.getD_some]
        split
        · next hmem =>
          refine ⟨⟨d, List.mem_append_left _ hd, hratchet⟩, hnodup, fun path => ?_⟩
          rw [hfiles]
          constructor
          · rintro ⟨e, he, rfl⟩
            exact ⟨e, List.mem_append_left _ he, rfl⟩
          · rintro ⟨e, he, rfl⟩
            rcases List.mem_append.1 he with he | he
            · exact ⟨e, he, rfl⟩
            · rw [List.mem_singleton.1 he]
              exact (hfiles c.path).1 hmem
        · next hmem =>
          refine ⟨⟨d, List.mem_append_left _ hd, hratchet⟩, ?_, fun path => ?_⟩
          · exact List.nodup_append.2 ⟨hnodup, List.nodup_singleton _, fun a ha b hb hab =>
              hmem (by rw [← List.mem_singleton.1 hb, ← hab]; exact ha)⟩
          · rw [List.mem_append, hfiles, List.mem_singleton]
            constructor
            · rintro (⟨e, he, rfl⟩ | rfl)
              · exact ⟨e, List.mem_append_left _ he, rfl⟩
              · exact ⟨c, by simp, rfl⟩
            · rintro ⟨e, he, rfl⟩
              rcases List.mem_append.1 he with he | he
              · exact .inl ⟨e, he, rfl⟩
              · exact .inr (by rw [List.mem_singleton.1 he])

/-- One group a ratchet, with the paths of its checked targets, each once. -/
structure GroupsOf (engine : LintRatchetEditCheckEngine N) (baseline : LintRatchetBaseline N)
    (targets : List EditCheckTarget) (groups : List (EditCheckGroup N)) : Prop where
  ids : (groups.map fun g => g.ratchet.id).Nodup
  ratchet : ∀ g ∈ groups, (registryById engine.registry).get g.ratchet.id = some g.ratchet
  files : ∀ g ∈ groups, g.files.Nodup
  checked : ∀ testId path, (∃ g ∈ groups, g.ratchet.id = testId ∧ path ∈ g.files) ↔
    ∃ target ∈ targets, target.testId = testId ∧ target.path = path ∧
      (checkOf engine baseline target).isSome

theorem groupTargets_spec (h : groupTargets engine targets baseline = some groups) :
    GroupsOf engine baseline targets groups := by
  obtain ⟨found, hfound, rfl⟩ := Option.map_eq_some_iff.1 h
  have hreduce : found.reduceOption = targets.filterMap (checkOf engine baseline) := by
    clear h
    induction targets generalizing found with
    | nil =>
      cases hfound
      rfl
    | cons target targets ih =>
      rw [List.mapM_cons] at hfound
      obtain ⟨o, ho, hfound⟩ := Option.bind_eq_some_iff.1 hfound
      obtain ⟨os, hos, hfound⟩ := Option.bind_eq_some_iff.1 hfound
      cases hfound
      have hcheck : checkOf engine baseline target = o := by rw [checkOf, ho, Option.join_some]
      cases o with
      | none => rw [List.reduceOption_cons_of_none, List.filterMap_cons_none hcheck, ih os hos]
      | some c => rw [List.reduceOption_cons_of_some, List.filterMap_cons_some hcheck, ih os hos]
  rw [hreduce]
  set cs := targets.filterMap (checkOf engine baseline) with hcs
  have hregistered (c : CheckedTarget N) (hc : c ∈ cs) :
      (registryById engine.registry).get c.ratchet.id = some c.ratchet := by
    obtain ⟨target, -, hcheck⟩ := List.mem_filterMap.1 hc
    exact (checkOf_some hcheck).2.2.2
  -- the group under a test id
  have hgroup (testId : JsString) (g : EditCheckGroup N)
      (hg : (groupChecked cs).get testId = some g) : g.ratchet.id = testId ∧
        (registryById engine.registry).get g.ratchet.id = some g.ratchet ∧ g.files.Nodup ∧
        ∀ path, path ∈ g.files ↔ ∃ c ∈ cs, c.ratchet.id = testId ∧ c.path = path := by
    rw [groupChecked, get_groupFold] at hg
    rcases foldl_joinGroup (cs.filter fun c => c.ratchet.id = testId) with
      ⟨-, hnone⟩ | ⟨g', hsome, ⟨c, hc, hratchet⟩, hnodup, hfiles⟩
    · exact absurd (hg.symm.trans hnone) (by simp)
    · obtain rfl : g = g' := Option.some.inj (hg.symm.trans hsome)
      obtain ⟨hc, hid⟩ := List.mem_filter.1 hc
      refine ⟨hratchet ▸ of_decide_eq_true hid, hratchet ▸ hregistered c hc, hnodup, fun path => ?_⟩
      rw [hfiles]
      simp only [List.mem_filter, decide_eq_true_eq, and_assoc]
  have hentry (g : EditCheckGroup N) (hg : g ∈ (groupChecked cs).entries.map Prod.snd) :
      (groupChecked cs).get g.ratchet.id = some g := by
    obtain ⟨⟨testId, g'⟩, he, rfl⟩ := List.mem_map.1 hg
    have hget := JsMap.mem_entries.1 he
    rwa [← (hgroup testId g' hget).1] at hget
  refine ⟨?_, fun g hg => (hgroup _ g (hentry g hg)).2.1, fun g hg => (hgroup _ g (hentry g hg)).2.2.1,
    fun testId path => ?_⟩
  · have hkeys : ((groupChecked cs).entries.map Prod.snd).map (fun g => g.ratchet.id) =
        (groupChecked cs).keys := by
      rw [List.map_map]
      exact List.map_congr_left fun e he => (hgroup e.1 e.2 (JsMap.mem_entries.1 he)).1
    rw [hkeys]
    exact (groupChecked cs).nodup_keys
  · constructor
    · rintro ⟨g, hg, rfl, hpath⟩
      obtain ⟨c, hc, hid, rfl⟩ := ((hgroup _ g (hentry g hg)).2.2.2 path).1 hpath
      obtain ⟨target, htarget, hcheck⟩ := List.mem_filterMap.1 hc
      obtain ⟨hp, ht, -⟩ := checkOf_some hcheck
      exact ⟨target, htarget, ht ▸ hid, hp.symm, by rw [hcheck]; rfl⟩
    · rintro ⟨target, htarget, rfl, rfl, hsome⟩
      obtain ⟨c, hcheck⟩ := Option.isSome_iff_exists.1 hsome
      have hc : c ∈ cs := List.mem_filterMap.2 ⟨target, htarget, hcheck⟩
      obtain ⟨hp, ht, -⟩ := checkOf_some hcheck
      have hsome : ∃ g, (groupChecked cs).get target.testId = some g := by
        rw [groupChecked, get_groupFold]
        rcases foldl_joinGroup (cs.filter fun c => c.ratchet.id = target.testId) with
          ⟨hempty, -⟩ | ⟨g, hg, -⟩
        · exact absurd hempty (List.ne_nil_of_mem (List.mem_filter.2 ⟨hc, by simpa using ht⟩))
        · exact ⟨g, hg⟩
      obtain ⟨g, hg⟩ := hsome
      obtain ⟨hid, -, -, hfiles⟩ := hgroup _ g hg
      exact ⟨g, List.mem_map.2 ⟨_, JsMap.mem_entries.2 hg, rfl⟩, hid, (hfiles _).2 ⟨c, hc, ht, hp⟩⟩

end Groups

/-! ## Every order of the groups -/

section Runs
variable {engine : LintRatchetEditCheckEngine N} {baseline : LintRatchetBaseline N}
  {groups : List (EditCheckGroup N)} {limit : Nat} {run : GroupRun N} [JsNumber N] [Host]

/-- The result of the group of a number. -/
def resultAt (engine : LintRatchetEditCheckEngine N) (baseline : LintRatchetBaseline N)
    (groups : List (EditCheckGroup N)) (index : Nat) : GroupResult N :=
  ((groups[index]?).bind (regressionsForGroup engine baseline)).getD {}

/-- What the workers have pushed is what the finished groups gave. -/
structure GroupRun.Sound (engine : LintRatchetEditCheckEngine N) (baseline : LintRatchetBaseline N)
    (groups : List (EditCheckGroup N)) (limit : Nat) (run : GroupRun N) : Prop where
  pool : run.toPool.Sound groups.length limit
  regressions : run.regressions =
    run.finished.flatMap fun index => (resultAt engine baseline groups index).regressions
  checked : run.checked =
    run.finished.flatMap fun index => (resultAt engine baseline groups index).checked

theorem GroupRun.Reachable.sound (h : GroupRun.Reachable engine baseline groups limit run) :
    run.Sound engine baseline groups limit := by
  induction h with
  | start =>
    refine ⟨Pool.sound_start groups.length limit, ?_, ?_⟩
    · change [] = (Pool.start groups.length limit).finished.flatMap _
      rw [Pool.finished_start]
      rfl
    · change [] = (Pool.start groups.length limit).finished.flatMap _
      rw [Pool.finished_start]
      rfl
  | @settle run index group result reached busy named outcome ih =>
    have hresult : resultAt engine baseline groups index = result := by
      rw [resultAt, named, Option.bind_some, outcome]
      rfl
    refine ⟨ih.pool.finish busy, ?_, ?_⟩
    · change run.regressions ++ result.regressions =
        (run.toPool.finish groups.length index).finished.flatMap _
      rw [Pool.finished_finish, List.flatMap_append, ← ih.regressions, List.flatMap_singleton, hresult]
    · change run.checked ++ result.checked =
        (run.toPool.finish groups.length index).finished.flatMap _
      rw [Pool.finished_finish, List.flatMap_append, ← ih.checked, List.flatMap_singleton, hresult]

omit [JsNumber N] [Host] in
theorem flatMap_range {α : Type} (groups : List (EditCheckGroup N))
    (f : Option (EditCheckGroup N) → List α) :
    ((List.range groups.length).flatMap fun index => f groups[index]?) =
      groups.flatMap fun g => f (some g) := by
  induction groups with
  | nil => rfl
  | cons g groups ih =>
    rw [List.length_cons, List.range_succ_eq_map, List.flatMap_cons, List.flatMap_map,
      List.flatMap_cons]
    exact congrArg (f (some g) ++ ·) ih

/-- Whatever the concurrency and the order, the groups are merged once each. -/
theorem runGroups_perm {concurrency : Int} {result : EditCheckResult N}
    (h : RunGroupsWithConcurrency engine groups concurrency baseline result) :
    result.regressions.Perm (groups.flatMap fun g =>
        ((regressionsForGroup engine baseline g).getD {}).regressions) ∧
      result.checked.Perm (groups.flatMap fun g =>
        ((regressionsForGroup engine baseline g).getD {}).checked) := by
  obtain ⟨run, hrun, hbusy, rfl⟩ := h
  have hsound := hrun.sound
  have hpos : 0 < (max 1 (min concurrency groups.length)).toNat := by omega
  have hperm := hsound.pool.finished_perm hpos hbusy
  constructor
  · change run.regressions.Perm _
    rw [hsound.regressions]
    refine (hperm.flatMap_right _).trans (.of_eq ?_)
    exact flatMap_range groups fun g =>
      ((g.bind (regressionsForGroup engine baseline)).getD {}).regressions
  · change run.checked.Perm _
    rw [hsound.checked]
    refine (hperm.flatMap_right _).trans (.of_eq ?_)
    exact flatMap_range groups fun g =>
      ((g.bind (regressionsForGroup engine baseline)).getD {}).checked

end Runs

/-! ## The targets of a discovery -/

section Discovered
variable {engine : LintRatchetEditCheckEngine N} {paths : List JsString}
  {discovered targets : List EditCheckTarget} [JsNumber N] [Host]

/-- A target is a raw path at a ratchet that applies to it. -/
structure Discovers (engine : LintRatchetEditCheckEngine N) (rawPath : JsString)
    (ratchet : LintRatchetConfig N) (target : EditCheckTarget) : Prop where
  registered : ratchet ∈ engine.registry
  path : target.path = relativeToRepoRoot engine.repoRoot rawPath
  testId : target.testId = ratchet.id
  ruleId : target.ruleId = ratchet.ruleId
  eligible : isEligibleEditCheckRatchet ratchet = true
  globs : configMatches ratchet target.path = true

/-- What the loop has seen of a target. -/
def seenKey (target : EditCheckTarget) : JsString := target.path ++ js "\t" ++ target.testId

structure Discovery.Sound (engine : LintRatchetEditCheckEngine N) (paths : List JsString)
    (d : Discovery N) : Prop where
  targets : ∀ target ∈ d.targets, ∃ rawPath ∈ paths, ∃ ratchet,
    Discovers engine rawPath ratchet target
  matched : ∀ target ∈ d.targets, ∃ ratchet, d.matchedRatchets.get target.testId = some ratchet ∧
    ratchet.id = target.testId
  seen : d.seen = d.targets.map seenKey
  nodup : d.seen.Nodup

omit [JsNumber N] in
theorem Discovery.Sound.discoverTarget {d : Discovery N} (h : d.Sound engine paths)
    {rawPath : JsString} (hpath : rawPath ∈ paths) {ratchet : LintRatchetConfig N}
    (hratchet : ratchet ∈ engine.registry) :
    (discoverTarget (relativeToRepoRoot engine.repoRoot rawPath) d ratchet).Sound engine paths := by
  unfold LintRatchet.discoverTarget
  split
  · exact h
  · next heligible =>
    split
    · exact h
    · next hglobs =>
      split
      · exact h
      · next hnew =>
        simp only [Bool.not_eq_true', Bool.not_eq_false] at heligible hglobs
        refine ⟨fun target htarget => ?_, fun target htarget => ?_, ?_, ?_⟩
        · rcases List.mem_append.1 htarget with htarget | htarget
          · exact h.targets target htarget
          · obtain rfl := List.mem_singleton.1 htarget
            exact ⟨rawPath, hpath, ratchet, hratchet, rfl, rfl, rfl, heligible, hglobs⟩
        · simp only [JsMap.get_set]
          by_cases hid : target.testId = ratchet.id
          · exact ⟨ratchet, if_pos hid, hid.symm⟩
          · rcases List.mem_append.1 htarget with htarget | htarget
            · simpa only [if_neg hid] using h.matched target htarget
            · obtain rfl := List.mem_singleton.1 htarget
              exact absurd rfl hid
        · rw [List.map_append, ← h.seen]
          rfl
        · refine List.nodup_append.2 ⟨h.nodup, List.nodup_singleton _, fun a ha b hb hab => ?_⟩
          rw [List.mem_singleton.1 hb] at hab
          exact hnew (hab ▸ ha)

omit [JsNumber N] in
theorem discovery_sound (engine : LintRatchetEditCheckEngine N) (paths : List JsString) :
    (paths.foldl (discoverPath engine) {}).Sound engine paths := by
  have hstart : ({} : Discovery N).Sound engine paths := by
    refine ⟨fun target htarget => ?_, fun target htarget => ?_, rfl, List.nodup_nil⟩
    · cases htarget
    · cases htarget
  refine List.foldlRecOn paths _ hstart fun d hd rawPath hraw => ?_
  exact List.foldlRecOn engine.registry _ hd fun d hd ratchet hratchet =>
    hd.discoverTarget hraw hratchet

omit [JsNumber N] in
theorem mem_seen_discoverTarget {path key : JsString} {d : Discovery N} (h : key ∈ d.seen)
    (ratchet : LintRatchetConfig N) : key ∈ (discoverTarget path d ratchet).seen := by
  unfold discoverTarget
  split
  · exact h
  · split
    · exact h
    · split
      · exact h
      · exact List.mem_append_left _ h

omit [JsNumber N] in
/-- Every eligible ratchet that matches a path is seen there. -/
theorem seen_discovery {rawPath : JsString} (hpath : rawPath ∈ paths)
    {ratchet : LintRatchetConfig N} (hratchet : ratchet ∈ engine.registry)
    (heligible : isEligibleEditCheckRatchet ratchet = true)
    (hglobs : configMatches ratchet (relativeToRepoRoot engine.repoRoot rawPath) = true) :
    relativeToRepoRoot engine.repoRoot rawPath ++ js "\t" ++ ratchet.id ∈
      (paths.foldl (discoverPath engine) {}).seen := by
  have hkeeps (key : JsString) (d : Discovery N) (raw : JsString) (h : key ∈ d.seen) :
      key ∈ (discoverPath engine d raw).seen :=
    List.foldlRecOn engine.registry _ (motive := fun d : Discovery N => key ∈ d.seen) h
      fun d hd ratchet _ => mem_seen_discoverTarget hd ratchet
  refine foldl_of_mem (P := fun d : Discovery N => _ ∈ d.seen) (fun d raw h => hkeeps _ d raw h)
    hpath (fun d => ?_) {}
  refine foldl_of_mem (P := fun d : Discovery N => _ ∈ d.seen)
    (fun d ratchet h => mem_seen_discoverTarget h ratchet) hratchet (fun d => ?_) d
  unfold discoverTarget
  rw [heligible, hglobs, if_neg (by decide), if_neg (by decide)]
  split
  · next hseen => exact hseen
  · exact List.mem_append_right _ (List.mem_singleton.2 rfl)

/-- What identification keeps of a target. -/
theorem identifyTarget_some {d : Discovery N} {found target : EditCheckTarget}
    {ratchet : LintRatchetConfig N} (hmatched : d.matchedRatchets.get found.testId = some ratchet)
    (h : identifyTarget engine d found = some target) :
    (∃ identity, target = { found with cacheIdentity := some identity } ∧
      ∃ text, identity = js "sha256:" ++ Host.sha256 text) ∧
    ∀ baseline, engine.structuralBaseline = some baseline →
      ∃ test, readTest baseline ratchet.id = some test := by
  rw [identifyTarget, hmatched] at h
  obtain ⟨test, htest, rfl⟩ := Option.map_eq_some_iff.1 h
  refine ⟨⟨_, rfl, _, rfl⟩, fun baseline hbaseline => ?_⟩
  rw [hbaseline, Option.elim_some] at htest
  exact ⟨test, htest⟩

/-- The targets of a discovery are those that the loop found, with their identities. -/
theorem discovered_forall₂ (h : discoverEditCheckTargets engine paths = some discovered) :
    ∃ identified, discovered.Perm identified ∧
      List.Forall₂ (fun found target => identifyTarget engine
        (paths.foldl (discoverPath engine) {}) found = some target)
        (paths.foldl (discoverPath engine) {}).targets identified := by
  rw [discoverEditCheckTargets] at h
  obtain ⟨identified, hidentified, rfl⟩ := Option.map_eq_some_iff.1 h
  refine ⟨identified, sortBy_perm _ _, ?_⟩
  clear h
  revert hidentified
  generalize (paths.foldl (discoverPath engine) {}).targets = founds
  intro hidentified
  induction founds generalizing identified with
  | nil =>
    cases hidentified
    exact .nil
  | cons found founds ih =>
    rw [List.mapM_cons] at hidentified
    obtain ⟨t, ht, hidentified⟩ := Option.bind_eq_some_iff.1 hidentified
    obtain ⟨ts, hts, hidentified⟩ := Option.bind_eq_some_iff.1 hidentified
    cases hidentified
    exact .cons ht (ih ts hts)

/-- What a discovered target is; its test can be read. -/
theorem discovered_spec (h : discoverEditCheckTargets engine paths = some discovered)
    {target : EditCheckTarget} (htarget : target ∈ discovered) :
    (∃ rawPath ∈ paths, ∃ ratchet, Discovers engine rawPath ratchet target) ∧
      (∃ text, target.cacheIdentity = some (js "sha256:" ++ Host.sha256 text)) ∧
      ∀ baseline, engine.structuralBaseline = some baseline →
        ∃ test, readTest baseline target.testId = some test := by
  have hsound := discovery_sound engine paths
  obtain ⟨identified, hperm, hall⟩ := discovered_forall₂ h
  have hfrom : ∃ found ∈ (paths.foldl (discoverPath engine) {}).targets,
      identifyTarget engine (paths.foldl (discoverPath engine) {}) found = some target := by
    rw [hperm.mem_iff] at htarget
    clear hsound h hperm
    revert hall
    generalize (paths.foldl (discoverPath engine) {}).targets = founds
    intro hall
    induction hall with
    | nil => cases htarget
    | @cons found t founds ts ht _ ih =>
      rcases List.mem_cons.1 htarget with rfl | htarget
      · exact ⟨found, List.mem_cons_self, ht⟩
      · obtain ⟨f, hf, he⟩ := ih htarget
        exact ⟨f, List.mem_cons_of_mem _ hf, he⟩
  obtain ⟨found, hfound, hidentify⟩ := hfrom
  obtain ⟨rawPath, hraw, ratchet, hdiscovers⟩ := hsound.targets found hfound
  obtain ⟨matched, hmatched, hid⟩ := hsound.matched found hfound
  obtain ⟨⟨identity, rfl, text, rfl⟩, hreads⟩ := identifyTarget_some hmatched hidentify
  refine ⟨⟨rawPath, hraw, ratchet, hdiscovers.registered, hdiscovers.path, hdiscovers.testId,
    hdiscovers.ruleId, hdiscovers.eligible, hdiscovers.globs⟩, ⟨text, rfl⟩,
    fun baseline hbaseline => ?_⟩
  obtain ⟨test, htest⟩ := hreads baseline hbaseline
  exact ⟨test, hid ▸ htest⟩

/-- Identification keeps what the loop has seen. -/
theorem discovered_keys (h : discoverEditCheckTargets engine paths = some discovered) :
    (discovered.map seenKey).Perm (paths.foldl (discoverPath engine) {}).seen := by
  have hsound := discovery_sound engine paths
  obtain ⟨identified, hperm, hall⟩ := discovered_forall₂ h
  refine (hperm.map seenKey).trans (.of_eq ?_)
  rw [hsound.seen]
  have hmatched := hsound.matched
  clear hsound h hperm
  revert hall hmatched
  generalize (paths.foldl (discoverPath engine) {}).targets = founds
  intro hall hmatched
  induction hall with
  | nil => rfl
  | @cons found t founds ts ht _ ih =>
    rw [List.forall_mem_cons] at hmatched
    obtain ⟨ratchet, hratchet, -⟩ := hmatched.1
    obtain ⟨⟨identity, rfl, -⟩, -⟩ := identifyTarget_some hratchet ht
    rw [List.map_cons, List.map_cons, ih hmatched.2]
    rfl

end Discovered

end

end Musi.LintRatchet
