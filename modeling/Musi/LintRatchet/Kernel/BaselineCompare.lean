import Musi.Js.Throw
import Musi.LintRatchet.Kernel.Baseline

namespace Musi.LintRatchet
open Musi.Js
set_option autoImplicit true

variable {N : Type}

def removedPathImprovement (ratchet : LintRatchetConfig N) (path : JsString)
    (item : LintRatchetMetricItem) : LintRatchetImprovement where
  testId := ratchet.id
  ruleId := ratchet.ruleId
  path := path
  baselineCount := item.count
  currentCount := 0
  reason := .removedPath

def registeredGroups (baseline : RatchetGrouped N) (ratchetsById : JsMap (LintRatchetConfig N)) :
    JsMap (RatchetGroup N) :=
  JsMap.ofList (baseline.groups.entries.filter fun e => ratchetsById.has e.1)

/-- The floor items of collected items. -/
def floorItems (items : Option (JsMap (LintRatchetCurrentItem N))) : JsMap LintRatchetMetricItem :=
  match items with
  | none => JsMap.empty
  | some items => JsMap.ofList (items.entries.map fun e => (e.1, e.2.toLintRatchetMetricItem))

def currentGroups (baselineGroups : JsMap (RatchetGroup N)) (currentById : LintRatchetCurrentById N) :
    JsMap (RatchetGroup N) :=
  JsMap.ofList (baselineGroups.entries.map fun e =>
    (e.1, { groupMeta := e.2.groupMeta, items := floorItems (currentById.get e.1) }))

variable [JsNumber N] [Host]

/-- The order of the comparison's lists: by test id, then by path. -/
def compareByTestIdThenPath (left right : JsString × JsString) : Int :=
  let testCompare := Host.localeCompare left.1 right.1
  if testCompare ≠ 0 then testCompare else Host.localeCompare left.2 right.2

/-- What the comparison loop records for one compared item; `none` where the source throws. -/
def recordedItem (ratchetsById : JsMap (LintRatchetConfig N)) (currentById : LintRatchetCurrentById N)
    (compared : ComparedGroupedItem LintRatchetMetricItem) : Option (MetricItemComparison N) :=
  match ratchetsById.get compared.groupId, compared.currentItem with
  | none, _ => none
  | some ratchet, none =>
    some { improvement := compared.baselineItem.map (removedPathImprovement ratchet compared.itemKey) }
  | some ratchet, some _ =>
    ((currentById.get compared.groupId).bind fun items => items.get compared.itemKey).map
      fun current => compareItem ratchet.metric
        { ratchet, path := compared.itemKey, baselineItem := compared.baselineItem, current }

/-- The lists of a comparison from what its rounds recorded. -/
def sortedDeltas (results : List (MetricItemComparison N)) : LintRatchetComparison N where
  regressions := sortBy (fun a b => compareByTestIdThenPath (a.testId, a.path) (b.testId, b.path))
    (results.filterMap (·.regression))
  improvements := sortBy (fun a b => compareByTestIdThenPath (a.testId, a.path) (b.testId, b.path))
    (results.filterMap (·.improvement))
  infos := sortBy (fun a b => compareByTestIdThenPath (a.testId, a.path) (b.testId, b.path))
    (results.filterMap (·.info))

def compareCurrentToBaseline (baseline : LintRatchetBaseline N) (ratchets : List (LintRatchetConfig N))
    (currentById : LintRatchetCurrentById N) (workflowVocabulary : LintRatchetWorkflowVocabulary) :
    Option (LintRatchetComparison N) :=
  let ratchetsById := registryById ratchets
  let groups := registeredGroups (lintRatchetBaselineToGrouped baseline) ratchetsById
  let compared := comparedGroupedItems
    (lintRatchetBaselineSpec (N := N) defaultVersionPolicy workflowVocabulary defaultBaselineFilename)
    groups (currentGroups groups currentById)
  (compared.mapM (recordedItem ratchetsById currentById)).map sortedDeltas

/-! ## Lookups -/

section Lookups

omit [JsNumber N] [Host]

theorem registryById_id {ratchets : List (LintRatchetConfig N)} {testId : JsString}
    {ratchet : LintRatchetConfig N} (h : (registryById ratchets).get testId = some ratchet) :
    ratchet ∈ ratchets ∧ ratchet.id = testId := by
  obtain ⟨r, hr, he⟩ := List.mem_map.1 (JsMap.mem_of_get_ofList h)
  cases he
  exact ⟨hr, rfl⟩

theorem get_positiveItemMap (items : Record LintRatchetMetricItem) (path : JsString) :
    (positiveItemMap items).get path = (items.own path).filter fun item => item.count > 0 :=
  JsMap.get_ofList_filter items.nodup (fun e => e.2.count > 0) path

theorem get_floorItems (items : Option (JsMap (LintRatchetCurrentItem N))) (path : JsString) :
    (floorItems items).get path =
      (items.bind fun m => m.get path).map LintRatchetCurrentItem.toLintRatchetMetricItem := by
  cases items with
  | none => rfl
  | some m => exact JsMap.get_ofList_map m.nodup (fun _ i => i.toLintRatchetMetricItem) path

theorem get_registeredGroups (baseline : RatchetGrouped N)
    (ratchetsById : JsMap (LintRatchetConfig N)) (testId : JsString) :
    (registeredGroups baseline ratchetsById).get testId =
      if ratchetsById.has testId then baseline.groups.get testId else none := by
  rw [registeredGroups, JsMap.get_ofList_filter baseline.groups.nodup]
  change (baseline.groups.get testId).filter (fun _ => ratchetsById.has testId) = _
  cases baseline.groups.get testId <;> simp [Option.filter]

theorem get_currentGroups (groups : JsMap (RatchetGroup N)) (currentById : LintRatchetCurrentById N)
    (testId : JsString) : (currentGroups groups currentById).get testId =
      (groups.get testId).map fun g =>
        { groupMeta := g.groupMeta, items := floorItems (currentById.get testId) } :=
  JsMap.get_ofList_map groups.nodup (fun t (g : RatchetGroup N) =>
    ({ groupMeta := g.groupMeta, items := floorItems (currentById.get t) } : RatchetGroup N)) testId

theorem get_currentByIdFromBaseline (baseline : LintRatchetBaseline N) (testId path : JsString) :
    ((currentByIdFromBaseline baseline).get testId).bind (fun items => items.get path) =
      ((baseline.tests.own testId).bind fun test => test.items.own path).map (currentItemOf N) := by
  rw [currentByIdFromBaseline, JsMap.get_ofList_map baseline.tests.nodup fun _ test =>
    JsMap.ofList (test.items.entries.map fun i => (i.1, currentItemOf N i.2))]
  change ((baseline.tests.own testId).map _).bind _ = _
  cases baseline.tests.own testId with
  | none => rfl
  | some test => exact JsMap.get_ofList_map test.items.nodup (fun _ => currentItemOf N) path

end Lookups

/-! ## What the comparison visits -/

/-- What the comparison says about one path of one ratchet. -/
def comparisonAt (baseline : LintRatchetBaseline N) (ratchets : List (LintRatchetConfig N))
    (currentById : LintRatchetCurrentById N) (testId path : JsString) : MetricItemComparison N :=
  match (registryById ratchets).get testId, baseline.tests.own testId with
  | some ratchet, some test =>
    let baselineItem := (test.items.own path).filter fun item => item.count > 0
    match (currentById.get testId).bind fun items => items.get path with
    | some current => compareItem ratchet.metric { ratchet, path, baselineItem, current }
    | none => { improvement := baselineItem.map (removedPathImprovement ratchet path) }
  | _, _ => {}

section Visits

variable (baseline : LintRatchetBaseline N) (ratchets : List (LintRatchetConfig N))
  (currentById : LintRatchetCurrentById N)

/-- The groups of a baseline that the registry knows. -/
def comparedGroups : JsMap (RatchetGroup N) :=
  registeredGroups (lintRatchetBaselineToGrouped baseline) (registryById ratchets)

omit [JsNumber N] [Host] in
theorem get_comparedGroups (testId : JsString) :
    (comparedGroups baseline ratchets).get testId =
      if (registryById ratchets).has testId then (baseline.tests.own testId).map groupOfTest
      else none := by
  rw [comparedGroups, get_registeredGroups, get_toGrouped]

theorem recordedItem_compared {testId path : JsString} (spec : GroupedBaselineSpec N
    (LintRatchetBaselineGroupMeta N) LintRatchetMetricItem)
    (h : (testId, path) ∈ comparedKeys spec (comparedGroups baseline ratchets)
      (currentGroups (comparedGroups baseline ratchets) currentById)) :
    recordedItem (registryById ratchets) currentById
      { groupId := testId, itemKey := path
        baselineItem := (groupItems (comparedGroups baseline ratchets) testId).get path
        currentItem := (groupItems (currentGroups (comparedGroups baseline ratchets) currentById)
          testId).get path } =
      some (comparisonAt baseline ratchets currentById testId path) := by
  rw [mem_comparedKeys] at h
  have hmem : testId ∈ (comparedGroups baseline ratchets).keys := by
    rcases h with h | h
    · exact mem_groupItems_keys h
    · obtain ⟨g, hg⟩ := JsMap.mem_keys.1 (mem_groupItems_keys h)
      rw [get_currentGroups] at hg
      obtain ⟨g', hg', -⟩ := Option.map_eq_some_iff.1 hg
      exact JsMap.mem_keys.2 ⟨g', hg'⟩
  obtain ⟨group, hgroup⟩ := JsMap.mem_keys.1 hmem
  have hg := hgroup
  rw [get_comparedGroups] at hg
  split at hg
  · next hhas =>
    obtain ⟨ratchet, hratchet⟩ := Option.isSome_iff_exists.1 hhas
    obtain ⟨test, htest, rfl⟩ := Option.map_eq_some_iff.1 hg
    have hbase : (groupItems (comparedGroups baseline ratchets) testId).get path =
        (test.items.own path).filter fun item => item.count > 0 := by
      rw [groupItems, hgroup]
      exact get_positiveItemMap test.items path
    have hcurrent : (groupItems (currentGroups (comparedGroups baseline ratchets) currentById)
        testId).get path = ((currentById.get testId).bind fun items => items.get path).map
          LintRatchetCurrentItem.toLintRatchetMetricItem := by
      rw [groupItems, get_currentGroups, hgroup]
      exact get_floorItems _ path
    simp only [recordedItem, comparisonAt, hratchet, htest, hbase, hcurrent]
    cases (currentById.get testId).bind fun items => items.get path <;> rfl
  · cases hg

theorem comparisonAt_unvisited {testId path : JsString} (spec : GroupedBaselineSpec N
    (LintRatchetBaselineGroupMeta N) LintRatchetMetricItem)
    (h : (testId, path) ∉ comparedKeys spec (comparedGroups baseline ratchets)
      (currentGroups (comparedGroups baseline ratchets) currentById)) :
    comparisonAt baseline ratchets currentById testId path = {} := by
  rw [mem_comparedKeys, not_or, ← JsMap.get_none, ← JsMap.get_none] at h
  unfold comparisonAt
  split
  · next ratchet test hratchet htest =>
    have hgroup : (comparedGroups baseline ratchets).get testId = some (groupOfTest test) := by
      rw [get_comparedGroups, JsMap.has, hratchet, htest]
      rfl
    have hb : (test.items.own path).filter (fun item => item.count > 0) = none := by
      rw [← get_positiveItemMap, ← h.1, groupItems, hgroup]
      rfl
    have hc : (currentById.get testId).bind (fun items => items.get path) = none := by
      have := h.2
      rw [groupItems, get_currentGroups, hgroup] at this
      exact Option.map_eq_none_iff.1 ((get_floorItems _ path).symm.trans this)
    rw [hb, hc]
    rfl
  · rfl

/-- The keys that the comparison visits. -/
def visitedKeys (workflowVocabulary : LintRatchetWorkflowVocabulary) : List (JsString × JsString) :=
  comparedKeys (lintRatchetBaselineSpec (N := N) defaultVersionPolicy workflowVocabulary
      defaultBaselineFilename)
    (comparedGroups baseline ratchets)
    (currentGroups (comparedGroups baseline ratchets) currentById)

theorem compareCurrentToBaseline_visited (workflowVocabulary : LintRatchetWorkflowVocabulary) :
    compareCurrentToBaseline baseline ratchets currentById workflowVocabulary =
      some (sortedDeltas ((visitedKeys baseline ratchets currentById workflowVocabulary).map
        fun k => comparisonAt baseline ratchets currentById k.1 k.2)) := by
  change ((comparedGroupedItems _ (comparedGroups baseline ratchets) (currentGroups
    (comparedGroups baseline ratchets) currentById)).mapM
      (recordedItem (registryById ratchets) currentById)).map sortedDeltas = _
  rw [comparedGroupedItems_eq, List.mapM_map]
  exact congrArg (Option.map sortedDeltas) (mapM_eq_map fun k hk =>
    recordedItem_compared baseline ratchets currentById _ hk)

/-- The comparison never throws; it sorts what it finds at each visited path, once a path. -/
theorem compareCurrentToBaseline_eq (workflowVocabulary : LintRatchetWorkflowVocabulary) :
    ∃ keys : List (JsString × JsString), keys.Nodup ∧
      (∀ k ∉ keys, comparisonAt baseline ratchets currentById k.1 k.2 = {}) ∧
      compareCurrentToBaseline baseline ratchets currentById workflowVocabulary =
        some (sortedDeltas (keys.map fun k => comparisonAt baseline ratchets currentById k.1 k.2)) :=
  ⟨visitedKeys baseline ratchets currentById workflowVocabulary, nodup_comparedKeys _ _ _,
    fun _ hk => comparisonAt_unvisited baseline ratchets currentById _ hk,
    compareCurrentToBaseline_visited baseline ratchets currentById workflowVocabulary⟩

end Visits

end Musi.LintRatchet
