import Musi.LintRatchet.Kernel.BaselineRoundTrip
import Musi.LintRatchet.Kernel.CollectorFindings
import Musi.Js.JsonWire

namespace Musi.LintRatchet
open Musi.Js
set_option autoImplicit true

section Order
variable {N : Type} [JsNumber N]

/-! ## Results in another order -/

/-- The same file with its messages in another order. -/
structure SameFile (left right : ESLintFileResult N) : Prop where
  filePath : left.filePath = right.filePath
  messages : left.messages.Perm right.messages

/-- The results in another order, and the messages of each in another order. -/
def Rearranged (results results' : List (ESLintFileResult N)) : Prop :=
  ∃ reordered, results.Perm reordered ∧ List.Forall₂ SameFile reordered results'

/-- ESLint judges every file by itself, whatever files it is called with. -/
def LintsAlone (spawnEslint : List JsString → Except JsString (List (ESLintFileResult N)))
    (lint : JsString → List (ESLintFileResult N)) : Prop :=
  ∀ files, ∃ results, spawnEslint files = .ok results ∧ results.Perm (files.flatMap lint)

omit [JsNumber N] in
theorem Rearranged.located {results results' : List (ESLintFileResult N)}
    (h : Rearranged results results') : (located results).Perm (located results') := by
  obtain ⟨reordered, hp, hsame⟩ := h
  refine (hp.flatMap_right _).trans ?_
  clear hp
  induction hsame with
  | nil => exact .refl _
  | @cons left right lefts rights hfile _ ih =>
    have hhead : (left.messages.map fun message => (left.filePath, message)).Perm
        (right.messages.map fun message => (right.filePath, message)) := by
      rw [hfile.filePath]
      exact hfile.messages.map _
    exact hhead.append ih

omit [JsNumber N] in
/-- However the files are split, the chunks give the results of all files in some order. -/
theorem runEslintForChunks_perm
    {spawnEslint : List JsString → Except JsString (List (ESLintFileResult N))}
    {lint : JsString → List (ESLintFileResult N)} (h : LintsAlone spawnEslint lint)
    {results : List (ESLintFileResult N)} (chunks : List (List JsString))
    (hresults : spawnEslint chunks.flatten = .ok results) :
    ∃ results', runEslintForChunks spawnEslint chunks = .ok results' ∧ results.Perm results' := by
  have hchunks : ∃ parts, chunks.mapM spawnEslint = .ok parts ∧
      parts.flatten.Perm (chunks.flatten.flatMap lint) := by
    clear hresults
    induction chunks with
    | nil => exact ⟨[], rfl, .refl _⟩
    | cons chunk chunks ih =>
      obtain ⟨part, hpart, hp⟩ := h chunk
      obtain ⟨parts, hparts, hps⟩ := ih
      refine ⟨part :: parts, ?_, ?_⟩
      · rw [List.mapM_cons, hpart, hparts]
        rfl
      · rw [List.flatten_cons, List.flatten_cons, List.flatMap_append]
        exact hp.append hps
  obtain ⟨parts, hparts, hperm⟩ := hchunks
  obtain ⟨whole, hwhole, hlint⟩ := h chunks.flatten
  rw [hresults] at hwhole
  cases hwhole
  exact ⟨parts.flatten, by rw [runEslintForChunks, hparts]; rfl, hlint.trans hperm.symm⟩

omit [JsNumber N] in
/-- Any message can be the first. -/
theorem exists_rearranged_first {results : List (ESLintFileResult N)}
    {x : JsString × ESLintMessage N} (h : x ∈ located results) :
    ∃ results', Rearranged results results' ∧ ∃ rest, located results' = x :: rest := by
  obtain ⟨result, hresult, hx⟩ := List.mem_flatMap.1 h
  obtain ⟨message, hmessage, rfl⟩ := List.mem_map.1 hx
  obtain ⟨before, after, rfl⟩ := List.append_of_mem hresult
  obtain ⟨earlier, later, hsplit⟩ := List.append_of_mem hmessage
  refine ⟨⟨result.filePath, message :: (earlier ++ later)⟩ :: (before ++ after),
    ⟨result :: (before ++ after), List.perm_middle, .cons ⟨rfl, ?_⟩
      (List.forall₂_same.2 fun r _ => ⟨rfl, .refl _⟩)⟩, _, rfl⟩
  rw [hsplit]
  exact List.perm_middle

section Host
variable [Host]

/-! ## The text of a collection -/

/-- The baseline that is built from the items of one ratchet. -/
def collectedBaseline (ratchet : LintRatchetConfig N) (ruleSourceHash : JsString)
    (workflowVocabulary : LintRatchetWorkflowVocabulary)
    (items : JsMap (LintRatchetCurrentItem N)) : Option (LintRatchetBaseline N) :=
  buildLintRatchetBaseline [ratchet] (JsMap.ofList [(ratchet.id, items)])
    (JsMap.ofList [(ratchet.id, ruleSourceHash)]) workflowVocabulary

/-- The bytes that the results of a ratchet give, unless the collector throws. -/
def collectedText (ratchet : LintRatchetConfig N) (ruleSourceHash repoRootPath : JsString)
    (workflowVocabulary : LintRatchetWorkflowVocabulary) (results : List (ESLintFileResult N)) :
    Option JsString :=
  (itemsFromResults ratchet results repoRootPath).toOption.bind fun items =>
    (collectedBaseline ratchet ruleSourceHash workflowVocabulary items).map fun baseline =>
      formatLintRatchetBaseline baseline workflowVocabulary

variable (ratchet : LintRatchetConfig N) (ruleSourceHash repoRootPath : JsString)
  (workflowVocabulary : LintRatchetWorkflowVocabulary)

/-- The one test of a collected baseline. -/
def collectedTest (items : JsMap (LintRatchetCurrentItem N)) : LintRatchetBaselineTest N :=
  baselineTestFromConfig ratchet (some items) ruleSourceHash

/-- The baseline with that test. -/
def collectedDocument (items : JsMap (LintRatchetCurrentItem N)) : LintRatchetBaseline N where
  version := annotatedVersion
  regenerate := some (.str workflowVocabulary.updateCommand)
  tests := Record.assignAll [(ratchet.id, collectedTest ratchet ruleSourceHash items)]

theorem collectedBaseline_eq (items : JsMap (LintRatchetCurrentItem N)) :
    collectedBaseline ratchet ruleSourceHash workflowVocabulary items =
      some (collectedDocument ratchet ruleSourceHash workflowVocabulary items) := by
  have hget {α : Type} (v : α) : (JsMap.ofList [(ratchet.id, v)]).get ratchet.id = some v := by
    rw [JsMap.get_ofList]
    simp
  rw [collectedBaseline, buildLintRatchetBaseline]
  simp only [builtTests, hget, Option.map_some]
  rfl

omit [JsNumber N] [Host] in
theorem own_assignAll {α : Type} {es : Entries α} (hn : (Entries.keys es).Nodup) (k : JsString) :
    (Record.assignAll es).own k = if k = js "__proto__" then none else es.lookup k := by
  rw [Record.assignAll, Record.own_fromEntries_of_nodup (hn.sublist (List.filter_sublist.map _)),
    Entries.lookup_filter hn]
  by_cases hk : k = js "__proto__"
  · cases es.lookup k <;> simp [hk]
  · cases es.lookup k <;> simp [hk]

theorem own_collectedDocument (items : JsMap (LintRatchetCurrentItem N)) (testId : JsString) :
    (collectedDocument ratchet ruleSourceHash workflowVocabulary items).tests.own testId =
      if testId = js "__proto__" then none
      else if testId = ratchet.id then some (collectedTest ratchet ruleSourceHash items)
      else none := by
  rw [collectedDocument, own_assignAll (by simp), Entries.lookup_cons]
  rfl

omit [JsNumber N] in
/-- The items that reach the baseline: those of paths with findings, in their formatted form. -/
theorem own_positiveMetricItems (metric : LintRatchetMetric)
    (items : JsMap (LintRatchetCurrentItem N)) (path : JsString) :
    (positiveMetricItems metric (some items)).own path =
      if path = js "__proto__" then none
      else ((items.get path).filter fun item => item.count > 0).map fun item =>
        formatItem metric item.toLintRatchetMetricItem := by
  have hsorted := nodup_keys_sortBy (fun a b => compareByCodepoint a.1 b.1) items.nodup
  have hfiltered := hsorted.sublist
    ((List.filter_sublist (p := fun e => decide (e.2.count > 0))).map Prod.fst)
  have hdef : positiveMetricItems metric (some items) = Record.assignAll
      (((sortBy (fun a b => compareByCodepoint a.1 b.1) items.entries).filter fun e =>
        e.2.count > 0).map fun e =>
          (e.1, metricItemForFormat metric e.2.toLintRatchetMetricItem)) := rfl
  rw [hdef, own_assignAll (nodup_keys_mapValues hfiltered fun item =>
      metricItemForFormat metric item.toLintRatchetMetricItem),
    Entries.lookup_map fun _ (item : LintRatchetCurrentItem N) =>
      metricItemForFormat metric item.toLintRatchetMetricItem]
  refine congrArg (fun v => if path = js "__proto__" then none else v) ?_
  refine congrArg (Option.map _) ?_
  refine (Entries.lookup_filter hsorted (fun e => decide (e.2.count > 0)) path).trans ?_
  exact congrArg (fun o => Option.filter _ o)
    (Entries.lookup_perm hsorted (sortBy_perm _ _) path)

/-- The text depends on the formatted items alone. -/
theorem format_collectedDocument {items items' : JsMap (LintRatchetCurrentItem N)}
    (h : ratchet.id ≠ js "__proto__" → ∀ path,
      (positiveMetricItems ratchet.metric (some items)).own path =
        (positiveMetricItems ratchet.metric (some items')).own path) :
    formatLintRatchetBaseline (collectedDocument ratchet ruleSourceHash workflowVocabulary items)
        workflowVocabulary =
      formatLintRatchetBaseline (collectedDocument ratchet ruleSourceHash workflowVocabulary items')
        workflowVocabulary := by
  have hitems (hid : ratchet.id ≠ js "__proto__") :
      canonicalItems ratchet.metric (positiveMetricItems ratchet.metric (some items)) =
        canonicalItems ratchet.metric (positiveMetricItems ratchet.metric (some items')) := by
    refine sortedRecord_congr (Record.nodup _ |>.sublist (List.filter_sublist.map _))
      (Record.nodup _ |>.sublist (List.filter_sublist.map _)) fun path => ?_
    have hlookup (record : Record LintRatchetMetricItem) :=
      Entries.lookup_filter record.nodup (fun e => decide (e.2.count > 0)) path
    rw [hlookup, hlookup]
    exact congrArg (fun o => Option.map (formatItem ratchet.metric)
      (Option.filter (fun item => decide (item.count > 0)) o)) (h hid path)
  have htest (hid : ratchet.id ≠ js "__proto__") :
      canonicalTest (collectedTest ratchet ruleSourceHash items) =
        canonicalTest (collectedTest ratchet ruleSourceHash items') := by
    rw [canonicalTest, canonicalTest]
    exact congrArg (fun r => LintRatchetBaselineTest.mk _ r) (hitems hid)
  rw [formatLintRatchetBaseline_eq, formatLintRatchetBaseline_eq]
  refine congrArg baselineText ?_
  rw [canonicalBaseline, canonicalBaseline]
  refine congrArg (LintRatchetBaseline.mk _ _) ?_
  refine sortedRecord_congr (Record.nodup _) (Record.nodup _) fun testId => ?_
  have hown := own_collectedDocument ratchet ruleSourceHash workflowVocabulary (N := N)
  have hleft := hown items testId
  have hright := hown items' testId
  rw [Record.own] at hleft hright
  rw [hleft, hright]
  by_cases hproto : testId = js "__proto__"
  · rw [if_pos hproto, if_pos hproto]
  · rw [if_neg hproto, if_neg hproto]
    by_cases hid : testId = ratchet.id
    · rw [if_pos hid, if_pos hid, Option.map_some, Option.map_some, htest (hid ▸ hproto)]
    · rw [if_neg hid, if_neg hid]

/-! ## The item of a path in another order -/

omit [JsNumber N] in
/-- Functions that tie in the order of the file are the same function. -/
def TiesEqual (functions : ComplexityFunctions) : Prop :=
  ∀ f ∈ functions, ∀ g ∈ functions, compareComplexityFunction f g = 0 → f = g

omit [JsNumber N] in
theorem sortBy_tiesEqual {functions functions' : ComplexityFunctions} (h : TiesEqual functions)
    (hp : functions.Perm functions') :
    sortBy compareComplexityFunction functions = sortBy compareComplexityFunction functions' := by
  have hconsistent := compareComplexityFunction_consistent
  refine eq_of_perm_sorted (sortBy_sorted hconsistent _) (sortBy_sorted hconsistent _)
    ((sortBy_perm _ _).trans (hp.trans (sortBy_perm _ _).symm)) fun f hf g hg hfg hgf => ?_
  exact h f (mem_sortBy.1 hf) g (hp.mem_iff.2 (mem_sortBy.1 hg)) (hconsistent.zero_of_le hfg hgf)

theorem messageFingerprintFor_perm {identities identities' : List JsString}
    (h : identities.Perm identities') :
    messageFingerprintFor N identities = messageFingerprintFor N identities' := by
  rw [messageFingerprintFor, messageFingerprintFor, sortStrings, sortStrings,
    sortBy_eq_of_perm compareCodeUnits_strict h]

/-- What the formatter makes of the findings of a path does not depend on their order. -/
theorem formatItem_itemOf {metric : LintRatchetMetric} {findings findings' : List (Finding N)}
    {item item' : LintRatchetCurrentItem N} (hp : findings.Perm findings')
    (hi : ItemOf findings item.toLintRatchetMetricItem)
    (hi' : ItemOf findings' item'.toLintRatchetMetricItem) {identities identities' : List JsString}
    (hids : identities.Perm identities') (hties : metric = .complexitySeverity →
      TiesEqual (findings.filterMap fun f => f.metric.complexity)) :
    formatItem metric (stampFingerprint identities item).toLintRatchetMetricItem =
      formatItem metric (stampFingerprint identities' item').toLintRatchetMetricItem := by
  have hstamp (ids : List JsString) (i : LintRatchetCurrentItem N) :
      (stampFingerprint ids i).count = i.count ∧ (stampFingerprint ids i).lines = i.lines ∧
      (stampFingerprint ids i).perFunction = i.perFunction ∧
      (stampFingerprint ids i).messagesFingerprint =
        if ids = [] then i.messagesFingerprint else some (messageFingerprintFor N ids) := by
    rw [stampFingerprint]
    split
    · next h => exact ⟨rfl, rfl, rfl, rfl⟩
    · next h => exact ⟨rfl, rfl, rfl, rfl⟩
  obtain ⟨hcount, hlines, hfunctions, hfingerprint⟩ := hstamp identities item
  obtain ⟨hcount', hlines', hfunctions', hfingerprint'⟩ := hstamp identities' item'
  have hcounts : item.count = item'.count := by rw [hi.count, hi'.count, hp.length_eq]
  cases metric with
  | messageCount =>
    simp only [formatItem, hcount, hcount', hfingerprint, hfingerprint', hcounts,
      hi.messagesFingerprint, hi'.messagesFingerprint, messageFingerprintFor_perm hids]
    by_cases hempty : identities = []
    · subst hempty
      rw [List.nil_perm.1 hids]
    · rw [if_neg hempty, if_neg fun he : identities' = [] => hempty (List.perm_nil.1 (he ▸ hids))]
  | effectiveLineCount =>
    simp only [formatItem, hcount, hcount', hlines, hlines', hcounts, hi.lines, hi'.lines,
      largest_perm (hp.filterMap _)]
  | complexitySeverity =>
    have hfs := hp.filterMap fun f => f.metric.complexity
    have hsorted : sortedComplexityFunctions (stampFingerprint identities item).toLintRatchetMetricItem =
        sortedComplexityFunctions (stampFingerprint identities' item').toLintRatchetMetricItem := by
      rw [sortedComplexityFunctions, sortedComplexityFunctions, hfunctions, hfunctions',
        hi.perFunction, hi'.perFunction, listed, listed]
      by_cases hempty : findings.filterMap (fun f => f.metric.complexity) = []
      · rw [if_pos hempty, if_pos (List.nil_perm.1 (hempty ▸ hfs))]
      · have hempty' : findings'.filterMap (fun f => f.metric.complexity) ≠ [] := fun he =>
          hempty (List.perm_nil.1 (he ▸ hfs))
        rw [if_neg hempty, if_neg hempty', Option.map_some, Option.map_some,
          sortBy_tiesEqual (hties rfl) hfs]
    simp only [formatItem, hsorted, hcount, hcount', hcounts]

/-- Reordered findings give a path the same item in the file. -/
theorem own_itemsOf_perm {metric : LintRatchetMetric} {findings findings' : List (Finding N)}
    (hp : findings.Perm findings') (path : JsString)
    (hties : metric = .complexitySeverity → path ≠ js "__proto__" →
      TiesEqual ((findings.filter fun f => f.path = path).filterMap fun f => f.metric.complexity)) :
    (positiveMetricItems metric (some (itemsOf findings))).own path =
      (positiveMetricItems metric (some (itemsOf findings'))).own path := by
  rw [own_positiveMetricItems, own_positiveMetricItems, get_itemsOf, get_itemsOf]
  by_cases hproto : path = js "__proto__"
  · rw [if_pos hproto, if_pos hproto]
  · rw [if_neg hproto, if_neg hproto]
    have hpath := hp.filter fun f => f.path = path
    have hids : (identitiesFor findings path).Perm (identitiesFor findings' path) :=
      ((hp.filterMap _).filter _).map _
    rcases itemFor_itemOf (findings.filter fun f => f.path = path) with ⟨hnil, hnone⟩ | ⟨item, hs, hi⟩
    · have hnil' : findings'.filter (fun f => f.path = path) = [] := by
        rw [hnil] at hpath
        exact List.nil_perm.1 hpath
      have hnone' : itemFor (findings'.filter fun f => f.path = path) = none := by rw [hnil']; rfl
      rw [hnone, hnone']
      rfl
    · rcases itemFor_itemOf (findings'.filter fun f => f.path = path) with
        ⟨hnil', -⟩ | ⟨item', hs', hi'⟩
      · rw [hnil'] at hpath
        rw [List.perm_nil.1 hpath] at hs
        cases hs
      · have hpositive (ids : List JsString) {fs : List (Finding N)} {i : LintRatchetCurrentItem N}
            (h : ItemOf fs i.toLintRatchetMetricItem) (hne : fs ≠ []) :
            Option.filter (fun i => decide (i.count > 0)) (some (stampFingerprint ids i)) =
              some (stampFingerprint ids i) := by
          have hcount : (stampFingerprint ids i).count = fs.length := by
            rw [stampFingerprint]
            split <;> exact h.count
          have hlength := List.length_pos_iff.2 hne
          rw [Option.filter_some, hcount, decide_eq_true hlength, if_pos rfl]
        have hne : findings.filter (fun f => f.path = path) ≠ [] := fun he => by
          rw [he] at hs
          cases hs
        have hne' : findings'.filter (fun f => f.path = path) ≠ [] := fun he => by
          rw [he] at hs'
          cases hs'
        rw [hs, hs', Option.map_some, Option.map_some, hpositive _ hi hne, hpositive _ hi' hne',
          Option.map_some, Option.map_some,
          formatItem_itemOf hpath hi hi' hids fun hmetric => hties hmetric hproto]

end Host

end Order

end Musi.LintRatchet
