import Musi.LintRatchet.Kernel.MergeIdentity

namespace Musi.LintRatchet
open Musi.Js Musi.Merge
set_option autoImplicit true

section
variable {N : Type} [JsNumber N] [Host] {metric : LintRatchetMetric} {testId path : JsString}
  {x y z : LintRatchetMetricItem}

/-! ## Two items of one path -/

omit [Host] in
theorem deterministicMessagesFingerprint_comm (s t : Option JsString) :
    deterministicMessagesFingerprint s t = deterministicMessagesFingerprint t s := by
  unfold deterministicMessagesFingerprint
  by_cases h : s = t
  · rw [if_pos h, if_pos h.symm, h]
  · rw [if_neg h, if_neg (Ne.symm h)]
    cases s with
    | none => cases t <;> rfl
    | some s =>
      cases t with
      | none => rfl
      | some t =>
        have hne : s ≠ t := fun heq => h (congrArg some heq)
        dsimp only
        rcases stringLess_total s t with hst | hst | hts
        · have hts : ¬ stringLess t s = true := fun hts => by
            have := stringLess_trans hst hts
            simp [stringLess, compareCodeUnits_strict.self] at this
          rw [if_pos hst, if_neg hts]
        · exact (hne hst).elim
        · have hst : ¬ stringLess s t = true := fun hst => by
            have := stringLess_trans hst hts
            simp [stringLess, compareCodeUnits_strict.self] at this
          rw [if_neg hst, if_pos hts]

omit [JsNumber N] [Host] in
theorem deterministicMessagesFingerprint_mem {s t : Option JsString} {u : JsString}
    (h : u ∈ deterministicMessagesFingerprint s t) : u ∈ s ∨ u ∈ t := by
  unfold deterministicMessagesFingerprint at h
  split at h
  · exact .inl h
  · split at h
    · exact .inr h
    · exact .inl h
    · split at h
      · exact .inl h
      · exact .inr h

/-- Items of one count meet alike from either side. -/
theorem meetSameCountItem_comm (hx : ItemWellFormed N x) (hy : ItemWellFormed N y)
    (hc : x.count = y.count) (location : JsString) :
    meetSameCountItem N metric location x y = meetSameCountItem N metric location y x := by
  cases metric with
  | messageCount =>
    simp only [meetSameCountItem, hc, deterministicMessagesFingerprint_comm x.messagesFingerprint,
      ne_comm (a := x.messagesFingerprint)]
  | effectiveLineCount =>
    simp only [meetSameCountItem]
    cases hlx : x.lines with
    | none => cases y.lines <;> rfl
    | some l =>
      cases hly : y.lines with
      | none => rfl
      | some m =>
        have hmin : (if l ≤ m then l else m) = if m ≤ l then m else l := by
          rcases lt_trichotomy l m with h | h | h
          · rw [if_pos h.le, if_neg h.not_ge]
          · rw [h]
          · rw [if_neg h.not_ge, if_pos h.le]
        simp only [hc, hmin, ne_comm (a := l)]
  | complexitySeverity =>
    have hsame := sameItem_iff (hx.formatItem .complexitySeverity) (hy.formatItem .complexitySeverity)
    have hsame' := sameItem_iff (hy.formatItem .complexitySeverity) (hx.formatItem .complexitySeverity)
    simp only [meetSameCountItem]
    by_cases h : formatItem .complexitySeverity x = formatItem .complexitySeverity y
    · rw [if_pos (hsame.2 h), if_pos (hsame'.2 h.symm), h]
    · rw [if_neg (mt hsame.1 h), if_neg (mt hsame'.1 (Ne.symm h))]

/-- A shared path merges alike from either side. -/
theorem mergeSharedItem_comm (hx : ItemWellFormed N x) (hy : ItemWellFormed N y) :
    mergeSharedItem N metric testId path x y = mergeSharedItem N metric testId path y x := by
  unfold mergeSharedItem lowerCountItem
  rcases lt_trichotomy x.count y.count with h | h | h
  · rw [if_pos h, if_neg h.not_gt, if_pos h]
  · rw [if_neg h.not_lt, if_neg h.not_gt, if_neg h.not_gt, if_neg h.not_lt,
      meetSameCountItem_comm hx hy h]
  · rw [if_neg h.not_gt, if_pos h, if_pos h]

/-- The item z is a floor of the item x of one side: no higher, and the same canonical item when
nothing was given up. -/
structure FloorOf (metric : LintRatchetMetric) (truthUp : Bool) (x z : LintRatchetMetricItem) :
    Prop where
  count : z.count ≤ x.count
  lines : z.count = x.count → ∀ l ∈ x.lines, ∀ m ∈ z.lines, m ≤ l
  kept : truthUp = false → formatItem metric z = formatItem metric x

omit [JsNumber N] in
theorem FloorOf.refl (metric : LintRatchetMetric) (truthUp : Bool) (x : LintRatchetMetricItem) :
    FloorOf metric truthUp x x :=
  ⟨le_rfl, fun _ l hl m hm => by rw [Option.mem_unique hl hm], fun _ => rfl⟩

/-- What two items of one count meet in. -/
theorem meetSameCountItem_floor (hx : ItemWellFormed N x) (hy : ItemWellFormed N y)
    (hc : x.count = y.count) {location : JsString}
    (h : (meetSameCountItem N metric location x y).failure = none) :
    ∃ z, (meetSameCountItem N metric location x y).item = some z ∧ ItemWellFormed N z ∧
      z.count = x.count ∧
      FloorOf metric (meetSameCountItem N metric location x y).postMergeTruthUpRequired x z ∧
      FloorOf metric (meetSameCountItem N metric location x y).postMergeTruthUpRequired y z := by
  cases metric with
  | messageCount =>
    refine ⟨_, rfl, ⟨hx.count, by simp, by simp, by simp, ?_⟩, rfl, ⟨le_rfl, by simp, fun h => ?_⟩,
      ⟨hc.le, by simp, fun h => ?_⟩⟩
    · exact fun s hs => (deterministicMessagesFingerprint_mem hs).elim (hx.messagesFingerprint s)
        (hy.messagesFingerprint s)
    · have heq : x.messagesFingerprint = y.messagesFingerprint := by
        simpa [meetSameCountItem] using h
      simp [formatItem, deterministicMessagesFingerprint, heq]
    · have heq : x.messagesFingerprint = y.messagesFingerprint := by
        simpa [meetSameCountItem] using h
      simp [formatItem, deterministicMessagesFingerprint, heq, hc]
  | effectiveLineCount =>
    simp only [meetSameCountItem] at h ⊢
    cases hlx : x.lines with
    | none =>
      rw [hlx] at h
      cases h
    | some l =>
      cases hly : y.lines with
      | none =>
        rw [hlx, hly] at h
        cases h
      | some m =>
        refine ⟨_, rfl, ⟨hx.count, ?_, by simp, by simp, by simp⟩, rfl, ⟨le_rfl, ?_, ?_⟩,
          ⟨hc.le, ?_, ?_⟩⟩
        · intro n hn
          cases hn
          split
          · exact hx.lines l hlx
          · exact hy.lines m hly
        · intro _ l' hl' n hn
          cases hn
          cases hlx.symm.trans hl'
          split
          · exact le_rfl
          · next hle => exact (lt_of_not_ge hle).le
        · intro heq
          have heq : l = m := by simpa using heq
          simp [formatItem, hlx, heq]
        · intro _ l' hl' n hn
          cases hn
          cases hly.symm.trans hl'
          split
          · next hle => exact hle
          · exact le_rfl
        · intro heq
          have heq : l = m := by simpa using heq
          simp [formatItem, hly, heq, hc]
  | complexitySeverity =>
    have hsame := sameItem_iff (hx.formatItem .complexitySeverity) (hy.formatItem .complexitySeverity)
    simp only [meetSameCountItem] at h ⊢
    split at h
    · next heq =>
      rw [if_pos heq]
      have heq := hsame.1 heq
      have hlines (item : LintRatchetMetricItem) :
          (formatItem .complexitySeverity item).lines = none := by
        simp only [formatItem]
        split <;> rfl
      refine ⟨_, rfl, hx.formatItem _, by simp, ⟨by simp, by simp [hlines], fun _ => formatItem_idem _ _⟩,
        ⟨by simp [hc], by simp [hlines], fun _ => ?_⟩⟩
      rw [formatItem_idem, heq]
    · cases h

/-- The item that a shared path keeps. -/
theorem mergeSharedItem_floor (hx : ItemWellFormed N x) (hy : ItemWellFormed N y)
    (h : (mergeSharedItem N metric testId path x y).failure = none) :
    ∃ z, (mergeSharedItem N metric testId path x y).item = some z ∧ ItemWellFormed N z ∧
      (z.count = x.count ∨ z.count = y.count) ∧
      FloorOf metric (mergeSharedItem N metric testId path x y).truthUp x z ∧
      FloorOf metric (mergeSharedItem N metric testId path x y).truthUp y z := by
  unfold mergeSharedItem lowerCountItem at h ⊢
  rcases lt_trichotomy x.count y.count with hlt | heq | hgt
  · rw [if_pos hlt]
    exact ⟨x, rfl, hx, .inl rfl, .refl _ _ _, ⟨hlt.le, fun hne => (hlt.ne hne).elim, nofun⟩⟩
  · rw [if_neg heq.not_lt, if_neg heq.not_gt] at h ⊢
    dsimp only at h ⊢
    cases hfail : (meetSameCountItem N metric (testId ++ js ".items." ++ path) x y).failure with
    | some failure =>
      rw [hfail] at h
      cases h
    | none =>
      obtain ⟨z, hitem, hwf, hcount, hfloor⟩ := meetSameCountItem_floor hx hy heq hfail
      exact ⟨z, hitem, hwf, .inl hcount, hfloor⟩
  · rw [if_neg hgt.not_gt, if_pos hgt]
    exact ⟨y, rfl, hy, .inr rfl, ⟨hgt.le, fun hne => (hgt.ne hne).elim, nofun⟩, .refl _ _ _⟩

/-! ## Two changed tests -/

/-- How one path of two changed tests resolves. -/
def resolveItem (N : Type) [JsNumber N] (metric : LintRatchetMetric) (testId path : JsString)
    (base current other : Option LintRatchetMetricItem) : ItemMergeOutcome LintRatchetMetricItem :=
  match current, other with
  | some x, some y => mergeSharedItem N metric testId path x y
  | some x, none => if base.isNone then { item := some x } else { truthUp := true }
  | none, some y => if base.isNone then { item := some y } else { truthUp := true }
  | none, none => {}

/-- How one path resolves in the merge of three tests. -/
def resolvePath (testId : JsString) (base : Option (LintRatchetBaselineTest N))
    (current other : LintRatchetBaselineTest N) (path : JsString) :
    ItemMergeOutcome LintRatchetMetricItem :=
  resolveItem N current.metric testId path (base.bind (·.items.own path)) (current.items.own path)
    (other.items.own path)

omit [Host] in
theorem get_groupOfTest {test : LintRatchetBaselineTest N} (h : TestWellFormed testId test)
    (path : JsString) : (groupOfTest test).items.get path = test.items.own path := by
  have hpos (path item) (hi : test.items.own path = some item) : 0 < item.count := (h.items path item hi).2
  have hfilter : test.items.entries.filter (fun e => e.2.count > 0) = test.items.entries :=
    List.filter_eq_self.2 fun e he => by simpa using hpos e.1 e.2 (Record.mem_entries.1 he)
  rw [groupOfTest, positiveItemMap, hfilter, JsMap.get_ofList_of_nodup test.items.nodup]
  rfl

/-- The items that the round of two changed tests keeps. -/
structure ChangedRound (testId : JsString) (base : Option (LintRatchetBaselineTest N))
    (current other : LintRatchetBaselineTest N)
    (round : ChangedGroupResult (LintRatchetBaselineGroupMeta N) LintRatchetMetricItem) : Prop where
  failures : round.failures = [] ↔
    current.toLintRatchetBaselineGroupMeta = other.toLintRatchetBaselineGroupMeta ∧
      ∀ path, (resolvePath testId base current other path).failure = none
  group : round.failures = [] → ∃ group, round.group = some group ∧
    group.groupMeta = current.toLintRatchetBaselineGroupMeta ∧
    ∀ path item, group.items.get path = some item ↔
      (resolvePath testId base current other path).item = some item ∧ 0 < item.count
  truthUp : round.failures = [] → (round.truthUpRequired = true ↔
    ∃ path, (resolvePath testId base current other path).truthUp = true)

/-- The item merge of two changed tests. -/
def mergeItems (testId : JsString) (base : Option (LintRatchetBaselineTest N))
    (current other : LintRatchetBaselineTest N) : ItemMapMergeResult LintRatchetMetricItem :=
  mergeItemMaps
    { itemMergePolicy testId current.toLintRatchetBaselineGroupMeta with
      count := fun item => (JsNumber.ofInt item.count : N) }
    { base := ((base.map groupOfTest).map (·.items)).getD JsMap.empty
      current := (groupOfTest current).items, other := (groupOfTest other).items
      compareKeys := compareByCodepoint }

theorem mergeChangedGroup_eq {base : Option (LintRatchetBaselineTest N)}
    {current other : LintRatchetBaselineTest N}
    (versionPolicy : LintRatchetBaselineVersionPolicy)
    (workflowVocabulary : LintRatchetWorkflowVocabulary) (baselineFile : JsString) :
    mergeChangedGroup (lintRatchetBaselineSpec versionPolicy workflowVocabulary baselineFile)
        testId (base.map groupOfTest) (groupOfTest current) (groupOfTest other) =
      if sameCanonicalValue (metaJson current.toLintRatchetBaselineGroupMeta)
          (metaJson other.toLintRatchetBaselineGroupMeta) then
        { group := some
            { groupMeta := current.toLintRatchetBaselineGroupMeta
              items := JsMap.ofList (mergeItems testId base current other).merged }
          failures := (mergeItems testId base current other).failures
          truthUpRequired := (mergeItems testId base current other).failures.isEmpty &&
            (mergeItems testId base current other).truthUpRequired }
      else
        { group := none
          failures := [testId ++ js ": baseline group metadata differs between sides; regenerate the baseline after resolving other conflicts"]
          truthUpRequired := false } := by
  simp only [mergeChangedGroup, lintRatchetBaselineSpec, mergeItems, groupOfTest]
  by_cases hsame : sameCanonicalValue (metaJson current.toLintRatchetBaselineGroupMeta)
    (metaJson other.toLintRatchetBaselineGroupMeta) = true
  · simp only [hsame, Bool.not_true, Bool.false_eq_true, if_false, if_true]
  · simp only [hsame, Bool.not_eq_true', Bool.false_eq_true, if_false, if_true]

/-- How the item merge resolves a path. -/
theorem resolveKey_tests {base : Option (LintRatchetBaselineTest N)}
    {current other : LintRatchetBaselineTest N}
    (hb : ∀ test, base = some test → TestWellFormed testId test)
    (hc : TestWellFormed testId current) (ho : TestWellFormed testId other) (path : JsString) :
    resolveKey
        { itemMergePolicy testId current.toLintRatchetBaselineGroupMeta with
          count := fun item => (JsNumber.ofInt item.count : N) }
        { base := ((base.map groupOfTest).map (·.items)).getD JsMap.empty
          current := (groupOfTest current).items, other := (groupOfTest other).items
          compareKeys := compareByCodepoint } path =
      resolvePath testId base current other path := by
  have hbase : (((base.map groupOfTest).map (·.items)).getD JsMap.empty).get path =
      base.bind (·.items.own path) := by
    cases base with
    | none => rfl
    | some test => exact get_groupOfTest (hb test rfl) path
  unfold resolveKey resolvePath resolveItem
  dsimp only
  rw [hbase, get_groupOfTest hc, get_groupOfTest ho]
  cases current.items.own path with
  | none =>
    cases other.items.own path with
    | none => rfl
    | some y => cases base.bind (·.items.own path) <;> rfl
  | some x =>
    cases other.items.own path with
    | none => cases base.bind (·.items.own path) <;> rfl
    | some y => rfl

theorem mergeChangedGroup_tests {base : Option (LintRatchetBaselineTest N)}
    {current other : LintRatchetBaselineTest N}
    (versionPolicy : LintRatchetBaselineVersionPolicy)
    (workflowVocabulary : LintRatchetWorkflowVocabulary) (baselineFile : JsString)
    (hb : ∀ test, base = some test → TestWellFormed testId test)
    (hc : TestWellFormed testId current) (ho : TestWellFormed testId other) :
    ChangedRound testId base current other
      (mergeChangedGroup (lintRatchetBaselineSpec versionPolicy workflowVocabulary baselineFile)
        testId (base.map groupOfTest) (groupOfTest current) (groupOfTest other)) := by
  have hmeta := sameMeta_iff hc.ruleOptions ho.ruleOptions
  have hresolve := resolveKey_tests (N := N) hb hc ho
  have hfailures : (mergeItems testId base current other).failures = [] ↔
      ∀ path, (resolvePath testId base current other path).failure = none := by
    simp only [mergeItems, failures_mergeItemMaps, hresolve]
  rw [mergeChangedGroup_eq]
  by_cases hsame : sameCanonicalValue (metaJson current.toLintRatchetBaselineGroupMeta)
    (metaJson other.toLintRatchetBaselineGroupMeta) = true
  · rw [if_pos hsame]
    refine ⟨?_, fun hnil => ⟨_, rfl, rfl, fun path item => ?_⟩, fun hnil => ?_⟩
    · exact hfailures.trans (and_iff_right (hmeta.1 hsame)).symm
    · have hless : JsNumber.less (JsNumber.ofInt 0) (JsNumber.ofInt item.count : N) = true ↔
          0 < item.count := by
        rw [JsNumber.less_ofInt (by decide), decide_eq_true_eq]
        omega
      have hget := get_mergeItemMaps
        { itemMergePolicy testId current.toLintRatchetBaselineGroupMeta with
          count := fun item => (JsNumber.ofInt item.count : N) }
        { base := ((base.map groupOfTest).map (·.items)).getD JsMap.empty
          current := (groupOfTest current).items, other := (groupOfTest other).items
          compareKeys := compareByCodepoint } path item
      rw [hresolve, hless, and_iff_right (hfailures.1 hnil path)] at hget
      exact hget
    · have htruth := truthUp_mergeItemMaps (N := N) hnil
      simp only [hresolve] at htruth
      dsimp only at hnil ⊢
      rw [hnil, List.isEmpty_nil, Bool.true_and]
      exact htruth
  · rw [if_neg hsame]
    exact ⟨iff_of_false (by simp) fun h => hsame (hmeta.2 h.1), nofun, nofun⟩

end

end Musi.LintRatchet
