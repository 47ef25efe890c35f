import Musi.LintRatchet.Kernel.EntryBaseline
import Musi.LintRatchet.Kernel.GroupBaselineCompare
import Musi.LintRatchet.Kernel.Ledger

namespace Musi.LintRatchet
open Musi.Js
set_option autoImplicit true

variable {N Entry : Type} [JsNumber N] [BaselineEntry N Entry]

/-! ## The flat gate -/

structure GateResult where
  status : GateStatus
  added : List JsString
  removed : List JsString
  increased : List JsString
  decreased : List JsString
  deriving DecidableEq

def countByKey (entries : List Entry) : JsMap N :=
  JsMap.ofList (entries.map fun entry => (BaselineEntry.key N entry, entryCount N entry))

section
variable [Host]

def sortedKeys (keys : List JsString) : List JsString := sortBy Host.localeCompare keys

/-- The keys that the loop over the current counts has pushed. -/
structure PushedKeys where
  added : List JsString := []
  increased : List JsString := []
  decreased : List JsString := []

def pushKey (baselineCounts : JsMap N) (pushed : PushedKeys) (entry : JsString × N) : PushedKeys :=
  match baselineCounts.get entry.1 with
  | none => { pushed with added := pushed.added ++ [entry.1] }
  | some baselineCount =>
    if JsNumber.less baselineCount entry.2 then
      { pushed with increased := pushed.increased ++ [entry.1] }
    else if JsNumber.less entry.2 baselineCount then
      { pushed with decreased := pushed.decreased ++ [entry.1] }
    else pushed

def gateEntries (N : Type) {Entry : Type} [JsNumber N] [BaselineEntry N Entry]
    (baseline current : List Entry) : GateResult :=
  let baselineCounts : JsMap N := countByKey baseline
  let currentCounts : JsMap N := countByKey current
  let pushed := currentCounts.entries.foldl (pushKey baselineCounts) {}
  let removed := baselineCounts.keys.filter fun key => !currentCounts.has key
  let result : GateResult :=
    { status := .ok, added := sortedKeys pushed.added, removed := sortedKeys removed
      increased := sortedKeys pushed.increased, decreased := sortedKeys pushed.decreased }
  if result.added.length > 0 || result.increased.length > 0 then { result with status := .regressed }
  else if result.removed.length > 0 || result.decreased.length > 0 then
    { result with status := .improved }
  else result

end

/-! ## The movement of a key -/

def PushedKeys.keys (pushed : PushedKeys) : KeyMovement → List JsString
  | .added => pushed.added
  | .increased => pushed.increased
  | .decreased => pushed.decreased
  | _ => []

/-- The list of a gate for a movement. -/
def GateResult.keys (result : GateResult) : KeyMovement → List JsString
  | .added => result.added
  | .removed => result.removed
  | .increased => result.increased
  | .decreased => result.decreased
  | .equal => []

/-- How the gate moves a key. -/
def movementAt (N : Type) {Entry : Type} [JsNumber N] [BaselineEntry N Entry]
    (baseline current : List Entry) (key : JsString) : Option KeyMovement :=
  keyMovement ((countByKey baseline : JsMap N).get key) ((countByKey current : JsMap N).get key)

omit [BaselineEntry N Entry] in
theorem keys_pushKey (baselineCounts : JsMap N) (pushed : PushedKeys) (entry : JsString × N)
    (m : KeyMovement) : (pushKey baselineCounts pushed entry).keys m = pushed.keys m ++
      if keyMovement (baselineCounts.get entry.1) (some entry.2) = some m then
        if m = .equal then [] else [entry.1]
      else [] := by
  obtain ⟨key, count⟩ := entry
  rw [pushKey]
  dsimp only
  cases baselineCounts.get key with
  | none =>
    cases m with
    | added => rfl
    | _ => exact (List.append_nil _).symm
  | some baselineCount =>
    dsimp only
    by_cases hup : JsNumber.less baselineCount count = true
    · have hmove : keyMovement (some baselineCount) (some count) = some .increased := if_pos hup
      simp only [hmove]
      rw [if_pos hup]
      cases m with
      | increased => rfl
      | _ => exact (List.append_nil _).symm
    · rw [if_neg hup]
      by_cases hdown : JsNumber.less count baselineCount = true
      · have hmove : keyMovement (some baselineCount) (some count) = some .decreased :=
          (if_neg hup).trans (if_pos hdown)
        simp only [hmove]
        rw [if_pos hdown]
        cases m with
        | decreased => rfl
        | _ => exact (List.append_nil _).symm
      · have hmove : keyMovement (some baselineCount) (some count) = some .equal :=
          (if_neg hup).trans (if_neg hdown)
        simp only [hmove]
        rw [if_neg hdown]
        cases m with
        | _ => exact (List.append_nil _).symm

omit [BaselineEntry N Entry] in
theorem keys_foldl_pushKey (baselineCounts : JsMap N) (entries : Entries N) (pushed : PushedKeys)
    {m : KeyMovement} (hm : m ≠ .equal) :
    (entries.foldl (pushKey baselineCounts) pushed).keys m = pushed.keys m ++
      (entries.filter fun entry =>
        keyMovement (baselineCounts.get entry.1) (some entry.2) = some m).map Prod.fst := by
  induction entries generalizing pushed with
  | nil => exact (List.append_nil _).symm
  | cons entry entries ih =>
    rw [List.foldl_cons, ih, keys_pushKey, if_neg hm, List.append_assoc, List.filter_cons]
    by_cases h : keyMovement (baselineCounts.get entry.1) (some entry.2) = some m
    · rw [if_pos h, if_pos (decide_eq_true h)]
      rfl
    · rw [if_neg h, if_neg (by simpa using h)]
      rfl

theorem keyMovement_equal {baseline current : Option N} :
    keyMovement baseline current = some .equal ↔ ∃ n, baseline = some n ∧ current = some n := by
  constructor
  · intro h
    rcases baseline with _ | a
    · rcases current with _ | b <;> cases h
    · rcases current with _ | b
      · cases h
      · rw [keyMovement] at h
        rcases JsNumber.less_total a b with hab | rfl | hba
        · rw [if_pos hab] at h
          cases h
        · exact ⟨a, rfl, rfl⟩
        · split at h
          · cases h
          · cases h
  · rintro ⟨n, rfl, rfl⟩
    rw [keyMovement, JsNumber.less_irrefl]
    rfl

theorem keyMovement_isSome {baseline current : Option N} :
    (keyMovement baseline current).isSome = (baseline.isSome || current.isSome) := by
  rcases baseline with _ | a
  · rcases current with _ | b
    · rfl
    · rfl
  · rcases current with _ | b
    · rfl
    · rw [keyMovement]
      split
      · rfl
      · split
        · rfl
        · rfl

section
variable [Host]

/-- The gate lists under a movement exactly the keys that move so. -/
theorem keys_gateEntries (baseline current : List Entry) {m : KeyMovement} (hm : m ≠ .equal) :
    ∃ keys : List JsString,
      (gateEntries N baseline current).keys m = sortBy Host.localeCompare keys ∧ keys.Nodup ∧
        ∀ key, key ∈ keys ↔ movementAt N baseline current key = some m := by
  have hkeys : (gateEntries N baseline current).keys m = sortedKeys (if m = .removed then
      (countByKey baseline : JsMap N).keys.filter fun key =>
        !(countByKey current : JsMap N).has key
      else ((countByKey current : JsMap N).entries.foldl
        (pushKey (countByKey baseline)) {}).keys m) := by
    rw [gateEntries]
    dsimp only
    split
    · cases m with
      | equal => exact absurd rfl hm
      | _ => rfl
    · split
      · cases m with
        | equal => exact absurd rfl hm
        | _ => rfl
      · cases m with
        | equal => exact absurd rfl hm
        | _ => rfl
  by_cases hremoved : m = .removed
  · subst hremoved
    rw [if_pos rfl] at hkeys
    refine ⟨_, hkeys, (JsMap.nodup_keys _).filter _, fun key => ?_⟩
    rw [List.mem_filter, JsMap.mem_keys, JsMap.has, movementAt]
    cases (countByKey baseline : JsMap N).get key with
    | none =>
      cases (countByKey current : JsMap N).get key with
      | none => simp [keyMovement]
      | some count => simp [keyMovement]
    | some baselineCount =>
      cases (countByKey current : JsMap N).get key with
      | none => simp [keyMovement]
      | some count =>
        rw [keyMovement]
        split
        · simp
        · split <;> simp
  · rw [if_neg hremoved, keys_foldl_pushKey _ _ _ hm] at hkeys
    have hnone : ({} : PushedKeys).keys m = [] := by cases m <;> rfl
    rw [hnone, List.nil_append] at hkeys
    refine ⟨_, hkeys, (JsMap.nodup_keys _).sublist (List.filter_sublist.map _), fun key => ?_⟩
    rw [List.mem_map, movementAt]
    constructor
    · rintro ⟨⟨key', count⟩, hentry, rfl⟩
      obtain ⟨hmem, hmove⟩ := List.mem_filter.1 hentry
      rw [JsMap.mem_entries.1 hmem]
      exact of_decide_eq_true hmove
    · intro hmove
      cases hcount : (countByKey current : JsMap N).get key with
      | none =>
        rw [hcount] at hmove
        cases hbase : (countByKey baseline : JsMap N).get key with
        | none => rw [hbase] at hmove; cases hmove
        | some count =>
          rw [hbase] at hmove
          exact absurd (Option.some.inj hmove).symm hremoved
      | some count =>
        rw [hcount] at hmove
        exact ⟨(key, count), List.mem_filter.2 ⟨JsMap.mem_entries.2 hcount, decide_eq_true hmove⟩,
          rfl⟩

theorem status_gateEntries (baseline current : List Entry) :
    let result := gateEntries N baseline current
    result.status =
      if result.keys .added ≠ [] ∨ result.keys .increased ≠ [] then .regressed
      else if result.keys .removed ≠ [] ∨ result.keys .decreased ≠ [] then .improved
      else .ok := by
  rw [gateEntries]
  dsimp only
  simp only [Bool.or_eq_true, decide_eq_true_eq, List.length_pos_iff]
  split
  · next h =>
    exact (if_pos h).symm
  · next h =>
    split
    · next h' => exact ((if_neg h).trans (if_pos h')).symm
    · next h' => exact ((if_neg h).trans (if_neg h')).symm

section
variable [JsDifference N] (spec : BaselineMetricSpec N Entry)
  (options : SingleGroupMergePolicyOptions Entry) (baseline current : List Entry)
  (version currentVersion : Nat)

/-- The comparison of two flat documents. -/
def compareEntries : CompareGroupedBaselineResult Entry :=
  compareGroupedBaseline (singleGroupSpec spec options)
    (singleGroupBaseline spec baseline version) (singleGroupBaseline spec current currentVersion)

omit [JsDifference N] [Host] in
theorem get_countByKey (entries : List Entry) (key : JsString) :
    (countByKey entries : JsMap N).get key = ((JsMap.ofList (entries.map fun entry =>
      (BaselineEntry.key N entry, entry))).get key).map (entryCount N) := by
  rw [countByKey, JsMap.get_ofList, JsMap.get_ofList, ← Entries.lookup_map fun _ => entryCount N,
    ← List.map_reverse, ← List.map_reverse, List.map_map]
  rfl

/-- The comparator lists under a movement exactly the keys that move so, in the one group. -/
theorem locations_compareEntries {m : KeyMovement} (hm : m ≠ .equal) : ∃ keys : List JsString,
    (compareEntries spec options baseline current version currentVersion).locations m =
        (sortBy Host.localeCompare keys).map (fun key => ⟨singleGroupId, key⟩) ∧ keys.Nodup ∧
      ∀ key, key ∈ keys ↔ movementAt N baseline current key = some m := by
  set baselineItems := JsMap.ofList (baseline.map fun entry => (BaselineEntry.key N entry, entry))
    with hbaselineItems
  set currentItems := JsMap.ofList (current.map fun entry => (BaselineEntry.key N entry, entry))
    with hcurrentItems
  have hmovement (key : JsString) : movementOf (singleGroupSpec spec options)
      ⟨singleGroupId, key, baselineItems.get key, currentItems.get key⟩ =
        movementAt N baseline current key := by
    rw [movementAt, get_countByKey, get_countByKey]
    rfl
  have hcompared : comparedGroupedItems (singleGroupSpec spec options)
      (singleGroupBaseline spec baseline version).groups
      (singleGroupBaseline spec current currentVersion).groups =
        (unionKeys Host.localeCompare baselineItems currentItems).map fun key =>
          ⟨singleGroupId, key, baselineItems.get key, currentItems.get key⟩ := by
    have hgroups : unionKeys (singleGroupSpec spec options).compareGroupKeys
        (singleGroupBaseline spec baseline version).groups
        (singleGroupBaseline spec current currentVersion).groups = [singleGroupId] := rfl
    rw [comparedGroupedItems, hgroups, List.flatMap_singleton]
    rfl
  have hself := Host.localeCompare_consistent.self singleGroupId
  refine ⟨(unionKeys Host.localeCompare baselineItems currentItems).filter fun key =>
    movementAt N baseline current key = some m, ?_, (nodup_unionKeys _ _ _).filter _, fun key => ?_⟩
  · rw [compareEntries, compareGroupedBaseline, locations_compareGroupedBaselineDocuments _ _ _ hm,
      hcompared, List.filter_map, List.map_map, sortedLocations]
    have hfilter : (unionKeys Host.localeCompare baselineItems currentItems).filter
        ((fun movement => decide (movementOf (singleGroupSpec spec options) movement = some m)) ∘
          fun key => ⟨singleGroupId, key, baselineItems.get key, currentItems.get key⟩) =
        (unionKeys Host.localeCompare baselineItems currentItems).filter fun key =>
          movementAt N baseline current key = some m :=
      List.filter_congr fun key _ => congrArg (fun o => decide (o = some m)) (hmovement key)
    rw [hfilter]
    refine (sortBy_map (fun key => (⟨singleGroupId, key⟩ : GroupedItemLocation)) _ _).trans ?_
    have hcompare (left right : JsString) :
        (if (singleGroupSpec spec options).compareGroupKeys singleGroupId singleGroupId = 0 then
          (singleGroupSpec spec options).compareItemKeys left right
        else (singleGroupSpec spec options).compareGroupKeys singleGroupId singleGroupId) =
          Host.localeCompare left right := if_pos hself
    simp only [hcompare]
  · rw [List.mem_filter, decide_eq_true_eq, mem_unionKeys]
    refine and_iff_right_of_imp fun hmove => ?_
    have hsome := congrArg Option.isSome hmove
    rw [movementAt, keyMovement_isSome, get_countByKey, get_countByKey, Option.isSome_map,
      Option.isSome_map] at hsome
    rcases Bool.or_eq_true_iff.1 hsome with h | h
    · exact .inl (JsMap.mem_keys.2 (Option.isSome_iff_exists.1 h))
    · exact .inr (JsMap.mem_keys.2 (Option.isSome_iff_exists.1 h))

/-- Its one group is in both documents, with the same metadata. -/
theorem status_compareEntries :
    let result := compareEntries spec options baseline current version currentVersion
    result.status =
      if result.locations .added ≠ [] ∨ result.locations .increased ≠ [] then .regressed
      else if result.locations .removed ≠ [] ∨ result.locations .decreased ≠ [] then .improved
      else .ok := by
  intro result
  have hadded : result.addedGroups = [] := rfl
  have hremoved : result.removedGroups = [] := rfl
  have hmeta : result.metadataChanged = [] := by
    have hsame : (singleGroupSpec spec options).sameGroupMeta (fixedMeta spec) (fixedMeta spec) =
        true := decide_eq_true rfl
    have hrecorded : (recordGroup (singleGroupSpec spec options) {} ⟨singleGroupId,
        (singleGroupBaseline spec baseline version).groups.get singleGroupId,
        (singleGroupBaseline spec current currentVersion).groups.get singleGroupId⟩).metadataChanged =
          [] := by
      refine (foldl_recordItemMovement _ _ _).1.trans ?_
      exact congrArg ComparisonChanges.metadataChanged (if_pos hsame)
    exact sortBy_eq_nil.2 hrecorded
  have hstatus : result.status = comparisonStatus { result with status := .ok } := rfl
  rw [hstatus, comparisonStatus]
  dsimp only
  rw [hadded, hremoved, hmeta]
  simp only [ne_eq, not_true_eq_false, false_or]
  rfl

end

/-! ## The flat gate and the grouped comparator -/

/-- Two key lists hold the same keys, in one order where no two of them tie. -/
def SameKeys (left right : List JsString) : Prop :=
  left.Perm right ∧
    ((∀ a ∈ left, ∀ b ∈ left, Host.localeCompare a b = 0 → a = b) → left = right)

theorem sameKeys_sortBy {left right : List JsString} (hleft : left.Nodup) (hright : right.Nodup)
    (h : ∀ key, key ∈ left ↔ key ∈ right) :
    SameKeys (sortBy Host.localeCompare left) (sortBy Host.localeCompare right) := by
  have hsorted := sortBy_sorted Host.localeCompare_consistent
  have hperm : (sortBy Host.localeCompare left).Perm (sortBy Host.localeCompare right) :=
    (sortBy_perm _ _).trans
      (((List.perm_ext_iff_of_nodup hleft hright).2 h).trans (sortBy_perm _ _).symm)
  refine ⟨hperm, fun hties => eq_of_perm_sorted (hsorted left) (hsorted right) hperm ?_⟩
  intro a ha b hb hab hba
  exact hties a ha b (hperm.mem_iff.2 hb) (Host.localeCompare_consistent.zero_of_le hab hba)

theorem SameKeys.nil_iff {left right : List JsString} (h : SameKeys left right) :
    left = [] ↔ right = [] := by
  constructor
  · intro hnil
    exact List.nil_perm.1 (hnil ▸ h.1)
  · intro hnil
    exact List.perm_nil.1 (hnil ▸ h.1)

/-- The keys that both lists hold with one count. -/
def unmovedKeys (N : Type) {Entry : Type} [JsNumber N] [BaselineEntry N Entry]
    (baseline current : List Entry) : List JsString :=
  (baseline.map (BaselineEntry.key N)).filter fun key => baseline.any fun entry =>
    BaselineEntry.key N entry = key && current.any fun other =>
      BaselineEntry.key N other = key && decide (entryCount N other = entryCount N entry)

/-- The keys that a gate finds to move so, and those that do not move. -/
def keysMoved (N : Type) {Entry : Type} [JsNumber N] [BaselineEntry N Entry]
    (baseline current : List Entry) : KeyMovement → List JsString
  | .equal => unmovedKeys N baseline current
  | m => (gateEntries N baseline current).keys m

/-- The keys that a comparison lists for a movement. -/
def CompareGroupedBaselineResult.keys {Item : Type} (result : CompareGroupedBaselineResult Item)
    (m : KeyMovement) : List JsString := (result.locations m).map (·.itemKey)

omit [Host] in
theorem get_countByKey_iff {entries : List Entry}
    (hkeys : (entries.map (BaselineEntry.key N)).Nodup) {key : JsString} {n : N} :
    (countByKey entries : JsMap N).get key = some n ↔
      ∃ entry ∈ entries, BaselineEntry.key N entry = key ∧ entryCount N entry = n := by
  have hnodup : (Entries.keys (entries.map fun entry =>
      (BaselineEntry.key N entry, entryCount N entry))).Nodup := by
    rw [Entries.keys, List.map_map]
    exact hkeys
  rw [countByKey, JsMap.get_ofList_of_nodup hnodup, ← Entries.mem_iff_lookup hnodup, List.mem_map]
  simp only [Prod.mk.injEq]

omit [Host] in
theorem mem_unmovedKeys {baseline current : List Entry}
    (hbaseline : (baseline.map (BaselineEntry.key N)).Nodup)
    (hcurrent : (current.map (BaselineEntry.key N)).Nodup) {key : JsString} :
    key ∈ unmovedKeys N baseline current ↔ movementAt N baseline current key = some .equal := by
  rw [movementAt, keyMovement_equal, unmovedKeys, List.mem_filter]
  simp only [get_countByKey_iff hbaseline, get_countByKey_iff hcurrent, List.any_eq_true,
    Bool.and_eq_true, decide_eq_true_eq]
  constructor
  · rintro ⟨-, entry, hentry, hkey, other, hother, hkey', hcount⟩
    exact ⟨entryCount N entry, ⟨entry, hentry, hkey, rfl⟩, other, hother, hkey', hcount⟩
  · rintro ⟨n, ⟨entry, hentry, hkey, hn⟩, other, hother, hkey', hn'⟩
    exact ⟨List.mem_map.2 ⟨entry, hentry, hkey⟩, entry, hentry, hkey, other, hother, hkey',
      hn'.trans hn.symm⟩

theorem mem_keysMoved {baseline current : List Entry}
    (hbaseline : (baseline.map (BaselineEntry.key N)).Nodup)
    (hcurrent : (current.map (BaselineEntry.key N)).Nodup) {key : JsString} {m : KeyMovement} :
    key ∈ keysMoved N baseline current m ↔ movementAt N baseline current key = some m := by
  by_cases hm : m = .equal
  · subst hm
    exact mem_unmovedKeys hbaseline hcurrent
  · obtain ⟨keys, hkeys, -, hmem⟩ := keys_gateEntries (N := N) baseline current hm
    have hmoved : keysMoved N baseline current m = sortBy Host.localeCompare keys := by
      rw [← hkeys]
      cases m with
      | equal => exact absurd rfl hm
      | _ => rfl
    rw [hmoved, mem_sortBy, hmem]

/-- Swapping the sides of the flat gate swaps its lists. -/
theorem keys_gateEntries_swap (baseline current : List Entry) (m : KeyMovement) :
    SameKeys ((gateEntries N current baseline).keys m)
      ((gateEntries N baseline current).keys m.swap) := by
  by_cases hm : m = .equal
  · subst hm
    exact ⟨.refl _, fun _ => rfl⟩
  · have hswap : m.swap ≠ .equal := by
      cases m with
      | equal => exact absurd rfl hm
      | _ => intro h; cases h
    obtain ⟨keys, hkeys, hnodup, hmem⟩ := keys_gateEntries (N := N) current baseline hm
    obtain ⟨keys', hkeys', hnodup', hmem'⟩ := keys_gateEntries (N := N) baseline current hswap
    rw [hkeys, hkeys']
    refine sameKeys_sortBy hnodup hnodup' fun key => ?_
    rw [hmem, hmem', movementAt, movementAt, keyMovement_swap, Option.map_eq_some_iff]
    constructor
    · rintro ⟨m', hm', rfl⟩
      rw [hm']
      cases m' <;> rfl
    · intro h
      exact ⟨m.swap, h, by cases m <;> rfl⟩

section
variable [JsDifference N] (spec : BaselineMetricSpec N Entry)
  (options : SingleGroupMergePolicyOptions Entry) (baseline current : List Entry)
  (version currentVersion : Nat)

/-- The two comparisons list the same keys for every movement. -/
theorem keys_compareEntries (m : KeyMovement) :
    SameKeys ((gateEntries N baseline current).keys m)
      ((compareEntries spec options baseline current version currentVersion).keys m) := by
  by_cases hm : m = .equal
  · subst hm
    exact ⟨.refl _, fun _ => rfl⟩
  · obtain ⟨keys, hkeys, hnodup, hmem⟩ := keys_gateEntries (N := N) baseline current hm
    obtain ⟨keys', hkeys', hnodup', hmem'⟩ :=
      locations_compareEntries spec options baseline current version currentVersion hm
    have hlisted : (compareEntries spec options baseline current version currentVersion).keys m =
        sortBy Host.localeCompare keys' := by
      rw [CompareGroupedBaselineResult.keys, hkeys', List.map_map]
      exact List.map_id _
    rw [hkeys, hlisted]
    exact sameKeys_sortBy hnodup hnodup' fun key => (hmem key).trans (hmem' key).symm

/-- The flat gate and the grouped comparator give one status and list every key alike, each key
under one movement; swapped sides swap the lists of both. -/
theorem gateEntries_agrees (hbaseline : (baseline.map (BaselineEntry.key N)).Nodup)
    (hcurrent : (current.map (BaselineEntry.key N)).Nodup) :
    let flat := gateEntries N baseline current
    let grouped := compareGroupedBaseline (singleGroupSpec spec options)
      (singleGroupBaseline spec baseline version) (singleGroupBaseline spec current currentVersion)
    let swapped := gateEntries N current baseline
    let groupedSwapped := compareGroupedBaseline (singleGroupSpec spec options)
      (singleGroupBaseline spec current currentVersion) (singleGroupBaseline spec baseline version)
    flat.status = grouped.status ∧ (∀ m, SameKeys (flat.keys m) (grouped.keys m)) ∧
      (∀ m, SameKeys (swapped.keys m) (flat.keys m.swap)) ∧
      (∀ m, SameKeys (groupedSwapped.keys m) (grouped.keys m.swap)) ∧
      ∀ key, key ∈ baseline.map (BaselineEntry.key N) ∨ key ∈ current.map (BaselineEntry.key N) ↔
        ∃! m, key ∈ keysMoved N baseline current m := by
  have hagree := keys_compareEntries spec options baseline current version currentVersion
  have hagree' := keys_compareEntries spec options current baseline currentVersion version
  have hswap := keys_gateEntries_swap (N := N) baseline current
  refine ⟨?_, hagree, hswap, fun m => ?_, fun key => ?_⟩
  · have hnil (m : KeyMovement) : (gateEntries N baseline current).keys m = [] ↔
        (compareEntries spec options baseline current version currentVersion).locations m = [] :=
      (hagree m).nil_iff.trans List.map_eq_nil_iff
    refine (status_gateEntries baseline current).trans (Eq.trans ?_
      (status_compareEntries spec options baseline current version currentVersion).symm)
    simp only [ne_eq, hnil]
  · have hperm := (hagree' m).1.symm.trans ((hswap m).1.trans (hagree m.swap).1)
    refine ⟨hperm, fun hties => ?_⟩
    have hties' := fun a ha b hb => hties a ((hagree' m).1.mem_iff.1 ha) b
      ((hagree' m).1.mem_iff.1 hb)
    have hties'' := fun a ha b hb => hties' a ((hswap m).1.mem_iff.2 ha) b
      ((hswap m).1.mem_iff.2 hb)
    exact ((hagree' m).2 hties').symm.trans (((hswap m).2 hties').trans ((hagree m.swap).2 hties''))
  · have hside {entries : List Entry} (hkeys : (entries.map (BaselineEntry.key N)).Nodup) :
        key ∈ entries.map (BaselineEntry.key N) ↔
          ((countByKey entries : JsMap N).get key).isSome = true := by
      rw [Option.isSome_iff_exists, List.mem_map]
      simp only [get_countByKey_iff hkeys]
      constructor
      · rintro ⟨entry, hentry, hkey⟩
        exact ⟨entryCount N entry, entry, hentry, hkey, rfl⟩
      · rintro ⟨n, entry, hentry, hkey, -⟩
        exact ⟨entry, hentry, hkey⟩
    rw [hside hbaseline, hside hcurrent, ← Bool.or_eq_true_iff, ← keyMovement_isSome]
    simp only [mem_keysMoved hbaseline hcurrent, movementAt]
    constructor
    · intro hsome
      obtain ⟨m, hm⟩ := Option.isSome_iff_exists.1 hsome
      exact ⟨m, hm, fun m' hm' => Option.some.inj (hm'.symm.trans hm)⟩
    · rintro ⟨m, hm, -⟩
      exact Option.isSome_iff_exists.2 ⟨m, hm⟩

end

end

/-- A cap that rose and a key that left. -/
theorem gateEntries_agrees_moved :
    ((gateEntries Numeral [LedgerEntry.mk (js "a") (.int 1), ⟨js "b", .int 2⟩]
      [⟨js "a", .int 3⟩]).keys .increased) = [js "a"] ∧
    (compareGroupedBaseline (singleGroupSpec ledgerSpec {})
      (singleGroupBaseline ledgerSpec [⟨js "a", .int 1⟩, ⟨js "b", .int 2⟩] 2)
      (singleGroupBaseline ledgerSpec [⟨js "a", .int 3⟩] 2)).status = .regressed := by
  have hagrees := gateEntries_agrees ledgerSpec {} [⟨js "a", .int 1⟩, ⟨js "b", .int 2⟩]
    [⟨js "a", .int 3⟩] 2 2 (by decide) (by decide)
  exact ⟨by decide +kernel, hagrees.1.symm.trans (by decide +kernel)⟩

end Musi.LintRatchet
