import Musi.Js.Number
import Musi.LintRatchet.Kernel.GroupBaseline

namespace Musi.LintRatchet
open Musi.Js
set_option autoImplicit true

/-- `-` on numbers; `none` is NaN, as of `∞ - ∞`. Underflow is gradual, so a difference has the sign
of the comparison. -/
class JsDifference (N : Type) [JsNumber N] where
  subtract : N → N → Option N
  subtract_positive : ∀ a b,
    (subtract a b).any (fun d => JsNumber.less (JsNumber.ofInt 0) d) = JsNumber.less b a
  subtract_negative : ∀ a b,
    (subtract a b).any (fun d => JsNumber.less d (JsNumber.ofInt 0)) = JsNumber.less a b

/-- Differences of integers; any other difference only has the sign of the comparison. -/
instance : JsDifference Numeral where
  subtract
    | .int j, .int k => some (.int (j - k))
    | a, b => some (.int (if JsNumber.less b a then 1 else if JsNumber.less a b then -1 else 0))
  subtract_positive a b := by
    rcases a with j | ⟨s, hs⟩
    · rcases b with k | ⟨t, ht⟩
      · exact decide_eq_decide.2 Int.sub_pos
      · rfl
    · rcases b with k | ⟨t, ht⟩
      · rfl
      · dsimp only [Option.any_some]
        by_cases hba : JsNumber.less (Numeral.other t ht) (Numeral.other s hs) = true
        · rw [if_pos hba, hba]
          rfl
        · rw [if_neg hba, eq_false_of_ne_true hba]
          split
          · rfl
          · rfl
  subtract_negative a b := by
    rcases a with j | ⟨s, hs⟩
    · rcases b with k | ⟨t, ht⟩
      · exact decide_eq_decide.2 (by omega)
      · rfl
    · rcases b with k | ⟨t, ht⟩
      · rfl
      · dsimp only [Option.any_some]
        by_cases hba : JsNumber.less (Numeral.other t ht) (Numeral.other s hs) = true
        · rw [if_pos hba]
          by_cases hab : JsNumber.less (Numeral.other s hs) (Numeral.other t ht) = true
          · have hself := JsNumber.less_trans hab hba
            rw [JsNumber.less_irrefl] at hself
            cases hself
          · rw [eq_false_of_ne_true hab]
            rfl
        · rw [if_neg hba]
          by_cases hab : JsNumber.less (Numeral.other s hs) (Numeral.other t ht) = true
          · rw [if_pos hab, hab]
            rfl
          · rw [if_neg hab, eq_false_of_ne_true hab]
            rfl

variable {N : Type} [JsNumber N] [JsDifference N] {GroupMeta Item : Type}

inductive GateStatus where
  | ok
  | regressed
  | improved
  deriving DecidableEq

structure GroupedItemLocation where
  groupId : JsString
  itemKey : JsString
  deriving DecidableEq

structure ComparisonChanges (Item : Type) where
  metadataChanged : List JsString := []
  added : List GroupedItemLocation := []
  removed : List GroupedItemLocation := []
  increased : List GroupedItemLocation := []
  decreased : List GroupedItemLocation := []
  comparedItems : List (ComparedGroupedItem Item) := []

structure CompareGroupedBaselineResult (Item : Type) where
  status : GateStatus
  addedGroups : List JsString
  removedGroups : List JsString
  metadataChanged : List JsString
  added : List GroupedItemLocation
  removed : List GroupedItemLocation
  increased : List GroupedItemLocation
  decreased : List GroupedItemLocation
  comparedItems : List (ComparedGroupedItem Item)

def itemLocation (movement : ComparedGroupedItem Item) : GroupedItemLocation :=
  { groupId := movement.groupId, itemKey := movement.itemKey }

def recordItemMovement (spec : GroupedBaselineSpec N GroupMeta Item)
    (changes : ComparisonChanges Item) (movement : ComparedGroupedItem Item) :
    ComparisonChanges Item :=
  let changes := { changes with comparedItems := changes.comparedItems ++ [movement] }
  match movement.baselineItem, movement.currentItem with
  | none, some _ => { changes with added := changes.added ++ [itemLocation movement] }
  | some _, none => { changes with removed := changes.removed ++ [itemLocation movement] }
  | some baselineItem, some currentItem =>
    let countMovement :=
      JsDifference.subtract (spec.itemCount currentItem) (spec.itemCount baselineItem)
    if countMovement.any fun d => JsNumber.less (JsNumber.ofInt 0) d then
      { changes with increased := changes.increased ++ [itemLocation movement] }
    else if countMovement.any fun d => JsNumber.less d (JsNumber.ofInt 0) then
      { changes with decreased := changes.decreased ++ [itemLocation movement] }
    else changes
  | none, none => changes

/-- One group of both documents. -/
structure ComparedGroup (GroupMeta Item : Type) where
  groupId : JsString
  baseline : Option (GroupedBaselineGroup GroupMeta Item)
  current : Option (GroupedBaselineGroup GroupMeta Item)

def recordMetadataChange (spec : GroupedBaselineSpec N GroupMeta Item)
    (group : ComparedGroup GroupMeta Item) (changes : ComparisonChanges Item) :
    ComparisonChanges Item :=
  match group.baseline, group.current with
  | some baseline, some current =>
    if spec.sameGroupMeta baseline.groupMeta current.groupMeta then changes
    else { changes with metadataChanged := changes.metadataChanged ++ [group.groupId] }
  | _, _ => changes

/-- compareGroupItems with the changes that it records. -/
def recordGroup (spec : GroupedBaselineSpec N GroupMeta Item) (changes : ComparisonChanges Item)
    (group : ComparedGroup GroupMeta Item) : ComparisonChanges Item :=
  let items (side : Option (GroupedBaselineGroup GroupMeta Item)) : JsMap Item :=
    (side.map (·.items)).getD JsMap.empty
  (compareGroupItems spec group.groupId (items group.baseline) (items group.current)).foldl
    (recordItemMovement spec) (recordMetadataChange spec group changes)

def sortedLocations (spec : GroupedBaselineSpec N GroupMeta Item)
    (locations : List GroupedItemLocation) : List GroupedItemLocation :=
  sortBy (fun left right =>
    let groupOrder := spec.compareGroupKeys left.groupId right.groupId
    if groupOrder = 0 then spec.compareItemKeys left.itemKey right.itemKey else groupOrder) locations

def comparisonStatus (result : CompareGroupedBaselineResult Item) : GateStatus :=
  if result.addedGroups ≠ [] ∨ result.metadataChanged ≠ [] ∨ result.added ≠ [] ∨
      result.increased ≠ [] then .regressed
  else if result.removedGroups ≠ [] ∨ result.removed ≠ [] ∨ result.decreased ≠ [] then .improved
  else .ok

def compareGroupedBaselineDocuments (spec : GroupedBaselineSpec N GroupMeta Item)
    (baseline current : GroupedBaseline N GroupMeta Item) : CompareGroupedBaselineResult Item :=
  let groupIds := unionKeys spec.compareGroupKeys baseline.groups current.groups
  let changes := groupIds.foldl (fun changes groupId => recordGroup spec changes
    { groupId, baseline := baseline.groups.get groupId, current := current.groups.get groupId }) {}
  let result : CompareGroupedBaselineResult Item :=
    { status := .ok
      addedGroups := sortBy spec.compareGroupKeys
        (current.groups.keys.filter fun key => !baseline.groups.has key)
      removedGroups := sortBy spec.compareGroupKeys
        (baseline.groups.keys.filter fun key => !current.groups.has key)
      metadataChanged := sortBy spec.compareGroupKeys changes.metadataChanged
      added := sortedLocations spec changes.added
      removed := sortedLocations spec changes.removed
      increased := sortedLocations spec changes.increased
      decreased := sortedLocations spec changes.decreased
      comparedItems := changes.comparedItems }
  { result with status := comparisonStatus result }

def compareGroupedBaseline (spec : GroupedBaselineSpec N GroupMeta Item)
    (baseline current : GroupedBaseline N GroupMeta Item) : CompareGroupedBaselineResult Item :=
  compareGroupedBaselineDocuments spec baseline current

/-! ## How a key moves -/

inductive KeyMovement where
  | added
  | removed
  | increased
  | decreased
  | equal
  deriving DecidableEq

def KeyMovement.swap : KeyMovement → KeyMovement
  | .added => .removed
  | .removed => .added
  | .increased => .decreased
  | .decreased => .increased
  | .equal => .equal

/-- The movement of a key from its two counts; a key of neither side has none. -/
def keyMovement (baseline current : Option N) : Option KeyMovement :=
  match baseline, current with
  | none, some _ => some .added
  | some _, none => some .removed
  | some baseline, some current =>
    if JsNumber.less baseline current then some .increased
    else if JsNumber.less current baseline then some .decreased
    else some .equal
  | none, none => none

omit [JsDifference N] in
theorem keyMovement_swap (baseline current : Option N) :
    keyMovement current baseline = (keyMovement baseline current).map KeyMovement.swap := by
  rcases baseline with _ | a
  · rcases current with _ | b
    · rfl
    · rfl
  · rcases current with _ | b
    · rfl
    · rw [keyMovement, keyMovement]
      cases hab : JsNumber.less a b with
      | true =>
        cases hba : JsNumber.less b a with
        | true =>
          have hself := JsNumber.less_trans hab hba
          rw [JsNumber.less_irrefl] at hself
          cases hself
        | false => rfl
      | false =>
        cases hba : JsNumber.less b a with
        | true => rfl
        | false => rfl

/-- The list of a comparison for a movement. -/
def ComparisonChanges.locations (changes : ComparisonChanges Item) :
    KeyMovement → List GroupedItemLocation
  | .added => changes.added
  | .removed => changes.removed
  | .increased => changes.increased
  | .decreased => changes.decreased
  | .equal => []

def movementOf (spec : GroupedBaselineSpec N GroupMeta Item) (movement : ComparedGroupedItem Item) :
    Option KeyMovement :=
  keyMovement (movement.baselineItem.map spec.itemCount) (movement.currentItem.map spec.itemCount)

/-- A compared item is listed under its movement. -/
theorem locations_recordItemMovement (spec : GroupedBaselineSpec N GroupMeta Item)
    (changes : ComparisonChanges Item) (movement : ComparedGroupedItem Item) {m : KeyMovement}
    (hm : m ≠ .equal) :
    (recordItemMovement spec changes movement).locations m =
      changes.locations m ++ if movementOf spec movement = some m then [itemLocation movement] else [] := by
  obtain ⟨groupId, itemKey, baselineItem, currentItem⟩ := movement
  rcases baselineItem with _ | baselineItem
  · rcases currentItem with _ | currentItem
    · cases m <;> exact (List.append_nil _).symm
    · cases m with
      | added => rfl
      | equal => exact absurd rfl hm
      | _ => exact (List.append_nil _).symm
  · rcases currentItem with _ | currentItem
    · cases m with
      | removed => rfl
      | equal => exact absurd rfl hm
      | _ => exact (List.append_nil _).symm
    · rw [recordItemMovement]
      dsimp only
      rw [JsDifference.subtract_positive, JsDifference.subtract_negative]
      by_cases hup : JsNumber.less (spec.itemCount baselineItem) (spec.itemCount currentItem) = true
      · have hmove : movementOf spec ⟨groupId, itemKey, some baselineItem, some currentItem⟩ =
            some .increased := if_pos hup
        simp only [hmove]
        rw [if_pos hup]
        cases m with
        | increased => rfl
        | equal => exact absurd rfl hm
        | _ => exact (List.append_nil _).symm
      · rw [if_neg hup]
        by_cases hdown :
            JsNumber.less (spec.itemCount currentItem) (spec.itemCount baselineItem) = true
        · have hmove : movementOf spec ⟨groupId, itemKey, some baselineItem, some currentItem⟩ =
              some .decreased := (if_neg hup).trans (if_pos hdown)
          simp only [hmove]
          rw [if_pos hdown]
          cases m with
          | decreased => rfl
          | equal => exact absurd rfl hm
          | _ => exact (List.append_nil _).symm
        · have hmove : movementOf spec ⟨groupId, itemKey, some baselineItem, some currentItem⟩ =
              some .equal := (if_neg hup).trans (if_neg hdown)
          simp only [hmove]
          rw [if_neg hdown]
          cases m with
          | equal => exact absurd rfl hm
          | _ => exact (List.append_nil _).symm

theorem frame_recordItemMovement (spec : GroupedBaselineSpec N GroupMeta Item)
    (changes : ComparisonChanges Item) (movement : ComparedGroupedItem Item) :
    (recordItemMovement spec changes movement).metadataChanged = changes.metadataChanged ∧
      (recordItemMovement spec changes movement).comparedItems =
        changes.comparedItems ++ [movement] := by
  rw [recordItemMovement]
  dsimp only
  split
  · exact ⟨rfl, rfl⟩
  · exact ⟨rfl, rfl⟩
  · split
    · exact ⟨rfl, rfl⟩
    · split
      · exact ⟨rfl, rfl⟩
      · exact ⟨rfl, rfl⟩
  · exact ⟨rfl, rfl⟩

theorem foldl_recordItemMovement (spec : GroupedBaselineSpec N GroupMeta Item)
    (movements : List (ComparedGroupedItem Item)) (changes : ComparisonChanges Item) :
    (movements.foldl (recordItemMovement spec) changes).metadataChanged = changes.metadataChanged ∧
      (movements.foldl (recordItemMovement spec) changes).comparedItems =
        changes.comparedItems ++ movements ∧
      ∀ m ≠ KeyMovement.equal, (movements.foldl (recordItemMovement spec) changes).locations m =
        changes.locations m ++
          (movements.filter fun movement => movementOf spec movement = some m).map itemLocation := by
  induction movements generalizing changes with
  | nil => exact ⟨rfl, (List.append_nil _).symm, fun m _ => (List.append_nil _).symm⟩
  | cons movement movements ih =>
    obtain ⟨hmeta, hitems, hlocations⟩ := ih (recordItemMovement spec changes movement)
    obtain ⟨hmeta', hitems'⟩ := frame_recordItemMovement spec changes movement
    rw [List.foldl_cons]
    refine ⟨hmeta.trans hmeta', ?_, fun m hm => ?_⟩
    · rw [hitems, hitems', List.append_assoc]
      rfl
    · rw [hlocations m hm, locations_recordItemMovement spec changes movement hm, List.append_assoc,
        List.filter_cons]
      by_cases h : movementOf spec movement = some m
      · rw [if_pos h, if_pos (decide_eq_true h)]
        rfl
      · rw [if_neg h, if_neg (by simpa using h)]
        rfl

/-- The items of one group, compared after those of the groups before. -/
theorem recordGroup_spec (spec : GroupedBaselineSpec N GroupMeta Item)
    (changes : ComparisonChanges Item)
    (baseline current : JsMap (GroupedBaselineGroup GroupMeta Item)) (groupId : JsString) :
    let movements :=
      compareGroupItems spec groupId (groupItems baseline groupId) (groupItems current groupId)
    let recorded := recordGroup spec changes ⟨groupId, baseline.get groupId, current.get groupId⟩
    recorded.comparedItems = changes.comparedItems ++ movements ∧
      ∀ m ≠ KeyMovement.equal, recorded.locations m = changes.locations m ++
        (movements.filter fun movement => movementOf spec movement = some m).map itemLocation := by
  have hframe (group : ComparedGroup GroupMeta Item) :
      (recordMetadataChange spec group changes).comparedItems = changes.comparedItems ∧
        ∀ m, (recordMetadataChange spec group changes).locations m = changes.locations m := by
    rw [recordMetadataChange]
    split
    · split
      · exact ⟨rfl, fun m => rfl⟩
      · exact ⟨rfl, fun m => by cases m <;> rfl⟩
    · exact ⟨rfl, fun m => rfl⟩
  obtain ⟨hitems, hlocations⟩ := hframe ⟨groupId, baseline.get groupId, current.get groupId⟩
  intro movements recorded
  obtain ⟨-, hitems', hlocations'⟩ := foldl_recordItemMovement spec movements
    (recordMetadataChange spec ⟨groupId, baseline.get groupId, current.get groupId⟩ changes)
  exact ⟨hitems'.trans (by rw [hitems]), fun m hm => (hlocations' m hm).trans (by rw [hlocations])⟩

/-- The comparison lists, for every movement, the compared items that move so. -/
theorem foldl_recordGroup (spec : GroupedBaselineSpec N GroupMeta Item)
    (baseline current : JsMap (GroupedBaselineGroup GroupMeta Item)) (groupIds : List JsString)
    (changes : ComparisonChanges Item) :
    let movements := groupIds.flatMap fun groupId =>
      compareGroupItems spec groupId (groupItems baseline groupId) (groupItems current groupId)
    let recorded := groupIds.foldl (fun changes groupId => recordGroup spec changes
      ⟨groupId, baseline.get groupId, current.get groupId⟩) changes
    recorded.comparedItems = changes.comparedItems ++ movements ∧
      ∀ m ≠ KeyMovement.equal, recorded.locations m = changes.locations m ++
        (movements.filter fun movement => movementOf spec movement = some m).map itemLocation := by
  induction groupIds generalizing changes with
  | nil => exact ⟨(List.append_nil _).symm, fun m _ => (List.append_nil _).symm⟩
  | cons groupId groupIds ih =>
    obtain ⟨hitems, hlocations⟩ := recordGroup_spec spec changes baseline current groupId
    obtain ⟨hitems', hlocations'⟩ :=
      ih (recordGroup spec changes ⟨groupId, baseline.get groupId, current.get groupId⟩)
    dsimp only at hitems hlocations hitems' hlocations' ⊢
    rw [List.foldl_cons, List.flatMap_cons]
    refine ⟨?_, fun m hm => ?_⟩
    · rw [hitems', hitems, List.append_assoc]
    · rw [hlocations' m hm, hlocations m hm, List.filter_append, List.map_append, List.append_assoc]

/-- The list of a result for a movement. -/
def CompareGroupedBaselineResult.locations (result : CompareGroupedBaselineResult Item) :
    KeyMovement → List GroupedItemLocation
  | .added => result.added
  | .removed => result.removed
  | .increased => result.increased
  | .decreased => result.decreased
  | .equal => []

section
variable (spec : GroupedBaselineSpec N GroupMeta Item)
  (baseline current : GroupedBaseline N GroupMeta Item)

theorem locations_compareGroupedBaselineDocuments {m : KeyMovement} (hm : m ≠ .equal) :
    (compareGroupedBaselineDocuments spec baseline current).locations m = sortedLocations spec
      (((comparedGroupedItems spec baseline.groups current.groups).filter fun movement =>
        movementOf spec movement = some m).map itemLocation) := by
  have hlocations := (foldl_recordGroup spec baseline.groups current.groups
    (unionKeys spec.compareGroupKeys baseline.groups current.groups) {}).2 m hm
  have hnone : (({} : ComparisonChanges Item).locations m) = [] := by cases m <;> rfl
  rw [hnone, List.nil_append] at hlocations
  refine Eq.trans ?_ (congrArg (sortedLocations spec) hlocations)
  cases m with
  | equal => exact absurd rfl hm
  | _ => rfl

end

end Musi.LintRatchet
