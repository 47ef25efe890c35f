import Musi.LintRatchet.Kernel.GroupBaseline

namespace Musi.LintRatchet
open Musi.Js
set_option autoImplicit true

variable {N : Type} [JsNumber N] {GroupMeta Item : Type}

/-! ## The union-key skeleton of a three-way merge -/

structure ItemMergePolicy (N Item : Type) extends GroupedItemMergePolicy Item where
  count : Item → N

structure ItemMapMergeInput (Item : Type) where
  base : JsMap Item
  current : JsMap Item
  other : JsMap Item
  compareKeys : JsString → JsString → Int

structure ItemMapMergeResult (Item : Type) where
  merged : Entries Item
  failures : List JsString
  truthUpRequired : Bool

def resolveKey (policy : ItemMergePolicy N Item) (input : ItemMapMergeInput Item) (key : JsString) :
    ItemMergeOutcome Item :=
  match input.current.get key, input.other.get key with
  | some current, some other => policy.mergeShared key current other
  | some present, none => policy.mergeOneSided key present (input.base.get key)
  | none, some present => policy.mergeOneSided key present (input.base.get key)
  | none, none => {}

/-- The entry that one resolved key adds to the merge: none for a failure, a dropped key or a
key drained to zero. -/
def mergedEntry (policy : ItemMergePolicy N Item) (key : JsString) (outcome : ItemMergeOutcome Item) :
    Option (JsString × Item) :=
  match outcome.failure, outcome.item with
  | none, some item => if JsNumber.less (JsNumber.ofInt 0) (policy.count item) then some (key, item) else none
  | _, _ => none

def mergeItemMaps (policy : ItemMergePolicy N Item) (input : ItemMapMergeInput Item) :
    ItemMapMergeResult Item :=
  let outcomes := (unionKeys input.compareKeys input.current input.other).map fun key =>
    (key, resolveKey policy input key)
  { merged := outcomes.filterMap fun o => mergedEntry policy o.1 o.2
    failures := outcomes.filterMap fun o => o.2.failure
    truthUpRequired := outcomes.any fun o => o.2.failure.isNone && o.2.truthUp }

/-! ## Groups -/

abbrev Group (GroupMeta Item : Type) := GroupedBaselineGroup GroupMeta Item

structure GroupVersions (GroupMeta Item : Type) where
  base : Option (Group GroupMeta Item)
  current : Option (Group GroupMeta Item)
  other : Option (Group GroupMeta Item)

/-- What becomes of a group that need not be merged item by item. -/
inductive GroupDecision (GroupMeta Item : Type) where
  | resolved (group : Option (Group GroupMeta Item))
  | unresolved

structure ChangedGroupResult (GroupMeta Item : Type) where
  group : Option (Group GroupMeta Item)
  failures : List JsString
  truthUpRequired : Bool

/-- Both sides canonicalize to the same formatted document. -/
def sameCanonicalGroup (spec : GroupedBaselineSpec N GroupMeta Item) (groupId : JsString)
    (left right : Group GroupMeta Item) : Bool :=
  stringify (formattedGroupedTest spec groupId left) =
    stringify (formattedGroupedTest spec groupId right)

/-- sameCanonicalGroup for groups that may be absent. -/
def sameOptionalGroup (spec : GroupedBaselineSpec N GroupMeta Item) (groupId : JsString)
    (left : Option (Group GroupMeta Item)) (right : Group GroupMeta Item) : Bool :=
  match left with
  | none => false
  | some left => sameCanonicalGroup spec groupId left right

def chooseWithoutBase (versions : GroupVersions GroupMeta Item) : GroupDecision GroupMeta Item :=
  match versions.current, versions.other with
  | none, other => .resolved other
  | current, none => .resolved current
  | some _, some _ => .unresolved

def chooseAgainstBase (spec : GroupedBaselineSpec N GroupMeta Item) (groupId : JsString)
    (versions : GroupVersions GroupMeta Item) : GroupDecision GroupMeta Item :=
  match versions.base with
  | none => chooseWithoutBase versions
  | some base =>
    if sameOptionalGroup spec groupId versions.current base then .resolved versions.other
    else if sameOptionalGroup spec groupId versions.other base then .resolved versions.current
    else .unresolved

def chooseSimpleGroupMerge (spec : GroupedBaselineSpec N GroupMeta Item) (groupId : JsString)
    (versions : GroupVersions GroupMeta Item) : GroupDecision GroupMeta Item :=
  match versions.current, versions.other with
  | none, none => .resolved none
  | some current, some other =>
    if sameCanonicalGroup spec groupId current other then .resolved versions.current
    else chooseAgainstBase spec groupId versions
  | _, _ => chooseAgainstBase spec groupId versions

def mergeChangedGroup (spec : GroupedBaselineSpec N GroupMeta Item) (groupId : JsString)
    (base : Option (Group GroupMeta Item)) (current other : Group GroupMeta Item) :
    ChangedGroupResult GroupMeta Item :=
  if !spec.sameGroupMeta current.groupMeta other.groupMeta then
    { group := none
      failures := [groupId ++ js ": baseline group metadata differs between sides; regenerate the baseline after resolving other conflicts"]
      truthUpRequired := false }
  else
    let merged := mergeItemMaps
      { spec.itemMergePolicy groupId current.groupMeta with count := spec.itemCount }
      { base := (base.map (·.items)).getD JsMap.empty, current := current.items,
        other := other.items, compareKeys := spec.compareItemKeys }
    { group := some { groupMeta := current.groupMeta, items := JsMap.ofList merged.merged }
      failures := merged.failures
      truthUpRequired := merged.failures.isEmpty && merged.truthUpRequired }

structure MergeGroupedBaselineInput (N GroupMeta Item : Type) where
  base : GroupedBaseline N GroupMeta Item
  current : GroupedBaseline N GroupMeta Item
  other : GroupedBaseline N GroupMeta Item

/-- The merged baseline, complete or, after failures, the surviving part of it. -/
structure MergeGroupedBaselineResult (N GroupMeta Item : Type) where
  baseline : GroupedBaseline N GroupMeta Item
  failures : List JsString
  postMergeTruthUpRequired : Bool

def groupVersions (input : MergeGroupedBaselineInput N GroupMeta Item) (groupId : JsString) :
    GroupVersions GroupMeta Item where
  base := input.base.groups.get groupId
  current := input.current.groups.get groupId
  other := input.other.groups.get groupId

def allGroupIds (spec : GroupedBaselineSpec N GroupMeta Item)
    (input : MergeGroupedBaselineInput N GroupMeta Item) : List JsString :=
  sortBy spec.compareGroupKeys
    (input.base.groups.keys ++ input.current.groups.keys ++ input.other.groups.keys).eraseDups

/-- One round of the loop over the group ids. -/
def mergeGroup (spec : GroupedBaselineSpec N GroupMeta Item) (groupId : JsString)
    (versions : GroupVersions GroupMeta Item) : ChangedGroupResult GroupMeta Item :=
  match chooseSimpleGroupMerge spec groupId versions with
  | .resolved group => { group, failures := [], truthUpRequired := false }
  | .unresolved =>
    match versions.current, versions.other with
    | some current, some other => mergeChangedGroup spec groupId versions.base current other
    | _, _ =>
      { group := none
        failures := [groupId ++ js ": one side removed the baseline group while the other changed it; regenerate the baseline after resolving other conflicts"]
        truthUpRequired := false }

def groupedMergeOutput (spec : GroupedBaselineSpec N GroupMeta Item)
    (groups : JsMap (Group GroupMeta Item)) : GroupedBaseline N GroupMeta Item where
  version := spec.writeVersion
  regenerate := spec.regenerate.map .str
  groups := groups

def mergeGroupedBaselineDocuments (spec : GroupedBaselineSpec N GroupMeta Item)
    (input : MergeGroupedBaselineInput N GroupMeta Item) :
    MergeGroupedBaselineResult N GroupMeta Item :=
  let rounds := (allGroupIds spec input).map fun groupId =>
    (groupId, mergeGroup spec groupId (groupVersions input groupId))
  let failures := rounds.flatMap fun r => r.2.failures
  { baseline := groupedMergeOutput spec
      (JsMap.ofList (rounds.filterMap fun r => r.2.group.map fun g => (r.1, g)))
    failures
    postMergeTruthUpRequired := failures.isEmpty && rounds.any fun r => r.2.truthUpRequired }

end Musi.LintRatchet
