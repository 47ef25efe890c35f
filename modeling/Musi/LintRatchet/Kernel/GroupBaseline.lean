import Musi.LintRatchet.Kernel.BaselineHash

namespace Musi.LintRatchet
open Musi.Js
set_option autoImplicit true

variable {N : Type} [JsNumber N] {GroupMeta Item : Type}

/-- A parsed value with its warnings, or the first failure and, from structural callers, all of
them. -/
inductive GroupedParseResult (T : Type) where
  | ok (value : T) (warnings : List JsString)
  | failure (error : JsString) (errors : Option (List JsString))
  deriving DecidableEq

/-- failureList -/
def failureList (error : JsString) (errors : Option (List JsString)) : List JsString :=
  errors.getD [error]

structure BaselineConflictMarkerRemediation where
  baselineFile : JsString
  installerCommand : JsString
  restoreOursCommand : JsString
  updateCommand : JsString
  reconcileEntries : Bool := false

structure KeyedGroupedItem (Item : Type) where
  key : JsString
  item : Item
  deriving DecidableEq

structure GroupedBaselineGroup (GroupMeta Item : Type) where
  groupMeta : GroupMeta
  items : JsMap Item

structure GroupedBaseline (N GroupMeta Item : Type) where
  version : Nat
  regenerate : Option (Json N)
  groups : JsMap (GroupedBaselineGroup GroupMeta Item)

/-- How one key resolves: the item to keep, a failure to report, and whether the merged floor
may no longer reflect the tree. -/
structure ItemMergeOutcome (Item : Type) where
  item : Option Item := none
  failure : Option JsString := none
  truthUp : Bool := false

structure GroupedItemMergePolicy (Item : Type) where
  mergeShared : JsString → Item → Item → ItemMergeOutcome Item
  mergeOneSided : JsString → Item → Option Item → ItemMergeOutcome Item

inductive RootKey where
  | tests
  | entries
  deriving DecidableEq

def RootKey.text : RootKey → JsString
  | .tests => js "tests"
  | .entries => js "entries"

structure GroupedBaselineSpec (N GroupMeta Item : Type) where
  writeVersion : Nat
  acceptedReadVersions : List Nat
  rootKey : RootKey
  regenerate : Option JsString
  preserveRegenerateOnFormat : Bool
  conflictMarkerRemediation : Option BaselineConflictMarkerRemediation
  singleGroupId : Option JsString
  requireSortedKeysOnParse : Bool
  compareGroupKeys : JsString → JsString → Int
  compareItemKeys : JsString → JsString → Int
  parseGroupMeta : JsString → Entries (Json N) → List (KeyedGroupedItem Item) →
    GroupedParseResult GroupMeta
  formatGroupMeta : JsString → GroupMeta → List (KeyedGroupedItem Item) → Option JsString →
    Entries (Json N)
  sameGroupMeta : GroupMeta → GroupMeta → Bool
  parseItem : JsString → Option JsString → Json N → GroupedParseResult (KeyedGroupedItem Item)
  formatItem : JsString → JsString → Item → GroupMeta → Json N
  itemCount : Item → N
  itemMergePolicy : JsString → GroupMeta → GroupedItemMergePolicy Item

/-! ## Formatting -/

def sortedGroupedItems (spec : GroupedBaselineSpec N GroupMeta Item)
    (group : GroupedBaselineGroup GroupMeta Item) : List (KeyedGroupedItem Item) :=
  (sortBy (fun a b => spec.compareItemKeys a.1 b.1) group.items.entries).map fun e => ⟨e.1, e.2⟩

/-- The formatted group: its metadata fields, then its items in key order. -/
def formattedGroupedTest (spec : GroupedBaselineSpec N GroupMeta Item) (groupId : JsString)
    (group : GroupedBaselineGroup GroupMeta Item) : Json N :=
  let items := sortedGroupedItems spec group
  objectOf (spec.formatGroupMeta groupId group.groupMeta items none ++
    [(js "items", .obj (Record.fromEntries (items.map fun i =>
      (i.key, spec.formatItem groupId i.key i.item group.groupMeta))).entries)])

def regenerateField (regenerate : Option (Json N)) : Entries (Json N) :=
  regenerate.toList.map fun r => (js "regenerate", r)

def formatTestsDocument (spec : GroupedBaselineSpec N GroupMeta Item)
    (baseline : GroupedBaseline N GroupMeta Item) : Json N :=
  let groups := sortBy (fun a b => spec.compareGroupKeys a.1 b.1) baseline.groups.entries
  let regenerate :=
    if spec.preserveRegenerateOnFormat then baseline.regenerate else spec.regenerate.map .str
  .obj ([(js "version", .num (JsNumber.ofInt baseline.version))] ++ regenerateField regenerate ++
    [(js "tests", .obj (Record.fromEntries (groups.map fun g =>
      (g.1, formattedGroupedTest spec g.1 g.2))).entries)])

/-- The document of the entries family; `none` where the source throws for want of its group. -/
def formatEntriesDocument (spec : GroupedBaselineSpec N GroupMeta Item)
    (baseline : GroupedBaseline N GroupMeta Item) : Option (Json N) :=
  match spec.singleGroupId with
  | none => none
  | some groupId =>
    (baseline.groups.get groupId).map fun group =>
      let items := sortedGroupedItems spec group
      objectOf ([(js "version", .num (JsNumber.ofInt baseline.version))] ++
        spec.formatGroupMeta groupId group.groupMeta items spec.regenerate ++
        [(js "entries", .arr (items.map fun i =>
          spec.formatItem groupId i.key i.item group.groupMeta))])

def formatGroupedBaselineDocument (spec : GroupedBaselineSpec N GroupMeta Item)
    (baseline : GroupedBaseline N GroupMeta Item) : Option JsString :=
  let document := match spec.rootKey with
    | .tests => some (formatTestsDocument spec baseline)
    | .entries => formatEntriesDocument spec baseline
  document.map fun d => stringifyIndented d ++ [0x0A]

/-! ## Comparison -/

structure ComparedGroupedItem (Item : Type) where
  groupId : JsString
  itemKey : JsString
  baselineItem : Option Item
  currentItem : Option Item

/-- The keys of two maps, each once, in the order of a comparator. -/
def unionKeys {α β : Type} (compare : JsString → JsString → Int) (left : JsMap α)
    (right : JsMap β) : List JsString := sortBy compare (left.keys ++ right.keys).eraseDups

/-- The items of a group, or no items for an absent group. -/
def groupItems (groups : JsMap (GroupedBaselineGroup GroupMeta Item)) (groupId : JsString) :
    JsMap Item := ((groups.get groupId).map (·.items)).getD JsMap.empty

def compareGroupItems (spec : GroupedBaselineSpec N GroupMeta Item) (groupId : JsString)
    (baseline current : JsMap Item) : List (ComparedGroupedItem Item) :=
  (unionKeys spec.compareItemKeys baseline current).map fun itemKey =>
    { groupId, itemKey, baselineItem := baseline.get itemKey, currentItem := current.get itemKey }

/-- The compared items of compareGroupedBaselineDocuments. The status and the lists of changed
keys that it also returns are not read by the ratchet. -/
def comparedGroupedItems (spec : GroupedBaselineSpec N GroupMeta Item)
    (baseline current : JsMap (GroupedBaselineGroup GroupMeta Item)) :
    List (ComparedGroupedItem Item) :=
  (unionKeys spec.compareGroupKeys baseline current).flatMap fun groupId =>
    compareGroupItems spec groupId (groupItems baseline groupId) (groupItems current groupId)

theorem mem_unionKeys {α β : Type} {compare : JsString → JsString → Int} {left : JsMap α}
    {right : JsMap β} {k : JsString} :
    k ∈ unionKeys compare left right ↔ k ∈ left.keys ∨ k ∈ right.keys := by
  simp [unionKeys]

theorem nodup_unionKeys {α β : Type} (compare : JsString → JsString → Int) (left : JsMap α)
    (right : JsMap β) : (unionKeys compare left right).Nodup :=
  nodup_sortBy.2 (nodup_eraseDups _)

/-- Under a strict comparator the order depends on the keys alone. -/
theorem unionKeys_congr {α α' β β' : Type} {compare : JsString → JsString → Int}
    (hc : StrictComparator compare) {left : JsMap α} {left' : JsMap α'} {right : JsMap β}
    {right' : JsMap β'} (hl : ∀ k, k ∈ left.keys ↔ k ∈ left'.keys)
    (hr : ∀ k, k ∈ right.keys ↔ k ∈ right'.keys) :
    unionKeys compare left right = unionKeys compare left' right' := by
  refine sortBy_eq_of_perm hc ((List.perm_ext_iff_of_nodup (nodup_eraseDups _)
    (nodup_eraseDups _)).2 fun k => ?_)
  simp only [List.mem_eraseDups, List.mem_append, hl, hr]

/-- The group id and item key of every compared item. -/
def comparedKeys (spec : GroupedBaselineSpec N GroupMeta Item)
    (baseline current : JsMap (GroupedBaselineGroup GroupMeta Item)) : List (JsString × JsString) :=
  (unionKeys spec.compareGroupKeys baseline current).flatMap fun groupId =>
    (unionKeys spec.compareItemKeys (groupItems baseline groupId) (groupItems current groupId)).map
      fun itemKey => (groupId, itemKey)

variable (spec : GroupedBaselineSpec N GroupMeta Item)
  (baseline current : JsMap (GroupedBaselineGroup GroupMeta Item))

omit [JsNumber N] in
theorem comparedGroupedItems_eq : comparedGroupedItems spec baseline current =
    (comparedKeys spec baseline current).map fun k =>
      { groupId := k.1, itemKey := k.2, baselineItem := (groupItems baseline k.1).get k.2,
        currentItem := (groupItems current k.1).get k.2 } := by
  simp only [comparedGroupedItems, comparedKeys, compareGroupItems, List.map_flatMap, List.map_map]
  rfl

omit [JsNumber N] in
theorem nodup_comparedKeys : (comparedKeys spec baseline current).Nodup := by
  refine List.nodup_flatMap.2 ⟨fun g _ => ?_, ?_⟩
  · exact (nodup_unionKeys _ _ _).map fun a b h => (Prod.mk.inj h).2
  · refine (nodup_unionKeys _ _ _).imp fun {g h} hne => ?_
    intro p hp hp'
    obtain ⟨k, -, rfl⟩ := List.mem_map.1 hp
    obtain ⟨l, -, he⟩ := List.mem_map.1 hp'
    exact hne (Prod.mk.inj he).1.symm

omit [JsNumber N] in
theorem mem_groupItems_keys {groups : JsMap (GroupedBaselineGroup GroupMeta Item)}
    {g k : JsString} (h : k ∈ (groupItems groups g).keys) : g ∈ groups.keys := by
  cases hg : groups.get g with
  | none => simp [groupItems, hg, JsMap.empty, JsMap.keys] at h
  | some group => exact JsMap.mem_keys.2 ⟨group, hg⟩

omit [JsNumber N] in
/-- An item is compared exactly when one side has it. -/
theorem mem_comparedKeys {g k : JsString} : (g, k) ∈ comparedKeys spec baseline current ↔
    k ∈ (groupItems baseline g).keys ∨ k ∈ (groupItems current g).keys := by
  simp only [comparedKeys, List.mem_flatMap, List.mem_map, Prod.mk.injEq, mem_unionKeys]
  constructor
  · rintro ⟨g', -, k', hk, rfl, rfl⟩
    exact hk
  · intro hk
    exact ⟨g, hk.imp mem_groupItems_keys mem_groupItems_keys, k, hk, rfl, rfl⟩

end Musi.LintRatchet
