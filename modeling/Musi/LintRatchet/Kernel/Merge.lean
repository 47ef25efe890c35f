import Musi.LintRatchet.Kernel.EntryBaseline

namespace Musi.LintRatchet
open Musi.Js
set_option autoImplicit true

/-! ## The three-way merge of the flat family -/

structure MergeBaselineOptions (Entry : Type) extends SingleGroupMergePolicyOptions Entry where
  baseText : JsString
  currentText : JsString
  otherText : JsString
  truthUpOnOneSidedFastPath : Option Bool := none

structure MergeBaselineResult where
  mergedText : Option JsString := none
  failures : List JsString := []
  postMergeTruthUpRequired : Bool := false
  deriving DecidableEq

section
variable {N Entry : Type} [JsNumber N] [BaselineEntry N Entry] [Host]
  (spec : BaselineMetricSpec N Entry)

abbrev FlatBaseline (N Entry : Type) := GroupedBaseline N SingleGroupMeta Entry

/-- One side of a merge; a blank text is a baseline without entries. -/
def parseSide (options : MergeBaselineOptions Entry) (label text : JsString) :
    Except JsString (FlatBaseline N Entry) :=
  if trim text = [] then .ok (singleGroupBaseline spec [] singleGroupSchemaVersion)
  else match parseGroupedBaselineDocument
      (singleGroupSpec spec options.toSingleGroupMergePolicyOptions) text with
    | .ok value _ => .ok value
    | .failure error _ => .error (label ++ js " " ++ error)

def parseFailure : Except JsString (FlatBaseline N Entry) → List JsString
  | .ok _ => []
  | .error failure => [failure]

def fastPathResult (mergedText : Option JsString) (postMergeTruthUpRequired : Bool) :
    MergeBaselineResult := { mergedText, postMergeTruthUpRequired }

def mergeParsedBaselines (options : MergeBaselineOptions Entry)
    (base current other : FlatBaseline N Entry) : MergeBaselineResult :=
  let groupedSpec := singleGroupSpec spec options.toSingleGroupMergePolicyOptions
  let baseText := formatGroupedBaselineDocument groupedSpec base
  let currentText := formatGroupedBaselineDocument groupedSpec current
  let otherText := formatGroupedBaselineDocument groupedSpec other
  let truthUp := options.truthUpOnOneSidedFastPath.getD false
  if currentText = otherText then fastPathResult currentText false
  else if currentText = baseText then fastPathResult otherText truthUp
  else if otherText = baseText then fastPathResult currentText truthUp
  else
    let merged := mergeGroupedBaselineDocuments groupedSpec { base, current, other }
    if merged.failures ≠ [] then { failures := merged.failures }
    else
      { mergedText := formatGroupedBaselineDocument groupedSpec merged.baseline
        postMergeTruthUpRequired := merged.postMergeTruthUpRequired }

def mergeBaseline (options : MergeBaselineOptions Entry) : MergeBaselineResult :=
  let base := parseSide spec options (js "base") options.baseText
  let current := parseSide spec options (js "current") options.currentText
  let other := parseSide spec options (js "other") options.otherText
  match base, current, other with
  | .ok base, .ok current, .ok other => mergeParsedBaselines spec options base current other
  | _, _, _ => { failures := parseFailure base ++ parseFailure current ++ parseFailure other }

/-! ## What a side parses to -/

/-- The entry was read from some document, under its own key. -/
def EntryAccepted (k : JsString) (entry : Entry) : Prop :=
  k = BaselineEntry.key N entry ∧ ∃ raw warnings, spec.parseEntry raw = .ok entry warnings

/-- A parsed side is the flat baseline of its entries. -/
structure SideOf (baseline : FlatBaseline N Entry) (items : JsMap Entry) : Prop where
  version : baseline.version = singleGroupSchemaVersion
  groups : baseline.groups = (flatGroups spec items singleGroupSchemaVersion).groups
  accepted : ∀ e ∈ items.entries, EntryAccepted spec e.1 e.2

variable {spec} {options : MergeBaselineOptions Entry}

theorem parseArrayItems_accepted {opts : SingleGroupMergePolicyOptions Entry}
    {rawItems : List (Json N)} {index : Nat} {seen : List JsString}
    {values : List (KeyedGroupedItem Entry)}
    (h : parseArrayItems (singleGroupSpec spec opts) groupId index seen rawItems =
      .ok values warnings) : ∀ v ∈ values, EntryAccepted spec v.key v.item := by
  induction rawItems generalizing index seen values warnings with
  | nil =>
    cases h
    simp
  | cons raw rest ih =>
    unfold parseArrayItems at h
    split at h
    · cases h
    · next value w hvalue =>
      split at h
      · cases h
      · split at h
        · cases h
        · split at h
          · cases h
          · next tail more htail =>
            cases h
            refine List.forall_mem_cons.2 ⟨?_, ih htail⟩
            change parseKeyedEntry spec raw = .ok value w at hvalue
            unfold parseKeyedEntry at hvalue
            split at hvalue
            · cases hvalue
            · next entry w' hentry =>
              cases hvalue
              exact ⟨rfl, raw, w', hentry⟩

theorem checkedEnvelope_version {opts : SingleGroupMergePolicyOptions Entry} {raw : Json N}
    {envelope : Entries (Json N)}
    (h : checkedEnvelope (singleGroupSpec spec opts) raw = .ok (version, envelope) warnings) :
    version = singleGroupSchemaVersion := by
  unfold checkedEnvelope at h
  split at h
  · cases h
  · dsimp only at h
    split at h
    · cases h
    · split at h
      · cases h
      · next found _ =>
        split at h
        · next hversion =>
          cases h
          have heq : (singleGroupSchemaVersion : Int) = found := by
            simpa [singleGroupSpec] using hversion
          rw [← heq]
          rfl
        · split at h <;> cases h

omit [JsNumber N] [Host] in
theorem keyedItemMap_accepted {values : List (KeyedGroupedItem Entry)}
    (h : ∀ v ∈ values, EntryAccepted spec v.key v.item) :
    ∀ e ∈ (keyedItemMap values).entries, EntryAccepted spec e.1 e.2 := by
  intro e he
  rcases mem_setAll he with he | he
  · simp at he
  · obtain ⟨v, hv, rfl⟩ := List.mem_map.1 he
    exact h v hv

theorem parseEntriesFamily_sideOf {opts : SingleGroupMergePolicyOptions Entry}
    {envelope : Entries (Json N)}
    (h : parseEntriesFamily (singleGroupSpec spec opts) envelope = .ok groups warnings) :
    ∃ items : JsMap Entry, groups = (flatGroups spec items singleGroupSchemaVersion).groups ∧
      ∀ e ∈ items.entries, EntryAccepted spec e.1 e.2 := by
  unfold parseEntriesFamily at h
  split at h
  · cases h
  · next groupId hid =>
    cases hid
    split at h
    · split at h
      · cases h
      · next items w hitems =>
        split at h
        · cases h
        · next groupMeta more hmeta =>
          cases h
          refine ⟨keyedItemMap items, ?_, keyedItemMap_accepted (parseArrayItems_accepted hitems)⟩
          change parseGroupMeta spec envelope items = .ok groupMeta more at hmeta
          unfold parseGroupMeta at hmeta
          split at hmeta
          · cases hmeta
          · cases hmeta
            rfl
    · cases h

theorem parseSide_sideOf (h : parseSide spec options label text = .ok baseline) :
    ∃ items, SideOf spec baseline items := by
  unfold parseSide at h
  split at h
  · cases h
    exact ⟨JsMap.ofList [], rfl, rfl, by simp [JsMap.ofList, setAll]⟩
  · split at h
    · next value w hvalue =>
      cases h
      unfold parseGroupedBaselineDocument at hvalue
      split at hvalue
      · cases hvalue
      · split at hvalue
        · cases hvalue
        · next raw _ version envelope _ henvelope =>
          dsimp only at hvalue
          split at hvalue
          · cases hvalue
          · next groups w' hgroups =>
            cases hvalue
            obtain ⟨items, rfl, haccepted⟩ := parseEntriesFamily_sideOf hgroups
            exact ⟨items, checkedEnvelope_version henvelope, rfl, haccepted⟩
    · cases h

/-! ## The document of a side -/

/-- The entries of a flat baseline in the order of its document. -/
def sortedEntries (items : JsMap Entry) : List Entry :=
  (sortBy (fun a b => Host.localeCompare a.1 b.1) items.entries).map (·.2)

variable (spec)

/-- The flat document of a list of entries. -/
def flatDocument (entries : List Entry) : Json N :=
  objectOf ([(js "version", .num (JsNumber.ofInt singleGroupSchemaVersion))] ++
    singleGroupFields spec (fixedMeta spec) entries spec.regenerate ++
    [(js "entries", .arr (entries.map spec.entryJson))])

def flatText (items : JsMap Entry) : JsString :=
  stringifyIndented (flatDocument spec (sortedEntries items)) ++ [0x0A]

abbrev flatGroup (items : JsMap Entry) : GroupedBaselineGroup SingleGroupMeta Entry :=
  { groupMeta := fixedMeta spec, items := items }

/-- Two sides have the same canonical group. -/
def sameSide (left right : JsMap Entry) : Bool :=
  sameCanonicalGroup (singleGroupSpec spec {}) singleGroupId (flatGroup spec left)
    (flatGroup spec right)

/-- The merge of two sides entry by entry. -/
def mergeEntries (options : SingleGroupMergePolicyOptions Entry)
    (base current other : JsMap Entry) : ItemMapMergeResult Entry :=
  mergeItemMaps { entryMergePolicy spec options with count := entryCount N }
    { base, current, other, compareKeys := Host.localeCompare }

/-- The fast paths over whole documents, then those over the one group, before a merge entry by
entry. -/
def chooseText (baseText currentText otherText : JsString)
    (truthUp sameSides sameCurrent sameOther : Bool) (merged : MergeBaselineResult) :
    MergeBaselineResult :=
  if currentText = otherText then fastPathResult currentText false
  else if currentText = baseText then fastPathResult otherText truthUp
  else if otherText = baseText then fastPathResult currentText truthUp
  else if sameSides then fastPathResult currentText false
  else if sameCurrent then fastPathResult otherText false
  else if sameOther then fastPathResult currentText false
  else merged

def mergedEntriesResult (merged : ItemMapMergeResult Entry) : MergeBaselineResult :=
  if merged.failures ≠ [] then { failures := merged.failures }
  else
    { mergedText := flatText spec (JsMap.ofList merged.merged)
      postMergeTruthUpRequired := merged.truthUpRequired }

/-- The merge of three parsed sides. -/
def mergeSides (options : MergeBaselineOptions Entry) (base current other : JsMap Entry) :
    MergeBaselineResult :=
  chooseText (flatText spec base) (flatText spec current) (flatText spec other)
    (options.truthUpOnOneSidedFastPath.getD false) (sameSide spec current other)
    (sameSide spec current base) (sameSide spec other base)
    (mergedEntriesResult spec
      (mergeEntries spec options.toSingleGroupMergePolicyOptions base current other))

variable {spec}

theorem format_flat {opts : SingleGroupMergePolicyOptions Entry}
    {baseline : FlatBaseline N Entry} {items : JsMap Entry}
    (hversion : baseline.version = singleGroupSchemaVersion)
    (hgroups : baseline.groups = (flatGroups spec items singleGroupSchemaVersion).groups) :
    formatGroupedBaselineDocument (singleGroupSpec spec opts) baseline =
      some (flatText spec items) := by
  have hget : baseline.groups.get singleGroupId = some (flatGroup spec items) := by
    rw [hgroups]
    exact JsMap.get_ofList_of_nodup (by simp) _
  have hentries : (sortedGroupedItems (singleGroupSpec spec opts) (flatGroup spec items)).map
      (·.item) = sortedEntries items := by
    rw [sortedGroupedItems, List.map_map]
    rfl
  have harr : (sortedGroupedItems (singleGroupSpec spec opts) (flatGroup spec items)).map
      (fun i => spec.entryJson i.item) = (sortedEntries items).map spec.entryJson := by
    rw [← hentries, List.map_map]
    rfl
  simp only [formatGroupedBaselineDocument, formatEntriesDocument, singleGroupSpec] at hentries harr ⊢
  rw [hget, hversion, Option.map_some, Option.map_some, hentries, harr]
  rfl

theorem allGroupIds_flat {opts : SingleGroupMergePolicyOptions Entry}
    {base current other : FlatBaseline N Entry} {b c o : JsMap Entry} (hb : SideOf spec base b)
    (hc : SideOf spec current c) (ho : SideOf spec other o) :
    allGroupIds (singleGroupSpec spec opts) { base, current, other } = [singleGroupId] := by
  have hkeys (items : JsMap Entry) :
      (flatGroups spec items singleGroupSchemaVersion).groups.keys = [singleGroupId] :=
    congrArg Entries.keys (JsMap.ofList_entries (by simp))
  have hdups : ([singleGroupId] ++ [singleGroupId] ++ [singleGroupId]).eraseDups =
      [singleGroupId] := by decide
  rw [allGroupIds, hb.groups, hc.groups, ho.groups, hkeys, hkeys, hkeys, hdups]
  rfl

variable (spec) in
/-- The round of the one group, when the two sides have to be merged. -/
theorem mergeGroup_flat (opts : SingleGroupMergePolicyOptions Entry) (b c o : JsMap Entry) :
    mergeGroup (singleGroupSpec spec opts) singleGroupId
        { base := some (flatGroup spec b), current := some (flatGroup spec c),
          other := some (flatGroup spec o) } =
      if sameSide spec c o then
        { group := some (flatGroup spec c), failures := [], truthUpRequired := false }
      else if sameSide spec c b then
        { group := some (flatGroup spec o), failures := [], truthUpRequired := false }
      else if sameSide spec o b then
        { group := some (flatGroup spec c), failures := [], truthUpRequired := false }
      else
        { group := some (flatGroup spec (JsMap.ofList (mergeEntries spec opts b c o).merged))
          failures := (mergeEntries spec opts b c o).failures
          truthUpRequired := (mergeEntries spec opts b c o).failures.isEmpty &&
            (mergeEntries spec opts b c o).truthUpRequired } := by
  have hsame (left right : JsMap Entry) : sameCanonicalGroup (singleGroupSpec spec opts)
      singleGroupId (flatGroup spec left) (flatGroup spec right) = sameSide spec left right := rfl
  have hmeta : (singleGroupSpec spec opts).sameGroupMeta (fixedMeta spec) (fixedMeta spec) = true :=
    decide_eq_true rfl
  simp only [mergeGroup, chooseSimpleGroupMerge, chooseAgainstBase, sameOptionalGroup, hsame]
  by_cases hco : sameSide spec c o = true
  · simp only [if_pos hco]
  by_cases hcb : sameSide spec c b = true
  · simp only [if_neg hco, if_pos hcb]
  by_cases hob : sameSide spec o b = true
  · simp only [if_neg hco, if_neg hcb, if_pos hob]
  · simp only [if_neg hco, if_neg hcb, if_neg hob, mergeChangedGroup, hmeta, Bool.not_true,
      Bool.false_eq_true, if_false]
    rfl

/-- A merge of flat baselines is its one round. -/
theorem mergeDocuments_flat {opts : SingleGroupMergePolicyOptions Entry}
    {base current other : FlatBaseline N Entry} {b c o : JsMap Entry} (hb : SideOf spec base b)
    (hc : SideOf spec current c) (ho : SideOf spec other o)
    {round : ChangedGroupResult SingleGroupMeta Entry} {items : JsMap Entry}
    (hround : mergeGroup (singleGroupSpec spec opts) singleGroupId
      { base := some (flatGroup spec b), current := some (flatGroup spec c),
        other := some (flatGroup spec o) } = round)
    (hgroup : round.group = some (flatGroup spec items)) :
    mergeGroupedBaselineDocuments (singleGroupSpec spec opts) { base, current, other } =
      { baseline := groupedMergeOutput (singleGroupSpec spec opts)
          (flatGroups spec items singleGroupSchemaVersion).groups
        failures := round.failures
        postMergeTruthUpRequired := round.failures.isEmpty && round.truthUpRequired } := by
  have hget (items : JsMap Entry) :
      (flatGroups spec items singleGroupSchemaVersion).groups.get singleGroupId =
        some (flatGroup spec items) := JsMap.get_ofList_of_nodup (by simp) _
  have hversions : groupVersions { base, current, other } singleGroupId =
      { base := some (flatGroup spec b), current := some (flatGroup spec c),
        other := some (flatGroup spec o) } := by
    simp only [groupVersions, hb.groups, hc.groups, ho.groups, hget]
  simp only [mergeGroupedBaselineDocuments, allGroupIds_flat hb hc ho, List.map_cons, List.map_nil,
    hversions, hround, List.flatMap_cons, List.flatMap_nil, List.append_nil, List.filterMap_cons,
    hgroup, Option.map_some, List.filterMap_nil, List.any_cons, List.any_nil, Bool.or_false]
  rfl

theorem mergeParsedBaselines_eq {base current other : FlatBaseline N Entry}
    {b c o : JsMap Entry} (hb : SideOf spec base b) (hc : SideOf spec current c)
    (ho : SideOf spec other o) :
    mergeParsedBaselines spec options base current other = mergeSides spec options b c o := by
  have hformat (items : JsMap Entry) : formatGroupedBaselineDocument
      (singleGroupSpec spec options.toSingleGroupMergePolicyOptions)
      (groupedMergeOutput (singleGroupSpec spec options.toSingleGroupMergePolicyOptions)
        (flatGroups spec items singleGroupSchemaVersion).groups) = some (flatText spec items) :=
    format_flat rfl rfl
  have hround := mergeGroup_flat spec options.toSingleGroupMergePolicyOptions b c o
  simp only [mergeParsedBaselines, format_flat hb.version hb.groups,
    format_flat hc.version hc.groups, format_flat ho.version ho.groups, Option.some.injEq,
    mergeSides, chooseText, mergedEntriesResult]
  by_cases h1 : flatText spec c = flatText spec o
  · simp only [if_pos h1]
  by_cases h2 : flatText spec c = flatText spec b
  · simp only [if_neg h1, if_pos h2]
  by_cases h3 : flatText spec o = flatText spec b
  · simp only [if_neg h1, if_neg h2, if_pos h3]
  simp only [if_neg h1, if_neg h2, if_neg h3]
  by_cases h4 : sameSide spec c o = true
  · rw [if_pos h4] at hround ⊢
    rw [mergeDocuments_flat hb hc ho hround rfl, hformat]
    rfl
  rw [if_neg h4] at hround ⊢
  by_cases h5 : sameSide spec c b = true
  · rw [if_pos h5] at hround ⊢
    rw [mergeDocuments_flat hb hc ho hround rfl, hformat]
    rfl
  rw [if_neg h5] at hround ⊢
  by_cases h6 : sameSide spec o b = true
  · rw [if_pos h6] at hround ⊢
    rw [mergeDocuments_flat hb hc ho hround rfl, hformat]
    rfl
  rw [if_neg h6] at hround ⊢
  rw [mergeDocuments_flat hb hc ho hround rfl, hformat]
  dsimp only
  by_cases hf : (mergeEntries spec options.toSingleGroupMergePolicyOptions b c o).failures = []
  · simp [hf]
  · rw [if_pos hf, if_pos hf]

/-! ## The merge of three texts -/

variable (spec) in
/-- The entries that a side parses to. -/
def sideItems (options : MergeBaselineOptions Entry) (text : JsString) : Option (JsMap Entry) :=
  match parseSide spec options [] text with
  | .ok baseline => (baseline.groups.get singleGroupId).map (·.items)
  | .error _ => none

omit [JsNumber N] [Host] in
theorem SideOf.get {baseline : FlatBaseline N Entry} {items : JsMap Entry}
    (h : SideOf spec baseline items) :
    baseline.groups.get singleGroupId = some (flatGroup spec items) := by
  rw [h.groups]
  exact JsMap.get_ofList_of_nodup (by simp) _

/-- The label of a side only shows in its failure. -/
theorem parseSide_ok_iff (label label' : JsString) {baseline : FlatBaseline N Entry} :
    parseSide spec options label text = .ok baseline ↔
      parseSide spec options label' text = .ok baseline := by
  unfold parseSide
  split
  · rfl
  · split
    · rfl
    · constructor <;> intro h <;> cases h

theorem sideItems_some {items : JsMap Entry} (label : JsString)
    (h : sideItems spec options text = some items) :
    ∃ baseline, parseSide spec options label text = .ok baseline ∧ SideOf spec baseline items := by
  unfold sideItems at h
  split at h
  · next baseline hparse =>
    obtain ⟨items', hside⟩ := parseSide_sideOf hparse
    rw [hside.get] at h
    cases h
    exact ⟨baseline, (parseSide_ok_iff [] label).1 hparse, hside⟩
  · cases h

theorem sideItems_none (label : JsString) (h : sideItems spec options text = none) :
    ∃ failure, parseSide spec options label text = .error failure := by
  cases hparse : parseSide spec options label text with
  | error failure => exact ⟨failure, rfl⟩
  | ok baseline =>
    have hnil := (parseSide_ok_iff label []).1 hparse
    obtain ⟨items, hside⟩ := parseSide_sideOf hnil
    simp [sideItems, hnil, hside.get] at h

theorem mergeBaseline_parsed {b c o : JsMap Entry}
    (hb : sideItems spec options options.baseText = some b)
    (hc : sideItems spec options options.currentText = some c)
    (ho : sideItems spec options options.otherText = some o) :
    mergeBaseline spec options = mergeSides spec options b c o := by
  obtain ⟨base, hbase, hb⟩ := sideItems_some (js "base") hb
  obtain ⟨current, hcurrent, hc⟩ := sideItems_some (js "current") hc
  obtain ⟨other, hother, ho⟩ := sideItems_some (js "other") ho
  simp only [mergeBaseline, hbase, hcurrent, hother]
  exact mergeParsedBaselines_eq hb hc ho

variable (spec options) in
/-- A text that is no baseline fails the merge. -/
theorem mergeBaseline_unparsed
    (h : sideItems spec options options.baseText = none ∨
      sideItems spec options options.currentText = none ∨
      sideItems spec options options.otherText = none) :
    (mergeBaseline spec options).mergedText = none ∧
      (mergeBaseline spec options).postMergeTruthUpRequired = false := by
  unfold mergeBaseline
  dsimp only
  split
  · next base current other hbase hcurrent hother =>
    rcases h with h | h | h
    · obtain ⟨failure, hf⟩ := sideItems_none (js "base") h
      cases hf.symm.trans hbase
    · obtain ⟨failure, hf⟩ := sideItems_none (js "current") h
      cases hf.symm.trans hcurrent
    · obtain ⟨failure, hf⟩ := sideItems_none (js "other") h
      cases hf.symm.trans hother
  · exact ⟨rfl, rfl⟩

theorem sideItems_accepted {items : JsMap Entry} (h : sideItems spec options text = some items) :
    ∀ e ∈ items.entries, EntryAccepted spec e.1 e.2 :=
  (sideItems_some [] h).elim fun _ hside => hside.2.accepted

end

end Musi.LintRatchet
