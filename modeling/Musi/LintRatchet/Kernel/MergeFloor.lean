import Musi.LintRatchet.Kernel.Ledger

namespace Musi.LintRatchet
open Musi.Js
set_option autoImplicit true

section
variable {N Entry : Type} [JsNumber N] [BaselineEntry N Entry] [Host]
  {spec : BaselineMetricSpec N Entry} {options : MergeBaselineOptions Entry}
  {opts : SingleGroupMergePolicyOptions Entry} {b c o : JsMap Entry}

/-! ## What becomes of one key -/

/-- How one key of two sides resolves. -/
def resolveEntry (spec : BaselineMetricSpec N Entry) (opts : SingleGroupMergePolicyOptions Entry)
    (b c o : JsMap Entry) (key : JsString) : ItemMergeOutcome Entry :=
  resolveKey { entryMergePolicy spec opts with count := entryCount N }
    { base := b, current := c, other := o, compareKeys := Host.localeCompare } key

/-- The entry that a merge writes for a key, if it keeps the key. -/
def keptEntry (spec : BaselineMetricSpec N Entry) (opts : SingleGroupMergePolicyOptions Entry)
    (b c o : JsMap Entry) (key : JsString) : Option (JsString × Entry) :=
  mergedEntry { entryMergePolicy spec opts with count := entryCount N } key
    (resolveEntry spec opts b c o key)

theorem mergeEntries_merged : (mergeEntries spec opts b c o).merged =
    (unionKeys Host.localeCompare c o).filterMap (keptEntry spec opts b c o) := mergeItemMaps_merged

theorem keptEntry_some {e : JsString × Entry} (h : keptEntry spec opts b c o k = some e) :
    e.1 = k ∧ (resolveEntry spec opts b c o k).item = some e.2 ∧
      (resolveEntry spec opts b c o k).failure = none := by
  obtain ⟨hkey, hfail, hitem, -⟩ := mergedEntry_some.1 h
  exact ⟨hkey, hitem, hfail⟩

omit [Host] in
theorem mergeSharedEntry_item {x y z : Entry} (h : (mergeSharedEntry spec k x y).item = some z) :
    z = x ∨ z = y := by
  unfold mergeSharedEntry at h
  dsimp only at h
  split at h
  · split at h
    · cases h
    · rw [← Option.some.inj h]
      split
      · exact .inl rfl
      · exact .inr rfl
  · split at h
    · cases h
    · exact .inl (Option.some.inj h).symm

omit [BaselineEntry N Entry] [Host] in
theorem mergeOneSidedEntry_item {x z : Entry} {y : Option Entry}
    (h : (mergeOneSidedEntry spec opts x y).item = some z) : z = x := by
  unfold mergeOneSidedEntry at h
  split at h
  · split at h
    · exact (Option.some.inj h).symm
    · cases h
  · split at h
    · exact (Option.some.inj h).symm
    · cases h

/-- The entry that a key keeps is that of a side. -/
theorem resolveEntry_item {z : Entry} (h : (resolveEntry spec opts b c o k).item = some z) :
    c.get k = some z ∨ o.get k = some z := by
  unfold resolveEntry resolveKey at h
  dsimp only at h
  split at h
  · next x y hx hy =>
    rcases mergeSharedEntry_item h with rfl | rfl
    · exact .inl hx
    · exact .inr hy
  · next x hx _ => exact .inl (mergeOneSidedEntry_item h ▸ hx)
  · next x _ hx => exact .inr (mergeOneSidedEntry_item h ▸ hx)
  · cases h

/-- A key that a merge keeps. -/
def keepsKey (spec : BaselineMetricSpec N Entry) (opts : SingleGroupMergePolicyOptions Entry)
    (b c o : JsMap Entry) (key : JsString) : Bool := (keptEntry spec opts b c o key).isSome

variable (spec opts b c o) in
theorem mergeEntries_keys : Entries.keys (mergeEntries spec opts b c o).merged =
    (unionKeys Host.localeCompare c o).filter (keepsKey spec opts b c o) := by
  rw [mergeEntries_merged]
  exact keys_filterMap_keyed (fun k e h => (keptEntry_some h).1) _

theorem nodup_mergeEntries : (Entries.keys (mergeEntries spec opts b c o).merged).Nodup :=
  nodup_mergeItemMaps

theorem mergeEntries_failures : (mergeEntries spec opts b c o).failures ≠ [] ↔
    ∃ key, (resolveEntry spec opts b c o key).failure ≠ none := by
  rw [ne_eq, mergeEntries, failures_mergeItemMaps, not_forall]
  rfl

theorem mergeEntries_truthUp : (mergeEntries spec opts b c o).truthUpRequired =
    (unionKeys Host.localeCompare c o).any fun k =>
      (resolveEntry spec opts b c o k).failure.isNone && (resolveEntry spec opts b c o k).truthUp := by
  simp only [mergeEntries, mergeItemMaps, List.any_map]
  rfl

variable (opts b) in
theorem mergeEntries_accepted (hc : ∀ e ∈ c.entries, EntryAccepted spec e.1 e.2)
    (ho : ∀ e ∈ o.entries, EntryAccepted spec e.1 e.2) :
    ∀ e ∈ (mergeEntries spec opts b c o).merged, EntryAccepted spec e.1 e.2 := by
  intro e he
  rw [mergeEntries_merged] at he
  obtain ⟨k, -, hk⟩ := List.mem_filterMap.1 he
  obtain ⟨rfl, hitem, -⟩ := keptEntry_some hk
  rcases resolveEntry_item hitem with h | h
  · exact hc _ (JsMap.mem_entries.2 h)
  · exact ho _ (JsMap.mem_entries.2 h)

/-! ## The floor that a merge keeps -/

/-- A key of one side only, and its entry. -/
def OneSided (c o : JsMap Entry) (key : JsString) (entry : Entry) : Prop :=
  (c.get key = some entry ∧ o.get key = none) ∨ (c.get key = none ∧ o.get key = some entry)

theorem resolveEntry_shared {x y : Entry} (hx : c.get k = some x) (hy : o.get k = some y) :
    resolveEntry spec opts b c o k = mergeSharedEntry spec k x y := by
  simp only [resolveEntry, resolveKey, hx, hy, entryMergePolicy]

theorem resolveEntry_oneSided {x : Entry} (h : OneSided c o k x) :
    resolveEntry spec opts b c o k = mergeOneSidedEntry spec opts x (b.get k) := by
  rcases h with ⟨hx, hy⟩ | ⟨hx, hy⟩ <;> simp only [resolveEntry, resolveKey, hx, hy, entryMergePolicy]

/-- The count of an entry is positive. -/
def Positive (N : Type) {Entry : Type} [JsNumber N] [BaselineEntry N Entry] (entry : Entry) : Prop :=
  JsNumber.less (JsNumber.ofInt 0) (entryCount N entry) = true

/-- Two entries that differ at most in their counts, as a merge compares them. -/
def SamePayload (spec : BaselineMetricSpec N Entry) (x y : Entry) : Prop :=
  if entryCount N x = entryCount N y then stringify (spec.entryJson x) = stringify (spec.entryJson y)
  else nonCountPayloadDiffers spec x y = false

/-- The entry of two sides with the smaller count, when the rest of them agrees. -/
structure LesserEntry (spec : BaselineMetricSpec N Entry) (x y z : Entry) : Prop where
  side : z = x ∨ z = y
  current : JsNumber.less (entryCount N x) (entryCount N z) = false
  other : JsNumber.less (entryCount N y) (entryCount N z) = false
  payload : SamePayload spec x y

/-- The strategy keeps an entry that one side added. -/
def KeepsAddition (opts : SingleGroupMergePolicyOptions Entry) (entry : Entry) : Prop :=
  match opts.oneSidedEntryStrategy.getD .intersection with
  | .intersection => opts.preserveOneSidedAddition.any (· entry) = true
  | .baseAware => True

/-- What a merge of two changed sides may keep and drop, and when it may stay silent about it. -/
structure MergeFloor (spec : BaselineMetricSpec N Entry) (opts : SingleGroupMergePolicyOptions Entry)
    (b c o items : JsMap Entry) (truthUpRequired : Bool) : Prop where
  keys : ∀ k, (∃ z, items.get k = some z) ↔
    (∃ x y, c.get k = some x ∧ o.get k = some y ∧ Positive N x ∧ Positive N y) ∨
    (∃ x, OneSided c o k x ∧ b.get k = none ∧ KeepsAddition opts x ∧ Positive N x)
  shared : ∀ k x y z, c.get k = some x → o.get k = some y → items.get k = some z →
    LesserEntry spec x y z
  oneSided : ∀ k x z, OneSided c o k x → items.get k = some z → z = x
  dropped : truthUpRequired = false → ∀ k x, (c.get k = some x ∨ o.get k = some x) →
    items.get k = none → ¬ Positive N x ∨
      (opts.oneSidedEntryStrategy = some .baseAware ∧ OneSided c o k x ∧
        ∃ y, b.get k = some y ∧ stringify (spec.entryJson y) = stringify (spec.entryJson x))
  counts : truthUpRequired = false → ∀ k x y, c.get k = some x → o.get k = some y →
    entryCount N x = entryCount N y

omit [Host] in
/-- A shared key that does not fail keeps the lesser entry, and says so when the counts differ. -/
theorem mergeSharedEntry_lesser {x y : Entry} (h : (mergeSharedEntry spec k x y).failure = none) :
    ∃ z, (mergeSharedEntry spec k x y).item = some z ∧ LesserEntry spec x y z ∧
      ((mergeSharedEntry spec k x y).truthUp = false → entryCount N x = entryCount N y) := by
  unfold mergeSharedEntry at h ⊢
  dsimp only at h ⊢
  by_cases hcount : entryCount N x = entryCount N y
  · rw [if_neg (not_not.2 hcount)] at h ⊢
    by_cases htext : stringify (spec.entryJson x) = stringify (spec.entryJson y)
    · rw [if_neg (not_not.2 htext)]
      exact ⟨x, rfl, ⟨.inl rfl, JsNumber.less_irrefl, hcount ▸ JsNumber.less_irrefl,
        by rwa [SamePayload, if_pos hcount]⟩, fun _ => hcount⟩
    · rw [if_pos htext] at h
      cases h
  · rw [if_pos hcount] at h ⊢
    split at h
    · cases h
    · next hpayload =>
      have hpayload : SamePayload spec x y := by
        rw [SamePayload, if_neg hcount]
        exact Bool.eq_false_iff.2 hpayload
      rw [if_neg (by simpa [SamePayload, hcount] using hpayload)]
      refine ⟨_, rfl, ?_, nofun⟩
      by_cases hless : JsNumber.less (entryCount N x) (entryCount N y) = true
      · rw [if_pos hless]
        refine ⟨.inl rfl, JsNumber.less_irrefl, ?_, hpayload⟩
        refine Bool.eq_false_iff.2 fun hback => ?_
        have := JsNumber.less_trans hless hback
        simp [JsNumber.less_irrefl] at this
      · rw [if_neg hless]
        exact ⟨.inr rfl, Bool.eq_false_iff.2 hless, JsNumber.less_irrefl, hpayload⟩

omit [Host] in
/-- Nothing is less than what a positive number is not less than, unless it is positive itself. -/
theorem Positive.of_le {x y : Entry} (hx : Positive N x)
    (h : JsNumber.less (entryCount N y) (entryCount N x) = false) : Positive N y := by
  rcases JsNumber.less_total (entryCount N x) (entryCount N y) with hlt | heq | hlt
  · exact JsNumber.less_trans hx hlt
  · rw [Positive, ← heq]
    exact hx
  · rw [h] at hlt
    cases hlt

omit [Host] in
theorem LesserEntry.positive_iff {x y z : Entry} (h : LesserEntry spec x y z) :
    Positive N z ↔ Positive N x ∧ Positive N y := by
  constructor
  · exact fun hz => ⟨hz.of_le h.current, hz.of_le h.other⟩
  · rintro ⟨hx, hy⟩
    rcases h.side with rfl | rfl
    · exact hx
    · exact hy

omit [BaselineEntry N Entry] [Host] in
/-- The entry of one side survives when it was added and the strategy keeps it. -/
theorem mergeOneSidedEntry_kept {x : Entry} {base : Option Entry} :
    (mergeOneSidedEntry spec opts x base).item = some x ↔ base = none ∧ KeepsAddition opts x := by
  unfold mergeOneSidedEntry KeepsAddition
  cases opts.oneSidedEntryStrategy.getD .intersection with
  | intersection =>
    dsimp only
    split
    · next h => exact iff_of_true rfl (by simpa using h)
    · next h => exact iff_of_false nofun (by simpa using h)
  | baseAware => cases base <;> simp

omit [BaselineEntry N Entry] [Host] in
/-- The entry of one side is dropped in silence when the other side removed what this side left
as it was. -/
theorem mergeOneSidedEntry_silent {x : Entry} {base : Option Entry}
    (htruth : (mergeOneSidedEntry spec opts x base).truthUp = false)
    (hitem : (mergeOneSidedEntry spec opts x base).item = none) :
    opts.oneSidedEntryStrategy = some .baseAware ∧
      ∃ y, base = some y ∧ stringify (spec.entryJson y) = stringify (spec.entryJson x) := by
  unfold mergeOneSidedEntry at htruth hitem
  cases hstrategy : opts.oneSidedEntryStrategy.getD .intersection with
  | intersection =>
    rw [hstrategy] at htruth hitem
    dsimp only at htruth hitem
    split at htruth
    · next h =>
      rw [if_pos h] at hitem
      cases hitem
    · cases htruth
  | baseAware =>
    rw [hstrategy] at htruth hitem
    refine ⟨?_, ?_⟩
    · cases hopt : opts.oneSidedEntryStrategy with
      | none =>
        rw [hopt] at hstrategy
        cases hstrategy
      | some strategy => exact congrArg some (by simpa [hopt] using hstrategy)
    · cases base with
      | none => cases hitem
      | some y => exact ⟨y, rfl, by simpa using htruth⟩

/-- The items that a merge keeps, key by key. -/
theorem get_mergeEntries {k : JsString} {z : Entry} :
    (JsMap.ofList (mergeEntries spec opts b c o).merged).get k = some z ↔
      (resolveEntry spec opts b c o k).failure = none ∧
        (resolveEntry spec opts b c o k).item = some z ∧ Positive N z := get_mergeItemMaps _ _ _ _

omit [Host] in
theorem side_cases (c o : JsMap Entry) (k : JsString) :
    (∃ x y, c.get k = some x ∧ o.get k = some y) ∨ (∃ x, OneSided c o k x) ∨
      (c.get k = none ∧ o.get k = none) := by
  cases hx : c.get k with
  | none =>
    cases hy : o.get k with
    | none => exact .inr (.inr ⟨rfl, rfl⟩)
    | some y => exact .inr (.inl ⟨y, .inr ⟨hx, hy⟩⟩)
  | some x =>
    cases hy : o.get k with
    | none => exact .inr (.inl ⟨x, .inl ⟨hx, hy⟩⟩)
    | some y => exact .inl ⟨x, y, rfl, rfl⟩

omit [Host] in
theorem OneSided.unique {x y : Entry} (h : OneSided c o k x)
    (hy : c.get k = some y ∨ o.get k = some y) : y = x := by
  rcases h with ⟨hc, ho⟩ | ⟨hc, ho⟩ <;> rcases hy with hy | hy <;> simp_all

/-- A merge without failures keeps the floor of its two sides. -/
theorem mergeEntries_floor (h : (mergeEntries spec opts b c o).failures = []) :
    MergeFloor spec opts b c o (JsMap.ofList (mergeEntries spec opts b c o).merged)
      (mergeEntries spec opts b c o).truthUpRequired := by
  have hfail (k : JsString) : (resolveEntry spec opts b c o k).failure = none := by
    by_contra hk
    exact mergeEntries_failures.2 ⟨k, hk⟩ h
  have hcell (k : JsString) (x y : Entry) (hx : c.get k = some x) (hy : o.get k = some y) :
      resolveEntry spec opts b c o k = mergeSharedEntry spec k x y := resolveEntry_shared hx hy
  have hlone (k : JsString) (x : Entry) (hside : OneSided c o k x) :
      resolveEntry spec opts b c o k = mergeOneSidedEntry spec opts x (b.get k) :=
    resolveEntry_oneSided hside
  have hshared (k : JsString) (x y : Entry) (hx : c.get k = some x) (hy : o.get k = some y) :
      ∃ z, (mergeSharedEntry spec k x y).item = some z ∧ LesserEntry spec x y z ∧
        ((mergeSharedEntry spec k x y).truthUp = false → entryCount N x = entryCount N y) :=
    mergeSharedEntry_lesser ((hcell k x y hx hy) ▸ hfail k)
  have hsilent (htruth : (mergeEntries spec opts b c o).truthUpRequired = false) (k : JsString)
      (x : Entry) (hside : c.get k = some x ∨ o.get k = some x) :
      (resolveEntry spec opts b c o k).truthUp = false := by
    rw [mergeEntries_truthUp, List.any_eq_false] at htruth
    have hmem : k ∈ unionKeys Host.localeCompare c o := by
      rw [mem_unionKeys, JsMap.mem_keys, JsMap.mem_keys]
      exact hside.imp (⟨x, ·⟩) (⟨x, ·⟩)
    simpa [hfail k] using htruth k hmem
  have hcounts (htruth : (mergeEntries spec opts b c o).truthUpRequired = false) (k : JsString)
      (x y : Entry) (hx : c.get k = some x) (hy : o.get k = some y) :
      entryCount N x = entryCount N y := by
    obtain ⟨z, -, -, hcount⟩ := hshared k x y hx hy
    exact hcount ((hcell k x y hx hy) ▸ hsilent htruth k x (.inl hx))
  constructor
  case keys =>
    intro k
    constructor
    · rintro ⟨z, hz⟩
      obtain ⟨-, hitem, hpos⟩ := get_mergeEntries.1 hz
      rcases side_cases c o k with ⟨x, y, hx, hy⟩ | ⟨x, hside⟩ | ⟨hx, hy⟩
      · obtain ⟨z', hitem', hlesser, -⟩ := hshared k x y hx hy
        rw [(hcell k x y hx hy), hitem'] at hitem
        cases hitem
        exact .inl ⟨x, y, hx, hy, hlesser.positive_iff.1 hpos⟩
      · rw [(hlone k x hside)] at hitem
        cases mergeOneSidedEntry_item hitem
        obtain ⟨hbase, hkeeps⟩ := mergeOneSidedEntry_kept.1 hitem
        exact .inr ⟨z, hside, hbase, hkeeps, hpos⟩
      · rcases resolveEntry_item hitem with h | h
        · rw [hx] at h
          cases h
        · rw [hy] at h
          cases h
    · rintro (⟨x, y, hx, hy, hpos⟩ | ⟨x, hside, hbase, hkeeps, hpos⟩)
      · obtain ⟨z, hitem, hlesser, -⟩ := hshared k x y hx hy
        exact ⟨z, get_mergeEntries.2 ⟨hfail k, (hcell k x y hx hy) ▸ hitem,
          hlesser.positive_iff.2 hpos⟩⟩
      · exact ⟨x, get_mergeEntries.2 ⟨hfail k,
          (hlone k x hside) ▸ mergeOneSidedEntry_kept.2 ⟨hbase, hkeeps⟩, hpos⟩⟩
  case shared =>
    intro k x y z hx hy hz
    obtain ⟨-, hitem, -⟩ := get_mergeEntries.1 hz
    obtain ⟨z', hitem', hlesser, -⟩ := hshared k x y hx hy
    rw [(hcell k x y hx hy), hitem'] at hitem
    cases hitem
    exact hlesser
  case oneSided =>
    intro k x z hside hz
    obtain ⟨-, hitem, -⟩ := get_mergeEntries.1 hz
    rw [(hlone k x hside)] at hitem
    exact mergeOneSidedEntry_item hitem
  case dropped =>
    intro htruth k x hx hnone
    rw [or_iff_not_imp_left, not_not]
    intro hpos
    have hmissing (z : Entry) (hitem : (resolveEntry spec opts b c o k).item = some z)
        (hz : Positive N z) : False := by
      rw [get_mergeEntries.2 ⟨hfail k, hitem, hz⟩] at hnone
      cases hnone
    rcases side_cases c o k with ⟨y, y', hy, hy'⟩ | ⟨y, hside⟩ | ⟨hy, hy'⟩
    · obtain ⟨z, hitem, hlesser, -⟩ := hshared k y y' hy hy'
      refine (hmissing z ((hcell k y y' hy hy') ▸ hitem) (hlesser.positive_iff.2 ?_)).elim
      have hcount := hcounts htruth k y y' hy hy'
      have hxy : entryCount N x = entryCount N y := by
        rcases hx with hx | hx
        · rw [Option.some.inj (hx.symm.trans hy)]
        · rw [Option.some.inj (hx.symm.trans hy'), hcount]
      rw [Positive, hxy] at hpos
      exact ⟨hpos, by rwa [Positive, ← hcount]⟩
    · cases hside.unique hx
      have hround := hlone k x hside
      cases hitem : (mergeOneSidedEntry spec opts x (b.get k)).item with
      | some z =>
        cases mergeOneSidedEntry_item hitem
        exact (hmissing x (hround ▸ hitem) hpos).elim
      | none =>
        have hquiet := hround ▸ hsilent htruth k x hx
        obtain ⟨hstrategy, hbase⟩ := mergeOneSidedEntry_silent hquiet hitem
        exact ⟨hstrategy, hside, hbase⟩
    · rcases hx with hx | hx
      · rw [hy] at hx
        cases hx
      · rw [hy'] at hx
        cases hx
  case counts => exact hcounts

/-- Three texts whose merge is decided entry by entry: no two of the three documents, and no two of
the three canonical groups, are alike. -/
structure MergedByEntry (spec : BaselineMetricSpec N Entry) (options : MergeBaselineOptions Entry)
    (b c o : JsMap Entry) : Prop where
  base : sideItems spec options options.baseText = some b
  current : sideItems spec options options.currentText = some c
  other : sideItems spec options options.otherText = some o
  textSides : flatText spec c ≠ flatText spec o
  textCurrent : flatText spec c ≠ flatText spec b
  textOther : flatText spec o ≠ flatText spec b
  sameSides : sameSide spec c o = false
  sameCurrent : sameSide spec c b = false
  sameOther : sameSide spec o b = false

/-- A flat merge that resolves entry by entry keeps the floor of its two sides. -/
theorem mergeBaseline_floor (h : MergedByEntry spec options b c o)
    (hmerged : (mergeBaseline spec options).mergedText = some text) :
    ∃ items, text = flatText spec items ∧ (∀ e ∈ items.entries, EntryAccepted spec e.1 e.2) ∧
      MergeFloor spec options.toSingleGroupMergePolicyOptions b c o items
        (mergeBaseline spec options).postMergeTruthUpRequired := by
  rw [mergeBaseline_parsed h.base h.current h.other] at hmerged ⊢
  simp only [mergeSides, chooseText, if_neg h.textSides, if_neg h.textCurrent, if_neg h.textOther,
    h.sameSides, h.sameCurrent, h.sameOther, Bool.false_eq_true, if_false,
    mergedEntriesResult] at hmerged ⊢
  split at hmerged
  · cases hmerged
  · next hf =>
    rw [if_neg hf]
    have hf := not_not.1 hf
    refine ⟨_, (Option.some.inj hmerged).symm, ?_, mergeEntries_floor hf⟩
    rw [JsMap.ofList_entries nodup_mergeEntries]
    exact mergeEntries_accepted _ _ (sideItems_accepted h.current) (sideItems_accepted h.other)

end

def ledgerItems (entries : List LedgerEntry) : JsMap LedgerEntry :=
  JsMap.ofList (entries.map fun entry => (entry.key, entry))

/-- Three ledgers merged with knowledge of their base. -/
def ledgerMerge (base current other : List LedgerEntry) : MergeBaselineOptions LedgerEntry where
  oneSidedEntryStrategy := some .baseAware
  baseText := ledgerText base
  currentText := ledgerText current
  otherText := ledgerText other

theorem mergeBaseline_floor_ledger :
    let base : List LedgerEntry := [⟨js "a", .int 3⟩, ⟨js "b", .int 2⟩]
    let current : List LedgerEntry := [⟨js "a", .int 1⟩, ⟨js "b", .int 2⟩, ⟨js "c", .int 1⟩]
    let other : List LedgerEntry := [⟨js "a", .int 2⟩]
    ∃ items, ledgerText [⟨js "a", .int 1⟩, ⟨js "c", .int 1⟩] = flatText ledgerSpec items ∧
      (∀ e ∈ items.entries, EntryAccepted ledgerSpec e.1 e.2) ∧
      MergeFloor ledgerSpec (ledgerMerge base current other).toSingleGroupMergePolicyOptions
        (ledgerItems base) (ledgerItems current) (ledgerItems other) items
        (mergeBaseline ledgerSpec (ledgerMerge base current other)).postMergeTruthUpRequired := by
  refine mergeBaseline_floor ?_ (by decide +kernel)
  constructor <;> decide +kernel

/-- An entry that one side adds with the count zero is dropped, though its base has no such key. -/
theorem mergeBaseline_drops_empty_addition :
    let options := ledgerMerge [] [⟨js "a", .int 0⟩] [⟨js "b", .int 1⟩]
    MergedByEntry ledgerSpec options (ledgerItems []) (ledgerItems [⟨js "a", .int 0⟩])
        (ledgerItems [⟨js "b", .int 1⟩]) ∧
      OneSided (ledgerItems [⟨js "a", .int 0⟩]) (ledgerItems [⟨js "b", .int 1⟩]) (js "a")
        ⟨js "a", .int 0⟩ ∧
      (ledgerItems []).get (js "a") = none ∧
      ((mergeBaseline ledgerSpec options).mergedText.bind (sideItems ledgerSpec options)).map
        (·.has (js "a")) = some false := by
  refine ⟨?_, .inl ?_, ?_, ?_⟩
  · constructor <;> decide +kernel
  · decide +kernel
  · decide +kernel
  · decide +kernel

end Musi.LintRatchet
