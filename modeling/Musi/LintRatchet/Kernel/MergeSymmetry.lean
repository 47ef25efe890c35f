import Musi.LintRatchet.Kernel.MergeFloor

namespace Musi.LintRatchet
open Musi.Js
set_option autoImplicit true

section
variable {N Entry : Type} [JsNumber N] [BaselineEntry N Entry] [Host]
  {spec : BaselineMetricSpec N Entry} {options : MergeBaselineOptions Entry}
  {opts : SingleGroupMergePolicyOptions Entry} {b c o : JsMap Entry}

omit [Host] in
/-- Accepted entries that are written alike are the same. -/
theorem EntryInverse.injective (h : EntryInverse spec) {k l : JsString} {x y : Entry}
    (hx : EntryAccepted spec k x) (hy : EntryAccepted spec l y)
    (heq : wire (spec.entryJson x) = wire (spec.entryJson y)) : x = y := by
  obtain ⟨-, rawx, wx, hx⟩ := hx
  obtain ⟨-, rawy, wy, hy⟩ := hy
  obtain ⟨vx, hx⟩ := h rawx x wx hx
  obtain ⟨vy, hy⟩ := h rawy y wy hy
  rw [heq, hy] at hx
  cases hx
  rfl

/-- Outcomes that fail together, ask for a truth-up together and keep the same entry. -/
structure OutcomeAgrees (x y : ItemMergeOutcome Entry) : Prop where
  failure : x.failure.isSome = y.failure.isSome
  truthUp : x.truthUp = y.truthUp
  item : x.failure = none → x.item = y.item

omit [Host] in
theorem nonCountPayloadDiffers_comm (x y : Entry) :
    nonCountPayloadDiffers spec x y = nonCountPayloadDiffers spec y x := by
  simp only [nonCountPayloadDiffers, ne_comm]

omit [Host] in
/-- A shared key resolves alike from either side. -/
theorem mergeSharedEntry_swap (h : EntryInverse spec) {x y : Entry}
    (hx : EntryAccepted spec k x) (hy : EntryAccepted spec l y) (key : JsString) :
    OutcomeAgrees (mergeSharedEntry spec key x y) (mergeSharedEntry spec key y x) := by
  unfold mergeSharedEntry
  dsimp only
  by_cases hcount : entryCount N x = entryCount N y
  · rw [if_neg (not_not.2 hcount), if_neg (not_not.2 hcount.symm)]
    by_cases htext : stringify (spec.entryJson x) = stringify (spec.entryJson y)
    · rw [if_neg (not_not.2 htext), if_neg (not_not.2 htext.symm)]
      have heq := h.injective hx hy
        ((stringify_eq_iff (spec.built_entryJson x) (spec.built_entryJson y)).1 htext)
      exact ⟨rfl, rfl, fun _ => congrArg some heq⟩
    · rw [if_pos htext, if_pos (Ne.symm htext)]
      exact ⟨rfl, rfl, nofun⟩
  · rw [if_pos hcount, if_pos (Ne.symm hcount), nonCountPayloadDiffers_comm y x]
    split
    · exact ⟨rfl, rfl, nofun⟩
    · refine ⟨rfl, rfl, fun _ => congrArg some ?_⟩
      rcases JsNumber.less_total (entryCount N x) (entryCount N y) with hlt | heq | hlt
      · have hnot : ¬ JsNumber.less (entryCount N y) (entryCount N x) = true := fun hback => by
          have := JsNumber.less_trans hlt hback
          simp [JsNumber.less_irrefl] at this
        rw [if_pos hlt, if_neg hnot]
      · exact (hcount heq).elim
      · have hnot : ¬ JsNumber.less (entryCount N x) (entryCount N y) = true := fun hback => by
          have := JsNumber.less_trans hlt hback
          simp [JsNumber.less_irrefl] at this
        rw [if_neg hnot, if_pos hlt]

variable (opts b) in
/-- Every key resolves alike from either side. -/
theorem resolveEntry_swap (h : EntryInverse spec)
    (hc : ∀ e ∈ c.entries, EntryAccepted spec e.1 e.2)
    (ho : ∀ e ∈ o.entries, EntryAccepted spec e.1 e.2) (key : JsString) :
    OutcomeAgrees (resolveEntry spec opts b c o key) (resolveEntry spec opts b o c key) := by
  unfold resolveEntry resolveKey
  dsimp only
  cases hx : c.get key with
  | none =>
    cases hy : o.get key with
    | none => exact ⟨rfl, rfl, fun _ => rfl⟩
    | some y => exact ⟨rfl, rfl, fun _ => rfl⟩
  | some x =>
    cases hy : o.get key with
    | none => exact ⟨rfl, rfl, fun _ => rfl⟩
    | some y =>
      exact mergeSharedEntry_swap h (hc _ (JsMap.mem_entries.2 hx)) (ho _ (JsMap.mem_entries.2 hy))
        key

/-! ## What a merged text says -/

omit [JsNumber N] [Host] in
theorem field_objectOf_last (fields : Entries (Json N)) (k : JsString) (v : Json N) :
    (objectOf (fields ++ [(k, v)])).field k = some v := by
  change (Record.fromEntries (fields ++ [(k, v)])).own k = some v
  rw [Record.own_fromEntries, JsMap.get_ofList, List.reverse_append]
  simp

omit [Host] in
theorem field_wire (v : Json N) (k : JsString) : (wire v).field k = (v.field k).map wire := by
  cases v with
  | obj fields =>
    rw [wire_obj]
    exact Entries.lookup_map (fun _ v => wire v) fields k
  | num n =>
    rw [wire]
    split <;> rfl
  | arr vs =>
    rw [wire_arr]
    rfl
  | null | bool b | str s => rfl

omit [BaselineEntry N Entry] [Host] in
theorem built_flatDocument (entries : List Entry) : Built (flatDocument spec entries) := by
  refine built_objectOf fun e he => ?_
  simp only [List.mem_append, List.mem_singleton] at he
  rcases he with (rfl | he) | rfl
  · exact .num _
  · have he := Record.mem_fromEntries he
    simp only [List.mem_append, List.mem_cons, List.not_mem_nil, or_false, List.mem_map,
      regenerateField, Option.mem_toList, Option.map_eq_some_iff] at he
    rcases he with (((rfl | rfl) | ⟨f, -, rfl⟩) | ⟨v, ⟨r, -, rfl⟩, rfl⟩) | rfl
    · exact .str _
    · exact .str _
    · exact .str _
    · exact .str _
    · exact spec.built_summaryJson entries
  · refine .arr fun v hv => ?_
    obtain ⟨entry, -, rfl⟩ := List.mem_map.1 hv
    exact spec.built_entryJson entry

omit [BaselineEntry N Entry] in
/-- A flat document tells how each of its entries is written. -/
theorem entries_of_flatText {items items' : JsMap Entry}
    (h : flatText spec items = flatText spec items') :
    (sortedEntries items).map (fun e => wire (spec.entryJson e)) =
      (sortedEntries items').map fun e => wire (spec.entryJson e) := by
  have hwire := (stringifyIndented_eq_iff (built_flatDocument _) (built_flatDocument _)).1
    (List.append_cancel_right h)
  have hfield := congrArg (Json.field · (js "entries")) hwire
  simp only [field_wire, flatDocument, field_objectOf_last, Option.map_some, wire_arr,
    List.map_map, Option.some.injEq, Json.arr.injEq] at hfield
  exact hfield

theorem sortedEntries_mergeEntries :
    sortedEntries (JsMap.ofList (mergeEntries spec opts b c o).merged) =
      (mergeEntries spec opts b c o).merged.map (·.2) := by
  have hsorted : (mergeEntries spec opts b c o).merged.Pairwise
      fun x y => Host.localeCompare x.1 y.1 ≤ 0 := by
    have hkeys := (sortBy_sorted Host.localeCompare_consistent
      (c.keys ++ o.keys).eraseDups).filter (keepsKey spec opts b c o)
    rw [← unionKeys, ← mergeEntries_keys, Entries.keys] at hkeys
    exact List.pairwise_map.1 hkeys
  rw [sortedEntries, JsMap.ofList_entries nodup_mergeEntries, sortBy_of_sorted hsorted]

/-- Two merges of the same sides are written alike exactly when they keep the same entries in the
same order. -/
theorem flatText_mergeEntries_iff (h : EntryInverse spec)
    (hc : ∀ e ∈ c.entries, EntryAccepted spec e.1 e.2)
    (ho : ∀ e ∈ o.entries, EntryAccepted spec e.1 e.2) :
    flatText spec (JsMap.ofList (mergeEntries spec opts b c o).merged) =
        flatText spec (JsMap.ofList (mergeEntries spec opts b o c).merged) ↔
      (mergeEntries spec opts b c o).merged = (mergeEntries spec opts b o c).merged := by
  refine ⟨fun htext => ?_, fun heq => by rw [heq]⟩
  have hwire := entries_of_flatText htext
  rw [sortedEntries_mergeEntries, sortedEntries_mergeEntries, List.map_map, List.map_map] at hwire
  have hm := mergeEntries_accepted opts b hc ho
  have hm' := mergeEntries_accepted opts b ho hc
  refine eq_of_map_eq hwire fun e he e' he' heq => ?_
  have hvalue := h.injective (hm e he) (hm' e' he') heq
  exact Prod.ext ((hm e he).1.trans ((congrArg _ hvalue).trans (hm' e' he').1.symm)) hvalue

/-! ## Symmetry -/

/-- The keys of two sides, each once, those of the first side first. -/
def sideKeys (first second : JsMap Entry) : List JsString := (first.keys ++ second.keys).eraseDups

/-- Which side comes first shows nowhere: the sides, or a side and the base, are written alike, or
one side is canonically the base, or a key fails, or the keys that survive and tie under the locale
order come in the same order from either side. -/
def SidesCommute (spec : BaselineMetricSpec N Entry) (opts : SingleGroupMergePolicyOptions Entry)
    (b c o : JsMap Entry) : Prop :=
  flatText spec c = flatText spec o ∨ flatText spec c = flatText spec b ∨
  flatText spec o = flatText spec b ∨
  (sameSide spec c o = false ∧
    (sameSide spec c b = true ∨ sameSide spec o b = true ∨
      (∃ key, (resolveEntry spec opts b c o key).failure ≠ none) ∨
      ∀ k l, keepsKey spec opts b c o k = true → keepsKey spec opts b c o l = true →
        Host.localeCompare k l = 0 → [k, l].Sublist (sideKeys c o) →
          [k, l].Sublist (sideKeys o c)))

/-- The same texts with the sides swapped. -/
def MergeBaselineOptions.swapSides (options : MergeBaselineOptions Entry) :
    MergeBaselineOptions Entry :=
  { options with currentText := options.otherText, otherText := options.currentText }

/-- Results that fail together, and otherwise have the same text and the same flag. -/
structure SameOutcome (r r' : MergeBaselineResult) : Prop where
  mergedText : r.mergedText = r'.mergedText
  postMergeTruthUpRequired : r.postMergeTruthUpRequired = r'.postMergeTruthUpRequired

theorem sameSide_comm (x y : JsMap Entry) : sameSide spec x y = sameSide spec y x := by
  simp only [sameSide, sameCanonicalGroup, eq_comm]

theorem sameSide_trans {x y z : JsMap Entry} (hxy : sameSide spec x y = true)
    (hyz : sameSide spec y z = true) : sameSide spec x z = true := by
  simp only [sameSide, sameCanonicalGroup, decide_eq_true_eq] at hxy hyz ⊢
  exact hxy.trans hyz

theorem unionKeys_perm (c o : JsMap Entry) :
    (unionKeys Host.localeCompare c o).Perm (unionKeys Host.localeCompare o c) := by
  refine (List.perm_ext_iff_of_nodup (nodup_unionKeys _ _ _) (nodup_unionKeys _ _ _)).2 fun k => ?_
  rw [mem_unionKeys, mem_unionKeys, or_comm]

theorem keptEntry_swap (h : EntryInverse spec)
    (hc : ∀ e ∈ c.entries, EntryAccepted spec e.1 e.2)
    (ho : ∀ e ∈ o.entries, EntryAccepted spec e.1 e.2) :
    keptEntry spec opts b c o = keptEntry spec opts b o c := by
  funext k
  have hswap := resolveEntry_swap opts b h hc ho k
  unfold keptEntry mergedEntry
  cases hf : (resolveEntry spec opts b c o k).failure with
  | none =>
    have hf' : (resolveEntry spec opts b o c k).failure = none := by
      simpa [hf] using hswap.failure.symm
    rw [hf', ← hswap.item hf]
  | some failure =>
    have hf' : (resolveEntry spec opts b o c k).failure.isSome = true := by
      rw [← hswap.failure, hf]
      rfl
    obtain ⟨failure', hf'⟩ := Option.isSome_iff_exists.1 hf'
    simp only [hf']

theorem mergeEntries_truthUp_swap (h : EntryInverse spec)
    (hc : ∀ e ∈ c.entries, EntryAccepted spec e.1 e.2)
    (ho : ∀ e ∈ o.entries, EntryAccepted spec e.1 e.2) :
    (mergeEntries spec opts b c o).truthUpRequired =
      (mergeEntries spec opts b o c).truthUpRequired := by
  rw [mergeEntries_truthUp, mergeEntries_truthUp, (unionKeys_perm c o).any_eq]
  congr 1
  funext k
  have hswap := resolveEntry_swap opts b h hc ho k
  rw [hswap.truthUp, ← Option.not_isSome, ← Option.not_isSome, hswap.failure]

/-- The two merges of two changed sides keep the same entries in the same order exactly when the
surviving keys that tie do. -/
theorem mergeEntries_merged_iff (h : EntryInverse spec)
    (hc : ∀ e ∈ c.entries, EntryAccepted spec e.1 e.2)
    (ho : ∀ e ∈ o.entries, EntryAccepted spec e.1 e.2) :
    (mergeEntries spec opts b c o).merged = (mergeEntries spec opts b o c).merged ↔
      ∀ k l, keepsKey spec opts b c o k = true → keepsKey spec opts b c o l = true →
        Host.localeCompare k l = 0 → [k, l].Sublist (sideKeys c o) →
          [k, l].Sublist (sideKeys o c) := by
  have hkeeps : keepsKey spec opts b o c = keepsKey spec opts b c o := by
    funext k
    rw [keepsKey, keepsKey, keptEntry_swap h hc ho]
  have hperm : (sideKeys c o).Perm (sideKeys o c) := by
    refine (List.perm_ext_iff_of_nodup (nodup_eraseDups _) (nodup_eraseDups _)).2 fun k => ?_
    simp [or_comm]
  have hties := filter_sortBy_eq_iff Host.localeCompare_consistent
    (nodup_eraseDups (c.keys ++ o.keys)) hperm (keepsKey spec opts b c o)
  refine Iff.trans ?_ hties
  have hkeys := mergeEntries_keys spec opts b c o
  have hkeys' := mergeEntries_keys spec opts b o c
  rw [hkeeps] at hkeys'
  constructor
  · intro heq
    rw [heq, hkeys'] at hkeys
    exact hkeys.symm
  · intro heq
    have hfilter (l : List JsString) : l.filterMap (keptEntry spec opts b c o) =
        (l.filter (keepsKey spec opts b c o)).filterMap (keptEntry spec opts b c o) := by
      rw [List.filterMap_filter]
      refine List.filterMap_congr fun k _ => ?_
      unfold keepsKey
      cases keptEntry spec opts b c o k <;> rfl
    rw [mergeEntries_merged, mergeEntries_merged, ← keptEntry_swap h hc ho, hfilter,
      hfilter (unionKeys Host.localeCompare o c)]
    exact congrArg _ heq

omit [JsNumber N] [BaselineEntry N Entry] [Host] in
theorem chooseText_swap_iff {baseText currentText otherText : JsString}
    {truthUp sameSides sameCurrent sameOther : Bool} {merged merged' : MergeBaselineResult}
    (htrans : sameCurrent = true → sameOther = true → sameSides = true) :
    SameOutcome
        (chooseText baseText currentText otherText truthUp sameSides sameCurrent sameOther merged)
        (chooseText baseText otherText currentText truthUp sameSides sameOther sameCurrent merged') ↔
      currentText = otherText ∨ currentText = baseText ∨ otherText = baseText ∨
        (sameSides = false ∧
          (sameCurrent = true ∨ sameOther = true ∨ SameOutcome merged merged')) := by
  unfold chooseText
  by_cases h1 : currentText = otherText
  · subst h1
    simp only [if_true, true_or, iff_true]
    exact ⟨rfl, rfl⟩
  have h1' : ¬ otherText = currentText := Ne.symm h1
  rw [if_neg h1, if_neg h1', or_iff_right h1]
  by_cases h2 : currentText = baseText
  · have h3 : ¬ otherText = baseText := fun h3 => h1 (h2.trans h3.symm)
    rw [if_pos h2, if_neg h3, if_pos h2]
    exact iff_of_true ⟨rfl, rfl⟩ (.inl h2)
  by_cases h3 : otherText = baseText
  · rw [if_neg h2, if_pos h3, if_pos h3]
    exact iff_of_true ⟨rfl, rfl⟩ (.inr (.inl h3))
  rw [if_neg h2, if_neg h3, if_neg h3, if_neg h2, or_iff_right h2, or_iff_right h3]
  cases sameSides with
  | true => exact iff_of_false (fun h => h1 (Option.some.inj h.mergedText)) (by simp)
  | false =>
    cases sameCurrent with
    | true =>
      cases sameOther with
      | true => cases htrans rfl rfl
      | false => exact iff_of_true ⟨rfl, rfl⟩ (by simp)
    | false =>
      cases sameOther with
      | true => exact iff_of_true ⟨rfl, rfl⟩ (by simp)
      | false => simp

/-- The merge of two changed sides entry by entry fails from either side, or keeps the ties. -/
theorem mergedEntriesResult_swap_iff (h : EntryInverse spec)
    (hc : ∀ e ∈ c.entries, EntryAccepted spec e.1 e.2)
    (ho : ∀ e ∈ o.entries, EntryAccepted spec e.1 e.2) :
    SameOutcome (mergedEntriesResult spec (mergeEntries spec opts b c o))
        (mergedEntriesResult spec (mergeEntries spec opts b o c)) ↔
      (∃ key, (resolveEntry spec opts b c o key).failure ≠ none) ∨
        ∀ k l, keepsKey spec opts b c o k = true → keepsKey spec opts b c o l = true →
          Host.localeCompare k l = 0 → [k, l].Sublist (sideKeys c o) →
            [k, l].Sublist (sideKeys o c) := by
  have hfail : (mergeEntries spec opts b c o).failures ≠ [] ↔
      (mergeEntries spec opts b o c).failures ≠ [] := by
    rw [mergeEntries_failures, mergeEntries_failures]
    refine exists_congr fun key => ?_
    rw [Option.ne_none_iff_isSome, Option.ne_none_iff_isSome,
      (resolveEntry_swap _ _ h hc ho key).failure]
  unfold mergedEntriesResult
  by_cases hf : (mergeEntries spec opts b c o).failures ≠ []
  · rw [if_pos hf, if_pos (hfail.1 hf)]
    exact iff_of_true ⟨rfl, rfl⟩ (.inl (mergeEntries_failures.1 hf))
  · rw [if_neg hf, if_neg (mt hfail.2 hf), or_iff_right (mt mergeEntries_failures.2 hf),
      ← mergeEntries_merged_iff h hc ho, ← flatText_mergeEntries_iff h hc ho]
    constructor
    · exact fun hsame => Option.some.inj hsame.mergedText
    · exact fun htext => ⟨congrArg some htext, mergeEntries_truthUp_swap h hc ho⟩

/-- The merge of two parsed sides does not see which is current, exactly when they commute. -/
theorem mergeSides_swap_iff (h : EntryInverse spec)
    (hc : ∀ e ∈ c.entries, EntryAccepted spec e.1 e.2)
    (ho : ∀ e ∈ o.entries, EntryAccepted spec e.1 e.2) :
    SameOutcome (mergeSides spec options b c o) (mergeSides spec options.swapSides b o c) ↔
      SidesCommute spec options.toSingleGroupMergePolicyOptions b c o := by
  unfold mergeSides
  rw [sameSide_comm o c, SidesCommute, ← mergedEntriesResult_swap_iff h hc ho]
  exact chooseText_swap_iff fun hcb hob => sameSide_trans hcb ((sameSide_comm b o).trans hob)

/-- Swapping the sides of a flat merge changes nothing, exactly when the sides that the texts
parse to commute. -/
theorem mergeBaseline_swapSides_iff (h : EntryInverse spec) :
    SameOutcome (mergeBaseline spec options) (mergeBaseline spec options.swapSides) ↔
      ∀ b c o, sideItems spec options options.baseText = some b →
        sideItems spec options options.currentText = some c →
        sideItems spec options options.otherText = some o →
        SidesCommute spec options.toSingleGroupMergePolicyOptions b c o := by
  cases hb : sideItems spec options options.baseText with
  | none =>
    have hleft := mergeBaseline_unparsed spec options (.inl hb)
    have hright := mergeBaseline_unparsed spec options.swapSides (.inl hb)
    exact iff_of_true ⟨hleft.1.trans hright.1.symm, hleft.2.trans hright.2.symm⟩ nofun
  | some b =>
    cases hc : sideItems spec options options.currentText with
    | none =>
      have hleft := mergeBaseline_unparsed spec options (.inr (.inl hc))
      have hright := mergeBaseline_unparsed spec options.swapSides
        (.inr (.inr hc))
      exact iff_of_true ⟨hleft.1.trans hright.1.symm, hleft.2.trans hright.2.symm⟩ nofun
    | some c =>
      cases ho : sideItems spec options options.otherText with
      | none =>
        have hleft := mergeBaseline_unparsed spec options (.inr (.inr ho))
        have hright := mergeBaseline_unparsed spec options.swapSides
          (.inr (.inl ho))
        exact iff_of_true ⟨hleft.1.trans hright.1.symm, hleft.2.trans hright.2.symm⟩ nofun
      | some o =>
        have hright : mergeBaseline spec options.swapSides = mergeSides spec options.swapSides b o c :=
          mergeBaseline_parsed hb ho hc
        rw [mergeBaseline_parsed hb hc ho, hright,
          mergeSides_swap_iff h (sideItems_accepted hc) (sideItems_accepted ho)]
        simp

end

/-- Two sides that each add an entry to an empty ledger. -/
def twoAdditions (first second : JsString) : MergeBaselineOptions LedgerEntry where
  oneSidedEntryStrategy := some .baseAware
  baseText := []
  currentText := ledgerText [{ key := first, count := .int 1 }]
  otherText := ledgerText [{ key := second, count := .int 1 }]

theorem mergeBaseline_swapSides_iff_ledger :
    SameOutcome (mergeBaseline ledgerSpec (twoAdditions (js "a") (js "b")))
        (mergeBaseline ledgerSpec (twoAdditions (js "a") (js "b")).swapSides) ∧
      ∀ b c o, sideItems ledgerSpec (twoAdditions (js "a") (js "b")) [] = some b →
        sideItems ledgerSpec (twoAdditions (js "a") (js "b"))
          (twoAdditions (js "a") (js "b")).currentText = some c →
        sideItems ledgerSpec (twoAdditions (js "a") (js "b"))
          (twoAdditions (js "a") (js "b")).otherText = some o →
        SidesCommute ledgerSpec
          (twoAdditions (js "a") (js "b")).toSingleGroupMergePolicyOptions b c o := by
  have hsame : SameOutcome (mergeBaseline ledgerSpec (twoAdditions (js "a") (js "b")))
      (mergeBaseline ledgerSpec (twoAdditions (js "a") (js "b")).swapSides) :=
    ⟨by decide +kernel, by decide +kernel⟩
  exact ⟨hsame, (mergeBaseline_swapSides_iff ledgerSpec_inverse).1 hsame⟩

/-- A host whose locale order, as it must, ties the two code points of one canonical letter. -/
def angstromHost : Host :=
  { posixHost with
    localeCompare := fun a b => compareCodeUnits (a.map fun c => if c = 0x212B then 0xC5 else c)
      (b.map fun c => if c = 0x212B then 0xC5 else c)
    localeCompare_consistent := compareCodeUnits_strict.toConsistentComparator.comap _ }

theorem mergeBaseline_swapSides_fails : EntryInverse ledgerSpec ∧
    ¬ SameOutcome (@mergeBaseline _ _ _ _ angstromHost ledgerSpec (twoAdditions [0x212B] [0xC5]))
      (@mergeBaseline _ _ _ _ angstromHost ledgerSpec (twoAdditions [0x212B] [0xC5]).swapSides) := by
  refine ⟨ledgerSpec_inverse, fun hsame => ?_⟩
  have htext := hsame.mergedText
  revert htext
  decide +kernel

end Musi.LintRatchet
