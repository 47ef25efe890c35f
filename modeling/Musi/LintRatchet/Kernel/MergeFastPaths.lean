import Musi.LintRatchet.Kernel.MergeSymmetry

namespace Musi.LintRatchet
open Musi.Js
set_option autoImplicit true

/-! ## The fast paths over whole documents and the merge of the parsed documents -/

section
variable {N Entry : Type} [JsNumber N] [BaselineEntry N Entry] [Host]
  (spec : BaselineMetricSpec N Entry) (options : MergeBaselineOptions Entry)

/-- What a text equality returns, if one holds. -/
def fastPath (base current other : FlatBaseline N Entry) : Option MergeBaselineResult :=
  let groupedSpec := singleGroupSpec spec options.toSingleGroupMergePolicyOptions
  let baseText := formatGroupedBaselineDocument groupedSpec base
  let currentText := formatGroupedBaselineDocument groupedSpec current
  let otherText := formatGroupedBaselineDocument groupedSpec other
  let truthUp := options.truthUpOnOneSidedFastPath.getD false
  if currentText = otherText then some (fastPathResult currentText false)
  else if currentText = baseText then some (fastPathResult otherText truthUp)
  else if otherText = baseText then some (fastPathResult currentText truthUp)
  else none

/-- A fast path and the grouped merge of the same documents write the same bytes without
failures; their flags differ only where the option asks for it. -/
structure AgreesWithGroupedMerge (result : MergeBaselineResult)
    (merged : MergeGroupedBaselineResult N SingleGroupMeta Entry) : Prop where
  failures : merged.failures = []
  mergedText : formatGroupedBaselineDocument
    (singleGroupSpec spec options.toSingleGroupMergePolicyOptions) merged.baseline = result.mergedText
  truthUp : result.postMergeTruthUpRequired ≠ merged.postMergeTruthUpRequired →
    options.truthUpOnOneSidedFastPath = some true

/-- Every fast path that the merge of the three texts returns through agrees with the grouped
merge. -/
def FastPathsAgree : Prop :=
  ∀ base current other, parseSide spec options (js "base") options.baseText = .ok base →
    parseSide spec options (js "current") options.currentText = .ok current →
    parseSide spec options (js "other") options.otherText = .ok other →
    ∀ result, fastPath spec options base current other = some result →
      mergeBaseline spec options = result ∧
        AgreesWithGroupedMerge spec options result (mergeGroupedBaselineDocuments
          (singleGroupSpec spec options.toSingleGroupMergePolicyOptions) { base, current, other })

variable {spec} {options} {b c o : JsMap Entry}

theorem mergeParsedBaselines_fastPath {base current other : FlatBaseline N Entry}
    (h : fastPath spec options base current other = some result) :
    mergeParsedBaselines spec options base current other = result := by
  rw [fastPath] at h
  rw [mergeParsedBaselines]
  dsimp only at h ⊢
  split_ifs at h ⊢ with hco hcb hob
  · exact Option.some.inj h
  · exact Option.some.inj h
  · exact Option.some.inj h

/-- Sides that are written alike have the same entries in the same order. -/
theorem sortedEntries_of_flatText (h : EntryInverse spec)
    (hc : ∀ e ∈ c.entries, EntryAccepted spec e.1 e.2)
    (ho : ∀ e ∈ o.entries, EntryAccepted spec e.1 e.2) (htext : flatText spec c = flatText spec o) :
    sortBy (fun x y => Host.localeCompare x.1 y.1) c.entries =
      sortBy (fun x y => Host.localeCompare x.1 y.1) o.entries := by
  have hwire := entries_of_flatText htext
  rw [sortedEntries, sortedEntries, List.map_map, List.map_map] at hwire
  refine eq_of_map_eq hwire fun e he e' he' heq => ?_
  have hx := hc e (mem_sortBy.1 he)
  have hy := ho e' (mem_sortBy.1 he')
  have hvalue := h.injective hx hy heq
  exact Prod.ext (hx.1.trans ((congrArg _ hvalue).trans hy.1.symm)) hvalue

/-- Sides that are written alike have the same canonical group. -/
theorem sameSide_of_flatText (h : EntryInverse spec)
    (hc : ∀ e ∈ c.entries, EntryAccepted spec e.1 e.2)
    (ho : ∀ e ∈ o.entries, EntryAccepted spec e.1 e.2) (htext : flatText spec c = flatText spec o) :
    sameSide spec c o = true := by
  refine decide_eq_true (congrArg stringify ?_)
  have hsorted : sortedGroupedItems (singleGroupSpec spec {}) (flatGroup spec c) =
      sortedGroupedItems (singleGroupSpec spec {}) (flatGroup spec o) :=
    congrArg (List.map fun e : JsString × Entry => (⟨e.1, e.2⟩ : KeyedGroupedItem Entry))
      (sortedEntries_of_flatText h hc ho htext)
  rw [formattedGroupedTest, formattedGroupedTest, hsorted]

/-- The side that the grouped merge takes where two of the three are the same. -/
def takenSide (spec : BaselineMetricSpec N Entry) (b c o : JsMap Entry) : JsMap Entry :=
  if sameSide spec c o = false ∧ sameSide spec c b = true then o else c

theorem mergeGroup_takenSide (opts : SingleGroupMergePolicyOptions Entry)
    (hsame : sameSide spec c o = true ∨ sameSide spec c b = true ∨ sameSide spec o b = true) :
    mergeGroup (singleGroupSpec spec opts) singleGroupId
        { base := some (flatGroup spec b), current := some (flatGroup spec c),
          other := some (flatGroup spec o) } =
      { group := some (flatGroup spec (takenSide spec b c o)), failures := [], truthUpRequired := false } := by
  rw [mergeGroup_flat, takenSide]
  cases hco : sameSide spec c o with
  | true => rfl
  | false =>
    cases hcb : sameSide spec c b with
    | true => rfl
    | false =>
      have hob : sameSide spec o b = true := by simpa [hco, hcb] using hsame
      rw [hob]
      rfl

/-- The grouped merge of parsed documents two of which are the same. -/
theorem mergeDocuments_takenSide (opts : SingleGroupMergePolicyOptions Entry)
    {base current other : FlatBaseline N Entry} (hb : SideOf spec base b) (hc : SideOf spec current c)
    (ho : SideOf spec other o)
    (hsame : sameSide spec c o = true ∨ sameSide spec c b = true ∨ sameSide spec o b = true) :
    let merged := mergeGroupedBaselineDocuments (singleGroupSpec spec opts) { base, current, other }
    merged.failures = [] ∧ merged.postMergeTruthUpRequired = false ∧
      formatGroupedBaselineDocument (singleGroupSpec spec opts) merged.baseline =
        some (flatText spec (takenSide spec b c o)) := by
  rw [mergeDocuments_flat hb hc ho (mergeGroup_takenSide opts hsame) rfl]
  exact ⟨rfl, rfl, format_flat rfl rfl⟩

theorem sideItems_of_parseSide {text label : JsString} {baseline : FlatBaseline N Entry}
    (h : parseSide spec options label text = .ok baseline) :
    ∃ items, sideItems spec options text = some items := by
  obtain ⟨items, hside⟩ := parseSide_sideOf h
  refine ⟨items, ?_⟩
  rw [sideItems, (parseSide_ok_iff label []).1 h]
  exact congrArg (Option.map _) hside.get

/-- Only the other side changed, and only in the order of entries, which its canonical group does
not show. -/
structure UnseenReorder (spec : BaselineMetricSpec N Entry) (b c o : JsMap Entry) : Prop where
  unchanged : flatText spec c = flatText spec b
  changed : flatText spec c ≠ flatText spec o
  sameSide : sameSide spec c o = true

theorem fastPathsAgree_parsed_iff (h : EntryInverse spec)
    (hb : sideItems spec options options.baseText = some b)
    (hc : sideItems spec options options.currentText = some c)
    (ho : sideItems spec options options.otherText = some o) :
    FastPathsAgree spec options ↔ ¬ UnseenReorder spec b c o := by
  have hbaccepted := sideItems_accepted hb
  have hcaccepted := sideItems_accepted hc
  have hoaccepted := sideItems_accepted ho
  obtain ⟨base, hbase, hb⟩ := sideItems_some (js "base") hb
  obtain ⟨current, hcurrent, hc⟩ := sideItems_some (js "current") hc
  obtain ⟨other, hother, ho⟩ := sideItems_some (js "other") ho
  have hmerge : mergeBaseline spec options = mergeParsedBaselines spec options base current other := by
    rw [mergeBaseline, hbase, hcurrent, hother]
  have hfast : fastPath spec options base current other =
      if flatText spec c = flatText spec o then some (fastPathResult (some (flatText spec c)) false)
      else if flatText spec c = flatText spec b then
        some (fastPathResult (some (flatText spec o)) (options.truthUpOnOneSidedFastPath.getD false))
      else if flatText spec o = flatText spec b then
        some (fastPathResult (some (flatText spec c)) (options.truthUpOnOneSidedFastPath.getD false))
      else none := by
    simp only [fastPath, format_flat hb.version hb.groups, format_flat hc.version hc.groups,
      format_flat ho.version ho.groups, Option.some.injEq]
  constructor
  · rintro hagree ⟨hcb, hne, hco⟩
    rw [if_neg hne, if_pos hcb] at hfast
    obtain ⟨-, hmerged⟩ := hagree base current other hbase hcurrent hother _ hfast
    have htext := hmerged.mergedText
    rw [(mergeDocuments_takenSide _ hb hc ho (.inl hco)).2.2, takenSide, hco,
      if_neg fun hand => Bool.false_ne_true hand.1.symm] at htext
    exact hne (Option.some.inj htext)
  · intro hnot base' current' other' hbase' hcurrent' hother' result hresult
    cases hbase.symm.trans hbase'
    cases hcurrent.symm.trans hcurrent'
    cases hother.symm.trans hother'
    refine ⟨hmerge.trans (mergeParsedBaselines_fastPath hresult), ?_⟩
    have htruth : options.truthUpOnOneSidedFastPath.getD false ≠ false →
        options.truthUpOnOneSidedFastPath = some true := by
      cases options.truthUpOnOneSidedFastPath with
      | none => exact fun hne => absurd rfl hne
      | some truthUp =>
        intro hne
        rw [Option.getD_some, Bool.ne_false_iff] at hne
        rw [hne]
    rw [hfast] at hresult
    split_ifs at hresult with hco hcb hob
    · -- Both sides are written alike.
      obtain rfl := Option.some.inj hresult
      have hsame := sameSide_of_flatText h hcaccepted hoaccepted hco
      obtain ⟨hfailures, hflag, htext⟩ := mergeDocuments_takenSide _ hb hc ho (.inl hsame)
      rw [takenSide, hsame, if_neg fun hand => Bool.false_ne_true hand.1.symm] at htext
      exact ⟨hfailures, htext, fun hne => absurd hflag.symm hne⟩
    · -- Only the other side changed.
      obtain rfl := Option.some.inj hresult
      have hbase := sameSide_of_flatText h hcaccepted hbaccepted hcb
      have hdiffer : sameSide spec c o = false := by
        rw [← Bool.not_eq_true]
        exact fun hsame => hnot ⟨hcb, hco, hsame⟩
      obtain ⟨hfailures, hflag, htext⟩ := mergeDocuments_takenSide _ hb hc ho (.inr (.inl hbase))
      rw [takenSide, if_pos ⟨hdiffer, hbase⟩] at htext
      exact ⟨hfailures, htext, fun hne => htruth (hflag ▸ hne)⟩
    · -- Only the current side changed.
      obtain rfl := Option.some.inj hresult
      have hbase := sameSide_of_flatText h hoaccepted hbaccepted hob
      obtain ⟨hfailures, hflag, htext⟩ := mergeDocuments_takenSide _ hb hc ho (.inr (.inr hbase))
      have hcurrent : ¬ (sameSide spec c o = false ∧ sameSide spec c b = true) := by
        rintro ⟨hdiffer, hcb'⟩
        rw [sameSide_trans hcb' ((sameSide_comm b o).trans hbase)] at hdiffer
        cases hdiffer
      rw [takenSide, if_neg hcurrent] at htext
      exact ⟨hfailures, htext, fun hne => htruth (hflag ▸ hne)⟩

/-- The fast paths agree with the grouped merge, exactly when the sides that the texts parse to do
not only differ in an order of entries that a canonical group does not show. -/
theorem mergeBaseline_fastPaths_iff (h : EntryInverse spec) :
    FastPathsAgree spec options ↔
      ∀ b c o, sideItems spec options options.baseText = some b →
        sideItems spec options options.currentText = some c →
        sideItems spec options options.otherText = some o → ¬ UnseenReorder spec b c o := by
  constructor
  · intro hagree b c o hb hc ho
    exact (fastPathsAgree_parsed_iff h hb hc ho).1 hagree
  · intro hseen base current other hbase hcurrent hother
    obtain ⟨b, hb⟩ := sideItems_of_parseSide hbase
    obtain ⟨c, hc⟩ := sideItems_of_parseSide hcurrent
    obtain ⟨o, ho⟩ := sideItems_of_parseSide hother
    exact (fastPathsAgree_parsed_iff h hb hc ho).2 (hseen b c o hb hc ho) base current other
      hbase hcurrent hother

end

/-- The ledger that adds one entry to an empty one. -/
def oneAddition (key : JsString) : MergeBaselineOptions LedgerEntry where
  baseText := []
  currentText := []
  otherText := ledgerText [{ key, count := .int 1 }]

theorem mergeBaseline_fastPaths_iff_ledger :
    (∀ b c o, sideItems ledgerSpec (oneAddition (js "a")) [] = some b →
      sideItems ledgerSpec (oneAddition (js "a")) [] = some c →
      sideItems ledgerSpec (oneAddition (js "a")) (oneAddition (js "a")).otherText = some o →
      ¬ UnseenReorder ledgerSpec b c o) ∧ FastPathsAgree ledgerSpec (oneAddition (js "a")) := by
  have hagree : FastPathsAgree ledgerSpec (oneAddition (js "a")) :=
    (fastPathsAgree_parsed_iff (b := JsMap.empty) (c := JsMap.empty)
      (o := JsMap.empty.set (js "a") { key := js "a", count := .int 1 })
      ledgerSpec_inverse (by decide +kernel) (by decide +kernel) (by decide +kernel)).2
      fun hunseen => by
        have hsame := hunseen.sameSide
        revert hsame
        decide +kernel
  exact ⟨(mergeBaseline_fastPaths_iff ledgerSpec_inverse).1 hagree, hagree⟩

/-- A host whose locale order, as it must, does not see the null character. -/
def ignorableHost : Host :=
  { posixHost with
    localeCompare := fun a b => compareCodeUnits (a.filter (· ≠ 0)) (b.filter (· ≠ 0))
    localeCompare_consistent := compareCodeUnits_strict.toConsistentComparator.comap _ }

/-- The entries of two keys, in their order. -/
def orderedEntries (first second : JsString) : JsMap LedgerEntry :=
  JsMap.ofList [(first, { key := first, count := .int 1 }), (second, { key := second, count := .int 1 })]

/-- The other side swaps the two entries of the base. -/
def reordered (first second : JsString) : MergeBaselineOptions LedgerEntry where
  baseText := @flatText _ _ _ ignorableHost ledgerSpec (orderedEntries first second)
  currentText := @flatText _ _ _ ignorableHost ledgerSpec (orderedEntries first second)
  otherText := @flatText _ _ _ ignorableHost ledgerSpec (orderedEntries second first)

theorem mergeBaseline_fastPaths_fails : EntryInverse ledgerSpec ∧
    ¬ @FastPathsAgree _ _ _ _ ignorableHost ledgerSpec (reordered [0x31] [0x31, 0]) := by
  refine ⟨ledgerSpec_inverse, fun hagree => ?_⟩
  have hbase : @sideItems _ _ _ _ ignorableHost ledgerSpec (reordered [0x31] [0x31, 0])
      (reordered [0x31] [0x31, 0]).baseText = some (orderedEntries [0x31] [0x31, 0]) := by
    decide +kernel
  have hother : @sideItems _ _ _ _ ignorableHost ledgerSpec (reordered [0x31] [0x31, 0])
      (reordered [0x31] [0x31, 0]).otherText = some (orderedEntries [0x31, 0] [0x31]) := by
    decide +kernel
  refine (@fastPathsAgree_parsed_iff _ _ _ _ ignorableHost _ _ _ _ _ ledgerSpec_inverse
    hbase hbase hother).1 hagree ?_
  have hchanged : @flatText _ _ _ ignorableHost ledgerSpec (orderedEntries [0x31] [0x31, 0]) ≠
      @flatText _ _ _ ignorableHost ledgerSpec (orderedEntries [0x31, 0] [0x31]) := by
    decide +kernel
  have hsame : @sameSide _ _ _ _ ignorableHost ledgerSpec (orderedEntries [0x31] [0x31, 0])
      (orderedEntries [0x31, 0] [0x31]) = true := by
    decide +kernel
  exact @UnseenReorder.mk _ _ _ _ ignorableHost _ _ _ _ rfl hchanged hsame

end Musi.LintRatchet
