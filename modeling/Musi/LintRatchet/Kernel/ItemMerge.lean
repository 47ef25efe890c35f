import Musi.LintRatchet.Kernel.GroupBaselineMerge

namespace Musi.LintRatchet
open Musi.Js
set_option autoImplicit true

variable {N : Type} [JsNumber N] {Item : Type} {policy : ItemMergePolicy N Item}
  {input : ItemMapMergeInput Item}

/-! ## A merge of item maps, key by key -/

omit [JsNumber N] in
theorem resolveKey_absent {key : JsString} (h : key ∉ unionKeys input.compareKeys input.current input.other) :
    resolveKey policy input key = {} := by
  rw [mem_unionKeys, not_or, ← JsMap.get_none, ← JsMap.get_none] at h
  simp only [resolveKey, h]

theorem mergedEntry_some {key : JsString} {outcome : ItemMergeOutcome Item} {e : JsString × Item} :
    mergedEntry policy key outcome = some e ↔ e.1 = key ∧ outcome.failure = none ∧
      outcome.item = some e.2 ∧ JsNumber.less (JsNumber.ofInt 0) (policy.count e.2) = true := by
  unfold mergedEntry
  constructor
  · intro h
    split at h
    · next hf hi =>
      split at h
      · next hpos =>
        cases h
        exact ⟨rfl, hf, hi, hpos⟩
      · cases h
    · cases h
  · rintro ⟨rfl, hf, hi, hpos⟩
    rw [hf, hi]
    exact if_pos hpos

theorem mergeItemMaps_merged : (mergeItemMaps policy input).merged =
    (unionKeys input.compareKeys input.current input.other).filterMap fun key =>
      mergedEntry policy key (resolveKey policy input key) := by
  simp only [mergeItemMaps, List.filterMap_map]
  rfl

theorem nodup_mergeItemMaps : (Entries.keys (mergeItemMaps policy input).merged).Nodup := by
  rw [mergeItemMaps_merged, keys_filterMap_keyed fun k e h => (mergedEntry_some.1 h).1]
  exact (nodup_unionKeys _ _ _).filter _

variable (policy input) in
/-- The item that a merge keeps for a key. -/
theorem get_mergeItemMaps (key : JsString) (item : Item) :
    (JsMap.ofList (mergeItemMaps policy input).merged).get key = some item ↔
      (resolveKey policy input key).failure = none ∧
        (resolveKey policy input key).item = some item ∧
        JsNumber.less (JsNumber.ofInt 0) (policy.count item) = true := by
  rw [← JsMap.mem_entries, JsMap.ofList_entries nodup_mergeItemMaps, mergeItemMaps_merged,
    List.mem_filterMap]
  constructor
  · rintro ⟨l, -, hl⟩
    obtain ⟨rfl, h⟩ := mergedEntry_some.1 hl
    exact h
  · intro h
    refine ⟨key, ?_, mergedEntry_some.2 ⟨rfl, h⟩⟩
    by_contra hkey
    rw [resolveKey_absent hkey] at h
    cases h.2.1

theorem failures_mergeItemMaps : (mergeItemMaps policy input).failures = [] ↔
    ∀ key, (resolveKey policy input key).failure = none := by
  have heq : (mergeItemMaps policy input).failures =
      (unionKeys input.compareKeys input.current input.other).filterMap fun key =>
        (resolveKey policy input key).failure := by
    simp only [mergeItemMaps, List.filterMap_map]
    rfl
  rw [heq, List.filterMap_eq_nil_iff]
  refine ⟨fun h key => ?_, fun h key _ => h key⟩
  by_cases hkey : key ∈ unionKeys input.compareKeys input.current input.other
  · exact h key hkey
  · rw [resolveKey_absent hkey]

theorem truthUp_mergeItemMaps (h : (mergeItemMaps policy input).failures = []) :
    (mergeItemMaps policy input).truthUpRequired = true ↔
      ∃ key, (resolveKey policy input key).truthUp = true := by
  have hfail := failures_mergeItemMaps.1 h
  simp only [mergeItemMaps, List.any_map, List.any_eq_true, Function.comp_apply, hfail,
    Option.isNone_none, Bool.true_and]
  refine ⟨fun ⟨key, _, h⟩ => ⟨key, h⟩, fun ⟨key, h⟩ => ⟨key, ?_, h⟩⟩
  by_contra hkey
  rw [resolveKey_absent hkey] at h
  cases h

end Musi.LintRatchet
