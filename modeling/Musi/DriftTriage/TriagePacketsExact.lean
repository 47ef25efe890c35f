import Musi.System.Components
import Musi.Js.JsonRoundTrip
import Musi.DriftTriage.TriagePackets

namespace Musi.DriftTriage
open Musi.Js Musi.DriftAi Musi.System Relation
set_option autoImplicit true

variable {N : Type}

/-! ## Components of shared paths -/

def SharesPath (a b : TriageItem N) : Prop :=
  ∃ location ∈ a.locationDetails, ∃ other ∈ b.locationDetails, location.path = other.path

theorem SharesPath.symm {a b : TriageItem N} (h : SharesPath a b) : SharesPath b a := by
  obtain ⟨location, hlocation, other, hother, heq⟩ := h
  exact ⟨other, hother, location, hlocation, heq.symm⟩

theorem mem_itemPaths {item : TriageItem N} {path : JsString} :
    path ∈ itemPaths item ↔ ∃ location ∈ item.locationDetails, location.path = path := by
  rw [itemPaths, List.mem_eraseDups, List.mem_map]

theorem sharesPath_iff {a b : TriageItem N} :
    SharesPath a b ↔ ∃ path, path ∈ itemPaths a ∧ path ∈ itemPaths b := by
  constructor
  · rintro ⟨location, hlocation, other, hother, heq⟩
    exact ⟨_, mem_itemPaths.2 ⟨location, hlocation, heq⟩, mem_itemPaths.2 ⟨other, hother, rfl⟩⟩
  · rintro ⟨path, ha, hb⟩
    obtain ⟨location, hlocation, rfl⟩ := mem_itemPaths.1 ha
    obtain ⟨other, hother, heq⟩ := mem_itemPaths.1 hb
    exact ⟨location, hlocation, other, hother, heq.symm⟩

/-- A component under growth: the items are in it, left, or skipped so far. -/
structure Growing (items : List (TriageItem N)) (first : TriageItem N)
    (component remaining skipped : List (TriageItem N)) (paths : List JsString) : Prop where
  start : first ∈ component
  perm : (component ++ (remaining ++ skipped)).Perm items
  chained : ∀ a ∈ component, Chained SharesPath items first a
  covers : ∀ path, path ∈ paths ↔ ∃ a ∈ component, path ∈ itemPaths a

variable {items : List (TriageItem N)} {first : TriageItem N}

theorem Growing.absorb {component skipped : List (TriageItem N)} {paths : List JsString}
    {candidate : TriageItem N} (h : Growing items first component [] (candidate :: skipped) paths)
    (hcandidate : (itemPaths candidate).any (· ∈ paths) = true) :
    Growing items first (component ++ [candidate]) [] skipped (paths ++ itemPaths candidate) where
  start := List.mem_append_left _ h.start
  perm := by
    rw [List.append_assoc]
    exact h.perm
  chained a ha := by
    rcases List.mem_append.1 ha with ha | ha
    · exact h.chained a ha
    · rw [List.mem_singleton.1 ha]
      obtain ⟨path, hpath, hknown⟩ := List.any_eq_true.1 hcandidate
      obtain ⟨b, hb, hbpath⟩ := (h.covers path).1 (of_decide_eq_true hknown)
      have hmem : candidate ∈ items :=
        h.perm.mem_iff.1 (List.mem_append_right _ List.mem_cons_self)
      exact (h.chained b hb).tail ⟨hmem, sharesPath_iff.2 ⟨path, hbpath, hpath⟩⟩
  covers path := by
    rw [List.mem_append, h.covers]
    constructor
    · rintro (⟨a, ha, hpath⟩ | hpath)
      · exact ⟨a, List.mem_append_left _ ha, hpath⟩
      · exact ⟨candidate, List.mem_append_right _ (List.mem_singleton_self _), hpath⟩
    · rintro ⟨a, ha, hpath⟩
      rcases List.mem_append.1 ha with ha | ha
      · exact .inl ⟨a, ha, hpath⟩
      · exact .inr (List.mem_singleton.1 ha ▸ hpath)

/-- What was skipped is left. -/
theorem Growing.move {component remaining skipped remaining' skipped' : List (TriageItem N)}
    {paths : List JsString} (h : Growing items first component remaining skipped paths)
    (hperm : (remaining' ++ skipped').Perm (remaining ++ skipped)) :
    Growing items first component remaining' skipped' paths :=
  ⟨h.start, (hperm.append_left component).trans h.perm, h.chained, h.covers⟩

theorem absorbConnected_growing {component remaining skipped : List (TriageItem N)}
    {paths : List JsString} (h : Growing items first component remaining skipped paths) :
    let state := absorbConnected remaining component paths
    Growing items first state.component state.remaining skipped state.paths := by
  induction remaining generalizing skipped with
  | nil => exact h
  | cons candidate remaining ih =>
    have hmoved : Growing items first component remaining (candidate :: skipped) paths :=
      h.move List.perm_middle
    have hstate := ih hmoved
    rw [absorbConnected_cons]
    generalize absorbConnected remaining component paths = state at hstate ⊢
    simp only
    split
    · next hcandidate =>
      have hswap : ([] ++ candidate :: (state.remaining ++ skipped)).Perm
          (state.remaining ++ candidate :: skipped) := List.perm_middle.symm
      exact (((hstate.move hswap).absorb hcandidate).move (.refl _))
    · exact hstate.move List.perm_middle.symm

/-- A pass that finds nothing leaves no connection. -/
theorem absorbConnected_still {remaining component : List (TriageItem N)} {paths : List JsString}
    (h : (absorbConnected remaining component paths).found = false) :
    absorbConnected remaining component paths = ⟨remaining, component, paths, false⟩ ∧
      ∀ candidate ∈ remaining, ∀ path ∈ itemPaths candidate, path ∉ paths := by
  induction remaining with
  | nil => exact ⟨rfl, fun _ hc => (List.not_mem_nil hc).elim⟩
  | cons candidate remaining ih =>
    rw [absorbConnected_cons] at h ⊢
    simp only at h ⊢
    split at h
    · cases h
    · next hcandidate =>
      obtain ⟨hstate, hnone⟩ := ih h
      rw [hstate] at hcandidate ⊢
      rw [if_neg hcandidate]
      refine ⟨rfl, fun c hc path hpath hknown => ?_⟩
      rcases List.mem_cons.1 hc with rfl | hc
      · exact hcandidate (List.any_eq_true.2 ⟨path, hpath, decide_eq_true hknown⟩)
      · exact hnone c hc path hpath hknown

theorem growComponent_spec {remaining component : List (TriageItem N)} {paths : List JsString}
    (h : Growing items first component remaining [] paths) :
    let grown := growComponent remaining component paths
    (∃ paths', Growing items first grown.1 grown.2 [] paths') ∧
      ∀ a ∈ grown.1, ∀ b ∈ grown.2, ¬ SharesPath a b := by
  induction remaining, component, paths using growComponent.induct with
  | case1 remaining component paths state hfound ih =>
    rw [growComponent, if_pos hfound]
    exact ih (absorbConnected_growing h)
  | case2 remaining component paths state hfound =>
    obtain ⟨hstill, hnone⟩ := absorbConnected_still (eq_false_of_ne_true hfound)
    rw [growComponent, if_neg hfound, hstill]
    refine ⟨⟨paths, h⟩, fun a ha b hb hshares => ?_⟩
    obtain ⟨path, hpath, hpath'⟩ := sharesPath_iff.1 hshares
    exact hnone b hb path hpath' ((h.covers path).2 ⟨a, ha, hpath⟩)

theorem connectedComponents_classes (items : List (TriageItem N)) :
    Classes SharesPath items (connectedComponents items) := by
  induction items using connectedComponents.induct with
  | case1 =>
    rw [connectedComponents]
    exact ⟨.refl _, fun _ hc => (List.not_mem_nil hc).elim, fun _ hc => (List.not_mem_nil hc).elim,
      .nil⟩
  | case2 first remaining grown ih =>
    have hstart : Growing (first :: remaining) first [first] remaining [] (itemPaths first) := by
      refine ⟨List.mem_singleton_self _, ?_, fun a ha => ?_, fun path => ?_⟩
      · rw [List.append_nil]
        exact .refl _
      · cases List.mem_singleton.1 ha
        exact .refl
      · simp only [List.mem_singleton, exists_eq_left]
    obtain ⟨⟨paths, hgrown⟩, hapart⟩ := growComponent_spec hstart
    have hperm := hgrown.perm
    rw [List.append_nil] at hperm
    have hfirst : first ∈ first :: remaining := List.mem_cons_self
    rw [connectedComponents]
    refine ⟨?_, fun c hc => ?_, fun c hc a ha b hb => ?_, ?_⟩
    · rw [List.flatten_cons]
      exact (ih.perm.append_left _).trans hperm
    · rcases List.mem_cons.1 hc with rfl | hc
      · exact List.ne_nil_of_mem hgrown.start
      · exact ih.inhabited c hc
    · rcases List.mem_cons.1 hc with rfl | hc
      · have hback := (hgrown.chained a ha).symm (fun _ _ => SharesPath.symm) hfirst
        exact hback.trans (hgrown.chained b hb)
      · refine Chained.mono (fun _ d hd hshares => ⟨?_, hshares⟩) (ih.inside c hc a ha b hb)
        exact hperm.mem_iff.1 (List.mem_append_right _ hd)
    · refine List.pairwise_cons.2 ⟨fun c hc a ha b hb => hapart a ha b ?_, ih.apart⟩
      exact ih.perm.mem_iff.1 (List.mem_flatten.2 ⟨c, hc, hb⟩)

/-! ## Packing -/

theorem splitChunks_spec {whole : List (TriageItem N)} {baseSize largerChunks chunks chunk offset : Nat}
    (hlarger : largerChunks - chunk ≤ chunks)
    (hlength : offset + baseSize * chunks + (largerChunks - chunk) = whole.length) :
    let parts := splitChunks whole baseSize largerChunks chunks chunk offset
    parts.flatten = whole.drop offset ∧ parts.length = chunks ∧
      ∀ part ∈ parts, part.length = baseSize ∨
        part.length = baseSize + 1 ∧ 0 < largerChunks - chunk := by
  induction chunks generalizing chunk offset with
  | zero =>
    rw [Nat.le_zero.1 hlarger] at hlength
    refine ⟨?_, rfl, fun _ hpart => (List.not_mem_nil hpart).elim⟩
    rw [List.drop_of_length_le (by omega)]
    rfl
  | succ chunks ih =>
    obtain ⟨size, hsize⟩ : ∃ size, baseSize + (if chunk < largerChunks then 1 else 0) = size :=
      ⟨_, rfl⟩
    have hmul : baseSize * (chunks + 1) = baseSize * chunks + baseSize := Nat.mul_succ _ _
    have hrest : largerChunks - (chunk + 1) ≤ chunks ∧
        offset + size + baseSize * chunks + (largerChunks - (chunk + 1)) = whole.length := by
      split at hsize
      · omega
      · omega
    obtain ⟨hflatten, hcount, hsizes⟩ := ih hrest.1 hrest.2
    rw [splitChunks]
    simp only [hsize]
    refine ⟨?_, ?_, fun part hpart => ?_⟩
    · rw [List.flatten_cons, hflatten, ← List.drop_drop, List.take_append_drop]
    · rw [List.length_cons, hcount]
    · rcases List.mem_cons.1 hpart with rfl | hpart
      · have hfits : size ≤ (whole.drop offset).length := by
          rw [List.length_drop]
          omega
        rw [List.length_take_of_le hfits, ← hsize]
        split
        · next hchunk => exact .inr ⟨rfl, by omega⟩
        · exact .inl rfl
      · rcases hsizes part hpart with heq | ⟨heq, hpos⟩
        · exact .inl heq
        · exact .inr ⟨heq, by omega⟩

theorem ceilDiv_spec {length size : Nat} (hsize : 0 < size) (n : Nat) :
    length ≤ n * size ↔ ceilDiv length size ≤ n := by
  rw [ceilDiv, Nat.div_le_iff_le_mul hsize]
  omega

theorem splitChunks_cut {whole : List (TriageItem N)} {size : Nat} (hsize : 0 < size)
    (hlarge : size < whole.length) :
    let chunkCount := ceilDiv whole.length size
    Cut size whole (splitChunks whole (whole.length / chunkCount) (whole.length % chunkCount)
      chunkCount 0 0) := by
  intro chunkCount
  have hfew : whole.length ≤ chunkCount * size := (ceilDiv_spec hsize _).2 (Nat.le_refl _)
  have hmany : chunkCount ≤ whole.length :=
    (ceilDiv_spec hsize _).1 (Nat.le_mul_of_pos_right _ hsize)
  have hpos : 0 < chunkCount := by
    rcases Nat.eq_zero_or_pos chunkCount with hzero | hpos
    · rw [hzero, Nat.zero_mul] at hfew
      omega
    · exact hpos
  obtain ⟨baseSize, hbase⟩ : ∃ baseSize, whole.length / chunkCount = baseSize := ⟨_, rfl⟩
  obtain ⟨largerChunks, hlarger⟩ : ∃ largerChunks, whole.length % chunkCount = largerChunks :=
    ⟨_, rfl⟩
  have hdivided : baseSize * chunkCount + largerChunks = whole.length := by
    rw [← hbase, ← hlarger, Nat.mul_comm]
    exact Nat.div_add_mod _ _
  have hrest : largerChunks < chunkCount := hlarger ▸ Nat.mod_lt _ hpos
  rw [hbase, hlarger]
  have hlength : 0 + baseSize * chunkCount + (largerChunks - 0) = whole.length := by omega
  obtain ⟨hflatten, hcount, hsizes⟩ := splitChunks_spec (Nat.le_of_lt hrest) hlength
  have hbasePos : 1 ≤ baseSize := by
    rw [← hbase]
    exact Nat.div_pos hmany hpos
  refine ⟨hflatten, fun part hpart => ?_, fun n hn => ?_, fun part hpart other hother => ?_⟩
  · rcases hsizes part hpart with heq | ⟨heq, hlargerPos⟩
    · refine ⟨heq ▸ hbasePos, heq ▸ ?_⟩
      by_contra hover
      have hmul := Nat.mul_le_mul_right chunkCount (Nat.succ_le_of_lt (Nat.lt_of_not_le hover))
      rw [Nat.succ_mul, Nat.mul_comm size] at hmul
      omega
    · refine ⟨by omega, heq ▸ ?_⟩
      by_contra hover
      have hmul := Nat.mul_le_mul_right chunkCount (Nat.le_of_lt_succ (Nat.lt_of_not_le hover))
      rw [Nat.mul_comm size] at hmul
      omega
  · rw [hcount]
    exact (ceilDiv_spec hsize n).1 hn
  · have hpartSize := hsizes part hpart
    have hotherSize := hsizes other hother
    omega

/-- The items of a group, and whether it is part of a component that was split. -/
def PacketItemGroup.view (group : PacketItemGroup N) : List (TriageItem N) × Bool :=
  (group.items, group.splitPathComponent)

/-- The components so far: closed in groups of the lane, or pending. -/
structure Filled (lane : CoreLane) (size : Nat) (components : List (List (TriageItem N)))
    (packing : Packing N) : Prop where
  packed : ∃ closed pending, components = closed ++ pending ∧
    Packed size closed (packing.groups.map PacketItemGroup.view) ∧
    pending.flatten = packing.pending
  fits : packing.pending.length ≤ size
  lanes : ∀ group ∈ packing.groups, group.lane.toCoreLane = lane

variable {lane : CoreLane} {size : Nat} {components : List (List (TriageItem N))}
  {packing : Packing N}

theorem flush_filled (hne : ∀ c ∈ components, c ≠ []) (h : Filled lane size components packing) :
    Filled lane size components (flush lane packing) ∧ (flush lane packing).pending = [] := by
  by_cases hpending : packing.pending = []
  · rw [flush, if_pos hpending]
    exact ⟨h, hpending⟩
  · rw [flush, if_neg hpending]
    obtain ⟨closed, pending, rfl, hpacked, hflatten⟩ := h.packed
    have hfits : (Block.fitted pending).Fits size := ⟨hflatten ▸ hpending, hflatten ▸ h.fits⟩
    refine ⟨⟨⟨closed ++ pending, [], (List.append_nil _).symm, ?_, rfl⟩, Nat.zero_le _, ?_⟩, rfl⟩
    · have hview : (toGroup lane packing.pending false).view = (pending.flatten, false) := by
        rw [hflatten]
        rfl
      rw [List.map_append, List.map_singleton, hview]
      exact hpacked.append (Packed.single hfits)
    · intro group hgroup
      rcases List.mem_append.1 hgroup with hgroup | hgroup
      · exact h.lanes group hgroup
      · cases List.mem_singleton.1 hgroup
        rfl

/-- Once flushed, every component is closed. -/
theorem Filled.closed (hne : ∀ c ∈ components, c ≠ []) (h : Filled lane size components packing)
    (hpending : packing.pending = []) :
    Packed size components (packing.groups.map PacketItemGroup.view) := by
  obtain ⟨closed, pending, rfl, hpacked, hflatten⟩ := h.packed
  have hnil : pending = [] := by
    cases pending with
    | nil => rfl
    | cons c pending =>
      rw [hpending, List.flatten_cons, List.append_eq_nil_iff] at hflatten
      exact absurd hflatten.1 (hne c (List.mem_append_right _ List.mem_cons_self))
  rw [hnil, List.append_nil]
  exact hpacked

theorem packComponent_filled (hsize : 0 < size) {component : List (TriageItem N)}
    (hne : ∀ c ∈ components, c ≠ []) (h : Filled lane size components packing)
    (hcomponent : component ≠ []) :
    Filled lane size (components ++ [component]) (packComponent lane size packing component) := by
  obtain ⟨hflushed, hempty⟩ := flush_filled hne h
  rw [packComponent]
  split
  · next hlarge =>
    obtain ⟨parts, hcut, hviews⟩ : ∃ parts, Cut size component parts ∧
        (splitComponent lane component size).map PacketItemGroup.view =
          (Block.divided component parts).groups := by
      refine ⟨_, splitChunks_cut hsize hlarge, ?_⟩
      rw [splitComponent, List.map_map]
      rfl
    have hfits : (Block.divided component parts).Fits size := ⟨hlarge, hcut⟩
    refine ⟨⟨components ++ [component], [], (List.append_nil _).symm, ?_, hempty.symm⟩, ?_, ?_⟩
    · rw [List.map_append, hviews]
      exact (hflushed.closed hne hempty).append (Packed.single hfits)
    · rw [hempty]
      exact Nat.zero_le _
    · intro group hgroup
      rcases List.mem_append.1 hgroup with hgroup | hgroup
      · exact hflushed.lanes group hgroup
      · obtain ⟨chunk, -, rfl⟩ := List.mem_map.1 hgroup
        rfl
  · next hsmall =>
    -- The component is put beside what is pending, or beside nothing.
    obtain ⟨fitting, hfitting⟩ : ∃ fitting, (if packing.pending.length + component.length > size
      then flush lane packing else packing) = fitting := ⟨_, rfl⟩
    have hfilled : Filled lane size components fitting ∧
        fitting.pending.length + component.length ≤ size := by
      split at hfitting
      · rw [← hfitting, hempty]
        exact ⟨hflushed, by rw [List.length_nil]; omega⟩
      · rw [← hfitting]
        exact ⟨h, by omega⟩
    have hadded : Filled lane size (components ++ [component])
        { fitting with pending := fitting.pending ++ component } := by
      obtain ⟨closed, pending, hsplit, hpacked, hflatten⟩ := hfilled.1.packed
      refine ⟨⟨closed, pending ++ [component], ?_, hpacked, ?_⟩, ?_, hfilled.1.lanes⟩
      · rw [hsplit, List.append_assoc]
      · rw [List.flatten_append, hflatten, List.flatten_singleton]
      · rw [List.length_append]
        exact hfilled.2
    have hneAdded : ∀ c ∈ components ++ [component], c ≠ [] := by
      intro c hc
      rcases List.mem_append.1 hc with hc | hc
      · exact hne c hc
      · rw [List.mem_singleton.1 hc]
        exact hcomponent
    simp only [hfitting]
    split
    · exact (flush_filled hneAdded hadded).1
    · exact hadded

theorem packComponents_packed (hsize : 0 < size) (hne : ∀ c ∈ components, c ≠ []) :
    Packed size components ((packComponents lane components size).map PacketItemGroup.view) ∧
      ∀ group ∈ packComponents lane components size, group.lane.toCoreLane = lane := by
  have hfilled : Filled lane size components
      (components.foldl (packComponent lane size) ⟨[], []⟩) := by
    induction components using List.reverseRecOn with
    | nil =>
      exact ⟨⟨[], [], rfl, Packed.nil, rfl⟩, Nat.zero_le _, fun _ hg => (List.not_mem_nil hg).elim⟩
    | append_singleton components component ih =>
      rw [List.foldl_concat]
      have hbefore : ∀ c ∈ components, c ≠ [] := fun c hc => hne c (List.mem_append_left _ hc)
      exact packComponent_filled hsize hbefore (ih hbefore)
        (hne _ (List.mem_append_right _ (List.mem_singleton_self _)))
  obtain ⟨hflushed, hempty⟩ := flush_filled hne hfilled
  exact ⟨hflushed.closed hne hempty, hflushed.lanes⟩

/-! ## Lanes -/

theorem TriagePriority.text_injective {a b : TriagePriority} (h : a.text = b.text) : a = b := by
  cases a <;> cases b <;> first | rfl | (revert h; decide)

theorem TriageCategory.text_injective {a b : TriageCategory} (h : a.text = b.text) : a = b := by
  cases a <;> cases b <;> first | rfl | (revert h; decide)

theorem LaneSource.text_injective {a b : LaneSource} (h : a.text = b.text) : a = b := by
  cases a <;> cases b <;> first | rfl | (revert h; decide)

section
variable [JsNumber N]

theorem laneKey_eq {a b : TriageItem N} :
    laneKey a = laneKey b ↔ coreLaneForItem a = coreLaneForItem b := by
  constructor
  · intro h
    have hcanonical (lane : CoreLane) : Canonical (N := N) lane.toJson := by
      have hkeys : Entries.keys [(js "priority", Json.str (N := N) lane.priority.text),
          (js "category", .str lane.category.text), (js "source", .str lane.source.text)] =
            [js "priority", js "category", js "source"] := rfl
      refine .obj ?_ (ownKeyOrder_of_names ?_) ?_
      · rw [hkeys]
        decide
      · rw [hkeys]
        decide
      · intro e he
        simp only [List.mem_cons, List.not_mem_nil, or_false] at he
        rcases he with rfl | rfl | rfl
        · exact .str _
        · exact .str _
        · exact .str _
    have hjson := stringify_injective (hcanonical _) (hcanonical _) h
    generalize coreLaneForItem a = lane at hjson
    generalize coreLaneForItem b = lane' at hjson
    simp only [CoreLane.toJson, Json.obj.injEq, List.cons.injEq, Prod.mk.injEq, Json.str.injEq,
      true_and, and_true] at hjson
    obtain ⟨priority, category, source⟩ := lane
    obtain ⟨priority', category', source'⟩ := lane'
    rw [CoreLane.mk.injEq]
    exact ⟨TriagePriority.text_injective hjson.1, TriageCategory.text_injective hjson.2.1,
      LaneSource.text_injective hjson.2.2⟩
  · intro h
    rw [laneKey, laneKey, h]

variable (items)

/-- The lanes in the order of their first items. -/
def laneEntries : List (JsString × LaneItems N) :=
  (groupFold laneKey addToLane JsMap.empty items).entries

variable {items}

omit [JsNumber N] in
theorem foldl_addToLane {lane : CoreLane} (before later : List (TriageItem N)) :
    later.foldl (fun existing item => some (addToLane existing item)) (some ⟨lane, before⟩) =
      some ⟨lane, before ++ later⟩ := by
  induction later generalizing before with
  | nil => rw [List.append_nil]; rfl
  | cons item later ih =>
    rw [List.foldl_cons, addToLane, ih, List.append_assoc, List.singleton_append]

theorem mem_laneEntries {entry : JsString × LaneItems N} (h : entry ∈ laneEntries items) :
    entry.2.items = items.filter (fun item => laneKey item = entry.1) ∧
      ∀ item ∈ entry.2.items, coreLaneForItem item = entry.2.lane := by
  rw [laneEntries, JsMap.mem_entries (k := entry.1) (v := entry.2), get_groupFold,
    JsMap.get_empty] at h
  cases hlane : items.filter fun item => laneKey item = entry.1 with
  | nil =>
    rw [hlane] at h
    cases h
  | cons first later =>
    rw [hlane, List.foldl_cons, addToLane, foldl_addToLane] at h
    have hentry := (Option.some.inj h).symm
    rw [hentry]
    refine ⟨rfl, fun item hitem => ?_⟩
    have hkey {item : TriageItem N} (hitem : item ∈ first :: later) : laneKey item = entry.1 := by
      rw [← hlane, List.mem_filter] at hitem
      exact of_decide_eq_true hitem.2
    exact laneKey_eq.1 ((hkey hitem).trans (hkey List.mem_cons_self).symm)

theorem mem_keys_laneEntries {item : TriageItem N} (h : item ∈ items) :
    laneKey item ∈ Entries.keys (laneEntries items) := by
  change laneKey item ∈ (groupFold laneKey addToLane JsMap.empty items).keys
  rw [JsMap.mem_keys, get_groupFold, JsMap.get_empty]
  cases hlane : items.filter fun other => laneKey other = laneKey item with
  | nil =>
    have hmem : item ∈ items.filter fun other => laneKey other = laneKey item :=
      List.mem_filter.2 ⟨h, decide_eq_true rfl⟩
    rw [hlane] at hmem
    cases hmem
  | cons first later => exact ⟨_, foldl_addToLane [first] later⟩

theorem laneEntries_perm :
    ((laneEntries items).flatMap fun entry => entry.2.items).Perm items := by
  have hitems : ((laneEntries items).flatMap fun entry => entry.2.items) =
      (Entries.keys (laneEntries items)).flatMap fun key =>
        items.filter fun item => laneKey item = key := by
    rw [Entries.keys, List.flatMap_map]
    exact List.flatMap_congr fun entry hentry => (mem_laneEntries hentry).1
  have hall : (items.filter fun item => (Entries.keys (laneEntries items)).any fun key =>
      decide (laneKey item = key)) = items := by
    refine List.filter_eq_self.2 fun item hitem => ?_
    exact List.any_eq_true.2 ⟨_, mem_keys_laneEntries hitem, decide_eq_true rfl⟩
  have hkeys : (Entries.keys (laneEntries items)).Nodup := JsMap.nodup_keys _
  have hperm := perm_flatMap_filter hkeys
    (fun key item => decide (laneKey item = key)) (fun item key key' hkey hkey' =>
      (of_decide_eq_true hkey).symm.trans (of_decide_eq_true hkey')) items
  rw [hitems]
  rw [hall] at hperm
  exact hperm.symm

/-- Two items of one lane with a path in common. -/
def Linked (a b : TriageItem N) : Prop := coreLaneForItem a = coreLaneForItem b ∧ SharesPath a b

theorem laneEntries_classes : Classes Linked items
    ((laneEntries items).flatMap fun entry => connectedComponents entry.2.items) := by
  refine Classes.flatMap (fun entry hentry => ?_) laneEntries_perm ?_
  · refine (connectedComponents_classes entry.2.items).congr fun a ha b hb => ?_
    have hlane := (mem_laneEntries hentry).2
    exact (and_iff_right ((hlane a ha).trans (hlane b hb).symm)).symm
  · have hkeys : (laneEntries items).Pairwise fun entry other => entry.1 ≠ other.1 :=
      List.pairwise_map.1 (JsMap.nodup_keys (groupFold laneKey addToLane JsMap.empty items))
    refine hkeys.imp_of_mem fun hentry hother hne a ha b hb hlinked => ?_
    rw [(mem_laneEntries hentry).1, List.mem_filter, decide_eq_true_eq] at ha
    rw [(mem_laneEntries hother).1, List.mem_filter, decide_eq_true_eq] at hb
    exact hne (ha.2.symm.trans ((laneKey_eq.2 hlinked.1).trans hb.2))

theorem groupPacketItems_packed {size : Nat} (hsize : 0 < size) :
    Packed size ((laneEntries items).flatMap fun entry => connectedComponents entry.2.items)
        ((groupPacketItems items size).map PacketItemGroup.view) := by
  have hgroups : groupPacketItems items size = (laneEntries items).flatMap fun entry =>
      packComponents entry.2.lane (connectedComponents entry.2.items) size := rfl
  rw [hgroups, List.map_flatMap]
  refine Packed.flatMap fun entry _ => ?_
  exact (packComponents_packed hsize (connectedComponents_classes _).inhabited).1

theorem groupPacketItems_lane {size : Nat} (hsize : 0 < size) {group : PacketItemGroup N}
    (hgroup : group ∈ groupPacketItems items size) {item : TriageItem N}
    (hitem : item ∈ group.items) : coreLaneForItem item = group.lane.toCoreLane := by
  obtain ⟨entry, hentry, hgroup⟩ := List.mem_flatMap.1 hgroup
  have hclasses := connectedComponents_classes entry.2.items
  obtain ⟨hpacked, hlanes⟩ := @packComponents_packed _ entry.2.lane _ _ hsize hclasses.inhabited
  have hperm := Packed.perm hpacked
  rw [hlanes group hgroup]
  refine (mem_laneEntries hentry).2 item (hclasses.perm.mem_iff.1 (hperm.mem_iff.1 ?_))
  exact List.mem_flatMap.2 ⟨_, List.mem_map_of_mem hgroup, hitem⟩

end

/-! ## Selected items -/

/-- A filter that is missing or empty lets everything through. -/
def Passes {V : Type} (filter : Option (List V)) (holds : V → Prop) : Prop :=
  filter.getD [] = [] ∨ ∃ value ∈ filter.getD [], holds value

structure Selects (filters : Option PartialFilters) (item : TriageItem N) : Prop where
  priority : Passes (filters.bind PartialFilters.priorities) fun priority => item.priority = priority
  category : Passes (filters.bind PartialFilters.categories) fun category => item.category = category
  source : Passes (filters.bind PartialFilters.sources) fun source =>
    ∃ evidence ∈ item.evidence, evidence.source = source
  path : Passes (filters.bind PartialFilters.pathPrefixes) fun start =>
    ∃ location ∈ item.locationDetails, start <+: location.path

section
variable [DriftAi.Locale]

theorem mem_uniqueSorted {V : Type} [DecidableEq V] {text : V → JsString} {values : List V} {v : V} :
    v ∈ uniqueSorted text values ↔ v ∈ values := by
  rw [uniqueSorted, mem_sortBy, List.mem_eraseDups]

theorem passes_iff {V : Type} [DecidableEq V] {text : V → JsString} {filter : Option (List V)}
    {holds : V → Prop} : Passes filter holds ↔
      ¬ (uniqueSorted text (filter.getD []) ≠ [] ∧
        ¬ ∃ value ∈ uniqueSorted text (filter.getD []), holds value) := by
  have hnil : uniqueSorted text (filter.getD []) = [] ↔ filter.getD [] = [] := by
    simp only [List.eq_nil_iff_forall_not_mem, mem_uniqueSorted]
  rw [Passes, not_and_or, not_not, not_not, hnil]
  simp only [mem_uniqueSorted]

theorem matchesAllFilters_iff {filters : Option PartialFilters} {item : TriageItem N} :
    matchesAllFilters (normalizeFilters filters) item = true ↔ Selects filters item := by
  have hempty {p : Prop} [Decidable p] {failure : JsString} :
      (if p then [failure] else []) = [] ↔ ¬ p := by
    by_cases hp : p
    · rw [if_pos hp]
      exact iff_of_false (List.cons_ne_nil _ _) (not_not.2 hp)
    · rw [if_neg hp]
      exact iff_of_true rfl hp
  have hsource (sources : List JsString) : matchesSource item sources = false ↔
      ¬ ∃ source ∈ sources, ∃ evidence ∈ item.evidence, evidence.source = source := by
    rw [← Bool.not_eq_true, matchesSource, List.any_eq_true]
    simp only [decide_eq_true_eq]
    refine not_congr ⟨?_, ?_⟩
    · rintro ⟨evidence, hevidence, hmem⟩
      exact ⟨_, hmem, evidence, hevidence, rfl⟩
    · rintro ⟨source, hmem, evidence, hevidence, rfl⟩
      exact ⟨evidence, hevidence, hmem⟩
  have hpath (prefixes : List JsString) : matchesPathPrefix item prefixes = false ↔
      ¬ ∃ start ∈ prefixes, ∃ location ∈ item.locationDetails, start <+: location.path := by
    rw [← Bool.not_eq_true, matchesPathPrefix, List.any_eq_true]
    simp only [List.any_eq_true, startsWith, List.isPrefixOf_iff_prefix]
    refine not_congr ⟨?_, ?_⟩
    · rintro ⟨location, hlocation, start, hstart, hpre⟩
      exact ⟨start, hstart, location, hlocation, hpre⟩
    · rintro ⟨start, hstart, location, hlocation, hpre⟩
      exact ⟨location, hlocation, start, hstart, hpre⟩
  have hmem {V : Type} {v : V} {values : List V} : v ∉ values ↔ ¬ ∃ value ∈ values, v = value :=
    not_congr exists_eq_right'.symm
  rw [matchesAllFilters, decide_eq_true_eq, filterFailures]
  simp only [List.append_eq_nil_iff, hempty, hsource, hpath, hmem]
  constructor
  · rintro ⟨⟨⟨hpriority, hcategory⟩, hsources⟩, hprefixes⟩
    exact ⟨passes_iff.2 hpriority, passes_iff.2 hcategory, passes_iff.2 hsources,
      passes_iff.2 hprefixes⟩
  · rintro ⟨hpriority, hcategory, hsources, hprefixes⟩
    exact ⟨⟨⟨passes_iff.1 hpriority, passes_iff.1 hcategory⟩, passes_iff.1 hsources⟩,
      passes_iff.1 hprefixes⟩

end

/-! ## The packets partition the work -/

/-- Packets of the selected items: every item once, in one lane a packet, and what shares paths
together as far as the size allows. -/
structure PartitionedWork (selected : List (TriageItem N)) (size : Nat)
    (packets : List (TriagePacket N)) : Prop where
  arranged : Arranged Linked size selected TriagePacket.items TriagePacket.splitPathComponent packets
  itemIds : ∀ packet ∈ packets, packet.itemIds = packet.items.map TriageItem.id
  distinct : (packets.flatMap TriagePacket.itemIds).Nodup
  lane : ∀ packet ∈ packets, ∀ item ∈ packet.items, item.priority = packet.lane.priority ∧
    item.category = packet.lane.category ∧ sourceFamily item = packet.lane.source

theorem validatePacketSize_pos [JsNumber N] {packetSize : N} {size : Int}
    (hsize : JsNumber.toInt? packetSize = some size) (hpos : 1 ≤ size) :
    validatePacketSize packetSize = .ok size.toNat := by
  rw [validatePacketSize, hsize]
  simp only [if_neg (show ¬ size ≤ 0 by omega)]
  rfl

theorem buildTriagePackets_partition [JsNumber N] [DriftAi.Locale] (sha256 : TriagePacket N → JsString)
    (report : TriageReport N) (options : TriagePacketOptions N) (provenance : TriagePacketProvenance)
    (hids : (report.items.map TriageItem.id).Nodup) {size : Int}
    (hsize : JsNumber.toInt? (options.packetSize.getD (JsNumber.ofInt 20)) = some size)
    (hpos : 1 ≤ size) :
    ∃ bundle selected, buildTriagePackets sha256 report options provenance = .ok bundle ∧
      selected.Sublist report.items ∧
      (∀ item, item ∈ selected ↔ item ∈ report.items ∧ Selects options.filters item) ∧
      PartitionedWork selected size.toNat bundle.packets := by
  obtain ⟨selected, hselected⟩ : ∃ selected, (selectTriageItems report options).items = selected :=
    ⟨_, rfl⟩
  obtain ⟨packets, hpackets⟩ : ∃ packets, ((groupPacketItems selected size.toNat).zipIdx.map
      fun entry => buildPacket report provenance options.readSourceFile entry.1 entry.2) = packets :=
    ⟨_, rfl⟩
  have hsublist : selected.Sublist report.items := hselected ▸ List.filter_sublist
  have hpositive : 0 < size.toNat := by omega
  -- A packet has the items of the group at its place.
  have hviews : packets.map (fun packet => (packet.items, packet.splitPathComponent)) =
      (groupPacketItems selected size.toNat).map PacketItemGroup.view := by
    rw [← hpackets, List.map_map]
    exact (List.map_map (f := Prod.fst) (g := PacketItemGroup.view)).symm.trans
      (congrArg _ (List.zipIdx_map_fst _ _))
  have hgroup {packet : TriagePacket N} (hpacket : packet ∈ packets) :
      ∃ group ∈ groupPacketItems selected size.toNat, ∃ index,
        packet = buildPacket report provenance options.readSourceFile group index := by
    rw [← hpackets] at hpacket
    obtain ⟨entry, hentry, rfl⟩ := List.mem_map.1 hpacket
    exact ⟨entry.1, List.fst_mem_of_mem_zipIdx hentry, entry.2, rfl⟩
  have harranged : Arranged Linked size.toNat selected TriagePacket.items
      TriagePacket.splitPathComponent packets := by
    have hpacked := @groupPacketItems_packed _ selected _ _ hpositive
    rw [← hviews] at hpacked
    exact hpacked.arranged laneEntries_classes (fun _ _ h => ⟨h.1.symm, h.2.symm⟩)
      ((List.Nodup.of_map _ hids).sublist hsublist)
  have hitemIds : ∀ packet ∈ packets, packet.itemIds = packet.items.map TriageItem.id := by
    intro packet hpacket
    obtain ⟨group, -, index, rfl⟩ := hgroup hpacket
    rfl
  refine ⟨⟨⟨provenance, options.packetSize.getD (JsNumber.ofInt 20),
    (selectTriageItems report options).filters, (selectTriageItems report options).selection,
    packets.map (manifestEntry sha256)⟩, packets⟩, selected, ?_, hsublist, fun item => ?_, harranged,
    hitemIds, ?_, ?_⟩
  · rw [buildTriagePackets, validatePacketSize_pos hsize hpos]
    simp only [hselected]
    change Except.ok _ = _
    rw [hpackets]
  · rw [← hselected, ← matchesAllFilters_iff]
    exact List.mem_filter
  · have hids' : packets.flatMap TriagePacket.itemIds =
        (packets.flatMap TriagePacket.items).map TriageItem.id := by
      rw [List.map_flatMap]
      exact List.flatMap_congr hitemIds
    change (packets.flatMap TriagePacket.itemIds).Nodup
    rw [hids']
    exact (harranged.perm.map TriageItem.id).nodup_iff.2 (hids.sublist (hsublist.map _))
  · intro packet hpacket item hitem
    obtain ⟨group, hmem, index, rfl⟩ := hgroup hpacket
    have hlane := groupPacketItems_lane hpositive hmem hitem
    exact ⟨congrArg CoreLane.priority hlane, congrArg CoreLane.category hlane,
      congrArg CoreLane.source hlane⟩

/-- Two clones that share a path. -/
def sharedClones : TriageReport Numeral where
  policy := ⟨false, false, JsNumber.ofInt 20⟩
  summary := ⟨2, 2, 2, 0, 0, 0, 0⟩
  inputs := []
  deferred := []
  items := [js "a", js "b"].map fun id => ⟨id, .review, .clone, id, [], [⟨js "src/a.ts", none, none, none,
    none⟩, ⟨id, none, none, none, none⟩], [⟨js "drift.json", js "dolos", JsNumber.ofInt 1, none, none⟩]⟩

theorem buildTriagePackets_partition_shared : ∃ bundle selected,
    buildTriagePackets (fun _ => []) sharedClones ⟨some (JsNumber.ofInt 1), none, none⟩
        ⟨none, none, none, []⟩ = .ok bundle ∧
      selected.Sublist sharedClones.items ∧
      (∀ item, item ∈ selected ↔ item ∈ sharedClones.items ∧ Selects none item) ∧
      PartitionedWork selected 1 bundle.packets :=
  buildTriagePackets_partition (fun _ => []) sharedClones ⟨some (JsNumber.ofInt 1), none, none⟩
    ⟨none, none, none, []⟩ (by decide) (JsNumber.toInt_ofInt (by decide)) (by decide)

end Musi.DriftTriage
