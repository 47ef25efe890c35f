import Musi.System.PrefixCode
import Musi.System.Propagation
import Musi.PathPolicy.FixtureHelperCalls

namespace Musi.PathPolicy
open Musi.Js Musi.System Relation
set_option autoImplicit true

/-! ## Keys -/

theorem functionName_units {name : FunctionName} : name.text ≠ [] ∧ (0 : UInt16) ∉ name.text ∧
    (1 : UInt16) ∉ name.text := by
  obtain ⟨text, hvalid⟩ := name
  cases text with
  | nil => cases hvalid
  | cons c s =>
    rw [isFunctionName, Bool.and_eq_true, List.all_eq_true] at hvalid
    have hnot (d : UInt16) (hstart : isNameStart d = false) (hdigit : isDigit d = false) :
        d ∉ c :: s := by
      intro hd
      rcases List.mem_cons.1 hd with rfl | hd
      · rw [hstart] at hvalid
        exact Bool.false_ne_true hvalid.1
      · have hunit := hvalid.2 d hd
        rw [hstart, hdigit] at hunit
        exact Bool.false_ne_true hunit
    exact ⟨List.cons_ne_nil _ _, hnot 0 (by decide) (by decide), hnot 1 (by decide) (by decide)⟩

theorem fixtureGroupKey_inj {scope scope' : List FunctionName} {root root' : JsString} :
    fixtureGroupKey scope root = fixtureGroupKey scope' root' ↔ scope = scope' ∧ root = root' := by
  constructor
  · intro h
    have hone (scope : List FunctionName) :
        (1 : UInt16) ∉ join [0] (scope.map FunctionName.text) := by
      induction scope with
      | nil => exact List.not_mem_nil
      | cons name scope ih =>
        cases scope with
        | nil => exact functionName_units.2.2
        | cons next scope =>
          rw [List.map_cons, List.map_cons, join, List.mem_append, List.mem_append, not_or, not_or]
          exact ⟨⟨functionName_units.2.2, by decide⟩, ih⟩
    have hparts (scope : List FunctionName) (part : JsString)
        (hpart : part ∈ scope.map FunctionName.text) : part ≠ [] ∧ (0 : UInt16) ∉ part := by
      obtain ⟨name, -, rfl⟩ := List.mem_map.1 hpart
      exact ⟨functionName_units.1, functionName_units.2.1⟩
    obtain ⟨hscope, hroot⟩ := append_terminator (hone scope) (hone scope') h
    have hmap := join_injective (hparts scope) (hparts scope') hscope
    refine ⟨List.map_injective_iff.2 (fun name name' hname => ?_) hmap, hroot⟩
    cases name
    cases name'
    cases hname
    rfl
  · rintro ⟨rfl, rfl⟩
    rfl

/-! ## Absorbing sets -/

section
variable {α : Type} [DecidableEq α]

theorem absorbInto_spec (target source : List α) :
    (∀ x, x ∈ (absorbInto target source).1 ↔ x ∈ target ∨ x ∈ source) ∧
      ((absorbInto target source).2 = true ↔ ∃ x ∈ source, x ∉ target) := by
  have hloop (source : List α) (state : List α × Bool) :
      (∀ x, x ∈ (source.foldl absorbValue state).1 ↔ x ∈ state.1 ∨ x ∈ source) ∧
        ((source.foldl absorbValue state).2 = true ↔ state.2 = true ∨ ∃ x ∈ source, x ∉ state.1) := by
    induction source generalizing state with
    | nil =>
      refine ⟨fun x => (or_iff_left List.not_mem_nil).symm, (or_iff_left ?_).symm⟩
      rintro ⟨x, hx, -⟩
      cases hx
    | cons value source ih =>
      obtain ⟨hmem, hchanged⟩ := ih (absorbValue state value)
      rw [List.foldl_cons]
      by_cases hvalue : value ∈ state.1
      · have hsame : absorbValue state value = state := by rw [absorbValue, if_pos hvalue]
        rw [hsame] at hmem hchanged ⊢
        refine ⟨fun x => ?_, ?_⟩
        · rw [hmem, List.mem_cons]
          constructor
          · rintro (hx | hx)
            · exact .inl hx
            · exact .inr (.inr hx)
          · rintro (hx | rfl | hx)
            · exact .inl hx
            · exact .inl hvalue
            · exact .inr hx
        · rw [hchanged]
          refine or_congr_right ⟨fun ⟨x, hx, hnot⟩ => ⟨x, List.mem_cons_of_mem _ hx, hnot⟩, ?_⟩
          rintro ⟨x, hx, hnot⟩
          rcases List.mem_cons.1 hx with rfl | hx
          · exact absurd hvalue hnot
          · exact ⟨x, hx, hnot⟩
      · have hadded : absorbValue state value = (state.1 ++ [value], true) := by
          rw [absorbValue, if_neg hvalue]
        rw [hadded] at hmem hchanged ⊢
        refine ⟨fun x => ?_, iff_of_true (hchanged.2 (.inl rfl)) ?_⟩
        · rw [hmem, List.mem_append, List.mem_singleton, List.mem_cons, or_assoc]
        · exact .inr ⟨value, List.mem_cons_self, hvalue⟩
  obtain ⟨hmem, hchanged⟩ := hloop source (target, false)
  exact ⟨hmem, hchanged.trans (or_iff_right Bool.false_ne_true)⟩

/-! ## One call -/

variable (groups : JsMap (FixtureGroup α))

/-- A source in a group under one of the keys. -/
def Under (keys : List JsString) (x : α) : Prop :=
  ∃ key ∈ keys, ∃ group, groups.get key = some group ∧ x ∈ group.sources

theorem absorbSource_spec (key : JsString) (keys : List JsString) (state : FixtureGroup α × Bool) :
    let merged := keys.foldl (absorbSource sourceMerge groups key) state
    merged.1.functionScope = state.1.functionScope ∧ merged.1.fixtureRoot = state.1.fixtureRoot ∧
      (∀ x, x ∈ merged.1.sources ↔
        x ∈ state.1.sources ∨ Under groups (keys.filter fun other => other ≠ key) x) ∧
      (merged.2 = true ↔
        state.2 = true ∨ ∃ x ∈ merged.1.sources, x ∉ state.1.sources) := by
  induction keys generalizing state with
  | nil =>
    refine ⟨rfl, rfl, fun x => (or_iff_left ?_).symm, (or_iff_left ?_).symm⟩
    · rintro ⟨other, hother, -⟩
      cases hother
    · rintro ⟨x, hx, hnot⟩
      exact hnot hx
  | cons sourceKey keys ih =>
    obtain ⟨hscope, hroot, hmem, hchanged⟩ := ih (absorbSource sourceMerge groups key state sourceKey)
    have hfilter (x : α) : Under groups ((sourceKey :: keys).filter fun other => other ≠ key) x ↔
        (sourceKey ≠ key ∧ ∃ group, groups.get sourceKey = some group ∧ x ∈ group.sources) ∨
          Under groups (keys.filter fun other => other ≠ key) x := by
      rw [Under, Under]
      simp only [List.mem_filter, List.mem_cons, decide_eq_true_eq]
      constructor
      · rintro ⟨other, ⟨rfl | hother, hne⟩, hgroup⟩
        · exact .inl ⟨hne, hgroup⟩
        · exact .inr ⟨other, ⟨hother, hne⟩, hgroup⟩
      · rintro (⟨hne, hgroup⟩ | ⟨other, ⟨hother, hne⟩, hgroup⟩)
        · exact ⟨sourceKey, ⟨.inl rfl, hne⟩, hgroup⟩
        · exact ⟨other, ⟨.inr hother, hne⟩, hgroup⟩
    rw [List.foldl_cons]
    simp only [hfilter]
    by_cases hself : sourceKey = key
    · have hsame : absorbSource sourceMerge groups key state sourceKey = state := by
        rw [absorbSource, if_pos hself]
      rw [hsame] at hscope hroot hmem hchanged ⊢
      refine ⟨hscope, hroot, fun x => ?_, hchanged⟩
      rw [hmem, or_iff_right (fun h : sourceKey ≠ key ∧ _ => h.1 hself)]
    · cases hget : groups.get sourceKey with
      | none =>
        have hsame : absorbSource sourceMerge groups key state sourceKey = state := by
          rw [absorbSource, if_neg hself, hget]
        rw [hsame] at hscope hroot hmem hchanged ⊢
        refine ⟨hscope, hroot, fun x => ?_, hchanged⟩
        rw [hmem, or_iff_right (a := sourceKey ≠ key ∧ _)]
        rintro ⟨-, group, heq, -⟩
        cases heq
      | some source =>
        have habsorbed : absorbSource sourceMerge groups key state sourceKey =
            ({ state.1 with sources := (absorbInto state.1.sources source.sources).1 },
              (absorbInto state.1.sources source.sources).2 || state.2) := by
          rw [absorbSource, if_neg hself, hget]
          rfl
        obtain ⟨hinto, hintoChanged⟩ := absorbInto_spec state.1.sources source.sources
        rw [habsorbed] at hscope hroot hmem hchanged ⊢
        refine ⟨hscope, hroot, fun x => ?_, ?_⟩
        · rw [hmem, hinto, or_assoc]
          refine or_congr_right (or_congr_left ?_)
          constructor
          · intro hx
            exact ⟨hself, source, rfl, hx⟩
          · rintro ⟨-, group, heq, hx⟩
            cases heq
            exact hx
        · rw [hchanged, Bool.or_eq_true, hintoChanged]
          constructor
          · rintro ((⟨x, hx, hnot⟩ | hstate) | ⟨x, hx, hnot⟩)
            · exact .inr ⟨x, (hmem x).2 (.inl ((hinto x).2 (.inr hx))), hnot⟩
            · exact .inl hstate
            · exact .inr ⟨x, hx, fun hold => hnot ((hinto x).2 (.inl hold))⟩
          · rintro (hstate | ⟨x, hx, hnot⟩)
            · exact .inl (.inr hstate)
            · by_cases hsource : x ∈ source.sources
              · exact .inl (.inl ⟨x, hsource, hnot⟩)
              · refine .inr ⟨x, hx, fun hold => ?_⟩
                rcases (hinto x).1 hold with hold | hold
                · exact hnot hold
                · exact hsource hold

def placeKey (place : FixturePlace) : JsString := fixtureGroupKey place.1 place.2

theorem placeKey_inj {place place' : FixturePlace} :
    placeKey place = placeKey place' ↔ place = place' := by
  rw [placeKey, placeKey, fixtureGroupKey_inj, Prod.ext_iff]

/-- Each group stands under its own key. -/
def Keyed : Prop := ∀ key group, groups.get key = some group →
  key = placeKey (group.functionScope, group.fixtureRoot)

def Content (place : FixturePlace) (x : α) : Prop :=
  ∃ group, groups.get (placeKey place) = some group ∧ x ∈ group.sources

def FixtureHelperCall.target (call : FixtureHelperCall) : FixturePlace :=
  (call.callerScope, call.targetRoot)

/-- What a call does with the groups: the target takes what is under the keys of the callee, and is
published when it has something. -/
structure Merged (keys : List JsString) (target : FixturePlace) (groups : JsMap (FixtureGroup α))
    (merged : JsMap (FixtureGroup α) × Bool) : Prop where
  keyed : Keyed merged.1
  content : ∀ place x, Content merged.1 place x ↔
    Content groups place x ∨ place = target ∧ Under groups keys x
  changed : merged.2 = true ↔ ∃ place x, Content merged.1 place x ∧ ¬ Content groups place x
  kept : ∀ key, groups.has key = true → merged.1.has key = true
  published : ∀ place, merged.1.has (placeKey place) = true →
    groups.has (placeKey place) = true ∨ ∃ x, Content merged.1 place x

variable {groups}

theorem mergeCallIntoTarget_spec (h : Keyed groups) (keys : List JsString)
    (call : FixtureHelperCall) :
    Merged keys call.target groups (mergeCallIntoTarget sourceMerge groups keys call) := by
  have hcallKey : fixtureGroupKey call.callerScope call.targetRoot = placeKey call.target := rfl
  obtain ⟨target, htarget⟩ : ∃ target, (groups.get (placeKey call.target)).getD
      ((sourceMerge (α := α)).create call.callerScope call.targetRoot) = target := ⟨_, rfl⟩
  obtain ⟨merged, hmerged⟩ : ∃ merged, keys.foldl
      (absorbSource sourceMerge groups (placeKey call.target)) (target, false) = merged := ⟨_, rfl⟩
  have hplace : (target.functionScope, target.fixtureRoot) = call.target := by
    cases hget : groups.get (placeKey call.target) with
    | none =>
      rw [hget] at htarget
      rw [← htarget]
      rfl
    | some group =>
      rw [hget] at htarget
      cases htarget
      exact (placeKey_inj.1 (h _ _ hget)).symm
  have hold (x : α) : x ∈ target.sources ↔ Content groups call.target x := by
    rw [Content]
    cases hget : groups.get (placeKey call.target) with
    | none =>
      rw [hget] at htarget
      rw [← htarget]
      refine iff_of_false List.not_mem_nil ?_
      rintro ⟨group, heq, -⟩
      cases heq
    | some group =>
      rw [hget] at htarget
      cases htarget
      exact ⟨fun hx => ⟨_, rfl, hx⟩, fun ⟨_, heq, hx⟩ => Option.some.inj heq ▸ hx⟩
  obtain ⟨hscope, hroot, hmem, hchanged⟩ :=
    absorbSource_spec groups (placeKey call.target) keys (target, false)
  rw [hmerged] at hscope hroot hmem hchanged
  -- The target may be among its own sources.
  have hnew (x : α) : x ∈ merged.1.sources ↔ Content groups call.target x ∨ Under groups keys x := by
    rw [hmem, hold]
    constructor
    · rintro (hx | ⟨key, hkey, hgroup⟩)
      · exact .inl hx
      · exact .inr ⟨key, List.mem_of_mem_filter hkey, hgroup⟩
    · rintro (hx | ⟨key, hkey, group, hget, hx⟩)
      · exact .inl hx
      · by_cases hself : key = placeKey call.target
        · exact .inl ⟨group, hself ▸ hget, hx⟩
        · exact .inr ⟨key, List.mem_filter.2 ⟨hkey, decide_eq_true hself⟩, group, hget, hx⟩
  have hflag : merged.2 = true ↔ ∃ x ∈ merged.1.sources, ¬ Content groups call.target x := by
    rw [hchanged, or_iff_right Bool.false_ne_true]
    exact exists_congr fun x => and_congr_right fun _ => not_congr (hold x)
  by_cases hpublished : (groups.has (placeKey call.target) ||
      !(sourceMerge (α := α)).isEmpty merged.1) = true
  · have hresult : mergeCallIntoTarget sourceMerge groups keys call =
        (groups.set (placeKey call.target) merged.1, merged.2) := by
      rw [mergeCallIntoTarget, hcallKey]
      simp only [htarget, hmerged]
      rw [if_pos hpublished]
    have hget (key : JsString) : (groups.set (placeKey call.target) merged.1).get key =
        if key = placeKey call.target then some merged.1 else groups.get key := JsMap.get_set _ _ _ _
    have hcontent (place : FixturePlace) (x : α) :
        Content (groups.set (placeKey call.target) merged.1) place x ↔
          Content groups place x ∨ place = call.target ∧ Under groups keys x := by
      rw [Content, hget]
      by_cases heq : place = call.target
      · rw [if_pos (placeKey_inj.2 heq), heq, and_iff_right rfl, ← hnew]
        exact ⟨fun ⟨_, hgroup, hx⟩ => Option.some.inj hgroup ▸ hx, fun hx => ⟨_, rfl, hx⟩⟩
      · rw [if_neg (fun hkey => heq (placeKey_inj.1 hkey)), or_iff_left (fun hne => heq hne.1)]
        exact Iff.rfl
    rw [hresult]
    refine ⟨?_, hcontent, ?_, ?_, ?_⟩
    · intro key group hgroup
      rw [hget] at hgroup
      split at hgroup
      · next hkey =>
        cases hgroup
        rw [hkey, hscope, hroot, hplace]
      · exact h key group hgroup
    · rw [hflag]
      constructor
      · rintro ⟨x, hx, hnot⟩
        exact ⟨call.target, x, ⟨merged.1, by rw [hget, if_pos rfl], hx⟩, hnot⟩
      · rintro ⟨place, x, hx, hnot⟩
        rcases (hcontent place x).1 hx with hx | ⟨rfl, hunder⟩
        · exact absurd hx hnot
        · exact ⟨x, (hnew x).2 (.inr hunder), hnot⟩
    · intro key hkey
      rw [JsMap.has, hget]
      split
      · rfl
      · exact hkey
    · intro place hkey
      rw [JsMap.has, hget] at hkey
      by_cases heq : placeKey place = placeKey call.target
      · rw [Bool.or_eq_true] at hpublished
        rcases hpublished with hhas | hne
        · exact .inl (heq ▸ hhas)
        · change (!merged.1.sources.isEmpty) = true at hne
          cases hsources : merged.1.sources with
          | nil =>
            rw [hsources] at hne
            cases hne
          | cons x sources =>
            exact .inr ⟨x, merged.1, by rw [hget, if_pos heq], by
              rw [hsources]
              exact List.mem_cons_self⟩
      · rw [if_neg heq] at hkey
        exact .inl hkey
  · have hresult : mergeCallIntoTarget sourceMerge groups keys call = (groups, merged.2) := by
      rw [mergeCallIntoTarget, hcallKey]
      simp only [htarget, hmerged]
      rw [if_neg hpublished]
    have hnil : merged.1.sources = [] := by
      rw [Bool.or_eq_true, not_or] at hpublished
      have hempty : merged.1.sources.isEmpty = true := by
        by_contra hne
        exact hpublished.2 (by rw [Bool.not_eq_true']; exact eq_false_of_ne_true hne)
      exact List.isEmpty_iff.1 hempty
    have hnothing (x : α) : ¬ (Content groups call.target x ∨ Under groups keys x) := by
      rw [← hnew, hnil]
      exact List.not_mem_nil
    rw [hresult]
    refine ⟨h, fun place x => ?_, ?_, fun _ hkey => hkey, fun _ hkey => .inl hkey⟩
    · exact (or_iff_left fun hx => hnothing x (.inr hx.2)).symm
    · rw [hflag, hnil]
      refine iff_of_false ?_ ?_
      · rintro ⟨x, hx, -⟩
        cases hx
      · rintro ⟨place, x, hx, hnot⟩
        exact hnot hx

/-! ## One pass -/

theorem mem_groupsByOutermostFunction {callee key : JsString} :
    key ∈ ((groupsByOutermostFunction sourceMerge groups).get callee).getD [] ↔
      ∃ group, groups.get key = some group ∧
        group.functionScope.head?.map FunctionName.text = some callee := by
  have hloop (entries : List (JsString × FixtureGroup α)) (index : JsMap (List JsString)) :
      key ∈ ((entries.foldl (indexGroup sourceMerge) index).get callee).getD [] ↔
        key ∈ (index.get callee).getD [] ∨ ∃ group, (key, group) ∈ entries ∧
          group.functionScope.head?.map FunctionName.text = some callee := by
    induction entries generalizing index with
    | nil =>
      refine (or_iff_left ?_).symm
      rintro ⟨group, hgroup, -⟩
      cases hgroup
    | cons entry entries ih =>
      rw [List.foldl_cons, ih]
      have hindexed : key ∈ ((indexGroup sourceMerge index entry).get callee).getD [] ↔
          key ∈ (index.get callee).getD [] ∨ key = entry.1 ∧
            entry.2.functionScope.head?.map FunctionName.text = some callee := by
        have hscope : (sourceMerge (α := α)).functionScope entry.2 = entry.2.functionScope := rfl
        rw [indexGroup, hscope]
        cases hhead : entry.2.functionScope.head? with
        | none =>
          refine (or_iff_left ?_).symm
          rintro ⟨-, heq⟩
          cases heq
        | some outermost =>
          change key ∈ ((index.set outermost.text _).get callee).getD [] ↔ _
          rw [JsMap.get_set, Option.map_some, Option.some_inj]
          by_cases heq : callee = outermost.text
          · rw [if_pos heq, heq, Option.getD_some, List.mem_append, List.mem_singleton,
              and_iff_left rfl]
          · rw [if_neg heq, or_iff_left (fun h => heq h.2.symm)]
      rw [hindexed, or_assoc]
      refine or_congr_right ?_
      simp only [List.mem_cons]
      constructor
      · rintro (⟨rfl, hhead⟩ | ⟨group, hgroup, hhead⟩)
        · exact ⟨entry.2, .inl rfl, hhead⟩
        · exact ⟨group, .inr hgroup, hhead⟩
      · rintro ⟨group, rfl | hgroup, hhead⟩
        · exact .inl ⟨rfl, hhead⟩
        · exact .inr ⟨group, hgroup, hhead⟩
  rw [groupsByOutermostFunction, hloop, JsMap.get_empty]
  simp only [Option.getD_none, List.not_mem_nil, false_or, JsMap.mem_entries]

/-- The call sites lead from the groups of the function called to the group handed over. -/
def Leads (calls : List FixtureHelperCall) (origin place : FixturePlace) : Prop :=
  ∃ call ∈ calls, origin.1.head?.map FunctionName.text = some call.callee ∧ place = call.target

theorem Leads.mono {calls calls' : List FixtureHelperCall} (h : calls ⊆ calls')
    {origin place : FixturePlace} (hleads : Leads calls origin place) :
    Leads calls' origin place := by
  obtain ⟨call, hcall, hleads⟩ := hleads
  exact ⟨call, h hcall, hleads⟩

theorem mergeCall_spec {state : JsMap (FixtureGroup α) × Bool} (h : Keyed state.1)
    (index : JsMap (List JsString)) (call : FixtureHelperCall) :
    ∃ changed, (mergeCall sourceMerge index state call).2 = (changed || state.2) ∧
      Merged ((index.get call.callee).getD []) call.target state.1
        ((mergeCall sourceMerge index state call).1, changed) := by
  rw [mergeCall]
  cases hget : index.get call.callee with
  | none =>
    refine ⟨false, rfl, h, fun place x => (or_iff_left ?_).symm, ?_, fun _ hkey => hkey,
      fun _ hplace => .inl hplace⟩
    · rintro ⟨-, key, hkey, -⟩
      cases hkey
    · refine iff_of_false Bool.false_ne_true ?_
      rintro ⟨place, x, hx, hnot⟩
      exact hnot hx
  | some keys => exact ⟨_, rfl, mergeCallIntoTarget_spec h keys call⟩

/-- What the calls so far in a pass do with the groups that the pass starts from. -/
structure Passed (groups : JsMap (FixtureGroup α)) (calls : List FixtureHelperCall)
    (state : JsMap (FixtureGroup α) × Bool) : Prop where
  keyed : Keyed state.1
  grows : ∀ place x, Content groups place x → Content state.1 place x
  carries : ∀ origin place x, Content groups origin x → Leads calls origin place →
    Content state.1 place x
  sound : ∀ place x, Content state.1 place x →
    ∃ origin, Content groups origin x ∧ ReflTransGen (Leads calls) origin place
  changed : state.2 = true ↔ ∃ place x, Content state.1 place x ∧ ¬ Content groups place x
  kept : ∀ key, groups.has key = true → state.1.has key = true
  published : ∀ place, state.1.has (placeKey place) = true →
    groups.has (placeKey place) = true ∨ ∃ x, Content state.1 place x

theorem mergePass_spec (h : Keyed groups) (calls : List FixtureHelperCall) :
    Passed groups calls (mergePass sourceMerge calls groups) := by
  rw [mergePass]
  induction calls using List.reverseRecOn with
  | nil =>
    refine ⟨h, fun _ _ hx => hx, ?_, fun place x hx => ⟨place, hx, .refl⟩, ?_, fun _ hkey => hkey,
      fun _ hplace => .inl hplace⟩
    · rintro origin place x - ⟨call, hcall, -⟩
      cases hcall
    · refine iff_of_false Bool.false_ne_true ?_
      rintro ⟨place, x, hx, hnot⟩
      exact hnot hx
  | append_singleton calls call ih =>
    rw [List.foldl_concat]
    generalize calls.foldl (mergeCall sourceMerge (groupsByOutermostFunction sourceMerge groups))
      (groups, false) = state at ih
    obtain ⟨changed, hflag, hmerged⟩ := mergeCall_spec ih.keyed
      (groupsByOutermostFunction sourceMerge groups) call
    generalize mergeCall sourceMerge (groupsByOutermostFunction sourceMerge groups) state call =
      next at hflag hmerged
    have hgrows (place : FixturePlace) (x : α) (hx : Content state.1 place x) :
        Content next.1 place x := (hmerged.content place x).2 (.inl hx)
    have hwiden {origin place : FixturePlace} (hwalk : ReflTransGen (Leads calls) origin place) :
        ReflTransGen (Leads (calls ++ [call])) origin place :=
      hwalk.lift id fun _ _ => Leads.mono (List.subset_append_left _ _)
    refine ⟨hmerged.keyed, fun place x hx => hgrows place x (ih.grows place x hx), ?_, ?_, ?_,
      fun key hkey => hmerged.kept key (ih.kept key hkey), ?_⟩
    · rintro origin place x hx ⟨made, hmade, hcallee, rfl⟩
      rcases List.mem_append.1 hmade with hmade | hmade
      · exact hgrows _ x (ih.carries origin _ x hx ⟨made, hmade, hcallee, rfl⟩)
      · cases List.mem_singleton.1 hmade
        -- A group with contents when the pass starts is in the index of the pass.
        obtain ⟨group, hgroup, -⟩ := id hx
        have hscope : origin.1 = group.functionScope :=
          congrArg Prod.fst (placeKey_inj.1 (h _ _ hgroup))
        obtain ⟨grown, hgrown, hx⟩ := ih.grows origin x hx
        exact (hmerged.content _ x).2 (.inr ⟨rfl, placeKey origin,
          mem_groupsByOutermostFunction.2 ⟨group, hgroup, hscope ▸ hcallee⟩, grown, hgrown, hx⟩)
    · intro place x hx
      rcases (hmerged.content place x).1 hx with hx | ⟨rfl, key, hkey, group, hgroup, hx⟩
      · obtain ⟨origin, horigin, hwalk⟩ := ih.sound place x hx
        exact ⟨origin, horigin, hwiden hwalk⟩
      · obtain ⟨indexed, hindexed, hcallee⟩ := mem_groupsByOutermostFunction.1 hkey
        have hplace := (h _ _ hindexed).symm.trans (ih.keyed _ _ hgroup)
        rw [placeKey_inj] at hplace
        have hcontent : Content state.1 (group.functionScope, group.fixtureRoot) x :=
          ⟨group, by rw [← ih.keyed _ _ hgroup]; exact hgroup, hx⟩
        obtain ⟨origin, horigin, hwalk⟩ := ih.sound _ x hcontent
        refine ⟨origin, horigin, (hwiden hwalk).tail ?_⟩
        refine ⟨call, List.mem_append_right _ (List.mem_singleton_self _), ?_, rfl⟩
        rw [← hplace]
        exact hcallee
    · rw [hflag, Bool.or_eq_true, hmerged.changed, ih.changed]
      constructor
      · rintro (⟨place, x, hx, hnot⟩ | ⟨place, x, hx, hnot⟩)
        · exact ⟨place, x, hx, fun hold => hnot (ih.grows place x hold)⟩
        · exact ⟨place, x, hgrows place x hx, hnot⟩
      · rintro ⟨place, x, hx, hnot⟩
        by_cases hstate : Content state.1 place x
        · exact .inr ⟨place, x, hstate, hnot⟩
        · exact .inl ⟨place, x, hx, hstate⟩
    · intro place hplace
      rcases hmerged.published place hplace with hplace | hx
      · rcases ih.published place hplace with hplace | ⟨x, hx⟩
        · exact .inl hplace
        · exact .inr ⟨x, hgrows place x hx⟩
      · exact .inr hx

/-! ## All passes -/

theorem mergePasses_settle (calls : List FixtureHelperCall) {passes : Nat}
    {result : JsMap (FixtureGroup α)}
    (h : settle (mergePass sourceMerge calls) passes groups = some result) :
    mergePasses sourceMerge calls passes groups = .ok result := by
  induction passes generalizing groups with
  | zero => cases h
  | succ passes ih =>
    rw [settle] at h
    rw [mergePasses]
    by_cases hchanged : (mergePass sourceMerge calls groups).2 = true
    · rw [if_pos hchanged] at h
      simp only [hchanged, if_true]
      exact ih h
    · rw [if_neg hchanged] at h
      cases h
      simp only [hchanged]
      rfl

/-- The groups that are published beside those at the start have something. -/
def Published (start groups : JsMap (FixtureGroup α)) : Prop :=
  ∀ place, groups.has (placeKey place) = true ↔
    start.has (placeKey place) = true ∨ ∃ x, Content groups place x

theorem propagates (start : JsMap (FixtureGroup α)) (calls : List FixtureHelperCall) :
    Propagates (mergePass sourceMerge calls) (fun groups => Keyed groups ∧ Published start groups)
      Content (Leads calls) where
  keeps groups h := by
    have hpassed := mergePass_spec h.1 calls
    refine ⟨hpassed.keyed, fun place => ⟨fun hplace => ?_, ?_⟩⟩
    · rcases hpassed.published place hplace with hplace | hx
      · rcases (h.2 place).1 hplace with hstart | ⟨x, hx⟩
        · exact .inl hstart
        · exact .inr ⟨x, hpassed.grows place x hx⟩
      · exact .inr hx
    · rintro (hstart | ⟨x, group, hgroup, -⟩)
      · exact hpassed.kept _ ((h.2 place).2 (.inl hstart))
      · rw [JsMap.has, hgroup]
        rfl
  grows groups h := (mergePass_spec h.1 calls).grows
  carries groups h := (mergePass_spec h.1 calls).carries
  sound groups h := (mergePass_spec h.1 calls).sound
  changed groups h := (mergePass_spec h.1 calls).changed

/-- Groups under their own keys. -/
structure ScopedGroups (α : Type) where
  groups : JsMap (FixtureGroup α)
  keyed : Keyed groups

theorem mergeHelperCallGroups_spec (given : ScopedGroups α) (calls : List FixtureHelperCall) :
    ∃ result : ScopedGroups α,
      mergeHelperCallGroups sourceMerge given.groups calls = .ok result.groups ∧
      Published given.groups result.groups ∧
      ∀ place x, Content result.groups place x ↔
        ∃ origin, Content given.groups origin x ∧ ReflTransGen (Leads calls) origin place := by
  have htargets (origin place : FixturePlace) (h : Leads calls origin place) :
      place ∈ calls.map FixtureHelperCall.target := by
    obtain ⟨call, hcall, -, rfl⟩ := h
    exact List.mem_map_of_mem hcall
  have hpublished : Published given.groups given.groups := by
    intro place
    refine ⟨.inl, ?_⟩
    rintro (hplace | ⟨x, group, hgroup, -⟩)
    · exact hplace
    · rw [JsMap.has, hgroup]
      rfl
  obtain ⟨result, hsettle, ⟨hkeyed, hresult⟩, hcontent⟩ :=
    (propagates given.groups calls).settle ⟨given.keyed, hpublished⟩ (n := calls.length)
      fun origin place x horigin hwalk => by
        have hwithin := within_of_reach _ htargets hwalk
        rw [List.length_map] at hwithin
        exact ⟨origin, horigin, hwithin⟩
  exact ⟨⟨result, hkeyed⟩, mergePasses_settle calls hsettle, hresult, hcontent⟩

/-- Merging reaches the least contents that the call sites allow within its bound on passes, whatever
the order of the calls. -/
theorem mergeHelperCallGroups_least (given : ScopedGroups α) (calls : List FixtureHelperCall) :
    ∃ result : ScopedGroups α,
      mergeHelperCallGroups sourceMerge given.groups calls = .ok result.groups ∧
      Published given.groups result.groups ∧
      (∀ place x, Content result.groups place x ↔
        ∃ origin, Content given.groups origin x ∧ ReflTransGen (Leads calls) origin place) ∧
      ∀ calls', calls.Perm calls' → ∃ result' : ScopedGroups α,
        mergeHelperCallGroups sourceMerge given.groups calls' = .ok result'.groups ∧
        ∀ place, (∀ x, Content result'.groups place x ↔ Content result.groups place x) ∧
          result'.groups.has (placeKey place) = result.groups.has (placeKey place) := by
  obtain ⟨result, hresult, hpublished, hcontent⟩ := mergeHelperCallGroups_spec given calls
  refine ⟨result, hresult, hpublished, hcontent, fun calls' hperm => ?_⟩
  obtain ⟨result', hresult', hpublished', hcontent'⟩ := mergeHelperCallGroups_spec given calls'
  have hleads : Leads calls' = Leads calls := by
    funext origin place
    exact propext ⟨Leads.mono hperm.symm.subset, Leads.mono hperm.subset⟩
  have hsame (place : FixturePlace) (x : α) :
      Content result'.groups place x ↔ Content result.groups place x := by
    rw [hcontent, hcontent', hleads]
  refine ⟨result', hresult', fun place => ⟨hsame place, ?_⟩⟩
  rw [Bool.eq_iff_iff, hpublished, hpublished']
  simp only [hsame]

end

end Musi.PathPolicy
