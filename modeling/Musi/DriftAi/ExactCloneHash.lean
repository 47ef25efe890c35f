import Musi.System.PrefixCode
import Musi.DriftAi.NearDuplicatesExact

namespace Musi.DriftAi
open Musi.Js Musi.System
set_option autoImplicit true

/-! ## Encoded token sequences -/

/-- The length before a part says where the part ends. -/
theorem prefixCode_lengthPrefixed : PrefixCode (fun _ : JsString => True)
    (fun part => natText part.length ++ js ":" ++ part) := by
  intro a b rest rest' _ _ h
  have hcolon : js ":" = [unit ':'] := by decide
  simp only [hcolon, List.append_assoc, List.singleton_append] at h
  have hdigit : isDigit (unit ':') = false := by decide
  obtain ⟨hlength, hbody⟩ :=
    append_terminator (notMem_natText hdigit a.length) (notMem_natText hdigit b.length) h
  exact List.append_inj hbody (natText_injective hlength)

theorem encodeTokenSequence_injective {tokens tokens' : List JsString}
    (h : encodeTokenSequence tokens = encodeTokenSequence tokens') : tokens = tokens' := by
  refine prefixCode_lengthPrefixed.flatMap (fun a _ hnil => ?_) (fun _ _ => trivial)
    (fun _ _ => trivial) h
  have hcolon : js ":" ≠ [] := by decide
  simp [hcolon] at hnil

/-! ## The groups of equal sequences -/

def encodeFunction (item : NearDuplicateFunction) : EncodedFunction where
  item := item
  sequence := encodeTokenSequence item.exactTokens

/-- The functions of one equality group, with their sequences. -/
def groupOf (hash : JsString) (group : JsString × List EncodedFunction) : EqualityGroup where
  hash := hash
  functions := group.2.map (·.item)

/-- What the pairs of a group are made from. -/
def encodedPairs (encoded : List EncodedFunction) : List NearDuplicateOccurrencePair :=
  ((placePairs encoded).filter fun e => !occurrencesOverlap e.1.item.toNearDuplicateFunctionRef
    e.2.item.toNearDuplicateFunctionRef).map fun e =>
      exactPair e.1.item.toNearDuplicateFunctionRef e.2.item.toNearDuplicateFunctionRef

theorem groupPairs_groupOf (hash : JsString) (group : JsString × List EncodedFunction) :
    groupPairs (groupOf hash group) = encodedPairs group.2 := by
  rw [groupPairs, groupOf, encodedPairs, placePairs_map, List.filter_map, List.map_map]
  rfl

variable (functions : List NearDuplicateFunction) (hashSequence : JsString → JsString)

/-- The groups of the functions by their sequences alone. -/
def sequenceGroups : Entries (List EncodedFunction) :=
  (buckets EncodedFunction.sequence (functions.map encodeFunction)).entries

/-- Whatever the hash, the groups are those of the sequences, in some order. -/
theorem equalityGroups_perm {β : Type} (f : EqualityGroup → β)
    (g : JsString × List EncodedFunction → β) (hfg : ∀ hash group, f (groupOf hash group) = g group) :
    ((equalityGroups (hashBuckets functions hashSequence)).map f).Perm
      ((sequenceGroups functions).map g) := by
  have hgroups : (equalityGroups (hashBuckets functions hashSequence)).map f =
      ((hashBuckets functions hashSequence).entries.flatMap fun e =>
        (buckets EncodedFunction.sequence e.2).entries).map g := by
    rw [equalityGroups, List.map_flatMap, List.map_flatMap]
    refine List.flatMap_congr fun e _ => ?_
    rw [List.map_map]
    exact List.map_congr_left fun group _ => hfg e.1 group
  rw [hgroups]
  exact (buckets_refine EncodedFunction.sequence (functions.map encodeFunction)
    (fun encoded => hashSequence encoded.sequence) hashSequence (fun _ => rfl)).map g

/-- Every pair of two listed eligible functions with equal tokens that do not overlap. -/
def clonePairs : List NearDuplicateOccurrencePair :=
  ((placePairs (functions.filter isExactEligible)).filter fun e =>
    e.1.exactTokens = e.2.exactTokens && !occurrencesOverlap e.1.toNearDuplicateFunctionRef
      e.2.toNearDuplicateFunctionRef).map fun e =>
        exactPair e.1.toNearDuplicateFunctionRef e.2.toNearDuplicateFunctionRef

theorem groupPairs_perm :
    ((equalityGroups (hashBuckets (functions.filter isExactEligible) hashSequence)).flatMap
      groupPairs).Perm (clonePairs functions) := by
  have hgroups := (equalityGroups_perm (functions.filter isExactEligible) hashSequence groupPairs
    (fun group => encodedPairs group.2) groupPairs_groupOf).flatten
  rw [← List.flatMap_def, ← List.flatMap_def] at hgroups
  refine hgroups.trans ?_
  have hbuckets := (placePairs_buckets EncodedFunction.sequence
    ((functions.filter isExactEligible).map encodeFunction)).symm
  have hencoded := (hbuckets.filter fun e => !occurrencesOverlap
    e.1.item.toNearDuplicateFunctionRef e.2.item.toNearDuplicateFunctionRef).map fun e =>
      exactPair e.1.item.toNearDuplicateFunctionRef e.2.item.toNearDuplicateFunctionRef
  rw [List.filter_flatMap, List.map_flatMap] at hencoded
  refine hencoded.trans (.of_eq ?_)
  rw [clonePairs, placePairs_map, List.filter_map, List.filter_map, List.map_map, List.filter_filter]
  refine congrArg₂ List.map rfl (List.filter_congr fun e _ => ?_)
  have hsequence : encodeTokenSequence e.1.exactTokens = encodeTokenSequence e.2.exactTokens ↔
      e.1.exactTokens = e.2.exactTokens :=
    ⟨encodeTokenSequence_injective, congrArg encodeTokenSequence⟩
  simp only [Function.comp_apply, encodeFunction, hsequence]
  exact Bool.and_comm _ _

/-! ## The caps -/

/-- No group and no sum of projected pairs is over its cap. -/
def WithinCaps (sizes : List Nat) : Prop :=
  (∀ size ∈ sizes, size ≤ exactNearDuplicateMaxEqualityGroup) ∧
    (sizes.map pairProjection).sum ≤ exactNearDuplicateMaxProjectedPairs

theorem WithinCaps.perm {sizes sizes' : List Nat} (h : sizes.Perm sizes') :
    WithinCaps sizes ↔ WithinCaps sizes' := by
  rw [WithinCaps, WithinCaps, (h.map pairProjection).sum_eq]
  simp only [h.mem_iff]

theorem checkCaps_ok (audit : Nat → ExactCloneAudit) (groups : List EqualityGroup) {before : Nat}
    (hbefore : before ≤ exactNearDuplicateMaxProjectedPairs) :
    (∃ projectedPairs, checkCaps audit groups before = .ok projectedPairs) ↔
      (∀ group ∈ groups, group.functions.length ≤ exactNearDuplicateMaxEqualityGroup) ∧
        before + (groups.map fun group => pairProjection group.functions.length).sum ≤
          exactNearDuplicateMaxProjectedPairs := by
  induction groups generalizing before with
  | nil => exact iff_of_true ⟨before, rfl⟩ ⟨fun _ h => absurd h List.not_mem_nil, hbefore⟩
  | cons group groups ih =>
    rw [checkCaps]
    rw [List.forall_mem_cons, List.map_cons, List.sum_cons]
    by_cases hsize : group.functions.length > exactNearDuplicateMaxEqualityGroup
    · rw [if_pos hsize]
      refine iff_of_false ?_ fun h => absurd h.1.1 (not_le.2 hsize)
      rintro ⟨projectedPairs, h⟩
      cases h
    · rw [if_neg hsize]
      by_cases hprojected : before + pairProjection group.functions.length >
          exactNearDuplicateMaxProjectedPairs
      · rw [if_pos hprojected]
        refine iff_of_false ?_ fun h => ?_
        · rintro ⟨projectedPairs, h⟩
          cases h
        · have := h.2
          omega
      · rw [if_neg hprojected, ih (not_lt.1 hprojected), and_iff_right (not_lt.1 hsize), add_assoc]

/-! ## The sort -/

theorem mapM_identified (pairs : List NearDuplicateOccurrencePair) :
    match pairs.mapM identified with
    | .ok keyed => keyed.map Prod.snd = pairs ∧ ∀ pair ∈ pairs, ∃ e, identified pair = .ok e
    | .error _ => ∃ pair ∈ pairs, ∀ e, identified pair ≠ .ok e := by
  induction pairs with
  | nil => exact ⟨rfl, fun _ h => absurd h List.not_mem_nil⟩
  | cons pair pairs ih =>
    rw [List.mapM_cons]
    cases hpair : occurrencePairIdentity pair.left pair.right with
    | error error =>
      have hidentified : identified pair = .error error := by
        rw [identified, hpair]
        rfl
      rw [hidentified]
      refine ⟨pair, List.mem_cons_self, fun e he => ?_⟩
      rw [hidentified] at he
      cases he
    | ok identity =>
      have hidentified : identified pair = .ok (identity, pair) := by
        rw [identified, hpair]
        rfl
      rw [hidentified]
      cases hpairs : pairs.mapM identified with
      | error error =>
        rw [hpairs] at ih
        obtain ⟨other, hother, hne⟩ := ih
        exact ⟨other, List.mem_cons_of_mem _ hother, hne⟩
      | ok keyed =>
        rw [hpairs] at ih
        refine ⟨congrArg (pair :: ·) ih.1, fun other hother => ?_⟩
        rcases List.mem_cons.1 hother with rfl | hother
        · exact ⟨_, hidentified⟩
        · exact ih.2 other hother

/-- The sort does not throw: it compares nothing, or every pair has its offsets. -/
def Sortable (pairs : List NearDuplicateOccurrencePair) : Prop :=
  pairs.length < 2 ∨ ∀ pair ∈ pairs, ∃ e, identified pair = .ok e

theorem Sortable.perm {pairs pairs' : List NearDuplicateOccurrencePair} (h : pairs.Perm pairs') :
    Sortable pairs ↔ Sortable pairs' := by
  rw [Sortable, Sortable, h.length_eq]
  simp only [h.mem_iff]

section
variable [Locale]

theorem sortByIdentity_spec (pairs : List NearDuplicateOccurrencePair) :
    match sortByIdentity pairs with
    | .ok sorted => sorted.Perm pairs ∧ Sortable pairs
    | .error _ => ¬ Sortable pairs := by
  rw [sortByIdentity]
  by_cases hlength : pairs.length < 2
  · rw [if_pos hlength]
    exact ⟨.refl _, .inl hlength⟩
  · rw [if_neg hlength]
    have hspec := mapM_identified pairs
    cases hpairs : pairs.mapM identified with
    | error error =>
      rw [hpairs] at hspec
      obtain ⟨pair, hpair, hne⟩ := hspec
      rintro (h | h)
      · exact hlength h
      · obtain ⟨e, he⟩ := h pair hpair
        exact hne e he
    | ok keyed =>
      rw [hpairs] at hspec
      refine ⟨?_, .inr hspec.2⟩
      exact ((sortBy_perm _ keyed).map Prod.snd).trans (.of_eq hspec.1)

/-! ## Any hash gives the same clones -/

/-- The search returns pairs. -/
def Succeeds (functions : List NearDuplicateFunction) (hashSequence : JsString → JsString) : Prop :=
  ∃ pairs audit, findExactFunctionClonePairs functions hashSequence = .ok (.ok pairs audit)

/-- A run that returns pairs is within the caps and sorts the pairs of the groups. -/
theorem findExactFunctionClonePairs_ok {functions : List NearDuplicateFunction}
    {hashSequence : JsString → JsString} {pairs : List NearDuplicateOccurrencePair} :
    (∃ audit, findExactFunctionClonePairs functions hashSequence = .ok (.ok pairs audit)) ↔
      WithinCaps ((sequenceGroups (functions.filter isExactEligible)).map (·.2.length)) ∧
        materializePairs (equalityGroups
          (hashBuckets (functions.filter isExactEligible) hashSequence)) = .ok pairs := by
  set groups := equalityGroups (hashBuckets (functions.filter isExactEligible) hashSequence)
    with hgroups
  have hsizes : (groups.map fun group => group.functions.length).Perm
      ((sequenceGroups (functions.filter isExactEligible)).map (·.2.length)) :=
    equalityGroups_perm _ _ _ _ fun _ _ => List.length_map _
  have hcaps (audit : Nat → ExactCloneAudit) :
      (∃ projectedPairs, checkCaps audit groups 0 = .ok projectedPairs) ↔
        WithinCaps ((sequenceGroups (functions.filter isExactEligible)).map (·.2.length)) := by
    rw [checkCaps_ok audit groups (Nat.zero_le _), ← WithinCaps.perm hsizes, WithinCaps,
      List.map_map, Nat.zero_add]
    simp only [List.forall_mem_map]
    rfl
  have hrun (audit : Nat → Nat → ExactCloneAudit) :
      (∃ a, cloneResult audit groups = .ok (.ok pairs a)) ↔
        WithinCaps ((sequenceGroups (functions.filter isExactEligible)).map (·.2.length)) ∧
          materializePairs groups = .ok pairs := by
    rw [cloneResult]
    rw [← hcaps (audit 0)]
    cases checkCaps (audit 0) groups 0 with
    | error failure =>
      refine iff_of_false ?_ ?_
      · rintro ⟨a, h⟩
        cases h
      · rintro ⟨⟨projectedPairs, h⟩, -⟩
        cases h
    | ok projectedPairs =>
      rw [and_iff_right ⟨projectedPairs, rfl⟩]
      cases materializePairs groups with
      | error error =>
        refine iff_of_false ?_ fun h => by cases h
        rintro ⟨a, h⟩
        cases h
      | ok materialized =>
        constructor
        · rintro ⟨a, h⟩
          cases h
          rfl
        · intro h
          cases h
          exact ⟨_, rfl⟩
  rw [findExactFunctionClonePairs]
  exact hrun _

/-- Two hashes agree on whether the search returns pairs, and on the pairs. -/
theorem findExactFunctionClonePairs_hashFree (functions : List NearDuplicateFunction)
    (hashSequence hashSequence' : JsString → JsString) :
    (Succeeds functions hashSequence ↔ Succeeds functions hashSequence') ∧
      ∀ pairs audit, findExactFunctionClonePairs functions hashSequence = .ok (.ok pairs audit) →
        pairs.Perm (clonePairs functions) ∧ ∀ pairs' audit',
          findExactFunctionClonePairs functions hashSequence' = .ok (.ok pairs' audit') →
            pairs.Perm pairs' := by
  have hpairs (hash : JsString → JsString) {pairs : List NearDuplicateOccurrencePair}
      (h : materializePairs (equalityGroups (hashBuckets (functions.filter isExactEligible) hash)) =
        .ok pairs) : pairs.Perm (clonePairs functions) ∧ Sortable (clonePairs functions) := by
    have hspec := sortByIdentity_spec ((equalityGroups
      (hashBuckets (functions.filter isExactEligible) hash)).flatMap groupPairs)
    rw [materializePairs] at h
    rw [h] at hspec
    have hperm := groupPairs_perm functions hash
    exact ⟨hspec.1.trans hperm, (Sortable.perm hperm).1 hspec.2⟩
  have hsucceeds (hash : JsString → JsString) : Succeeds functions hash ↔
      WithinCaps ((sequenceGroups (functions.filter isExactEligible)).map (·.2.length)) ∧
        Sortable (clonePairs functions) := by
    rw [Succeeds]
    simp only [findExactFunctionClonePairs_ok]
    constructor
    · rintro ⟨pairs, hcaps, h⟩
      exact ⟨hcaps, (hpairs hash h).2⟩
    · rintro ⟨hcaps, hsortable⟩
      have hspec := sortByIdentity_spec ((equalityGroups
        (hashBuckets (functions.filter isExactEligible) hash)).flatMap groupPairs)
      rw [materializePairs]
      cases hsorted : sortByIdentity ((equalityGroups
          (hashBuckets (functions.filter isExactEligible) hash)).flatMap groupPairs) with
      | error error =>
        rw [hsorted] at hspec
        exact absurd ((Sortable.perm (groupPairs_perm functions hash)).2 hsortable) hspec
      | ok sorted => exact ⟨sorted, hcaps, rfl⟩
  have hperm (hash : JsString → JsString) {pairs : List NearDuplicateOccurrencePair}
      {audit : ExactCloneAudit}
      (h : findExactFunctionClonePairs functions hash = .ok (.ok pairs audit)) :
      pairs.Perm (clonePairs functions) :=
    (hpairs hash (findExactFunctionClonePairs_ok.1 ⟨audit, h⟩).2).1
  refine ⟨(hsucceeds hashSequence).trans (hsucceeds hashSequence').symm, fun pairs audit h => ?_⟩
  exact ⟨hperm _ h, fun pairs' audit' h' => (hperm _ h).trans (hperm _ h').symm⟩

end

/-! ## Two clones under two hashes -/

/-- A function of fifteen tokens in a file of scripts. -/
def cloneIn (filePath : JsString) : NearDuplicateFunction where
  filePath := filePath
  name := js "f"
  enclosingContext := []
  startOffset := some 0
  endOffset := some 90
  startLine := 1
  endLine := 4
  lineCount := 4
  tokenCount := 3
  features := []
  statementFeatures := []
  exactTokens := List.replicate 15 (js ";")

/-- The pairs of a search that returns them. -/
def foundPairs (result : Except JsString ExactCloneResult) :
    Option (List NearDuplicateOccurrencePair) :=
  match result with
  | .ok (.ok pairs _) => some pairs
  | _ => none

theorem foundPairs_some {result : Except JsString ExactCloneResult}
    {pairs : List NearDuplicateOccurrencePair} (h : foundPairs result = some pairs) :
    ∃ audit, result = .ok (.ok pairs audit) := by
  unfold foundPairs at h
  split at h
  · next found audit =>
    cases h
    exact ⟨audit, rfl⟩
  · cases h

/-- A constant hash and the encoding itself find the one pair. -/
theorem findExactFunctionClonePairs_hashFree_constant :
    let pair := exactPair (cloneIn (js "scripts/a.ts")).toNearDuplicateFunctionRef
      (cloneIn (js "scripts/b.ts")).toNearDuplicateFunctionRef
    (∃ audit, findExactFunctionClonePairs [cloneIn (js "scripts/a.ts"), cloneIn (js "scripts/b.ts")]
      (fun _ => []) = .ok (.ok [pair] audit)) ∧
    Succeeds [cloneIn (js "scripts/a.ts"), cloneIn (js "scripts/b.ts")] id ∧
    [pair].Perm (clonePairs [cloneIn (js "scripts/a.ts"), cloneIn (js "scripts/b.ts")]) := by
  intro pair
  have hfound : foundPairs (findExactFunctionClonePairs
      [cloneIn (js "scripts/a.ts"), cloneIn (js "scripts/b.ts")] (fun _ => [])) = some [pair] := by
    decide +kernel
  obtain ⟨audit, h⟩ := foundPairs_some hfound
  have hfree := findExactFunctionClonePairs_hashFree
    [cloneIn (js "scripts/a.ts"), cloneIn (js "scripts/b.ts")] (fun _ => []) id
  exact ⟨⟨audit, h⟩, hfree.1.1 ⟨_, audit, h⟩, (hfree.2 _ audit h).1⟩

end Musi.DriftAi
