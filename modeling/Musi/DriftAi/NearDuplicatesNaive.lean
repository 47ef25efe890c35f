import Mathlib.Data.Multiset.UnionInter
import Mathlib.Data.Sym.Sym2
import Mathlib.Tactic.Linarith
import Musi.Js.Joined
import Musi.DriftAi.FeatureHash
import Musi.DriftAi.NearDuplicates

namespace Musi.DriftAi
open Musi.Js
set_option autoImplicit true

/-! ## The similarity is symmetric -/

/-- The right list takes from the counts of the left one what the lists have in common. -/
theorem takeCounts_eq (counts : JsMap Nat) (left : Multiset JsString) (right : List JsString)
    (h : ∀ k, (counts.get k).getD 0 = left.count k) :
    takeCounts counts right = ((right : Multiset JsString) ∩ left).card := by
  induction right generalizing counts left with
  | nil => rw [Multiset.coe_nil, Multiset.zero_inter]; rfl
  | cons item right ih =>
    rw [takeCounts, h item, ← Multiset.cons_coe]
    by_cases hcount : left.count item = 0
    · rw [if_pos hcount, ih counts left h,
        Multiset.cons_inter_of_neg _ (Multiset.count_eq_zero.1 hcount)]
    · have hmem : item ∈ left := Multiset.count_pos.1 (Nat.pos_of_ne_zero hcount)
      rw [if_neg hcount, Multiset.cons_inter_of_pos _ hmem, Multiset.card_cons]
      refine congrArg (· + 1) (ih _ _ fun k => ?_)
      rw [JsMap.get_set]
      by_cases hk : k = item
      · subst hk
        rw [if_pos rfl, Option.getD_some, Multiset.count_erase_self]
      · rw [if_neg hk, h k, Multiset.count_erase_of_ne hk]

theorem count_groupFold (left : List JsString) (k : JsString) :
    ((groupFold id (fun count _ => count.getD 0 + 1) JsMap.empty left).get k).getD 0 =
      (left : Multiset JsString).count k := by
  have hfold (bucket : Option Nat) (items : List JsString) :
      (items.foldl (fun count _ => some (count.getD 0 + 1)) bucket).getD 0 =
        bucket.getD 0 + items.length := by
    induction items generalizing bucket with
    | nil => rfl
    | cons item items ih =>
      rw [List.foldl_cons, ih, Option.getD_some, List.length_cons]
      omega
  rw [get_groupFold, hfold, JsMap.get_empty, Option.getD_none, Nat.zero_add, Multiset.count_eq_card_filter_eq,
    Multiset.filter_coe, Multiset.coe_card]
  refine congrArg List.length (List.filter_congr fun item _ => ?_)
  exact decide_eq_decide.2 eq_comm

theorem multisetDice_comm (left right : List JsString) :
    multisetDice left right = multisetDice right left := by
  rw [multisetDice, multisetDice]
  dsimp only
  rw [takeCounts_eq _ left right (count_groupFold left),
    takeCounts_eq _ right left (count_groupFold right), Multiset.inter_comm, Nat.add_comm]
  simp only [or_comm]

theorem compareFunctionFingerprints_comm (left right : NearDuplicateFunction) :
    compareFunctionFingerprints left right = compareFunctionFingerprints right left := by
  rw [compareFunctionFingerprints, compareFunctionFingerprints]
  rw [multisetDice_comm left.features, multisetDice_comm left.statementFeatures]

theorem rangesOverlapInSameFile_comm (left right : NearDuplicateFunctionRef) :
    rangesOverlapInSameFile left right = rangesOverlapInSameFile right left := by
  rw [rangesOverlapInSameFile, rangesOverlapInSameFile, Bool.and_comm]
  simp only [ne_comm]

/-! ## Pairs whatever their order -/

/-- What a pair reports, its sides unordered. -/
structure UnorderedPair where
  sides : Sym2 NearDuplicateFunctionRef
  similarity : Rat
  lineImpact : Nat
  score : Rat

def NearDuplicatePair.unordered (pair : NearDuplicatePair) : UnorderedPair where
  sides := s(pair.left, pair.right)
  similarity := pair.similarity
  lineImpact := pair.lineImpact
  score := pair.score

theorem unordered_canonicalPair (left right : NearDuplicateFunctionRef) (similarity : Rat) :
    (canonicalPair left right similarity).unordered =
      { sides := s(left, right), similarity := roundSimilarity similarity
        lineImpact := max left.lineCount right.lineCount
        score := roundScore ((max left.lineCount right.lineCount : Nat) *
          roundSimilarity similarity) } := by
  rw [canonicalPair]
  by_cases h : stringLess (locationKey right) (locationKey left) = true
  · rw [if_pos h]
    rw [NearDuplicatePair.unordered]
    dsimp only
    rw [Nat.max_comm right.lineCount, Sym2.eq_swap]
  · rw [if_neg h]
    rfl

/-- What two functions are reported as. -/
def unorderedOf (left right : NearDuplicateFunction) : UnorderedPair :=
  (canonicalPair left.toNearDuplicateFunctionRef right.toNearDuplicateFunctionRef
    (compareFunctionFingerprints left right)).unordered

theorem unorderedOf_comm (left right : NearDuplicateFunction) :
    unorderedOf left right = unorderedOf right left := by
  rw [unorderedOf, unorderedOf, unordered_canonicalPair, unordered_canonicalPair,
    compareFunctionFingerprints_comm, Sym2.eq_swap, Nat.max_comm]

/-! ## The token band within a sorted bucket -/

variable {config : ResolvedCompareConfig} {left right further : NearDuplicateFunction}

/-- What a longer function is close to in size, a shorter one is too. -/
theorem withinTokenBand_mono {ratio : Rat} (hleft : left.tokenCount ≤ right.tokenCount)
    (hright : right.tokenCount ≤ further.tokenCount) (hpos : 0 < right.tokenCount)
    (h : withinTokenBand left further ratio = true) : withinTokenBand left right ratio = true := by
  rw [withinTokenBand] at h ⊢
  rw [Nat.min_eq_left (hleft.trans hright), Nat.max_eq_right (hleft.trans hright),
    if_neg (by omega), decide_eq_true_eq] at h
  rw [Nat.min_eq_left hleft, Nat.max_eq_right hleft, if_neg (by omega), decide_eq_true_eq]
  refine h.trans ?_
  have hpos' : (0 : Rat) < right.tokenCount := by exact_mod_cast hpos
  have hle : (right.tokenCount : Rat) ≤ further.tokenCount := by exact_mod_cast hright
  exact div_le_div_of_nonneg_left (Nat.cast_nonneg _) hpos' hle

/-- The tests that a pair of a bucket has to pass. -/
def keepsPair (config : ResolvedCompareConfig) (left right : NearDuplicateFunction) : Bool :=
  withinTokenBand left right config.tokenBandRatio &&
    !rangesOverlapInSameFile left.toNearDuplicateFunctionRef right.toNearDuplicateFunctionRef &&
    compareFunctionFingerprints left right ≥ config.similarityThreshold

def reportedPair (left right : NearDuplicateFunction) : NearDuplicatePair :=
  canonicalPair left.toNearDuplicateFunctionRef right.toNearDuplicateFunctionRef
    (compareFunctionFingerprints left right)

theorem addPairIfSimilar_eq (pairs : List NearDuplicatePair)
    (hband : withinTokenBand left right config.tokenBandRatio = true) :
    addPairIfSimilar left right config.similarityThreshold pairs =
      pairs ++ if keepsPair config left right then [reportedPair left right] else [] := by
  rw [addPairIfSimilar, keepsPair, hband, Bool.true_and]
  cases rangesOverlapInSameFile left.toNearDuplicateFunctionRef right.toNearDuplicateFunctionRef with
  | true => exact (List.append_nil _).symm
  | false =>
    dsimp only
    by_cases h : compareFunctionFingerprints left right ≥ config.similarityThreshold
    · simp only [h]
      rfl
    · simp only [h]
      exact (List.append_nil _).symm

/-- Functions in the order of their sizes, none of them empty. -/
structure SizeOrdered (candidates : List NearDuplicateFunction) : Prop where
  ordered : candidates.Pairwise fun left right => left.tokenCount ≤ right.tokenCount
  positive : ∀ candidate ∈ candidates, 0 < candidate.tokenCount

theorem SizeOrdered.tail {candidate : NearDuplicateFunction}
    {candidates : List NearDuplicateFunction} (h : SizeOrdered (candidate :: candidates)) :
    SizeOrdered candidates where
  ordered := (List.pairwise_cons.1 h.ordered).2
  positive := fun c hc => h.positive c (List.mem_cons_of_mem _ hc)

/-- The scan that stops at the first function outside of the band loses no pair. -/
theorem addPairsForCandidate_eq {candidates : List NearDuplicateFunction}
    (h : SizeOrdered (left :: candidates)) (pairs : List NearDuplicatePair) :
    addPairsForCandidate left config candidates pairs =
      pairs ++ (candidates.filter (keepsPair config left)).map (reportedPair left) := by
  induction candidates generalizing pairs with
  | nil => exact (List.append_nil _).symm
  | cons right candidates ih =>
    obtain ⟨hleft, hright⟩ := List.pairwise_cons.1 h.ordered
    have htail : SizeOrdered (left :: candidates) :=
      ⟨h.ordered.sublist ((List.sublist_cons_self _ _).cons_cons _), fun c hc => h.positive c
        (List.mem_cons.2 ((List.mem_cons.1 hc).imp_right (List.mem_cons_of_mem _)))⟩
    rw [addPairsForCandidate]
    by_cases hband : withinTokenBand left right config.tokenBandRatio = true
    · rw [hband, Bool.not_true, if_neg (by simp), addPairIfSimilar_eq pairs hband, ih htail,
        List.filter_cons, List.append_assoc]
      by_cases hkeeps : keepsPair config left right = true
      · rw [if_pos hkeeps, if_pos hkeeps]
        rfl
      · rw [if_neg hkeeps, if_neg hkeeps, List.nil_append]
    · have hnone : (right :: candidates).filter (keepsPair config left) = [] := by
        refine List.filter_eq_nil_iff.2 fun further hfurther hkeeps => hband ?_
        rw [keepsPair, Bool.and_eq_true, Bool.and_eq_true] at hkeeps
        rcases List.mem_cons.1 hfurther with rfl | hfurther
        · exact hkeeps.1.1
        · exact withinTokenBand_mono (hleft right List.mem_cons_self)
            ((List.pairwise_cons.1 hright).1 further hfurther)
            (h.positive right (List.mem_cons_of_mem _ List.mem_cons_self)) hkeeps.1.1
      rw [eq_false_of_ne_true hband, Bool.not_false, if_pos rfl, hnone]
      exact (List.append_nil _).symm

theorem addPairsForBucket_eq {candidates : List NearDuplicateFunction} (h : SizeOrdered candidates)
    (pairs : List NearDuplicatePair) : addPairsForBucket config candidates pairs =
      pairs ++ ((placePairs candidates).filter fun e => keepsPair config e.1 e.2).map
        fun e => reportedPair e.1 e.2 := by
  induction candidates generalizing pairs with
  | nil => exact (List.append_nil _).symm
  | cons left candidates ih =>
    rw [addPairsForBucket, addPairsForCandidate_eq h, ih h.tail, placePairs, List.filter_append,
      List.map_append, List.filter_map, List.map_map, List.append_assoc]
    rfl

/-! ## Statement keys -/

/-- Statement features as the extractor hashes them: never empty and without the separator. -/
def PlainFeatures (item : NearDuplicateFunction) : Prop :=
  ∀ feature ∈ item.statementFeatures, feature ≠ [] ∧ unit '|' ∉ feature

theorem digit36_ne_separator : ∀ n < 36, digit36 n ≠ unit '|' := by decide

theorem toString36_plain (fuel n : Nat) : unit '|' ∉ toString36 fuel n := by
  induction fuel generalizing n with
  | zero => exact List.not_mem_nil
  | succ fuel ih =>
    rw [toString36]
    split
    · next hn =>
      rw [List.mem_singleton]
      exact fun h => digit36_ne_separator n hn h.symm
    · rw [List.mem_append, List.mem_singleton]
      rintro (h | h)
      · exact ih _ h
      · exact digit36_ne_separator _ (Nat.mod_lt _ (by omega)) h.symm

theorem hashFeature_plain (value : JsString) :
    hashFeature value ≠ [] ∧ unit '|' ∉ hashFeature value := by
  refine ⟨?_, toString36_plain _ _⟩
  rw [hashFeature, toString36]
  split
  · exact List.cons_ne_nil _ _
  · exact List.append_ne_nil_of_right_ne_nil _ (List.cons_ne_nil _ _)

section
variable [Locale]

theorem statementBucketKey_eq_iff (hlocale : StrictComparator Locale.localeCompare)
    (hleft : PlainFeatures left) (hright : PlainFeatures right) :
    statementBucketKey left = statementBucketKey right ↔
      left.statementFeatures.Perm right.statementFeatures := by
  have hseparator : js "|" = [unit '|'] := by decide
  rw [statementBucketKey, statementBucketKey, hseparator]
  constructor
  · intro h
    have hsorted := join_injective (fun feature hf => hleft feature (mem_sortBy.1 hf))
      (fun feature hf => hright feature (mem_sortBy.1 hf)) h
    exact (sortBy_perm _ _).symm.trans ((List.Perm.of_eq hsorted).trans (sortBy_perm _ _))
  · intro h
    rw [sortBy_eq_of_perm hlocale h]

theorem compareByTokenThenLocation_consistent : ConsistentComparator compareByTokenThenLocation :=
  (subtractNat_strict.toConsistentComparator.comap fun item : NearDuplicateFunction =>
    item.tokenCount).orElse
      ((Locale.localeCompare_consistent.comap fun item : NearDuplicateFunction =>
        item.filePath).orElse
          (subtractNat_strict.toConsistentComparator.comap fun item : NearDuplicateFunction =>
            item.startLine))

/-! ## The naive search -/

/-- Two functions that the naive search reports. -/
def areNearDuplicates (config : ResolvedCompareConfig) (left right : NearDuplicateFunction) : Bool :=
  isCandidate config left && isCandidate config right &&
    decide (left.statementFeatures.Perm right.statementFeatures) &&
    decide (((min left.tokenCount right.tokenCount : Nat) : Rat) /
      (max left.tokenCount right.tokenCount : Nat) ≥ 1 - config.tokenBandRatio) &&
    !rangesOverlapInSameFile left.toNearDuplicateFunctionRef right.toNearDuplicateFunctionRef &&
    decide (compareFunctionFingerprints left right ≥ config.similarityThreshold)

omit [Locale] in
theorem validateCompareConfig_ok (h : validateCompareConfig config = .ok ()) :
    1 ≤ config.minTokens := by
  rw [validateCompareConfig] at h
  by_cases hints : (!isPositiveInteger config.minLines || !isPositiveInteger config.minTokens) = true
  · rw [if_pos hints] at h
    cases h
  · rw [Bool.not_eq_true, Bool.or_eq_false_iff, Bool.not_eq_false', Bool.not_eq_false'] at hints
    have hmin := hints.2
    rw [isPositiveInteger, Bool.and_eq_true, decide_eq_true_eq, decide_eq_true_eq] at hmin
    exact hmin.2

/-- The candidates as the search sorts them. -/
def sortedCandidates (config : ResolvedCompareConfig) (functions : List NearDuplicateFunction) :
    List NearDuplicateFunction :=
  sortBy compareByTokenThenLocation (functions.filter (isCandidate config))

theorem sizeOrdered_sortedCandidates (hconfig : validateCompareConfig config = .ok ())
    (functions : List NearDuplicateFunction) : SizeOrdered (sortedCandidates config functions) where
  ordered := (sortBy_sorted compareByTokenThenLocation_consistent _).imp fun {a b} hab => by
    rw [compareByTokenThenLocation, orElse_le, subtractNat] at hab
    omega
  positive := by
    intro candidate hcandidate
    have hkept := (List.mem_filter.1 (mem_sortBy.1 hcandidate)).2
    rw [isCandidate, Bool.and_eq_true, decide_eq_true_eq, decide_eq_true_eq] at hkept
    have hone : (1 : Rat) ≤ candidate.tokenCount := (validateCompareConfig_ok hconfig).trans hkept.2
    exact_mod_cast hone

omit [Locale] in
theorem SizeOrdered.filter {candidates : List NearDuplicateFunction} (h : SizeOrdered candidates)
    (p : NearDuplicateFunction → Bool) : SizeOrdered (candidates.filter p) where
  ordered := h.ordered.filter p
  positive := fun c hc => h.positive c (List.mem_of_mem_filter hc)

/-- The pairs of the buckets are the pairs with one statement key. -/
theorem foldl_candidateBuckets (config : ResolvedCompareConfig)
    {candidates : List NearDuplicateFunction} (h : SizeOrdered candidates) :
    ((candidateBuckets candidates).foldl (fun pairs bucket =>
      addPairsForBucket config bucket pairs) []).Perm
      (((placePairs candidates).filter fun e =>
        decide (statementBucketKey e.1 = statementBucketKey e.2) && keepsPair config e.1 e.2).map
          fun e => reportedPair e.1 e.2) := by
  have hfold (bucketList : List (List NearDuplicateFunction)) (hsized : ∀ b ∈ bucketList, SizeOrdered b)
      (pairs : List NearDuplicatePair) :
      bucketList.foldl (fun pairs bucket => addPairsForBucket config bucket pairs) pairs =
        pairs ++ bucketList.flatMap fun bucket =>
          ((placePairs bucket).filter fun e => keepsPair config e.1 e.2).map
            fun e => reportedPair e.1 e.2 := by
    induction bucketList generalizing pairs with
    | nil => exact (List.append_nil _).symm
    | cons bucket bucketList ih =>
      rw [List.foldl_cons, addPairsForBucket_eq (hsized bucket List.mem_cons_self),
        ih (fun b hb => hsized b (List.mem_cons_of_mem _ hb)), List.flatMap_cons, List.append_assoc]
  have hbuckets {bucket : List NearDuplicateFunction} (hb : bucket ∈ candidateBuckets candidates) :
      SizeOrdered bucket := by
    obtain ⟨e, he, rfl⟩ := List.mem_map.1 (List.mem_of_mem_filter hb)
    rw [((mem_buckets _ _).1 he).2]
    exact h.filter _
  rw [hfold _ (fun b hb => hbuckets hb), List.nil_append]
  have hlong (bucketList : List (List NearDuplicateFunction)) :
      ((bucketList.filter fun bucket => bucket.length > 1).flatMap fun bucket =>
        ((placePairs bucket).filter fun e => keepsPair config e.1 e.2).map
          fun e => reportedPair e.1 e.2) = bucketList.flatMap fun bucket =>
        ((placePairs bucket).filter fun e => keepsPair config e.1 e.2).map
          fun e => reportedPair e.1 e.2 := by
    induction bucketList with
    | nil => rfl
    | cons bucket bucketList ih =>
      rw [List.filter_cons, List.flatMap_cons]
      by_cases hlength : bucket.length > 1
      · rw [if_pos (decide_eq_true hlength), List.flatMap_cons, ih]
      · rw [if_neg (by simpa using hlength), ih]
        match bucket with
        | [] => rfl
        | [item] => rfl
        | _ :: _ :: _ => simp at hlength
  rw [candidateBuckets, hlong, List.flatMap_map, ← List.map_flatMap, ← List.filter_flatMap]
  have hperm := ((placePairs_buckets statementBucketKey candidates).symm.filter fun e =>
    keepsPair config e.1 e.2).map fun e => reportedPair e.1 e.2
  rw [List.filter_filter] at hperm
  refine hperm.trans (.of_eq (congrArg₂ List.map rfl (List.filter_congr fun e _ => ?_)))
  exact Bool.and_comm _ _

omit [Locale] in
theorem areNearDuplicates_comm (config : ResolvedCompareConfig) (left right : NearDuplicateFunction) :
    areNearDuplicates config left right = areNearDuplicates config right left := by
  rw [areNearDuplicates, areNearDuplicates, Bool.and_comm (isCandidate config left),
    rangesOverlapInSameFile_comm, compareFunctionFingerprints_comm, Nat.min_comm, Nat.max_comm,
    decide_eq_decide.2 (List.perm_comm : left.statementFeatures.Perm right.statementFeatures ↔ _)]

/-- On candidates with plain features the tests of the search are those of the naive search. -/
theorem keepsPair_iff (hlocale : StrictComparator Locale.localeCompare)
    (hleft : isCandidate config left = true) (hright : isCandidate config right = true)
    (hpositive : 0 < left.tokenCount) (hplain : PlainFeatures left) (hplain' : PlainFeatures right) :
    (decide (statementBucketKey left = statementBucketKey right) && keepsPair config left right) =
      areNearDuplicates config left right := by
  have hupper : max left.tokenCount right.tokenCount ≠ 0 := by omega
  rw [areNearDuplicates, hleft, hright, keepsPair, withinTokenBand, if_neg hupper]
  simp only [statementBucketKey_eq_iff hlocale hplain hplain', Bool.true_and, Bool.and_assoc]

theorem findNearDuplicatePairs_ok (hlocale : StrictComparator Locale.localeCompare)
    (functions : List NearDuplicateFunction) (options : NearDuplicateCompareOptions)
    (hconfig : validateCompareConfig (compareConfig options) = .ok ())
    (hplain : ∀ item ∈ functions, PlainFeatures item) :
    ∃ pairs, findNearDuplicatePairs functions options = .ok pairs ∧
      (pairs.map NearDuplicatePair.unordered).Perm
        (((placePairs functions).filter fun e =>
          areNearDuplicates (compareConfig options) e.1 e.2).map fun e => unorderedOf e.1 e.2) := by
  set config := compareConfig options with hdefault
  have hsized := sizeOrdered_sortedCandidates hconfig functions
  refine ⟨_, by rw [findNearDuplicatePairs, ← hdefault, hconfig]; rfl, ?_⟩
  have hbuckets := (foldl_candidateBuckets config hsized).map NearDuplicatePair.unordered
  refine ((sortBy_perm _ _).map _).trans (hbuckets.trans ?_)
  rw [List.map_map]
  have hkept : ((placePairs (sortedCandidates config functions)).filter fun e =>
      decide (statementBucketKey e.1 = statementBucketKey e.2) && keepsPair config e.1 e.2) =
      (placePairs (sortedCandidates config functions)).filter fun e =>
        areNearDuplicates config e.1 e.2 := by
    refine List.filter_congr fun e he => ?_
    have hmem := mem_of_mem_placePairs he
    have hleft := List.mem_filter.1 (mem_sortBy.1 hmem.1)
    have hright := List.mem_filter.1 (mem_sortBy.1 hmem.2)
    exact keepsPair_iff hlocale hleft.2 hright.2 (hsized.positive _ hmem.1) (hplain _ hleft.1)
      (hplain _ hright.1)
  rw [hkept]
  refine (placePairs_perm (sortBy_perm _ _) unorderedOf_comm (areNearDuplicates_comm config)).trans
    (.of_eq ?_)
  rw [placePairs_filter, List.filter_filter]
  refine congrArg₂ List.map rfl (List.filter_congr fun e _ => ?_)
  rw [areNearDuplicates]
  cases isCandidate config e.1 with
  | false => rfl
  | true =>
    cases isCandidate config e.2 with
    | false => rfl
    | true => simp only [Bool.true_and, Bool.and_true]

/-- The search by buckets reports what the naive search does, each pair once, whatever the order
of the list. -/
theorem findNearDuplicatePairs_naive (hlocale : StrictComparator Locale.localeCompare)
    (functions : List NearDuplicateFunction) (options : NearDuplicateCompareOptions)
    (hconfig : validateCompareConfig (compareConfig options) = .ok ())
    (hplain : ∀ item ∈ functions, PlainFeatures item) :
    ∃ pairs, findNearDuplicatePairs functions options = .ok pairs ∧
      (pairs.map NearDuplicatePair.unordered).Perm
        (((placePairs functions).filter fun e =>
          areNearDuplicates (compareConfig options) e.1 e.2).map fun e => unorderedOf e.1 e.2) ∧
      ∀ functions', functions.Perm functions' → ∃ pairs',
        findNearDuplicatePairs functions' options = .ok pairs' ∧
          (pairs'.map NearDuplicatePair.unordered).Perm (pairs.map NearDuplicatePair.unordered) := by
  obtain ⟨pairs, hpairs, hnaive⟩ := findNearDuplicatePairs_ok hlocale functions options hconfig hplain
  refine ⟨pairs, hpairs, hnaive, fun functions' hperm => ?_⟩
  obtain ⟨pairs', hpairs', hnaive'⟩ := findNearDuplicatePairs_ok hlocale functions' options hconfig
    fun item hitem => hplain item (hperm.mem_iff.2 hitem)
  refine ⟨pairs', hpairs', hnaive'.trans ((placePairs_perm hperm.symm unorderedOf_comm
    (areNearDuplicates_comm _)).trans hnaive.symm)⟩

end

/-! ## Keys that two feature lists share -/

/-- A function of one line range and some features, in a file of its own. -/
def functionIn (filePath : JsString) (statementFeatures : List JsString) : NearDuplicateFunction where
  filePath := filePath
  name := js "f"
  enclosingContext := []
  startOffset := none
  endOffset := none
  startLine := 1
  endLine := 9
  lineCount := 9
  tokenCount := 50
  features := [js "x"]
  statementFeatures := statementFeatures
  exactTokens := []

theorem findNearDuplicatePairs_naive_hashed :
    ∃ pairs, findNearDuplicatePairs [functionIn (js "a.ts") [hashFeature (js "Block")],
      functionIn (js "b.ts") [hashFeature (js "Block")]] {} = .ok pairs ∧ pairs.length = 1 := by
  have hplain : ∀ item ∈ [functionIn (js "a.ts") [hashFeature (js "Block")],
      functionIn (js "b.ts") [hashFeature (js "Block")]], PlainFeatures item := by
    intro item hitem feature hfeature
    rw [List.mem_cons, List.mem_singleton] at hitem
    rcases hitem with rfl | rfl
    · rw [List.mem_singleton.1 hfeature]
      exact hashFeature_plain _
    · rw [List.mem_singleton.1 hfeature]
      exact hashFeature_plain _
  obtain ⟨pairs, hpairs, hnaive, -⟩ := findNearDuplicatePairs_naive compareCodeUnits_strict
    [functionIn (js "a.ts") [hashFeature (js "Block")],
      functionIn (js "b.ts") [hashFeature (js "Block")]] {} (by decide +kernel) hplain
  refine ⟨pairs, hpairs, ?_⟩
  have hlength := hnaive.length_eq
  rw [List.length_map, List.length_map] at hlength
  rw [hlength]
  decide +kernel

/-- One feature with the separator in it and the two features around it share a key, although they
are not the same multiset. -/
theorem findNearDuplicatePairs_naive_fails :
    ¬ ∀ (functions : List NearDuplicateFunction) (options : NearDuplicateCompareOptions),
      validateCompareConfig (compareConfig options) = .ok () →
      ∃ pairs, findNearDuplicatePairs functions options = .ok pairs ∧
        (pairs.map NearDuplicatePair.unordered).Perm
          (((placePairs functions).filter fun e =>
            areNearDuplicates (compareConfig options) e.1 e.2).map fun e => unorderedOf e.1 e.2) := by
  intro hnaive
  obtain ⟨pairs, hpairs, hperm⟩ := hnaive [functionIn (js "a.ts") [js "a|b"],
    functionIn (js "b.ts") [js "a", js "b"]] { similarityThreshold := some (1 / 2) }
    (by decide +kernel)
  have hnone : ((placePairs [functionIn (js "a.ts") [js "a|b"],
      functionIn (js "b.ts") [js "a", js "b"]]).filter fun e =>
        areNearDuplicates (compareConfig { similarityThreshold := some (1 / 2) }) e.1 e.2) = [] := by
    decide +kernel
  have hone : ((findNearDuplicatePairs [functionIn (js "a.ts") [js "a|b"],
      functionIn (js "b.ts") [js "a", js "b"]] { similarityThreshold := some (1 / 2) }).toOption.map
        List.length) = some 1 := by
    decide +kernel
  rw [hnone, List.map_nil] at hperm
  rw [hpairs, List.map_eq_nil_iff.1 hperm.eq_nil] at hone
  cases hone

end Musi.DriftAi
