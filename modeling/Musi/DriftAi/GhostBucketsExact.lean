import Mathlib.Data.List.Perm.Basic
import Musi.DriftAi.GhostBuckets

namespace Musi.DriftAi
open Musi.Js Musi.System
set_option autoImplicit true

/-! ## Sorted pairs -/

/-- What a test keeps of a sorted list is what it keeps, sorted. -/
theorem sortBy_filter {α : Type} {cmp : α → α → Int} (h : ConsistentComparator cmp) {l : List α}
    (hl : l.Nodup) (p : α → Bool) : sortBy cmp (l.filter p) = (sortBy cmp l).filter p := by
  have hperm : (sortBy cmp (l.filter p)).Perm ((sortBy cmp l).filter p) :=
    (sortBy_perm cmp _).trans ((sortBy_perm cmp l).filter p).symm
  have hsorted : (sortBy cmp l).Nodup := nodup_sortBy.2 hl
  have hfiltered : (sortBy cmp (l.filter p)).Nodup := nodup_sortBy.2 (hl.filter p)
  refine eq_of_pairs hperm (hsorted.filter p) fun a b hab => ?_
  have hne : a ≠ b := by simpa using hfiltered.sublist hab
  have hle {a b : α} {m : List α} (hm : [a, b].Sublist (sortBy cmp m)) : cmp a b ≤ 0 :=
    List.pairwise_iff_forall_sublist.1 (sortBy_sorted h m) hm
  have ha : a ∈ l.filter p := mem_sortBy.1 (hab.subset List.mem_cons_self)
  have hb : b ∈ l.filter p := mem_sortBy.1 (hab.subset (by simp))
  have hpair : [a, b].Sublist (sortBy cmp l) := by
    have hfirst : [a, b].Sublist (l.filter p) → [a, b].Sublist (sortBy cmp l) := fun hsub =>
      pair_sortBy (hle hab) (hsub.trans List.filter_sublist)
    rcases pair_total (mem_sortBy.2 (List.mem_filter.1 ha).1) (mem_sortBy.2 (List.mem_filter.1 hb).1)
      hne with hgoal | hback
    · exact hgoal
    · rcases pair_total ha hb hne with hsub | hsub
      · exact hfirst hsub
      · exact absurd (pair_sortBy (hle hback) hsub) (pair_antisymm hfiltered hab)
  have hkept := hpair.filter p
  rwa [List.filter_cons_of_pos (List.mem_filter.1 ha).2,
    List.filter_cons_of_pos (List.mem_filter.1 hb).2, List.filter_nil] at hkept

theorem eraseDups_eq_self {values : List JsString} (h : values.Nodup) : values.eraseDups = values := by
  induction values with
  | nil => rfl
  | cons value values ih =>
    obtain ⟨hvalue, hvalues⟩ := List.nodup_cons.1 h
    rw [List.eraseDups_cons, List.filter_eq_self.2, ih hvalues]
    intro other hother
    have hne : other ≠ value := fun heq => hvalue (heq ▸ hother)
    simpa using hne

/-! ## Pairs by their keys -/

/-- The paths of a directory: distinct, and without a NUL, as file names are. -/
structure DirectoryListing where
  files : List JsString
  nodup : files.Nodup
  noNul : ∀ file ∈ files, (0 : UInt16) ∉ file

theorem orderedPair_cases (left right : JsString) :
    orderedPair left right = (left, right) ∨ orderedPair left right = (right, left) := by
  rw [orderedPair]
  split
  · exact .inl rfl
  · exact .inr rfl

theorem orderedPair_comm (left right : JsString) : orderedPair left right = orderedPair right left := by
  rw [orderedPair, orderedPair]
  split
  · next hle =>
    split
    · next hge =>
      have heq := compareCodeUnits_strict.antisymm hle hge
      rw [heq]
    · rfl
  · next hle =>
    rw [if_pos ((compareCodeUnits_strict.toConsistentComparator.total left right).resolve_left hle)]

theorem pairKey_injective {left right left' right' : JsString} (hleft : (0 : UInt16) ∉ left)
    (hright : (0 : UInt16) ∉ right) (hleft' : (0 : UInt16) ∉ left') (hright' : (0 : UInt16) ∉ right')
    (h : pairKey left right = pairKey left' right') :
    left = left' ∧ right = right' ∨ left = right' ∧ right = left' := by
  have hsplit : ∀ s t s' t' : JsString, (0 : UInt16) ∉ s → (0 : UInt16) ∉ s' → (0 : UInt16) ∉ t →
      s ++ 0 :: t = s' ++ 0 :: t' → s = s' ∧ t = t' := by
    intro s t s' t' hs _ ht heq
    have := (List.append_cons_inj_of_notMem hs ht).1 heq
    exact ⟨this.1, this.2.2⟩
  rw [pairKey, pairKey] at h
  rcases orderedPair_cases left right with hpair | hpair <;>
    rcases orderedPair_cases left' right' with hpair' | hpair' <;> rw [hpair, hpair'] at h
  · exact .inl (hsplit _ _ _ _ hleft hleft' hright h)
  · exact .inr (hsplit _ _ _ _ hleft hright' hright h)
  · exact .inr (hsplit _ _ _ _ hright hleft' hleft h).symm
  · exact .inl (hsplit _ _ _ _ hright hright' hleft h).symm

/-- Of the pairs of distinct paths, no two have one key. -/
theorem pairKey_injOn {files : List JsString} (hnodup : files.Nodup)
    (hnul : ∀ file ∈ files, (0 : UInt16) ∉ file) {e e' : JsString × JsString}
    (he : e ∈ placePairs files) (he' : e' ∈ placePairs files)
    (h : pairKey e.1 e.2 = pairKey e'.1 e'.2) : e = e' := by
  have hmem := mem_of_mem_placePairs he
  have hmem' := mem_of_mem_placePairs he'
  rcases pairKey_injective (hnul _ hmem.1) (hnul _ hmem.2) (hnul _ hmem'.1) (hnul _ hmem'.2) h with
    hsame | hswap
  · exact Prod.ext hsame.1 hsame.2
  · have hback := sublist_of_mem_placePairs he'
    rw [← hswap.1, ← hswap.2] at hback
    exact absurd hback (pair_antisymm hnodup (sublist_of_mem_placePairs he))

section

variable [Locale]

/-- The pairs of a directory, in its order. -/
def DirectoryListing.pairs (listing : DirectoryListing) : List (JsString × JsString) :=
  placePairs (sortBy Locale.localeCompare listing.files)

theorem DirectoryListing.pairs_injective (listing : DirectoryListing) {e e' : JsString × JsString}
    (he : e ∈ listing.pairs) (he' : e' ∈ listing.pairs) (h : pairKey e.1 e.2 = pairKey e'.1 e'.2) :
    e = e' :=
  pairKey_injOn (nodup_sortBy.2 listing.nodup)
    (fun file hfile => listing.noNul file (mem_sortBy.1 hfile)) he he' h

variable [CaseMapping] (context : CurrentPairContext)

/-- The finding of a pair that was not emitted. -/
def pairFinding (pair : JsString × JsString) : Option DriftFinding :=
  if pair.1.length = 0 ∨ pair.2.length = 0 then none
  else if pairKey pair.1 pair.2 ∈ context.allowedPairKeys then none
  else match tryFindGhostMatchEitherDirection pair.1 pair.2 context.sourceExtensions context.tuning with
    | none => none
    | some found =>
      if found.kind = .weakSuffixVariant ∧ isRoleSplitFamilyPair pair.1 pair.2 context.roleMarkerTokens
      then none
      else some (currentPairFinding found context.dependentsHint)

variable {context}

theorem addCurrentPairFinding_eq (state : PairState) (pair : JsString × JsString) :
    addCurrentPairFinding context state pair =
      if pairKey pair.1 pair.2 ∈ state.emittedPairs then state
      else match pairFinding context pair with
        | none => state
        | some finding =>
          { findings := state.findings ++ [finding]
            emittedPairs := state.emittedPairs ++ [pairKey pair.1 pair.2] } := by
  obtain ⟨left, right⟩ := pair
  rw [addCurrentPairFinding, pairFinding]
  dsimp only
  by_cases hempty : left.length = 0 ∨ right.length = 0
  · simp only [if_pos hempty, ite_self]
  · rw [if_neg hempty, if_neg hempty]
    by_cases hallowed : pairKey left right ∈ context.allowedPairKeys
    · simp only [if_pos hallowed, ite_self]
    · rw [if_neg hallowed, if_neg hallowed]
      cases tryFindGhostMatchEitherDirection left right context.sourceExtensions context.tuning with
      | none => rfl
      | some found =>
        dsimp only
        by_cases hrole : found.kind = .weakSuffixVariant ∧
            isRoleSplitFamilyPair left right context.roleMarkerTokens
        · simp only [if_pos hrole]
        · simp only [if_neg hrole]

theorem pairFinding_some {pair : JsString × JsString} {finding : DriftFinding}
    (h : pairFinding context pair = some finding) : Shares context.tuning.weakTokens pair.1 pair.2 ∧
      finding.relatedFiles = some [(orderedPair pair.1 pair.2).1, (orderedPair pair.1 pair.2).2] := by
  rw [pairFinding] at h
  split at h
  · cases h
  · split at h
    · cases h
    · split at h
      · cases h
      · next found hfound =>
        split at h
        · cases h
        · obtain rfl := Option.some.inj h
          obtain ⟨hshares, hpaths⟩ := tryFindGhostMatchEitherDirection_shares hfound
          refine ⟨hshares, ?_⟩
          rcases hpaths with ⟨hnew, hpeer⟩ | ⟨hnew, hpeer⟩
          · rw [currentPairFinding, hnew, hpeer]
          · rw [currentPairFinding, hnew, hpeer, orderedPair_comm]

/-! ## Emitted pairs -/

/-- After some pairs, those with a finding were emitted, each once. -/
structure Emitted (context : CurrentPairContext) (pairs kept : List (JsString × JsString))
    (state : PairState) : Prop where
  findings : state.findings = kept.filterMap (pairFinding context)
  emitted : state.emittedPairs = kept.map fun pair => pairKey pair.1 pair.2
  nodup : kept.Nodup
  mem : ∀ pair, pair ∈ kept ↔ pair ∈ pairs ∧ (pairFinding context pair).isSome

theorem Emitted.step {listing : DirectoryListing} {pairs kept : List (JsString × JsString)}
    {state : PairState} (h : Emitted context pairs kept state) {pair : JsString × JsString}
    (hpairs : ∀ e ∈ pairs, e ∈ listing.pairs) (hpair : pair ∈ listing.pairs) :
    ∃ kept', Emitted context (pairs ++ [pair]) kept' (addCurrentPairFinding context state pair) := by
  have hkey : pairKey pair.1 pair.2 ∈ state.emittedPairs ↔ pair ∈ kept := by
    rw [h.emitted, List.mem_map]
    constructor
    · rintro ⟨e, he, heq⟩
      rwa [listing.pairs_injective hpair (hpairs e ((h.mem e).1 he).1) heq.symm]
    · intro hmem
      exact ⟨pair, hmem, rfl⟩
  have hsame (hmem : pair ∈ kept ∨ pairFinding context pair = none) :
      Emitted context (pairs ++ [pair]) kept state := by
    refine ⟨h.findings, h.emitted, h.nodup, fun e => ?_⟩
    rw [h.mem, List.mem_append, List.mem_singleton]
    constructor
    · rintro ⟨he, hsome⟩
      exact ⟨.inl he, hsome⟩
    · rintro ⟨he | rfl, hsome⟩
      · exact ⟨he, hsome⟩
      · rcases hmem with hmem | hnone
        · exact (h.mem e).1 hmem
        · rw [hnone] at hsome
          cases hsome
  rw [addCurrentPairFinding_eq]
  split
  · next hemitted => exact ⟨kept, hsame (.inl (hkey.1 hemitted))⟩
  · next hfresh =>
    split
    · next hnone => exact ⟨kept, hsame (.inr hnone)⟩
    · next finding hfinding =>
      refine ⟨kept ++ [pair], ?_, ?_, ?_, fun e => ?_⟩
      · rw [List.filterMap_append, ← h.findings, List.filterMap_cons_some hfinding, List.filterMap_nil]
      · rw [List.map_append, ← h.emitted, List.map_singleton]
      · refine List.nodup_append.2 ⟨h.nodup, List.nodup_singleton pair, ?_⟩
        rintro e he e' he' rfl
        rw [List.mem_singleton] at he'
        exact hfresh (hkey.2 (he' ▸ he))
      · rw [List.mem_append, List.mem_append, List.mem_singleton, h.mem]
        constructor
        · rintro (⟨he, hsome⟩ | rfl)
          · exact ⟨.inl he, hsome⟩
          · exact ⟨.inr rfl, hfinding ▸ rfl⟩
        · rintro ⟨he | rfl, hsome⟩
          · exact .inl ⟨he, hsome⟩
          · exact .inr rfl

theorem emitted_foldl (context : CurrentPairContext) {listing : DirectoryListing} {pairs : List (JsString × JsString)}
    (hpairs : ∀ e ∈ pairs, e ∈ listing.pairs) :
    ∃ kept, Emitted context pairs kept (pairs.foldl (addCurrentPairFinding context) ⟨[], []⟩) := by
  induction pairs using List.reverseRecOn with
  | nil => exact ⟨[], rfl, rfl, List.nodup_nil, by simp⟩
  | append_singleton pairs pair ih =>
    have hbefore : ∀ e ∈ pairs, e ∈ listing.pairs := fun e he => hpairs e (List.mem_append_left _ he)
    obtain ⟨kept, hkept⟩ := ih hbefore
    rw [List.foldl_append, List.foldl_cons, List.foldl_nil]
    exact hkept.step hbefore (hpairs pair (List.mem_append_right _ (List.mem_singleton_self pair)))

/-- The order of the pairs, and how often one comes up, leaves the findings the same. -/
theorem Emitted.perm {pairs pairs' kept kept' : List (JsString × JsString)} {state state' : PairState}
    (h : Emitted context pairs kept state) (h' : Emitted context pairs' kept' state')
    (hsame : ∀ e, (pairFinding context e).isSome → (e ∈ pairs ↔ e ∈ pairs')) :
    state.findings.Perm state'.findings := by
  have hperm : kept.Perm kept' := by
    refine (List.perm_ext_iff_of_nodup h.nodup h'.nodup).2 fun e => ?_
    rw [h.mem, h'.mem]
    constructor
    · rintro ⟨he, hsome⟩
      exact ⟨(hsame e hsome).1 he, hsome⟩
    · rintro ⟨he, hsome⟩
      exact ⟨(hsame e hsome).2 he, hsome⟩
  rw [h.findings, h'.findings]
  exact hperm.filterMap _

/-- A pair has one finding. -/
theorem Emitted.nodup_relatedFiles {listing : DirectoryListing} {pairs kept : List (JsString × JsString)}
    {state : PairState} (h : Emitted context pairs kept state) (hpairs : ∀ e ∈ pairs, e ∈ listing.pairs) :
    (state.findings.map DriftFinding.relatedFiles).Nodup := by
  have hrelated : ∀ kept : List (JsString × JsString),
      (∀ e ∈ kept, (pairFinding context e).isSome) →
      (kept.filterMap (pairFinding context)).map DriftFinding.relatedFiles =
        kept.map fun e => some [(orderedPair e.1 e.2).1, (orderedPair e.1 e.2).2] := by
    intro kept
    induction kept with
    | nil => exact fun _ => rfl
    | cons e kept ih =>
      intro hsome
      rw [List.forall_mem_cons] at hsome
      obtain ⟨finding, hfinding⟩ := Option.isSome_iff_exists.1 hsome.1
      rw [List.filterMap_cons_some hfinding, List.map_cons, List.map_cons, ih hsome.2,
        (pairFinding_some hfinding).2]
  rw [h.findings, hrelated kept fun e he => ((h.mem e).1 he).2]
  refine List.Nodup.map_on (fun e he e' he' heq => ?_) h.nodup
  refine listing.pairs_injective (hpairs e ((h.mem e).1 he).1) (hpairs e' ((h.mem e').1 he').1) ?_
  simp only [Option.some.injEq, List.cons.injEq, and_true] at heq
  rw [pairKey, pairKey, heq.1, heq.2]

/-! ## The pairs of the buckets -/

theorem foldl_addCurrentPairFinding (pairs : List (JsString × JsString)) (findings : List DriftFinding)
    (emitted : List JsString) :
    pairs.foldl (addCurrentPairFinding context) ⟨findings, emitted⟩ =
      ⟨findings ++ (pairs.foldl (addCurrentPairFinding context) ⟨[], emitted⟩).findings,
        (pairs.foldl (addCurrentPairFinding context) ⟨[], emitted⟩).emittedPairs⟩ := by
  induction pairs generalizing findings emitted with
  | nil => simp
  | cons pair pairs ih =>
    rw [List.foldl_cons, List.foldl_cons, addCurrentPairFinding_eq, addCurrentPairFinding_eq]
    dsimp only
    split
    · exact ih findings emitted
    · cases pairFinding context pair with
      | none => exact ih findings emitted
      | some finding =>
        dsimp only
        rw [ih (findings ++ [finding]), ih ([] ++ [finding])]
        simp

/-- The buckets within the cap are one run over their pairs. -/
theorem foldl_runBucket {buckets : List TokenBucket}
    (hcap : ∀ bucket ∈ buckets, bucket.files.length ≤ ghostFilesBucketCap)
    (findings : List DriftFinding) (emitted : List JsString) :
    buckets.foldl (runBucket (runPairwise context)) ⟨findings, emitted, []⟩ =
      let state := (buckets.flatMap fun bucket => placePairs (uniqSorted bucket.files)).foldl
        (addCurrentPairFinding context) ⟨findings, emitted⟩
      ⟨state.findings, state.emittedPairs, []⟩ := by
  induction buckets generalizing findings emitted with
  | nil => rfl
  | cons bucket buckets ih =>
    rw [List.forall_mem_cons] at hcap
    rw [List.foldl_cons, runBucket, if_pos hcap.1, ih hcap.2, List.flatMap_cons, List.foldl_append,
      foldl_addCurrentPairFinding (placePairs (uniqSorted bucket.files)) findings]
    rfl

omit [CaseMapping] in
theorem uniqSorted_of_nodup {values : List JsString} (h : values.Nodup) :
    uniqSorted values = sortBy Locale.localeCompare values := by
  rw [uniqSorted, eraseDups_eq_self h]

/-- The buckets that a file name can be found in. -/
theorem mem_tokenBuckets (listing : DirectoryListing) (weakTokens : List JsString) :
    (∀ bucket ∈ tokenBuckets listing.files weakTokens, ∃ key, uniqSorted bucket.files =
        (sortBy Locale.localeCompare listing.files).filter (isUnder weakTokens key)) ∧
      ∀ key file, file ∈ listing.files → isUnder weakTokens key file = true →
        ∃ bucket ∈ tokenBuckets listing.files weakTokens, uniqSorted bucket.files =
          (sortBy Locale.localeCompare listing.files).filter (isUnder weakTokens key) := by
  have hfiles : ∀ key, uniqSorted (uniqSorted (listing.files.filter (isUnder weakTokens key))) =
      (sortBy Locale.localeCompare listing.files).filter (isUnder weakTokens key) := by
    intro key
    rw [uniqSorted_of_nodup (listing.nodup.filter _),
      uniqSorted_of_nodup (nodup_sortBy.2 (listing.nodup.filter _)),
      sortBy_idem Locale.localeCompare_consistent, sortBy_filter Locale.localeCompare_consistent
        listing.nodup]
  have hunder (key : JsString) : filesUnder ((listing.files.map fun sibling =>
      tokenizeFileForBuckets sibling weakTokens).foldl addTokenizedFile JsMap.empty) key =
        listing.files.filter (isUnder weakTokens key) := filesUnder_siblings listing.nodup key
  constructor
  · intro bucket hbucket
    obtain ⟨⟨key, files⟩, hentry, rfl⟩ := List.mem_map.1 (mem_sortBy.1 hbucket)
    have hget := JsMap.mem_entries.1 hentry
    refine ⟨key, ?_⟩
    rw [← hfiles, ← hunder key, filesUnder, hget]
    rfl
  · intro key file hfile hkey
    have hmem : file ∈ filesUnder ((listing.files.map fun sibling =>
        tokenizeFileForBuckets sibling weakTokens).foldl addTokenizedFile JsMap.empty) key := by
      rw [hunder]
      exact List.mem_filter.2 ⟨hfile, hkey⟩
    rw [filesUnder] at hmem
    cases hget : ((listing.files.map fun sibling =>
        tokenizeFileForBuckets sibling weakTokens).foldl addTokenizedFile JsMap.empty).get key with
    | none =>
      rw [hget] at hmem
      cases hmem
    | some files =>
      refine ⟨toTokenBucket (key, files), mem_sortBy.2 (List.mem_map_of_mem (JsMap.mem_entries.2 hget)),
        ?_⟩
      rw [← hfiles, ← hunder key, filesUnder, hget]
      rfl

omit [Locale] [CaseMapping] in
/-- A key that ends in a token is not skipped. -/
theorem not_endsWith_colon {pre s : JsString} (hne : s ≠ []) (h : unit ':' ∉ s) :
    ¬ endsWith (pre ++ s) (js ":") = true := by
  rw [endsWith_iff]
  rintro ⟨t, ht⟩
  have hcolon : js ":" = [unit ':'] := rfl
  rw [hcolon] at ht
  have hlast : (t ++ [unit ':']).getLast? = (pre ++ s).getLast? := by rw [ht]
  rw [List.getLast?_concat, List.getLast?_append_of_ne_nil _ hne] at hlast
  exact h (List.mem_of_getLast? hlast.symm)

omit [Locale] [CaseMapping] in
theorem IsToken.notMem_colon {token : JsString} (h : IsToken token) : unit ':' ∉ token := by
  intro hmem
  have := h.2 _ hmem
  revert this
  decide

omit [Locale] [CaseMapping] in
theorem join_ne_nil {sep : JsString} {parts : List JsString} (h : parts ≠ [])
    (hparts : ∀ part ∈ parts, part ≠ []) : join sep parts ≠ [] := by
  match parts, h, hparts with
  | [part], _, hparts => exact hparts part List.mem_cons_self
  | part :: next :: rest, _, hparts =>
    rw [join, List.append_assoc]
    exact List.append_ne_nil_of_left_ne_nil (hparts part List.mem_cons_self) _

omit [Locale] in
/-- Names that share something are found under a common key. -/
theorem Shares.isUnder {weakTokens : List JsString} {left right : JsString}
    (h : Shares weakTokens left right) :
    ∃ key, isUnder weakTokens key left = true ∧ isUnder weakTokens key right = true := by
  obtain ⟨hleft, hright, hnormalized | ⟨token, hl, hr⟩⟩ := h
  · have hcolon : unit ':' ∉ join (js "-") (normalizedTokens (lastSegment left)) := by
      intro hmem
      rcases mem_join hmem with hmem | ⟨token, htoken, hmem⟩
      · revert hmem
        decide
      · exact (isToken_normalizedTokens htoken).notMem_colon hmem
    have hne : join (js "-") (normalizedTokens (lastSegment left)) ≠ [] :=
      join_ne_nil hleft fun token htoken => (isToken_normalizedTokens htoken).1
    refine ⟨js "identical-normalized:" ++ join (js "-") (normalizedTokens (lastSegment left)), ?_, ?_⟩
    · exact decide_eq_true ⟨List.mem_cons_self, not_endsWith_colon hne hcolon⟩
    · refine decide_eq_true ⟨?_, not_endsWith_colon hne hcolon⟩
      rw [hnormalized]
      exact List.mem_cons_self
  · have htoken : IsToken token := isToken_normalizedTokens (List.mem_filter.1 hl).1
    have hcolon : ¬ endsWith (js "strong:" ++ token) (js ":") = true :=
      not_endsWith_colon htoken.1 htoken.notMem_colon
    exact ⟨js "strong:" ++ token,
      decide_eq_true ⟨List.mem_cons_of_mem _ (List.mem_map_of_mem hl), hcolon⟩,
      decide_eq_true ⟨List.mem_cons_of_mem _ (List.mem_map_of_mem hr), hcolon⟩⟩

/-- The pairs of the buckets are pairs of the directory, with every pair that has a finding. -/
theorem bucketPairs (context : CurrentPairContext) (listing : DirectoryListing) :
    let bucketPairs := (tokenBuckets listing.files context.tuning.weakTokens).flatMap fun bucket =>
      placePairs (uniqSorted bucket.files)
    (∀ e ∈ bucketPairs, e ∈ listing.pairs) ∧
      ∀ e, (pairFinding context e).isSome → (e ∈ bucketPairs ↔ e ∈ listing.pairs) := by
  obtain ⟨hbuckets, hfound⟩ := mem_tokenBuckets listing context.tuning.weakTokens
  have hsub : ∀ e ∈ (tokenBuckets listing.files context.tuning.weakTokens).flatMap fun bucket =>
      placePairs (uniqSorted bucket.files), e ∈ listing.pairs := by
    intro e he
    obtain ⟨bucket, hbucket, hmem⟩ := List.mem_flatMap.1 he
    obtain ⟨key, hkey⟩ := hbuckets bucket hbucket
    rw [hkey, placePairs_filter] at hmem
    exact (List.mem_filter.1 hmem).1
  refine ⟨hsub, fun e hsome => ⟨hsub e, fun he => ?_⟩⟩
  obtain ⟨finding, hfinding⟩ := Option.isSome_iff_exists.1 hsome
  obtain ⟨key, hleft, hright⟩ := (pairFinding_some hfinding).1.isUnder
  obtain ⟨bucket, hbucket, hfiles⟩ :=
    hfound key e.1 (mem_sortBy.1 (mem_of_mem_placePairs he).1) hleft
  refine List.mem_flatMap.2 ⟨bucket, hbucket, ?_⟩
  rw [hfiles, placePairs_filter]
  exact List.mem_filter.2 ⟨he, by rw [hleft, hright]; rfl⟩

/-- Without a bucket beyond the cap, the buckets give what the pairwise check gives, and a pair no
more than once; the bounded distance it uses decides its bound. -/
theorem runBucketedDirectory_pairwise (directory : JsString) (listing : DirectoryListing)
    (context : CurrentPairContext)
    (hcap : ∀ bucket ∈ tokenBuckets listing.files context.tuning.weakTokens,
      bucket.files.length ≤ ghostFilesBucketCap) :
    (runBucketedDirectory directory listing.files context.tuning (runPairwise context)).Perm
        (runPairwise context listing.files []).findings ∧
      ((runBucketedDirectory directory listing.files context.tuning (runPairwise context)).map
        DriftFinding.relatedFiles).Nodup ∧
      ∀ (a b : JsString) (cap : Int),
        levenshteinBounded a b cap ≤ cap ↔ (editDistance a b : Int) ≤ cap := by
  obtain ⟨hsub, hsame⟩ := bucketPairs context listing
  obtain ⟨kept, hkept⟩ := emitted_foldl context hsub
  have hself : ∀ e ∈ listing.pairs, e ∈ listing.pairs := fun e he => he
  obtain ⟨kept', hkept'⟩ := emitted_foldl context hself
  have hbuckets : runBucketedDirectory directory listing.files context.tuning (runPairwise context) =
      (((tokenBuckets listing.files context.tuning.weakTokens).flatMap fun bucket =>
        placePairs (uniqSorted bucket.files)).foldl (addCurrentPairFinding context) ⟨[], []⟩).findings := by
    rw [runBucketedDirectory, foldl_runBucket hcap]
    exact List.append_nil _
  have hpairwise : runPairwise context listing.files [] =
      listing.pairs.foldl (addCurrentPairFinding context) ⟨[], []⟩ := by
    rw [runPairwise, uniqSorted_of_nodup listing.nodup]
    rfl
  rw [hbuckets, hpairwise]
  exact ⟨hkept.perm hkept' hsame, hkept.nodup_relatedFiles hsub, levenshteinBounded_le_iff⟩

end

/-- Two names that the buckets and the pairwise check both report. -/
theorem runBucketedDirectory_pairwise_sibling :
    (runBucketedDirectory (js "src") [js "src/auth.ts", js "src/auth-util.ts"]
      ⟨[js "util"], [js "index"]⟩ (runPairwise ⟨js "\x7bpath\x7d", [js "type"], [js ".ts"],
        ⟨[js "util"], [js "index"]⟩, []⟩)).Perm
      (runPairwise ⟨js "\x7bpath\x7d", [js "type"], [js ".ts"], ⟨[js "util"], [js "index"]⟩, []⟩
        [js "src/auth.ts", js "src/auth-util.ts"] []).findings ∧
    (runPairwise ⟨js "\x7bpath\x7d", [js "type"], [js ".ts"], ⟨[js "util"], [js "index"]⟩, []⟩
        [js "src/auth.ts", js "src/auth-util.ts"] []).findings.length = 1 :=
  ⟨(runBucketedDirectory_pairwise (js "src")
    ⟨[js "src/auth.ts", js "src/auth-util.ts"], by decide +kernel, by decide +kernel⟩
    ⟨js "\x7bpath\x7d", [js "type"], [js ".ts"], ⟨[js "util"], [js "index"]⟩, []⟩
    (List.forall_iff_forall_mem.1 (by decide +kernel))).1, by decide +kernel⟩

end Musi.DriftAi
