import Musi.DriftAi.GhostMatch

namespace Musi.DriftAi
open Musi.Js Musi.System
set_option autoImplicit true

/-! ## The pairwise check of a directory -/

structure CurrentPairContext where
  dependentsHint : JsString
  roleMarkerTokens : List JsString
  sourceExtensions : List JsString
  tuning : GhostFileTuning
  allowedPairKeys : List JsString

/-- What a check found, and the keys of the pairs it emitted. -/
structure PairState where
  findings : List DriftFinding
  emittedPairs : List JsString

section

variable [Locale] [CaseMapping] (context : CurrentPairContext)

def addCurrentPairFinding (state : PairState) (pair : JsString × JsString) : PairState :=
  let (left, right) := pair
  if left.length = 0 ∨ right.length = 0 then state
  else
    let key := pairKey left right
    if key ∈ context.allowedPairKeys then state
    else if key ∈ state.emittedPairs then state
    else match tryFindGhostMatchEitherDirection left right context.sourceExtensions context.tuning with
      | none => state
      | some found =>
        if found.kind = .weakSuffixVariant ∧ isRoleSplitFamilyPair left right context.roleMarkerTokens
        then state
        else
          { findings := state.findings ++ [currentPairFinding found context.dependentsHint]
            emittedPairs := state.emittedPairs ++ [key] }

/-- The findings of the pairs that were not emitted before. -/
def runPairwise (siblings emittedPairs : List JsString) : PairState :=
  (placePairs (uniqSorted siblings)).foldl (addCurrentPairFinding context) ⟨[], emittedPairs⟩

end

/-! ## The check by buckets -/

def ghostFilesBucketCap : Nat := 50

structure TokenBucket where
  key : JsString
  files : List JsString

structure OversizedBucket where
  key : JsString
  size : Nat

structure TokenizedFile where
  filePath : JsString
  normalized : JsString
  strong : List JsString

def tokenizeFileForBuckets [CaseMapping] (filePath : JsString) (weakTokens : List JsString) :
    TokenizedFile :=
  let tokens := normalizedTokens (lastSegment filePath)
  { filePath, normalized := join (js "-") tokens, strong := strongTokens tokens weakTokens }

/-- The members of a bucket, each once. -/
def addTokenBucketMember (buckets : JsMap (List JsString)) (key filePath : JsString) :
    JsMap (List JsString) :=
  if endsWith key (js ":") then buckets
  else
    let bucket := (buckets.get key).getD []
    buckets.set key (if filePath ∈ bucket then bucket else bucket ++ [filePath])

section

variable [Locale]

def addTokenizedFile (buckets : JsMap (List JsString)) (file : TokenizedFile) :
    JsMap (List JsString) :=
  (uniqSorted file.strong).foldl
    (fun buckets token => addTokenBucketMember buckets (js "strong:" ++ token) file.filePath)
    (addTokenBucketMember buckets (js "identical-normalized:" ++ file.normalized) file.filePath)

def toTokenBucket (entry : JsString × List JsString) : TokenBucket :=
  { key := entry.1, files := uniqSorted entry.2 }

def compareBucket (left right : TokenBucket) : Int := Locale.localeCompare left.key right.key

def tokenBuckets [CaseMapping] (siblings weakTokens : List JsString) : List TokenBucket :=
  let buckets := (siblings.map fun sibling => tokenizeFileForBuckets sibling weakTokens).foldl
    addTokenizedFile JsMap.empty
  sortBy compareBucket (buckets.entries.map toTokenBucket)

def compareOversizedBucket (left right : OversizedBucket) : Int :=
  Locale.localeCompare left.key right.key

def compareLargestOversizedBucket (left right : OversizedBucket) : Int :=
  let difference : Int := right.size - left.size
  if difference ≠ 0 then difference else Locale.localeCompare left.key right.key

def oversizedBucketHint : JsString :=
  js "rerun with --root <narrower path> or tighten ignore globs in drift-ai.config.json."

def oversizedBucketFinding (directory : JsString) (bucket : OversizedBucket) : DriftFinding where
  check := js "ghost-files"
  file := directory
  message := js "directory " ++ directory ++ js " has bucket '" ++ bucket.key ++ js "' with " ++
    natText bucket.size ++ js " entries (cap " ++ natText ghostFilesBucketCap ++
    js "); skipping pairwise comparison."
  hint := oversizedBucketHint
  relatedFiles := none

def largestBucketSummary (oversized : List OversizedBucket) : JsString :=
  join (js ", ") (((sortBy compareLargestOversizedBucket oversized).take 5).map fun bucket =>
    bucket.key ++ js "(" ++ natText bucket.size ++ js ")")

def collapsedOversizedBucketFinding (directory : JsString) (oversized : List OversizedBucket) :
    DriftFinding where
  check := js "ghost-files"
  file := directory
  message := js "directory " ++ directory ++ js " has " ++ natText oversized.length ++
    js " oversized buckets (cap " ++ natText ghostFilesBucketCap ++ js "); largest: " ++
    largestBucketSummary oversized ++ js "."
  hint := oversizedBucketHint
  relatedFiles := none

def oversizedBucketFindings (directory : JsString) (oversized : List OversizedBucket) :
    List DriftFinding :=
  if oversized.length = 0 then []
  else if oversized.length ≥ 3 then [collapsedOversizedBucketFinding directory oversized]
  else (sortBy compareOversizedBucket oversized).map (oversizedBucketFinding directory)

/-- What the buckets gave so far. -/
structure BucketState where
  findings : List DriftFinding
  emittedPairs : List JsString
  oversized : List OversizedBucket

def runBucket (pairwise : List JsString → List JsString → PairState) (state : BucketState)
    (bucket : TokenBucket) : BucketState :=
  if bucket.files.length ≤ ghostFilesBucketCap then
    let ran := pairwise bucket.files state.emittedPairs
    { state with findings := state.findings ++ ran.findings, emittedPairs := ran.emittedPairs }
  else { state with oversized := state.oversized ++ [⟨bucket.key, bucket.files.length⟩] }

def runBucketedDirectory [CaseMapping] (directory : JsString) (siblings : List JsString)
    (tuning : GhostFileTuning) (pairwise : List JsString → List JsString → PairState) :
    List DriftFinding :=
  let state := (tokenBuckets siblings tuning.weakTokens).foldl (runBucket pairwise) ⟨[], [], []⟩
  state.findings ++ oversizedBucketFindings directory state.oversized

end

def ghostFilesDirectoryPairThreshold : Nat := 300

def runCurrentDirectoryCheck [Locale] [CaseMapping] (directory : JsString) (siblings : List JsString)
    (tuning : GhostFileTuning) (pairwise : List JsString → List JsString → PairState) :
    List DriftFinding :=
  if siblings.length ≤ ghostFilesDirectoryPairThreshold then (pairwise siblings []).findings
  else runBucketedDirectory directory siblings tuning pairwise

/-! ## The files of a bucket -/

/-- The keys that a file is put under. -/
def bucketKeys [CaseMapping] (weakTokens : List JsString) (filePath : JsString) : List JsString :=
  let tokens := normalizedTokens (lastSegment filePath)
  (js "identical-normalized:" ++ join (js "-") tokens) ::
    (strongTokens tokens weakTokens).map fun token => js "strong:" ++ token

/-- What the buckets hold under a key. -/
def filesUnder (buckets : JsMap (List JsString)) (key : JsString) : List JsString :=
  (buckets.get key).getD []

theorem filesUnder_addTokenBucketMember (buckets : JsMap (List JsString)) (key filePath k : JsString) :
    filesUnder (addTokenBucketMember buckets key filePath) k =
      if k = key ∧ ¬ endsWith key (js ":") ∧ filePath ∉ filesUnder buckets k then
        filesUnder buckets k ++ [filePath]
      else filesUnder buckets k := by
  rw [addTokenBucketMember]
  by_cases hcolon : endsWith key (js ":") = true
  · rw [if_pos hcolon, if_neg fun h => h.2.1 hcolon]
  · rw [if_neg hcolon]
    simp only [filesUnder, JsMap.get_set]
    by_cases hk : k = key
    · subst hk
      by_cases hmem : filePath ∈ (buckets.get k).getD []
      · simp [hmem]
      · simp [hmem, hcolon]
    · simp [hk]

/-- A file that is put under several keys is added once under each. -/
theorem filesUnder_foldl (keys : List JsString) (buckets : JsMap (List JsString)) (filePath k : JsString) :
    filesUnder (keys.foldl (fun buckets key => addTokenBucketMember buckets key filePath) buckets) k =
      if k ∈ keys ∧ ¬ endsWith k (js ":") ∧ filePath ∉ filesUnder buckets k then
        filesUnder buckets k ++ [filePath]
      else filesUnder buckets k := by
  induction keys generalizing buckets with
  | nil => simp
  | cons key keys ih =>
    rw [List.foldl_cons, ih, filesUnder_addTokenBucketMember]
    by_cases hk : k = key
    · subst hk
      by_cases hadds : ¬ endsWith k (js ":") ∧ filePath ∉ filesUnder buckets k
      · simp [hadds]
      · have hnone : ∀ p : Prop, ¬ (p ∧ ¬ endsWith k (js ":") ∧ filePath ∉ filesUnder buckets k) :=
          fun p h => hadds h.2
        rw [if_neg (hnone (k = k)), if_neg (hnone (k ∈ keys)), if_neg (hnone (k ∈ k :: keys))]
    · simp [hk]

section

variable [Locale] [CaseMapping] {weakTokens : List JsString}

theorem filesUnder_addTokenizedFile (buckets : JsMap (List JsString)) (filePath k : JsString) :
    filesUnder (addTokenizedFile buckets (tokenizeFileForBuckets filePath weakTokens)) k =
      if k ∈ bucketKeys weakTokens filePath ∧ ¬ endsWith k (js ":") ∧
          filePath ∉ filesUnder buckets k then filesUnder buckets k ++ [filePath]
      else filesUnder buckets k := by
  have hkeys : ∀ key, key ∈ (js "identical-normalized:" ++
      (tokenizeFileForBuckets filePath weakTokens).normalized) ::
      (uniqSorted (tokenizeFileForBuckets filePath weakTokens).strong).map
        (fun token => js "strong:" ++ token) ↔ key ∈ bucketKeys weakTokens filePath := by
    intro key
    simp [bucketKeys, tokenizeFileForBuckets, uniqSorted, List.mem_eraseDups]
  have hfold := filesUnder_foldl ((js "identical-normalized:" ++
    (tokenizeFileForBuckets filePath weakTokens).normalized) ::
    (uniqSorted (tokenizeFileForBuckets filePath weakTokens).strong).map
      (fun token => js "strong:" ++ token)) buckets filePath k
  rw [List.foldl_cons, List.foldl_map] at hfold
  simp only [hkeys] at hfold
  exact hfold

/-- Whether a file is found under a key. -/
def isUnder (weakTokens : List JsString) (key filePath : JsString) : Bool :=
  key ∈ bucketKeys weakTokens filePath ∧ ¬ endsWith key (js ":")

/-- A bucket holds the files of the directory that have its key, in their order. -/
theorem filesUnder_siblings {siblings : List JsString} (h : siblings.Nodup) (k : JsString) :
    filesUnder ((siblings.map fun sibling => tokenizeFileForBuckets sibling weakTokens).foldl
      addTokenizedFile JsMap.empty) k = siblings.filter (isUnder weakTokens k) := by
  induction siblings using List.reverseRecOn with
  | nil => rfl
  | append_singleton siblings sibling ih =>
    have hfresh : sibling ∉ siblings := by
      intro hmem
      exact (List.nodup_append.1 h).2.2 sibling hmem sibling (List.mem_singleton_self _) rfl
    rw [List.map_append, List.foldl_append, List.map_singleton, List.foldl_cons, List.foldl_nil,
      filesUnder_addTokenizedFile, ih (List.nodup_append.1 h).1, List.filter_append]
    have hout : sibling ∉ siblings.filter (isUnder weakTokens k) := fun hmem =>
      hfresh (List.mem_filter.1 hmem).1
    by_cases hunder : isUnder weakTokens k sibling = true
    · have hk := of_decide_eq_true hunder
      rw [if_pos ⟨hk.1, hk.2, hout⟩, List.filter_cons_of_pos hunder, List.filter_nil]
    · rw [if_neg fun hk => hunder (decide_eq_true ⟨hk.1, hk.2.1⟩), List.filter_cons_of_neg hunder,
        List.filter_nil, List.append_nil]

end

end Musi.DriftAi
