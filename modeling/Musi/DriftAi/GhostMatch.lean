import Musi.DriftAi.GhostTokens
import Musi.DriftAi.Levenshtein
import Musi.Js.Buckets
import Musi.Js.Number

namespace Musi.DriftAi
open Musi.Js Musi.System
set_option autoImplicit true

/-! ## A match of two file names -/

inductive GhostFileMatchKind where
  | identicalNormalized
  | weakSuffixVariant
  | nearEditDistance
  deriving DecidableEq

def GhostFileMatchKind.text : GhostFileMatchKind → JsString
  | identicalNormalized => js "identical-normalized"
  | weakSuffixVariant => js "weak-suffix-variant"
  | nearEditDistance => js "near-edit-distance"

structure GhostFileMatch where
  newPath : JsString
  peerPath : JsString
  kind : GhostFileMatchKind
  sharedTokens : List JsString
  deriving DecidableEq

structure GhostFileTuning where
  weakTokens : List JsString
  entryPointStems : List JsString

structure GhostCandidate where
  tokens : List JsString
  strong : List JsString
  normalized : JsString

section

variable [Locale]

def classifyMatch (new peer : GhostCandidate) : Option GhostFileMatchKind :=
  if new.normalized = peer.normalized then some .identicalNormalized
  else if intersection new.strong peer.strong = [] then none
  else if uniqSorted new.strong = uniqSorted peer.strong then some .weakSuffixVariant
  else if new.normalized.length ≥ 4 ∧ peer.normalized.length ≥ 4 ∧
      levenshteinBounded new.normalized peer.normalized 2 ≤ 2 then some .nearEditDistance
  else none

variable [CaseMapping]

def isSourceLike (value : JsString) (sourceExtensions : List JsString) : Bool :=
  CaseMapping.toLowerCase (extname value) ∈ sourceExtensions

def prepareGhostCandidate (filePath : JsString) (sourceExtensions weakTokens : List JsString) :
    Option GhostCandidate :=
  let base := lastSegment filePath
  if isExcludedPath filePath ∨ !isSourceLike base sourceExtensions then none
  else
    let tokens := normalizedTokens base
    if tokens.length = 0 then none
    else some { tokens, strong := strongTokens tokens weakTokens, normalized := join (js "-") tokens }

def isEntryPointCandidate (filePath : JsString) (entryPointStems : List JsString) : Bool :=
  CaseMapping.toLowerCase (basenameStem (lastSegment filePath)) ∈ entryPointStems

/-- The match with one peer. -/
def ghostMatch (newPath : JsString) (newCandidate : GhostCandidate) (sourceExtensions : List JsString)
    (tuning : GhostFileTuning) (peerPath : JsString) : Option GhostFileMatch :=
  if peerPath = newPath then none
  else do
    let peerCandidate ← prepareGhostCandidate peerPath sourceExtensions tuning.weakTokens
    let kind ← classifyMatch newCandidate peerCandidate
    some { newPath, peerPath, kind
           sharedTokens := intersection newCandidate.strong peerCandidate.strong }

def findGhostMatches (newPath : JsString) (peerPaths sourceExtensions : List JsString)
    (tuning : GhostFileTuning) : List GhostFileMatch :=
  match prepareGhostCandidate newPath sourceExtensions tuning.weakTokens with
  | none => []
  | some newCandidate =>
    if isEntryPointCandidate newPath tuning.entryPointStems then []
    else peerPaths.filterMap (ghostMatch newPath newCandidate sourceExtensions tuning)

def tryFindGhostMatchEitherDirection (left right : JsString) (sourceExtensions : List JsString)
    (tuning : GhostFileTuning) : Option GhostFileMatch :=
  match (findGhostMatches left [right] sourceExtensions tuning).head? with
  | some leftMatch => some leftMatch
  | none => (findGhostMatches right [left] sourceExtensions tuning).head?

end

/-! ## Role families -/

/-- Tokens that the other list cannot account for, each with one of its own. -/
def multisetDifference (source other : List JsString) : List JsString :=
  let remaining := other.foldl (fun counts token => counts.set token ((counts.get token).getD 0 + 1))
    (JsMap.empty : JsMap Nat)
  (source.foldl (fun (state : JsMap Nat × List JsString) token =>
    let count := (state.1.get token).getD 0
    if count > 0 then (state.1.set token (count - 1), state.2) else (state.1, state.2 ++ [token]))
    (remaining, [])).2

def symmetricMultisetDifference (left right : List JsString) : List JsString :=
  multisetDifference left right ++ multisetDifference right left

def isRoleSplitFamilyPair [CaseMapping] (leftPath rightPath : JsString)
    (roleMarkerTokens : List JsString) : Bool :=
  let left := normalizedTokens (lastSegment leftPath)
  let right := normalizedTokens (lastSegment rightPath)
  let differing := symmetricMultisetDifference left right
  if differing.length = 0 then false
  else
    let sharedTokens := left.filter fun token => token ∈ right
    differing.all fun token => token ∈ roleMarkerTokens ∨ token ∈ sharedTokens

/-! ## Findings -/

structure DriftFinding where
  check : JsString
  file : JsString
  message : JsString
  hint : JsString
  relatedFiles : Option (List JsString)
  deriving DecidableEq

/-- String.prototype.split on a text; the number counts the code units that are still part of a
separator. -/
def splitText (separator : JsString) : Nat → JsString → List JsString
  | _, [] => [[]]
  | skipped + 1, _ :: s => splitText separator skipped s
  | 0, c :: s =>
    if startsWith (c :: s) separator then [] :: splitText separator (separator.length - 1) s
    else match splitText separator 0 s with
      | [] => [[c]]
      | part :: parts => (c :: part) :: parts

def renderDependentsHint (template filePath : JsString) : JsString :=
  join filePath (splitText (js "\x7bpath\x7d") 0 template)

def orderedPair (left right : JsString) : JsString × JsString :=
  if compareCodeUnits left right ≤ 0 then (left, right) else (right, left)

/-- The two paths with a NUL between them. -/
def pairKey (left right : JsString) : JsString :=
  (orderedPair left right).1 ++ 0 :: (orderedPair left right).2

def currentPairMessage (left right : JsString) (found : GhostFileMatch) : JsString :=
  let tokens := if found.sharedTokens.length > 0 then join (js ", ") found.sharedTokens
    else js "(low overlap)"
  left ++ js " ↔ " ++ right ++ js " -- suspicious sibling pair (" ++ found.kind.text ++
    js "; shared tokens: " ++ tokens ++ js ")"

def currentPairHint (left right dependentsHint : JsString) : JsString :=
  js "review whether the pair should be merged, renamed, or documented as intentionally separate." ++
    js " " ++ renderDependentsHint dependentsHint left ++ js "; " ++
    renderDependentsHint dependentsHint right

def currentPairFinding (found : GhostFileMatch) (dependentsHint : JsString) : DriftFinding :=
  let (left, right) := orderedPair found.newPath found.peerPath
  { check := js "ghost-files"
    file := left
    message := currentPairMessage left right found
    hint := currentPairHint left right dependentsHint
    relatedFiles := some [left, right] }

example : renderDependentsHint (js "Check what imports \x7bpath\x7d") (js "a.ts") =
    js "Check what imports a.ts" := by decide +kernel

/-! ## Why two names match -/

variable [Locale] {new peer : GhostCandidate} {kind : GhostFileMatchKind}

/-- Names match when they are the same or share a strong token. -/
theorem classifyMatch_shares (h : classifyMatch new peer = some kind) :
    new.normalized = peer.normalized ∨ ∃ token, token ∈ new.strong ∧ token ∈ peer.strong := by
  rw [classifyMatch] at h
  split at h
  · next heq => exact .inl heq
  · split at h
    · cases h
    · next hshared =>
      obtain ⟨token, htoken⟩ := List.exists_mem_of_ne_nil _ hshared
      rw [intersection, List.mem_eraseDups, List.mem_filter, decide_eq_true_eq] at htoken
      exact .inr ⟨token, htoken⟩

variable [CaseMapping] {newPath peerPath : JsString} {extensions : List JsString}
  {tuning : GhostFileTuning} {found : GhostFileMatch}

omit [Locale] in
/-- What is prepared of a candidate. -/
theorem prepareGhostCandidate_some {filePath : JsString} {weakTokens : List JsString}
    {candidate : GhostCandidate} (h : prepareGhostCandidate filePath extensions weakTokens = some candidate) :
    normalizedTokens (lastSegment filePath) ≠ [] ∧
      candidate.normalized = join (js "-") (normalizedTokens (lastSegment filePath)) ∧
      candidate.strong = strongTokens (normalizedTokens (lastSegment filePath)) weakTokens := by
  rw [prepareGhostCandidate] at h
  dsimp only at h
  split at h
  · cases h
  · split at h
    · cases h
    · next hlength =>
      refine ⟨?_, ?_, ?_⟩
      · intro hnil
        exact hlength (List.length_eq_zero_iff.2 hnil)
      · rw [← Option.some.inj h]
      · rw [← Option.some.inj h]

/-- What two names have in common that makes them match. -/
def Shares (weakTokens : List JsString) (left right : JsString) : Prop :=
  normalizedTokens (lastSegment left) ≠ [] ∧ normalizedTokens (lastSegment right) ≠ [] ∧
    (join (js "-") (normalizedTokens (lastSegment left)) =
        join (js "-") (normalizedTokens (lastSegment right)) ∨
      ∃ token, token ∈ strongTokens (normalizedTokens (lastSegment left)) weakTokens ∧
        token ∈ strongTokens (normalizedTokens (lastSegment right)) weakTokens)

omit [Locale] in
theorem Shares.symm {weakTokens : List JsString} {left right : JsString}
    (h : Shares weakTokens left right) : Shares weakTokens right left := by
  refine ⟨h.2.1, h.1, ?_⟩
  rcases h.2.2 with heq | ⟨token, hleft, hright⟩
  · exact .inl heq.symm
  · exact .inr ⟨token, hright, hleft⟩

theorem findGhostMatches_shares (h : (findGhostMatches newPath [peerPath] extensions tuning).head? = some found) :
    Shares tuning.weakTokens newPath peerPath ∧ found.newPath = newPath ∧ found.peerPath = peerPath := by
  rw [findGhostMatches] at h
  split at h
  · cases h
  · next candidate hnew =>
    split at h
    · cases h
    · rw [List.head?_filterMap, List.findSome?_cons] at h
      split at h
      · next hmatch =>
        obtain rfl := Option.some.inj h
        rw [ghostMatch] at hmatch
        split at hmatch
        · cases hmatch
        · obtain ⟨peer, hpeer, hmatch⟩ := Option.bind_eq_some_iff.1 hmatch
          obtain ⟨kind, hkind, hmatch⟩ := Option.bind_eq_some_iff.1 hmatch
          obtain rfl := Option.some.inj hmatch
          obtain ⟨hnewTokens, hnewNormalized, hnewStrong⟩ := prepareGhostCandidate_some hnew
          obtain ⟨hpeerTokens, hpeerNormalized, hpeerStrong⟩ := prepareGhostCandidate_some hpeer
          refine ⟨⟨hnewTokens, hpeerTokens, ?_⟩, rfl, rfl⟩
          rw [← hnewNormalized, ← hpeerNormalized, ← hnewStrong, ← hpeerStrong]
          exact classifyMatch_shares hkind
      · cases h

/-- A match in either direction is between names that share something, and it is of this pair. -/
theorem tryFindGhostMatchEitherDirection_shares {left right : JsString}
    (h : tryFindGhostMatchEitherDirection left right extensions tuning = some found) :
    Shares tuning.weakTokens left right ∧
      (found.newPath = left ∧ found.peerPath = right ∨ found.newPath = right ∧ found.peerPath = left) := by
  rw [tryFindGhostMatchEitherDirection] at h
  split at h
  · next hleft =>
    obtain rfl := Option.some.inj h
    obtain ⟨hshares, hpaths⟩ := findGhostMatches_shares hleft
    exact ⟨hshares, .inl hpaths⟩
  · obtain ⟨hshares, hpaths⟩ := findGhostMatches_shares h
    exact ⟨hshares.symm, .inr hpaths⟩

end Musi.DriftAi
