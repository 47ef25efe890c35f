import Mathlib.Data.Rat.Floor
import Musi.Js.Buckets
import Musi.Js.Order
import Musi.Js.Number
import Musi.DriftAi.PathUtil

namespace Musi.DriftAi
open Musi.Js
set_option autoImplicit true

structure NearDuplicateFunctionRef where
  filePath : JsString
  name : JsString
  enclosingContext : JsString
  startOffset : Option Nat
  endOffset : Option Nat
  startLine : Nat
  endLine : Nat
  lineCount : Nat
  tokenCount : Nat
  deriving DecidableEq

structure NearDuplicateFunction extends NearDuplicateFunctionRef where
  features : List JsString
  statementFeatures : List JsString
  exactTokens : List JsString
  deriving DecidableEq

structure NearDuplicatePair where
  left : NearDuplicateFunctionRef
  right : NearDuplicateFunctionRef
  similarity : Rat
  lineImpact : Nat
  score : Rat
  deriving DecidableEq

structure NearDuplicateCompareOptions where
  minLines : Option Rat := none
  minTokens : Option Rat := none
  similarityThreshold : Option Rat := none
  tokenBandRatio : Option Rat := none

structure ResolvedCompareConfig where
  minLines : Rat
  minTokens : Rat
  similarityThreshold : Rat
  tokenBandRatio : Rat

def compareConfig (options : NearDuplicateCompareOptions) : ResolvedCompareConfig where
  minLines := options.minLines.getD 8
  minTokens := options.minTokens.getD 45
  similarityThreshold := options.similarityThreshold.getD (85 / 100)
  tokenBandRatio := options.tokenBandRatio.getD (35 / 100)

def isPositiveInteger (value : Rat) : Bool := value.den = 1 && 1 ≤ value

def requireUnitInterval (name : JsString) (value : Rat) : Except JsString Unit :=
  if value < 0 ∨ 1 < value then .error (js "near-duplicates: " ++ name ++ js " must be within [0, 1]")
  else .ok ()

def validateCompareConfig (config : ResolvedCompareConfig) : Except JsString Unit := do
  if !isPositiveInteger config.minLines || !isPositiveInteger config.minTokens then
    throw (js "near-duplicates: minLines and minTokens must be integers >= 1")
  requireUnitInterval (js "similarityThreshold") config.similarityThreshold
  requireUnitInterval (js "tokenBandRatio") config.tokenBandRatio

/-! ## The similarity of two functions -/

/-- Math.round -/
def round (value : Rat) : Int := (value + 1 / 2).floor

def roundSimilarity (value : Rat) : Rat := round (value * 1000) / 1000

def roundScore (value : Rat) : Rat := round (value * 100) / 100

/-- The values of the right list that the counts of the left one still cover. -/
def takeCounts (counts : JsMap Nat) : List JsString → Nat
  | [] => 0
  | item :: right =>
    let count := (counts.get item).getD 0
    if count = 0 then takeCounts counts right
    else takeCounts (counts.set item (count - 1)) right + 1

def multisetDice (left right : List JsString) : Rat :=
  if left.length = 0 ∨ right.length = 0 then 0
  else
    let counts := groupFold id (fun count _ => count.getD 0 + 1) JsMap.empty left
    2 * (takeCounts counts right : Rat) / (left.length + right.length : Nat)

def compareFunctionFingerprints (left right : NearDuplicateFunction) : Rat :=
  let featureSimilarity := multisetDice left.features right.features
  let statementSimilarity := multisetDice left.statementFeatures right.statementFeatures
  roundSimilarity (featureSimilarity * (75 / 100) + statementSimilarity * (25 / 100))

def rangesOverlapInSameFile (left right : NearDuplicateFunctionRef) : Bool :=
  if left.filePath ≠ right.filePath then false
  else left.startLine ≤ right.endLine && right.startLine ≤ left.endLine

def locationKey (item : NearDuplicateFunctionRef) : JsString :=
  item.filePath ++ js ":" ++ padStart 8 (natText item.startLine)

def canonicalPair (left right : NearDuplicateFunctionRef) (similarity : Rat) : NearDuplicatePair :=
  let (first, second) :=
    if stringLess (locationKey right) (locationKey left) then (right, left) else (left, right)
  let rounded := roundSimilarity similarity
  let lineImpact := max first.lineCount second.lineCount
  { left := first, right := second, similarity := rounded, lineImpact
    score := roundScore (lineImpact * rounded) }

def buildNearDuplicatePair (left right : NearDuplicateFunctionRef) (similarity : Rat) :
    NearDuplicatePair := canonicalPair left right similarity

/-! ## The pairs of a list of functions -/

def withinTokenBand (left right : NearDuplicateFunction) (tokenBandRatio : Rat) : Bool :=
  let lower := min left.tokenCount right.tokenCount
  let upper := max left.tokenCount right.tokenCount
  if upper = 0 then false else (lower : Rat) / upper ≥ 1 - tokenBandRatio

section
variable [Locale]

def compareByTokenThenLocation (left right : NearDuplicateFunction) : Int :=
  orElse (subtractNat left.tokenCount right.tokenCount)
    (orElse (Locale.localeCompare left.filePath right.filePath)
      (subtractNat left.startLine right.startLine))

def statementBucketKey (candidate : NearDuplicateFunction) : JsString :=
  join (js "|") (sortBy Locale.localeCompare candidate.statementFeatures)

def candidateBuckets (candidates : List NearDuplicateFunction) : List (List NearDuplicateFunction) :=
  ((buckets statementBucketKey candidates).entries.map Prod.snd).filter fun bucket =>
    bucket.length > 1

def addPairIfSimilar (left right : NearDuplicateFunction) (threshold : Rat)
    (pairs : List NearDuplicatePair) : List NearDuplicatePair :=
  if rangesOverlapInSameFile left.toNearDuplicateFunctionRef right.toNearDuplicateFunctionRef then
    pairs
  else
    let similarity := compareFunctionFingerprints left right
    if similarity ≥ threshold then pairs ++ [canonicalPair left.toNearDuplicateFunctionRef
      right.toNearDuplicateFunctionRef similarity]
    else pairs

/-- The later candidates of a bucket, until the first outside of the band. -/
def addPairsForCandidate (left : NearDuplicateFunction) (config : ResolvedCompareConfig) :
    List NearDuplicateFunction → List NearDuplicatePair → List NearDuplicatePair
  | [], pairs => pairs
  | right :: candidates, pairs =>
    if !withinTokenBand left right config.tokenBandRatio then pairs
    else addPairsForCandidate left config candidates
      (addPairIfSimilar left right config.similarityThreshold pairs)

def addPairsForBucket (config : ResolvedCompareConfig) :
    List NearDuplicateFunction → List NearDuplicatePair → List NearDuplicatePair
  | [], pairs => pairs
  | left :: candidates, pairs =>
    addPairsForBucket config candidates (addPairsForCandidate left config candidates pairs)

def compareScoreThenLocation (left right : NearDuplicatePair) : Int :=
  orElse (compareRat right.score left.score)
    (orElse (Locale.localeCompare left.left.filePath right.left.filePath)
      (orElse (subtractNat left.left.startLine right.left.startLine)
        (orElse (Locale.localeCompare left.right.filePath right.right.filePath)
          (subtractNat left.right.startLine right.right.startLine))))

def sortNearDuplicatePairs (pairs : List NearDuplicatePair) : List NearDuplicatePair :=
  sortBy compareScoreThenLocation pairs

def isCandidate (config : ResolvedCompareConfig) (item : NearDuplicateFunction) : Bool :=
  (item.lineCount : Rat) ≥ config.minLines && (item.tokenCount : Rat) ≥ config.minTokens

def findNearDuplicatePairs (functions : List NearDuplicateFunction)
    (options : NearDuplicateCompareOptions) : Except JsString (List NearDuplicatePair) := do
  let config := compareConfig options
  validateCompareConfig config
  let candidates := sortBy compareByTokenThenLocation (functions.filter (isCandidate config))
  let pairs := (candidateBuckets candidates).foldl (fun pairs bucket =>
    addPairsForBucket config bucket pairs) []
  pure (sortNearDuplicatePairs pairs)

end

end Musi.DriftAi
