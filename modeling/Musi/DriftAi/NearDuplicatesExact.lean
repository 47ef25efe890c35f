import Musi.DriftAi.NearDuplicates

namespace Musi.DriftAi
open Musi.Js
set_option autoImplicit true

def exactNearDuplicateMinLines : Nat := 3

def exactNearDuplicateMinTokens : Nat := 15

def exactNearDuplicateMaxEqualityGroup : Nat := 100

def exactNearDuplicateMaxProjectedPairs : Nat := 50000

def exactIncludePrefixes : List JsString := [js "eslint-rules/", js "scripts/"]

def exactExcludeGlobs : List JsString :=
  [js "**/*.test.*", js "**/*.spec.*", js "**/__tests__/**", js "**/test/**", js "**/tests/**",
    js "**/fixtures/**", js "**/__fixtures__/**", js "**/*.fixture.*", js "**/generated/**",
    js "**/*.generated.*", js "**/*.gen.*", js "**/*.d.ts"]

def isExactCloneFileEligible (filePath : JsString) : Bool :=
  exactIncludePrefixes.any (startsWith filePath) && !matchesAnyGlob filePath exactExcludeGlobs

inductive NearDuplicateTier where
  | exact
  | fuzzy
  deriving DecidableEq

structure NearDuplicateOccurrencePair extends NearDuplicatePair where
  tiers : List NearDuplicateTier
  primaryTier : NearDuplicateTier
  deriving DecidableEq

structure ExactCloneAudit where
  eligibleFunctions : Nat
  hashBuckets : Nat
  maximumRawHashBucketSize : Nat
  maximumEqualityGroupSize : Nat
  projectedPairs : Nat
  postOverlapPairs : Nat
  deriving DecidableEq

inductive ExactCloneResult where
  | ok (pairs : List NearDuplicateOccurrencePair) (audit : ExactCloneAudit)
  | failed (error : JsString) (audit : ExactCloneAudit)
  deriving DecidableEq

structure EncodedFunction where
  item : NearDuplicateFunction
  sequence : JsString

structure EqualityGroup where
  hash : JsString
  functions : List NearDuplicateFunction

def isExactEligible (item : NearDuplicateFunction) : Bool :=
  isExactCloneFileEligible item.filePath && item.lineCount ≥ exactNearDuplicateMinLines &&
    item.exactTokens.length ≥ exactNearDuplicateMinTokens

/-- Every part after its length. -/
def encodeIdentityParts (parts : List JsString) : JsString :=
  parts.flatMap fun part => natText part.length ++ js ":" ++ part

def encodeTokenSequence (tokens : List JsString) : JsString :=
  tokens.flatMap fun token => natText token.length ++ js ":" ++ token

def hashBuckets (functions : List NearDuplicateFunction) (hashSequence : JsString → JsString) :
    JsMap (List EncodedFunction) :=
  buckets (fun encoded => hashSequence encoded.sequence)
    (functions.map fun item => { item, sequence := encodeTokenSequence item.exactTokens })

def equalityGroups (hashed : JsMap (List EncodedFunction)) : List EqualityGroup :=
  hashed.entries.flatMap fun (hash, bucket) =>
    (buckets EncodedFunction.sequence bucket).entries.map fun group =>
      { hash, functions := group.2.map (·.item) }

def pairProjection (size : Nat) : Nat := size * (size - 1) / 2

def maximumSize {α : Type} (groups : List (List α)) : Nat :=
  groups.foldl (fun maximum group => max maximum group.length) 0

def occurrencesOverlap (left right : NearDuplicateFunctionRef) : Bool :=
  if left.filePath ≠ right.filePath then false
  else
    match left.startOffset, left.endOffset, right.startOffset, right.endOffset with
    | some leftStart, some leftEnd, some rightStart, some rightEnd =>
      leftStart < rightEnd && rightStart < leftEnd
    | _, _, _, _ => false

def exactPair (left right : NearDuplicateFunctionRef) : NearDuplicateOccurrencePair :=
  { buildNearDuplicatePair left right 1 with tiers := [.exact], primaryTier := .exact }

def occurrenceSideIdentity (item : NearDuplicateFunctionRef) : Except JsString JsString :=
  match item.startOffset, item.endOffset with
  | some startOffset, some endOffset =>
    .ok (encodeIdentityParts [item.filePath, item.enclosingContext, item.name, natText startOffset,
      natText endOffset])
  | _, _ =>
    .error (js "near-duplicates occurrence lacks offsets: " ++ item.filePath ++ js "#" ++ item.name)

def occurrencePairIdentity (left right : NearDuplicateFunctionRef) : Except JsString JsString := do
  let leftKey ← occurrenceSideIdentity left
  let rightKey ← occurrenceSideIdentity right
  pure (encodeIdentityParts
    (if stringLess rightKey leftKey then [rightKey, leftKey] else [leftKey, rightKey]))

/-- A pair after the identity by which it is sorted. -/
def identified (pair : NearDuplicateOccurrencePair) :
    Except JsString (JsString × NearDuplicateOccurrencePair) := do
  let identity ← occurrencePairIdentity pair.left pair.right
  pure (identity, pair)

/-- The loops over one group. -/
def groupPairs (group : EqualityGroup) : List NearDuplicateOccurrencePair :=
  ((placePairs group.functions).filter fun (left, right) =>
    !occurrencesOverlap left.toNearDuplicateFunctionRef right.toNearDuplicateFunctionRef).map
      fun (left, right) => exactPair left.toNearDuplicateFunctionRef right.toNearDuplicateFunctionRef

section
variable [Locale]

/-- A sort by a comparator that may throw: with fewer than two values it is not called, with more
it is called on each of them. Which of several errors is thrown is left to the engine. -/
def sortByIdentity (pairs : List NearDuplicateOccurrencePair) :
    Except JsString (List NearDuplicateOccurrencePair) :=
  if pairs.length < 2 then .ok pairs
  else do
    let keyed ← pairs.mapM identified
    pure ((sortBy (fun left right => Locale.localeCompare left.1 right.1) keyed).map Prod.snd)

def materializePairs (groups : List EqualityGroup) :
    Except JsString (List NearDuplicateOccurrencePair) :=
  sortByIdentity (groups.flatMap groupPairs)

/-- The loop over the groups that stops at the first cap exceeded, with the pairs projected. -/
def checkCaps (audit : Nat → ExactCloneAudit) :
    List EqualityGroup → Nat → Except (JsString × ExactCloneAudit) Nat
  | [], projectedPairs => .ok projectedPairs
  | group :: groups, before =>
    let projected := pairProjection group.functions.length
    let projectedPairs := before + projected
    if group.functions.length > exactNearDuplicateMaxEqualityGroup then
      .error (js "exact clone bucket " ++ group.hash.take 16 ++ js " has " ++
        natText group.functions.length ++ js " functions and " ++ natText projected ++
        js " projected pairs (maximum group " ++ natText exactNearDuplicateMaxEqualityGroup ++
        js ")", audit projectedPairs)
    else if projectedPairs > exactNearDuplicateMaxProjectedPairs then
      .error (js "exact clone groups project " ++ natText projectedPairs ++
        js " pairs (maximum " ++ natText exactNearDuplicateMaxProjectedPairs ++ js ")",
        audit projectedPairs)
    else checkCaps audit groups projectedPairs

/-- The checks of the groups, then their pairs; an error is what the search throws. -/
def cloneResult (audit : Nat → Nat → ExactCloneAudit) (groups : List EqualityGroup) :
    Except JsString ExactCloneResult :=
  match checkCaps (audit 0) groups 0 with
  | .error failure => .ok (.failed failure.1 failure.2)
  | .ok projectedPairs =>
    (materializePairs groups).map fun pairs => .ok pairs (audit pairs.length projectedPairs)

def findExactFunctionClonePairs (functions : List NearDuplicateFunction)
    (hashSequence : JsString → JsString) : Except JsString ExactCloneResult :=
  let eligible := functions.filter isExactEligible
  let hashed := hashBuckets eligible hashSequence
  let groups := equalityGroups hashed
  cloneResult (fun postOverlapPairs projectedPairs =>
    { eligibleFunctions := eligible.length, hashBuckets := hashed.keys.length
      maximumRawHashBucketSize := maximumSize (hashed.entries.map Prod.snd)
      maximumEqualityGroupSize := maximumSize (groups.map (·.functions))
      projectedPairs, postOverlapPairs }) groups

end

end Musi.DriftAi
