import Musi.DriftAi.GhostMatch
import Musi.DriftAi.HotspotsHistory
import Musi.Js.Order
import Musi.Js.TokenCounts

namespace Musi.DriftAi
open Musi.Js
set_option autoImplicit true

section
variable {N : Type}

/-! ## Rows of a lens -/

def defaultAuthorLimit : Nat := 4
def defaultSubjectLimit : Nat := 3

structure HotspotAuthor where
  name : JsString
  commits : Nat

/-- The paths that a commit changes, each once. -/
def CommitRecord.paths (record : CommitRecord N) : List JsString :=
  (record.files.map CommitFileChange.path).eraseDups

def displayName (coAuthor : JsString) : JsString :=
  if unit '<' ∈ coAuthor then trim (coAuthor.takeWhile fun c => c ≠ unit '<') else trim coAuthor

def bump (counts : JsMap Nat) (name : JsString) : JsMap Nat :=
  let trimmed := trim name
  if trimmed.length = 0 then counts else counts.set trimmed (countOf counts trimmed + 1)

def bumpHands (counts : JsMap Nat) (record : CommitRecord N) : JsMap Nat :=
  record.coAuthors.foldl (fun counts coAuthor => bump counts (displayName coAuthor))
    (bump counts record.authorName)

def recentSubjects (records : List (CommitRecord N)) (touches : CommitRecord N → Bool) :
    List JsString :=
  ((records.filter touches).map CommitRecord.subject).take defaultSubjectLimit

/-- The units that need no quotes: `[\w./@+=-]`. -/
def isPlainArgUnit (c : UInt16) : Bool :=
  isDigit c || isLowerAlpha c || (0x41 ≤ c && c ≤ 0x5A) || c = unit '_' || c = unit '.' ||
    c = unit '/' || c = unit '@' || c = unit '+' || c = unit '=' || c = unit '-'

def shellQuoteArg (value : JsString) : JsString :=
  if value ≠ [] && value.all isPlainArgUnit then value
  else
    0x27 :: value.flatMap (fun c => if c = 0x27 then [0x27, 0x5C, 0x27, 0x27] else [c]) ++ [0x27]

/-- The columns of a row. What is read from its subjects is left open. -/
structure HotspotRowContext (Intent : Type) where
  authors : List HotspotAuthor
  recentSubjects : List JsString
  commitIntent : Intent
  inspectCommand : JsString

section
variable [Locale]

def compareAuthors (left right : HotspotAuthor) : Int :=
  orElse (subtractNat right.commits left.commits) (Locale.localeCompare left.name right.name)

def aggregateAuthors (records : List (CommitRecord N)) (touches : CommitRecord N → Bool) :
    List HotspotAuthor :=
  let counts := (records.filter touches).foldl bumpHands JsMap.empty
  (sortBy compareAuthors (counts.entries.map fun entry => ⟨entry.1, entry.2⟩)).take
    defaultAuthorLimit

def buildRowActionability {Intent : Type} (buildCommitIntentOverlay : List JsString → Intent)
    (records : List (CommitRecord N)) (touches : CommitRecord N → Bool)
    (inspectCommand : JsString) : HotspotRowContext Intent :=
  let subjects := Musi.DriftAi.recentSubjects records touches
  ⟨aggregateAuthors records touches, subjects, buildCommitIntentOverlay subjects, inspectCommand⟩

end

/-! ## The coupling lens -/

def defaultMinSupport : Int := 3
def defaultDegreeCap : Nat := 5
def defaultSweepCap : Int := 40

structure ReduceCouplingOptions where
  top : Nat
  minSupport : Option Int
  degreeCap : Option Nat
  sweepCap : Option Int

structure PairTally where
  a : JsString
  b : JsString
  coOccur : Nat

structure CouplingCandidate where
  a : JsString
  b : JsString
  coChanges : Nat
  revisionsA : Nat
  revisionsB : Nat
  score : Rat
  crossBoundary : Bool

structure CoChangeTally where
  pairs : JsMap PairTally
  coRevs : JsMap Nat

def bumpPair (pairs : JsMap PairTally) (pair : JsString × JsString) : JsMap PairTally :=
  let key := pairKey pair.1 pair.2
  match pairs.get key with
  | none => pairs.set key ⟨pair.1, pair.2, 1⟩
  | some existing => pairs.set key { existing with coOccur := existing.coOccur + 1 }

def bumpRevision (coRevs : JsMap Nat) (file : JsString) : JsMap Nat :=
  coRevs.set file (countOf coRevs file + 1)

def topSegment (path : JsString) : JsString := path.takeWhile fun c => c ≠ unit '/'

def toCandidate (coRevs : JsMap Nat) (pair : PairTally) : CouplingCandidate :=
  let revisionsA := (coRevs.get pair.a).getD pair.coOccur
  let revisionsB := (coRevs.get pair.b).getD pair.coOccur
  { a := pair.a
    b := pair.b
    coChanges := pair.coOccur
    revisionsA := revisionsA
    revisionsB := revisionsB
    score := (pair.coOccur : Rat) / (min revisionsA revisionsB : Nat)
    crossBoundary := topSegment pair.a ≠ topSegment pair.b }

/-- The loop over the ranked candidates, which ends with the first to fill the list. -/
def capDegreeFrom (degreeCap top : Nat) :
    JsMap Nat → List CouplingCandidate → List CouplingCandidate → List CouplingCandidate
  | _, selected, [] => selected
  | degree, selected, candidate :: candidates =>
    if countOf degree candidate.a ≥ degreeCap then capDegreeFrom degreeCap top degree selected candidates
    else if countOf degree candidate.b ≥ degreeCap then
      capDegreeFrom degreeCap top degree selected candidates
    else if (selected ++ [candidate]).length ≥ top then selected ++ [candidate]
    else
      capDegreeFrom degreeCap top (bumpRevision (bumpRevision degree candidate.a) candidate.b)
        (selected ++ [candidate]) candidates

def capDegree (candidates : List CouplingCandidate) (degreeCap top : Nat) :
    List CouplingCandidate := capDegreeFrom degreeCap top JsMap.empty [] candidates

/-- Commits with two files at least, and no more than the cap. -/
def contributes (sweepCap : Int) (record : CommitRecord N) : Bool :=
  !(record.paths.length < 2 || (record.paths.length : Int) > sweepCap)

def touchesBoth (sweepCap : Int) (a b : JsString) (record : CommitRecord N) : Bool :=
  contributes sweepCap record && a ∈ record.paths && b ∈ record.paths

structure CouplingHotspot (Intent : Type) extends CouplingCandidate, HotspotRowContext Intent

structure CouplingSection (Intent : Type) where
  minSupport : Int
  degreeCap : Nat
  sweepCap : Int
  emptyReason : Option JsString
  entries : List (CouplingHotspot Intent)

variable [Locale]

def tallyRecord (sweepCap : Int) (tally : CoChangeTally) (record : CommitRecord N) : CoChangeTally :=
  let files := sortBy Locale.localeCompare record.paths
  if !contributes sweepCap record then tally
  else ⟨(placePairs files).foldl bumpPair tally.pairs, files.foldl bumpRevision tally.coRevs⟩

def tallyCoChange (records : List (CommitRecord N)) (sweepCap : Int) : CoChangeTally :=
  records.foldl (tallyRecord sweepCap) ⟨JsMap.empty, JsMap.empty⟩

def compareCandidates (left right : CouplingCandidate) : Int :=
  if left.crossBoundary ≠ right.crossBoundary then if left.crossBoundary then -1 else 1
  else if right.score ≠ left.score then compareRat right.score left.score
  else if right.coChanges ≠ left.coChanges then subtractNat right.coChanges left.coChanges
  else Locale.localeCompare (pairKey left.a left.b) (pairKey right.a right.b)

def couplingCandidates (records : List (CommitRecord N)) (minSupport sweepCap : Int) :
    List CouplingCandidate :=
  let tally := tallyCoChange records sweepCap
  sortBy compareCandidates
    (((tally.pairs.entries.map Prod.snd).filter fun pair => (pair.coOccur : Int) ≥ minSupport).map
      (toCandidate tally.coRevs))

variable {Intent : Type} (buildCommitIntentOverlay : List JsString → Intent)

def withContext (records : List (CommitRecord N)) (sweepCap : Int) (candidate : CouplingCandidate) :
    CouplingHotspot Intent :=
  { candidate, buildRowActionability buildCommitIntentOverlay records
      (touchesBoth sweepCap candidate.a candidate.b)
      (js "git log --oneline -- " ++ shellQuoteArg candidate.a ++ js " " ++
        shellQuoteArg candidate.b) with }

def reduceCoupling (records : List (CommitRecord N)) (options : ReduceCouplingOptions) :
    CouplingSection Intent :=
  let minSupport := options.minSupport.getD defaultMinSupport
  let degreeCap := options.degreeCap.getD defaultDegreeCap
  let sweepCap := options.sweepCap.getD defaultSweepCap
  let selected := capDegree (couplingCandidates records minSupport sweepCap) degreeCap options.top
  let entries := selected.map (withContext buildCommitIntentOverlay records sweepCap)
  { minSupport := minSupport
    degreeCap := degreeCap
    sweepCap := sweepCap
    emptyReason :=
      if entries.length = 0 then
        some (js "no clear couplings this window (no pair co-changed at least " ++
          intText minSupport ++ js " times).")
      else none
    entries := entries }

end

end Musi.DriftAi
