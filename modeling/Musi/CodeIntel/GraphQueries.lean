import Mathlib.Data.Rat.Defs
import Mathlib.Algebra.Order.Ring.Rat
import Mathlib.Data.List.Perm.Subperm
import Musi.DriftAi.PathUtil
import Musi.Js.Table
import Musi.System.Search

namespace Musi.CodeIntel
open Musi.Js Musi.System Musi.DriftAi
set_option autoImplicit true

/-! ## The import graph -/

inductive Via where
  | direct
  | reExport
  | dynamic
  deriving DecidableEq

structure ImportEdge where
  source : JsString
  target : JsString
  runtime : Bool
  via : Via

/-- The edges into every file that is imported. -/
structure ImportGraph where
  incoming : JsMap (List ImportEdge)

def ImportGraph.edgesInto (graph : ImportGraph) (file : JsString) : List ImportEdge :=
  (graph.incoming.get file).getD []

/-- A number of steps, which need not be whole. -/
inductive DepthLimit where
  | number (limit : ℚ)
  | infinity

def DepthLimit.allows : DepthLimit → Nat → Bool
  | number limit, depth => (depth : ℚ) ≤ limit
  | infinity, _ => true

/-! ## Reverse search -/

structure BfsVisit where
  file : JsString
  depth : Nat
  via : Via

def compareVisits [DriftAi.Locale] (left right : BfsVisit) : Int :=
  if left.depth ≠ right.depth then (left.depth : Int) - right.depth
  else DriftAi.Locale.localeCompare left.file right.file

def nextReverseVisit (edge : ImportEdge) (visit : BfsVisit) (depthLimit : DepthLimit)
    (runtimeOnly : Bool) (seen : JsMap BfsVisit) : Option BfsVisit :=
  if runtimeOnly ∧ ¬ edge.runtime then none
  else
    let depth := visit.depth + 1
    if ¬ depthLimit.allows depth then none
    else
      match seen.get edge.source with
      | some previous => if previous.depth ≤ depth then none else some ⟨edge.source, depth, edge.via⟩
      | none => some ⟨edge.source, depth, edge.via⟩

/-- The part of the queue that is still to be visited, what was seen, and the results in order. -/
structure BfsState where
  queue : List BfsVisit
  seen : JsMap BfsVisit
  results : List BfsVisit

def followEdge (depthLimit : DepthLimit) (runtimeOnly : Bool) (visit : BfsVisit) (state : BfsState)
    (edge : ImportEdge) : BfsState :=
  match nextReverseVisit edge visit depthLimit runtimeOnly state.seen with
  | none => state
  | some next =>
    { queue := state.queue ++ [next]
      seen := state.seen.set edge.source next
      results := state.results ++ [next] }

/-- The loop over the queue, by at most as many passes. -/
def bfsLoop (graph : ImportGraph) (depthLimit : DepthLimit) (runtimeOnly : Bool) :
    Nat → BfsState → Option BfsState
  | 0, state => if state.queue.isEmpty then some state else none
  | fuel + 1, state =>
    match state.queue with
    | [] => some state
    | visit :: queue => bfsLoop graph depthLimit runtimeOnly fuel
        ((graph.edgesInto visit.file).foldl (followEdge depthLimit runtimeOnly visit)
          { state with queue })

def startVisit (target : JsString) : BfsVisit := ⟨target, 0, .direct⟩

def startState (target : JsString) : BfsState :=
  ⟨[startVisit target], JsMap.empty.set target (startVisit target), []⟩

def reverseBfs [DriftAi.Locale] (fuel : Nat) (graph : ImportGraph) (target : JsString)
    (depthLimit : DepthLimit) (runtimeOnly : Bool) : Option (List BfsVisit) :=
  (bfsLoop graph depthLimit runtimeOnly fuel (startState target)).map fun state =>
    sortBy compareVisits state.results

/-! ## Test queries -/

inductive TestReason where
  | colocated
  | direct
  | transitive
  deriving DecidableEq

structure TestResult where
  file : JsString
  reason : TestReason
  slow : Bool
  depth : Option Nat
  via : Option Via

inductive ProjectFilter where
  | client
  | server
  | shared

structure QueryTestsOptions where
  depth : Option DepthLimit
  project : Option ProjectFilter

/-- What a query asks the resolver: the file of a query, which may be refused, and the files that
exist. -/
structure QueryHost where
  existingRelativeFile : JsString → Except JsString JsString
  fileExistsRelative : JsString → Bool

/-- `\.test\.tsx?$` -/
def isTestFile (file : JsString) : Bool := endsWith file (js ".test.ts") || endsWith file (js ".test.tsx")

/-- `\.slow\.test\.tsx?$` -/
def isSlowTestFile (file : JsString) : Bool :=
  endsWith file (js ".slow.test.ts") || endsWith file (js ".slow.test.tsx")

/-- slice from the start up to a number of units before the end; none of them for zero. -/
def sliceBeforeEnd (s : JsString) (n : Nat) : JsString := if n = 0 then [] else s.take (s.length - n)

def colocatedTestCandidates (file : JsString) : List JsString :=
  let withoutExtension := sliceBeforeEnd file (extname file).length
  [js ".test.ts", js ".test.tsx", js ".slow.test.ts", js ".slow.test.tsx"].map fun suffix =>
    withoutExtension ++ suffix

def fileMatchesProject (file : JsString) : ProjectFilter → Bool
  | .shared => startsWith file (js "packages/shared/")
  | .server => startsWith file (js "packages/server/")
  | .client => startsWith file (js "packages/client/")

def filterTestsByProject (results : List TestResult) : Option ProjectFilter → List TestResult
  | none => results
  | some project => results.filter fun result => fileMatchesProject result.file project

def testResultRank (result : TestResult) : Int :=
  match result.reason with
  | .colocated => 0
  | .direct => 1
  | .transitive => 2

/-- A difference of depths, of which a missing one counts as infinite. -/
def compareDepths : Option Nat → Option Nat → Int
  | some left, some right => (left : Int) - right
  | some _, none => -1
  | none, some _ => 1
  | none, none => 0

def compareTestResults [DriftAi.Locale] (left right : TestResult) : Int :=
  if testResultRank left ≠ testResultRank right then testResultRank left - testResultRank right
  else if testResultRank left = 2 ∧ compareDepths left.depth right.depth ≠ 0 then
    compareDepths left.depth right.depth
  else DriftAi.Locale.localeCompare left.file right.file

def colocatedResult (candidate : JsString) : TestResult :=
  ⟨candidate, .colocated, isSlowTestFile candidate, none, none⟩

def visitResult (visit : BfsVisit) : TestResult :=
  ⟨visit.file, if visit.depth = 1 then .direct else .transitive, isSlowTestFile visit.file,
    some visit.depth, some visit.via⟩

def addColocated (host : QueryHost) (results : JsMap TestResult) (candidate : JsString) :
    JsMap TestResult :=
  if ¬ host.fileExistsRelative candidate then results
  else results.set candidate (colocatedResult candidate)

def addVisit (results : JsMap TestResult) (visit : BfsVisit) : JsMap TestResult :=
  if ¬ isTestFile visit.file ∨ results.has visit.file then results
  else results.set visit.file (visitResult visit)

def testResults (host : QueryHost) (target : JsString) (visits : List BfsVisit) : JsMap TestResult :=
  visits.foldl addVisit ((colocatedTestCandidates target).foldl (addColocated host) JsMap.empty)

def queryTests [DriftAi.Locale] (fuel : Nat) (host : QueryHost) (graph : ImportGraph) (file : JsString)
    (options : QueryTestsOptions) : Option (Except JsString (List TestResult)) :=
  match host.existingRelativeFile file with
  | .error e => some (.error e)
  | .ok target =>
    (reverseBfs fuel graph target (options.depth.getD .infinity) true).map fun visits =>
      .ok (sortBy compareTestResults
        (filterTestsByProject ((testResults host target visits).entries.map Prod.snd) options.project))

end Musi.CodeIntel
