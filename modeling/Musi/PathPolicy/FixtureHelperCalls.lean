import Musi.Js.Joined
import Musi.Js.Table

namespace Musi.PathPolicy
open Musi.Js
set_option autoImplicit true

/-! ## Scoped groups -/

def isNameStart (c : UInt16) : Bool := isLowerAlpha (asciiLower c) || c = unit '_'

/-- `/^[A-Za-z_]\w*$/u` -/
def isFunctionName : JsString → Bool
  | [] => false
  | c :: s => isNameStart c && s.all fun d => isNameStart d || isDigit d

structure FunctionName where
  text : JsString
  valid : isFunctionName text = true
  deriving DecidableEq

/-- The function scope of a group, outermost first, and its fixture root. -/
abbrev FixturePlace := List FunctionName × JsString

structure FixtureHelperCall where
  callerScope : List FunctionName
  callee : JsString
  targetRoot : JsString

def fixtureGroupKey (functionScope : List FunctionName) (fixtureRoot : JsString) : JsString :=
  join [0] (functionScope.map FunctionName.text) ++ 1 :: fixtureRoot

/-- How one scoped fixture grouping absorbs a callee's contributions. -/
structure FixtureGroupMerge (TGroup : Type) where
  functionScope : TGroup → List FunctionName
  create : List FunctionName → JsString → TGroup
  absorb : TGroup → TGroup → TGroup × Bool
  isEmpty : TGroup → Bool

/-! ## Merging

A group stays under its key while groups are merged, so a key stands for the group object under it. -/

section
variable {TGroup : Type} (merge : FixtureGroupMerge TGroup)

def indexGroup (groupsByCallee : JsMap (List JsString)) (entry : JsString × TGroup) :
    JsMap (List JsString) :=
  match (merge.functionScope entry.2).head? with
  | none => groupsByCallee
  | some outermost =>
    groupsByCallee.set outermost.text ((groupsByCallee.get outermost.text).getD [] ++ [entry.1])

def groupsByOutermostFunction (groupsByKey : JsMap TGroup) : JsMap (List JsString) :=
  groupsByKey.entries.foldl (indexGroup merge) JsMap.empty

def absorbSource (groupsByKey : JsMap TGroup) (key : JsString) (state : TGroup × Bool)
    (sourceKey : JsString) : TGroup × Bool :=
  if sourceKey = key then state
  else match groupsByKey.get sourceKey with
    | none => state
    | some source =>
      let absorbed := merge.absorb state.1 source
      (absorbed.1, absorbed.2 || state.2)

/-- A group that is published already is changed in place. -/
def mergeCallIntoTarget (groupsByKey : JsMap TGroup) (sourceGroups : List JsString)
    (call : FixtureHelperCall) : JsMap TGroup × Bool :=
  let key := fixtureGroupKey call.callerScope call.targetRoot
  let target := (groupsByKey.get key).getD (merge.create call.callerScope call.targetRoot)
  let merged := sourceGroups.foldl (absorbSource merge groupsByKey key) (target, false)
  if groupsByKey.has key || !merge.isEmpty merged.1 then (groupsByKey.set key merged.1, merged.2)
  else (groupsByKey, merged.2)

def mergeCall (groupsByCallee : JsMap (List JsString)) (state : JsMap TGroup × Bool)
    (call : FixtureHelperCall) : JsMap TGroup × Bool :=
  match groupsByCallee.get call.callee with
  | none => state
  | some sourceGroups =>
    let merged := mergeCallIntoTarget merge state.1 sourceGroups call
    (merged.1, merged.2 || state.2)

def mergePass (calls : List FixtureHelperCall) (groupsByKey : JsMap TGroup) : JsMap TGroup × Bool :=
  calls.foldl (mergeCall merge (groupsByOutermostFunction merge groupsByKey)) (groupsByKey, false)

def mergePasses (calls : List FixtureHelperCall) : Nat → JsMap TGroup → Except JsString (JsMap TGroup)
  | 0, _ => throw (js "fixture helper-call merge exhausted its pass bound without reaching a fixpoint; " ++
      js "mergeHelperCallGroups has a termination bug for this helper graph")
  | passes + 1, groupsByKey =>
    let merged := mergePass merge calls groupsByKey
    if merged.2 then mergePasses calls passes merged.1 else pure merged.1

def mergeHelperCallGroups (groupsByKey : JsMap TGroup) (calls : List FixtureHelperCall) :
    Except JsString (JsMap TGroup) :=
  mergePasses merge calls (calls.length + 1) groupsByKey

end

/-! ## Groups of finite sets -/

structure FixtureGroup (α : Type) where
  functionScope : List FunctionName
  fixtureRoot : JsString
  sources : List α

section
variable {α : Type} [DecidableEq α]

def absorbValue (state : List α × Bool) (value : α) : List α × Bool :=
  if value ∈ state.1 then state else (state.1 ++ [value], true)

def absorbInto (target source : List α) : List α × Bool := source.foldl absorbValue (target, false)

def absorbSources (target source : FixtureGroup α) : FixtureGroup α × Bool :=
  let absorbed := absorbInto target.sources source.sources
  ({ target with sources := absorbed.1 }, absorbed.2)

def sourceMerge : FixtureGroupMerge (FixtureGroup α) where
  functionScope := FixtureGroup.functionScope
  create := fun functionScope fixtureRoot => ⟨functionScope, fixtureRoot, []⟩
  absorb := absorbSources
  isEmpty := fun group => group.sources.isEmpty

end

end Musi.PathPolicy
