import Musi.Js.Json
import Musi.LintRatchet.Kernel.CodepointCompare
import Musi.Bash.Arrays
import Musi.Bash.References
import Musi.Harness.CommandPolicy

namespace Musi.Harness
open Musi.Js
set_option autoImplicit true

/-! ## Slots -/

structure VerifyStepSlot where
  name : JsString
  script : JsString
  args : Option (List JsString)
  env : Option (Entries JsString)
  dynamic : Option JsString
  produces : Option JsString
  requiresArtifact : Option JsString
  fastCommitSkip : Option Bool
  deriving DecidableEq

/-- The resolvers of dynamic slots, each with its shell function. -/
def VERIFY_STEP_DYNAMIC_RESOLVER_BINDINGS : Entries JsString :=
  [(js "precommit-test-timings", js "musi_resolve_precommit_test_timing_cmd"),
    (js "staged-script-classifier", js "musi_resolve_staged_script_cmd")]

structure VerifyArtifactBinding where
  id : JsString
  probeFunctionName : JsString
  summary : JsString
  deriving DecidableEq

def VERIFY_STEP_ARTIFACT_BINDINGS : List VerifyArtifactBinding :=
  [{ id := js "dist-outputs"
     probeFunctionName := js "musi_lint_dist_outputs_present"
     summary := js "required dist outputs" }]

/-- `/^[A-Za-z0-9][\w-]*$/u` -/
def isSlotName : JsString → Bool
  | [] => false
  | c :: s => (isLowerAlpha (asciiLower c) || isDigit c) &&
      s.all fun d => Bash.isNameUnit d || d = unit '-'

def isSlotScript (script : JsString) : Bool := isNonBlank script && Bash.dollar ∉ script

/-- The slots that parseVerifyStepSlots returns. -/
def acceptsSlot (slot : VerifyStepSlot) : Bool :=
  isSlotName slot.name && isSlotScript slot.script &&
    slot.args.all (fun args => args.all isNonBlank) &&
    slot.env.all (fun env => env.all fun e => Bash.isName e.1 && isNonBlank e.2) &&
    slot.dynamic.all (fun id => id ∈ Entries.keys VERIFY_STEP_DYNAMIC_RESOLVER_BINDINGS) &&
    slot.produces.all (fun id => id ∈ VERIFY_STEP_ARTIFACT_BINDINGS.map VerifyArtifactBinding.id) &&
    slot.requiresArtifact.all (fun id =>
      id ∈ VERIFY_STEP_ARTIFACT_BINDINGS.map VerifyArtifactBinding.id) &&
    (slot.produces = none || slot.produces ≠ slot.requiresArtifact)

def envTokens (slot : VerifyStepSlot) : List JsString :=
  (slot.env.getD []).map fun e => e.1 ++ js "=" ++ e.2

def verifyStepCommandTokens (slot : VerifyStepSlot) : List JsString :=
  (if envTokens slot = [] then [] else js "env" :: envTokens slot) ++
    [js "bun", js "run", slot.script] ++ slot.args.getD []

/-- The command line with the resolver of a dynamic slot. -/
def withDynamic (tokens : JsString) (slot : VerifyStepSlot) : JsString :=
  match slot.dynamic with
  | none => tokens
  | some dynamic => tokens ++ js " [dynamic:" ++ dynamic ++ js "]"

def verifyStepBridgeSignature (slot : VerifyStepSlot) : JsString :=
  withDynamic (bracketed (unit '[') (unit ']') [] []
    ((verifyStepCommandTokens slot).map quote)) slot

def slotCommandDisplay (slot : VerifyStepSlot) : JsString :=
  withDynamic (join (js " ") (verifyStepCommandTokens slot)) slot

/-! ## Consumers -/

structure ConsumerSpec where
  id : JsString
  name : JsString
  stepsArray : JsString
  variablePrefix : JsString
  deriving DecidableEq

def CONSUMERS : List ConsumerSpec :=
  [{ id := js "verify-wrapper/verify", name := js "verify"
     stepsArray := js "MUSI_VERIFY_STEPS", variablePrefix := js "MUSI_VERIFY" },
    { id := js "verify-wrapper/verify-changed", name := js "verify_changed"
      stepsArray := js "MUSI_VERIFY_CHANGED_STEPS", variablePrefix := js "MUSI_VERIFY_CHANGED" },
    { id := js "verify-wrapper/verify-parallel", name := js "verify_parallel"
      stepsArray := js "MUSI_VERIFY_PARALLEL_STEPS", variablePrefix := js "MUSI_VERIFY_PARALLEL" },
    { id := js "hook/pre-commit", name := js "pre_commit"
      stepsArray := js "MUSI_PRE_COMMIT_STEPS", variablePrefix := js "MUSI_PRE_COMMIT" }]

def PRE_COMMIT_CONSUMER_ID : JsString := js "hook/pre-commit"

/-- The consumers whose success markers stand for the pre-commit slots, with their labels. -/
def MARKER_BRIDGE_SUPERSET_CONSUMERS : Entries JsString :=
  [(js "verify-wrapper/verify", js "verify"),
    (js "verify-wrapper/verify-changed", js "verify:changed")]

structure Consumer where
  spec : ConsumerSpec
  slots : List VerifyStepSlot
  deriving DecidableEq

structure HarnessControl where
  id : JsString
  slots : Option (List VerifyStepSlot)

structure VerifyStepBridgeDivergenceReason where
  supersetId : JsString
  slot : JsString

structure HarnessManifest where
  controls : List HarnessControl
  verifyStepBridgeDivergenceReasons : List VerifyStepBridgeDivergenceReason

def parseConsumerSlots (control : HarnessControl) (spec : ConsumerSpec) :
    Except JsString (List VerifyStepSlot) :=
  match control.slots with
  | none => .error (spec.id ++ js " must declare a slots array")
  | some slots => .ok slots

def collectConsumers (manifest : HarnessManifest) : Except JsString (List Consumer) :=
  let byId := JsMap.ofList (manifest.controls.map fun control => (control.id, control))
  CONSUMERS.mapM fun spec =>
    match byId.get spec.id with
    | none => .error (js "missing verify step control: " ++ spec.id)
    | some control => (parseConsumerSlots control spec).map fun slots => ⟨spec, slots⟩

def findConsumer (consumers : List Consumer) (id : JsString) : Except JsString Consumer :=
  match consumers.find? fun candidate => candidate.spec.id = id with
  | none => .error (js "internal verify-step generator error: missing consumer " ++ id)
  | some consumer => .ok consumer

def markerBridgeAllowedDivergences (reasons : List VerifyStepBridgeDivergenceReason)
    (supersetId : JsString) : List JsString :=
  (reasons.filter fun entry => entry.supersetId = supersetId).map
    VerifyStepBridgeDivergenceReason.slot

def assertSlotSuperset (superset subset : Consumer) (markerLabel : JsString)
    (allowed : List JsString) : Except JsString Unit :=
  let supersetByName := JsMap.ofList (superset.slots.map fun slot => (slot.name, slot))
  let missing := (subset.slots.filter fun slot => !supersetByName.has slot.name).map
    VerifyStepSlot.name
  let diverged := subset.slots.filterMap fun slot =>
    match supersetByName.get slot.name with
    | none => none
    | some supersetSlot =>
      if verifyStepBridgeSignature slot ≠ verifyStepBridgeSignature supersetSlot ∧
          slot.name ∉ allowed then
        some (slot.name ++ js " (" ++ subset.spec.name ++ js ": " ++ slotCommandDisplay slot ++
          js "; " ++ superset.spec.name ++ js ": " ++ slotCommandDisplay supersetSlot ++ js ")")
      else none
  if missing ≠ [] then
    .error (superset.spec.id ++ js " slots must include every " ++ subset.spec.id ++
      js " slot because pre-commit accepts fresh " ++ markerLabel ++
      js " success markers; missing: " ++ join (js ", ") missing)
  else if diverged ≠ [] then
    .error (superset.spec.id ++ js " and " ++ subset.spec.id ++
      js " must render identical command tokens for every shared slot because pre-commit accepts fresh " ++
      markerLabel ++ js " success markers; divergent: " ++ join (js ", ") diverged ++
      js ". If a divergence is intentional, declare its reason on the catalog changed form or pre-commit profile override in harness.controls.json.")
  else .ok ()

def assertMarkerBridgeSupersets (consumers : List Consumer)
    (reasons : List VerifyStepBridgeDivergenceReason) : Except JsString Unit := do
  let preCommit ← findConsumer consumers PRE_COMMIT_CONSUMER_ID
  MARKER_BRIDGE_SUPERSET_CONSUMERS.forM fun entry => do
    let superset ← findConsumer consumers entry.1
    assertSlotSuperset superset preCommit entry.2 (markerBridgeAllowedDivergences reasons entry.1)

/-! ## Artifacts -/

def slotArtifacts (slot : VerifyStepSlot) : List JsString :=
  slot.produces.toList ++ slot.requiresArtifact.toList

def bindingFailure (programId : JsString) (slot : VerifyStepSlot)
    (bound : JsMap VerifyArtifactBinding) (artifact : JsString) : Option JsString :=
  match bound.get artifact with
  | none => some (programId ++ js " slot " ++ slot.name ++ js " names artifact " ++ artifact ++
      js ", which has no probe binding in verify-step-artifacts.ts")
  | some binding =>
    if Bash.isName binding.probeFunctionName then none
    else some (js "artifact " ++ artifact ++ js " binds an invalid shell probe function: " ++
      binding.probeFunctionName)

def slotArtifactFailures (programId : JsString) (slot : VerifyStepSlot) (produced : List JsString)
    (bound : JsMap VerifyArtifactBinding) : List JsString :=
  (slotArtifacts slot).filterMap (bindingFailure programId slot bound) ++
    match slot.produces, slot.requiresArtifact with
    | some produces, some requiresArtifact =>
      [programId ++ js " slot " ++ slot.name ++ js " produces " ++ produces ++ js " and requires " ++
        requiresArtifact ++ js "; artifact edges are a single conditional hop, never a chain"]
    | none, some requiresArtifact =>
      if requiresArtifact ∈ produced then []
      else [programId ++ js " slot " ++ slot.name ++ js " requires artifact " ++ requiresArtifact ++
        js ", but no slot in " ++ programId ++ js " produces it"]
    | _, none => []

def skippedProducerFailures (program : Consumer) : List JsString :=
  let required := program.slots.filterMap VerifyStepSlot.requiresArtifact
  program.slots.filterMap fun slot =>
    match slot.produces with
    | none => none
    | some produces =>
      if slot.fastCommitSkip = some true ∧ produces ∈ required then
        some (program.spec.id ++ js " slot " ++ slot.name ++ js " produces " ++ produces ++
          js " but declares fastCommitSkip, so a fast-commit run leaves the slots requiring " ++
          produces ++ js " with no producer")
      else none

/-- The names of the slots that produce each artifact. -/
def producerNames (programs : List Consumer) : JsMap (List JsString) :=
  (programs.flatMap Consumer.slots).foldl (fun names slot =>
    match slot.produces with
    | none => names
    | some produces =>
      let found := (names.get produces).getD []
      names.set produces (if slot.name ∈ found then found else found ++ [slot.name])) JsMap.empty

def collectVerifyArtifactFailures (programs : List Consumer)
    (bindings : List VerifyArtifactBinding) : List JsString :=
  let bound := JsMap.ofList (bindings.map fun binding => (binding.id, binding))
  (programs.flatMap fun program =>
    program.slots.flatMap (fun slot => slotArtifactFailures program.spec.id slot
      (program.slots.filterMap VerifyStepSlot.produces) bound) ++ skippedProducerFailures program) ++
  (producerNames programs).entries.filterMap fun e =>
    if e.2.length = 1 then none
    else some (js "artifact " ++ e.1 ++ js " is produced by more than one slot: " ++
      join (js ", ") (sortBy LintRatchet.compareByCodepoint e.2))

def assertArtifactClosure (consumers : List Consumer) : Except JsString Unit :=
  let failures := collectVerifyArtifactFailures consumers VERIFY_STEP_ARTIFACT_BINDINGS
  if failures ≠ [] then .error (join (js "; ") failures) else .ok ()

def assertKnownScripts (consumers : List Consumer) (knownScripts : List JsString) :
    Except JsString Unit :=
  consumers.forM fun consumer => consumer.slots.forM fun slot =>
    if slot.script ∈ knownScripts then .ok ()
    else .error (consumer.spec.id ++ js " slot " ++ slot.name ++
      js " references unknown package.json script: " ++ slot.script)

/-! ## Quoting -/

def pieceText : Bash.Piece → Option UInt16
  | .lit c => some c
  | .param _ => none

/-- A value without its references. -/
def withoutReferences (value : JsString) : JsString :=
  (Bash.references 0 value).filterMap pieceText

def shellDoubleQuote (value : JsString) : Except JsString JsString :=
  if Bash.backslash ∈ value then
    .error (js "manifest value mixes backslash with $ expansion: " ++ value)
  else if Bash.dollar ∈ withoutReferences value then
    .error (js "manifest value uses $ outside a plain variable reference: " ++ value)
  else .ok (js "\"" ++
    replaceAllFrom (js "`") (js "\\`") 0 (replaceAllFrom (js "\"") (js "\\\"") 0 value) ++ js "\"")

def shellQuote (value : JsString) : Except JsString JsString :=
  if Bash.dollar ∈ value then shellDoubleQuote value else .ok (shellSingleQuote value)

def shellArray (values : List JsString) : Except JsString JsString := do
  let quoted ← values.mapM shellQuote
  return js "(" ++ (join (js " ") quoted ++ js ")")

def asciiUpper (c : UInt16) : UInt16 := if isLowerAlpha c then c - 0x20 else c

def isAlphanumeric (c : UInt16) : Bool := isLowerAlpha (asciiLower c) || isDigit c

/-- Every run of characters that are no letters or digits becomes one underscore; the flag tells
that a run goes on. -/
def collapseRuns : Bool → JsString → JsString
  | _, [] => []
  | inRun, c :: s =>
    if isAlphanumeric c then c :: collapseRuns false s
    else if inRun then collapseRuns true s
    else unit '_' :: collapseRuns true s

def shellVariableSuffix (value : JsString) : JsString :=
  (((collapseRuns false value).dropWhile (· = unit '_')).rdropWhile (· = unit '_')).map asciiUpper

/-! ## The script -/

/-- All slots, each with its consumer. -/
def consumerSlots (consumers : List Consumer) : List (Consumer × VerifyStepSlot) :=
  consumers.flatMap fun consumer => consumer.slots.map fun slot => (consumer, slot)

/-- The values of a slot that may refer to variables. -/
def runtimeTokens (slot : VerifyStepSlot) : List JsString :=
  (slot.env.getD []).map Prod.snd ++ slot.args.getD []

def tokenVariables (token : JsString) : List JsString :=
  (Bash.references 0 token).filterMap Bash.Piece.reads

def slotVariables (slot : VerifyStepSlot) : List JsString :=
  (runtimeTokens slot).flatMap tokenVariables

def runtimeVariables (consumers : List Consumer) : List JsString :=
  sortBy LintRatchet.compareByCodepoint
    ((consumerSlots consumers).flatMap fun e => slotVariables e.2).eraseDups

def guardMessage (variableName : JsString) : JsString :=
  js "scripts/verify/steps.generated.sh requires " ++ variableName

def headerComments : List JsString :=
  [js "# shellcheck shell=bash", js "# shellcheck disable=SC2034",
    js "# Generated by scripts/harness/generate-verify-steps.ts. Do not edit by hand.", js "#",
    js "# Source this file only after the verify wrapper has initialized runtime",
    js "# variables referenced by slot args/env values. The guards below intentionally",
    js "# fail loudly when a wrapper sources the generated arrays too early."]

def renderHeader (consumers : List Consumer) : List JsString :=
  headerComments ++ (runtimeVariables consumers).map (fun variableName =>
    js ": \"$\x7b" ++ (variableName ++ (js ":?" ++ (guardMessage variableName ++ js "\x7d\"")))) ++
  [[]]

def renderArray (name : JsString) (values : List JsString) : Except JsString JsString := do
  let array ← shellArray values
  return js "declare -ga " ++ (name ++ (js "=" ++ array))

def renderConsumerMetadata (consumers : List Consumer) : Except JsString (List JsString) := do
  let names ← renderArray (js "MUSI_VERIFY_CONSUMERS") (consumers.map fun consumer =>
    consumer.spec.name)
  let steps ← consumers.mapM fun consumer =>
    renderArray consumer.spec.stepsArray (consumer.slots.map VerifyStepSlot.name)
  return names :: steps ++ [[]]

def slotVariableName (consumer : Consumer) (slot : VerifyStepSlot) : JsString :=
  consumer.spec.variablePrefix ++ js "_" ++ shellVariableSuffix slot.name ++ js "_CMD"

def renderFastCommitSkipSlots (consumers : List Consumer) : Except JsString (List JsString) := do
  let skipSlots := (consumerSlots consumers).filter fun e => e.2.fastCommitSkip = some true
  skipSlots.forM fun e =>
    if e.1.spec.id ≠ PRE_COMMIT_CONSUMER_ID then
      .error (e.1.spec.id ++ js " slot " ++ e.2.name ++ js " declares fastCommitSkip, but only " ++
        PRE_COMMIT_CONSUMER_ID ++ js " slots may be fast-commit skippable")
    else .ok ()
  let array ← renderArray (js "MUSI_FAST_COMMIT_SKIP_SLOTS") (skipSlots.map fun e => e.2.name)
  return [array, []]

def renderEntry (array key value : JsString) : Except JsString JsString := do
  let key ← shellQuote key
  let value ← shellQuote value
  return array ++ (js "[" ++ (key ++ (js "]=" ++ value)))

def slotKey (consumer : Consumer) (slot : VerifyStepSlot) : JsString :=
  consumer.spec.name ++ js ":" ++ slot.name

/-- The entries of a slot, each with its associative array. -/
def slotEntries (consumer : Consumer) (slot : VerifyStepSlot) : Entries JsString :=
  (js "MUSI_VERIFY_SLOT_CMD_VAR", slotVariableName consumer slot) ::
    slot.dynamic.toList.map (fun id => (js "MUSI_VERIFY_SLOT_DYNAMIC", id)) ++
    slot.produces.toList.map (fun id => (js "MUSI_VERIFY_SLOT_PRODUCES", id)) ++
    slot.requiresArtifact.toList.map (fun id => (js "MUSI_VERIFY_SLOT_REQUIRES_ARTIFACT", id))

def renderSlotMetadata (consumer : Consumer) (slot : VerifyStepSlot) :
    Except JsString (List JsString) := do
  let array ← shellArray (verifyStepCommandTokens slot)
  let entries ← (slotEntries consumer slot).mapM fun e =>
    renderEntry e.1 (slotKey consumer slot) e.2
  return (slotVariableName consumer slot ++ (js "=" ++ array)) :: entries ++ [[]]

def SLOT_MAPS : List JsString :=
  [js "MUSI_VERIFY_SLOT_CMD_VAR", js "MUSI_VERIFY_SLOT_DYNAMIC", js "MUSI_VERIFY_SLOT_PRODUCES",
    js "MUSI_VERIFY_SLOT_REQUIRES_ARTIFACT", js "MUSI_VERIFY_DYNAMIC_RESOLVER_FUNC",
    js "MUSI_VERIFY_ARTIFACT_PROBE_FUNC", js "MUSI_VERIFY_ARTIFACT_SUMMARY"]

def slotOwner (consumer : Consumer) (slot : VerifyStepSlot) : JsString :=
  consumer.spec.id ++ js ":" ++ slot.name

def addSlot (state : JsMap JsString × List JsString) (e : Consumer × VerifyStepSlot) :
    Except JsString (JsMap JsString × List JsString) := do
  let variableName := slotVariableName e.1 e.2
  match state.1.get variableName with
  | some owner => .error (js "slots " ++ owner ++ js " and " ++ slotOwner e.1 e.2 ++
      js " derive the same shell variable: " ++ variableName)
  | none =>
    let lines ← renderSlotMetadata e.1 e.2
    return (state.1.set variableName (slotOwner e.1 e.2), state.2 ++ lines)

def renderSlots (consumers : List Consumer) : Except JsString (List JsString) := do
  let state ← (consumerSlots consumers).foldlM addSlot
    (JsMap.empty, SLOT_MAPS.map (fun name => js "declare -gA " ++ (name ++ js "=()")) ++ [[]])
  return state.2

def renderDynamicResolverDispatch : Except JsString (List JsString) := do
  let lines ← VERIFY_STEP_DYNAMIC_RESOLVER_BINDINGS.mapM fun binding =>
    if Bash.isName binding.2 then
      renderEntry (js "MUSI_VERIFY_DYNAMIC_RESOLVER_FUNC") binding.1 binding.2
    else .error (js "dynamic resolver " ++ binding.1 ++ js " uses invalid shell function " ++ binding.2)
  return lines ++ [[]]

/-- The bindings of the artifacts that slots name. -/
def referencedBindings (programs : List Consumer) : List VerifyArtifactBinding :=
  let referenced := (programs.flatMap Consumer.slots).flatMap slotArtifacts
  VERIFY_STEP_ARTIFACT_BINDINGS.filter fun binding => binding.id ∈ referenced

def bindingEntries (binding : VerifyArtifactBinding) : Entries JsString :=
  [(js "MUSI_VERIFY_ARTIFACT_PROBE_FUNC", binding.probeFunctionName),
    (js "MUSI_VERIFY_ARTIFACT_SUMMARY", binding.summary)]

def renderVerifyArtifactBindings (programs : List Consumer) : Except JsString (List JsString) :=
  ((referencedBindings programs).flatMap fun binding =>
    (bindingEntries binding).map fun e => (binding.id, e)).mapM fun e => renderEntry e.2.1 e.1 e.2.2

def renderVerifyStepsShellFromManifest (manifest : HarnessManifest)
    (knownScripts : Option (List JsString)) : Except JsString JsString := do
  let consumers ← collectConsumers manifest
  assertMarkerBridgeSupersets consumers manifest.verifyStepBridgeDivergenceReasons
  assertArtifactClosure consumers
  match knownScripts with
  | some knownScripts => assertKnownScripts consumers knownScripts
  | none => pure ()
  let metadata ← renderConsumerMetadata consumers
  let skipSlots ← renderFastCommitSkipSlots consumers
  let slots ← renderSlots consumers
  let dispatch ← renderDynamicResolverDispatch
  let bindings ← renderVerifyArtifactBindings consumers
  let lines := renderHeader consumers ++ metadata ++ skipSlots ++ slots ++ dispatch ++ bindings
  return join [Bash.newline] (lines.rdropWhile (· = [])) ++ [Bash.newline]

end Musi.Harness
