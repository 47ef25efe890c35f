import Musi.Verify.MemoryBudget

namespace Musi.Verify
open Musi.Shell
set_option autoImplicit true

/-! ## What the scheduler is given -/

/-- MUSI_VERIFY_SLOT_SKIP_RC -/
def slotSkipRc : Nat := 100

/-- MUSI_VERIFY_SLOT_NOT_RUN_EXIT: no exit status of a child is above 255. -/
def slotNotRunExit : Nat := 300

/-- The generated artifact edges, by `<consumer>:<slot>`; the empty string where no entry is. -/
structure ArtifactEdges where
  slotRequiresArtifact : Text → Text
  slotProduces : Text → Text

def slotKey (consumer slot : Text) : Text := consumer ++ ':' :: slot

/-- What one call of resolve_slot_cmd returns, with the command it leaves. -/
structure Resolution where
  rc : Nat
  command : List Text

/-- A background job, and the status that a wait for its pid returns whenever it ends. -/
structure Child where
  pid : Nat
  status : Nat
  deriving DecidableEq

/-- What one call of try_reserve comes to. -/
inductive Admission
  | granted (token : Token)
  | deferred
  | failed
  deriving DecidableEq

/-- One pass over the pending slots: the admission of each of them, and the clock after it. -/
structure Round where
  reserve : Nat → Admission
  now : Int

/-- What one call of the drain reads of memory and clock. -/
structure MemoryWait where
  start : Int
  rounds : List Round

/-- What a run reads that its arguments do not say. -/
structure Outcomes where
  /-- By position in the steps array. -/
  resolve : Nat → Resolution
  /-- By artifact: present 0, missing 1, a probe that cannot be honored 2. -/
  probe : Text → Nat
  /-- By index in the outcome arrays. -/
  child : Nat → Child
  /-- The first drain, then the one for each artifact. -/
  memory : Option Text → MemoryWait

/-! ## The arrays -/

/-- The arrays that only the resolution loop writes. -/
structure SlotPlan where
  stepNames : List Text := []
  commandTokens : List Text := []
  commandStarts : List Nat := []
  commandLengths : List Nat := []
  pendingIndexes : List Nat := []
  /-- deferred_indexes with deferred_artifact -/
  deferredIndexes : List (Nat × Text) := []
  deferredArtifactOrder : List Text := []
  /-- artifact_producer_index, the last write first. -/
  artifactProducerIndex : List (Text × Nat) := []

/-- What a run does that can be seen from outside. -/
inductive SlotEvent
  | reserved (index : Nat) (token : Token)
  | launched (index : Nat) (slot : Text) (command : List Text) (child : Child)
  | waited (index code : Nat)
  | released (index : Nat) (token : Token)
  deriving DecidableEq

/-- The arrays that the run goes on to write, where none is the empty string, and its events,
the last one first. -/
structure SlotState where
  stepPids : List (Option Child) := []
  stepExits : List (Option Nat) := []
  memoryTokens : List (Option Token) := []
  log : List SlotEvent := []

def SlotState.pid (s : SlotState) (index : Nat) : Option Child := s.stepPids.getD index none

def SlotState.exit (s : SlotState) (index : Nat) : Option Nat := s.stepExits.getD index none

def SlotState.token (s : SlotState) (index : Nat) : Option Token := s.memoryTokens.getD index none

def setExit (index code : Nat) (s : SlotState) : SlotState :=
  { s with stepExits := s.stepExits.set index (some code) }

/-! ## Waiting for one slot -/

def releaseToken (index : Nat) (s : SlotState) : SlotState :=
  match s.token index with
  | none => s
  | some token =>
    { s with
      memoryTokens := s.memoryTokens.set index none
      log := .released index token :: s.log }

def recordWait (index : Nat) (child : Child) (s : SlotState) : SlotState :=
  match s.exit index with
  | some _ => s
  | none =>
    { s with
      stepExits := s.stepExits.set index (some child.status)
      log := .waited index child.status :: s.log }

def waitParallelVerifyIndex (index : Nat) (s : SlotState) : SlotState :=
  match s.pid index with
  | none => s
  | some child => releaseToken index (recordWait index child s)

/-! ## Draining the pending slots -/

/-- The decimal digits of a whole number of seconds in the range of a shell integer. -/
def memoryWaitTimeoutParse (value : Text) : Option Nat :=
  if !isDigits value then none
  else
    let digits := value.dropWhile (· = '0')
    if digits.length > 19 || (digits.length = 19 && sh "9223372036854775807" < digits) then none
    else some (Nat.ofDigitChars 10 digits 0)

def SlotPlan.command (plan : SlotPlan) (index : Nat) : List Text :=
  (plan.commandTokens.drop (plan.commandStarts.getD index 0)).take
    (plan.commandLengths.getD index 0)

/-- A granted slot is started, and its reservation kept with its pid. -/
def launch (plan : SlotPlan) (outcomes : Outcomes) (index : Nat) (token : Token)
    (s : SlotState) : SlotState :=
  { stepPids := s.stepPids.set index (some (outcomes.child index))
    stepExits := s.stepExits
    memoryTokens := s.memoryTokens.set index (some token)
    log := .launched index (plan.stepNames.getD index []) (plan.command index)
      (outcomes.child index) :: .reserved index token :: s.log }

structure DrainRound where
  slots : SlotState
  stillPending : List Nat := []
  progress : Bool := false

def drainIndex (plan : SlotPlan) (outcomes : Outcomes) (round : Round) (r : DrainRound)
    (index : Nat) : DrainRound :=
  match round.reserve index with
  | .deferred => { r with stillPending := r.stillPending ++ [index] }
  | .failed => { r with slots := setExit index slotNotRunExit r.slots, progress := true }
  | .granted token => { r with slots := launch plan outcomes index token r.slots, progress := true }

def setExits (code : Nat) (indexes : List Nat) (s : SlotState) : SlotState :=
  indexes.foldl (fun s index => setExit index code s) s

/-- The loop of the drain; none where the rounds end before it does. -/
def drainRounds (plan : SlotPlan) (outcomes : Outcomes) (start : Int) (waitTimeout : Nat) :
    List Round → List Nat → SlotState → Option SlotState
  | _, [], s => some s
  | [], _ :: _, _ => none
  | round :: rounds, index :: pending, s =>
    let r := (index :: pending).foldl (drainIndex plan outcomes round) { slots := s }
    if r.stillPending = [] then some r.slots
    else if r.progress then drainRounds plan outcomes start waitTimeout rounds r.stillPending r.slots
    else if round.now - start ≥ waitTimeout then
      some (setExits slotNotRunExit r.stillPending r.slots)
    else drainRounds plan outcomes start waitTimeout rounds r.stillPending r.slots

/-- A timeout that does not parse leaves every slot as it is; no caller reads the status. -/
def drainMemoryPendingSlots (plan : SlotPlan) (outcomes : Outcomes) (wait : MemoryWait)
    (waitTimeout : Text) (pending : List Nat) (s : SlotState) : Option SlotState :=
  match memoryWaitTimeoutParse waitTimeout with
  | none => some s
  | some timeout => drainRounds plan outcomes wait.start timeout wait.rounds pending s

/-! ## Resolving the slots -/

/-- One round of the probe loop; none where it returns 2. -/
def probeArtifact (edges : ArtifactEdges) (consumer : Text) (outcomes : Outcomes)
    (artifactState : List (Text × Nat)) (slot : Text) : Option (List (Text × Nat)) :=
  let required := edges.slotRequiresArtifact (slotKey consumer slot)
  if required = [] then some artifactState
  else if (artifactState.lookup required).isSome then some artifactState
  else if outcomes.probe required = 2 then none
  else some ((required, outcomes.probe required) :: artifactState)

/-- The slot has to wait for its artifact. -/
def isDeferred (edges : ArtifactEdges) (consumer : Text) (artifactState : List (Text × Nat))
    (slot : Text) : Bool :=
  let required := edges.slotRequiresArtifact (slotKey consumer slot)
  required ≠ [] && (artifactState.lookup required).getD 0 ≠ 0

/-- The deferral of one slot, in the order in which the artifacts are first required. -/
def deferIndex (index : Nat) (required : Text) (plan : SlotPlan) : SlotPlan :=
  { plan with
    deferredArtifactOrder :=
      if required ∈ plan.deferredArtifactOrder then plan.deferredArtifactOrder
      else plan.deferredArtifactOrder ++ [required]
    deferredIndexes := plan.deferredIndexes ++ [(index, required)] }

def appendCommand (slot : Text) (command : List Text) (plan : SlotPlan) : SlotPlan :=
  { plan with
    stepNames := plan.stepNames ++ [slot]
    commandTokens := plan.commandTokens ++ command
    commandStarts := plan.commandStarts ++ [plan.commandTokens.length]
    commandLengths := plan.commandLengths ++ [command.length] }

def recordProducer (produced : Text) (index : Nat) (plan : SlotPlan) : SlotPlan :=
  if produced = [] then plan
  else { plan with artifactProducerIndex := (produced, index) :: plan.artifactProducerIndex }

/-- One resolved slot goes into the arrays and into one of the two queues. -/
def planSlot (edges : ArtifactEdges) (consumer : Text) (artifactState : List (Text × Nat))
    (slot : Text) (command : List Text) (plan : SlotPlan) : SlotPlan :=
  let index := plan.stepNames.length
  let planned := recordProducer (edges.slotProduces (slotKey consumer slot)) index
    (appendCommand slot command plan)
  if isDeferred edges consumer artifactState slot then
    deferIndex index (edges.slotRequiresArtifact (slotKey consumer slot)) planned
  else { planned with pendingIndexes := planned.pendingIndexes ++ [index] }

/-- The loop over the steps, from a position on. -/
def resolveSteps (edges : ArtifactEdges) (consumer : Text) (outcomes : Outcomes)
    (artifactState : List (Text × Nat)) :
    Nat → List Text → SlotPlan × SlotState → SlotPlan × SlotState
  | _, [], arrays => arrays
  | position, slot :: steps, (plan, s) =>
    let resolution := outcomes.resolve position
    if resolution.rc = slotSkipRc then
      resolveSteps edges consumer outcomes artifactState (position + 1) steps (plan, s)
    else if resolution.rc ≠ 0 then
      ({ plan with stepNames := plan.stepNames ++ [slot] },
        { s with
          stepPids := s.stepPids ++ [none]
          stepExits := s.stepExits ++ [some resolution.rc] })
    else
      resolveSteps edges consumer outcomes artifactState (position + 1) steps
        (planSlot edges consumer artifactState slot resolution.command plan,
          { s with
            stepPids := s.stepPids ++ [none]
            stepExits := s.stepExits ++ [none]
            memoryTokens := s.memoryTokens ++ [none] })

/-! ## The whole run -/

/-- One round of the loop over the deferred artifacts. -/
def releaseArtifact (outcomes : Outcomes) (waitTimeout : Text) (plan : SlotPlan) (s : SlotState)
    (artifact : Text) : Option SlotState :=
  let indexes := (plan.deferredIndexes.filter (·.2 = artifact)).map (·.1)
  if indexes = [] then some s
  else match plan.artifactProducerIndex.lookup artifact with
  | none => some (setExits 1 indexes s)
  | some producer =>
    if s.pid producer = none then
      some (setExits (if s.exit producer = some slotNotRunExit then slotNotRunExit else 1)
        indexes s)
    else
      let waited := waitParallelVerifyIndex producer s
      -- An exit that is empty is no integer, and the test for a failure fails on it.
      if (waited.exit producer).getD 0 ≠ 0 then some (setExits 1 indexes waited)
      else drainMemoryPendingSlots plan outcomes (outcomes.memory (some artifact)) waitTimeout
        indexes waited

/-- One round of the last loop. -/
def waitUnlessSettled (s : SlotState) (index : Nat) : SlotState :=
  if s.exit index ≠ none then s else waitParallelVerifyIndex index s

structure ParallelRun where
  status : Nat
  plan : SlotPlan := {}
  slots : SlotState := {}

/-- MUSI_VERIFY_MEMORY_WAIT_TIMEOUT, or its default. -/
def memoryWaitTimeout (setting : Text) : Text := if setting = [] then sh "120" else setting

/-- A run with fresh outcome arrays; none where a drain is not over. -/
def runParallelVerifySteps (edges : ArtifactEdges) (consumer : Text) (outcomes : Outcomes)
    (setting : Text) (steps : List Text) : Option ParallelRun :=
  match steps.foldlM (probeArtifact edges consumer outcomes) [] with
  | none => some { status := 2 }
  | some artifactState => do
    let (plan, s) := resolveSteps edges consumer outcomes artifactState 0 steps ({}, {})
    let s ← drainMemoryPendingSlots plan outcomes (outcomes.memory none)
      (memoryWaitTimeout setting) plan.pendingIndexes s
    let s ← plan.deferredArtifactOrder.foldlM
      (releaseArtifact outcomes (memoryWaitTimeout setting) plan) s
    some
      { status := 0
        plan
        slots := (List.range plan.stepNames.length).foldl waitUnlessSettled s }

/-! ## What the gate makes of the arrays -/

inductive Verdict
  | passed
  | failed
  | notRun
  deriving DecidableEq

def slotVerdict (s : SlotState) (index : Nat) : Verdict :=
  let exitCode := (s.exit index).getD 1
  if exitCode = 0 then .passed
  else if exitCode = slotNotRunExit && (s.pid index).isNone then .notRun
  else .failed

/-- MUSI_VERIFY_GATE_PASSED, MUSI_VERIFY_GATE_FAILED and MUSI_VERIFY_GATE_NOT_RUN. -/
structure GateResult where
  passed : List Text := []
  failed : List Text := []
  notRun : List Text := []

def gateStep (plan : SlotPlan) (s : SlotState) (gate : GateResult) (index : Nat) : GateResult :=
  let slot := plan.stepNames.getD index []
  match slotVerdict s index with
  | .passed => { gate with passed := gate.passed ++ [slot] }
  | .notRun => { gate with notRun := gate.notRun ++ [slot] }
  | .failed => { gate with failed := gate.failed ++ [slot] }

def aggregateSlots (plan : SlotPlan) (s : SlotState) : GateResult :=
  (List.range plan.stepNames.length).foldl (gateStep plan s) {}

end Musi.Verify
