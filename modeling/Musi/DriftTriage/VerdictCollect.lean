import Musi.Js.Throw
import Musi.Js.TokenCounts

namespace Musi.DriftTriage
open Musi.Js
set_option autoImplicit true

/-! ## Verdicts -/

inductive TriageVerdictKind where
  | confirmed
  | falsePositive
  | acceptedDrift
  | duplicateOf
  | needsHuman
  deriving DecidableEq

def TriageVerdictKind.text : TriageVerdictKind → JsString
  | confirmed => js "confirmed"
  | falsePositive => js "false-positive"
  | acceptedDrift => js "accepted-drift"
  | duplicateOf => js "duplicate-of"
  | needsHuman => js "needs-human"

inductive TriageSeverity where
  | high
  | medium
  | low
  | informational
  deriving DecidableEq

def TriageSeverity.text : TriageSeverity → JsString
  | high => js "high"
  | medium => js "medium"
  | low => js "low"
  | informational => js "informational"

inductive TriageConfidence where
  | high
  | medium
  | low
  deriving DecidableEq

/-- A field that may be null is an option. -/
structure TriageVerdict where
  itemId : JsString
  verdict : TriageVerdictKind
  severity : TriageSeverity
  confidence : TriageConfidence
  rationale : JsString
  verifiedLocations : List JsString
  recommendedAction : Option JsString
  canonicalItemId : Option JsString
  deriving DecidableEq

structure TriageVerdictFile where
  packetId : JsString
  reviewer : Option JsString
  verdicts : List TriageVerdict

structure NamedTriageVerdictFile where
  path : JsString
  result : TriageVerdictFile

structure PacketProvenance where
  gitHead : Option JsString
  gitDirty : Option Bool

structure AssignedPacket where
  packetId : JsString
  itemIds : List JsString
  deriving DecidableEq

structure PacketManifestInput where
  provenance : PacketProvenance
  packets : List AssignedPacket

structure CollectedVerdict extends TriageVerdict where
  packetId : JsString
  inputPath : JsString
  reviewer : Option JsString
  deriving DecidableEq

structure CurrentSourceState where
  gitHead : Option JsString
  gitDirty : Option Bool

/-! ## Reports -/

structure SourceState where
  manifestGitHead : Option JsString
  currentGitHead : Option JsString
  stale : Option Bool
  manifestDirty : Option Bool
  currentDirty : Option Bool
  deriving DecidableEq

structure CollectionSummary where
  assignedItems : Nat
  receivedVerdicts : Nat
  missingItems : Int
  totalPackets : Nat
  completedPackets : Nat
  partialPackets : Nat
  unstartedPackets : Nat
  byVerdict : Entries Nat
  bySeverity : Entries Nat
  deriving DecidableEq

inductive VerificationReason where
  | confirmedMediumOrHigh
  | needsHuman
  deriving DecidableEq

structure QueuedVerification where
  itemId : JsString
  packetId : JsString
  reason : VerificationReason
  deriving DecidableEq

/-- The missing items of a packet are those of an assigned packet that are left. -/
structure VerdictCollectionReport where
  sourceState : SourceState
  summary : CollectionSummary
  missing : List AssignedPacket
  verificationQueue : List QueuedVerification
  verdicts : List CollectedVerdict
  deriving DecidableEq

/-! ## Ownership -/

def assignItem (packet : AssignedPacket) (ownership : JsMap JsString) (itemId : JsString) :
    Except JsString (JsMap JsString) :=
  if ownership.has itemId then throw (js "item " ++ itemId ++ js " is assigned more than once")
  else pure (ownership.set itemId packet.packetId)

def assignPacket (state : List JsString × JsMap JsString) (packet : AssignedPacket) :
    Except JsString (List JsString × JsMap JsString) := do
  if packet.packetId ∈ state.1 then throw (js "duplicate packet ID " ++ packet.packetId)
  let ownership ← packet.itemIds.foldlM (assignItem packet) state.2
  return (state.1 ++ [packet.packetId], ownership)

def buildOwnership (manifest : PacketManifestInput) : Except JsString (JsMap JsString) := do
  let state ← manifest.packets.foldlM assignPacket ([], JsMap.empty)
  return state.2

/-! ## Collection -/

def validateOwnership (verdict : TriageVerdict) (packetId : JsString) (ownership : JsMap JsString) :
    Except JsString Unit :=
  match ownership.get verdict.itemId with
  | none => throw (js "unknown item " ++ verdict.itemId)
  | some owner =>
    if owner ≠ packetId then
      throw (js "item " ++ verdict.itemId ++ js " belongs to " ++ owner ++ js ", not " ++ packetId)
    else pure ()

def collectedVerdict (file : NamedTriageVerdictFile) (verdict : TriageVerdict) : CollectedVerdict :=
  { verdict with
    packetId := file.result.packetId, inputPath := file.path, reviewer := file.result.reviewer }

def collectVerdict (ownership : JsMap JsString) (file : NamedTriageVerdictFile)
    (collected : JsMap CollectedVerdict) (verdict : TriageVerdict) :
    Except JsString (JsMap CollectedVerdict) := do
  validateOwnership verdict file.result.packetId ownership
  if collected.has verdict.itemId then throw (js "duplicate verdict for item " ++ verdict.itemId)
  return collected.set verdict.itemId (collectedVerdict file verdict)

def collectFile (ownership : JsMap JsString) (packetIds : List JsString)
    (collected : JsMap CollectedVerdict) (file : NamedTriageVerdictFile) :
    Except JsString (JsMap CollectedVerdict) := do
  if file.result.packetId ∉ packetIds then
    throw (js "unknown packet " ++ file.result.packetId ++ js " in " ++ file.path)
  file.result.verdicts.foldlM (collectVerdict ownership file) collected

def collectFiles (files : List NamedTriageVerdictFile) (ownership : JsMap JsString) :
    Except JsString (JsMap CollectedVerdict) :=
  files.foldlM (collectFile ownership (ownership.entries.map Prod.snd)) JsMap.empty

def validateCanonicalItem (ownership : JsMap JsString) (verdict : CollectedVerdict) :
    Except JsString Unit :=
  if verdict.verdict ≠ .duplicateOf then
    if verdict.canonicalItemId ≠ none then
      throw (verdict.verdict.text ++ js " verdict for " ++ verdict.itemId ++
        js " cannot set canonicalItemId")
    else pure ()
  else match verdict.canonicalItemId with
    | none => throw (js "duplicate-of verdict for " ++ verdict.itemId ++
        js " requires canonicalItemId")
    | some canonicalItemId =>
      if canonicalItemId = verdict.itemId then
        throw (js "duplicate-of verdict for " ++ verdict.itemId ++ js " cannot reference itself")
      else if !ownership.has canonicalItemId then
        throw (js "canonical item " ++ canonicalItemId ++ js " is not assigned")
      else pure ()

def validateCanonicalItems (collected : JsMap CollectedVerdict) (ownership : JsMap JsString) :
    Except JsString Unit :=
  (collected.entries.map Prod.snd).forM (validateCanonicalItem ownership)

def orderVerdicts (collected : JsMap CollectedVerdict) (manifest : PacketManifestInput) :
    List CollectedVerdict :=
  manifest.packets.flatMap fun packet => packet.itemIds.filterMap collected.get

def missingOf (collected : JsMap CollectedVerdict) (packet : AssignedPacket) : AssignedPacket :=
  { packet with itemIds := packet.itemIds.filter fun itemId => !collected.has itemId }

def missingByPacket (manifest : PacketManifestInput) (collected : JsMap CollectedVerdict) :
    List AssignedPacket :=
  (manifest.packets.map (missingOf collected)).filter fun packet => packet.itemIds.length > 0

/-! ## Summary -/

/-- No key is a name that objects inherit. -/
def countBy {Value : Type} (values : List Value) (keyFor : Value → JsString) : Entries Nat :=
  (countTokens (values.map keyFor)).entries

structure PacketTally where
  completedPackets : Nat
  partialPackets : Nat
  unstartedPackets : Nat

def tallyPacket (missingCounts : JsMap Nat) (tally : PacketTally) (packet : AssignedPacket) :
    PacketTally :=
  let missingCount := (missingCounts.get packet.packetId).getD 0
  if missingCount = 0 then { tally with completedPackets := tally.completedPackets + 1 }
  else if missingCount = packet.itemIds.length then
    { tally with unstartedPackets := tally.unstartedPackets + 1 }
  else { tally with partialPackets := tally.partialPackets + 1 }

def buildSummary (manifest : PacketManifestInput) (verdicts : List CollectedVerdict)
    (missing : List AssignedPacket) : CollectionSummary :=
  let assignedItems := manifest.packets.foldl (fun total packet => total + packet.itemIds.length) 0
  let missingCounts := JsMap.ofList (missing.map fun packet => (packet.packetId, packet.itemIds.length))
  let tally := manifest.packets.foldl (tallyPacket missingCounts) ⟨0, 0, 0⟩
  { assignedItems := assignedItems
    receivedVerdicts := verdicts.length
    missingItems := (assignedItems : Int) - verdicts.length
    totalPackets := manifest.packets.length
    completedPackets := tally.completedPackets
    partialPackets := tally.partialPackets
    unstartedPackets := tally.unstartedPackets
    byVerdict := countBy verdicts fun verdict => verdict.verdict.text
    bySeverity := countBy verdicts fun verdict => verdict.severity.text }

def queuedVerification (verdict : CollectedVerdict) : Option QueuedVerification :=
  if verdict.verdict = .needsHuman then some ⟨verdict.itemId, verdict.packetId, .needsHuman⟩
  else if verdict.verdict = .confirmed ∧ (verdict.severity = .high ∨ verdict.severity = .medium) then
    some ⟨verdict.itemId, verdict.packetId, .confirmedMediumOrHigh⟩
  else none

def buildVerificationQueue (verdicts : List CollectedVerdict) : List QueuedVerification :=
  verdicts.filterMap queuedVerification

def sourceState (manifest : PacketManifestInput) (current : Option CurrentSourceState) : SourceState :=
  let currentGitHead := current.bind CurrentSourceState.gitHead
  { manifestGitHead := manifest.provenance.gitHead
    currentGitHead := currentGitHead
    stale := match manifest.provenance.gitHead, currentGitHead with
      | some manifestHead, some currentHead => some (manifestHead ≠ currentHead)
      | _, _ => none
    manifestDirty := manifest.provenance.gitDirty
    currentDirty := current.bind CurrentSourceState.gitDirty }

def collectTriageVerdicts (manifest : PacketManifestInput) (files : List NamedTriageVerdictFile)
    (currentSource : Option CurrentSourceState) : Except JsString VerdictCollectionReport := do
  let ownership ← buildOwnership manifest
  let collected ← collectFiles files ownership
  validateCanonicalItems collected ownership
  let verdicts := orderVerdicts collected manifest
  let missing := missingByPacket manifest collected
  return {
    sourceState := sourceState manifest currentSource
    summary := buildSummary manifest verdicts missing
    missing := missing
    verificationQueue := buildVerificationQueue verdicts
    verdicts := verdicts }

end Musi.DriftTriage
