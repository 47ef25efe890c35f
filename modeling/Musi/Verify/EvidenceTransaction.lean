import Musi.Shell.Text
import Mathlib.Logic.Function.Basic

namespace Musi.Verify
open Musi.Shell
set_option autoImplicit true

/-! ## Directories -/

/-- The files of a log directory, by relative path. -/
abbrev LogTree := Text → Option Text

def emptyTree : LogTree := fun _ => none

def registrationLog : Text := sh "registration.log"

/-- The directory that mktemp makes for a backup: evidence/ and admission-registration.log. -/
structure EvidenceBackup where
  evidence : Option LogTree
  registration : Option Text

/-- The directories that a transaction touches. The staging directories go by the suffix that
mktemp gives them, and a displaced one by that of its staging directory. -/
structure Disk where
  live : Option LogTree
  backup : Option EvidenceBackup := none
  staging : Text → Option LogTree := fun _ => none
  displaced : Text → Option LogTree := fun _ => none

/-- How a recursive removal comes out: it is done, or it fails and what is left is nothing or
some of the files. -/
inductive Removal
  | done
  | partly (left : Option (Text → Bool))

def remainder (keep : Text → Bool) (tree : LogTree) : LogTree :=
  fun path => if keep path then tree path else none

def Removal.leaves : Removal → Option LogTree → Option LogTree
  | .done, _ => none
  | .partly left, tree => left.bind fun keep => tree.map (remainder keep)

/-- What a removal that failed left of a backup. -/
structure BackupRemains where
  gone : Bool
  evidence : Option (Text → Bool)
  registration : Bool

def BackupRemains.apply (left : BackupRemains) (backup : EvidenceBackup) : Option EvidenceBackup :=
  if left.gone then none
  else some
    { evidence := left.evidence.bind fun keep => backup.evidence.map (remainder keep)
      registration := if left.registration then backup.registration else none }

inductive BackupRemoval
  | done
  | partly (left : BackupRemains)

/-- mv: none where it fails. A destination that exists takes the source in and is left with
some contents. -/
def moveTree (succeeds : Bool) (inside : LogTree) (source destination : Option LogTree) :
    Option LogTree :=
  match succeeds, source, destination with
  | true, some tree, none => some tree
  | true, some _, some _ => some inside
  | _, _, _ => none

/-! ## The variables of the transaction -/

/-- The MUSI_VERIFY_GATE_ variables, the disk, and the disks before it, the last one first. -/
structure EvidenceState where
  disk : Disk
  history : List Disk := []
  /-- The variable is not empty. -/
  liveEvidenceBackup : Bool := false
  priorEvidenceRestored : Bool := false
  registrationCaptured : Bool := false
  evidenceSwapComplete : Bool := false
  evidenceStagingDir : Option Text := none
  evidenceDisplacedDir : Option Text := none

def EvidenceState.write (disk : Disk) (s : EvidenceState) : EvidenceState :=
  { s with disk, history := s.disk :: s.history }

/-- Status 0 or status 2, with the state at the return. -/
abbrev Attempt := Except EvidenceState EvidenceState

def Attempt.state : Attempt → EvidenceState
  | .ok s => s
  | .error s => s

/-! ## Backup -/

def discardLiveEvidenceBackup (removal : BackupRemoval) (s : EvidenceState) : Attempt :=
  if !s.liveEvidenceBackup then .ok s
  else match removal with
  | .partly left => .error (s.write { s.disk with backup := s.disk.backup.bind left.apply })
  | .done => .ok
    { s.write { s.disk with backup := none } with
      liveEvidenceBackup := false
      registrationCaptured := false
      evidenceSwapComplete := false
      evidenceStagingDir := none
      evidenceDisplacedDir := none }

/-- How the steps of one backup come out: true or none where one succeeds, and otherwise what it
leaves. -/
structure BackupSteps where
  removeBackup : BackupRemoval := .done
  mktemp : Bool := true
  mkdir : Bool := true
  copyEvidence : Option LogTree := none
  dropBackup : BackupRemoval := .done

def dropBackup (removal : BackupRemoval) (backup : EvidenceBackup) (s : EvidenceState) :
    EvidenceState :=
  match removal with
  | .done => s.write { s.disk with backup := none }
  | .partly left => s.write { s.disk with backup := left.apply backup }

/-- The backup once the last one is discarded; the variables name it only when it is complete. -/
def takeBackup (steps : BackupSteps) (s : EvidenceState) : Attempt :=
  if !steps.mktemp then .error s
  else if !steps.mkdir then
    .error (dropBackup steps.dropBackup { evidence := none, registration := none } s)
  else match s.disk.live, steps.copyEvidence with
  | some _, some left =>
    .error (dropBackup steps.dropBackup { evidence := some left, registration := none } s)
  | live, _ => .ok
    { s.write { s.disk with
        backup := some { evidence := some (live.getD emptyTree), registration := none } } with
      liveEvidenceBackup := true
      priorEvidenceRestored := false
      registrationCaptured := false
      evidenceSwapComplete := false
      evidenceStagingDir := none
      evidenceDisplacedDir := none }

def backupLiveEvidence (steps : BackupSteps) (s : EvidenceState) : Attempt := do
  let s ← discardLiveEvidenceBackup steps.removeBackup s
  takeBackup steps s

/-! ## Restoration -/

/-- How the steps of one restoration come out. -/
structure RestoreSteps where
  mktemp : Option Text
  captureCopy : Option (Option Text) := none
  removeStaging : Removal := .done
  copyEvidence : Option LogTree := none
  copyRegistration : Option (Option Text) := none
  displaceLive : Bool := true
  publishStaging : Bool := true
  rollback : Bool := true
  inside : LogTree := emptyTree
  dropStaging : Removal := .done
  removeDisplaced : Removal := .done
  removeBackup : BackupRemoval := .done

def captureRegistration (steps : RestoreSteps) (s : EvidenceState) : Attempt :=
  if s.registrationCaptured then .ok s
  else match s.disk.live.bind (· registrationLog), s.disk.backup with
  | none, _ => .ok { s with registrationCaptured := true }
  | some _, none => .error s
  | some log, some backup =>
    match steps.captureCopy with
    | some left => .error
      (s.write { s.disk with backup := some { backup with registration := left } })
    | none => .ok
      { s.write { s.disk with backup := some { backup with registration := some log } } with
        registrationCaptured := true }

def Disk.setStaging (name : Text) (tree : Option LogTree) (disk : Disk) : Disk :=
  { disk with staging := Function.update disk.staging name tree }

def Disk.setDisplaced (name : Text) (tree : Option LogTree) (disk : Disk) : Disk :=
  { disk with displaced := Function.update disk.displaced name tree }

/-- The staging directory is forgotten only once it is removed. -/
def removeStagingTree (removal : Removal) (name : Text) (s : EvidenceState) : Attempt :=
  match removal with
  | .done => .ok { s.write (s.disk.setStaging name none) with evidenceStagingDir := none }
  | .partly _ => .error (s.write (s.disk.setStaging name (removal.leaves (s.disk.staging name))))

/-- What a failure after mktemp does before it returns 2. -/
def dropStaging (steps : RestoreSteps) (name : Text) (s : EvidenceState) : Attempt :=
  .error (removeStagingTree steps.dropStaging name s).state

def removeOldStaging (steps : RestoreSteps) (s : EvidenceState) : Attempt :=
  match s.evidenceStagingDir with
  | none => .ok s
  | some name => removeStagingTree steps.removeStaging name s

def stageEvidence (steps : RestoreSteps) (name : Text) (s : EvidenceState) : Attempt :=
  match s.disk.backup.bind (·.evidence), steps.copyEvidence with
  | none, _ => .ok s
  | some _, some left => dropStaging steps name (s.write (s.disk.setStaging name (some left)))
  | some evidence, none => .ok (s.write (s.disk.setStaging name (some evidence)))

def stageRegistration (steps : RestoreSteps) (name : Text) (s : EvidenceState) : Attempt :=
  let copied (log : Option Text) : EvidenceState := s.write (s.disk.setStaging name
    ((s.disk.staging name).map fun tree => Function.update tree registrationLog log))
  match s.disk.backup.bind (·.registration), steps.copyRegistration with
  | none, _ => .ok s
  | some _, some left => dropStaging steps name (copied left)
  | some log, none => .ok (copied (some log))

def displaceLive (steps : RestoreSteps) (name : Text) (s : EvidenceState) : Attempt :=
  if s.disk.live = none then .ok s
  else match moveTree steps.displaceLive steps.inside s.disk.live (s.disk.displaced name) with
  | none => dropStaging steps name s
  | some tree => .ok
    { s.write { s.disk.setDisplaced name (some tree) with live := none } with
      evidenceDisplacedDir := some name }

/-- The displaced directory of this call is moved back; an earlier one stays where it is. -/
def rollBack (steps : RestoreSteps) (name : Text) (s : EvidenceState) : EvidenceState :=
  if s.evidenceDisplacedDir = none then s
  else match moveTree steps.rollback steps.inside (s.disk.displaced name) s.disk.live with
  | none => s
  | some tree =>
    { s.write { s.disk.setDisplaced name none with live := some tree } with
      evidenceDisplacedDir := none }

def publishStaging (steps : RestoreSteps) (name : Text) (s : EvidenceState) : Attempt :=
  match moveTree steps.publishStaging steps.inside (s.disk.staging name) s.disk.live with
  | none => dropStaging steps name (rollBack steps name s)
  | some tree => .ok
    { s.write { s.disk.setStaging name none with live := some tree } with
      evidenceStagingDir := none
      evidenceSwapComplete := true }

def swapEvidence (steps : RestoreSteps) (s : EvidenceState) : Attempt := do
  let s ← removeOldStaging steps s
  match steps.mktemp with
  | none => .error s
  | some name =>
    let s := { s.write (s.disk.setStaging name (some emptyTree)) with
      evidenceStagingDir := some name }
    let s ← stageEvidence steps name s
    let s ← stageRegistration steps name s
    let s ← displaceLive steps name s
    publishStaging steps name s

def removeDisplaced (steps : RestoreSteps) (s : EvidenceState) : Attempt :=
  match s.evidenceDisplacedDir, steps.removeDisplaced with
  | none, _ => .ok s
  | some name, .done => .ok
    { s.write (s.disk.setDisplaced name none) with evidenceDisplacedDir := none }
  | some name, .partly left => .error
    (s.write (s.disk.setDisplaced name ((Removal.partly left).leaves (s.disk.displaced name))))

def restoreLiveEvidenceDir (steps : RestoreSteps) (s : EvidenceState) : Attempt :=
  if !s.liveEvidenceBackup then .ok s
  else do
    let s ← captureRegistration steps s
    let s ← if s.evidenceSwapComplete then .ok s else swapEvidence steps s
    let s ← removeDisplaced steps s
    let s ← discardLiveEvidenceBackup steps.removeBackup s
    .ok { s with priorEvidenceRestored := true }

end Musi.Verify
