import Musi.Verify.EvidenceSafety

namespace Musi.Verify
open Musi.Shell Musi.System Relation
set_option autoImplicit true

/-! ## Runs of the gate after a backup -/

/-- The admission run leaves some files in the live directory. -/
def admitEvidence (admission : Option LogTree) (s : EvidenceState) : EvidenceState :=
  { s with disk := { s.disk with live := admission }, history := [] }

/-- The gate may first discard the backup, on its way to the slots. -/
def discardFirst (removal : Option BackupRemoval) (s : EvidenceState) : EvidenceState :=
  match removal with
  | none => s
  | some removal => (discardLiveEvidenceBackup removal s).state

/-- One call of the restoration, by the gate or by its cleanup at the exit, which both make it
only while the backup is recorded. -/
inductive RestoreStep (s : EvidenceState) : EvidenceState → Prop
  | call (steps : RestoreSteps) (hopen : s.liveEvidenceBackup = true) :
    RestoreStep s (restoreLiveEvidenceDir steps s).state

/-- What holds of the evidence in one state of a run. -/
structure EvidenceSafe (prior : LogTree) (registration : Option Text) (s : EvidenceState) : Prop where
  /-- At every moment before the transaction ends, a complete copy is in the backup or live. -/
  kept : s.liveEvidenceBackup = true → ∀ disk ∈ s.disk :: s.history, CopyKept prior registration disk
  /-- A call returns 0 only with the evidence live and nothing left behind, and keeps a copy until
  then. -/
  restored : s.liveEvidenceBackup = true → ∀ steps s', restoreLiveEvidenceDir steps s = .ok s' →
    Restored prior registration s'.disk ∧
      ∀ disk ∈ s'.disk :: s'.history, CopyKept prior registration disk
  /-- A call in which no step fails returns 0. -/
  retried : s.liveEvidenceBackup = true → ∀ steps : RestoreSteps, steps.Succeed →
    ∃ s', restoreLiveEvidenceDir steps s = .ok s'

/-- A removal that failed took nothing of the evidence away. -/
def BackupRemains.KeepsEvidence (left : BackupRemains) (prior : LogTree) : Prop :=
  left.gone = false ∧
    ∃ keep, left.evidence = some keep ∧ ∀ path, prior path ≠ none → keep path = true

variable {prior : LogTree} {registration : Option Text} {s s' : EvidenceState}

theorem remainder_eq {keep : Text → Bool} (h : ∀ path, prior path ≠ none → keep path = true) :
    remainder keep prior = prior := by
  funext path
  rw [remainder]
  split
  · rfl
  · next hk =>
    by_contra hne
    exact hk (h path (Ne.symm hne))

theorem Open.safe (h : Open prior registration s) : EvidenceSafe prior registration s where
  kept _ := h.log
  restored := by
    intro _ steps s' hs
    have hclosed := (h.restore steps).ok hs
    refine ⟨hclosed.restored, fun disk hd => ?_⟩
    obtain rfl | hd := List.mem_cons.1 hd
    · exact .inr hclosed.restored.live
    · exact hclosed.history disk hd
  retried := by
    intro _ steps hsucceed
    obtain ⟨s', hs, _⟩ := (h.restore steps).total fun _ he => he.2 hsucceed
    exact ⟨s', hs⟩

/-- Once the backup is no longer recorded no call is made. -/
theorem safe_of_closed (h : s.liveEvidenceBackup = false) : EvidenceSafe prior registration s where
  kept hopen := absurd (h.symm.trans hopen) nofun
  restored hopen := absurd (h.symm.trans hopen) nofun
  retried hopen := absurd (h.symm.trans hopen) nofun

/-- The backup of a fresh process, then the admission run. -/
theorem admit_open {live : Option LogTree} (admission : Option LogTree) {steps : BackupSteps}
    (h : backupLiveEvidence steps { disk := { live := live } } = .ok s) :
    Swapping (live.getD emptyTree) (admission.bind (· registrationLog)) (admitEvidence admission s) ∧
      s.registrationCaptured = false := by
  change takeBackup steps { disk := { live := live } } = .ok s at h
  rw [takeBackup] at h
  split at h
  · exact absurd h nofun
  · split at h
    · exact absurd h nofun
    · split at h
      · exact absurd h nofun
      · cases h
        exact ⟨
          { opened := rfl
            pending := rfl
            backup := ⟨_, rfl, rfl, fun _ => rfl, nofun⟩
            uncaptured := fun _ => rfl
            staging := fun _ hs => absurd rfl hs
            displaced := fun _ hd => absurd rfl hd
            vacated := fun _ => rfl
            history := fun _ hd => absurd hd List.not_mem_nil }, rfl⟩

/-- The evidence is safe, or the transaction is over. -/
def Ongoing (prior : LogTree) (registration : Option Text) (s : EvidenceState) : Prop :=
  Open prior registration s ∨ s.liveEvidenceBackup = false

theorem Ongoing.safe (h : Ongoing prior registration s) : EvidenceSafe prior registration s :=
  h.elim (·.safe) safe_of_closed

theorem Ongoing.step (h : Ongoing prior registration s) (hstep : RestoreStep s s') :
    Ongoing prior registration s' := by
  obtain ⟨steps, hopen⟩ := hstep
  obtain h | hclosed := h
  · have hreturns := h.restore steps
    cases hr : restoreLiveEvidenceDir steps s with
    | ok s' => exact .inr (hreturns.ok hr).closed
    | error s' =>
      rw [hr] at hreturns
      exact .inl hreturns.1
  · exact absurd (hclosed.symm.trans hopen) nofun

/-- A discard ends the transaction, or leaves it as it was where nothing of the evidence is
taken away. -/
theorem discardFirst_ongoing (h : Swapping prior registration s) (hc : s.registrationCaptured = false)
    {removal : Option BackupRemoval}
    (hkeeps : ∀ left, removal = some (.partly left) → left.KeepsEvidence prior) :
    Ongoing prior registration (discardFirst removal s) := by
  cases removal with
  | none => exact .inl (.inl h)
  | some removal =>
    change Ongoing prior registration (discardLiveEvidenceBackup removal s).state
    rw [discardLiveEvidenceBackup.eq_def, h.opened]
    cases removal with
    | done => exact .inr rfl
    | partly left =>
      obtain ⟨hgone, keep, hkeep, hall⟩ := hkeeps left rfl
      obtain ⟨backup, hbackup, hevidence, hnone, _⟩ := h.backup
      refine .inl (.inl { h with
        backup := ⟨{ evidence := some prior
                     registration := if left.registration then backup.registration else none },
          ?_, rfl, fun hn => ?_, fun hc' => absurd (hc.symm.trans hc') Bool.false_ne_true⟩
        history := h.log })
      · change s.disk.backup.bind left.apply = _
        rw [hbackup, Option.bind_some, BackupRemains.apply, hgone, hkeep, hevidence,
          Option.bind_some, Option.map_some, remainder_eq hall]
        rfl
      · change (if left.registration then backup.registration else none) = none
        rw [hnone hn]
        exact ite_self _

/-- The prior evidence survives every run after a successful backup, whichever steps fail, if a
discard that fails takes nothing of the saved evidence away. -/
theorem evidence_survives (live admission : Option LogTree) (steps : BackupSteps)
    (s₀ : EvidenceState) (hbackup : backupLiveEvidence steps { disk := { live := live } } = .ok s₀)
    (removal : Option BackupRemoval)
    (hkeeps : ∀ left, removal = some (.partly left) → left.KeepsEvidence (live.getD emptyTree))
    (s : EvidenceState)
    (hrun : ReflTransGen RestoreStep (discardFirst removal (admitEvidence admission s₀)) s) :
    EvidenceSafe (live.getD emptyTree) (admission.bind (· registrationLog)) s := by
  obtain ⟨hstart, hcaptured⟩ := admit_open admission hbackup
  have hfirst := discardFirst_ongoing hstart hcaptured hkeeps
  exact (run_invariant hrun hfirst fun hs => hs.step).safe

/-- Prior evidence of one slot log. -/
def lintEvidence : LogTree := fun path => if path = sh "lint.log" then some (sh "ok") else none

def admissionLogs : LogTree := fun path => if path = registrationLog then some (sh "new") else none

def lintBackup : EvidenceState :=
  (backupLiveEvidence {} { disk := { live := some lintEvidence } }).state

/-- The swap fails half way and cannot be rolled back, and the staging directory stays too. -/
def failedSwap : RestoreSteps where
  mktemp := some (sh "a")
  publishStaging := false
  rollback := false
  dropStaging := .partly (some fun _ => true)

def afterFailedSwap : EvidenceState :=
  (restoreLiveEvidenceDir failedSwap (admitEvidence (some admissionLogs) lintBackup)).state

theorem evidence_survives_swap : ∃ s', restoreLiveEvidenceDir { mktemp := some (sh "b") }
    afterFailedSwap = .ok s' ∧
      s'.disk.live = some (restoredTree lintEvidence (some (sh "new"))) := by
  have hsafe := evidence_survives (some lintEvidence) (some admissionLogs) {} lintBackup rfl none
    nofun afterFailedSwap (.single (.call failedSwap rfl))
  obtain ⟨s', hs'⟩ := hsafe.retried rfl { mktemp := some (sh "b") }
    ⟨nofun, rfl, rfl, rfl, rfl, rfl, rfl, rfl, rfl⟩
  exact ⟨s', hs', (hsafe.restored rfl _ s' hs').1.live⟩

/-- A removal that stops once the evidence is gone. -/
def lostEvidence : BackupRemoval :=
  .partly { gone := false, evidence := some fun _ => false, registration := false }

def afterLoss : EvidenceState := discardFirst (some lostEvidence) (admitEvidence (some admissionLogs) lintBackup)

/-- Without the condition the next call restores what the discard left of the backup. -/
theorem evidence_survives_fails : ¬∀ (live admission : Option LogTree) (steps : BackupSteps)
    (s₀ : EvidenceState), backupLiveEvidence steps { disk := { live := live } } = .ok s₀ →
    ∀ (removal : Option BackupRemoval) (s : EvidenceState),
      ReflTransGen RestoreStep (discardFirst removal (admitEvidence admission s₀)) s →
        EvidenceSafe (live.getD emptyTree) (admission.bind (· registrationLog)) s := by
  intro h
  have hsafe := h (some lintEvidence) (some admissionLogs) {} lintBackup rfl (some lostEvidence)
    afterLoss .refl
  have hlive := (hsafe.restored rfl { mktemp := some (sh "b") }
    (restoreLiveEvidenceDir { mktemp := some (sh "b") } afterLoss).state rfl).1.live
  have hlint := congrArg (Option.bind · (· (sh "lint.log"))) hlive
  revert hlint
  decide +kernel

end Musi.Verify
