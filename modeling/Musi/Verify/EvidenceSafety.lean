import Musi.System.Runs
import Musi.Verify.EvidenceTransaction

namespace Musi.Verify
open Musi.Shell Musi.System
set_option autoImplicit true

/-! ## What a transaction has to keep -/

/-- The prior evidence, with the registration log of the admission where it wrote one. -/
def restoredTree (prior : LogTree) : Option Text → LogTree
  | none => prior
  | some log => Function.update prior registrationLog (some log)

/-- A complete copy is in the backup, or live. -/
def CopyKept (prior : LogTree) (registration : Option Text) (disk : Disk) : Prop :=
  (∃ backup, disk.backup = some backup ∧ backup.evidence = some prior) ∨
    disk.live = some (restoredTree prior registration)

/-- The prior evidence is live and nothing of the transaction is left. -/
structure Restored (prior : LogTree) (registration : Option Text) (disk : Disk) : Prop where
  live : disk.live = some (restoredTree prior registration)
  backup : disk.backup = none
  staging : ∀ name, disk.staging name = none
  displaced : ∀ name, disk.displaced name = none

/-- No step of a restoration fails. -/
structure RestoreSteps.Succeed (steps : RestoreSteps) : Prop where
  mktemp : steps.mktemp ≠ none
  captureCopy : steps.captureCopy = none
  removeStaging : steps.removeStaging = .done
  copyEvidence : steps.copyEvidence = none
  copyRegistration : steps.copyRegistration = none
  displaceLive : steps.displaceLive = true
  publishStaging : steps.publishStaging = true
  removeDisplaced : steps.removeDisplaced = .done
  removeBackup : steps.removeBackup = .done

variable {prior : LogTree} {registration : Option Text} {s : EvidenceState} {steps : RestoreSteps}
  {name : Text}

/-! ## Before the swap -/

/-- The backup holds the prior evidence, whatever the live directory is. -/
structure Swapping (prior : LogTree) (registration : Option Text) (s : EvidenceState) : Prop where
  opened : s.liveEvidenceBackup = true
  pending : s.evidenceSwapComplete = false
  backup : ∃ backup, s.disk.backup = some backup ∧ backup.evidence = some prior ∧
    (registration = none → backup.registration = none) ∧
    (s.registrationCaptured = true → backup.registration = registration)
  uncaptured : s.registrationCaptured = false →
    s.disk.live.bind (· registrationLog) = registration
  staging : ∀ name, s.disk.staging name ≠ none → s.evidenceStagingDir = some name
  displaced : ∀ name, s.disk.displaced name ≠ none → s.evidenceDisplacedDir = some name
  vacated : s.disk.live ≠ none → s.evidenceDisplacedDir = none
  history : ∀ disk ∈ s.history, CopyKept prior registration disk

theorem Swapping.kept (h : Swapping prior registration s) : CopyKept prior registration s.disk := by
  obtain ⟨backup, hbackup, hevidence, _⟩ := h.backup
  exact .inl ⟨backup, hbackup, hevidence⟩

theorem Swapping.log (h : Swapping prior registration s) :
    ∀ disk ∈ s.disk :: s.history, CopyKept prior registration disk := by
  intro disk hd
  obtain rfl | hd := List.mem_cons.1 hd
  · exact h.kept
  · exact h.history disk hd

theorem Swapping.captureRegistration (h : Swapping prior registration s) :
    Returns (fun s' => Swapping prior registration s' ∧ s'.registrationCaptured = true)
      (fun s' => Swapping prior registration s' ∧ ¬steps.Succeed)
      (captureRegistration steps s) := by
  obtain ⟨backup, hbackup, hevidence, hnone, hcaptured⟩ := h.backup
  rw [Verify.captureRegistration]
  split
  · next hc => exact ⟨h, hc⟩
  · next hc =>
    rw [Bool.not_eq_true] at hc
    have hlive := h.uncaptured hc
    split
    · next hlog =>
      refine ⟨{ h with
        backup := ⟨backup, hbackup, hevidence, hnone, fun _ => ?_⟩
        uncaptured := nofun }, rfl⟩
      rw [hlog] at hlive
      rw [hnone hlive.symm, ← hlive]
    · next hgone => exact absurd (hbackup.symm.trans hgone) nofun
    · next log backup' hlog hsome =>
      cases Option.some.inj (hbackup.symm.trans hsome)
      rw [hlog] at hlive
      split
      · next left hleft =>
        refine ⟨{ h with
          backup := ⟨_, rfl, hevidence, fun hn => ?_, fun hc' => ?_⟩
          history := h.log }, fun hs => ?_⟩
        · exact absurd (hlive.trans hn) nofun
        · exact absurd (hc.symm.trans hc') nofun
        · exact absurd (hleft.symm.trans hs.captureCopy) nofun
      · refine ⟨{ h with
          backup := ⟨_, rfl, hevidence, fun hn => ?_, fun _ => hlive⟩
          uncaptured := nofun
          history := h.log }, rfl⟩
        exact absurd (hlive.trans hn) nofun

/-- The one staging directory is written or removed. -/
theorem Swapping.setStaging (h : Swapping prior registration s) (dir : Option Text)
    {tree : Option LogTree} (hothers : ∀ other, other ≠ name → s.disk.staging other = none)
    (hdir : tree ≠ none → dir = some name) :
    Swapping prior registration
      { s.write (s.disk.setStaging name tree) with evidenceStagingDir := dir } :=
  { h with
    staging := by
      intro other ho
      change Function.update s.disk.staging name tree other ≠ none at ho
      by_cases heq : other = name
      · subst heq
        rw [Function.update_self] at ho
        exact hdir ho
      · rw [Function.update_of_ne heq] at ho
        exact absurd (hothers other heq) ho
    history := h.log }

/-- While a staging directory is recorded there is no other. -/
theorem Swapping.only_staging (h : Swapping prior registration s)
    (hdir : s.evidenceStagingDir = some name) :
    ∀ other, other ≠ name → s.disk.staging other = none := by
  intro other ho
  by_contra hsome
  exact ho (Option.some.inj ((h.staging other hsome).symm.trans hdir))

theorem Swapping.no_staging (h : Swapping prior registration s) (hdir : s.evidenceStagingDir = none) :
    ∀ other, s.disk.staging other = none := by
  intro other
  by_contra hsome
  exact absurd ((h.staging other hsome).symm.trans hdir) nofun

theorem Swapping.no_displaced (h : Swapping prior registration s)
    (hdir : s.evidenceDisplacedDir = none) : ∀ other, s.disk.displaced other = none := by
  intro other
  by_contra hsome
  exact absurd ((h.displaced other hsome).symm.trans hdir) nofun

theorem Swapping.removeStagingTree (h : Swapping prior registration s)
    (hdir : s.evidenceStagingDir = some name) (removal : Removal) :
    Returns
      (fun s' => Swapping prior registration s' ∧
        s'.registrationCaptured = s.registrationCaptured ∧ s'.evidenceStagingDir = none)
      (fun s' => Swapping prior registration s' ∧ removal ≠ .done)
      (removeStagingTree removal name s) := by
  cases removal with
  | done => exact ⟨h.setStaging _ (h.only_staging hdir) fun hn => absurd rfl hn, rfl, rfl⟩
  | partly left =>
    exact ⟨h.setStaging s.evidenceStagingDir (h.only_staging hdir) fun _ => hdir, nofun⟩

theorem Swapping.dropStaging (h : Swapping prior registration s)
    (hdir : s.evidenceStagingDir = some name) (hfail : ¬steps.Succeed) (post : EvidenceState → Prop) :
    Returns post (fun s' => Swapping prior registration s' ∧ ¬steps.Succeed)
      (dropStaging steps name s) := by
  have hremove := h.removeStagingTree hdir steps.dropStaging
  rw [Verify.dropStaging]
  cases hr : Verify.removeStagingTree steps.dropStaging name s with
  | ok s' =>
    rw [hr] at hremove
    exact ⟨hremove.1, hfail⟩
  | error s' =>
    rw [hr] at hremove
    exact ⟨hremove.1, hfail⟩

/-- A staging directory with known contents, after the registration log is saved. -/
structure Staged (prior : LogTree) (registration : Option Text) (name : Text) (tree : LogTree)
    (s : EvidenceState) : Prop where
  swapping : Swapping prior registration s
  captured : s.registrationCaptured = true
  dir : s.evidenceStagingDir = some name
  staging : s.disk.staging name = some tree

theorem Staged.setStaging {tree : LogTree} (h : Staged prior registration name tree s)
    (tree' : LogTree) :
    Staged prior registration name tree' (s.write (s.disk.setStaging name (some tree'))) where
  swapping := h.swapping.setStaging s.evidenceStagingDir (h.swapping.only_staging h.dir)
    fun _ => h.dir
  captured := h.captured
  dir := h.dir
  staging := Function.update_self _ _ _

theorem Swapping.removeOldStaging (h : Swapping prior registration s)
    (hc : s.registrationCaptured = true) :
    Returns
      (fun s' => Swapping prior registration s' ∧ s'.registrationCaptured = true ∧
        s'.evidenceStagingDir = none)
      (fun s' => Swapping prior registration s' ∧ ¬steps.Succeed)
      (removeOldStaging steps s) := by
  rw [Verify.removeOldStaging]
  split
  · next hdir => exact ⟨h, hc, hdir⟩
  · next name hdir =>
    refine (h.removeStagingTree hdir steps.removeStaging).mono ?_ ?_
    · rintro s' ⟨hs, hsame, hnone⟩
      exact ⟨hs, hsame.trans hc, hnone⟩
    · rintro s' ⟨hs, hfail⟩
      exact ⟨hs, fun hsucceed => hfail hsucceed.removeStaging⟩

theorem Staged.stageEvidence {tree : LogTree} (h : Staged prior registration name tree s) :
    Returns (Staged prior registration name prior)
      (fun s' => Swapping prior registration s' ∧ ¬steps.Succeed)
      (stageEvidence steps name s) := by
  obtain ⟨backup, hbackup, hevidence, _⟩ := h.swapping.backup
  have hfrom : s.disk.backup.bind (·.evidence) = some prior := by rw [hbackup]; exact hevidence
  rw [Verify.stageEvidence, hfrom]
  split
  · next hnone => exact absurd hnone nofun
  · next left _ hcopy =>
    exact Swapping.dropStaging (h.setStaging left).swapping h.dir
      (fun hs => absurd (hcopy.symm.trans hs.copyEvidence) nofun) _
  · next evidence hsome _ =>
    cases hsome
    exact h.setStaging _

theorem Staged.stageRegistration (h : Staged prior registration name prior s) :
    Returns (Staged prior registration name (restoredTree prior registration))
      (fun s' => Swapping prior registration s' ∧ ¬steps.Succeed)
      (stageRegistration steps name s) := by
  obtain ⟨backup, hbackup, _, _, hcaptured⟩ := h.swapping.backup
  have hfrom : s.disk.backup.bind (·.registration) = registration := by
    rw [hbackup]
    exact hcaptured h.captured
  rw [Verify.stageRegistration, hfrom, h.staging]
  cases registration with
  | none => exact h
  | some log =>
    cases hcopy : steps.copyRegistration with
    | some left =>
      exact Swapping.dropStaging
        (h.setStaging (Function.update prior registrationLog left)).swapping h.dir
        (fun hs => absurd (hcopy.symm.trans hs.copyRegistration) nofun) _
    | none => exact h.setStaging _

/-- The live directory is out of the way of the staging directory. -/
theorem Staged.displaceLive (h : Staged prior registration name (restoredTree prior registration) s) :
    Returns
      (fun s' => Staged prior registration name (restoredTree prior registration) s' ∧
        s'.disk.live = none)
      (fun s' => Swapping prior registration s' ∧ ¬steps.Succeed)
      (displaceLive steps name s) := by
  rw [Verify.displaceLive]
  split
  · next hlive => exact ⟨h, hlive⟩
  · next hlive =>
    have hdisplaced := h.swapping.no_displaced (h.swapping.vacated hlive)
    obtain ⟨live, hsome⟩ := Option.ne_none_iff_exists'.1 hlive
    rw [hdisplaced name, hsome]
    split
    · next hmove =>
      refine Swapping.dropStaging h.swapping h.dir (fun hs => ?_) _
      rw [hs.displaceLive] at hmove
      exact absurd hmove nofun
    · refine ⟨⟨{ h.swapping with
        uncaptured := fun hc => absurd (h.captured.symm.trans hc) nofun
        displaced := ?_
        vacated := fun hl => absurd rfl hl
        history := h.swapping.log }, h.captured, h.dir, h.staging⟩, rfl⟩
      intro other ho
      change Function.update s.disk.displaced name _ other ≠ none at ho
      by_cases heq : other = name
      · rw [heq]
      · rw [Function.update_of_ne heq, hdisplaced other] at ho
        exact absurd rfl ho

variable (steps) in
/-- What is moved back is what this call displaced, so nothing displaced is left. -/
theorem Staged.rollBack {tree : LogTree} (h : Staged prior registration name tree s)
    (hlive : s.disk.live = none) :
    Staged prior registration name tree (rollBack steps name s) := by
  rw [Verify.rollBack, hlive]
  split
  · exact h
  · split
    · exact h
    · next moved hmove =>
      have hfrom : s.disk.displaced name ≠ none := by
        intro hnone
        rw [hnone] at hmove
        cases hsucceeds : steps.rollback <;> rw [hsucceeds] at hmove <;> exact absurd hmove nofun
      have hdir := h.swapping.displaced name hfrom
      refine ⟨{ h.swapping with
        uncaptured := fun hc => absurd (h.captured.symm.trans hc) nofun
        displaced := ?_
        vacated := fun _ => rfl
        history := h.swapping.log }, h.captured, h.dir, h.staging⟩
      intro other ho
      change Function.update s.disk.displaced name none other ≠ none at ho
      by_cases heq : other = name
      · subst heq
        rw [Function.update_self] at ho
        exact absurd rfl ho
      · rw [Function.update_of_ne heq] at ho
        exact absurd (Option.some.inj ((h.swapping.displaced other ho).symm.trans hdir)) heq

/-! ## After the swap -/

/-- The prior evidence is live, whatever is left of the backup. -/
structure Swapped (prior : LogTree) (registration : Option Text) (s : EvidenceState) : Prop where
  opened : s.liveEvidenceBackup = true
  complete : s.evidenceSwapComplete = true
  captured : s.registrationCaptured = true
  live : s.disk.live = some (restoredTree prior registration)
  staging : ∀ name, s.disk.staging name = none
  displaced : ∀ name, s.disk.displaced name ≠ none → s.evidenceDisplacedDir = some name
  history : ∀ disk ∈ s.history, CopyKept prior registration disk

theorem Swapped.log (h : Swapped prior registration s) :
    ∀ disk ∈ s.disk :: s.history, CopyKept prior registration disk := by
  intro disk hd
  obtain rfl | hd := List.mem_cons.1 hd
  · exact .inr h.live
  · exact h.history disk hd

theorem Staged.publishStaging (h : Staged prior registration name (restoredTree prior registration) s)
    (hlive : s.disk.live = none) :
    Returns (Swapped prior registration)
      (fun s' => Swapping prior registration s' ∧ ¬steps.Succeed)
      (publishStaging steps name s) := by
  rw [Verify.publishStaging, h.staging, hlive]
  cases hsucceeds : steps.publishStaging with
  | false =>
    have hback := h.rollBack steps hlive
    refine Swapping.dropStaging hback.swapping hback.dir (fun hs => ?_) _
    exact absurd (hsucceeds.symm.trans hs.publishStaging) nofun
  | true =>
    exact
      { opened := h.swapping.opened
        complete := rfl
        captured := h.captured
        live := rfl
        staging := by
          intro other
          change Function.update s.disk.staging name none other = none
          by_cases heq : other = name
          · rw [heq, Function.update_self]
          · rw [Function.update_of_ne heq]
            exact h.swapping.only_staging h.dir other heq
        displaced := h.swapping.displaced
        history := h.swapping.log }

theorem Swapping.swapEvidence (h : Swapping prior registration s)
    (hc : s.registrationCaptured = true) :
    Returns (Swapped prior registration)
      (fun s' => Swapping prior registration s' ∧ ¬steps.Succeed)
      (swapEvidence steps s) := by
  rw [Verify.swapEvidence]
  refine (h.removeOldStaging hc).bind fun s₁ ⟨h₁, hc₁, hdir₁⟩ => ?_
  split
  · next hnone => exact ⟨h₁, fun hs => hs.mktemp hnone⟩
  · next name _ =>
    have hmade : Staged prior registration name emptyTree
        { s₁.write (s₁.disk.setStaging name (some emptyTree)) with
          evidenceStagingDir := some name } :=
      ⟨h₁.setStaging _ (fun other _ => h₁.no_staging hdir₁ other) fun _ => rfl, hc₁, rfl,
        Function.update_self _ _ _⟩
    refine hmade.stageEvidence.bind fun s₂ h₂ => ?_
    refine h₂.stageRegistration.bind fun s₃ h₃ => ?_
    exact h₃.displaceLive.bind fun s₄ h₄ => h₄.1.publishStaging h₄.2

theorem Swapped.removeDisplaced (h : Swapped prior registration s) :
    Returns
      (fun s' => Swapped prior registration s' ∧ ∀ name, s'.disk.displaced name = none)
      (fun s' => Swapped prior registration s' ∧ ¬steps.Succeed)
      (removeDisplaced steps s) := by
  have honly : ∀ {name}, s.evidenceDisplacedDir = some name → ∀ other, other ≠ name →
      s.disk.displaced other = none := by
    intro name hdir other ho
    by_contra hsome
    exact ho (Option.some.inj ((h.displaced other hsome).symm.trans hdir))
  rw [Verify.removeDisplaced]
  split
  · next hdir =>
    refine ⟨h, fun other => ?_⟩
    by_contra hsome
    exact absurd ((h.displaced other hsome).symm.trans hdir) nofun
  · next name hdir _ =>
    have hnone : ∀ other, Function.update s.disk.displaced name none other = none := by
      intro other
      by_cases heq : other = name
      · rw [heq, Function.update_self]
      · rw [Function.update_of_ne heq]
        exact honly hdir other heq
    exact ⟨{ h with
      displaced := fun other ho => absurd (hnone other) ho
      history := h.log }, hnone⟩
  · next name left hdir hremove =>
    refine ⟨{ h with
      displaced := fun other ho => ?_
      history := h.log }, fun hs => absurd (hremove.symm.trans hs.removeDisplaced) nofun⟩
    by_cases heq : other = name
    · rw [heq]
      exact hdir
    · change Function.update s.disk.displaced name _ other ≠ none at ho
      rw [Function.update_of_ne heq, honly hdir other heq] at ho
      exact absurd rfl ho

/-- The transaction is over: the prior evidence is back. -/
structure Closed (prior : LogTree) (registration : Option Text) (s : EvidenceState) : Prop where
  closed : s.liveEvidenceBackup = false
  restored : Restored prior registration s.disk
  history : ∀ disk ∈ s.history, CopyKept prior registration disk

theorem Swapped.discard (h : Swapped prior registration s)
    (hnone : ∀ name, s.disk.displaced name = none) :
    Returns (Closed prior registration) (fun s' => Swapped prior registration s' ∧ ¬steps.Succeed)
      (discardLiveEvidenceBackup steps.removeBackup s) := by
  rw [discardLiveEvidenceBackup.eq_def, h.opened]
  cases hremove : steps.removeBackup with
  | done => exact ⟨rfl, ⟨h.live, rfl, h.staging, hnone⟩, h.log⟩
  | partly left =>
    exact ⟨{ h with history := h.log }, fun hs => absurd (hremove.symm.trans hs.removeBackup) nofun⟩

/-- The evidence is safe on either side of the swap. -/
def Open (prior : LogTree) (registration : Option Text) (s : EvidenceState) : Prop :=
  Swapping prior registration s ∨ Swapped prior registration s

theorem Open.opened (h : Open prior registration s) : s.liveEvidenceBackup = true :=
  h.elim (·.opened) (·.opened)

theorem Open.log (h : Open prior registration s) :
    ∀ disk ∈ s.disk :: s.history, CopyKept prior registration disk :=
  h.elim (·.log) (·.log)

variable (steps) in
/-- Every call ends the transaction or can be repeated. -/
theorem Open.restore (h : Open prior registration s) :
    Returns (Closed prior registration) (fun s' => Open prior registration s' ∧ ¬steps.Succeed)
      (restoreLiveEvidenceDir steps s) := by
  have hswapped : ∀ {s}, Swapped prior registration s →
      Returns (Closed prior registration) (fun s' => Open prior registration s' ∧ ¬steps.Succeed)
        (do
          let s ← removeDisplaced steps s
          let s ← discardLiveEvidenceBackup steps.removeBackup s
          .ok { s with priorEvidenceRestored := true }) := by
    intro s hs
    have hafter : ∀ s', Swapped prior registration s' ∧ ¬steps.Succeed →
        Open prior registration s' ∧ ¬steps.Succeed := fun s' h' => ⟨.inr h'.1, h'.2⟩
    refine (hs.removeDisplaced.mono (fun _ => id) hafter).bind fun s₁ ⟨h₁, hnone⟩ => ?_
    exact ((h₁.discard hnone).mono (fun _ => id) hafter).bind fun s₂ h₂ =>
      ⟨h₂.closed, h₂.restored, h₂.history⟩
  have hbefore : ∀ s', Swapping prior registration s' ∧ ¬steps.Succeed →
      Open prior registration s' ∧ ¬steps.Succeed := fun s' h' => ⟨.inl h'.1, h'.2⟩
  rw [restoreLiveEvidenceDir, h.opened]
  obtain h | h := h
  · refine (h.captureRegistration.mono (fun _ => id) hbefore).bind fun s₁ ⟨h₁, hc₁⟩ => ?_
    rw [h₁.pending]
    exact ((h₁.swapEvidence hc₁).mono (fun _ => id) hbefore).bind fun s₂ => hswapped
  · have hcapture : captureRegistration steps s = .ok s := by
      rw [captureRegistration, h.captured]
      rfl
    rw [hcapture]
    change Returns _ _ (do
      let s ← if s.evidenceSwapComplete then .ok s else swapEvidence steps s
      _)
    rw [h.complete]
    exact hswapped h

end Musi.Verify
