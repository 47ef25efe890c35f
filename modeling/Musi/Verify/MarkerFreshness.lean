import Mathlib.Data.List.Induction
import Musi.System.Runs
import Musi.Verify.SuccessMarker

namespace Musi.Verify
open Musi.Shell Musi.System
set_option autoImplicit true

/-! ## Runs over one marker file -/

/-- A state that a marker names: its HEAD and its fingerprint. -/
structure VerifiedState where
  head : Text
  hash : Text
  deriving DecidableEq

/-- What happens to one marker file. -/
inductive MarkerEvent where
  /-- A successful gate run writes the marker. -/
  | gateRun (head : CommitName) (hash : Text) (now : Int) (fault : Bool)
  /-- A passing marker is carried over to another commit. -/
  | restamp (expectedVerifiedHash : Text) (newHead : CommitName) (newHash verifiedHead : Text)
      (freshnessSeconds : Nat) (checked written : Int) (fault : Bool)
  /-- A consumer looks at the marker. -/
  | check (currentHead currentHash : Text) (freshnessSeconds : Nat) (now : Int)

/-- The file that an event writes, if it writes. -/
def MarkerEvent.writes (marker : Option Text) : MarkerEvent → Option Text
  | .gateRun head hash now fault => writeSuccessMarker head.text hash now fault
  | .restamp expectedVerifiedHash newHead newHash verifiedHead freshnessSeconds checked written
      fault =>
    restampVerifyMarker marker expectedVerifiedHash newHead.text newHash verifiedHead
      freshnessSeconds checked written fault
  | .check _ _ _ _ => none

/-- The marker file after an event. -/
def markerAfter (marker : Option Text) (event : MarkerEvent) : Option Text :=
  (event.writes marker).or marker

/-- The marker file after a run that starts without one. -/
def markerOf (run : List MarkerEvent) : Option Text := run.foldl markerAfter none

/-- Every re-stamp is made by a caller that found both trees equal. -/
def MarkerEvent.TreeChecked {Tree : Type} (tree : VerifiedState → Tree) : MarkerEvent → Prop
  | .restamp expectedVerifiedHash newHead newHash verifiedHead _ _ _ _ =>
    tree ⟨verifiedHead, expectedVerifiedHash⟩ = tree ⟨newHead.text, newHash⟩
  | _ => True

/-- The pass that a gate run records. -/
def MarkerEvent.pass : MarkerEvent → Option (Stamp VerifiedState)
  | .gateRun head hash now fault =>
    if fingerprintIsValid hash && !fault then some ⟨⟨head.text, hash⟩, now⟩ else none
  | _ => none

def MarkerEvent.renewal : MarkerEvent → Option Renewal
  | .restamp _ _ _ _ freshnessSeconds checked written _ =>
    some { window := freshnessSeconds, checked, written }
  | _ => none

/-! ## Where a marker comes from -/

section Freshness
variable {Tree : Type} {tree : VerifiedState → Tree}

/-- A stamp goes back to the pass of a gate run through re-stamps that came after it in the run. -/
def Backed (tree : VerifiedState → Tree) (run : List MarkerEvent) (stamp : Stamp VerifiedState) :
    Prop :=
  ∃ before event after pass renewals, run = before ++ event :: after ∧ event.pass = some pass ∧
    renewals.Sublist (after.filterMap MarkerEvent.renewal) ∧
    Renewed (fun a b => tree a = tree b) pass renewals stamp

/-- What is known of the marker file after a run. -/
def MarkerBacked (tree : VerifiedState → Tree) (run : List MarkerEvent) (marker : Option Text) :
    Prop :=
  marker = none ∨ ∃ (head : CommitName) (hash : Text) (written : Int),
    fingerprintIsValid hash = true ∧ marker = some (markerText written head.text hash) ∧
      Backed tree run ⟨⟨head.text, hash⟩, written⟩

theorem Backed.append {run : List MarkerEvent} {stamp : Stamp VerifiedState}
    (h : Backed tree run stamp) (event : MarkerEvent) : Backed tree (run ++ [event]) stamp := by
  obtain ⟨before, first, after, pass, renewals, rfl, hpass, hsub, hrenewed⟩ := h
  refine ⟨before, first, after ++ [event], pass, renewals, by simp, hpass, ?_, hrenewed⟩
  rw [List.filterMap_append]
  exact hsub.trans (List.sublist_append_left _ _)

theorem writeSuccessMarker_some {head hash text : Text} {now : Int} {fault : Bool}
    (h : writeSuccessMarker head hash now fault = some text) :
    fingerprintIsValid hash = true ∧ fault = false ∧ text = markerText now head hash := by
  unfold writeSuccessMarker at h
  split at h
  · cases h
  · next hok =>
    simp only [Bool.or_eq_true, Bool.not_eq_true', not_or, Bool.not_eq_true, Bool.not_eq_false] at hok
    cases h
    exact ⟨hok.1, hok.2, rfl⟩

/-- Every event keeps the marker backed. -/
theorem MarkerBacked.step {run : List MarkerEvent} {marker : Option Text} {event : MarkerEvent}
    (h : MarkerBacked tree run marker) (hchecked : event.TreeChecked tree) :
    MarkerBacked tree (run ++ [event]) (markerAfter marker event) := by
  have hold : MarkerBacked tree (run ++ [event]) marker := by
    rcases h with h | ⟨head, hash, written, hvalid, hmarker, hbacked⟩
    · exact .inl h
    · exact .inr ⟨head, hash, written, hvalid, hmarker, hbacked.append event⟩
  cases hw : event.writes marker with
  | none =>
    rw [markerAfter, hw, Option.none_or]
    exact hold
  | some text =>
    rw [markerAfter, hw, Option.some_or]
    cases event with
    | gateRun head hash now fault =>
      obtain ⟨hvalid, hfault, rfl⟩ := writeSuccessMarker_some hw
      refine .inr ⟨head, hash, now, hvalid, rfl, run, _, [], ⟨⟨head.text, hash⟩, now⟩, [], rfl, ?_,
        by simp, .granted⟩
      simp [MarkerEvent.pass, hvalid, hfault]
    | restamp expectedVerifiedHash newHead newHash verifiedHead freshnessSeconds checked written
        fault =>
      simp only [MarkerEvent.writes, restampVerifyMarker] at hw
      split at hw
      · cases hw
      · next age hmatch =>
        obtain ⟨hvalid, hfault, rfl⟩ := writeSuccessMarker_some hw
        rcases h with rfl | ⟨head, hash, old, hvalid', rfl, hbacked⟩
        · simp [successMarkerMatches, readSuccessMarker] at hmatch
        · obtain ⟨-, rfl, hage, ⟨-, hlt⟩, rfl, rfl⟩ := (successMarkerMatches_text hvalid').1 hmatch
          obtain ⟨before, first, after, pass, renewals, rfl, hpass, hsub, hrenewed⟩ := hbacked
          refine .inr ⟨newHead, newHash, written, hvalid, rfl, before, first,
            after ++ [_], pass, renewals ++ [⟨freshnessSeconds, checked, written⟩],
            by rw [List.append_assoc]; rfl, hpass, ?_, ?_⟩
          · rw [List.filterMap_append]
            exact hsub.append (List.Sublist.refl _)
          · exact .renewed hrenewed hchecked (show old ≤ checked by omega) hlt
    | check currentHead currentHash freshnessSeconds now => cases hw

/-- After every run the marker goes back to a pass. -/
theorem markerBacked_run {run : List MarkerEvent} (h : ∀ event ∈ run, event.TreeChecked tree) :
    MarkerBacked tree run (markerOf run) := by
  induction run using List.reverseRecOn with
  | nil => exact .inl rfl
  | append_singleton run event ih =>
    rw [markerOf, List.foldl_append]
    exact (ih fun e he => h e (List.mem_append_left _ he)).step (h event (by simp))

/-- An accepted marker goes back to a gate run that passed on an equal tree, through re-stamps that
each found the marker inside of their window, and the last of them is in the window of the check. -/
theorem successMarkerMatches_backed {run : List MarkerEvent}
    (hchecked : ∀ event ∈ run, event.TreeChecked tree) {head hash : Text} {freshnessSeconds : Nat}
    {now age : Int} (h : successMarkerMatches (markerOf run) head hash freshnessSeconds now =
      some age) :
    ∃ before event after pass renewals stamp, run = before ++ event :: after ∧
      event.pass = some pass ∧ renewals.Sublist (after.filterMap MarkerEvent.renewal) ∧
      Renewed (fun a b => tree a = tree b) pass renewals stamp ∧
      stamp.subject = ⟨head, hash⟩ ∧ tree pass.subject = tree ⟨head, hash⟩ ∧
      now - freshnessSeconds < stamp.time ∧ stamp.time ≤ now ∧
      now - freshnessSeconds - (renewals.map Renewal.reach).sum < pass.time := by
  rcases markerBacked_run hchecked with hnone | ⟨head', hash', written, hvalid, hmarker, hbacked⟩
  · rw [hnone] at h
    simp [successMarkerMatches, readSuccessMarker] at h
  · rw [hmarker] at h
    obtain ⟨-, rfl, hage, ⟨-, hlt⟩, rfl, rfl⟩ := (successMarkerMatches_text hvalid).1 h
    obtain ⟨before, event, after, pass, renewals, hrun, hpass, hsub, hrenewed⟩ := hbacked
    have hreach := hrenewed.time_le
    refine ⟨before, event, after, pass, renewals, _, hrun, hpass, hsub, hrenewed, rfl,
      hrenewed.keeps fun _ _ he => he, ?_, ?_, ?_⟩
    · dsimp only
      omega
    · dsimp only
      omega
    · dsimp only at hreach
      omega

end Freshness

/-! ## A chain of re-stamps -/

def someHash : Text := List.replicate 64 'a'

def branchTip : CommitName := ⟨sh "branchtip", by decide, List.all_eq_true.1 (by decide)⟩

def firstMerge : CommitName := ⟨sh "merge1", by decide, List.all_eq_true.1 (by decide)⟩

def secondMerge : CommitName := ⟨sh "merge2", by decide, List.all_eq_true.1 (by decide)⟩

/-- One pass, carried over to one merge and from there to another. -/
def restampedRun : List MarkerEvent :=
  [.gateRun branchTip someHash 1000 false,
    .restamp someHash firstMerge someHash branchTip.text 120 1100 1100 false,
    .restamp someHash secondMerge someHash firstMerge.text 120 1200 1200 false]

theorem restampedRun_accepted :
    successMarkerMatches (markerOf restampedRun) secondMerge.text someHash 120 1250 = some 50 := by
  decide +kernel

theorem restampedRun_checked :
    ∀ event ∈ restampedRun, event.TreeChecked VerifiedState.hash := by
  intro event hmem
  simp only [restampedRun, List.mem_cons, List.not_mem_nil, or_false] at hmem
  rcases hmem with rfl | rfl | rfl
  · trivial
  · rfl
  · rfl

theorem successMarkerMatches_backed_restamped : ∃ pass : Stamp VerifiedState,
    (∃ event ∈ restampedRun, event.pass = some pass) ∧
      ∃ renewals : List Renewal, 1250 - 120 - (renewals.map Renewal.reach).sum < pass.time := by
  obtain ⟨before, event, after, pass, renewals, stamp, hrun, hpass, -, -, -, -, -, -, hage⟩ :=
    successMarkerMatches_backed restampedRun_checked restampedRun_accepted
  exact ⟨pass, ⟨event, by rw [hrun]; simp, hpass⟩, renewals, hage⟩

/-- The chain is accepted at a time when no pass is inside of the window. -/
theorem successMarkerMatches_backed_fails :
    (∀ event ∈ restampedRun, event.TreeChecked VerifiedState.hash) ∧
    successMarkerMatches (markerOf restampedRun) secondMerge.text someHash 120 1250 = some 50 ∧
    ¬ ∃ event ∈ restampedRun, ∃ pass, event.pass = some pass ∧ 1250 - 120 < pass.time ∧
      pass.time ≤ 1250 := by
  refine ⟨restampedRun_checked, restampedRun_accepted, ?_⟩
  rintro ⟨event, hmem, pass, hpass, hlt, -⟩
  simp only [restampedRun, List.mem_cons, List.not_mem_nil, or_false] at hmem
  rcases hmem with rfl | rfl | rfl
  · rw [MarkerEvent.pass, Option.ite_none_right_eq_some, Option.some.injEq] at hpass
    obtain ⟨-, rfl⟩ := hpass
    dsimp only at hlt
    omega
  · cases hpass
  · cases hpass

end Musi.Verify
