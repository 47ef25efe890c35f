import Musi.Shell.Text
import Mathlib.Data.List.Induction

namespace Musi.Verify
open Musi.Shell
set_option autoImplicit true

/-! ## Reservation files -/

/-- The name reservation.<owner>.<slot>.<suffix> of a file that mktemp makes. -/
structure Token where
  owner : Nat
  slot : Text
  suffix : Text
  deriving DecidableEq

/-- The lines of a reservation file. -/
abbrev ReservationFile := List Text

/-- The reservation files under the state root, in the order of the glob. -/
abbrev StateRoot := List (Token × ReservationFile)

/-- `sed -n 's/^key//p'`. -/
def sedValues (key : Text) (file : ReservationFile) : List Text :=
  file.filterMap fun line => if key.isPrefixOf line then some (line.drop key.length) else none

/-- The first value of a key, or the empty string. -/
def headValue (key : Text) (file : ReservationFile) : Text := (sedValues key file).head?.getD []

/-- The last value of a key, or the empty string. -/
def tailValue (key : Text) (file : ReservationFile) : Text := (sedValues key file).getLast?.getD []

def pidLine (pid : Nat) : Text := sh "pid=" ++ decimal pid

def pidStartTimeLine (startTime : Nat) : Text := sh "pid_start_time=" ++ decimal startTime

def mbLine (mb : Nat) : Text := sh "mb=" ++ decimal mb

def slotLine (slot : Text) : Text := sh "slot=" ++ slot

def stepPidLine (stepPid : Nat) : Text := sh "step_pid=" ++ decimal stepPid

/-- What a grant writes. -/
def reservationLines (pid startTime mb : Nat) (slot : Text) : ReservationFile :=
  [pidLine pid, pidStartTimeLine startTime, mbLine mb, slotLine slot]

/-- A written file of which only the start reached the disk. -/
def cutLines (whole part : Nat) (lines : ReservationFile) : ReservationFile :=
  lines.take whole ++ (lines.drop whole).head?.toList.map (List.take part)

/-! ## One admission call -/

/-- What a call of try_reserve reads of the host and of its environment. A number that is missing
or is not digits is none. -/
structure Readings where
  /-- The state root could be made and its lock was taken. -/
  locked : Bool
  ownerStartTime : Option Nat
  /-- `kill -0 "$pid"` -/
  processExists : Text → Bool
  /-- musi_memory_process_start_time -/
  processStartTime : Text → Option Text
  /-- musi_memory_process_tree_rss_mb -/
  processTreeRssMb : Text → Nat
  /-- MUSI_VERIFY_MEMORY_LIVE_RESERVED_RSS_MB, when it is set -/
  liveReservedRssMb : Option (Option Nat)
  available : Option Nat
  safety : Option Nat
  /-- musi_verify_slot_expected_peak_mb of the slot -/
  expected : Nat
  allowSoloFallback : Bool

/-- The pattern `*[!0-9:]* | :* | *:` of the pid and the size. -/
def malformed (pid mb : Text) : Bool :=
  (pid ++ ':' :: mb).any (fun c => !c.isDigit && c ≠ ':') || pid = [] || mb = [] ||
    pid.head? = some ':' || mb.getLast? = some ':'

/-- The loop removes the reservation. -/
def isStale (readings : Readings) (file : ReservationFile) : Bool :=
  let pid := headValue (sh "pid=") file
  let startTime := headValue (sh "pid_start_time=") file
  malformed pid (headValue (sh "mb=") file) || !readings.processExists pid ||
    (isDigits startTime && (readings.processStartTime pid).any fun live => live ≠ startTime)

/-- The reserved size. It is always written as a plain decimal. -/
def reservedMb (file : ReservationFile) : Nat := Nat.ofDigitChars 10 (headValue (sh "mb=") file) 0

/-- The resident size of the step that runs under a reservation. -/
def stepRssMb (readings : Readings) (file : ReservationFile) : Nat :=
  let stepPid := tailValue (sh "step_pid=") file
  if isDigits stepPid then readings.processTreeRssMb stepPid else 0

/-- The part of a reservation that its step already occupies. -/
def creditedRssMb (readings : Readings) (file : ReservationFile) : Nat :=
  if stepRssMb readings file ≤ reservedMb file then stepRssMb readings file else reservedMb file

structure Tally where
  kept : StateRoot := []
  reserved : Nat := 0
  liveReservedRss : Nat := 0
  reservationCount : Nat := 0

/-- One round of the loop over the reservations. -/
def tallyReservation (readings : Readings) (tally : Tally) (entry : Token × ReservationFile) : Tally :=
  if isStale readings entry.2 then tally
  else
    { kept := tally.kept ++ [entry]
      reserved := tally.reserved + reservedMb entry.2
      liveReservedRss := tally.liveReservedRss + creditedRssMb readings entry.2
      reservationCount := tally.reservationCount + 1 }

def tallyReservations (readings : Readings) (root : StateRoot) : Tally :=
  root.foldl (tallyReservation readings) {}

/-- MUSI_VERIFY_MEMORY_LIVE_RESERVED_RSS_MB takes the place of the measured sum. -/
def liveReservedRss (readings : Readings) (tally : Tally) : Option Nat :=
  readings.liveReservedRssMb.getD (some tally.liveReservedRss)

structure Reserved where
  status : Nat
  root : StateRoot
  token : Option Token := none
  soloFallback : Bool := false

/-- What a call that holds the lock decides; none of the numbers comes near 2^63. -/
def decideReservation (readings : Readings) (owner startTime : Nat) (slot : Text)
    (mktemp : Option Token) (tally : Tally) : Reserved :=
  match readings.available, readings.safety, liveReservedRss readings tally with
  | some available, some safety, some live =>
    let headroom : Int := available + live - safety - tally.reserved
    let soloFallback := (readings.expected : Int) > headroom
    if soloFallback && !(tally.reservationCount = 0 && readings.allowSoloFallback) then
      { status := 1, root := tally.kept }
    else match mktemp with
      | none => { status := 2, root := tally.kept, soloFallback }
      | some token =>
        { status := 0
          root := tally.kept ++
            [(token, reservationLines owner startTime readings.expected slot)]
          token := some token
          soloFallback }
  | _, _, _ => { status := 2, root := tally.kept }

def tryReserve (readings : Readings) (owner : Nat) (slot : Text) (mktemp : Option Token)
    (root : StateRoot) : Reserved :=
  match readings.ownerStartTime with
  | none => { status := 2, root }
  | some startTime =>
    if !readings.locked then { status := 2, root }
    else decideReservation readings owner startTime slot mktemp (tallyReservations readings root)

/-- The step that runs under a reservation is recorded in its file. -/
def attachPid (token : Token) (stepPid : Nat) (root : StateRoot) : StateRoot :=
  root.map fun entry =>
    if entry.1 = token then (entry.1, entry.2 ++ [stepPidLine stepPid]) else entry

/-- `rm -f -- "$token"`, without the lock. -/
def release (token : Token) (root : StateRoot) : StateRoot :=
  root.filter fun entry => entry.1 ≠ token

/-! ## What the loop adds up -/

section Tally
variable (readings : Readings) (root : StateRoot)

theorem tallyReservations_eq : tallyReservations readings root =
    { kept := root.filter fun entry => !isStale readings entry.2
      reserved := ((root.filter fun entry => !isStale readings entry.2).map fun entry =>
        reservedMb entry.2).sum
      liveReservedRss := ((root.filter fun entry => !isStale readings entry.2).map fun entry =>
        creditedRssMb readings entry.2).sum
      reservationCount := (root.filter fun entry => !isStale readings entry.2).length } := by
  induction root using List.reverseRecOn with
  | nil => rfl
  | append_singleton root entry ih =>
    have hstep : tallyReservations readings (root ++ [entry]) =
        tallyReservation readings (tallyReservations readings root) entry := by
      simp [tallyReservations]
    rw [hstep, ih, tallyReservation]
    cases hs : isStale readings entry.2 <;> simp [List.filter_append, hs]

theorem creditedRssMb_eq (file : ReservationFile) :
    creditedRssMb readings file = min (stepRssMb readings file) (reservedMb file) :=
  (min_def _ _).symm

/-- What is added up for the kept reservations, less what is credited. -/
theorem sum_uncredited (entries : StateRoot) :
    (entries.map fun entry => reservedMb entry.2 -
        min (stepRssMb readings entry.2) (reservedMb entry.2)).sum +
      (entries.map fun entry => creditedRssMb readings entry.2).sum =
        (entries.map fun entry => reservedMb entry.2).sum := by
  induction entries with
  | nil => rfl
  | cons entry entries ih =>
    have hle : min (stepRssMb readings entry.2) (reservedMb entry.2) ≤ reservedMb entry.2 :=
      min_le_right _ _
    simp only [List.map_cons, List.sum_cons, creditedRssMb_eq] at ih ⊢
    omega

end Tally

end Musi.Verify
