import Mathlib.Logic.Function.Basic
import Musi.System.Runs
import Musi.Verify.MemoryBudget

namespace Musi.Verify
open Musi.Shell Musi.System
set_option autoImplicit true

/-! ## Processes that share a state root -/

/-- The start time of every process there is, the processes there have been, and the files. -/
structure Machine where
  processes : Nat → Option Nat
  born : List (Nat × Nat)
  root : StateRoot

def Machine.initial : Machine := ⟨fun _ => none, [], []⟩

/-- What a call can read of the processes: whether they exist, and a start time that is either the
right one or unreadable. -/
structure Readings.Of (readings : Readings) (machine : Machine) (owner : Nat) : Prop where
  ownerStartTime : readings.ownerStartTime = none ∨
    readings.ownerStartTime = machine.processes owner
  processExists : ∀ pid, readings.processExists (decimal pid) = (machine.processes pid).isSome
  processStartTime : ∀ pid live, readings.processStartTime (decimal pid) = some live →
    (machine.processes pid).map decimal = some live

/-- mktemp makes a name of its owner that no file has. -/
def FreshToken (owner : Nat) (root : StateRoot) (mktemp : Option Token) : Prop :=
  ∀ token ∈ mktemp, token.owner = owner ∧ ∀ entry ∈ root, entry.1 ≠ token

/-- The whole record of a grant, and the steps attached to it. -/
def Recorded (owner startTime mb : Nat) (file : ReservationFile) : Prop :=
  ∃ (slot : Text) (steps : List Nat),
    file = reservationLines owner startTime mb slot ++ steps.map stepPidLine

/-- A file that a granted token can name: its record, or what an attachment made after the
release. -/
def Attachable (file : ReservationFile) : Prop :=
  (∃ owner startTime mb, Recorded owner startTime mb file) ∨ ∃ steps : List Nat,
    file = steps.map stepPidLine

/-- One step of some process. A call of try_reserve is one step, as the lock makes it; its process
may also die in the middle of it, and releases take no lock. -/
inductive MachineStep (m : Machine) : Machine → Prop
  | spawn (pid startTime : Nat) (hfree : m.processes pid = none)
      (hnew : (pid, startTime) ∉ m.born) :
      MachineStep m ⟨Function.update m.processes pid (some startTime),
        (pid, startTime) :: m.born, m.root⟩
  | exit (pid : Nat) : MachineStep m ⟨Function.update m.processes pid none, m.born, m.root⟩
  | tryReserve (owner startTime : Nat) (readings : Readings) (slot : Text) (mktemp : Option Token)
      (halive : m.processes owner = some startTime) (hr : readings.Of m owner)
      (hfresh : FreshToken owner m.root mktemp) :
      MachineStep m ⟨m.processes, m.born, (tryReserve readings owner slot mktemp m.root).root⟩
  /-- The process dies when it has looked at some of the reservations. -/
  | diesPruning (owner startTime : Nat) (readings : Readings) (seen : Nat)
      (halive : m.processes owner = some startTime) (hr : readings.Of m owner) :
      MachineStep m ⟨Function.update m.processes owner none, m.born,
        (tallyReservations readings (m.root.take seen)).kept ++ m.root.drop seen⟩
  /-- The process dies when it has written some of its reservation. -/
  | diesWriting (owner startTime : Nat) (readings : Readings) (slot : Text) (token : Token)
      (whole part : Nat) (halive : m.processes owner = some startTime) (hr : readings.Of m owner)
      (hfresh : FreshToken owner m.root (some token)) :
      MachineStep m ⟨Function.update m.processes owner none, m.born,
        (tallyReservations readings m.root).kept ++
          [(token, cutLines whole part (reservationLines owner startTime readings.expected slot))]⟩
  /-- A step is attached to a reservation that was granted. -/
  | attachPid (token : Token) (stepPid : Nat)
      (hgranted : ∀ entry ∈ m.root, entry.1 = token → Attachable entry.2) :
      MachineStep m ⟨m.processes, m.born, attachPid token stepPid m.root⟩
  /-- The file went away between the test for it and the append, which makes it anew. -/
  | attachReleased (token : Token) (stepPid : Nat) (habsent : ∀ entry ∈ m.root, entry.1 ≠ token) :
      MachineStep m ⟨m.processes, m.born, m.root ++ [(token, [stepPidLine stepPid])]⟩
  | release (token : Token) : MachineStep m ⟨m.processes, m.born, release token m.root⟩

/-- The machines that runs reach. -/
def MachineReachable (machine : Machine) : Prop :=
  Relation.ReflTransGen MachineStep Machine.initial machine

/-! ## The files of a run -/

/-- A grant, or the start of a grant that its process died in. -/
inductive GrantFile (owner startTime : Nat) (file : ReservationFile) : Prop
  | recorded (mb : Nat) (h : Recorded owner startTime mb file)
  | unfinished (whole part mb : Nat) (slot : Text)
      (h : file = cutLines whole part (reservationLines owner startTime mb slot))

/-- What a file under the state root can hold. -/
inductive FileOf (machine : Machine) (file : ReservationFile) : Prop
  | recorded (owner startTime mb : Nat) (h : Recorded owner startTime mb file)
      (hborn : (owner, startTime) ∈ machine.born)
  | unfinished (owner startTime : Nat) (h : GrantFile owner startTime file)
      (hborn : (owner, startTime) ∈ machine.born)
      (hdead : machine.processes owner ≠ some startTime)
  | released (steps : List Nat) (h : file = steps.map stepPidLine)

/-- What holds in every reachable machine. -/
structure Machine.Sound (machine : Machine) : Prop where
  born : ∀ pid startTime, machine.processes pid = some startTime → (pid, startTime) ∈ machine.born
  files : ∀ entry ∈ machine.root, FileOf machine entry.2

section Files
variable {readings : Readings} {owner startTime mb : Nat} {file : ReservationFile} {m : Machine}

theorem decimal_injective {a b : Nat} (h : decimal a = decimal b) : a = b := by
  rw [← ofDigitChars_decimal a, h, ofDigitChars_decimal]

theorem Recorded.values (h : Recorded owner startTime mb file) :
    headValue (sh "pid=") file = decimal owner ∧
      headValue (sh "pid_start_time=") file = decimal startTime ∧
      headValue (sh "mb=") file = decimal mb := by
  obtain ⟨slot, steps, rfl⟩ := h
  exact ⟨rfl, rfl, rfl⟩

theorem mem_decimal {c : Char} {n : Nat} (h : c ∈ decimal n) : c.isDigit = true :=
  Nat.isDigit_of_mem_toDigits (by decide) (by decide) h

theorem malformed_decimal (pid mb : Nat) : malformed (decimal pid) (decimal mb) = false := by
  have hcolon (n : Nat) : ':' ∉ decimal n := fun h => absurd (mem_decimal h) (by decide)
  have hhead : (decimal pid).head? ≠ some ':' := fun h => hcolon pid (List.mem_of_head? h)
  have hlast : (decimal mb).getLast? ≠ some ':' := fun h => hcolon mb (List.mem_of_getLast? h)
  have hne (n : Nat) : decimal n ≠ [] := Nat.toDigits_ne_nil
  have hany : (decimal pid ++ ':' :: decimal mb).any (fun c => !c.isDigit && c ≠ ':') = false := by
    rw [List.any_eq_false]
    intro c hc
    simp only [List.mem_append, List.mem_cons] at hc
    rcases hc with hc | rfl | hc
    · simp [mem_decimal hc]
    · simp
    · simp [mem_decimal hc]
  rw [malformed, hany, decide_eq_false (hne pid), decide_eq_false (hne mb),
    decide_eq_false hhead, decide_eq_false hlast]
  rfl

theorem malformed_empty (pid : Text) : malformed pid [] = true := by simp [malformed]

theorem headValue_none {key : Text} (h : ∀ line ∈ file, key.isPrefixOf line = false) :
    headValue key file = [] := by
  have hnone : sedValues key file = [] := by
    refine List.filterMap_eq_nil_iff.2 fun line hline => ?_
    rw [h line hline]
    rfl
  rw [headValue, hnone]
  rfl

/-- A cut line starts as the whole line does. -/
theorem isPrefixOf_take {c d : Char} (h : c ≠ d) (key line : Text) (part : Nat) :
    (c :: key).isPrefixOf ((d :: line).take part) = false := by
  cases part with
  | zero => rfl
  | succ part =>
    rw [List.take_succ_cons, List.isPrefixOf_cons_cons, beq_false_of_ne h, Bool.false_and]

theorem isStale_without_mb (readings : Readings) (h : headValue (sh "mb=") file = []) :
    isStale readings file = true := by
  rw [isStale, h, malformed_empty, Bool.true_or, Bool.true_or]

theorem headValue_steps (steps : List Nat) : headValue (sh "mb=") (steps.map stepPidLine) = [] := by
  refine headValue_none fun line hline => ?_
  obtain ⟨stepPid, -, rfl⟩ := List.mem_map.1 hline
  rfl

/-- A grant that says its size says whose it is. -/
theorem GrantFile.identity (h : GrantFile owner startTime file) :
    headValue (sh "mb=") file = [] ∨ (headValue (sh "pid=") file = decimal owner ∧
      headValue (sh "pid_start_time=") file = decimal startTime) := by
  cases h with
  | recorded mb h => exact .inr ⟨h.values.1, h.values.2.1⟩
  | unfinished whole part mb slot h =>
    subst h
    match whole with
    | 0 =>
      refine .inl (headValue_none fun line hline => ?_)
      obtain rfl := List.mem_singleton.1 hline
      exact isPrefixOf_take (by decide) _ _ part
    | 1 =>
      refine .inl (headValue_none fun line hline => ?_)
      rcases List.mem_cons.1 hline with rfl | hline
      · rfl
      · obtain rfl := List.mem_singleton.1 hline
        exact isPrefixOf_take (by decide) _ _ part
    | 2 => exact .inr ⟨rfl, rfl⟩
    | 3 => exact .inr ⟨rfl, rfl⟩
    | whole + 4 => exact .inr ⟨rfl, rfl⟩

/-- Without evidence against its owner a reservation is kept. -/
theorem isStale_kept (h : Recorded owner startTime mb file)
    (hexists : readings.processExists (decimal owner) = true)
    (hsame : ∀ live, readings.processStartTime (decimal owner) = some live → live = decimal startTime) :
    isStale readings file = false := by
  obtain ⟨hpid, hstart, hmb⟩ := h.values
  have hany : (readings.processStartTime (decimal owner)).any
      (fun live => live ≠ decimal startTime) = false := by
    cases hs : readings.processStartTime (decimal owner) with
    | none => rfl
    | some live => simp [hsame live hs]
  rw [isStale, hpid, hstart, hmb, malformed_decimal, hexists, hany, Bool.and_false]
  rfl

theorem isStale_live (h : Recorded owner startTime mb file) (hr : readings.Of m caller)
    (hlive : m.processes owner = some startTime) : isStale readings file = false := by
  refine isStale_kept h ?_ fun live hs => ?_
  · rw [hr.processExists, hlive, Option.isSome_some]
  · have := hr.processStartTime owner live hs
    rw [hlive, Option.map_some, Option.some.injEq] at this
    exact this.symm

/-- The evidence that takes a reservation of a dead owner away. -/
theorem isStale_identity (hpid : headValue (sh "pid=") file = decimal owner)
    (hstart : headValue (sh "pid_start_time=") file = decimal startTime) (hr : readings.Of m caller)
    (hdead : m.processes owner ≠ some startTime)
    (hidentity : m.processes owner = none ∨
      (readings.processStartTime (decimal owner)).isSome = true) :
    isStale readings file = true := by
  rcases hidentity with hnone | hsome
  · have hexists : readings.processExists (decimal owner) = false := by
      rw [hr.processExists, hnone, Option.isSome_none]
    simp [isStale, hpid, hexists]
  · obtain ⟨live, hlive⟩ := Option.isSome_iff_exists.1 hsome
    obtain ⟨other, hother, rfl⟩ := Option.map_eq_some_iff.1 (hr.processStartTime owner live hlive)
    have hne : decimal other ≠ decimal startTime := fun he =>
      hdead (by rw [hother, decimal_injective he])
    simp [isStale, hpid, hstart, hlive, hne, isDigits_decimal]

/-- What is left of a grant whose process died in it counts as little as the grant. -/
theorem isStale_dead (h : GrantFile owner startTime file) (hr : readings.Of m caller)
    (hdead : m.processes owner ≠ some startTime)
    (hidentity : m.processes owner = none ∨
      (readings.processStartTime (decimal owner)).isSome = true) :
    isStale readings file = true := by
  rcases h.identity with hmb | ⟨hpid, hstart⟩
  · exact isStale_without_mb readings hmb
  · exact isStale_identity hpid hstart hr hdead hidentity

end Files

/-! ## Runs -/

section Runs
variable {m m' : Machine} {readings : Readings} {owner startTime : Nat} {slot : Text}
  {mktemp : Option Token}

/-- A call adds at most the reservation that it grants. -/
theorem mem_tryReserve {root : StateRoot} {entry : Token × ReservationFile}
    (h : entry ∈ (tryReserve readings owner slot mktemp root).root) : entry ∈ root ∨
      ∃ startTime, readings.ownerStartTime = some startTime ∧
        entry.2 = reservationLines owner startTime readings.expected slot := by
  have hkept (e : Token × ReservationFile) (he : e ∈ (tallyReservations readings root).kept) :
      e ∈ root := by
    rw [tallyReservations_eq] at he
    exact (List.mem_filter.1 he).1
  unfold tryReserve at h
  split at h
  · exact .inl h
  · next startTime hstart =>
    split at h
    · exact .inl h
    · unfold decideReservation at h
      split at h
      · dsimp only at h
        split at h
        · exact .inl (hkept _ h)
        · split at h
          · exact .inl (hkept _ h)
          · rcases List.mem_append.1 h with h | h
            · exact .inl (hkept _ h)
            · rw [List.mem_singleton.1 h]
              exact .inr ⟨startTime, hstart, rfl⟩
      · exact .inl (hkept _ h)

theorem FileOf.mono {file : ReservationFile} (h : FileOf m file)
    (hborn : ∀ p ∈ m.born, p ∈ m'.born)
    (hdead : ∀ pid startTime, (pid, startTime) ∈ m.born → m.processes pid ≠ some startTime →
      m'.processes pid ≠ some startTime) : FileOf m' file := by
  cases h with
  | recorded owner startTime mb h hb => exact .recorded owner startTime mb h (hborn _ hb)
  | unfinished owner startTime h hb hd =>
    exact .unfinished owner startTime h (hborn _ hb) (hdead owner startTime hb hd)
  | released steps h => exact .released steps h

theorem update_some {pid other startTime : Nat} {f : Nat → Option Nat} {v : Option Nat}
    (h : Function.update f pid v other = some startTime) :
    (other = pid ∧ v = some startTime) ∨ f other = some startTime := by
  by_cases hid : other = pid
  · subst hid
    exact .inl ⟨rfl, by rwa [Function.update_self] at h⟩
  · exact .inr (by rwa [Function.update_of_ne hid] at h)

theorem exit_dead {pid other startTime : Nat} (h : m.processes other ≠ some startTime) :
    Function.update m.processes pid none other ≠ some startTime := fun he => by
  rcases update_some he with ⟨-, he⟩ | he
  · cases he
  · exact h he

theorem Machine.Sound.exited (h : m.Sound) (pid : Nat) {root : StateRoot}
    (hroot : ∀ entry ∈ root, FileOf ⟨Function.update m.processes pid none, m.born, root⟩ entry.2) :
    Machine.Sound ⟨Function.update m.processes pid none, m.born, root⟩ where
  born other startTime he := by
    rcases update_some he with ⟨-, hv⟩ | hv
    · cases hv
    · exact h.born other startTime hv
  files := hroot

theorem Attachable.append {file : ReservationFile} (h : Attachable file) (hfile : FileOf m file)
    (stepPid : Nat) : FileOf m (file ++ [stepPidLine stepPid]) := by
  rcases h with ⟨owner, startTime, mb, slot, steps, hgrant⟩ | ⟨steps, rfl⟩
  · have hrecorded : Recorded owner startTime mb (file ++ [stepPidLine stepPid]) :=
      ⟨slot, steps ++ [stepPid], by simp [hgrant]⟩
    have hvalues : Recorded owner startTime mb file := ⟨slot, steps, hgrant⟩
    have hmb : headValue (sh "mb=") file ≠ [] := by
      rw [hvalues.values.2.2]
      exact Nat.toDigits_ne_nil
    have hsame {other start : Nat} (hg : GrantFile other start file) :
        other = owner ∧ start = startTime := by
      obtain ⟨hpid, hstart⟩ := hg.identity.resolve_left hmb
      exact ⟨decimal_injective (hpid.symm.trans hvalues.values.1),
        decimal_injective (hstart.symm.trans hvalues.values.2.1)⟩
    cases hfile with
    | recorded other start mb' h' hb =>
      obtain ⟨rfl, rfl⟩ := hsame (.recorded mb' h')
      exact .recorded _ _ mb hrecorded hb
    | unfinished other start h' hb hd =>
      obtain ⟨rfl, rfl⟩ := hsame h'
      exact .unfinished _ _ (.recorded mb hrecorded) hb hd
    | released steps' h' =>
      rw [h'] at hmb
      exact absurd (headValue_steps steps') hmb
  · exact .released (steps ++ [stepPid]) (by simp)

theorem Machine.Sound.step (h : m.Sound) (hs : MachineStep m m') : m'.Sound := by
  cases hs with
  | spawn pid startTime hfree hnew =>
    refine ⟨fun other start he => ?_, fun entry he => (h.files entry he).mono
      (fun _ hp => List.mem_cons_of_mem _ hp) fun other start hb hd he => ?_⟩
    · rcases update_some he with ⟨rfl, hv⟩ | hv
      · cases hv
        exact List.mem_cons_self
      · exact List.mem_cons_of_mem _ (h.born other start hv)
    · rcases update_some he with ⟨rfl, hv⟩ | hv
      · cases hv
        exact hnew hb
      · exact hd hv
  | exit pid =>
    exact h.exited pid fun entry he => (h.files entry he).mono (fun _ hp => hp)
      fun _ _ _ hd => exit_dead hd
  | tryReserve owner startTime readings slot mktemp halive hr hfresh =>
    refine ⟨h.born, fun entry he => ?_⟩
    rcases mem_tryReserve he with he | ⟨start, hstart, hfile⟩
    · exact (h.files entry he).mono (fun _ hp => hp) fun _ _ _ hd => hd
    · have hborn := h.born owner startTime halive
      rcases hr.ownerStartTime with hnone | hsome
      · rw [hnone] at hstart
        cases hstart
      · rw [hsome, halive, Option.some.injEq] at hstart
        subst hstart
        exact .recorded owner startTime readings.expected ⟨slot, [], by simpa using hfile⟩ hborn
  | diesPruning owner startTime readings seen halive hr =>
    refine h.exited owner fun entry he => ?_
    have hold : entry ∈ m.root := by
      rw [tallyReservations_eq] at he
      rcases List.mem_append.1 he with he | he
      · exact List.mem_of_mem_take (List.mem_filter.1 he).1
      · exact List.mem_of_mem_drop he
    exact (h.files entry hold).mono (fun _ hp => hp) fun _ _ _ hd => exit_dead hd
  | diesWriting owner startTime readings slot token whole part halive hr hfresh =>
    refine h.exited owner fun entry he => ?_
    rcases List.mem_append.1 he with he | he
    · rw [tallyReservations_eq] at he
      exact (h.files entry (List.mem_filter.1 he).1).mono (fun _ hp => hp)
        fun _ _ _ hd => exit_dead hd
    · rw [List.mem_singleton.1 he]
      refine .unfinished owner startTime (.unfinished whole part readings.expected slot rfl)
        (h.born owner startTime halive) fun he => ?_
      have hself : Function.update m.processes owner none owner = some startTime := he
      rw [Function.update_self] at hself
      cases hself
  | attachPid token stepPid hgranted =>
    refine ⟨h.born, fun entry he => ?_⟩
    obtain ⟨old, hold, rfl⟩ := List.mem_map.1 he
    split
    · next htoken =>
      exact ((hgranted old hold htoken).append (h.files old hold) stepPid).mono (fun _ hp => hp)
        fun _ _ _ hd => hd
    · exact (h.files old hold).mono (fun _ hp => hp) fun _ _ _ hd => hd
  | attachReleased token stepPid habsent =>
    refine ⟨h.born, fun entry he => ?_⟩
    rcases List.mem_append.1 he with he | he
    · exact (h.files entry he).mono (fun _ hp => hp) fun _ _ _ hd => hd
    · rw [List.mem_singleton.1 he]
      exact .released [stepPid] rfl
  | release token =>
    exact ⟨h.born, fun entry he => (h.files entry (List.mem_filter.1 he).1).mono (fun _ hp => hp)
      fun _ _ _ hd => hd⟩

theorem MachineReachable.sound (h : MachineReachable m) : m.Sound :=
  run_invariant h ⟨fun _ _ he => absurd he (Option.some_ne_none _).symm,
    fun _ he => absurd he List.not_mem_nil⟩ Machine.Sound.step

end Runs

end Musi.Verify
