import Musi.Verify.MemoryAdmission

namespace Musi.Verify
open Musi.Shell Musi.System
set_option autoImplicit true

/-! ## What a call grants -/

section Calls
variable {m m' : Machine} {readings : Readings} {owner startTime : Nat} {slot : Text}
  {mktemp : Option Token}

/-- The reservations that a call leaves. -/
def remaining (readings : Readings) (root : StateRoot) : StateRoot :=
  root.filter fun entry => !isStale readings entry.2

/-- What a call leaves under the state root, once it holds the lock. -/
theorem tryReserve_root (root : StateRoot) (hlocked : readings.locked = true)
    (hstart : readings.ownerStartTime = some startTime) :
    (tryReserve readings owner slot mktemp root).root = remaining readings root ∨
      ∃ token, mktemp = some token ∧ (tryReserve readings owner slot mktemp root).root =
        remaining readings root ++
          [(token, reservationLines owner startTime readings.expected slot)] := by
  have htry : tryReserve readings owner slot mktemp root =
      decideReservation readings owner startTime slot mktemp (tallyReservations readings root) := by
    rw [tryReserve, hstart]
    simp [hlocked]
  rw [htry, tallyReservations_eq, decideReservation]
  split
  · dsimp only
    split
    · exact .inl rfl
    · split
      · exact .inl rfl
      · next token => exact .inr ⟨token, rfl, rfl⟩
  · exact .inl rfl

/-- The numbers behind a grant. -/
structure Granted (readings : Readings) (owner : Nat) (slot : Text) (root : StateRoot)
    (result : Reserved) (available safety live : Nat) (token : Token) : Prop where
  readAvailable : readings.available = some available
  readSafety : readings.safety = some safety
  readLive : liveReservedRss readings (tallyReservations readings root) = some live
  handedOut : result.token = some token
  written : ∃ startTime, readings.ownerStartTime = some startTime ∧
    result.root = remaining readings root ++
      [(token, reservationLines owner startTime readings.expected slot)]
  solo : result.soloFallback = true ↔ (readings.expected : Int) > (available : Int) + live -
    safety - ((remaining readings root).map fun entry => reservedMb entry.2).sum
  alone : result.soloFallback = true → remaining readings root = []

theorem tryReserve_granted (root : StateRoot)
    (h : (tryReserve readings owner slot mktemp root).status = 0) :
    ∃ available safety live token, Granted readings owner slot root
      (tryReserve readings owner slot mktemp root) available safety live token := by
  unfold tryReserve at h ⊢
  cases hstart : readings.ownerStartTime with
  | none =>
    rw [hstart] at h
    cases h
  | some startTime =>
    rw [hstart] at h
    dsimp only at h ⊢
    split at h
    · cases h
    · next hlocked =>
      rw [if_neg hlocked]
      unfold decideReservation at h ⊢
      split at h
      · next available safety live ha hs hl =>
        dsimp only at h ⊢
        split at h
        · cases h
        · next hfits =>
          split at h
          · cases h
          · next token =>
            rw [if_neg hfits]
            refine ⟨available, safety, live, token, ha, hs, hl, rfl, ⟨startTime, hstart, ?_⟩, ?_, ?_⟩
            · rw [tallyReservations_eq]
              rfl
            · rw [tallyReservations_eq, decide_eq_true_eq]
              rfl
            · intro hsolo
              dsimp only at hsolo
              rw [hsolo, Bool.true_and, Bool.not_eq_true, Bool.not_eq_false', Bool.and_eq_true,
                decide_eq_true_eq, tallyReservations_eq] at hfits
              exact List.length_eq_zero_iff.1 hfits.1
      · cases h

/-- What one call of try_reserve does right. -/
structure CallSound (m : Machine) (readings : Readings) (owner : Nat) (slot : Text)
    (result : Reserved) : Prop where
  /-- A grant fits, with what is left of the other reservations, into the available memory. -/
  fits : result.status = 0 → result.soloFallback = false → readings.liveReservedRssMb = none →
    ∃ available safety token, readings.available = some available ∧
      readings.safety = some safety ∧ result.token = some token ∧
      (∃ startTime, result.root = remaining readings m.root ++
        [(token, reservationLines owner startTime readings.expected slot)]) ∧
      (readings.expected : Int) + (((remaining readings m.root).map fun entry =>
        reservedMb entry.2 - min (stepRssMb readings entry.2) (reservedMb entry.2)).sum : Nat) ≤
          available - safety
  /-- With a given sum in place of the measured one it fits just so. -/
  fitsGiven : result.status = 0 → result.soloFallback = false → ∀ live,
    readings.liveReservedRssMb = some (some live) →
      ∃ available safety, readings.available = some available ∧ readings.safety = some safety ∧
        (readings.expected : Int) + ((remaining readings m.root).map fun entry =>
          reservedMb entry.2).sum - live ≤ available - safety
  /-- The fallback finds no reservation of a live owner. -/
  alone : result.status = 0 → result.soloFallback = true → ∀ entry ∈ m.root,
    ∀ pid startTime mb, Recorded pid startTime mb entry.2 → m.processes pid ≠ some startTime
  /-- A reservation of a live owner is kept. -/
  live : ∀ entry ∈ m.root, ∀ pid startTime mb, Recorded pid startTime mb entry.2 →
    m.processes pid = some startTime → entry ∈ result.root
  /-- A reservation of a dead owner goes, finished or not, unless its pid is in use again by a
  process with an unreadable start time. -/
  dead : readings.locked = true → readings.ownerStartTime.isSome = true → ∀ entry ∈ m.root,
    ∀ pid startTime, GrantFile pid startTime entry.2 → m.processes pid ≠ some startTime →
      m.processes pid = none ∨ (readings.processStartTime (decimal pid)).isSome = true →
        entry ∉ result.root
  /-- It stays charged where the start time cannot be read. -/
  unreadable : ∀ entry ∈ m.root, ∀ pid startTime mb, Recorded pid startTime mb entry.2 →
    (m.processes pid).isSome = true → readings.processStartTime (decimal pid) = none →
      entry ∈ result.root

theorem mem_tryReserve_of_remaining {root : StateRoot} {entry : Token × ReservationFile}
    (h : entry ∈ root) (hstale : isStale readings entry.2 = false) :
    entry ∈ (tryReserve readings owner slot mktemp root).root := by
  have hmem : entry ∈ remaining readings root := List.mem_filter.2 ⟨h, by rw [hstale]; rfl⟩
  cases hstart : readings.ownerStartTime with
  | none =>
    rw [tryReserve, hstart]
    exact h
  | some startTime =>
    by_cases hlocked : readings.locked = true
    · rcases tryReserve_root root hlocked hstart with hroot | ⟨token, -, hroot⟩
      · rw [hroot]
        exact hmem
      · rw [hroot]
        exact List.mem_append_left _ hmem
    · rw [Bool.not_eq_true] at hlocked
      rw [tryReserve, hstart]
      simp only [hlocked, Bool.not_false, if_true]
      exact h

/-- Every call of a run is sound. -/
theorem tryReserve_sound (hr : readings.Of m owner) (hfresh : FreshToken owner m.root mktemp) :
    CallSound m readings owner slot (tryReserve readings owner slot mktemp m.root) where
  fits hstatus hsolo hunset := by
    obtain ⟨available, safety, live, token, hgranted⟩ := tryReserve_granted m.root hstatus
    obtain ⟨startTime, -, hroot⟩ := hgranted.written
    refine ⟨available, safety, token, hgranted.readAvailable, hgranted.readSafety,
      hgranted.handedOut, ⟨startTime, hroot⟩, ?_⟩
    have hfits := mt hgranted.solo.2 (by rw [hsolo]; exact Bool.false_ne_true)
    have hlive := hgranted.readLive
    rw [liveReservedRss, hunset, Option.getD_none, Option.some.injEq, tallyReservations_eq] at hlive
    have hsum := sum_uncredited readings (remaining readings m.root)
    change ((remaining readings m.root).map fun entry => creditedRssMb readings entry.2).sum = live
      at hlive
    omega
  fitsGiven hstatus hsolo live hset := by
    obtain ⟨available, safety, given, token, hgranted⟩ := tryReserve_granted m.root hstatus
    have hfits := mt hgranted.solo.2 (by rw [hsolo]; exact Bool.false_ne_true)
    have hlive := hgranted.readLive
    rw [liveReservedRss, hset, Option.getD_some, Option.some.injEq] at hlive
    exact ⟨available, safety, hgranted.readAvailable, hgranted.readSafety, by omega⟩
  alone hstatus hsolo entry hentry pid startTime mb hrecorded hlive := by
    obtain ⟨available, safety, live, token, hgranted⟩ := tryReserve_granted m.root hstatus
    have hmem : entry ∈ remaining readings m.root :=
      List.mem_filter.2 ⟨hentry, by rw [isStale_live hrecorded hr hlive]; rfl⟩
    rw [hgranted.alone hsolo] at hmem
    cases hmem
  live entry hentry pid startTime mb hrecorded hlive :=
    mem_tryReserve_of_remaining hentry (isStale_live hrecorded hr hlive)
  dead hlocked hstart entry hentry pid startTime hgrant hdead hidentity hmem := by
    have hstale := isStale_dead hgrant hr hdead hidentity
    have hgone : entry ∉ remaining readings m.root := fun he => by
      have := (List.mem_filter.1 he).2
      rw [hstale] at this
      cases this
    obtain ⟨start, hstart⟩ := Option.isSome_iff_exists.1 hstart
    have hroots := @tryReserve_root readings owner start slot mktemp m.root hlocked hstart
    rcases hroots with hroot | ⟨token, htoken, hroot⟩
    · rw [hroot] at hmem
      exact hgone hmem
    · rw [hroot] at hmem
      rcases List.mem_append.1 hmem with hmem | hmem
      · exact hgone hmem
      · rw [List.mem_singleton.1 hmem] at hentry
        exact (hfresh token htoken).2 _ hentry rfl
  unreadable entry hentry pid startTime mb hrecorded hexists hunreadable := by
    refine mem_tryReserve_of_remaining hentry (isStale_kept hrecorded ?_ fun live hs => ?_)
    · rw [hr.processExists, hexists]
    · rw [hunreadable] at hs
      cases hs

theorem mem_tally {root : StateRoot} {entry : Token × ReservationFile} (h : entry ∈ root)
    (hstale : isStale readings entry.2 = false) : entry ∈ (tallyReservations readings root).kept := by
  rw [tallyReservations_eq]
  exact List.mem_filter.2 ⟨h, by rw [hstale]; rfl⟩

/-- Only a release of its own token takes the reservation of a live owner away. -/
theorem keeps_live (hs : MachineStep m m') {entry : Token × ReservationFile} (hentry : entry ∈ m.root)
    {pid startTime mb : Nat} (h : Recorded pid startTime mb entry.2)
    (hlive : m.processes pid = some startTime) :
    (∃ file, (entry.1, file) ∈ m'.root ∧ Recorded pid startTime mb file) ∨
      m'.root = release entry.1 m.root := by
  cases hs with
  | spawn other start hfree hnew => exact .inl ⟨entry.2, hentry, h⟩
  | exit other => exact .inl ⟨entry.2, hentry, h⟩
  | tryReserve owner start readings slot mktemp halive hr hfresh =>
    exact .inl ⟨entry.2, mem_tryReserve_of_remaining hentry (isStale_live h hr hlive), h⟩
  | diesPruning owner start readings seen halive hr =>
    refine .inl ⟨entry.2, List.mem_append.2 ?_, h⟩
    rw [← List.take_append_drop seen m.root] at hentry
    rcases List.mem_append.1 hentry with hentry | hentry
    · exact .inl (mem_tally hentry (isStale_live h hr hlive))
    · exact .inr hentry
  | diesWriting owner start readings slot token whole part halive hr hfresh =>
    exact .inl ⟨entry.2, List.mem_append_left _ (mem_tally hentry (isStale_live h hr hlive)), h⟩
  | attachPid token stepPid hgranted =>
    have hmem := List.mem_map_of_mem (f := fun e => if e.1 = token then
      (e.1, e.2 ++ [stepPidLine stepPid]) else e) hentry
    split at hmem
    · obtain ⟨slot, steps, hfile⟩ := h
      exact .inl ⟨_, hmem, slot, steps ++ [stepPid], by simp [hfile]⟩
    · exact .inl ⟨entry.2, hmem, h⟩
  | attachReleased token stepPid habsent =>
    exact .inl ⟨entry.2, List.mem_append_left _ hentry, h⟩
  | release token =>
    by_cases htoken : entry.1 = token
    · exact .inr (by rw [htoken])
    · exact .inl ⟨entry.2, List.mem_filter.2 ⟨hentry, decide_eq_true htoken⟩, h⟩

end Calls

/-- Memory admission over every run: every file is a whole or a dead process's reservation or has
no owner, every call is sound, and nothing but its own release takes a live owner's reservation. -/
theorem memoryAdmission_sound (m : Machine) (h : MachineReachable m) :
    (∀ entry ∈ m.root, FileOf m entry.2) ∧
    (∀ (readings : Readings) (owner : Nat) (slot : Text) (mktemp : Option Token),
      readings.Of m owner → FreshToken owner m.root mktemp →
        CallSound m readings owner slot (tryReserve readings owner slot mktemp m.root)) ∧
    ∀ m', MachineStep m m' → ∀ entry ∈ m.root, ∀ pid startTime mb,
      Recorded pid startTime mb entry.2 → m.processes pid = some startTime →
        (∃ file, (entry.1, file) ∈ m'.root ∧ Recorded pid startTime mb file) ∨
          m'.root = release entry.1 m.root :=
  ⟨h.sound.files, fun _ _ _ _ hr hfresh => tryReserve_sound hr hfresh,
    fun _ hs _ hentry _ _ _ hrecorded hlive => keeps_live hs hentry hrecorded hlive⟩

/-! ## A pid that is in use again -/

/-- What a call reads on a host with room for one slot. -/
def hostReadings (m : Machine) (owner : Nat) (readable : Bool) : Readings where
  locked := true
  ownerStartTime := m.processes owner
  processExists pid := (m.processes (Nat.ofDigitChars 10 pid 0)).isSome
  processStartTime pid :=
    if readable then (m.processes (Nat.ofDigitChars 10 pid 0)).map decimal else none
  processTreeRssMb _ := 0
  liveReservedRssMb := none
  available := some 5000
  safety := some 1024
  expected := 3700
  allowSoloFallback := false

theorem hostReadings_of (m : Machine) (owner : Nat) (readable : Bool) :
    (hostReadings m owner readable).Of m owner where
  ownerStartTime := .inr rfl
  processExists pid := by simp only [hostReadings, ofDigitChars_decimal]
  processStartTime pid live h := by
    simp only [hostReadings, ofDigitChars_decimal] at h
    split at h
    · exact h
    · cases h

def lintToken (owner : Nat) : Token := ⟨owner, sh "lint", sh "a8Kx0Q"⟩

def spawned (pid startTime : Nat) (m : Machine) : Machine :=
  ⟨Function.update m.processes pid (some startTime), (pid, startTime) :: m.born, m.root⟩

/-- Process 7 holds a reservation. -/
def reserved : Machine :=
  let m := spawned 7 1 .initial
  ⟨m.processes, m.born,
    (tryReserve (hostReadings m 7 true) 7 (sh "lint") (some (lintToken 7)) m.root).root⟩

/-- It died without releasing it, and its pid is in use again. -/
def reused : Machine :=
  spawned 8 2 (spawned 7 3
    ⟨Function.update reserved.processes 7 none, reserved.born, reserved.root⟩)

theorem reused_reachable : MachineReachable reused := by
  have hspawn : MachineReachable (spawned 7 1 .initial) :=
    .single (.spawn 7 1 rfl List.not_mem_nil)
  have hreserve : MachineReachable reserved :=
    hspawn.tail (.tryReserve 7 1 _ _ _ rfl (hostReadings_of _ 7 true) (by
      rintro _ ⟨⟩
      exact ⟨rfl, fun _ he => absurd he List.not_mem_nil⟩))
  have hexit := hreserve.tail (.exit 7)
  have hagain := hexit.tail (.spawn 7 3 rfl (by decide))
  exact hagain.tail (.spawn 8 2 rfl (by decide))

theorem reused_fresh : FreshToken 8 reused.root (some (lintToken 8)) := by
  rintro _ ⟨⟩
  exact ⟨rfl, by decide +kernel⟩

/-- With a readable start time the next call takes the memory over. -/
theorem memoryAdmission_sound_reused :
    (tryReserve (hostReadings reused 8 true) 8 (sh "lint") (some (lintToken 8)) reused.root).status =
        0 ∧
      (lintToken 7, reservationLines 7 1 3700 (sh "lint")) ∉ (tryReserve (hostReadings reused 8 true)
        8 (sh "lint") (some (lintToken 8)) reused.root).root :=
  ⟨by decide +kernel, ((memoryAdmission_sound reused reused_reachable).2.1 _ 8 (sh "lint") _
    (hostReadings_of reused 8 true) reused_fresh).dead rfl rfl _ (by decide +kernel) 7 1
      (.recorded 3700 ⟨sh "lint", [], rfl⟩) (by decide) (.inr (by decide +kernel))⟩

/-- The reservation of a dead owner is neither removed nor ignored at the next call: where the
process that has its pid has no readable start time it stays, and the slot that fits without it is
refused. -/
theorem tryReserve_ignores_dead_fails : ¬ ∀ m, MachineReachable m →
    ∀ (readings : Readings) (owner : Nat) (slot : Text) (mktemp : Option Token),
      readings.Of m owner → FreshToken owner m.root mktemp →
      readings.locked = true → readings.ownerStartTime.isSome = true →
        ∀ entry ∈ m.root, ∀ pid startTime mb, Recorded pid startTime mb entry.2 →
          m.processes pid ≠ some startTime →
            entry ∉ (tryReserve readings owner slot mktemp m.root).root ∨
              (tryReserve readings owner slot mktemp m.root).status =
                (tryReserve readings owner slot mktemp (release entry.1 m.root)).status := fun h => by
  rcases h reused reused_reachable (hostReadings reused 8 false) 8 (sh "lint")
    (some (lintToken 8)) (hostReadings_of reused 8 false) reused_fresh rfl rfl
      (lintToken 7, reservationLines 7 1 3700 (sh "lint")) (by decide +kernel) 7 1 3700
        ⟨sh "lint", [], rfl⟩ (by decide) with hgone | hstatus
  · exact hgone (by decide +kernel)
  · exact absurd hstatus (by decide +kernel)

end Musi.Verify
