import Mathlib.Algebra.Order.Ring.Int
import Musi.AiHooks.ThrottleState

namespace Musi.AiHooks
open Musi.Shell
set_option autoImplicit true

/-! ## Integers read back -/

theorem int64_eq {n : Int} (hlow : -2 ^ 63 ≤ n) (hhigh : n < 2 ^ 63) : int64 n = n := by
  rw [int64, Int.bmod_def]
  split
  · omega
  · omega

theorem notMem_isInteger {s : Text} (h : isInteger s = true) {c : Char} (hdigit : c.isDigit = false)
    (hminus : c ≠ '-') : c ∉ s := by
  have hdigits {t : Text} (ht : isDigits t = true) : c ∉ t := by
    intro hmem
    rw [isDigits, Bool.and_eq_true] at ht
    have hc := List.all_eq_true.1 ht.2 c hmem
    rw [hdigit] at hc
    cases hc
  rw [isInteger] at h
  split at h
  · next hhead =>
    cases s with
    | nil => exact List.not_mem_nil
    | cons d t =>
      cases hhead
      rw [List.mem_cons, not_or]
      exact ⟨hminus, hdigits h⟩
  · exact hdigits h

theorem head?_of_isDigits {s : Text} (h : isDigits s = true) : s.head? ≠ some '-' := by
  intro hhead
  cases s with
  | nil => cases hhead
  | cons c t =>
    cases hhead
    rw [isDigits, Bool.and_eq_true] at h
    have hc := List.all_eq_true.1 h.2 '-' List.mem_cons_self
    exact absurd hc (by decide)

theorem isInteger_decimal (n : Nat) : isInteger (decimal n) = true := by
  rw [isInteger, if_neg (head?_of_isDigits (isDigits_decimal n)), isDigits_decimal]

theorem testInteger_decimal {n : Nat} (h : n < 2 ^ 63) : testInteger (decimal n) = some (n : Int) := by
  rw [testInteger, if_neg (head?_of_isDigits (isDigits_decimal n)), testNumber, isDigits_decimal,
    ofDigitChars_decimal, Bool.true_and, if_pos (decide_eq_true h)]
  rfl

theorem arithNumber_of_decimal (n : Nat) : arithNumber (decimal n) = some n := by
  cases n with
  | zero => rfl
  | succ n => exact arithNumber_decimal (Nat.succ_pos n)

theorem arithInteger_decimal (n : Nat) : arithInteger (decimal n) = some (n : Int) := by
  rw [arithInteger, if_neg (head?_of_isDigits (isDigits_decimal n)), arithNumber_of_decimal]
  rfl

/-- An integer below 2^62 without leading zeros. -/
def Plain (s : Text) : Prop := ∃ n < 2 ^ 62, s = decimal n ∨ s = '-' :: decimal n

/-- On plain integers the tests and the expansions agree. -/
theorem arithInteger_plain {s : Text} (h : Plain s) : arithInteger s = testInteger s := by
  obtain ⟨n, hn, rfl | rfl⟩ := h
  · rw [arithInteger_decimal, testInteger_decimal (hn.trans (by decide))]
  · have hhead : ('-' :: decimal n).head? = some '-' := rfl
    rw [arithInteger, testInteger, if_pos hhead, if_pos hhead, List.tail_cons, arithNumber_of_decimal,
      testNumber, isDigits_decimal, ofDigitChars_decimal, Bool.true_and,
      if_pos (decide_eq_true (hn.trans (by decide)))]

theorem testInteger_plain_lt {s : Text} {n : Int} (h : Plain s) (hs : testInteger s = some n) :
    n < 2 ^ 62 := by
  obtain ⟨m, hm, rfl | rfl⟩ := h
  · rw [testInteger_decimal (hm.trans (by decide))] at hs
    cases hs
    omega
  · have hhead : ('-' :: decimal m).head? = some '-' := rfl
    rw [testInteger, if_pos hhead, List.tail_cons, testNumber, isDigits_decimal, ofDigitChars_decimal,
      Bool.true_and, if_pos (decide_eq_true (hm.trans (by decide)))] at hs
    cases hs
    change -(m : Int) < 2 ^ 62
    omega

/-! ## The state file -/

theorem readLines_two {first second : Text} (hfirst : '\n' ∉ first) (hsecond : '\n' ∉ second) :
    readLines (first ++ '\n' :: (second ++ ['\n'])) = ([first, second], []) := by
  rw [readLines_line hfirst, readLines_line hsecond]
  rfl

theorem notMem_assignment {key value : Text} (hkey : '\n' ∉ key) (hvalue : isInteger value = true) :
    '\n' ∉ key ++ '=' :: value := by
  rw [List.mem_append, List.mem_cons, not_or, not_or]
  exact ⟨hkey, by decide, notMem_isInteger hvalue (by decide) (by decide)⟩

theorem readStateLine_ts (fields : ThrottleFields) {value : Text} (h : isInteger value = true) :
    readStateLine fields (sh "LAST_TS" ++ '=' :: value) = some { fields with lastTs := some value } := by
  rw [readStateLine, splitAssignment_line _ (by decide) (notMem_isInteger h (by decide) (by decide))]
  rfl

theorem readStateLine_count (fields : ThrottleFields) {value : Text} (h : isInteger value = true) :
    readStateLine fields (sh "LAST_COUNT" ++ '=' :: value) =
      some { fields with lastCount := some value } := by
  rw [readStateLine, splitAssignment_line _ (by decide) (notMem_isInteger h (by decide) (by decide))]
  rfl

theorem readState_fields {text : Text} {ts count : Text} {t n : Int}
    (hfields : (readLines text).1.foldlM readStateLine {} = some ⟨some ts, some count⟩)
    (hts : isInteger ts = true) (hcount : isInteger count = true) (ht : testInteger ts = some t)
    (hn : testInteger count = some n) (hpos : 0 < t) (hle : 0 ≤ n) :
    readState (some text) = some ⟨ts, count⟩ := by
  rw [readState]
  simp only [Option.bind_eq_bind, Option.bind_some, hfields, hts, hcount, ht, hn, Option.any_some,
    decide_eq_true hpos, decide_eq_true hle, Bool.and_self, if_true]

theorem readState_stateText {ts count : Text} {t n : Int} (hts : isInteger ts = true)
    (hcount : isInteger count = true) (ht : testInteger ts = some t)
    (hn : testInteger count = some n) (hpos : 0 < t) (hle : 0 ≤ n) :
    readState (some (stateText ts count)) = some ⟨ts, count⟩ := by
  refine readState_fields ?_ hts hcount ht hn hpos hle
  rw [stateText, readLines_two (notMem_assignment (by decide) hts)
    (notMem_assignment (by decide) hcount), List.foldlM_cons, readStateLine_ts {} hts]
  simp only [Option.bind_eq_bind, Option.bind_some, List.foldlM_cons, readStateLine_count _ hcount]
  rfl

/-- What an accepted file holds, as numbers. -/
structure Holds (file : Option Text) (last : ThrottleState) (t n : Int) : Prop where
  read : readState file = some last
  time : isInteger last.lastTs = true
  testTime : testInteger last.lastTs = some t
  arithTime : arithInteger last.lastTs = some t
  arithCount : arithInteger last.lastCount = some n
  timePos : 0 < t
  timeLt : t < 2 ^ 63
  countNonneg : 0 ≤ n
  countLt : n + 1 < 2 ^ 63

theorem testInteger_lt {s : Text} {n : Int} (h : testInteger s = some n) : n < 2 ^ 63 := by
  have hnumber {t : Text} {m : Nat} (ht : testNumber t = some m) : m < 2 ^ 63 := by
    rw [testNumber] at ht
    split at ht
    · next hcond =>
      cases ht
      rw [Bool.and_eq_true, decide_eq_true_eq] at hcond
      exact hcond.2
    · cases ht
  rw [testInteger] at h
  split at h
  · obtain ⟨m, -, rfl⟩ := Option.map_eq_some_iff.1 h
    omega
  · obtain ⟨m, hm, rfl⟩ := Option.map_eq_some_iff.1 h
    have hlt := hnumber hm
    omega

theorem readState_spec {file : Option Text} {last : ThrottleState} (h : readState file = some last) :
    isInteger last.lastTs = true ∧ isInteger last.lastCount = true ∧
      (∃ t, testInteger last.lastTs = some t ∧ 0 < t) ∧
      ∃ n, testInteger last.lastCount = some n ∧ 0 ≤ n := by
  rw [readState] at h
  simp only [Option.bind_eq_bind, Option.bind_eq_some_iff] at h
  obtain ⟨text, -, fields, -, ts, -, count, -, h⟩ := h
  split at h
  · next hcond =>
    cases h
    simp only [Bool.and_eq_true, Option.any_eq_true, decide_eq_true_eq] at hcond
    exact ⟨hcond.1.1.1, hcond.1.2, hcond.1.1.2, hcond.2⟩
  · cases h

theorem Holds.of_plain {file : Option Text} {last : ThrottleState} (h : readState file = some last)
    (hts : Plain last.lastTs) (hcount : Plain last.lastCount) : ∃ t n, Holds file last t n := by
  obtain ⟨htime, -, ⟨t, ht, hpos⟩, n, hn, hle⟩ := readState_spec h
  have hlt := testInteger_plain_lt hcount hn
  exact ⟨t, n, h, htime, ht, (arithInteger_plain hts).trans ht, (arithInteger_plain hcount).trans hn,
    hpos, testInteger_lt ht, hle, by omega⟩

theorem holds_stateText {ts : Text} {t : Int} {n : Nat} (hts : isInteger ts = true)
    (ht : testInteger ts = some t) (harith : arithInteger ts = some t) (hpos : 0 < t)
    (hlt : t < 2 ^ 63) (hn : (n : Int) + 1 < 2 ^ 63) :
    Holds (some (stateText ts (decimal n))) ⟨ts, decimal n⟩ t n ∧
      WellFormed (some (stateText ts (decimal n))) := by
  have hcount : testInteger (decimal n) = some (n : Int) := testInteger_decimal (by omega)
  refine ⟨⟨?_, hts, ht, harith, arithInteger_decimal n, hpos, hlt, Int.natCast_nonneg n, hn⟩, ?_⟩
  · exact readState_stateText hts (isInteger_decimal n) ht hcount hpos (Int.natCast_nonneg n)
  · exact ⟨_, rfl, .timeFirst hts (isInteger_decimal n) ht hcount hpos (Int.natCast_nonneg n)⟩

/-! ## One call -/

section
variable {file : Option Text} {last : ThrottleState} {t n ttl max : Int} {call : ThrottleCall}

/-- The clock reads a positive time, as the shell's integers have it. -/
def ThrottleCall.Reads (call : ThrottleCall) : Prop := 0 < call.now ∧ call.now < 2 ^ 63

def isDue (t n now ttl max : Int) : Bool := now - t < 0 || ttl ≤ now - t || max ≤ n + 1

theorem releaseDue_holds (h : Holds file last t n) (hcall : call.Reads) :
    releaseDue last call.now ttl max = some (isDue t n call.now ttl max) := by
  obtain ⟨hpos, hlt⟩ := hcall
  have htime := h.timePos
  have htimeLt := h.timeLt
  have hcount := h.countNonneg
  have hcountLt := h.countLt
  have hage : int64 (call.now - t) = call.now - t := int64_eq (by omega) (by omega)
  have hnext : int64 (n + 1) = n + 1 := int64_eq (by omega) (by omega)
  rw [releaseDue, h.arithTime, h.arithCount]
  simp only [Option.bind_eq_bind, Option.bind_some, hage, hnext, isDue]
  by_cases hearly : call.now - t < 0 ∨ ttl ≤ call.now - t
  · have hfirst : (decide (call.now - t < 0) || decide (call.now - t ≥ ttl)) = true := by
      rw [Bool.or_eq_true, decide_eq_true_eq, decide_eq_true_eq]
      exact hearly
    rw [hfirst, if_pos rfl]
    rfl
  · have hfirst : (decide (call.now - t < 0) || decide (call.now - t ≥ ttl)) = false := by
      rw [Bool.or_eq_false_iff, decide_eq_false_iff_not, decide_eq_false_iff_not]
      exact not_or.1 hearly
    rw [hfirst, if_neg Bool.false_ne_true]
    rfl

/-- The file after a call that the clock or the counter releases, or that finds no state. -/
def emittedFile (file : Option Text) (call : ThrottleCall) : Option Text :=
  writeState file call.written (decimalInt call.now) (sh "0")

theorem shouldEmit_rejected (h : readState file = none) :
    shouldEmit file call ttl max = some (true, emittedFile file call) ∧
      wouldEmit file call.now ttl max = some true := by
  rw [shouldEmit, wouldEmit, h]
  exact ⟨rfl, rfl⟩

theorem shouldEmit_due (h : Holds file last t n) (hcall : call.Reads)
    (hdue : isDue t n call.now ttl max = true) :
    shouldEmit file call ttl max = some (true, emittedFile file call) ∧
      wouldEmit file call.now ttl max = some true := by
  have hrelease := @releaseDue_holds file last t n ttl max call h hcall
  rw [hdue] at hrelease
  rw [shouldEmit, wouldEmit, h.read]
  simp only [hrelease, Option.bind_eq_bind, Option.bind_some, if_true]
  exact ⟨rfl, trivial⟩

theorem shouldEmit_counted (h : Holds file last t n) (hcall : call.Reads)
    (hdue : isDue t n call.now ttl max = false) :
    shouldEmit file call ttl max =
        some (!call.written, writeState file call.written last.lastTs (decimal (n + 1).toNat)) ∧
      wouldEmit file call.now ttl max = some false := by
  have hrelease := @releaseDue_holds file last t n ttl max call h hcall
  have hcount := h.countNonneg
  have hcountLt := h.countLt
  have hnext : int64 (n + 1) = n + 1 := int64_eq (by omega) (by omega)
  have hdecimal : decimalInt (n + 1) = decimal (n + 1).toNat := by
    obtain ⟨m, hm⟩ := Int.eq_ofNat_of_zero_le (by omega : 0 ≤ n + 1)
    rw [hm]
    rfl
  rw [hdue] at hrelease
  rw [shouldEmit, wouldEmit, h.read]
  simp only [hrelease, Option.bind_eq_bind, Option.bind_some, h.arithCount, hnext, hdecimal]
  exact ⟨rfl, trivial⟩

/-- An emit that is stored starts the count again. -/
theorem holds_emitted (hcall : call.Reads) (hwritten : call.written = true) :
    (∃ last, Holds (emittedFile file call) last call.now 0) ∧ WellFormed (emittedFile file call) := by
  obtain ⟨hpos, hlt⟩ := hcall
  obtain ⟨m, hm⟩ := Int.eq_ofNat_of_zero_le hpos.le
  have hdecimal : decimalInt call.now = decimal m := by
    rw [hm]
    rfl
  have hzero : sh "0" = decimal 0 := rfl
  rw [emittedFile, writeState, hwritten, if_pos rfl, hdecimal, hzero]
  rw [hm] at hpos hlt ⊢
  obtain ⟨hholds, hformed⟩ := holds_stateText (n := 0) (isInteger_decimal m)
    (testInteger_decimal (by omega)) (arithInteger_decimal m) hpos hlt (by decide)
  exact ⟨⟨_, hholds⟩, hformed⟩

/-! ## Runs -/

/-- What is known of the file before a call: what it stores was stored last, and no more calls were
suppressed in a row than it counts. -/
def Tracks (file : Option Text) (stored : Option Int) (quiet : Nat) : Prop :=
  (readState file = none ∧ quiet = 0) ∨
    ∃ last t n, Holds file last t n ∧ stored = some t ∧ (quiet : Int) ≤ n

/-- A file that is not trusted although it is malformed, unless the next call emits anyway. -/
def Trusted (max : Int) (file : Option Text) : Prop :=
  WellFormed file ∨ readState file = none ∨
    ∃ last n, readState file = some last ∧ arithInteger last.lastCount = some n ∧ max ≤ n + 1

theorem trusted_emits (h : Holds file last t n) (htrusted : Trusted max file)
    (hformed : ¬WellFormed file) : max ≤ n + 1 := by
  rcases htrusted with htrusted | htrusted | ⟨other, m, hread, hcount, hle⟩
  · exact absurd htrusted hformed
  · rw [h.read] at htrusted
    cases htrusted
  · rw [h.read] at hread
    cases hread
    rw [h.arithCount] at hcount
    cases hcount
    exact hle

theorem step_tracks {stored : Option Int} {quiet : Nat} (htracks : Tracks file stored quiet)
    (hmax : max < 2 ^ 63) (hcall : call.Reads) :
    ∃ emitted next, shouldEmit file call ttl max = some (emitted, next) ∧
      (call.written = true → wouldEmit file call.now ttl max = some emitted) ∧
      (emitted = false → ∃ t, stored = some t ∧ 0 ≤ call.now - t ∧ call.now - t < ttl) ∧
      (emitted = false → (quiet : Int) + 1 < max) ∧
      Tracks next (if emitted && call.written then some call.now else stored)
        (if emitted then 0 else quiet + 1) ∧
      (Trusted max file → Trusted max next ∧ (¬WellFormed file → emitted = true)) := by
  have hemitted (hstays : Tracks file stored 0) : Tracks (emittedFile file call)
      (if true && call.written then some call.now else stored) 0 := by
    cases hwritten : call.written with
    | true =>
      obtain ⟨⟨last, hholds⟩, -⟩ := @holds_emitted file call hcall hwritten
      exact .inr ⟨last, _, _, hholds, rfl, Int.le_refl _⟩
    | false =>
      rw [emittedFile, writeState, hwritten]
      exact hstays
  have htrusts (h : Trusted max file) : Trusted max (emittedFile file call) := by
    cases hwritten : call.written with
    | true => exact .inl (@holds_emitted file call hcall hwritten).2
    | false =>
      rw [emittedFile, writeState, hwritten]
      exact h
  rcases htracks with ⟨hrejected, rfl⟩ | ⟨last, t, n, hholds, rfl, hquiet⟩
  · obtain ⟨hshould, hwould⟩ := @shouldEmit_rejected file ttl max call hrejected
    exact ⟨true, _, hshould, fun _ => hwould, nofun, nofun, hemitted (.inl ⟨hrejected, rfl⟩),
      fun h => ⟨htrusts h, fun _ => rfl⟩⟩
  · cases hdue : isDue t n call.now ttl max with
    | true =>
      obtain ⟨hshould, hwould⟩ := shouldEmit_due hholds hcall hdue
      exact ⟨true, _, hshould, fun _ => hwould, nofun, nofun,
        hemitted (.inr ⟨last, t, n, hholds, rfl, hholds.countNonneg⟩),
        fun h => ⟨htrusts h, fun _ => rfl⟩⟩
    | false =>
      obtain ⟨hshould, hwould⟩ := shouldEmit_counted hholds hcall hdue
      have hcount := hholds.countNonneg
      simp only [isDue, Bool.or_eq_false_iff, decide_eq_false_iff_not] at hdue
      obtain ⟨⟨hage, httl⟩, hbelow⟩ := hdue
      have hnext : ((n + 1).toNat : Int) = n + 1 := Int.toNat_of_nonneg (by omega)
      cases hwritten : call.written with
      | true =>
        obtain ⟨hcounted, hformed⟩ := @holds_stateText last.lastTs t (n + 1).toNat hholds.time
          hholds.testTime hholds.arithTime hholds.timePos hholds.timeLt (by omega)
        rw [hwritten] at hshould
        refine ⟨false, _, hshould, fun _ => hwould, fun _ => ⟨t, rfl, by omega, by omega⟩,
          fun _ => by omega, .inr ⟨_, t, _, hcounted, rfl, ?_⟩, fun h => ⟨.inl hformed, fun hnot => ?_⟩⟩
        · rw [hnext, if_neg Bool.false_ne_true]
          push_cast
          omega
        · exact absurd (trusted_emits hholds h hnot) hbelow
      | false =>
        rw [hwritten] at hshould
        exact ⟨true, _, hshould, nofun, nofun, nofun,
          .inr ⟨last, t, n, hholds, rfl, hholds.countNonneg⟩, fun h => ⟨h, fun _ => rfl⟩⟩

/-- The time stored last, from one known before the calls. -/
def storedAfter (stored : Option Int) (done : List ThrottleAnswer) : Option Int :=
  done.foldl (fun stored answer =>
    if answer.emitted && answer.call.written then some answer.call.now else stored) stored

/-- A run from a file of which something is known. -/
structure RunSafe (ttl max : Int) (file : Option Text) (stored : Option Int) (quiet : Nat)
    (run : List ThrottleAnswer) : Prop where
  predicted : ∀ answer ∈ run, answer.call.written = true →
    wouldEmit answer.before answer.call.now ttl max = some answer.emitted
  fresh : Trusted max file → ∀ answer ∈ run, ¬WellFormed answer.before → answer.emitted = true
  aged : ∀ done answer later, run = done ++ answer :: later → answer.emitted = false →
    ∃ t, storedAfter stored done = some t ∧ 0 ≤ answer.call.now - t ∧ answer.call.now - t < ttl
  first : ∀ block later, run = block ++ later → (∀ answer ∈ block, answer.emitted = false) →
    block ≠ [] → (quiet : Int) + block.length < max
  bounded : ∀ done block later, run = done ++ (block ++ later) →
    (∀ answer ∈ block, answer.emitted = false) → block ≠ [] → (block.length : Int) < max

theorem answers_safe {stored : Option Int} {quiet : Nat} {calls : List ThrottleCall}
    (htracks : Tracks file stored quiet) (hmax : max < 2 ^ 63) (hcalls : ∀ call ∈ calls, call.Reads) :
    ∃ run, answers ttl max file calls = some run ∧ RunSafe ttl max file stored quiet run := by
  induction calls generalizing file stored quiet with
  | nil =>
    refine ⟨[], rfl, ⟨fun _ h => (List.not_mem_nil h).elim, fun _ _ h => (List.not_mem_nil h).elim,
      fun _ _ _ h => ?_, fun block later h _ hne => ?_, fun _ block later h _ hne => ?_⟩⟩
    · exact absurd h.symm (List.append_ne_nil_of_right_ne_nil _ (List.cons_ne_nil _ _))
    · exact absurd (List.append_eq_nil_iff.1 h.symm).1 hne
    · exact absurd (List.append_eq_nil_iff.1 (List.append_eq_nil_iff.1 h.symm).2).1 hne
  | cons call calls ih =>
    rw [List.forall_mem_cons] at hcalls
    obtain ⟨emitted, next, hshould, hpredicted, haged, hquiet, hnext, htrusted⟩ :=
      @step_tracks file ttl max call stored quiet htracks hmax hcalls.1
    obtain ⟨run, hrun, hsafe⟩ := ih hnext hcalls.2
    have hbounded : ∀ block later, (⟨file, call, emitted⟩ :: run : List ThrottleAnswer) = block ++ later →
        (∀ answer ∈ block, answer.emitted = false) → block ≠ [] →
          (quiet : Int) + block.length < max := by
      intro block later heq hblock hne
      cases block with
      | nil => exact absurd rfl hne
      | cons answer block =>
        rw [List.cons_append, List.cons.injEq] at heq
        obtain ⟨rfl, hrest⟩ := heq
        rw [List.forall_mem_cons] at hblock
        obtain ⟨rfl, hblock⟩ := hblock
        rw [List.length_cons]
        by_cases hnil : block = []
        · rw [hnil, List.length_nil]
          have hlt := hquiet rfl
          push_cast
          omega
        · have hlt := hsafe.first block later hrest hblock hnil
          rw [if_neg Bool.false_ne_true] at hlt
          push_cast at hlt ⊢
          omega
    refine ⟨⟨file, call, emitted⟩ :: run, ?_, ⟨?_, ?_, ?_, hbounded, ?_⟩⟩
    · rw [answers, hshould]
      simp only [Option.bind_eq_bind, Option.bind_some, hrun]
      rfl
    · exact List.forall_mem_cons.2 ⟨hpredicted, hsafe.predicted⟩
    · intro h
      obtain ⟨hnextTrusted, hfresh⟩ := htrusted h
      exact List.forall_mem_cons.2 ⟨hfresh, hsafe.fresh hnextTrusted⟩
    · intro done answer later heq hanswer
      cases done with
      | nil =>
        rw [List.nil_append, List.cons.injEq] at heq
        obtain ⟨rfl, -⟩ := heq
        exact haged hanswer
      | cons before done =>
        rw [List.cons_append, List.cons.injEq] at heq
        obtain ⟨rfl, hrest⟩ := heq
        exact hsafe.aged done answer later hrest hanswer
    · intro done block later heq hblock hne
      cases done with
      | nil =>
        have hlt := hbounded block later heq hblock hne
        omega
      | cons before done =>
        rw [List.cons_append, List.cons.injEq] at heq
        exact hsafe.bounded done block later heq.2 hblock hne

/-- A file whose integers, if it is accepted, are below 2^62 and without leading zeros. -/
def PlainFile (file : Option Text) : Prop :=
  ∀ last, readState file = some last → Plain last.lastTs ∧ Plain last.lastCount

theorem tracks_initial (h : PlainFile file) :
    Tracks file ((readState file).bind fun last => arithInteger last.lastTs) 0 := by
  cases hread : readState file with
  | none => exact .inl ⟨hread, rfl⟩
  | some last =>
    obtain ⟨hts, hcount⟩ := h last hread
    obtain ⟨t, n, hholds⟩ := Holds.of_plain hread hts hcount
    exact .inr ⟨last, t, n, hholds, hholds.arithTime, hholds.countNonneg⟩

end

/-- The reader takes some files that are not the two lines it asks for, and the throttle then trusts
them. -/
theorem throttle_exact {ttl max : Int} {file : Option Text} (httl : 1 ≤ ttl) (hmax : 1 ≤ max)
    (hmax' : max < 2 ^ 63) (hfile : PlainFile file) :
    (∀ calls : List ThrottleCall, (∀ call ∈ calls, call.Reads) →
      ∃ run, answers ttl max file calls = some run ∧ ThrottleSafe ttl max file run) ↔
    (WellFormed file ∨ readState file = none ∨
      ∃ last n, readState file = some last ∧ arithInteger last.lastCount = some n ∧ max ≤ n + 1) := by
  constructor
  · intro h
    by_contra hnot
    rw [not_or, not_or] at hnot
    obtain ⟨hformed, hread, hcount⟩ := hnot
    obtain ⟨last, hlast⟩ := Option.ne_none_iff_exists'.1 hread
    obtain ⟨t, n, hholds⟩ := Holds.of_plain hlast (hfile last hlast).1 (hfile last hlast).2
    have hbelow : ¬max ≤ n + 1 := fun hle => hcount ⟨last, n, hlast, hholds.arithCount, hle⟩
    obtain ⟨run, hrun, hsafe⟩ := h [⟨t, true⟩]
      (List.forall_mem_singleton.2 ⟨hholds.timePos, hholds.timeLt⟩)
    have hdue : isDue t n t ttl max = false := by
      rw [isDue, Bool.or_eq_false_iff, Bool.or_eq_false_iff, decide_eq_false_iff_not,
        decide_eq_false_iff_not, decide_eq_false_iff_not]
      exact ⟨⟨by omega, by omega⟩, hbelow⟩
    have hreads : ThrottleCall.Reads ⟨t, true⟩ := ⟨hholds.timePos, hholds.timeLt⟩
    have hshould := (shouldEmit_counted hholds hreads hdue).1
    rw [answers, hshould] at hrun
    cases hrun
    have hemits := hsafe.fresh _ List.mem_cons_self hformed
    cases hemits
  · intro htrusted calls hcalls
    obtain ⟨run, hrun, hsafe⟩ := @answers_safe file ttl max _ 0 calls (tracks_initial hfile) hmax' hcalls
    refine ⟨run, hrun, hsafe.predicted, hsafe.fresh htrusted, hsafe.aged, fun done block later heq hblock => ?_⟩
    by_cases hne : block = []
    · rw [hne, List.length_nil]
      push_cast
      omega
    · exact hsafe.bounded done block later heq hblock hne

theorem throttle_exact_absent : ∃ run, answers 60 3 none [⟨100, true⟩, ⟨101, true⟩] = some run ∧
    ThrottleSafe 60 3 none run :=
  (throttle_exact (by decide) (by decide) (by decide) fun _ h => (by cases h)).2 (.inr (.inl rfl)) _ (by
    rw [List.forall_mem_cons, List.forall_mem_singleton]
    exact ⟨⟨by decide, by decide⟩, by decide, by decide⟩)

/-- The unknown key stands on a last line that nothing terminates. -/
def bogusFile : Text := stateText (sh "100") (sh "0") ++ sh "LAST_BOGUS=2"

theorem stateFile_getLast {text : Text} (h : StateFile text) : text.getLast? = some '\n' := by
  cases h with
  | timeFirst _ _ _ _ _ _ => rw [stateText, ← List.cons_append, ← List.append_assoc,
      ← List.cons_append, ← List.append_assoc, List.getLast?_concat]
  | countFirst _ _ _ _ _ _ => rw [← List.cons_append, ← List.append_assoc,
      ← List.cons_append, ← List.append_assoc, List.getLast?_concat]

theorem readState_bogus : readState (some bogusFile) = some ⟨sh "100", sh "0"⟩ := by
  decide

theorem throttle_trusts_bogus : PlainFile (some bogusFile) ∧
    ∃ run, answers 60 3 (some bogusFile) [⟨101, true⟩] = some run ∧
      ¬ThrottleSafe 60 3 (some bogusFile) run := by
  have hplain : PlainFile (some bogusFile) := by
    intro last hlast
    rw [readState_bogus] at hlast
    cases hlast
    exact ⟨⟨100, by decide, .inl (by decide)⟩, ⟨0, by decide, .inl (by decide)⟩⟩
  have hshould : shouldEmit (some bogusFile) ⟨101, true⟩ 60 3 =
      some (false, some (stateText (sh "100") (sh "1"))) := by
    decide +kernel
  refine ⟨hplain, [⟨some bogusFile, ⟨101, true⟩, false⟩], ?_, fun hsafe => ?_⟩
  · rw [answers, hshould]
    rfl
  · have hemits := hsafe.fresh _ List.mem_cons_self (by
      rintro ⟨text, htext, hfile⟩
      cases htext
      exact absurd (stateFile_getLast hfile) (by decide))
    cases hemits

end Musi.AiHooks
