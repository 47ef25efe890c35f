import Musi.Shell.Text

namespace Musi.AiHooks
open Musi.Shell
set_option autoImplicit true

/-! ## Integers -/

/-- The pattern `^-?[0-9]+$`. -/
def isInteger (s : Text) : Bool := if s.head? = some '-' then isDigits s.tail else isDigits s

/-- An operand of an integer test, which may be negative. -/
def testInteger (s : Text) : Option Int :=
  if s.head? = some '-' then (testNumber s.tail).map fun n : Nat => -(n : Int)
  else (testNumber s).map fun n : Nat => (n : Int)

/-- The value of an integer in an arithmetic expansion. -/
def arithInteger (s : Text) : Option Int :=
  if s.head? = some '-' then (arithNumber s.tail).map fun n : Nat => -(n : Int)
  else (arithNumber s).map fun n : Nat => (n : Int)

/-- Arithmetic expansion works on 64 bits. -/
def int64 (n : Int) : Int := n.bmod (2 ^ 64)

/-! ## The state file -/

/-- The fields seen so far. -/
structure ThrottleFields where
  lastTs : Option Text := none
  lastCount : Option Text := none

/-- One round of the read loop; none where the reader returns 1. -/
def readStateLine (fields : ThrottleFields) (line : Text) : Option ThrottleFields :=
  let (k, v) := splitAssignment line
  if k = sh "LAST_TS" then some { fields with lastTs := some v }
  else if k = sh "LAST_COUNT" then some { fields with lastCount := some v }
  else none

/-- AI_THROTTLE_STATE_TS and AI_THROTTLE_STATE_COUNT. -/
structure ThrottleState where
  lastTs : Text
  lastCount : Text
  deriving DecidableEq

/-- The loop does not run for an unterminated last line. -/
def readState (file : Option Text) : Option ThrottleState := do
  let text ← file
  let fields ← (readLines text).1.foldlM readStateLine {}
  let lastTs ← fields.lastTs
  let lastCount ← fields.lastCount
  if isInteger lastTs && (testInteger lastTs).any (0 < ·) &&
      isInteger lastCount && (testInteger lastCount).any (0 ≤ ·) then
    some { lastTs, lastCount }
  else none

def stateText (ts count : Text) : Text :=
  sh "LAST_TS" ++ '=' :: ts ++ '\n' :: (sh "LAST_COUNT" ++ '=' :: count ++ ['\n'])

/-- The file after the write; a fault in any of its steps leaves the old file. -/
def writeState (file : Option Text) (written : Bool) (ts count : Text) : Option Text :=
  if written then some (stateText ts count) else file

/-! ## The decision -/

/-- None where an arithmetic expansion fails. -/
def releaseDue (last : ThrottleState) (now ttl max : Int) : Option Bool := do
  let ts ← arithInteger last.lastTs
  let age := int64 (now - ts)
  if age < 0 || age ≥ ttl then return true
  let count ← arithInteger last.lastCount
  return int64 (count + 1) ≥ max

/-- A call: the clock, and whether its write succeeds. -/
structure ThrottleCall where
  now : Int
  written : Bool

/-- Whether the call emits, and the file after it. -/
def shouldEmit (file : Option Text) (call : ThrottleCall) (ttl max : Int) :
    Option (Bool × Option Text) :=
  match readState file with
  | none => some (true, writeState file call.written (decimalInt call.now) (sh "0"))
  | some last => do
    if ← releaseDue last call.now ttl max then
      return (true, writeState file call.written (decimalInt call.now) (sh "0"))
    let count ← arithInteger last.lastCount
    let next := writeState file call.written last.lastTs (decimalInt (int64 (count + 1)))
    return (!call.written, next)

def wouldEmit (file : Option Text) (now ttl max : Int) : Option Bool :=
  match readState file with
  | none => some true
  | some last => releaseDue last now ttl max

/-! ## Runs -/

/-- A call in a run: the file before it, and its answer. -/
structure ThrottleAnswer where
  before : Option Text
  call : ThrottleCall
  emitted : Bool

def answers (ttl max : Int) : Option Text → List ThrottleCall → Option (List ThrottleAnswer)
  | _, [] => some []
  | file, call :: calls => do
    let (emitted, next) ← shouldEmit file call ttl max
    let rest ← answers ttl max next calls
    return ⟨file, call, emitted⟩ :: rest

/-- The time that the last emit stored; a file that the run starts from counts as one. -/
def storedTime (file : Option Text) (done : List ThrottleAnswer) : Option Int :=
  done.foldl (fun stored answer =>
    if answer.emitted && answer.call.written then some answer.call.now else stored)
    ((readState file).bind fun last => arithInteger last.lastTs)

/-- A file of the two lines, each once and terminated, with integers as the reader asks for them. -/
inductive StateFile : Text → Prop where
  | timeFirst {ts count : Text} {t n : Int} (hts : isInteger ts = true) (hcount : isInteger count = true)
      (ht : testInteger ts = some t) (hn : testInteger count = some n) (hpos : 0 < t) (hle : 0 ≤ n) :
      StateFile (stateText ts count)
  | countFirst {ts count : Text} {t n : Int} (hts : isInteger ts = true)
      (hcount : isInteger count = true) (ht : testInteger ts = some t)
      (hn : testInteger count = some n) (hpos : 0 < t) (hle : 0 ≤ n) :
      StateFile (sh "LAST_COUNT" ++ '=' :: count ++ '\n' :: (sh "LAST_TS" ++ '=' :: ts ++ ['\n']))

/-- Neither absent nor malformed. -/
def WellFormed (file : Option Text) : Prop := ∃ text, file = some text ∧ StateFile text

structure ThrottleSafe (ttl max : Int) (file : Option Text) (run : List ThrottleAnswer) : Prop where
  predicted : ∀ answer ∈ run, answer.call.written = true →
    wouldEmit answer.before answer.call.now ttl max = some answer.emitted
  fresh : ∀ answer ∈ run, ¬WellFormed answer.before → answer.emitted = true
  aged : ∀ done answer later, run = done ++ answer :: later → answer.emitted = false →
    ∃ t, storedTime file done = some t ∧ 0 ≤ answer.call.now - t ∧ answer.call.now - t < ttl
  bounded : ∀ done block later, run = done ++ (block ++ later) →
    (∀ answer ∈ block, answer.emitted = false) → (block.length : Int) < max

end Musi.AiHooks
