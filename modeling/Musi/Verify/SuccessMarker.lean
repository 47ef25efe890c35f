import Musi.Shell.Text

namespace Musi.Verify
open Musi.Shell
set_option autoImplicit true

/-! ## The marker file -/

def isLowerHex (c : Char) : Bool := c.isDigit || ('a' ≤ c && c ≤ 'f')

def fingerprintIsValid (fingerprint : Text) : Bool :=
  fingerprint ≠ [] && fingerprint.all isLowerHex && fingerprint.length = 64

/-- The fields seen so far. -/
structure MarkerFields where
  lastTs : Option Text := none
  lastHead : Option Text := none
  lastHash : Option Text := none

/-- One round of the read loop; none where the reader returns 1. -/
def readMarkerLine (fields : MarkerFields) (line : Text) : Option MarkerFields :=
  let (k, v) := splitAssignment line
  if k = sh "LAST_TS" then
    if fields.lastTs.isSome then none else some { fields with lastTs := some v }
  else if k = sh "LAST_HEAD" then
    if fields.lastHead.isSome then none else some { fields with lastHead := some v }
  else if k = sh "LAST_HASH" then
    if fields.lastHash.isSome then none else some { fields with lastHash := some v }
  else none

/-- The loop runs once more for an unterminated last line with a key or a value. -/
def markerLines (text : Text) : List Text :=
  let (lines, rest) := readLines text
  if (splitAssignment rest).1 ++ (splitAssignment rest).2 = [] then lines else lines ++ [rest]

/-- MUSI_MARKER_LAST_TS, MUSI_MARKER_LAST_HEAD and MUSI_MARKER_LAST_HASH. -/
structure SuccessMarker where
  lastTs : Text
  lastHead : Text
  lastHash : Text
  deriving DecidableEq

def readSuccessMarker (marker : Option Text) : Option SuccessMarker := do
  let text ← marker
  let fields ← (markerLines text).foldlM readMarkerLine {}
  let lastTs ← fields.lastTs
  let lastHead ← fields.lastHead
  let lastHash ← fields.lastHash
  let ts ← testNumber lastTs
  if ts > 0 && lastHead ≠ [] && lastHash ≠ [] && lastHash.all isLowerHex && lastHash.length = 64 then
    some { lastTs, lastHead, lastHash }
  else none

/-- The age of an accepted marker; none where the marker does not match. The clock never reads as
much as 2^62 seconds, so no subtraction wraps. -/
def successMarkerMatches (marker : Option Text) (currentHead currentHash : Text)
    (freshnessSeconds : Nat) (now : Int) : Option Int :=
  if !fingerprintIsValid currentHash then none
  else do
    let last ← readSuccessMarker marker
    let ts ← arithNumber last.lastTs
    let age := now - ts
    if age ≥ 0 && (freshnessSeconds < 2 ^ 63 && age < freshnessSeconds) &&
        last.lastHead = currentHead && last.lastHash = currentHash then some age
    else none

def markerText (now : Int) (head hash : Text) : Text :=
  sh "LAST_TS" ++ '=' :: decimalInt now ++ '\n' ::
    (sh "LAST_HEAD" ++ '=' :: head ++ '\n' :: (sh "LAST_HASH" ++ '=' :: hash ++ ['\n']))

/-- The file after the write, if it succeeds. The marker is written beside its place and renamed
into it, so that a fault in any of the steps leaves the old file. -/
def writeSuccessMarker (head hash : Text) (now : Int) (fault : Bool) : Option Text :=
  if !fingerprintIsValid hash || fault then none else some (markerText now head hash)

/-- The file after a re-stamp, if it succeeds. The clock is read once for the age of the old
marker and once for the new one. -/
def restampVerifyMarker (marker : Option Text) (expectedVerifiedHash newHead newHash
    verifiedHead : Text) (freshnessSeconds : Nat) (checked written : Int) (fault : Bool) :
    Option Text :=
  match successMarkerMatches marker verifiedHead expectedVerifiedHash freshnessSeconds checked with
  | none => none
  | some _ => writeSuccessMarker newHead newHash written fault

/-- What `git rev-parse HEAD` prints, or the word that stands for no commit. -/
structure CommitName where
  text : Text
  nonempty : text ≠ []
  plain : ∀ c ∈ text, c.isAlphanum = true

/-! ## Reading back what was written -/

theorem notMem_of_plain {p : Char → Bool} {s : Text} {c : Char} (h : ∀ d ∈ s, p d = true)
    (hc : p c = false) : c ∉ s := fun hm => by
  rw [h c hm] at hc
  cases hc

theorem fingerprintIsValid_iff {hash : Text} : fingerprintIsValid hash = true ↔
    hash ≠ [] ∧ (∀ c ∈ hash, isLowerHex c = true) ∧ hash.length = 64 := by
  simp [fingerprintIsValid, and_assoc]

theorem decimalInt_plain (now : Int) : ∀ c ∈ decimalInt now, (c.isDigit || c = '-') = true := by
  have hdigits (n : Nat) : ∀ c ∈ decimal n, (c.isDigit || c = '-') = true := fun c hc => by
    rw [Nat.isDigit_of_mem_toDigits (by decide) (by decide) hc, Bool.true_or]
  cases now with
  | ofNat n => exact hdigits n
  | negSucc n =>
    intro c hc
    rcases List.mem_cons.1 hc with rfl | hc
    · decide
    · exact hdigits _ c hc

theorem markerLines_text (now : Int) (head : CommitName) {hash : Text}
    (hvalid : fingerprintIsValid hash = true) : markerLines (markerText now head.text hash) =
      [sh "LAST_TS" ++ '=' :: decimalInt now, sh "LAST_HEAD" ++ '=' :: head.text,
        sh "LAST_HASH" ++ '=' :: hash] := by
  have hts : '\n' ∉ sh "LAST_TS" ++ '=' :: decimalInt now := by
    simp only [List.mem_append, List.mem_cons, not_or]
    exact ⟨by decide, by decide, notMem_of_plain (decimalInt_plain now) (by decide)⟩
  have hhead : '\n' ∉ sh "LAST_HEAD" ++ '=' :: head.text := by
    simp only [List.mem_append, List.mem_cons, not_or]
    exact ⟨by decide, by decide, notMem_of_plain head.plain (by decide)⟩
  have hhash : '\n' ∉ sh "LAST_HASH" ++ '=' :: hash := by
    simp only [List.mem_append, List.mem_cons, not_or]
    exact ⟨by decide, by decide, notMem_of_plain (fingerprintIsValid_iff.1 hvalid).2.1 (by decide)⟩
  rw [markerLines, markerText, readLines_line hts, readLines_line hhead, readLines_line hhash]
  rfl

/-- A written marker is read back, unless its time is not a positive number of 63 bits. -/
theorem readSuccessMarker_text {now : Int} (head : CommitName) {hash : Text}
    (hvalid : fingerprintIsValid hash = true) :
    readSuccessMarker (some (markerText now head.text hash)) =
      if 0 < now ∧ now < 2 ^ 63 then
        some { lastTs := decimalInt now, lastHead := head.text, lastHash := hash }
      else none := by
  obtain ⟨hne, hhex, hlen⟩ := fingerprintIsValid_iff.1 hvalid
  have hts := splitAssignment_line (sh "LAST_TS") (by decide)
    (notMem_of_plain (decimalInt_plain now) (c := '=') (by decide))
  have hhead := splitAssignment_line (sh "LAST_HEAD") (by decide)
    (notMem_of_plain head.plain (c := '=') (by decide))
  have hhash := splitAssignment_line (sh "LAST_HASH") (by decide)
    (notMem_of_plain hhex (c := '=') (by decide))
  have hfields : (markerLines (markerText now head.text hash)).foldlM readMarkerLine {} =
      some { lastTs := some (decimalInt now), lastHead := some head.text, lastHash := some hash } := by
    rw [markerLines_text now head hvalid]
    simp only [List.foldlM_cons, List.foldlM_nil, readMarkerLine, hts, hhead, hhash]
    rfl
  simp only [readSuccessMarker, Option.bind_eq_bind, Option.bind_some, hfields]
  have hall : hash.all isLowerHex = true := List.all_eq_true.2 hhex
  simp only [testNumber_decimalInt, head.nonempty, hne, hall, hlen, ne_eq, not_false_eq_true,
    decide_true, Bool.and_true, decide_eq_true_eq]
  by_cases hnow : 0 < now ∧ now < 2 ^ 63
  · have hpos : now.toNat > 0 := by omega
    rw [if_pos hnow, if_pos ⟨by omega, hnow.2⟩, Option.bind_some, if_pos hpos]
  · rw [if_neg hnow]
    split
    · next hle =>
      have hzero : ¬ now.toNat > 0 := by omega
      rw [Option.bind_some, if_neg hzero]
    · rfl

/-- What an accepted marker says: it is fresh, and it was written for this state. -/
theorem successMarkerMatches_text {now written age : Int} {head : CommitName} {hash : Text}
    (hvalid : fingerprintIsValid hash = true) :
    successMarkerMatches (some (markerText written head.text hash)) currentHead currentHash
        freshness now = some age ↔
      (0 < written ∧ written < 2 ^ 63) ∧ age = now - written ∧ 0 ≤ age ∧
        (freshness < 2 ^ 63 ∧ age < freshness) ∧ head.text = currentHead ∧ hash = currentHash := by
  rw [successMarkerMatches]
  by_cases hcurrent : fingerprintIsValid currentHash = true
  · simp only [hcurrent, Bool.not_true, Bool.false_eq_true, if_false, Option.bind_eq_bind,
      readSuccessMarker_text head hvalid]
    split
    · next hwritten =>
      have hts : ((written.toNat : Nat) : Int) = written := by omega
      simp only [Option.bind_some, arithNumber_decimalInt hwritten.1, hts, Bool.and_eq_true,
        decide_eq_true_eq, Option.ite_none_right_eq_some, Option.some.injEq]
      constructor
      · rintro ⟨⟨⟨⟨hage, hlt⟩, hhead⟩, hhash⟩, rfl⟩
        exact ⟨hwritten, rfl, hage, hlt, hhead, hhash⟩
      · rintro ⟨-, rfl, hage, hlt, hhead, hhash⟩
        exact ⟨⟨⟨⟨hage, hlt⟩, hhead⟩, hhash⟩, rfl⟩
    · next hwritten =>
      simp only [Option.bind_none, reduceCtorEq, false_iff]
      exact fun h => hwritten h.1
  · rw [Bool.not_eq_true] at hcurrent
    simp only [hcurrent, Bool.not_false, if_true, reduceCtorEq, false_iff]
    rintro ⟨-, -, -, -, -, rfl⟩
    rw [hvalid] at hcurrent
    cases hcurrent

end Musi.Verify
