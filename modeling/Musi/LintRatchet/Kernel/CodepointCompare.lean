import Musi.Js.Order

namespace Musi.LintRatchet
open Musi.Js
set_option autoImplicit true

def bmpMaxCodePoint : Nat := 0xFFFF

/-- The code point that a surrogate pair encodes. -/
def pairCodePoint (high low : UInt16) : Nat :=
  (high.toNat - 0xD800) * 0x400 + (low.toNat - 0xDC00) + 0x10000

/-- The code point at the front of a string: a surrogate pair counts as one. -/
def headCodePoint : JsString → Option Nat
  | [] => none
  | [a] => some a.toNat
  | a :: b :: _ =>
    if isHighSurrogate a && isLowSurrogate b then some (pairCodePoint a b) else some a.toNat

/-- String.prototype.codePointAt. -/
def codePointAt (s : JsString) (i : Nat) : Option Nat := headCodePoint (s.drop i)

def codeUnitWidth (codePoint : Nat) : Nat := if codePoint > bmpMaxCodePoint then 2 else 1

def compareExhausted (aIndex aLength bIndex bLength : Nat) : Int :=
  if aIndex ≥ aLength && bIndex ≥ bLength then 0 else if aIndex ≥ aLength then -1 else 1

/-- The loop of compareByCodepoint; the first string bounds the number of rounds. -/
def compareByCodepointLoop (a b : JsString) : Nat → Nat → Nat → Int
  | 0, i, j => compareExhausted i a.length j b.length
  | rounds + 1, i, j =>
    if i < a.length ∧ j < b.length then
      let aCp := (codePointAt a i).getD 0
      let bCp := (codePointAt b j).getD 0
      let order := compareScalars aCp bCp
      if order ≠ 0 then order
      else compareByCodepointLoop a b rounds (i + codeUnitWidth aCp) (j + codeUnitWidth bCp)
    else compareExhausted i a.length j b.length

def compareByCodepoint (a b : JsString) : Int := compareByCodepointLoop a b a.length 0 0

/-- The code points of a string, lone surrogates kept as they are. -/
def codePoints : JsString → List Nat
  | [] => []
  | [a] => [a.toNat]
  | a :: b :: s =>
    if isHighSurrogate a && isLowSurrogate b then pairCodePoint a b :: codePoints s
    else a.toNat :: codePoints (b :: s)

theorem pairCodePoint_bounds (ha : isHighSurrogate a = true) (hb : isLowSurrogate b = true) :
    0x10000 ≤ pairCodePoint a b ∧ utf16 (pairCodePoint a b) = [a, b] := by
  simp only [isHighSurrogate, isLowSurrogate, Bool.and_eq_true, decide_eq_true_eq,
    UInt16.le_iff_toNat_le] at ha hb
  have ha' : 0xD800 ≤ a.toNat ∧ a.toNat ≤ 0xDBFF := ha
  have hb' : 0xDC00 ≤ b.toNat ∧ b.toNat ≤ 0xDFFF := hb
  have hp : ¬ pairCodePoint a b < 0x10000 := by unfold pairCodePoint; omega
  refine ⟨by omega, ?_⟩
  rw [utf16, if_neg hp]
  have h1 : 0xD800 + (pairCodePoint a b - 0x10000) / 0x400 = a.toNat := by
    unfold pairCodePoint; omega
  have h2 : 0xDC00 + (pairCodePoint a b - 0x10000) % 0x400 = b.toNat := by
    unfold pairCodePoint; omega
  rw [h1, h2, UInt16.ofNat_toNat, UInt16.ofNat_toNat]

theorem utf16_unit (a : UInt16) : utf16 a.toNat = [a] := by
  have := a.toNat_lt
  rw [utf16, if_pos (by omega), UInt16.ofNat_toNat]

/-- Decoding to code points loses nothing. -/
theorem utf16_codePoints (s : JsString) : (codePoints s).flatMap utf16 = s := by
  induction s using codePoints.induct with
  | case1 => rfl
  | case2 a => simp [codePoints, utf16_unit]
  | case3 a b s hp ih =>
    rw [Bool.and_eq_true] at hp
    simp [codePoints, hp, ih, (pairCodePoint_bounds hp.1 hp.2).2]
  | case4 a b s hp ih =>
    simp [codePoints, hp, ih, utf16_unit]

theorem codePoints_injective : Function.Injective codePoints := fun s t h => by
  rw [← utf16_codePoints s, h, utf16_codePoints]

theorem codeUnitWidth_unit (a : UInt16) : codeUnitWidth a.toNat = 1 := by
  have := a.toNat_lt
  exact if_neg (by unfold bmpMaxCodePoint; omega)

theorem codePoints_unfold {s : JsString} (h : s ≠ []) : ∃ c, headCodePoint s = some c ∧
    codePoints s = c :: codePoints (s.drop (codeUnitWidth c)) := by
  match s with
  | [] => exact absurd rfl h
  | [a] => exact ⟨a.toNat, rfl, by simp [codePoints, codeUnitWidth_unit]⟩
  | a :: b :: s =>
    by_cases hp : (isHighSurrogate a && isLowSurrogate b) = true
    · refine ⟨pairCodePoint a b, by simp [headCodePoint, hp], ?_⟩
      rw [Bool.and_eq_true] at hp
      have hw : codeUnitWidth (pairCodePoint a b) = 2 := by
        have := (pairCodePoint_bounds hp.1 hp.2).1
        exact if_pos (by unfold bmpMaxCodePoint; omega)
      simp [codePoints, hp, hw]
    · refine ⟨a.toNat, by simp [headCodePoint, hp], ?_⟩
      simp [codePoints, hp, codeUnitWidth_unit]

theorem compareExhausted_eq {a b : JsString} (h : ¬ (i < a.length ∧ j < b.length)) :
    compareExhausted i a.length j b.length =
      lexCompare (codePoints (a.drop i)) (codePoints (b.drop j)) := by
  have hcons (s : JsString) (hs : s ≠ []) : ∃ c t, codePoints s = c :: t := by
    obtain ⟨c, -, hc⟩ := codePoints_unfold hs
    exact ⟨c, _, hc⟩
  by_cases hi : a.length ≤ i <;> by_cases hj : b.length ≤ j
  · simp [compareExhausted, hi, hj, List.drop_of_length_le, codePoints, lexCompare]
  · obtain ⟨c, t, hc⟩ := hcons (b.drop j) (by simpa using hj)
    simp [compareExhausted, hi, hj, List.drop_of_length_le, hc, codePoints, lexCompare]
  · obtain ⟨c, t, hc⟩ := hcons (a.drop i) (by simpa using hi)
    simp [compareExhausted, hi, hj, List.drop_of_length_le, hc, codePoints, lexCompare]
  · omega

theorem codeUnitWidth_pos (c : Nat) : 0 < codeUnitWidth c := by
  unfold codeUnitWidth; split <;> omega

theorem compareByCodepointLoop_eq (a b : JsString) (rounds i j : Nat)
    (h : a.length ≤ i + rounds) : compareByCodepointLoop a b rounds i j =
      lexCompare (codePoints (a.drop i)) (codePoints (b.drop j)) := by
  induction rounds generalizing i j with
  | zero => exact compareExhausted_eq (by omega)
  | succ rounds ih =>
    rw [compareByCodepointLoop]
    split
    · next hij =>
      obtain ⟨c, hc, hac⟩ := codePoints_unfold (s := a.drop i) (by simpa using hij.1)
      obtain ⟨d, hd, hbd⟩ := codePoints_unfold (s := b.drop j) (by simpa using hij.2)
      have hw := codeUnitWidth_pos c
      simp only [codePointAt, hc, hd, Option.getD_some, hac, hbd, lexCompare, List.drop_drop]
      by_cases ho : compareScalars c d = 0
      · simp [ho, ih _ _ (by omega : a.length ≤ i + codeUnitWidth c + rounds)]
      · simp [ho]
    · next hij => exact compareExhausted_eq hij

/-- The committed order is the lexicographic order of code points. -/
theorem compareByCodepoint_eq (a b : JsString) :
    compareByCodepoint a b = lexCompare (codePoints a) (codePoints b) := by
  rw [compareByCodepoint, compareByCodepointLoop_eq a b a.length 0 0 (by omega)]
  simp

theorem compareByCodepoint_strict : StrictComparator compareByCodepoint := by
  have he : compareByCodepoint = fun a b => lexCompare (codePoints a) (codePoints b) :=
    funext fun a => funext fun b => compareByCodepoint_eq a b
  rw [he]
  exact lexCompare_strict.comap codePoints_injective

end Musi.LintRatchet
