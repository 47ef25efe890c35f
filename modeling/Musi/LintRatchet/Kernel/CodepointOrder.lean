import Musi.LintRatchet.Kernel.CodepointCompare

namespace Musi.LintRatchet
open Musi.Js
set_option autoImplicit true

/-! ## Scalar values -/

/-- String.prototype.isWellFormed: no surrogate stands alone. -/
def isWellFormed : JsString → Bool
  | [] => true
  | [a] => !isHighSurrogate a && !isLowSurrogate a
  | a :: b :: s =>
    if isHighSurrogate a && isLowSurrogate b then isWellFormed s
    else !isHighSurrogate a && !isLowSurrogate a && isWellFormed (b :: s)

theorem isHighSurrogate_iff {a : UInt16} :
    isHighSurrogate a = true ↔ 0xD800 ≤ a.toNat ∧ a.toNat ≤ 0xDBFF := by
  rw [isHighSurrogate, Bool.and_eq_true, decide_eq_true_eq, decide_eq_true_eq,
    UInt16.le_iff_toNat_le, UInt16.le_iff_toNat_le]
  exact Iff.rfl

theorem isLowSurrogate_iff {a : UInt16} :
    isLowSurrogate a = true ↔ 0xDC00 ≤ a.toNat ∧ a.toNat ≤ 0xDFFF := by
  rw [isLowSurrogate, Bool.and_eq_true, decide_eq_true_eq, decide_eq_true_eq,
    UInt16.le_iff_toNat_le, UInt16.le_iff_toNat_le]
  exact Iff.rfl

theorem isValidChar_unit {a : UInt16} (hhigh : isHighSurrogate a = false)
    (hlow : isLowSurrogate a = false) : a.toNat.isValidChar := by
  have hlt := a.toNat_lt
  rw [← Bool.not_eq_true, isHighSurrogate_iff] at hhigh
  rw [← Bool.not_eq_true, isLowSurrogate_iff] at hlow
  unfold Nat.isValidChar
  omega

theorem isValidChar_pair {a b : UInt16} (ha : isHighSurrogate a = true)
    (hb : isLowSurrogate b = true) : (pairCodePoint a b).isValidChar := by
  rw [isHighSurrogate_iff] at ha
  rw [isLowSurrogate_iff] at hb
  unfold Nat.isValidChar pairCodePoint
  omega

/-- The code points of a well-formed string are scalar values. -/
theorem isValidChar_codePoints {s : JsString} (h : isWellFormed s = true) :
    ∀ c ∈ codePoints s, c.isValidChar := by
  induction s using codePoints.induct with
  | case1 => exact fun _ hc => (List.not_mem_nil hc).elim
  | case2 a =>
    rw [isWellFormed, Bool.and_eq_true, Bool.not_eq_true', Bool.not_eq_true'] at h
    rw [codePoints, List.forall_mem_singleton]
    exact isValidChar_unit h.1 h.2
  | case3 a b s hpair ih =>
    rw [isWellFormed, if_pos hpair] at h
    rw [codePoints, if_pos hpair, List.forall_mem_cons]
    rw [Bool.and_eq_true] at hpair
    exact ⟨isValidChar_pair hpair.1 hpair.2, ih h⟩
  | case4 a b s hpair ih =>
    rw [isWellFormed, if_neg hpair, Bool.and_eq_true, Bool.and_eq_true, Bool.not_eq_true',
      Bool.not_eq_true'] at h
    rw [codePoints, if_neg hpair, List.forall_mem_cons]
    exact ⟨isValidChar_unit h.1.1 h.1.2, ih h.2⟩

theorem codePoints_utf16 (c : Char) (s : JsString) :
    codePoints (utf16 c.val.toNat ++ s) = c.val.toNat :: codePoints s := by
  have hvalid : c.val.toNat < 0xD800 ∨ 0xDFFF < c.val.toNat ∧ c.val.toNat < 0x110000 := c.valid
  rw [utf16]
  split
  · next hlt =>
    have hnat : (UInt16.ofNat c.val.toNat).toNat = c.val.toNat :=
      UInt16.toNat_ofNat_of_lt' hlt
    have hhigh : isHighSurrogate (UInt16.ofNat c.val.toNat) = false := by
      rw [← Bool.not_eq_true, isHighSurrogate_iff, hnat]
      omega
    cases s with
    | nil => rw [List.append_nil, codePoints, codePoints, hnat]
    | cons d s =>
      rw [List.singleton_append, codePoints, hhigh, Bool.false_and, if_neg Bool.false_ne_true, hnat]
  · next hge =>
    have hfirst : (UInt16.ofNat (0xD800 + (c.val.toNat - 0x10000) / 0x400)).toNat =
        0xD800 + (c.val.toNat - 0x10000) / 0x400 := UInt16.toNat_ofNat_of_lt' (by
      change _ < 65536
      omega)
    have hsecond : (UInt16.ofNat (0xDC00 + (c.val.toNat - 0x10000) % 0x400)).toNat =
        0xDC00 + (c.val.toNat - 0x10000) % 0x400 := UInt16.toNat_ofNat_of_lt' (by
      change _ < 65536
      omega)
    have hhigh : isHighSurrogate (UInt16.ofNat (0xD800 + (c.val.toNat - 0x10000) / 0x400)) = true := by
      rw [isHighSurrogate_iff, hfirst]
      omega
    have hlow : isLowSurrogate (UInt16.ofNat (0xDC00 + (c.val.toNat - 0x10000) % 0x400)) = true := by
      rw [isLowSurrogate_iff, hsecond]
      omega
    have hpair : pairCodePoint (UInt16.ofNat (0xD800 + (c.val.toNat - 0x10000) / 0x400))
        (UInt16.ofNat (0xDC00 + (c.val.toNat - 0x10000) % 0x400)) = c.val.toNat := by
      rw [pairCodePoint, hfirst, hsecond]
      omega
    rw [List.cons_append, List.singleton_append, codePoints, hhigh, hlow, Bool.true_and, if_pos rfl,
      hpair]

/-- The code points of a text are its scalar values. -/
theorem codePoints_js (text : String) : codePoints (js text) = text.toList.map fun c => c.val.toNat := by
  have hlist (cs : List Char) :
      codePoints (cs.flatMap fun c => utf16 c.val.toNat) = cs.map fun c => c.val.toNat := by
    induction cs with
    | nil => rfl
    | cons c cs ih => rw [List.flatMap_cons, codePoints_utf16, ih, List.map_cons]
  exact hlist text.toList

theorem js_of_isWellFormed {s : JsString} (h : isWellFormed s = true) : ∃ text, js text = s := by
  refine ⟨String.ofList ((codePoints s).map Char.ofNat), ?_⟩
  have hchars : ((codePoints s).map Char.ofNat).flatMap (fun c => utf16 c.val.toNat) =
      (codePoints s).flatMap utf16 := by
    rw [List.flatMap_map]
    refine List.flatMap_congr fun c hc => ?_
    have hvalid := isValidChar_codePoints h c hc
    have hnat : (Char.ofNat c).val.toNat = c := by
      rw [Char.ofNat, dif_pos hvalid]
      rfl
    rw [hnat]
  rw [js_ofList, hchars, utf16_codePoints]

/-! ## The order -/

theorem lexCompare_neg_iff {s t : List Nat} : lexCompare s t < 0 ↔ s < t := by
  induction s generalizing t with
  | nil =>
    cases t with
    | nil => exact iff_of_false (by rw [lexCompare]; omega) (List.not_lt_nil _)
    | cons b t => exact iff_of_true (by rw [lexCompare]; omega) (List.nil_lt_cons b t)
  | cons a s ih =>
    cases t with
    | nil => exact iff_of_false (by rw [lexCompare]; omega) (List.not_lt_nil _)
    | cons b t =>
      rw [lexCompare, List.cons_lt_cons_iff]
      by_cases heq : compareScalars a b = 0
      · obtain rfl := compareScalars_zero.1 heq
        rw [if_pos heq, ih]
        exact ⟨fun h => .inr ⟨rfl, h⟩, fun h => (h.resolve_left (Nat.lt_irrefl a)).2⟩
      · have hne : a ≠ b := fun h => heq (compareScalars_zero.2 h)
        have hlt : compareScalars a b < 0 ↔ a < b := by
          rw [compareScalars]
          split
          · next h => exact iff_of_true (by omega) h
          · next h =>
            split
            · exact iff_of_false (by omega) h
            · exact iff_of_false (by omega) h
        rw [if_neg heq, hlt]
        exact ⟨.inl, fun h => h.resolve_right fun h => hne h.1⟩

theorem map_val_lt_iff {s t : List Char} :
    (s.map fun c => c.val.toNat) < (t.map fun c => c.val.toNat) ↔ s < t := by
  induction s generalizing t with
  | nil =>
    cases t with
    | nil => exact iff_of_false (List.not_lt_nil _) (List.not_lt_nil _)
    | cons b t => exact iff_of_true (List.nil_lt_cons _ _) (List.nil_lt_cons _ _)
  | cons a s ih =>
    cases t with
    | nil => exact iff_of_false (List.not_lt_nil _) (List.not_lt_nil _)
    | cons b t =>
      have hlt : a.val.toNat < b.val.toNat ↔ a < b := Iff.rfl
      have heq : a.val.toNat = b.val.toNat ↔ a = b := by
        rw [UInt32.toNat_inj]
        exact Char.ext_iff.symm
      rw [List.map_cons, List.map_cons, List.cons_lt_cons_iff, List.cons_lt_cons_iff, ih, hlt, heq]

/-- A total order of all strings, in which texts are ordered by their scalar values. -/
theorem compareByCodepoint_total :
    (∀ a b, compareByCodepoint a b = 0 ↔ a = b) ∧
    (∀ a b, (compareByCodepoint a b).sign = -(compareByCodepoint b a).sign) ∧
    (∀ a b c, compareByCodepoint a b < 0 → compareByCodepoint b c < 0 → compareByCodepoint a c < 0) ∧
    (∀ s, isWellFormed s = true → ∃ text, js text = s) ∧
    (∀ text other : String, compareByCodepoint (js text) (js other) < 0 ↔ text < other) := by
  refine ⟨fun a b => ?_, fun a b => ?_, fun a b c => ?_, fun s => js_of_isWellFormed,
    fun text other => ?_⟩
  · rw [compareByCodepoint_eq, lexCompare_zero]
    exact codePoints_injective.eq_iff
  · rw [compareByCodepoint_eq, compareByCodepoint_eq, lexCompare_neg (codePoints b) (codePoints a),
      Int.sign_neg]
  · exact compareByCodepoint_strict.trans_lt
  · rw [compareByCodepoint_eq, lexCompare_neg_iff, codePoints_js, codePoints_js, map_val_lt_iff]
    exact String.lt_iff.symm

/-- Code units alone would have these the other way round. -/
theorem compareByCodepoint_total_supplementary :
    compareByCodepoint (js "～") (js "😀") < 0 :=
  (compareByCodepoint_total.2.2.2.2 _ _).2 (String.lt_iff.2 (by decide))

end Musi.LintRatchet
