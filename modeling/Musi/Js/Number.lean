import Mathlib.Algebra.Group.Nat.Defs
import Musi.Js.Order
import Musi.Js.Text

namespace Musi.Js
set_option autoImplicit true

/-- A non-empty run of decimal digits. -/
def isDigits (s : JsString) : Bool := s ≠ [] && s.all isDigit

/-- The integer part of a JSON numeral: no superfluous leading zero. -/
def isIntegerPart (s : JsString) : Bool :=
  isDigits s && (s.head? ≠ some (unit '0') || s.length = 1)

/-- An optional exponent, its sign included. -/
def isExponentPart (s : JsString) : Bool :=
  match s with
  | [] => true
  | e :: s =>
    (e = unit 'e' || e = unit 'E') &&
      match s with
      | [] => false
      | c :: t => if c = unit '+' || c = unit '-' then isDigits t else isDigits (c :: t)

/-- An optional fraction followed by an optional exponent. -/
def isFractionPart (s : JsString) : Bool :=
  match s with
  | [] => true
  | c :: t =>
    if c = unit '.' then isDigits (t.takeWhile isDigit) && isExponentPart (t.dropWhile isDigit)
    else isExponentPart (c :: t)

/-- A JSON numeral. -/
def isNumeral (s : JsString) : Bool :=
  let t := if s.head? = some (unit '-') then s.tail else s
  isIntegerPart (t.takeWhile isDigit) && isFractionPart (t.dropWhile isDigit)

/-- The code units that a JSON numeral is written with. -/
def isNumberUnit (c : UInt16) : Bool :=
  isDigit c || c = unit '-' || c = unit '+' || c = unit '.' || c = unit 'e' || c = unit 'E'

/-- The number type of the language, but for NaN, which JSON does not write. Zero is one value
here: nothing the code does with a number tells the two zeros apart. -/
class JsNumber (N : Type) where
  /-- Strict equality. -/
  same : N → N → Bool
  /-- The relational operator `<`. -/
  less : N → N → Bool
  /-- The number nearest to an integer. -/
  ofInt : Int → N
  /-- The integer a number is, if it is one. -/
  toInt? : N → Option Int
  isFinite : N → Bool
  /-- Number::toString. -/
  toText : N → JsString
  /-- The number that a JSON numeral denotes. -/
  ofText : JsString → N
  same_iff : ∀ {m n}, same m n = true ↔ m = n
  less_irrefl : ∀ {n}, less n n = false
  less_trans : ∀ {k m n}, less k m = true → less m n = true → less k n = true
  less_total : ∀ m n, less m n = true ∨ m = n ∨ less n m = true
  less_ofInt : ∀ {j k : Int}, j.natAbs < 2 ^ 53 → less (ofInt j) (ofInt k) = decide (j < k)
  ofInt_toInt : ∀ {n k}, toInt? n = some k → ofInt k = n
  toInt_ofInt : ∀ {k : Int}, k.natAbs ≤ 2 ^ 53 → toInt? (ofInt k) = some k
  /-- No other integer rounds to a safe one. -/
  ofInt_safe : ∀ {k m : Int}, k.natAbs < 2 ^ 53 → ofInt m = ofInt k → m = k
  toText_numeral : ∀ {n}, isFinite n = true → isNumeral (toText n) = true
  ofText_toText : ∀ {n}, isFinite n = true → ofText (toText n) = n
  finite_of_toInt : ∀ {n k}, toInt? n = some k → isFinite n = true

instance [JsNumber N] : DecidableEq N := fun _ _ => decidable_of_iff _ JsNumber.same_iff

theorem isDigit_numberUnit (h : isDigit c = true) : isNumberUnit c = true := by
  simp [isNumberUnit, h]

theorem isDigits_numberUnits (h : isDigits s = true) : s.all isNumberUnit = true := by
  simp only [isDigits, Bool.and_eq_true, List.all_eq_true] at h ⊢
  exact fun c hc => isDigit_numberUnit (h.2 c hc)

theorem isExponentPart_numberUnits (h : isExponentPart s = true) : s.all isNumberUnit = true := by
  match s with
  | [] => rfl
  | [e] => simp [isExponentPart] at h
  | e :: c :: t =>
    simp only [isExponentPart, Bool.and_eq_true, Bool.or_eq_true, decide_eq_true_eq] at h
    have he : isNumberUnit e = true := by rcases h.1 with rfl | rfl <;> decide
    by_cases hc : c = unit '+' ∨ c = unit '-'
    · rw [if_pos hc] at h
      have hc' : isNumberUnit c = true := by rcases hc with rfl | rfl <;> decide
      simp only [List.all_cons, he, hc', isDigits_numberUnits h.2, Bool.and_self]
    · rw [if_neg hc] at h
      simp only [List.all_cons, he, Bool.true_and]
      simpa using isDigits_numberUnits h.2

theorem isFractionPart_numberUnits (h : isFractionPart s = true) : s.all isNumberUnit = true := by
  match s with
  | [] => rfl
  | c :: t =>
    simp only [isFractionPart] at h
    split at h
    · next hc =>
      subst hc
      rw [Bool.and_eq_true] at h
      rw [List.all_cons, ← List.takeWhile_append_dropWhile (p := isDigit) (l := t), List.all_append,
        isDigits_numberUnits h.1, isExponentPart_numberUnits h.2]
      rfl
    · exact isExponentPart_numberUnits h

theorem isNumeral_numberUnits (h : isNumeral s = true) :
    s ≠ [] ∧ s.all isNumberUnit = true := by
  have hbody (t : JsString) (ht : (isIntegerPart (t.takeWhile isDigit) &&
      isFractionPart (t.dropWhile isDigit)) = true) : t ≠ [] ∧ t.all isNumberUnit = true := by
    rw [Bool.and_eq_true, isIntegerPart, Bool.and_eq_true] at ht
    refine ⟨fun he => by simp [he, isDigits] at ht, ?_⟩
    rw [← List.takeWhile_append_dropWhile (p := isDigit) (l := t), List.all_append,
      isDigits_numberUnits ht.1.1, isFractionPart_numberUnits ht.2, Bool.and_self]
  match s with
  | [] => exact absurd (hbody [] h).1 (by simp)
  | c :: t =>
    refine ⟨by simp, ?_⟩
    by_cases hc : c = unit '-'
    · subst hc
      have ht := hbody t (by simpa [isNumeral] using h)
      rw [List.all_cons, ht.2]
      rfl
    · exact (hbody (c :: t) (by simpa [isNumeral, hc] using h)).2

def digitUnit (n : Nat) : UInt16 := UInt16.ofNat (0x30 + n)

/-- The decimal digits of a number, by at most as many divisions. -/
def digits : Nat → Nat → JsString
  | 0, _ => []
  | fuel + 1, n => if n < 10 then [digitUnit n] else digits fuel (n / 10) ++ [digitUnit (n % 10)]

def natText (n : Nat) : JsString := digits (n + 1) n

/-- String.prototype.padStart with zeros. -/
def padStart (length : Nat) (s : JsString) : JsString :=
  List.replicate (length - s.length) (unit '0') ++ s

def intText : Int → JsString
  | .ofNat n => natText n
  | .negSucc n => unit '-' :: natText (n + 1)

/-- The integer that a string of digits after an optional sign denotes. -/
def intValue (s : JsString) : Int :=
  if s.head? = some (unit '-') then -(digitsValue s.tail : Int) else digitsValue s

theorem digitUnit_toNat (h : n < 10) : (digitUnit n).toNat = 0x30 + n := by
  rw [digitUnit, UInt16.toNat_ofNat']
  omega

theorem isDigit_digitUnit (h : n < 10) : isDigit (digitUnit n) = true := by
  have hv := digitUnit_toNat h
  simp only [isDigit, Bool.and_eq_true, decide_eq_true_eq, UInt16.le_iff_toNat_le, hv]
  exact ⟨by simp, by simp; omega⟩

/-- Digits denote their number, are digits, and have no superfluous leading zero. -/
theorem digits_spec (h : n < fuel) : digitsValue (digits fuel n) = n ∧ digits fuel n ≠ [] ∧
    (digits fuel n).all isDigit = true ∧
      ((digits fuel n).head? = some (unit '0') → n = 0 ∧ (digits fuel n).length = 1) := by
  induction fuel generalizing n with
  | zero => omega
  | succ fuel ih =>
    rw [digits]
    split
    · next hn =>
      have hv := digitUnit_toNat hn
      refine ⟨by simp [digitsValue, hv], by simp, by simp [isDigit_digitUnit hn], fun h0 => ?_⟩
      simp only [List.head?_cons, Option.some.injEq] at h0
      rw [h0] at hv
      have h48 : (unit '0').toNat = 0x30 := rfl
      exact ⟨by omega, rfl⟩
    · next hn =>
      obtain ⟨h1, h2, h3, h4⟩ := ih (n := n / 10) (by omega)
      have hd : n % 10 < 10 := Nat.mod_lt _ (by omega)
      refine ⟨?_, by simp, by simp [h3, isDigit_digitUnit hd], fun h0 => ?_⟩
      · rw [digitsValue, List.foldl_append]
        change 10 * digitsValue (digits fuel (n / 10)) + ((digitUnit (n % 10)).toNat - 0x30) = n
        rw [h1, digitUnit_toNat hd]
        omega
      · rw [List.head?_append_of_ne_nil _ h2] at h0
        have := (h4 h0).1
        omega

theorem natText_spec (n : Nat) : digitsValue (natText n) = n ∧ natText n ≠ [] ∧
    (∀ c ∈ natText n, isDigit c = true) ∧
      ((natText n).head? = some (unit '0') → n = 0 ∧ (natText n).length = 1) := by
  obtain ⟨hvalue, hne, hdigit, hzero⟩ := digits_spec (Nat.lt_succ_self n)
  exact ⟨hvalue, hne, List.all_eq_true.1 hdigit, hzero⟩

theorem natText_injective {m n : Nat} (h : natText m = natText n) : m = n := by
  rw [← (natText_spec m).1, h, (natText_spec n).1]

theorem notMem_natText {c : UInt16} (hc : isDigit c = false) (n : Nat) : c ∉ natText n := by
  intro h
  have hdigit := (natText_spec n).2.2.1 c h
  rw [hc] at hdigit
  cases hdigit

theorem isNumeral_intText (k : Int) : isNumeral (intText k) = true := by
  have hnat (n : Nat) : isIntegerPart ((natText n).takeWhile isDigit) = true ∧
      (natText n).dropWhile isDigit = [] ∧ (natText n).head? ≠ some (unit '-') := by
    obtain ⟨-, h2, h3, h4⟩ := natText_spec n
    have h3' := List.all_eq_true.2 h3
    rw [List.takeWhile_eq_self_iff.2 h3, List.dropWhile_eq_nil_iff.2 h3, isIntegerPart, isDigits]
    refine ⟨?_, rfl, fun hs => ?_⟩
    · simp only [h2, h3', ne_eq, not_false_eq_true, decide_true, Bool.and_self, Bool.true_and]
      by_cases h0 : (natText n).head? = some (unit '0')
      · simp [(h4 h0).2]
      · simp [h0]
    · exact notMem_natText (by decide) n (List.mem_of_mem_head? hs)
  cases k with
  | ofNat n =>
    obtain ⟨h1, h2, h3⟩ := hnat n
    rw [isNumeral, intText, if_neg h3, h1, h2]
    rfl
  | negSucc n =>
    obtain ⟨h1, h2, -⟩ := hnat (n + 1)
    rw [isNumeral, intText]
    simp only [List.head?_cons, if_true, List.tail_cons, h1, h2]
    rfl

theorem intValue_intText (k : Int) : intValue (intText k) = k := by
  cases k with
  | ofNat n =>
    have h0 : (natText n).head? ≠ some (unit '-') := fun hs =>
      notMem_natText (by decide) n (List.mem_of_mem_head? hs)
    rw [intValue, intText, if_neg h0, (natText_spec n).1]
    rfl
  | negSucc n =>
    rw [intValue, intText, List.head?_cons, if_pos rfl, List.tail_cons, (natText_spec (n + 1)).1]
    rfl

/-- A number type that can be evaluated: integers without bound, and every other numeral as it is
written. -/
inductive Numeral where
  | int (k : Int)
  | other (text : JsString) (h : isNumeral text = true ∧ intText (intValue text) ≠ text)
  deriving DecidableEq

namespace Numeral

def text : Numeral → JsString
  | int k => intText k
  | other text _ => text

def ofText (s : JsString) : Numeral :=
  if hs : intText (intValue s) = s then int (intValue s)
  else if hn : isNumeral s = true then other s ⟨hn, hs⟩ else int 0

theorem ofText_text (n : Numeral) : ofText n.text = n := by
  cases n with
  | int k => simp [ofText, text, intValue_intText]
  | other s h => simp [ofText, text, h.1, h.2]

/-- Integers by value, before the other numerals by text. -/
def less : Numeral → Numeral → Bool
  | int j, int k => j < k
  | int _, other _ _ => true
  | other _ _, int _ => false
  | other s _, other t _ => stringLess s t

theorem less_irrefl (n : Numeral) : less n n = false := by
  cases n with
  | int k => simp [less]
  | other s _ => simp [less, stringLess, compareCodeUnits_strict.self]

theorem less_total (m n : Numeral) : less m n = true ∨ m = n ∨ less n m = true := by
  cases m with
  | int j =>
    cases n with
    | int k =>
      rcases lt_trichotomy j k with h | rfl | h
      · exact .inl (decide_eq_true h)
      · exact .inr (.inl rfl)
      · exact .inr (.inr (decide_eq_true h))
    | other t _ => exact .inl rfl
  | other s hs =>
    cases n with
    | int k => exact .inr (.inr rfl)
    | other t ht =>
      rcases stringLess_total s t with h | rfl | h
      · exact .inl h
      · exact .inr (.inl rfl)
      · exact .inr (.inr h)

theorem less_trans {k m n : Numeral} (hkm : less k m = true) (hmn : less m n = true) :
    less k n = true := by
  match k, m, n with
  | int _, int _, int _ =>
    simp only [less, decide_eq_true_eq] at hkm hmn ⊢
    exact hkm.trans hmn
  | int _, int _, other _ _ | int _, other _ _, other _ _ => rfl
  | int _, other _ _, int _ | other _ _, other _ _, int _ => cases hmn
  | other _ _, int _, _ => cases hkm
  | other _ _, other _ _, other _ _ => exact stringLess_trans hkm hmn

instance : JsNumber Numeral where
  same m n := decide (m = n)
  less := less
  ofInt := int
  toInt?
    | int k => some k
    | other _ _ => none
  isFinite _ := true
  toText := text
  ofText := ofText
  same_iff := decide_eq_true_iff
  less_irrefl := less_irrefl _
  less_trans := less_trans
  less_total := less_total
  less_ofInt _ := rfl
  ofInt_toInt {n k} h := by
    cases n with
    | int m => exact congrArg int (Option.some.inj h).symm
    | other s _ => cases h
  toInt_ofInt _ := rfl
  ofInt_safe _ h := int.inj h
  toText_numeral {n} _ := by
    cases n with
    | int k => exact isNumeral_intText k
    | other s h => exact h.1
  ofText_toText {n} _ := ofText_text n
  finite_of_toInt _ := rfl

end Numeral

end Musi.Js
