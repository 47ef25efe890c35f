import Mathlib.Algebra.Ring.Int.Defs
import Mathlib.Algebra.Ring.Nat
import Mathlib.Data.List.TakeWhile
import Mathlib.Data.Nat.Basic

namespace Musi.Shell
set_option autoImplicit true

/-- A shell string. -/
abbrev Text := List Char

/-- The text that a literal of a script denotes. -/
def sh (s : String) : Text := s.toList

/-! ## Numbers -/

/-- The complement of the pattern `'' | *[!0-9]*`. -/
def isDigits (s : Text) : Bool := s ≠ [] && s.all Char.isDigit

/-- An operand of an integer test; none where `[` reports an error. -/
def testNumber (s : Text) : Option Nat :=
  if isDigits s && Nat.ofDigitChars 10 s 0 < 2 ^ 63 then some (Nat.ofDigitChars 10 s 0) else none

/-- The value of digits in an arithmetic expansion, where a leading zero means octal; none where
the expansion fails. -/
def arithNumber (s : Text) : Option Nat :=
  if s.head? = some '0' then
    if s.all (· < '8') then some (Nat.ofDigitChars 8 s 0) else none
  else some (Nat.ofDigitChars 10 s 0)

/-- A number as printf writes it. -/
def decimal (n : Nat) : Text := Nat.toDigits 10 n

/-- A signed number as `date +%s` writes it. -/
def decimalInt : Int → Text
  | .ofNat n => decimal n
  | .negSucc n => '-' :: decimal (n + 1)

theorem isDigits_decimal (n : Nat) : isDigits (decimal n) = true := by
  simp only [isDigits, Bool.and_eq_true, decide_eq_true_eq, List.all_eq_true]
  exact ⟨Nat.toDigits_ne_nil, fun c hc => Nat.isDigit_of_mem_toDigits (by decide) (by decide) hc⟩

theorem ofDigitChars_decimal (n : Nat) : Nat.ofDigitChars 10 (decimal n) 0 = n :=
  Nat.ofDigitChars_toDigits (by decide) (by decide)

theorem testNumber_decimalInt (n : Int) :
    testNumber (decimalInt n) = if 0 ≤ n ∧ n < 2 ^ 63 then some n.toNat else none := by
  cases n with
  | ofNat n =>
    change testNumber (decimal n) = _
    rw [testNumber, isDigits_decimal, ofDigitChars_decimal]
    refine if_congr ?_ rfl rfl
    simp only [Bool.true_and, decide_eq_true_eq, Int.ofNat_eq_natCast]
    omega
  | negSucc n =>
    rw [if_neg (by omega)]
    rfl

/-- A positive number is written without a leading zero. -/
theorem head_decimal (h : 0 < n) : (decimal n).head? ≠ some '0' := by
  induction n using Nat.strongRecOn with
  | ind n ih =>
    rw [decimal, Nat.toDigits_eq_if (by decide)]
    split
    · next hlt =>
      intro h0
      have hc : Nat.digitChar n = '0' := by simpa using h0
      have hv := Nat.toNat_digitChar_sub_48_of_lt_ten hlt
      rw [hc] at hv
      simp only [Char.reduceToNat] at hv
      omega
    · next hge =>
      have hdiv := ih (n / 10) (by omega) (by omega)
      rw [decimal] at hdiv
      cases hd : Nat.toDigits 10 (n / 10) with
      | nil => exact absurd hd Nat.toDigits_ne_nil
      | cons c cs =>
        rw [hd] at hdiv
        exact hdiv

theorem arithNumber_decimal (h : 0 < n) : arithNumber (decimal n) = some n := by
  rw [arithNumber, if_neg (head_decimal h), ofDigitChars_decimal]

theorem arithNumber_decimalInt {n : Int} (h : 0 < n) : arithNumber (decimalInt n) = some n.toNat := by
  cases n with
  | ofNat n => exact arithNumber_decimal (Int.natCast_pos.1 h)
  | negSucc n => omega

/-! ## Reading lines -/

/-- What `read` returns of a text: the lines that a line feed ends, and what is left after the
last of them. -/
def readLines : Text → List Text × Text
  | [] => ([], [])
  | c :: s =>
    if c = '\n' then ([] :: (readLines s).1, (readLines s).2)
    else match readLines s with
      | ([], rest) => ([], c :: rest)
      | (line :: lines, rest) => ((c :: line) :: lines, rest)

/-- The last variable of a read takes the rest of the line, but not a separator that only ends
one last field. -/
def lastField (separator : Char) (rest : Text) : Text :=
  if rest.dropWhile (· ≠ separator) = [separator] then rest.dropLast else rest

/-- `IFS='=' read -r k v` on one line. -/
def splitAssignment (line : Text) : Text × Text :=
  (line.takeWhile (· ≠ '='), lastField '=' ((line.dropWhile (· ≠ '=')).drop 1))

theorem readLines_line {line : Text} (h : '\n' ∉ line) (s : Text) :
    readLines (line ++ '\n' :: s) = (line :: (readLines s).1, (readLines s).2) := by
  induction line with
  | nil => rw [List.nil_append, readLines, if_pos rfl]
  | cons c line ih =>
    rw [List.mem_cons, not_or] at h
    rw [List.cons_append, readLines, if_neg (Ne.symm h.1), ih h.2]

theorem dropWhile_ne_self {c : Char} {s : Text} (h : c ∉ s) : s.dropWhile (· ≠ c) = [] := by
  refine List.dropWhile_eq_nil_iff.2 fun d hd => ?_
  simp only [ne_eq, decide_not, Bool.not_eq_true', decide_eq_false_iff_not]
  exact fun he => h (he ▸ hd)

theorem splitAssignment_line (key : Text) {value : Text} (hk : '=' ∉ key) (hv : '=' ∉ value) :
    splitAssignment (key ++ '=' :: value) = (key, value) := by
  have hkey : ∀ c ∈ key, (decide (c ≠ '=')) = true := fun c hc =>
    decide_eq_true fun he => hk (he ▸ hc)
  rw [splitAssignment, List.takeWhile_append_of_pos hkey, List.dropWhile_append_of_pos hkey]
  have hdrop := dropWhile_ne_self hv
  simp only [ne_eq, List.takeWhile_cons, decide_not, decide_true, Bool.not_true, Bool.false_eq_true,
    if_false, List.append_nil, List.dropWhile_cons, List.drop_one, List.tail_cons, lastField] at hdrop ⊢
  rw [hdrop, if_neg (by simp)]

end Musi.Shell
