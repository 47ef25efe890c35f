import Mathlib.Data.List.Basic
import Mathlib.Data.List.DropRight
import Mathlib.Data.List.Infix

namespace Musi.Js
set_option autoImplicit true

/-- A JavaScript string is the sequence of its UTF-16 code units, lone surrogates included. -/
abbrev JsString := List UInt16

instance decidableMem (s : JsString) (strings : List JsString) : Decidable (s ∈ strings) :=
  decidable_of_iff (strings.any fun t => t = s) (by simp)

/-- UTF-16 encoding of a Unicode scalar value. -/
def utf16 (n : Nat) : JsString :=
  if n < 0x10000 then [UInt16.ofNat n]
  else [UInt16.ofNat (0xD800 + (n - 0x10000) / 0x400), UInt16.ofNat (0xDC00 + (n - 0x10000) % 0x400)]

/-- The JavaScript string that a literal of the source denotes. -/
def js (s : String) : JsString := s.toList.flatMap fun c => utf16 c.val.toNat

/-- The code unit of a character literal below U+10000. -/
def unit (c : Char) : UInt16 := UInt16.ofNat c.val.toNat

/-- String.prototype.startsWith at position zero. -/
def startsWith (s p : JsString) : Bool := p.isPrefixOf s

/-- String.prototype.endsWith at the end of the string. -/
def endsWith (s p : JsString) : Bool := p.isSuffixOf s

@[simp] theorem startsWith_iff : startsWith s p = true ↔ p <+: s := by
  simp [startsWith]

@[simp] theorem endsWith_iff : endsWith s p = true ↔ p <:+ s := by
  simp [endsWith]

/-- ECMAScript WhiteSpace and LineTerminator code units. -/
def isWhiteSpace (c : UInt16) : Bool :=
  c = 0x09 || c = 0x0A || c = 0x0B || c = 0x0C || c = 0x0D || c = 0x20 || c = 0xA0 ||
    c = 0x1680 || (0x2000 ≤ c && c ≤ 0x200A) || c = 0x2028 || c = 0x2029 || c = 0x202F ||
    c = 0x205F || c = 0x3000 || c = 0xFEFF

/-- String.prototype.trim. -/
def trim (s : JsString) : JsString := (s.dropWhile isWhiteSpace).rdropWhile isWhiteSpace

/-- Array.prototype.join. -/
def join (sep : JsString) : List JsString → JsString
  | [] => []
  | [s] => s
  | s :: t :: rest => s ++ sep ++ join sep (t :: rest)

/-- String.prototype.split on one code unit. -/
def splitOn (c : UInt16) : JsString → List JsString
  | [] => [[]]
  | a :: s =>
    if a = c then [] :: splitOn c s
    else match splitOn c s with
      | [] => [[a]]
      | part :: parts => (a :: part) :: parts

def isHighSurrogate (c : UInt16) : Bool := 0xD800 ≤ c && c ≤ 0xDBFF

def isLowSurrogate (c : UInt16) : Bool := 0xDC00 ≤ c && c ≤ 0xDFFF

def isDigit (c : UInt16) : Bool := 0x30 ≤ c && c ≤ 0x39

def isLowerAlpha (c : UInt16) : Bool := 0x61 ≤ c && c ≤ 0x7A

/-- The value of a string of decimal digits. -/
def digitsValue (s : JsString) : Nat := s.foldl (fun n c => 10 * n + (c.toNat - 0x30)) 0

/-- Lower-casing of an ASCII code unit. -/
def asciiLower (c : UInt16) : UInt16 := if 0x41 ≤ c && c ≤ 0x5A then c + 0x20 else c

theorem splitOn_ne_nil (c : UInt16) (s : JsString) : splitOn c s ≠ [] := by
  cases s with
  | nil => simp [splitOn]
  | cons a s =>
    simp only [splitOn]
    split
    · simp
    · split <;> simp

theorem splitOn_of_notMem (h : c ∉ s) : splitOn c s = [s] := by
  induction s with
  | nil => rfl
  | cons a s ih =>
    simp only [List.mem_cons, not_or] at h
    simp [splitOn, Ne.symm h.1, ih h.2]

theorem splitOn_append (hs : c ∉ s) : splitOn c (s ++ c :: t) = s :: splitOn c t := by
  induction s with
  | nil => simp [splitOn]
  | cons a s ih =>
    simp only [List.mem_cons, not_or] at hs
    simp [splitOn, Ne.symm hs.1, ih hs.2]

theorem isWhiteSpace_of_trim (h : trim s = []) : ∀ c ∈ s, isWhiteSpace c = true := by
  have h := List.rdropWhile_eq_nil_iff.1 h
  have hdrop : s.dropWhile isWhiteSpace = [] := by
    by_contra hne
    exact absurd (h _ (List.head_mem hne)) (by simpa using List.head_dropWhile_not isWhiteSpace hne)
  exact List.dropWhile_eq_nil_iff.1 hdrop

/-- A literal as its characters; evaluating one takes long. -/
theorem js_ofList (cs : List Char) :
    js (String.ofList cs) = cs.flatMap fun c => utf16 c.val.toNat := by
  rw [js, String.toList_ofList]

/-- String.prototype.replaceAll of a non-empty pattern; the number counts the code units that are
still part of a match. -/
def replaceAllFrom (pattern replacement : JsString) : Nat → JsString → JsString
  | _, [] => []
  | skipped + 1, _ :: s => replaceAllFrom pattern replacement skipped s
  | 0, c :: s =>
    if startsWith (c :: s) pattern then
      replacement ++ replaceAllFrom pattern replacement (pattern.length - 1) s
    else c :: replaceAllFrom pattern replacement 0 s

/-- String.prototype.indexOf, none where nothing is found. -/
def indexOf? (pattern : JsString) : JsString → Option Nat
  | [] => if pattern = [] then some 0 else none
  | c :: s => if startsWith (c :: s) pattern then some 0 else (indexOf? pattern s).map (· + 1)

/-- String.prototype.lastIndexOf, none where nothing is found. -/
def lastIndexOf? (pattern : JsString) : JsString → Option Nat
  | [] => if pattern = [] then some 0 else none
  | c :: s =>
    match lastIndexOf? pattern s with
    | some index => some (index + 1)
    | none => if startsWith (c :: s) pattern then some 0 else none

/-- Replacing one code unit. -/
theorem replaceAllFrom_unit (c : UInt16) (replacement s : JsString) :
    replaceAllFrom [c] replacement 0 s = s.flatMap fun d => if d = c then replacement else [d] := by
  induction s with
  | nil => rfl
  | cons d s ih =>
    have hstarts : startsWith (d :: s) [c] = true ↔ d = c := by
      rw [startsWith, List.isPrefixOf_iff_prefix, List.cons_prefix_cons,
        and_iff_left (List.nil_prefix), eq_comm]
    rw [replaceAllFrom, List.flatMap_cons, ← ih]
    by_cases hd : d = c
    · rw [if_pos (hstarts.2 hd), if_pos hd]
      rfl
    · rw [if_neg (fun h => hd (hstarts.1 h)), if_neg hd]
      rfl

end Musi.Js
