import Musi.Js.Text

namespace Musi.Bash
open Musi.Js
set_option autoImplicit true

/-! ## Words of a script

A word as quoting leaves it, for the words whose expansion neither runs a command nor splits. -/

inductive Piece where
  | lit (c : UInt16)
  | param (name : JsString)
  deriving DecidableEq

abbrev Word := List Piece

def lits (s : JsString) : Word := s.map .lit

theorem lits_append (s t : JsString) : lits (s ++ t) = lits s ++ lits t := List.map_append

def apostrophe : UInt16 := 0x27
def quotation : UInt16 := 0x22
def backslash : UInt16 := 0x5C
def backtick : UInt16 := 0x60
def dollar : UInt16 := 0x24
def newline : UInt16 := 0x0A
def space : UInt16 := 0x20
def openBrace : UInt16 := 0x7B
def closeBrace : UInt16 := 0x7D

def isNameStart (c : UInt16) : Bool := isLowerAlpha (asciiLower c) || c = unit '_'

def isNameUnit (c : UInt16) : Bool := isNameStart c || isDigit c

/-- The name of a shell variable. -/
def isName : JsString → Bool
  | [] => false
  | c :: s => isNameStart c && s.all isNameUnit

/-- What a word may hold without quotes. -/
def isPlain (c : UInt16) : Bool := isNameUnit c || c = unit '-' || c = unit '.' || c = unit '/'

/-- What ends a word. -/
def endsWord (c : UInt16) : Bool :=
  c = space || c = newline || c = unit ')' || c = unit ']'

inductive Mode where
  | plain
  | escape
  | single
  | double
  | doubleEscape
  | parameter
  | name (n : JsString)
  | brace (n : JsString)
  deriving DecidableEq

inductive Step where
  | more (mode : Mode) (word : Word)
  | stop
  | fail
  deriving DecidableEq

def doubleStep (w : Word) (c : UInt16) : Step :=
  if c = quotation then .more .plain w
  else if c = backslash then .more .doubleEscape w
  else if c = backtick then .fail
  else if c = dollar then .more .parameter w
  else .more .double (w ++ [.lit c])

/-- A backslash inside double quotes stands for itself before most characters. -/
def doubleEscapeStep (w : Word) (c : UInt16) : Step :=
  if c = newline then .more .double w
  else if c = dollar || c = backtick || c = quotation || c = backslash then
    .more .double (w ++ [.lit c])
  else .more .double (w ++ [.lit backslash, .lit c])

/-- Everything after a dollar sign but a plain reference is left out. -/
def step : Mode → Word → UInt16 → Step
  | .plain, w, c =>
    if c = apostrophe then .more .single w
    else if c = quotation then .more .double w
    else if c = backslash then .more .escape w
    else if isPlain c then .more .plain (w ++ [.lit c])
    else if endsWord c then .stop
    else .fail
  | .escape, w, c => if c = newline then .more .plain w else .more .plain (w ++ [.lit c])
  | .single, w, c => if c = apostrophe then .more .plain w else .more .single (w ++ [.lit c])
  | .double, w, c => doubleStep w c
  | .doubleEscape, w, c => doubleEscapeStep w c
  | .parameter, w, c =>
    if isNameStart c then .more (.name [c]) w
    else if c = openBrace then .more (.brace []) w
    else .fail
  | .name n, w, c => if isNameUnit c then .more (.name (n ++ [c])) w else doubleStep (w ++ [.param n]) c
  | .brace n, w, c =>
    if c = closeBrace then if isName n then .more .double (w ++ [.param n]) else .fail
    else if isNameUnit c then .more (.brace (n ++ [c])) w
    else .fail

/-- The word at the front of a text, and the text after it. -/
def scan : Mode → Word → JsString → Option (Word × JsString)
  | mode, w, [] => if mode = .plain then some (w, []) else none
  | mode, w, c :: s =>
    match step mode w c with
    | .more mode w => scan mode w s
    | .stop => some (w, c :: s)
    | .fail => none

theorem scan_more {mode mode' : Mode} {w w' : Word} {c : UInt16} (h : step mode w c = .more mode' w')
    (s : JsString) : scan mode w (c :: s) = scan mode' w' s := by
  rw [scan, h]

/-- A word ends where the text does, or before what ends a word. -/
def EndsWord (rest : JsString) : Prop := ∀ c ∈ rest.head?, endsWord c = true

theorem endsWord_step {c : UInt16} (h : endsWord c = true) (w : Word) : step .plain w c = .stop := by
  simp only [endsWord, Bool.or_eq_true, decide_eq_true_eq] at h
  rcases h with ((rfl | rfl) | rfl) | rfl
  · rfl
  · rfl
  · rfl
  · rfl

theorem scan_end {rest : JsString} (h : EndsWord rest) (w : Word) :
    scan .plain w rest = some (w, rest) := by
  cases rest with
  | nil => rfl
  | cons c rest => rw [scan, endsWord_step (h c rfl)]

theorem scan_plain {s : JsString} (h : s.all isPlain = true) {rest : JsString} (w : Word) :
    scan .plain w (s ++ rest) = scan .plain (w ++ lits s) rest := by
  induction s generalizing w with
  | nil => rw [lits, List.map_nil, List.append_nil]; rfl
  | cons c s ih =>
    rw [List.all_cons, Bool.and_eq_true] at h
    have hquote {d : UInt16} (hd : isPlain d = false) : c ≠ d := by
      rintro rfl
      rw [hd] at h
      exact Bool.false_ne_true h.1
    have hstep : step .plain w c = .more .plain (w ++ [.lit c]) := by
      rw [step, if_neg (hquote (by decide)), if_neg (hquote (by decide)),
        if_neg (hquote (by decide)), if_pos h.1]
    rw [List.cons_append, scan_more hstep, ih h.2, List.append_assoc]
    rfl

/-! ## Single quotes -/

def escapeApostrophe (c : UInt16) : JsString :=
  if c = apostrophe then [apostrophe, backslash, apostrophe, apostrophe] else [c]

/-- A text between single quotes, every single quote in it closed, escaped and opened again. -/
def singleQuoted (s : JsString) : JsString :=
  apostrophe :: (s.flatMap escapeApostrophe ++ [apostrophe])

theorem scan_singleQuoted (s : JsString) {rest : JsString} (w : Word) :
    scan .plain w (singleQuoted s ++ rest) = scan .plain (w ++ lits s) rest := by
  have hbody (s : JsString) (w : Word) :
      scan .single w (s.flatMap escapeApostrophe ++ apostrophe :: rest) =
        scan .plain (w ++ lits s) rest := by
    induction s generalizing w with
    | nil => rw [lits, List.map_nil, List.append_nil]; rfl
    | cons c s ih =>
      have hlits : w ++ lits (c :: s) = w ++ [.lit c] ++ lits s := by
        rw [List.append_assoc]
        rfl
      rw [List.flatMap_cons, List.append_assoc, hlits, ← ih]
      by_cases hc : c = apostrophe
      · subst hc
        rfl
      · have hstep : step .single w c = .more .single (w ++ [.lit c]) := by rw [step, if_neg hc]
        rw [escapeApostrophe, if_neg hc, List.singleton_append, scan_more hstep]
  have hopen : step .plain w apostrophe = .more .single w := rfl
  rw [singleQuoted, List.cons_append, List.append_assoc, List.singleton_append, scan_more hopen,
    hbody]

end Musi.Bash
