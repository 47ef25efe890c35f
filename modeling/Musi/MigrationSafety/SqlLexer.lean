import Musi.Js.Text

namespace Musi.MigrationSafety
open Musi.Js
set_option autoImplicit true

/-! ## The units that SQL is told apart by -/

def newline : UInt16 := 0x0A
def blank : UInt16 := 0x20
def singleQuote : UInt16 := 0x27
def doubleQuote : UInt16 := 0x22

/-- The space class of the rules, which no-break spaces are not in. -/
def isSqlSpace (c : UInt16) : Bool :=
  c = 0x20 || (0x09 ≤ c && c ≤ 0x0D) || c = 0x1680 || (0x2000 ≤ c && c ≤ 0x2006) ||
    (0x2008 ≤ c && c ≤ 0x200A) || c = 0x2028 || c = 0x2029 || c = 0x205F || c = 0x3000

def asciiUpper (c : UInt16) : UInt16 := if 0x61 ≤ c && c ≤ 0x7A then c - 0x20 else c

def asciiUpperCase (value : JsString) : JsString := value.map asciiUpper

def trimSpace (value : JsString) : JsString := (value.dropWhile isSqlSpace).rdropWhile isSqlSpace

/-- The records of a text: one per line, and none for what follows a final newline. -/
def toRecords (text : JsString) : List JsString :=
  if text = [] then []
  else
    let records := splitOn newline text
    if records.getLast? = some [] then records.dropLast else records

/-- The record without the carriage return it may end with. -/
def dropCarriageReturn (record : JsString) : JsString :=
  if record.getLast? = some 0x0D then record.dropLast else record

/-! ## Masking -/

/-- The mask of a quoted span after its opening quote, and what follows the span. -/
def maskQuotedSpan (quote : UInt16) : JsString → JsString × JsString
  | [] => ([], [])
  | [_] => ([blank], [])
  | c :: next :: rest =>
    if c ≠ quote then
      let span := maskQuotedSpan quote (next :: rest)
      (blank :: span.1, span.2)
    else if next = quote then
      let span := maskQuotedSpan quote rest
      (blank :: blank :: span.1, span.2)
    else ([blank], next :: rest)

/-- `out += masked` -/
def putOut (masked : JsString) (tail : JsString × Bool) : JsString × Bool := (masked ++ tail.1, tail.2)

/-- The loop of sanitizeSqlLine: what it puts out, and whether a block comment is open. -/
def sanitizeFrom : Nat → JsString → Bool → JsString × Bool
  | 0, _, inBlockComment => ([], inBlockComment)
  | _, [], inBlockComment => ([], inBlockComment)
  | fuel + 1, character :: rest, inBlockComment =>
    if inBlockComment then
      if character = unit '*' ∧ rest.head? = some (unit '/') then
        putOut [blank, blank] (sanitizeFrom fuel rest.tail false)
      else putOut [blank] (sanitizeFrom fuel rest true)
    else if character = unit '/' ∧ rest.head? = some (unit '*') then
      putOut [blank, blank] (sanitizeFrom fuel rest.tail true)
    else if character = unit '-' ∧ rest.head? = some (unit '-') then ([], false)
    else if character = singleQuote ∨ character = doubleQuote then
      putOut (blank :: (maskQuotedSpan character rest).1)
        (sanitizeFrom fuel (maskQuotedSpan character rest).2 false)
    else putOut [character] (sanitizeFrom fuel rest false)

def sanitizeSqlLine (source : JsString) (inBlockComment : Bool) : JsString × Bool :=
  sanitizeFrom source.length source inBlockComment

/-! ## Rules -/

inductive MigrationRule where
  | dropTable
  | dropColumn
  | alterColumnType
  | addColumnNotNull
  deriving DecidableEq

/-- `([…]|$)` -/
def endsAt (p : UInt16 → Bool) : JsString → Bool
  | [] => true
  | c :: _ => p c

/-- What follows a word at the start of a text. -/
def afterWord (word text : JsString) : Option JsString :=
  if startsWith text word then some (text.drop word.length) else none

/-- What follows a run of spaces and then a word. -/
def afterSpacedWord (word text : JsString) : Option JsString :=
  match text with
  | [] => none
  | c :: text => if isSqlSpace c then afterWord word (text.dropWhile isSqlSpace) else none

/-- A pattern at some place of a text, given the unit before it. -/
def searchFrom (p : Option UInt16 → JsString → Bool) : Option UInt16 → JsString → Bool
  | before, [] => p before []
  | before, c :: text => p before (c :: text) || searchFrom p (some c) text

/-- `WORD<space>+WORD([…]|$)` -/
def wordsAt (p : UInt16 → Bool) (first second text : JsString) : Bool :=
  (((afterWord first text).bind (afterSpacedWord second)).map (endsAt p)).getD false

/-- `(^|[<space>;])DROP<space>+TABLE(<space>|$)` -/
def dropTablePattern : JsString → Bool :=
  searchFrom (fun before text => before.all (fun c => isSqlSpace c || c = unit ';') &&
    wordsAt isSqlSpace (js "DROP") (js "TABLE") text) none

/-- `DROP<space>+COLUMN(<space>|$)` -/
def dropColumnPattern : JsString → Bool :=
  searchFrom (fun _ text => wordsAt isSqlSpace (js "DROP") (js "COLUMN") text) none

/-- `[^,;]*<space>TYPE(<space>|$)` -/
def typeFollows : JsString → Bool
  | [] => false
  | c :: text =>
    isSqlSpace c && ((afterWord (js "TYPE") text).map (endsAt isSqlSpace)).getD false ||
      (c ≠ unit ',' && c ≠ unit ';' && typeFollows text)

/-- `ALTER<space>+COLUMN<space>[^,;]*<space>TYPE(<space>|$)` -/
def alterColumnTypePattern : JsString → Bool :=
  searchFrom (fun _ text =>
    match (afterWord (js "ALTER") text).bind (afterSpacedWord (js "COLUMN")) with
    | some (c :: rest) => isSqlSpace c && typeFollows rest
    | _ => false) none

/-- `ADD<space>+COLUMN(<space>|$)` -/
def addColumnPattern : JsString → Bool :=
  searchFrom (fun _ text => wordsAt isSqlSpace (js "ADD") (js "COLUMN") text) none

/-- `NOT<space>+NULL([<space>,;]|$)` -/
def notNullPattern : JsString → Bool :=
  searchFrom (fun _ text => wordsAt (fun c => isSqlSpace c || c = unit ',' || c = unit ';')
    (js "NOT") (js "NULL") text) none

/-- `DEFAULT(<space>|$)` -/
def defaultClausePattern : JsString → Bool :=
  searchFrom (fun _ text => ((afterWord (js "DEFAULT") text).map (endsAt isSqlSpace)).getD false) none

def matchedRules (upper : JsString) : List MigrationRule :=
  (if dropTablePattern upper then [.dropTable] else []) ++
    (if dropColumnPattern upper then [.dropColumn] else []) ++
    (if alterColumnTypePattern upper then [.alterColumnType] else []) ++
    (if addColumnPattern upper && notNullPattern upper && !defaultClausePattern upper then
      [.addColumnNotNull] else [])

/-! ## Scanning -/

structure SqlRuleMatch where
  line : Nat
  rule : MigrationRule
  snippet : JsString
  deriving DecidableEq

def scanRecords : Nat → Bool → List JsString → List SqlRuleMatch
  | _, _, [] => []
  | index, inBlockComment, record :: records =>
    let raw := dropCarriageReturn record
    let sanitized := sanitizeSqlLine raw inBlockComment
    (matchedRules (asciiUpperCase sanitized.1)).map (fun rule => ⟨index + 1, rule, trimSpace raw⟩) ++
      scanRecords (index + 1) sanitized.2 records

def scanSqlText (text : JsString) : List SqlRuleMatch := scanRecords 0 false (toRecords text)

section

/-! ## A lexer of whole files -/

/-- Where the lexer is: in code, in a comment up to the end of its line, in a block comment, in a
quoted span, or at the second unit of a delimiter after which it is elsewhere. -/
inductive SqlMode where
  | code
  | lineComment
  | blockComment
  | quoted (quote : UInt16)
  | second (after : SqlMode)

/-- A unit blanked when it is in a comment or a quoted span, which no line ends in. -/
def SqlMode.step (mode : SqlMode) (c : UInt16) (next : Option UInt16) : Option (UInt16 × SqlMode) :=
  match mode with
  | code =>
    if c = unit '/' ∧ next = some (unit '*') then some (blank, second blockComment)
    else if c = unit '-' ∧ next = some (unit '-') then some (blank, second lineComment)
    else if c = singleQuote ∨ c = doubleQuote then some (blank, quoted c)
    else some (c, code)
  | lineComment => if c = newline then some (newline, code) else some (blank, lineComment)
  | blockComment =>
    if c = unit '*' ∧ next = some (unit '/') then some (blank, second code)
    else if c = newline then some (newline, blockComment)
    else some (blank, blockComment)
  | quoted quote =>
    if c = newline then none
    else if c = quote then
      if next = some quote then some (blank, second (quoted quote)) else some (blank, code)
    else some (blank, quoted quote)
  | second after => some (blank, after)

/-- The text with its comments and quoted spans blanked, if no quoted span crosses a line. -/
def SqlMode.blanked (mode : SqlMode) : JsString → Option JsString
  | [] => some []
  | c :: text => (mode.step c text.head?).bind fun next => (next.2.blanked text).map (next.1 :: ·)

def blankSql (text : JsString) : Option JsString := SqlMode.code.blanked text

theorem SqlMode.blanked_cons {mode mode' : SqlMode} {c d : UInt16} {text : JsString}
    (h : mode.step c text.head? = some (d, mode')) :
    mode.blanked (c :: text) = (mode'.blanked text).map (d :: ·) := by
  rw [blanked, h]
  rfl

/-- Every unit is kept at its place or blanked there. -/
theorem SqlMode.blanked_aligned {mode : SqlMode} {text blankedText : JsString}
    (h : mode.blanked text = some blankedText) :
    List.Forall₂ (fun c d => d = c ∨ d = blank) text blankedText := by
  induction text generalizing mode blankedText with
  | nil =>
    cases h
    exact .nil
  | cons c text ih =>
    rw [blanked] at h
    obtain ⟨⟨d, mode'⟩, hstep, hrest⟩ := Option.bind_eq_some_iff.1 h
    dsimp only at hrest
    obtain ⟨rest, htail, rfl⟩ := Option.map_eq_some_iff.1 hrest
    refine .cons ?_ (ih htail)
    cases mode with
    | code =>
      simp only [step] at hstep
      split at hstep
      · cases hstep
        exact .inr rfl
      · split at hstep
        · cases hstep
          exact .inr rfl
        · split at hstep
          · cases hstep
            exact .inr rfl
          · cases hstep
            exact .inl rfl
    | lineComment =>
      simp only [step] at hstep
      split at hstep
      · next hc =>
        cases hstep
        exact .inl hc.symm
      · cases hstep
        exact .inr rfl
    | blockComment =>
      simp only [step] at hstep
      split at hstep
      · cases hstep
        exact .inr rfl
      · split at hstep
        · next hc =>
          cases hstep
          exact .inl hc.symm
        · cases hstep
          exact .inr rfl
    | quoted quote =>
      simp only [step] at hstep
      split at hstep
      · cases hstep
      · split at hstep
        · split at hstep
          · cases hstep
            exact .inr rfl
          · cases hstep
            exact .inr rfl
        · cases hstep
          exact .inr rfl
    | second after =>
      cases hstep
      exact .inr rfl

/-! ## A line -/

/-- The mode of a scanner that only knows whether a block comment is open. -/
def openMode (inBlockComment : Bool) : SqlMode := if inBlockComment then .blockComment else .code

/-- The mode at the end of a line that the next line is scanned without. -/
def EndsLine (inBlockComment : Bool) : SqlMode → Prop
  | .blockComment => inBlockComment = true
  | .quoted quote => inBlockComment = false ∧ (quote = singleQuote ∨ quote = doubleQuote)
  | .second _ => False
  | _ => inBlockComment = false

/-- No delimiter goes on with the unit. -/
def NoDelimiter (c : UInt16) : Prop :=
  c ≠ unit '*' ∧ c ≠ unit '/' ∧ c ≠ unit '-' ∧ c ≠ singleQuote ∧ c ≠ doubleQuote

/-- What a scanner puts out for a line is what the lexer does, up to blanks at its end. -/
def ScansLine (line rest out blankedText : JsString) (inBlockComment : Bool) : Prop :=
  ∃ blanks mode after, blankedText = out ++ blanks ++ after ∧ (∀ c ∈ blanks, c = blank) ∧
    (out ++ blanks).length = line.length ∧ mode.blanked rest = some after ∧
    EndsLine inBlockComment mode

theorem head?_append_eq {line rest : JsString} {c : UInt16} (h : ∀ d ∈ rest.head?, d ≠ c) :
    (line ++ rest).head? = some c ↔ line.head? = some c := by
  cases line with
  | nil => exact iff_of_false (fun hc => h c hc rfl) (by simp)
  | cons d line => exact Iff.rfl

variable {line rest blankedText : JsString} {c quote : UInt16}

theorem ScansLine.cons {line rest out after : JsString} {inBlockComment : Bool} {d : UInt16}
    (h : ScansLine line rest out after inBlockComment) :
    ScansLine (c :: line) rest (d :: out) (d :: after) inBlockComment := by
  obtain ⟨blanks, mode, tail, rfl, hblanks, hlength, htail, hends⟩ := h
  exact ⟨blanks, mode, tail, rfl, hblanks, congrArg Nat.succ hlength, htail, hends⟩

/-- The unit of a line at a step of the lexer. -/
theorem SqlMode.blanked_step {mode mode' : SqlMode} {d : UInt16}
    (hstep : mode.step c (line ++ rest).head? = some (d, mode'))
    (h : mode.blanked (c :: line ++ rest) = some blankedText) :
    ∃ after, blankedText = d :: after ∧ mode'.blanked (line ++ rest) = some after := by
  rw [List.cons_append, SqlMode.blanked_cons hstep] at h
  obtain ⟨after, hafter, rfl⟩ := Option.map_eq_some_iff.1 h
  exact ⟨after, rfl, hafter⟩

theorem SqlMode.blanked_second {mode mode' : SqlMode} {d : UInt16}
    (hstep : mode.step c (d :: line ++ rest).head? = some (blank, .second mode'))
    (h : mode.blanked (c :: d :: line ++ rest) = some blankedText) :
    ∃ after, blankedText = blank :: blank :: after ∧ mode'.blanked (line ++ rest) = some after := by
  obtain ⟨after, rfl, hafter⟩ := SqlMode.blanked_step hstep h
  obtain ⟨tail, rfl, htail⟩ := SqlMode.blanked_step rfl hafter
  exact ⟨tail, rfl, htail⟩

theorem SqlMode.step_quoted (quote : UInt16) (next : Option UInt16) (hc : c ≠ newline) :
    (SqlMode.quoted quote).step c next = some (blank,
      if c ≠ quote then .quoted quote else if next = some quote then .second (.quoted quote)
      else .code) := by
  rw [SqlMode.step, if_neg hc]
  by_cases hquote : c = quote
  · rw [if_pos hquote, if_neg (not_not.2 hquote)]
    split
    · rfl
    · rfl
  · rw [if_neg hquote, if_pos hquote]

/-- What follows the mask of a quoted span is in code, unless the span goes on. -/
theorem maskQuotedSpan_blanked (quote : UInt16) (line : JsString)
    (hquote : quote = singleQuote ∨ quote = doubleQuote) (hline : newline ∉ line)
    (hrest : ∀ d ∈ rest.head?, NoDelimiter d)
    (h : (SqlMode.quoted quote).blanked (line ++ rest) = some blankedText) :
    ∃ (mode : SqlMode) (after : JsString), blankedText = (maskQuotedSpan quote line).1 ++ after ∧
      mode.blanked ((maskQuotedSpan quote line).2 ++ rest) = some after ∧
      (maskQuotedSpan quote line).1.length + (maskQuotedSpan quote line).2.length = line.length ∧
      (mode = .code ∨ (maskQuotedSpan quote line).2 = [] ∧ mode = .quoted quote) ∧
      newline ∉ (maskQuotedSpan quote line).2 := by
  have hnotQuote : rest.head? ≠ some quote := by
    intro hd
    rcases hquote with rfl | rfl
    · exact (hrest _ hd).2.2.2.1 rfl
    · exact (hrest _ hd).2.2.2.2 rfl
  induction line using maskQuotedSpan.induct quote generalizing blankedText with
  | case1 => exact ⟨.quoted quote, blankedText, rfl, h, rfl, .inr ⟨rfl, rfl⟩, by simp [maskQuotedSpan]⟩
  | case2 c =>
    have hstep := SqlMode.step_quoted quote ([] ++ rest).head?
      fun (hc : c = newline) => hline (hc ▸ List.mem_cons_self)
    obtain ⟨after, rfl, hafter⟩ := SqlMode.blanked_step hstep h
    refine ⟨_, after, rfl, hafter, rfl, ?_, by simp [maskQuotedSpan]⟩
    by_cases hc : c = quote
    · exact .inl (by simp [hc, hnotQuote])
    · exact .inr ⟨rfl, by simp [hc]⟩
  | case3 c next line hc ih =>
    have hstep := SqlMode.step_quoted quote (next :: line ++ rest).head?
      fun (hc : c = newline) => hline (hc ▸ List.mem_cons_self)
    rw [if_pos hc] at hstep
    obtain ⟨after, rfl, hafter⟩ := SqlMode.blanked_step hstep h
    obtain ⟨mode, tail, rfl, htail, hlength, hmode, hnewline⟩ :=
      ih (fun hm => hline (List.mem_cons_of_mem _ hm)) hafter
    rw [maskQuotedSpan, if_pos hc]
    refine ⟨mode, tail, rfl, htail, ?_, hmode, hnewline⟩
    simp only [List.length_cons] at hlength ⊢
    omega
  | case4 c line hc ih =>
    have hstep : (SqlMode.quoted quote).step c (quote :: line ++ rest).head? =
        some (blank, .second (.quoted quote)) := by
      rw [SqlMode.step_quoted quote _ fun (hc : c = newline) => hline (hc ▸ List.mem_cons_self),
        if_neg hc]
      simp
    obtain ⟨after, rfl, hafter⟩ := SqlMode.blanked_second hstep h
    obtain ⟨mode, tail, rfl, htail, hlength, hmode, hnewline⟩ :=
      ih (fun hm => hline (List.mem_cons_of_mem _ (List.mem_cons_of_mem _ hm))) hafter
    rw [maskQuotedSpan, if_neg hc, if_pos rfl]
    refine ⟨mode, tail, rfl, htail, ?_, hmode, hnewline⟩
    simp only [List.length_cons] at hlength ⊢
    omega
  | case5 c next line hc hnext =>
    have hstep := SqlMode.step_quoted quote (next :: line ++ rest).head?
      fun (hc : c = newline) => hline (hc ▸ List.mem_cons_self)
    have hhead : (next :: line ++ rest).head? ≠ some quote := fun h => hnext (Option.some.inj h)
    rw [if_neg hc, if_neg hhead] at hstep
    obtain ⟨after, rfl, hafter⟩ := SqlMode.blanked_step hstep h
    rw [maskQuotedSpan, if_neg hc, if_neg hnext]
    refine ⟨.code, after, rfl, hafter, ?_, .inl rfl, fun hm => hline (List.mem_cons_of_mem _ hm)⟩
    simp only [List.length_cons, List.length_nil]
    omega

/-- Blanks stand for a line comment up to the end of its line. -/
theorem lineComment_blanked (line : JsString) (hline : newline ∉ line)
    (h : SqlMode.lineComment.blanked (line ++ rest) = some blankedText) :
    ∃ after, blankedText = List.replicate line.length blank ++ after ∧
      SqlMode.lineComment.blanked rest = some after := by
  induction line generalizing blankedText with
  | nil => exact ⟨blankedText, rfl, h⟩
  | cons c line ih =>
    rw [List.mem_cons, not_or] at hline
    have hstep : SqlMode.lineComment.step c (line ++ rest).head? = some (blank, .lineComment) :=
      if_neg (Ne.symm hline.1)
    obtain ⟨after, rfl, hafter⟩ := SqlMode.blanked_step hstep h
    obtain ⟨tail, rfl, htail⟩ := ih hline.2 hafter
    exact ⟨tail, rfl, htail⟩

theorem sanitizeFrom_nil (fuel : Nat) (inBlockComment : Bool) :
    sanitizeFrom fuel [] inBlockComment = ([], inBlockComment) := by
  cases fuel with
  | zero => rfl
  | succ fuel => rfl

theorem ScansLine.append {line line' rest masked out after : JsString} {inBlockComment : Bool}
    (h : ScansLine line' rest out after inBlockComment)
    (hlength : masked.length + line'.length = line.length) :
    ScansLine line rest (masked ++ out) (masked ++ after) inBlockComment := by
  obtain ⟨blanks, mode, tail, rfl, hblanks, hline, htail, hends⟩ := h
  refine ⟨blanks, mode, tail, by simp only [List.append_assoc], hblanks, ?_, htail, hends⟩
  rw [List.append_assoc, List.length_append, hline, hlength]

/-- The scanner of a line and the lexer agree on it, wherever the line starts. -/
theorem sanitizeFrom_scans (fuel : Nat) (line : JsString) (inBlockComment : Bool)
    (hfuel : line.length ≤ fuel) (hline : newline ∉ line) (hrest : ∀ d ∈ rest.head?, NoDelimiter d)
    (h : (openMode inBlockComment).blanked (line ++ rest) = some blankedText) :
    ScansLine line rest (sanitizeFrom fuel line inBlockComment).1 blankedText
      (sanitizeFrom fuel line inBlockComment).2 := by
  induction fuel using Nat.strong_induction_on generalizing line inBlockComment blankedText with
  | _ fuel ih =>
  cases line with
  | nil =>
    rw [sanitizeFrom_nil]
    refine ⟨[], openMode inBlockComment, blankedText, rfl, by simp, rfl, h, ?_⟩
    cases inBlockComment with
    | false => rfl
    | true => rfl
  | cons c line =>
    obtain ⟨fuel, rfl⟩ : ∃ n, fuel = n + 1 := ⟨fuel - 1, by rw [List.length_cons] at hfuel; omega⟩
    have hfuel : line.length ≤ fuel := Nat.le_of_succ_le_succ hfuel
    obtain ⟨hc, hline⟩ := List.ne_and_not_mem_of_not_mem_cons hline
    have hhead (d : UInt16) (hd : d = unit '*' ∨ d = unit '/' ∨ d = unit '-') :
        (line ++ rest).head? = some d ↔ line.head? = some d := by
      refine head?_append_eq fun e he => ?_
      obtain ⟨hstar, hslash, hdash, -, -⟩ := hrest e he
      rcases hd with rfl | rfl | rfl
      · exact hstar
      · exact hslash
      · exact hdash
    rw [sanitizeFrom]
    cases inBlockComment with
    | true =>
      rw [if_pos rfl]
      by_cases hclose : c = unit '*' ∧ line.head? = some (unit '/')
      · rw [if_pos hclose]
        obtain ⟨line, rfl⟩ := List.head?_eq_some_iff.1 hclose.2
        have hstep : SqlMode.blockComment.step c (unit '/' :: line ++ rest).head? =
            some (blank, .second .code) := if_pos ⟨hclose.1, rfl⟩
        obtain ⟨after, rfl, hafter⟩ := SqlMode.blanked_second hstep h
        exact (ih fuel (Nat.lt_succ_self _) line false ((Nat.le_succ _).trans hfuel)
          (fun hm => hline (List.mem_cons_of_mem _ hm)) hafter).cons.cons
      · rw [if_neg hclose]
        have hstep : SqlMode.blockComment.step c (line ++ rest).head? =
            some (blank, .blockComment) := by
          rw [SqlMode.step, if_neg (by rwa [hhead _ (.inr (.inl rfl))]), if_neg hc.symm]
        obtain ⟨after, rfl, hafter⟩ := SqlMode.blanked_step hstep h
        exact (ih fuel (Nat.lt_succ_self _) line true hfuel hline hafter).cons
    | false =>
      rw [if_neg Bool.false_ne_true]
      by_cases hopen : c = unit '/' ∧ line.head? = some (unit '*')
      · rw [if_pos hopen]
        obtain ⟨line, rfl⟩ := List.head?_eq_some_iff.1 hopen.2
        have hstep : SqlMode.code.step c (unit '*' :: line ++ rest).head? =
            some (blank, .second .blockComment) := if_pos ⟨hopen.1, rfl⟩
        obtain ⟨after, rfl, hafter⟩ := SqlMode.blanked_second hstep h
        exact (ih fuel (Nat.lt_succ_self _) line true ((Nat.le_succ _).trans hfuel)
          (fun hm => hline (List.mem_cons_of_mem _ hm)) hafter).cons.cons
      · have hopen' : ¬ (c = unit '/' ∧ (line ++ rest).head? = some (unit '*')) := by
          rwa [hhead _ (.inl rfl)]
        rw [if_neg hopen]
        by_cases hdash : c = unit '-' ∧ line.head? = some (unit '-')
        · rw [if_pos hdash]
          obtain ⟨line, rfl⟩ := List.head?_eq_some_iff.1 hdash.2
          have hstep : SqlMode.code.step c (unit '-' :: line ++ rest).head? =
              some (blank, .second .lineComment) := by
            rw [SqlMode.step, if_neg hopen', if_pos ⟨hdash.1, rfl⟩]
          obtain ⟨after, rfl, hafter⟩ := SqlMode.blanked_second hstep h
          obtain ⟨tail, rfl, htail⟩ := lineComment_blanked line
            (fun hm => hline (List.mem_cons_of_mem _ hm)) hafter
          refine ⟨blank :: blank :: List.replicate line.length blank, .lineComment, tail, rfl, ?_, ?_,
            htail, rfl⟩
          · simp
          · simp
        · rw [if_neg hdash]
          have hdash' : ¬ (c = unit '-' ∧ (line ++ rest).head? = some (unit '-')) := by
            rwa [hhead _ (.inr (.inr rfl))]
          by_cases hquote : c = singleQuote ∨ c = doubleQuote
          · rw [if_pos hquote]
            have hstep : SqlMode.code.step c (line ++ rest).head? = some (blank, .quoted c) := by
              rw [SqlMode.step, if_neg hopen', if_neg hdash', if_pos hquote]
            obtain ⟨after, rfl, hafter⟩ := SqlMode.blanked_step hstep h
            obtain ⟨mode, tail, rfl, htail, hlength, hmode, hnewline⟩ :=
              maskQuotedSpan_blanked c line hquote hline hrest hafter
            have hmasked : (blank :: (maskQuotedSpan c line).1).length +
                (maskQuotedSpan c line).2.length = (c :: line).length := by
              simp only [List.length_cons]
              omega
            rcases hmode with rfl | ⟨hnil, rfl⟩
            · exact (ih fuel (Nat.lt_succ_self _) (maskQuotedSpan c line).2 false (by omega) hnewline
                htail).append hmasked
            · rw [hnil, sanitizeFrom_nil]
              rw [hnil] at htail hmasked
              have hscans : ScansLine [] rest [] tail false :=
                ⟨[], .quoted c, tail, rfl, by simp, rfl, htail, rfl, hquote⟩
              exact hscans.append hmasked
          · rw [if_neg hquote]
            have hstep : SqlMode.code.step c (line ++ rest).head? = some (c, .code) := by
              rw [SqlMode.step, if_neg hopen', if_neg hdash', if_neg hquote]
            obtain ⟨after, rfl, hafter⟩ := SqlMode.blanked_step hstep h
            exact (ih fuel (Nat.lt_succ_self _) line false hfuel hline hafter).cons

/-! ## The end of a line -/

theorem EndsLine.carriageReturn {mode : SqlMode} {inBlockComment : Bool}
    (hends : EndsLine inBlockComment mode) (h : mode.blanked (0x0D :: rest) = some blankedText) :
    ∃ d after, blankedText = d :: after ∧ (d = 0x0D ∨ d = blank) ∧ mode.blanked rest = some after := by
  have hstep : ∃ d, (d = 0x0D ∨ d = blank) ∧ mode.step 0x0D rest.head? = some (d, mode) := by
    cases mode with
    | code => exact ⟨0x0D, .inl rfl, rfl⟩
    | lineComment => exact ⟨blank, .inr rfl, rfl⟩
    | blockComment => exact ⟨blank, .inr rfl, rfl⟩
    | quoted quote =>
      refine ⟨blank, .inr rfl, (SqlMode.step_quoted quote _ (by decide)).trans ?_⟩
      rw [if_pos]
      rcases hends.2 with rfl | rfl
      · decide
      · decide
    | second after => exact hends.elim
  obtain ⟨d, hd, hstep⟩ := hstep
  rw [SqlMode.blanked_cons hstep] at h
  obtain ⟨after, hafter, rfl⟩ := Option.map_eq_some_iff.1 h
  exact ⟨d, after, rfl, hd, hafter⟩

theorem EndsLine.newline {mode : SqlMode} {inBlockComment : Bool}
    (hends : EndsLine inBlockComment mode)
    (h : mode.blanked (MigrationSafety.newline :: rest) = some blankedText) :
    ∃ after, blankedText = MigrationSafety.newline :: after ∧
      (openMode inBlockComment).blanked rest = some after := by
  have hstep : (∃ quote, mode = .quoted quote) ∨ mode.step MigrationSafety.newline rest.head? =
      some (MigrationSafety.newline, openMode inBlockComment) := by
    cases mode with
    | code => exact .inr (by rw [show inBlockComment = false from hends]; rfl)
    | lineComment => exact .inr (by rw [show inBlockComment = false from hends]; rfl)
    | blockComment => exact .inr (by rw [show inBlockComment = true from hends]; rfl)
    | quoted quote => exact .inl ⟨quote, rfl⟩
    | second after => exact hends.elim
  rcases hstep with ⟨quote, rfl⟩ | hstep
  · cases h
  · rw [SqlMode.blanked_cons hstep] at h
    obtain ⟨after, hafter, rfl⟩ := Option.map_eq_some_iff.1 h
    exact ⟨after, rfl, hafter⟩

/-- A single line always has its spans blanked. -/
theorem SqlMode.exists_blanked (mode : SqlMode) (hline : MigrationSafety.newline ∉ line) :
    ∃ blankedText, mode.blanked line = some blankedText := by
  induction line generalizing mode with
  | nil => exact ⟨[], rfl⟩
  | cons c line ih =>
    obtain ⟨hc, hline⟩ := List.ne_and_not_mem_of_not_mem_cons hline
    have hstep : ∃ d mode', mode.step c line.head? = some (d, mode') := by
      cases mode with
      | quoted quote => exact ⟨_, _, SqlMode.step_quoted quote _ hc.symm⟩
      | code =>
        rw [SqlMode.step]
        split_ifs <;> exact ⟨_, _, rfl⟩
      | lineComment => exact ⟨_, _, if_neg hc.symm⟩
      | blockComment =>
        rw [SqlMode.step]
        split_ifs <;> exact ⟨_, _, rfl⟩
      | second after => exact ⟨_, _, rfl⟩
    obtain ⟨d, mode', hstep⟩ := hstep
    obtain ⟨blankedText, hblanked⟩ := ih mode' hline
    exact ⟨d :: blankedText, by rw [SqlMode.blanked_cons hstep, hblanked]; rfl⟩

end

end Musi.MigrationSafety
