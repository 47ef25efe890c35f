import Musi.DriftAi.LineScanner
import Musi.Js.Joined

namespace Musi.DriftAi
open Musi.Js
set_option autoImplicit true

/-! ## The scan of a line, unit by unit -/

/-- Every turn takes a unit of the line at least. -/
theorem scanNext_length (state : LineScanState) (ch : UInt16) (rest : JsString) :
    (scanNext state ch rest).rest.length ≤ rest.length := by
  have hsplit {line before after : JsString} (h : splitBlockEnd line = some (before, after)) :
      after.length + 1 ≤ line.length := by
    fun_induction splitBlockEnd line generalizing before with
    | case1 => cases h
    | case2 => cases h
    | case3 c d s hend =>
      obtain ⟨-, rfl⟩ := Prod.mk.inj (Option.some.inj h)
      rw [List.length_cons, List.length_cons]
      omega
    | case4 c d s _ ih =>
      obtain ⟨parts, hparts, hpair⟩ := Option.map_eq_some_iff.1 h
      obtain ⟨-, rfl⟩ := Prod.mk.inj hpair
      exact Nat.le_succ_of_le (ih hparts)
  have hdrop : (rest.drop 1).length ≤ rest.length := (List.drop_sublist 1 rest).length_le
  rw [scanNext]
  split
  · rw [scanBlockComment]
    split
    · exact Nat.zero_le _
    · next h =>
      have hle := hsplit h
      rw [List.length_cons] at hle
      exact Nat.le_of_succ_le_succ hle
  · split
    · rw [scanString]
      split
      · exact hdrop
      · split
        · exact Nat.le_refl _
        · exact Nat.le_refl _
    · rw [scanCode]
      split
      · exact Nat.zero_le _
      · split
        · exact hdrop
        · exact Nat.le_refl _

theorem scanLineFrom_eq (fuel : Nat) (state : LineScanState) (line : JsString)
    (h : line.length ≤ fuel) : scanLineFrom fuel state line = scanLine line state := by
  have hfuel (n : Nat) (state : LineScanState) (line : JsString) (hn : line.length ≤ n) (m : Nat)
      (hm : line.length ≤ m) : scanLineFrom n state line = scanLineFrom m state line := by
    induction n generalizing state line m with
    | zero =>
      rw [List.length_eq_zero_iff.1 (Nat.le_zero.1 hn), scanLineFrom, scanLineFrom]
    | succ n ih =>
      cases line with
      | nil => rw [scanLineFrom, scanLineFrom]
      | cons ch rest =>
        cases m with
        | zero => cases hm
        | succ m =>
          have hrest := scanNext_length state ch rest
          rw [List.length_cons] at hn hm
          rw [scanLineFrom, scanLineFrom, ih _ _ (by omega) m (by omega)]
  rw [scanLine, hfuel fuel state line h line.length (Nat.le_refl _)]

/-- What the scan of a line reports, and the state after it. -/
def reported (state : LineScanState) (line : JsString) : List ScanReport × LineScanState :=
  ((scanLine line state).1.flatMap LineScanEvent.reports, (scanLine line state).2)

def prepend (reports : List ScanReport) (scanned : List ScanReport × LineScanState) :
    List ScanReport × LineScanState := (reports ++ scanned.1, scanned.2)

@[simp] theorem reported_nil (state : LineScanState) : reported state [] = ([], state) := rfl

theorem reported_cons (state : LineScanState) (ch : UInt16) (rest : JsString) :
    reported state (ch :: rest) =
      prepend ((scanNext state ch rest).events.flatMap LineScanEvent.reports)
        (reported (scanNext state ch rest).state (scanNext state ch rest).rest) := by
  have hline : scanLine (ch :: rest) state = ((scanNext state ch rest).events ++
      (scanLine (scanNext state ch rest).rest (scanNext state ch rest).state).1,
        (scanLine (scanNext state ch rest).rest (scanNext state ch rest).state).2) := by
    rw [scanLine, List.length_cons, scanLineFrom]
    rw [scanLineFrom_eq _ _ _ (scanNext_length state ch rest)]
  rw [reported, hline, List.flatMap_append]
  rfl

theorem reported_block (inString : Option UInt16) (line : JsString) :
    reported ⟨true, inString⟩ line =
      match splitBlockEnd line with
      | none => (line.map (.comment .block), ⟨true, inString⟩)
      | some (before, after) =>
        prepend (before.map (.comment .block)) (reported ⟨false, inString⟩ after) := by
  cases line with
  | nil => rfl
  | cons ch rest =>
    rw [reported_cons, scanNext, if_pos rfl, scanBlockComment]
    cases splitBlockEnd (ch :: rest) with
    | none =>
      dsimp only
      rw [List.flatMap_singleton, reported_nil, prepend, List.append_nil]
      rfl
    | some parts =>
      obtain ⟨before, after⟩ := parts
      dsimp only
      rw [List.flatMap_singleton]
      rfl

theorem reported_blockEnd (inString : Option UInt16) (rest : JsString) :
    reported ⟨true, inString⟩ (unit '*' :: unit '/' :: rest) = reported ⟨false, inString⟩ rest := by
  rw [reported_block, splitBlockEnd, if_pos ⟨rfl, rfl⟩]
  rfl

theorem reported_blockText (inString : Option UInt16) {ch : UInt16} {rest : JsString}
    (h : ¬ (ch = unit '*' ∧ rest.head? = some (unit '/'))) :
    reported ⟨true, inString⟩ (ch :: rest) =
      prepend [.comment .block ch] (reported ⟨true, inString⟩ rest) := by
  have hsplit : splitBlockEnd (ch :: rest) =
      (splitBlockEnd rest).map fun parts => (ch :: parts.1, parts.2) := by
    cases rest with
    | nil => rfl
    | cons d s =>
      rw [splitBlockEnd, if_neg]
      rintro ⟨hch, rfl⟩
      exact h ⟨hch, rfl⟩
  rw [reported_block, reported_block, hsplit]
  cases splitBlockEnd rest with
  | none => rfl
  | some parts => rfl

theorem scanNext_string (delimiter ch : UInt16) (rest : JsString) :
    scanNext ⟨false, some delimiter⟩ ch rest = scanString ⟨false, some delimiter⟩ ch rest := rfl

theorem scanNext_code (ch : UInt16) (rest : JsString) :
    scanNext ⟨false, none⟩ ch rest = scanCode ⟨false, none⟩ ch rest := rfl

theorem reported_string (delimiter ch : UInt16) (rest : JsString) :
    reported ⟨false, some delimiter⟩ (ch :: rest) = prepend [.code ch]
      (if ch = unit '\\' then reported ⟨false, some delimiter⟩ (rest.drop 1)
        else if ch = delimiter then reported ⟨false, none⟩ rest
        else reported ⟨false, some delimiter⟩ rest) := by
  rw [reported_cons, scanNext_string, scanString]
  split
  · rfl
  · by_cases hdelimiter : ch = delimiter
    · rw [if_pos hdelimiter, if_pos (congrArg some hdelimiter)]
      rfl
    · rw [if_neg hdelimiter, if_neg fun heq => hdelimiter (Option.some.inj heq)]
      rfl

theorem reported_code (ch : UInt16) (rest : JsString) :
    reported ⟨false, none⟩ (ch :: rest) =
      if ch = unit '/' ∧ rest.head? = some (unit '/') then
        (.commentStart .line :: (rest.drop 1).map (.comment .line), ⟨false, none⟩)
      else if ch = unit '/' ∧ rest.head? = some (unit '*') then
        prepend [.commentStart .block] (reported ⟨true, none⟩ (rest.drop 1))
      else prepend [.code ch] (reported ⟨false, stringDelimiter ch⟩ rest) := by
  rw [reported_cons, scanNext_code, scanCode]
  split
  · rw [scanLineComment]
    dsimp only
    rw [reported_nil, prepend, List.append_nil]
    simp only [List.flatMap_cons, List.flatMap_nil, LineScanEvent.reports, List.append_nil,
      List.singleton_append]
  · split
    · rfl
    · rfl

/-! ## Lines and pieces, unit by unit -/

/-- How many units a step takes besides its first. -/
def LexStep.taken (step : LexStep) : Nat := if step.paired then 1 else 0

theorem sourceLines_cons (c : UInt16) (s : JsString) :
    sourceLines (c :: s) =
      if isLineTerminator c then
        [] :: sourceLines (if isPairedTerminator c s.head? then s.drop 1 else s)
      else consLine c (sourceLines s) := by
  cases s with
  | nil =>
    have hone : sourceLines [c] = if isLineTerminator c then [[], []] else [[c]] := by
      rw [sourceLines]
    rw [hone, List.drop_nil, ite_self]
    rfl
  | cons d s =>
    rw [sourceLines]
    split
    · rw [List.head?_cons]
      split
      · rfl
      · rfl
    · rfl

theorem sourceLines_ne_nil (s : JsString) : sourceLines s ≠ [] := by
  cases s with
  | nil => exact List.cons_ne_nil _ _
  | cons c s =>
    rw [sourceLines_cons]
    split
    · exact List.cons_ne_nil _ _
    · cases sourceLines s with
      | nil => exact List.cons_ne_nil _ _
      | cons line lines => exact List.cons_ne_nil _ _

/-- The next unit of the text is the next unit of the line, where it does not end the line. -/
def Follows (next : Option UInt16) (line : JsString) : Prop :=
  ∀ c, isLineTerminator c = false → (next = some c ↔ line.head? = some c)

theorem follows_sourceLines {s line : JsString} {lines : List JsString}
    (h : sourceLines s = line :: lines) : Follows s.head? line := by
  intro c hc
  cases s with
  | nil => rw [← (List.cons.inj h).1]
  | cons d s =>
    rw [sourceLines_cons] at h
    split at h
    · next hd =>
      rw [← (List.cons.inj h).1, List.head?_cons]
      refine iff_of_false (fun heq => ?_) (by intro heq; cases heq)
      rw [Option.some.inj heq, hc] at hd
      exact Bool.false_ne_true hd
    · cases hlines : sourceLines s with
      | nil => exact absurd hlines (sourceLines_ne_nil s)
      | cons line' lines' =>
        rw [hlines] at h
        rw [← (List.cons.inj h).1]
        rfl

/-- The scan of a line from the middle of it. -/
def scanFrom : LexMode → JsString → List ScanReport × LineScanState
  | .code, line => reported ⟨false, none⟩ line
  | .lineComment, line => (line.map (.comment .line), ⟨false, none⟩)
  | .blockComment, line => reported ⟨true, none⟩ line
  | .quoted delimiter, line => reported ⟨false, some delimiter⟩ line
  | .escape delimiter, line => reported ⟨false, some delimiter⟩ (line.drop 1)

/-- The end of a line leaves the scan in the state of the mode after it. -/
theorem scanFrom_lineEnd {mode : LexMode} {c : UInt16} {next : Option UInt16} {step : LexStep}
    (h : lexStep mode c next = some step) (hc : isLineTerminator c = true) :
    step.kind = .lineEnd ∧ step.paired = isPairedTerminator c next ∧
      scanFrom mode [] = ([], step.mode.state) ∧
      ∀ line, scanFrom step.mode line = reported step.mode.state line := by
  cases mode with
  | code =>
    simp only [lexStep, hc, if_true] at h
    rw [← Option.some.inj h]
    exact ⟨rfl, rfl, rfl, fun _ => rfl⟩
  | lineComment =>
    simp only [lexStep, hc, if_true] at h
    rw [← Option.some.inj h]
    exact ⟨rfl, rfl, rfl, fun _ => rfl⟩
  | blockComment =>
    simp only [lexStep, hc, if_true] at h
    rw [← Option.some.inj h]
    exact ⟨rfl, rfl, rfl, fun _ => rfl⟩
  | quoted delimiter =>
    simp only [lexStep, hc, if_true] at h
    split at h
    · rw [← Option.some.inj h]
      exact ⟨rfl, rfl, rfl, fun _ => rfl⟩
    · cases h
  | escape delimiter =>
    simp only [lexStep, hc, if_true] at h
    rw [← Option.some.inj h]
    exact ⟨rfl, rfl, rfl, fun _ => rfl⟩

/-- A piece inside of a line does not take the end of the line, and is what the scan reports
next. -/
theorem scanFrom_inside {mode : LexMode} {c : UInt16} {next : Option UInt16} {step : LexStep}
    (h : lexStep mode c next = some step) (hc : isLineTerminator c = false) :
    step.kind ≠ .lineEnd ∧
      (step.paired = true → ∃ d, next = some d ∧ isLineTerminator d = false) ∧
      ∀ line, Follows next line → scanFrom mode (c :: line) =
        prepend (Lexeme.reports ⟨c :: line.take step.taken, step.kind, step.mode⟩)
          (scanFrom step.mode (line.drop step.taken)) := by
  have hunpaired : false = true → ∃ d, next = some d ∧ isLineTerminator d = false := by
    intro hp
    cases hp
  cases mode with
  | code =>
    simp only [lexStep, hc, Bool.false_eq_true, if_false] at h
    split at h
    · next hline =>
      obtain ⟨rfl, rfl⟩ := hline
      cases h
      refine ⟨LexKind.noConfusion, fun _ => ⟨_, rfl, by decide⟩, fun line hnext => ?_⟩
      change reported ⟨false, none⟩ _ = _
      rw [reported_code, if_pos ⟨rfl, (hnext _ (by decide)).1 rfl⟩]
      rfl
    · next hline =>
      have hnoLine (line : JsString) (hnext : Follows next line) :
          ¬ (c = unit '/' ∧ line.head? = some (unit '/')) := fun heq =>
        hline ⟨heq.1, (hnext _ (by decide)).2 heq.2⟩
      split at h
      · next hblock =>
        obtain ⟨rfl, rfl⟩ := hblock
        cases h
        refine ⟨LexKind.noConfusion, fun _ => ⟨_, rfl, by decide⟩, fun line hnext => ?_⟩
        change reported ⟨false, none⟩ _ = _
        rw [reported_code, if_neg (hnoLine line hnext),
          if_pos ⟨rfl, (hnext _ (by decide)).1 rfl⟩]
        rfl
      · next hblock =>
        have hnoBlock (line : JsString) (hnext : Follows next line) :
            ¬ (c = unit '/' ∧ line.head? = some (unit '*')) := fun heq =>
          hblock ⟨heq.1, (hnext _ (by decide)).2 heq.2⟩
        cases hdelimiter : stringDelimiter c with
        | none =>
          rw [hdelimiter] at h
          cases h
          refine ⟨LexKind.noConfusion, hunpaired, fun line hnext => ?_⟩
          change reported ⟨false, none⟩ _ = _
          rw [reported_code, if_neg (hnoLine line hnext), if_neg (hnoBlock line hnext),
            hdelimiter]
          rfl
        | some delimiter =>
          rw [hdelimiter] at h
          cases h
          refine ⟨LexKind.noConfusion, hunpaired, fun line hnext => ?_⟩
          change reported ⟨false, none⟩ _ = _
          rw [reported_code, if_neg (hnoLine line hnext), if_neg (hnoBlock line hnext),
            hdelimiter]
          rfl
  | lineComment =>
    simp only [lexStep, hc, Bool.false_eq_true, if_false] at h
    cases h
    refine ⟨LexKind.noConfusion, hunpaired, fun line _ => rfl⟩
  | blockComment =>
    simp only [lexStep, hc, Bool.false_eq_true, if_false] at h
    split at h
    · next hend =>
      obtain ⟨rfl, rfl⟩ := hend
      cases h
      refine ⟨LexKind.noConfusion, fun _ => ⟨_, rfl, by decide⟩, fun line hnext => ?_⟩
      obtain ⟨rest, rfl⟩ := List.head?_eq_some_iff.1 ((hnext _ (by decide)).1 rfl)
      change reported ⟨true, none⟩ _ = _
      rw [reported_blockEnd]
      rfl
    · next htext =>
      cases h
      refine ⟨LexKind.noConfusion, hunpaired, fun line hnext => ?_⟩
      have hhead := hnext (unit '/') (by decide)
      change reported ⟨true, none⟩ _ = _
      rw [reported_blockText none fun heq => htext ⟨heq.1, hhead.2 heq.2⟩]
      rfl
  | quoted delimiter =>
    simp only [lexStep, hc, Bool.false_eq_true, if_false] at h
    split at h
    · next hescape =>
      cases h
      refine ⟨LexKind.noConfusion, hunpaired, fun line _ => ?_⟩
      change reported ⟨false, some delimiter⟩ _ = _
      rw [reported_string, if_pos hescape]
      rfl
    · next hescape =>
      split at h
      · cases h
      · split at h
        · next hend =>
          cases h
          refine ⟨LexKind.noConfusion, hunpaired, fun line _ => ?_⟩
          change reported ⟨false, some delimiter⟩ _ = _
          rw [reported_string, if_neg hescape, if_pos hend]
          rfl
        · next hend =>
          cases h
          refine ⟨LexKind.noConfusion, hunpaired, fun line _ => ?_⟩
          change reported ⟨false, some delimiter⟩ _ = _
          rw [reported_string, if_neg hescape, if_neg hend]
          rfl
  | escape delimiter =>
    simp only [lexStep, hc, Bool.false_eq_true, if_false] at h
    cases h
    exact ⟨LexKind.noConfusion, hunpaired, fun line _ => rfl⟩

theorem lexStep_paired {mode : LexMode} {c : UInt16} {step : LexStep}
    (h : lexStep mode c none = some step) : step.paired = false := by
  cases hc : isLineTerminator c with
  | true =>
    rw [(scanFrom_lineEnd h hc).2.1]
    exact Bool.and_false _
  | false =>
    by_contra hp
    obtain ⟨d, hd, -⟩ := (scanFrom_inside h hc).2.1 (eq_true_of_ne_false hp)
    cases hd

theorem lex_cons (mode : LexMode) (c : UInt16) (s : JsString) :
    lex mode (c :: s) = (lexStep mode c s.head?).bind fun step =>
      (lex step.mode (s.drop step.taken)).map fun pieces =>
        ⟨c :: s.take step.taken, step.kind, step.mode⟩ :: pieces := by
  cases s with
  | nil =>
    rw [lex, List.head?_nil]
    cases hstep : lexStep mode c none with
    | none => rfl
    | some step =>
      have htaken : step.taken = 0 := by
        rw [LexStep.taken, lexStep_paired hstep, if_neg Bool.false_ne_true]
      dsimp only
      rw [Option.bind_some, htaken, List.drop_zero, List.take_zero, lex]
      split
      · rfl
      · rfl
  | cons d s =>
    rw [lex, List.head?_cons]
    cases hstep : lexStep mode c (some d) with
    | none => rfl
    | some step =>
      dsimp only
      rw [Option.bind_some, LexStep.taken]
      split
      · rfl
      · rfl

/-! ## Whole texts -/

def scanLinesFrom (mode : LexMode) : List JsString → List (List ScanReport × LineScanState)
  | [] => []
  | line :: lines => scanFrom mode line :: scanLines (scanFrom mode line).2 lines

theorem scanLines_state (mode : LexMode) (h : ∀ line, scanFrom mode line = reported mode.state line)
    (lines : List JsString) : scanLines mode.state lines = scanLinesFrom mode lines := by
  cases lines with
  | nil => rfl
  | cons line lines =>
    rw [scanLinesFrom, h]
    rfl

theorem scanned_cons {piece : Lexeme} (h : piece.kind ≠ .lineEnd) {pieces : List Lexeme}
    {scanned : List ScanReport × LineScanState} {rest : List (List ScanReport × LineScanState)}
    (hpieces : (lexedLines pieces).map LexedLine.scanned = scanned :: rest) :
    (lexedLines (piece :: pieces)).map LexedLine.scanned = prepend piece.reports scanned :: rest := by
  rw [lexedLines, if_neg h]
  cases hlines : lexedLines pieces with
  | nil =>
    rw [hlines] at hpieces
    cases hpieces
  | cons line lines =>
    rw [hlines, List.map_cons] at hpieces
    obtain ⟨hline, hrest⟩ := List.cons.inj hpieces
    rw [LexedLine.cons, List.map_cons, hrest, ← hline]
    rfl

theorem scanLinesFrom_lex {mode : LexMode} {text : JsString} {pieces : List Lexeme}
    (h : lex mode text = some pieces) :
    scanLinesFrom mode (sourceLines text) = (lexedLines pieces).map LexedLine.scanned := by
  induction hn : text.length using Nat.strong_induction_on generalizing mode text pieces with
  | _ n ih =>
    cases text with
    | nil =>
      rw [lex] at h
      split at h
      · next hend =>
        cases h
        rcases hend with rfl | rfl
        · rfl
        · rfl
      · cases h
    | cons c s =>
      rw [lex_cons] at h
      obtain ⟨step, hstep, h⟩ := Option.bind_eq_some_iff.1 h
      obtain ⟨pieces, hpieces, rfl⟩ := Option.map_eq_some_iff.1 h
      have hrest := ih (s.drop step.taken).length (by
        rw [← hn, List.length_cons, List.length_drop]
        omega) hpieces rfl
      cases hc : isLineTerminator c with
      | true =>
        obtain ⟨hkind, hpaired, hend, hstart⟩ := scanFrom_lineEnd hstep hc
        have htail : (if isPairedTerminator c s.head? then s.drop 1 else s) = s.drop step.taken := by
          rw [LexStep.taken, hpaired]
          split
          · rfl
          · rfl
        rw [sourceLines_cons, if_pos hc, htail, lexedLines, if_pos hkind, List.map_cons, ← hrest,
          scanLinesFrom, hend, scanLines_state _ hstart]
        rfl
      | false =>
        obtain ⟨hkind, hpaired, hscan⟩ := scanFrom_inside hstep hc
        cases hlines : sourceLines (s.drop step.taken) with
        | nil => exact absurd hlines (sourceLines_ne_nil _)
        | cons line lines =>
          have hjoined : sourceLines s = (s.take step.taken ++ line) :: lines := by
            cases hp : step.paired with
            | false =>
              rw [LexStep.taken, hp] at hlines ⊢
              exact hlines
            | true =>
              obtain ⟨d, hd, hterminator⟩ := hpaired hp
              obtain ⟨rest, rfl⟩ := List.head?_eq_some_iff.1 hd
              rw [LexStep.taken, hp] at hlines ⊢
              rw [sourceLines_cons, if_neg (by rw [hterminator]; exact Bool.false_ne_true)]
              exact congrArg (consLine d) hlines
          have hfollows := follows_sourceLines hjoined
          have htake : (s.take step.taken ++ line).take step.taken = s.take step.taken ∧
              (s.take step.taken ++ line).drop step.taken = line := by
            have hlength : (s.take step.taken).length = step.taken := by
              cases hp : step.paired with
              | false => rw [LexStep.taken, hp]; rfl
              | true =>
                obtain ⟨d, hd, -⟩ := hpaired hp
                obtain ⟨rest, rfl⟩ := List.head?_eq_some_iff.1 hd
                rw [LexStep.taken, hp]
                rfl
            exact ⟨List.take_left' hlength, List.drop_left' hlength⟩
          have hline := hscan _ hfollows
          rw [htake.1, htake.2] at hline
          rw [hlines, scanLinesFrom] at hrest
          rw [sourceLines_cons, if_neg (by rw [hc]; exact Bool.false_ne_true), hjoined, consLine,
            scanLinesFrom, hline, scanned_cons hkind hrest.symm]
          rfl

/-- The pieces of a text are the text. -/
theorem lex_text {mode : LexMode} {text : JsString} {pieces : List Lexeme}
    (h : lex mode text = some pieces) : pieces.flatMap Lexeme.text = text := by
  induction hn : text.length using Nat.strong_induction_on generalizing mode text pieces with
  | _ n ih =>
    cases text with
    | nil =>
      rw [lex] at h
      split at h
      · cases h
        rfl
      · cases h
    | cons c s =>
      rw [lex_cons] at h
      obtain ⟨step, hstep, h⟩ := Option.bind_eq_some_iff.1 h
      obtain ⟨pieces, hpieces, rfl⟩ := Option.map_eq_some_iff.1 h
      have hrest := ih (s.drop step.taken).length (by
        rw [← hn, List.length_cons, List.length_drop]
        omega) hpieces rfl
      rw [List.flatMap_cons, hrest, List.cons_append, List.take_append_drop]

/-- The scan of a text, line by line, reports what a lexer of the whole text finds: the comments of
each line, and every other unit once, but for the unit after a backslash. After each line it is in
a block comment, string or template exactly when the lexer is. -/
theorem scanLines_exact {text : JsString} {pieces : List Lexeme}
    (h : lex .code text = some pieces) :
    pieces.flatMap Lexeme.text = text ∧
      scanLines initialLineScanState (sourceLines text) =
        (lexedLines pieces).map LexedLine.scanned :=
  ⟨lex_text h, (scanLines_state .code (fun _ => rfl) _).trans (scanLinesFrom_lex h)⟩

/-- A string with an escape, a block comment over two lines and a line comment. -/
def scannedText : JsString := js "f('\\n') /* a\n b */ // c"

theorem scanLines_exact_comments : ∃ pieces, lex .code scannedText = some pieces ∧
    pieces.flatMap Lexeme.text = scannedText ∧
      scanLines initialLineScanState (sourceLines scannedText) =
        (lexedLines pieces).map LexedLine.scanned := by
  have hlex : (lex .code scannedText).isSome = true := by decide +kernel
  obtain ⟨pieces, hpieces⟩ := Option.isSome_iff_exists.1 hlex
  exact ⟨pieces, hpieces, scanLines_exact hpieces⟩

/-- The reports of a piece whose every unit outside of comments is reported. -/
def Lexeme.unitReports (piece : Lexeme) : List ScanReport :=
  if piece.kind = .escaped then piece.text.map .code else piece.reports

/-- The scan does not report the unit that a backslash escapes. -/
theorem scanLines_fails : ∃ text pieces, lex .code text = some pieces ∧
    scanLines initialLineScanState (sourceLines text) ≠ (lexedLines pieces).map fun line =>
      (line.pieces.flatMap Lexeme.unitReports, line.mode.state) := by
  refine ⟨js "'\\n'", (lex .code (js "'\\n'")).get (by decide), (Option.some_get _).symm, ?_⟩
  decide

/-! ## The lines that the callers scan -/

def splitLines (source : JsString) : List JsString := splitOn Lines.lineFeed (Lines.unifyEnds source)

/-- Lines end with a line feed, which a carriage return may come before. -/
def plainLineEnds : JsString → Bool
  | [] => true
  | [c] => !isLineTerminator c || c = 0x0A
  | c :: d :: s =>
    if isPairedTerminator c (some d) then plainLineEnds s
    else (!isLineTerminator c || c = 0x0A) && plainLineEnds (d :: s)

theorem splitOn_lineFeed_cons {c : UInt16} (h : (!isLineTerminator c || c = 0x0A) = true)
    {s : JsString} {lines : List JsString} (hs : splitOn 0x0A s = lines) :
    splitOn 0x0A (c :: s) = if isLineTerminator c then [] :: lines else consLine c lines := by
  subst hs
  rw [splitOn]
  by_cases hc : c = 0x0A
  · subst hc
    rw [if_pos rfl, if_pos (by decide)]
  · rw [decide_eq_false hc, Bool.or_false, Bool.not_eq_true'] at h
    rw [if_neg hc, if_neg (by rw [h]; exact Bool.false_ne_true)]
    cases splitOn 0x0A s with
    | nil => rfl
    | cons line lines => rfl

theorem splitLines_eq_sourceLines {source : JsString} (h : plainLineEnds source = true) :
    splitLines source = sourceLines source := by
  rw [splitLines]
  fun_induction plainLineEnds source with
  | case1 => rfl
  | case2 c =>
    rw [Lines.unifyEnds, sourceLines]
    exact splitOn_lineFeed_cons h rfl
  | case3 c d s hpaired ih =>
    have hpair := hpaired
    rw [isPairedTerminator, Bool.and_eq_true, decide_eq_true_eq, decide_eq_true_eq] at hpair
    obtain ⟨hc, hd⟩ := hpair
    have hterminator : isLineTerminator c = true := by
      rw [hc]
      decide
    rw [Lines.unifyEnds, if_pos ⟨hc, Option.some.inj hd⟩, sourceLines, if_pos hterminator,
      if_pos hpaired, splitOn, if_pos rfl, ih h]
  | case4 c d s hpaired ih =>
    rw [Bool.and_eq_true] at h
    have hpair : ¬ (c = Lines.carriageReturn ∧ d = Lines.lineFeed) := by
      rintro ⟨rfl, rfl⟩
      exact hpaired (by decide)
    rw [Lines.unifyEnds, if_neg hpair, sourceLines, if_neg hpaired]
    exact splitOn_lineFeed_cons h.1 (ih h.2)

end Musi.DriftAi
