import Musi.DriftAi.PathUtil

namespace Musi.DriftAi
open Musi.Js
set_option autoImplicit true

/-! ## The line scanner -/

structure LineScanState where
  inBlockComment : Bool
  inString : Option UInt16
  deriving DecidableEq

inductive CommentKind where
  | line
  | block
  deriving DecidableEq

/-- A call of the visitor. -/
inductive LineScanEvent where
  | onCode (text : JsString)
  | onCommentStart (kind : CommentKind)
  | onLineComment (text : JsString)
  | onBlockComment (text : JsString)

def initialLineScanState : LineScanState := ⟨false, none⟩

/-- The calls of one turn of the loop, the state after it, and what is left of the line. -/
structure LineScanCursor where
  events : List LineScanEvent
  state : LineScanState
  rest : JsString

/-- The text before and after the first end of a block comment. -/
def splitBlockEnd : JsString → Option (JsString × JsString)
  | [] => none
  | [_] => none
  | c :: d :: s =>
    if c = unit '*' ∧ d = unit '/' then some ([], s)
    else (splitBlockEnd (d :: s)).map fun parts => (c :: parts.1, parts.2)

def scanBlockComment (state : LineScanState) (line : JsString) : LineScanCursor :=
  match splitBlockEnd line with
  | none => ⟨[.onBlockComment line], state, []⟩
  | some (before, after) => ⟨[.onBlockComment before], ⟨false, state.inString⟩, after⟩

def scanString (state : LineScanState) (ch : UInt16) (rest : JsString) : LineScanCursor :=
  if ch = unit '\\' then ⟨[.onCode [ch]], state, rest.drop 1⟩
  else if some ch = state.inString then ⟨[.onCode [ch]], { state with inString := none }, rest⟩
  else ⟨[.onCode [ch]], state, rest⟩

def stringDelimiter (ch : UInt16) : Option UInt16 :=
  if ch = 0x22 ∨ ch = 0x27 ∨ ch = 0x60 then some ch else none

def scanLineComment (state : LineScanState) (rest : JsString) : LineScanCursor :=
  ⟨[.onCommentStart .line, .onLineComment (rest.drop 1)], state, []⟩

def startBlockComment (state : LineScanState) (rest : JsString) : LineScanCursor :=
  ⟨[.onCommentStart .block], { state with inBlockComment := true }, rest.drop 1⟩

def scanCode (state : LineScanState) (ch : UInt16) (rest : JsString) : LineScanCursor :=
  if ch = unit '/' ∧ rest.head? = some (unit '/') then scanLineComment state rest
  else if ch = unit '/' ∧ rest.head? = some (unit '*') then startBlockComment state rest
  else ⟨[.onCode [ch]], { state with inString := stringDelimiter ch }, rest⟩

def scanNext (state : LineScanState) (ch : UInt16) (rest : JsString) : LineScanCursor :=
  if state.inBlockComment then scanBlockComment state (ch :: rest)
  else if state.inString.isSome then scanString state ch rest
  else scanCode state ch rest

/-- The loop over a line, with as many turns as the line has units at most. -/
def scanLineFrom : Nat → LineScanState → JsString → List LineScanEvent × LineScanState
  | _, state, [] => ([], state)
  | 0, state, _ => ([], state)
  | fuel + 1, state, ch :: rest =>
    let cursor := scanNext state ch rest
    let scanned := scanLineFrom fuel cursor.state cursor.rest
    (cursor.events ++ scanned.1, scanned.2)

def scanLine (line : JsString) (state : LineScanState) : List LineScanEvent × LineScanState :=
  scanLineFrom line.length state line

/-! ## Lines -/

/-- What a scan reports, unit by unit. -/
inductive ScanReport where
  | code (c : UInt16)
  | commentStart (kind : CommentKind)
  | comment (kind : CommentKind) (c : UInt16)
  deriving DecidableEq

def LineScanEvent.reports : LineScanEvent → List ScanReport
  | onCode text => text.map .code
  | onCommentStart kind => [.commentStart kind]
  | onLineComment text => text.map (.comment .line)
  | onBlockComment text => text.map (.comment .block)

/-- The reports of each line, and the state after it. -/
def scanLines : LineScanState → List JsString → List (List ScanReport × LineScanState)
  | _, [] => []
  | state, line :: lines =>
    let scanned := scanLine line state
    (scanned.1.flatMap LineScanEvent.reports, scanned.2) :: scanLines scanned.2 lines

/-- A carriage return takes the line feed after it with it. -/
def isPairedTerminator (c : UInt16) (next : Option UInt16) : Bool := c = 0x0D && next = some 0x0A

def consLine (c : UInt16) : List JsString → List JsString
  | [] => [[c]]
  | line :: lines => (c :: line) :: lines

/-- The lines of a source text. -/
def sourceLines : JsString → List JsString
  | [] => [[]]
  | [c] => if isLineTerminator c then [[], []] else [[c]]
  | c :: d :: s =>
    if isLineTerminator c then
      [] :: if isPairedTerminator c (some d) then sourceLines s else sourceLines (d :: s)
    else consLine c (sourceLines (d :: s))

/-! ## The lexer -/

inductive LexMode where
  | code
  | lineComment
  | blockComment
  | quoted (delimiter : UInt16)
  | escape (delimiter : UInt16)
  deriving DecidableEq

/-- What a piece of the text is: code, the unit that a backslash escapes, a comment's text or
delimiter, or the end of a line. -/
inductive LexKind where
  | code
  | escaped
  | commentStart (kind : CommentKind)
  | comment (kind : CommentKind)
  | commentEnd
  | lineEnd
  deriving DecidableEq

/-- A piece of the text and the mode after it. -/
structure Lexeme where
  text : JsString
  kind : LexKind
  mode : LexMode
  deriving DecidableEq

/-- A kind, the mode after it, and whether the next unit belongs to the piece. -/
structure LexStep where
  kind : LexKind
  mode : LexMode
  paired : Bool

def isTemplate (delimiter : UInt16) : Bool := delimiter = 0x60

/-- The piece that starts with a unit. Quoted text ends on its line, except in a template, and a
template has no substitution. -/
def lexStep (mode : LexMode) (c : UInt16) (next : Option UInt16) : Option LexStep :=
  let lineEnd (after : LexMode) := some ⟨.lineEnd, after, isPairedTerminator c next⟩
  match mode with
  | .code =>
    if isLineTerminator c then lineEnd .code
    else if c = unit '/' ∧ next = some (unit '/') then some ⟨.commentStart .line, .lineComment, true⟩
    else if c = unit '/' ∧ next = some (unit '*') then some ⟨.commentStart .block, .blockComment, true⟩
    else match stringDelimiter c with
      | some delimiter => some ⟨.code, .quoted delimiter, false⟩
      | none => some ⟨.code, .code, false⟩
  | .lineComment =>
    if isLineTerminator c then lineEnd .code else some ⟨.comment .line, .lineComment, false⟩
  | .blockComment =>
    if isLineTerminator c then lineEnd .blockComment
    else if c = unit '*' ∧ next = some (unit '/') then some ⟨.commentEnd, .code, true⟩
    else some ⟨.comment .block, .blockComment, false⟩
  | .quoted delimiter =>
    if isLineTerminator c then
      if isTemplate delimiter || c = 0x2028 || c = 0x2029 then lineEnd (.quoted delimiter) else none
    else if c = unit '\\' then some ⟨.code, .escape delimiter, false⟩
    else if isTemplate delimiter ∧ c = unit '$' ∧ next = some 0x7B then none
    else if c = delimiter then some ⟨.code, .code, false⟩
    else some ⟨.code, .quoted delimiter, false⟩
  | .escape delimiter =>
    if isLineTerminator c then lineEnd (.quoted delimiter)
    else some ⟨.escaped, .quoted delimiter, false⟩

/-- The pieces of a text that ends outside of comments, strings and templates. -/
def lex : LexMode → JsString → Option (List Lexeme)
  | mode, [] => if mode = .code ∨ mode = .lineComment then some [] else none
  | mode, [c] =>
    match lexStep mode c none with
    | none => none
    | some step =>
      if step.mode = .code ∨ step.mode = .lineComment then some [⟨[c], step.kind, step.mode⟩] else none
  | mode, c :: d :: s =>
    match lexStep mode c (some d) with
    | none => none
    | some step =>
      if step.paired then (lex step.mode s).map fun pieces => ⟨[c, d], step.kind, step.mode⟩ :: pieces
      else (lex step.mode (d :: s)).map fun pieces => ⟨[c], step.kind, step.mode⟩ :: pieces

/-- The pieces of a line, and the mode at its end. -/
structure LexedLine where
  pieces : List Lexeme
  mode : LexMode

def LexedLine.cons (piece : Lexeme) : List LexedLine → List LexedLine
  | [] => [⟨[piece], .code⟩]
  | line :: lines => { line with pieces := piece :: line.pieces } :: lines

/-- The pieces line by line, without the ends of the lines. -/
def lexedLines : List Lexeme → List LexedLine
  | [] => [⟨[], .code⟩]
  | piece :: pieces =>
    if piece.kind = .lineEnd then ⟨[], piece.mode⟩ :: lexedLines pieces
    else LexedLine.cons piece (lexedLines pieces)

/-- What is to be reported of a piece. An escape sequence is reported by its backslash. -/
def Lexeme.reports (piece : Lexeme) : List ScanReport :=
  match piece.kind with
  | .code => piece.text.map .code
  | .escaped => []
  | .commentStart kind => [.commentStart kind]
  | .comment kind => piece.text.map (.comment kind)
  | .commentEnd => []
  | .lineEnd => []

def LexMode.state : LexMode → LineScanState
  | code => ⟨false, none⟩
  | lineComment => ⟨false, none⟩
  | blockComment => ⟨true, none⟩
  | quoted delimiter => ⟨false, some delimiter⟩
  | escape delimiter => ⟨false, some delimiter⟩

def LexedLine.scanned (line : LexedLine) : List ScanReport × LineScanState :=
  (line.pieces.flatMap Lexeme.reports, line.mode.state)

end Musi.DriftAi
