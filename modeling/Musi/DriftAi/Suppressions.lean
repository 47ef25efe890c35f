import Musi.DriftAi.LineScanner
import Musi.Js.Joined
import Musi.Js.Number

namespace Musi.DriftAi
open Musi.Js
set_option autoImplicit true

/-! ## Comments of a line -/

structure CommentSegment where
  kind : CommentKind
  text : JsString

def LineScanEvent.segment : LineScanEvent → Option CommentSegment
  | onLineComment text => some ⟨.line, text⟩
  | onBlockComment text => some ⟨.block, text⟩
  | _ => none

def scanCommentSegments (line : JsString) (state : LineScanState) :
    List CommentSegment × LineScanState :=
  let scanned := scanLine line state
  (scanned.1.filterMap LineScanEvent.segment, scanned.2)

structure SuppressionLocation where
  file : JsString
  line : Nat
  text : JsString
  deriving DecidableEq

/-! ## Paths -/

namespace SuppressionDiff

def quote : UInt16 := 0x22
def backslash : UInt16 := 0x5C
def tab : UInt16 := 0x09

/-- `value.replace(/\t.*$/u, "")` -/
def dropTab : JsString → JsString
  | [] => []
  | c :: s => if c = tab ∧ s.all (fun d => !isLineTerminator d) then [] else c :: dropTab s

/-- Every backslash before the unit gives way to it. -/
def unescape (d : UInt16) : JsString → JsString
  | [] => []
  | [c] => [c]
  | c :: e :: s =>
    if c = backslash ∧ e = d then d :: unescape d s else c :: unescape d (e :: s)

end SuppressionDiff

def unquoteDiffPath (value : JsString) : JsString :=
  if !startsWith value [SuppressionDiff.quote] || !endsWith value [SuppressionDiff.quote] then value
  else
    SuppressionDiff.unescape SuppressionDiff.backslash
      (SuppressionDiff.unescape SuppressionDiff.quote value.tail.dropLast)

def stripDiffPathPrefix (value : JsString) (changedPaths : List JsString) : JsString :=
  if value ∈ changedPaths then value
  else if startsWith value (js "a/") || startsWith value (js "b/") then
    if value.drop 2 ∈ changedPaths then value.drop 2 else value
  else value

def parseNewFilePath (line : JsString) (changedPaths : List JsString) : Option JsString :=
  let value := (SuppressionDiff.dropTab (line.drop 4)).rdropWhile isWhiteSpace
  if value = js "/dev/null" then none
  else some (stripDiffPathPrefix (unquoteDiffPath value) changedPaths)

/-! ## Lines of a diff -/

inductive DiffLineKind where
  | fileHeader
  | newFile
  | hunkHeader
  | added
  | context
  | deleted
  | metaLine
  | other

def classifyDiffLine (line : JsString) (inHunk : Bool) : DiffLineKind :=
  if startsWith line (js "diff --git ") then .fileHeader
  else if !inHunk && startsWith line (js "+++ ") then .newFile
  else if startsWith line (js "@@ ") then .hunkHeader
  else if !inHunk then .other
  else if startsWith line (js "+") then .added
  else if startsWith line (js " ") then .context
  else if startsWith line (js "-") then .deleted
  else if startsWith line [SuppressionDiff.backslash] then .metaLine
  else .other

namespace SuppressionDiff

/-- What follows a text at the start of a line. -/
def after? (text line : JsString) : Option JsString :=
  if startsWith line text then some (line.drop text.length) else none

/-- A run of digits and what follows it. -/
def digits? (line : JsString) : Option (JsString × JsString) :=
  if line.takeWhile isDigit = [] then none
  else some (line.takeWhile isDigit, line.dropWhile isDigit)

/-- What follows an optional comma with digits. -/
def afterCount (line : JsString) : JsString :=
  match after? (js ",") line with
  | none => line
  | some rest =>
    match digits? rest with
    | none => line
    | some count => count.2

end SuppressionDiff

/-- The group of `/^@@ -\d+(?:,\d+)? \+(\d+)(?:,\d+)? @@/u`, as a number. -/
def parseHunkStart (line : JsString) : Option Nat := do
  let rest ← SuppressionDiff.after? (js "@@ -") line
  let oldStart ← SuppressionDiff.digits? rest
  let rest ← SuppressionDiff.after? (js " +") (SuppressionDiff.afterCount oldStart.2)
  let start ← SuppressionDiff.digits? rest
  let _ ← SuppressionDiff.after? (js " @@") (SuppressionDiff.afterCount start.2)
  return digitsValue start.1

structure ParsedDiff (Finding : Type) where
  findings : List Finding
  files : List JsString
  currentFile : Option JsString
  inHunk : Bool
  newLine : Nat
  scanState : LineScanState

section
variable {Finding : Type}
  (detectSuppressions : List CommentSegment → SuppressionLocation → List Finding)
  (changedPaths : List JsString)

def scanContent (text : JsString) (currentFile : Option JsString) (scanState : LineScanState) :
    LineScanState :=
  match currentFile with
  | none => scanState
  | some file => if file ∈ changedPaths then (scanCommentSegments text scanState).2 else scanState

def scanAndDetect (text : JsString) (currentFile : Option JsString) (scanState : LineScanState)
    (newLine : Nat) : LineScanState × List Finding :=
  match currentFile with
  | none => (scanState, [])
  | some file =>
    if file ∈ changedPaths then
      let scanned := scanCommentSegments text scanState
      (scanned.2, detectSuppressions scanned.1 ⟨file, newLine, text⟩)
    else (scanState, [])

def startParsedDiff : ParsedDiff Finding := ⟨[], [], none, false, 0, initialLineScanState⟩

def applyDiffLine (state : ParsedDiff Finding) (line : JsString) : ParsedDiff Finding :=
  match classifyDiffLine line state.inHunk with
  | .fileHeader =>
    { state with currentFile := none, inHunk := false, scanState := initialLineScanState }
  | .newFile =>
    let currentFile := parseNewFilePath line changedPaths
    { state with
      currentFile := currentFile
      files := state.files ++ currentFile.toList.filter fun file => file ∉ state.files
      scanState := initialLineScanState }
  | .hunkHeader =>
    match parseHunkStart line with
    | none => state
    | some start =>
      { state with newLine := start, inHunk := true, scanState := initialLineScanState }
  | .added =>
    let result := scanAndDetect detectSuppressions changedPaths (line.drop 1) state.currentFile
      state.scanState state.newLine
    { state with
      scanState := result.1
      findings := state.findings ++ result.2
      newLine := state.newLine + 1 }
  | .context =>
    { state with
      scanState := scanContent changedPaths (line.drop 1) state.currentFile state.scanState
      newLine := state.newLine + 1 }
  | .deleted => state
  | .metaLine => state
  | .other => { state with inHunk := false, scanState := initialLineScanState }

def parseSuppressionDiff (diffText : JsString) : ParsedDiff Finding :=
  ((splitOn Lines.lineFeed (Lines.unifyEnds diffText)).map Lines.dropReturn).foldl
    (applyDiffLine detectSuppressions changedPaths) startParsedDiff

end

/-- The lines of a diff that are visited as added. -/
def visitedLines (diffText : JsString) (changedPaths : List JsString) : List SuppressionLocation :=
  (parseSuppressionDiff (fun _ location => [location]) changedPaths diffText).findings

/-! ## Printed paths -/

inductive DiffPrefix where
  | standard
  | noPrefix
  | mnemonic

/-- What is printed before the path of a new file. -/
def DiffPrefix.text : DiffPrefix → JsString
  | standard => js "b/"
  | noPrefix => []
  | mnemonic => js "w/"

/-- A part of a path as it is printed: a unit as it is, or one or more escapes. -/
inductive PathPiece where
  | plain (c : UInt16)
  | quote
  | backslash
  | escaped (units : JsString) (codes : List JsString)

def PathPiece.units : PathPiece → JsString
  | plain c => [c]
  | quote => [SuppressionDiff.quote]
  | backslash => [SuppressionDiff.backslash]
  | escaped units _ => units

def PathPiece.print : PathPiece → JsString
  | plain c => [c]
  | quote => [SuppressionDiff.backslash, SuppressionDiff.quote]
  | backslash => [SuppressionDiff.backslash, SuppressionDiff.backslash]
  | escaped _ codes => codes.flatMap fun code => SuppressionDiff.backslash :: code

/-- A code is a letter or an octal number. -/
def isPathCode (code : JsString) : Bool := code ≠ [] && code.all fun c => isDigit c || isLowerAlpha c

/-- Control characters, quotes and backslashes are printed as escapes. -/
def PathPiece.Valid : PathPiece → Prop
  | plain c => 0x20 ≤ c ∧ c ≠ SuppressionDiff.quote ∧ c ≠ SuppressionDiff.backslash
  | quote => True
  | backslash => True
  | escaped units codes =>
    codes ≠ [] ∧ SuppressionDiff.backslash ∉ units ∧ ∀ code ∈ codes, isPathCode code = true

def pathText (pieces : List PathPiece) : JsString := pieces.flatMap PathPiece.units

/-- A path relative to the repository, and how it is printed: bare or between quotes, and with a tab
after it or not. -/
structure PrintedPath where
  pieces : List PathPiece
  inQuotes : Bool
  tabbed : Bool
  valid : ∀ piece ∈ pieces, piece.Valid
  bare : inQuotes = false → ∀ piece ∈ pieces, ∃ c, piece = .plain c
  relative : pathText pieces ≠ [] ∧ (pathText pieces).head? ≠ some (unit '/')

def PrintedPath.path (printed : PrintedPath) : JsString := pathText printed.pieces

def PrintedPath.print (diffPrefix : DiffPrefix) (printed : PrintedPath) : JsString :=
  let text := diffPrefix.text ++ printed.pieces.flatMap PathPiece.print
  (if printed.inQuotes then SuppressionDiff.quote :: text ++ [SuppressionDiff.quote] else text) ++
    if printed.tabbed then [SuppressionDiff.tab] else []

/-! ## Printed diffs -/

/-- A line of a hunk. A blank line of context may be printed without its space. -/
inductive HunkLine where
  | context (text : JsString)
  | blankContext
  | added (text : JsString)
  | deleted (text : JsString)
  | noNewline (text : JsString)

def HunkLine.print : HunkLine → JsString
  | context text => unit ' ' :: text
  | blankContext => []
  | added text => unit '+' :: text
  | deleted text => unit '-' :: text
  | noNewline text => SuppressionDiff.backslash :: text

def HunkLine.isAdded : HunkLine → Bool
  | added _ => true
  | _ => false

structure HunkRange where
  start : Nat
  count : Option Nat

def HunkRange.print (range : HunkRange) : JsString :=
  natText range.start ++ match range.count with
    | none => []
    | some count => unit ',' :: natText count

structure DiffHunk where
  oldRange : HunkRange
  newRange : HunkRange
  heading : JsString
  lines : List HunkLine
  oneLine : Lines.lineFeed ∉ heading ∧ ∀ line ∈ lines, Lines.lineFeed ∉ line.print

def DiffHunk.print (hunk : DiffHunk) : List JsString :=
  (js "@@ -" ++ (hunk.oldRange.print ++ (js " +" ++ (hunk.newRange.print ++
    (js " @@" ++ hunk.heading))))) :: hunk.lines.map HunkLine.print

inductive DiffTarget where
  | deletedFile
  | newFile (path : PrintedPath)

def DiffTarget.print (diffPrefix : DiffPrefix) : DiffTarget → JsString
  | deletedFile => js "/dev/null"
  | newFile path => path.print diffPrefix

/-- A file of a diff. Its header has the lines between the first and the one with the new path, which
is printed where there are hunks. -/
structure DiffFile where
  command : JsString
  header : List JsString
  target : DiffTarget
  hunks : List DiffHunk
  oneLine : Lines.lineFeed ∉ command ∧ ∀ line ∈ header, Lines.lineFeed ∉ line
  heading : ∀ line ∈ header, ¬ js "diff --git " <+: line ∧ ¬ js "+++ " <+: line ∧ ¬ js "@@ " <+: line
  deletion : ∀ hunk ∈ hunks, ∀ line ∈ hunk.lines,
    (∃ path, target = .newFile path) ∨ ∃ text, line = .deleted text ∨ line = .noNewline text

def DiffFile.print (diffPrefix : DiffPrefix) (file : DiffFile) : List JsString :=
  (js "diff --git " ++ file.command) :: (file.header ++
    ((if file.hunks.isEmpty then [] else [js "+++ " ++ file.target.print diffPrefix]) ++
      file.hunks.flatMap DiffHunk.print))

def printDiff (diffPrefix : DiffPrefix) (files : List DiffFile) : JsString :=
  Lines.print (files.flatMap (DiffFile.print diffPrefix))

/-! ## What is to be visited -/

/-- The text of a line without the carriage returns that end it, two at most. -/
def visitedText (text : JsString) : JsString := Lines.dropReturn (Lines.dropReturn text)

/-- The added lines among the lines of a hunk, from a line of the new file on. -/
def addedLines (path : JsString) : Nat → List HunkLine → List SuppressionLocation
  | _, [] => []
  | line, .context _ :: lines => addedLines path (line + 1) lines
  | line, .blankContext :: lines => addedLines path (line + 1) lines
  | line, .added text :: lines => ⟨path, line, visitedText text⟩ :: addedLines path (line + 1) lines
  | line, .deleted _ :: lines => addedLines path line lines
  | line, .noNewline _ :: lines => addedLines path line lines

def DiffHunk.addedLines (path : JsString) (hunk : DiffHunk) : List SuppressionLocation :=
  Musi.DriftAi.addedLines path hunk.newRange.start hunk.lines

def DiffFile.path? (file : DiffFile) : Option JsString :=
  match file.target with
  | .deletedFile => none
  | .newFile path => some path.path

def DiffFile.addedLines (file : DiffFile) : List SuppressionLocation :=
  match file.path? with
  | none => []
  | some path => file.hunks.flatMap (DiffHunk.addedLines path)

/-- The files that a diff changes. -/
def changedPathsOf (files : List DiffFile) : List JsString := files.filterMap DiffFile.path?

/-! ## Where they are visited -/

/-- No blank line of context is printed without its space before an added line of its hunk. -/
def isUnbroken : List HunkLine → Bool
  | [] => true
  | .blankContext :: lines => !lines.any HunkLine.isAdded
  | _ :: lines => isUnbroken lines

/-- Quotes and backslashes are the only escapes, a bare path does not end in a white space, and the
prefix is one that is taken off. -/
structure PrintedPath.Recovered (diffPrefix : DiffPrefix) (changedPaths : List JsString)
    (printed : PrintedPath) : Prop where
  unescaped : ∀ units codes, .escaped units codes ∉ printed.pieces
  trimmed : printed.inQuotes = false → ∀ c, printed.path.getLast? = some c → isWhiteSpace c = false
  stripped : match diffPrefix with
    | .standard => js "b/" ++ printed.path ∉ changedPaths
    | .noPrefix => True
    | .mnemonic => False

structure DiffFile.Followed (diffPrefix : DiffPrefix) (changedPaths : List JsString)
    (file : DiffFile) : Prop where
  unbroken : ∀ hunk ∈ file.hunks, isUnbroken hunk.lines = true
  recovered : (∃ hunk ∈ file.hunks, hunk.lines.any HunkLine.isAdded = true) →
    ∀ path, file.target = .newFile path → path.Recovered diffPrefix changedPaths

end Musi.DriftAi
