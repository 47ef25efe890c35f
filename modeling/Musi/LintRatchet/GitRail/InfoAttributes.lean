import Musi.Js.Text

namespace Musi.LintRatchet
open Musi.Js
set_option autoImplicit true

/-- Legacy shared and old single-driver block markers. -/
def legacyBlockBegins : List JsString :=
  [js "# BEGIN musi baseline merge attributes", js "# BEGIN musi lint-ratchet merge attributes"]

def legacyBlockEnds : List JsString :=
  [js "# END musi baseline merge attributes", js "# END musi lint-ratchet merge attributes"]

structure UnterminatedBlockError where
  deriving DecidableEq

def carriageReturn : UInt16 := 0x0D

def lineFeed : UInt16 := 0x0A

/-- `line.replace(/\r$/u, "")` -/
def stripCr (line : JsString) : JsString :=
  if line.getLast? = some carriageReturn then line.dropLast else line

/-- The first whitespace-delimited field, skipping leading whitespace. -/
def firstToken (line : JsString) : JsString :=
  (line.dropWhile isWhiteSpace).takeWhile fun c => !isWhiteSpace c

/-- The paths of the rows, with and without a leading slash. -/
def managedPathSet (attributeRows : List JsString) : List JsString :=
  attributeRows.flatMap fun row =>
    let path := firstToken row
    if path = [] then []
    else [path, if startsWith path (js "/") then path.drop 1 else js "/" ++ path]

/-- The block that a driver asks for. -/
structure ManagedAttributes where
  managedBegin : JsString
  managedEnd : JsString
  managedAttributes : JsString

structure FoldState where
  kept : List JsString := []
  legacy : Bool := false
  skip : Bool := false
  managedEmitted : Bool := false

structure ManagedBlock where
  beginLine : JsString
  endLine : JsString
  rows : List JsString
  paths : List JsString

def ManagedAttributes.block (input : ManagedAttributes) : ManagedBlock :=
  let rows := splitOn lineFeed input.managedAttributes
  { beginLine := input.managedBegin, endLine := input.managedEnd, rows, paths := managedPathSet rows }

/-- The lines of a block: its marker lines and the rows between them. -/
def ManagedBlock.lines (block : ManagedBlock) : List JsString :=
  block.beginLine :: block.rows ++ [block.endLine]

def foldAttributeLine (block : ManagedBlock) (state : FoldState) (rawLine : JsString) : FoldState :=
  let line := stripCr rawLine
  if line ∈ legacyBlockBegins then { state with legacy := true }
  else if line ∈ legacyBlockEnds then { state with legacy := false }
  else if line = block.beginLine then
    let state := if !state.managedEmitted then
        { state with kept := state.kept ++ block.lines, managedEmitted := true }
      else state
    { state with skip := true }
  else if line = block.endLine then { state with skip := false }
  else if state.skip || firstToken line ∈ block.paths then state
  else { state with kept := state.kept ++ [line] }

/-- The lines of a text, without the empty one that its final newline leaves. -/
def attributeLines (currentAttributes : JsString) : List JsString :=
  let lines := splitOn lineFeed currentAttributes
  if lines.getLast? = some [] then lines.dropLast else lines

def foldExistingAttributes (currentAttributes : JsString) (block : ManagedBlock) :
    Except UnterminatedBlockError (List JsString) :=
  let state := (attributeLines currentAttributes).foldl (foldAttributeLine block) {}
  if state.skip || state.legacy then .error {}
  else .ok (state.kept.rdropWhile fun line => line = [])

def renderBaselineMergeAttributes (currentAttributes : Option JsString) (input : ManagedAttributes) :
    Except UnterminatedBlockError JsString :=
  let block := input.block
  let blockPresent := currentAttributes.any fun text =>
    (splitOn lineFeed text).any fun line => stripCr line = input.managedBegin
  let kept := match currentAttributes with
    | some text => foldExistingAttributes text block
    | none => .ok []
  match kept with
  | .error e => .error e
  | .ok kept =>
    if blockPresent then
      .ok (if kept.length > 0 then join [lineFeed] kept ++ [lineFeed] else [])
    else
      let trailer := join [lineFeed] [input.managedBegin, input.managedAttributes, input.managedEnd]
      if kept.length > 0 then
        .ok (join [lineFeed] kept ++ [lineFeed, lineFeed] ++ trailer ++ [lineFeed])
      else .ok (trailer ++ [lineFeed])

/-- A stale row of the driver is dropped and the block is appended after a blank line. -/
example :
    (renderBaselineMergeAttributes (some (js "unrelated/path merge=union\n/a.json -merge\r\n\n"))
      ⟨js "# BEGIN a", js "# END a", js "a.json merge=a"⟩).toOption =
    some (js "unrelated/path merge=union\n\n# BEGIN a\na.json merge=a\n# END a\n") := by
  decide +kernel

end Musi.LintRatchet
