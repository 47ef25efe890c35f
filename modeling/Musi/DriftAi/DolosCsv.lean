import Musi.Js.Record

namespace Musi.DriftAi
open Musi.Js
set_option autoImplicit true

/-! ## Reading CSV -/

def Csv.quote : UInt16 := 0x22
def Csv.comma : UInt16 := 0x2C
def Csv.lineFeed : UInt16 := 0x0A
def Csv.carriageReturn : UInt16 := 0x0D

structure CsvState where
  rows : List (List JsString)
  row : List JsString
  field : JsString
  inQuotes : Bool
  sawCell : Bool

def startCsv : CsvState := ⟨[], [], [], false, false⟩

def endField (state : CsvState) : CsvState :=
  { state with row := state.row ++ [state.field], field := [] }

def endRecord (state : CsvState) : CsvState :=
  let ended := endField state
  { ended with rows := ended.rows ++ [ended.row], row := [] }

/-- The state after a unit between quotes, and how many further units it takes. -/
def consumeQuoted (state : CsvState) (next : Option UInt16) (char : UInt16) : CsvState × Nat :=
  if char ≠ Csv.quote then ({ state with field := state.field ++ [char] }, 0)
  else if next = some Csv.quote then ({ state with field := state.field ++ [Csv.quote] }, 1)
  else ({ state with inQuotes := false }, 0)

def consumeUnquoted (state : CsvState) (next : Option UInt16) (char : UInt16) : CsvState × Nat :=
  if char = Csv.quote then ({ state with inQuotes := true }, 0)
  else if char = Csv.comma then (endField state, 0)
  else if char = Csv.lineFeed ∨ char = Csv.carriageReturn then
    (endRecord state, if char = Csv.carriageReturn ∧ next = some Csv.lineFeed then 1 else 0)
  else ({ state with field := state.field ++ [char] }, 0)

def consumeChar (state : CsvState) (next : Option UInt16) (char : UInt16) : CsvState × Nat :=
  let seen := { state with sawCell := true }
  if seen.inQuotes then consumeQuoted seen next char else consumeUnquoted seen next char

/-- The loop over the text, whose index moves on by the units taken. -/
def parseCsvLoop : CsvState → JsString → CsvState
  | state, [] => state
  | state, [char] => (consumeChar state none char).1
  | state, char :: next :: rest =>
    let consumed := consumeChar state (some next) char
    if consumed.2 = 1 then parseCsvLoop consumed.1 rest else parseCsvLoop consumed.1 (next :: rest)

def finishCsv (state : CsvState) (csv : JsString) : CsvState :=
  if !state.sawCell then state
  else if state.field.length = 0 ∧ state.row.length = 0 ∧ endsWith csv [Csv.lineFeed] then state
  else endRecord state

def parseCsvRows (csv : JsString) : List (List JsString) :=
  (finishCsv (parseCsvLoop startCsv csv) csv).rows

/-- A new object, to which the fields are assigned under their header. -/
def csvObject (header row : List JsString) : Record JsString :=
  Record.assignAll ((header.zipIdx.filter fun key => key.1.length ≠ 0).map fun key =>
    (key.1, (row[key.2]?).getD []))

def isFilledRow (row : List JsString) : Bool := row.any fun field => field.length > 0

def parseCsvObjects (csv : JsString) : List (Record JsString) :=
  match (parseCsvRows csv).filter isFilledRow with
  | [] => []
  | header :: rows => rows.map (csvObject header)

/-! ## Writing CSV -/

def isCsvSpecial (c : UInt16) : Bool := c = Csv.comma || c = Csv.quote || c = Csv.carriageReturn || c = Csv.lineFeed

/-- A field as it is written: bare, or between quotes with its quotes doubled. -/
structure CsvCell where
  text : JsString
  quoted : Bool
  bare : quoted = false → ∀ c ∈ text, isCsvSpecial c = false

def doubleQuotes (text : JsString) : JsString :=
  text.flatMap fun c => if c = Csv.quote then [Csv.quote, Csv.quote] else [c]

def CsvCell.encode (cell : CsvCell) : JsString :=
  if cell.quoted then Csv.quote :: doubleQuotes cell.text ++ [Csv.quote] else cell.text

inductive LineEnd where
  | lf
  | crlf
  | cr

def LineEnd.encode : LineEnd → JsString
  | lf => [Csv.lineFeed]
  | crlf => [Csv.carriageReturn, Csv.lineFeed]
  | cr => [Csv.carriageReturn]

/-- A record, or a blank line when it has no cell. -/
abbrev CsvLine := List CsvCell

def CsvLine.encode (line : CsvLine) : JsString := join [Csv.comma] (line.map CsvCell.encode)

/-- Lines with their terminators, and what stands after the last of them. -/
structure CsvText where
  lines : List (CsvLine × LineEnd)
  last : CsvLine

def encodeLines (lines : List (CsvLine × LineEnd)) : JsString :=
  lines.flatMap fun line => line.1.encode ++ line.2.encode

def CsvText.encode (text : CsvText) : JsString := encodeLines text.lines ++ text.last.encode

def CsvText.records (text : CsvText) : List (List JsString) :=
  ((text.lines.map Prod.fst ++ [text.last]).filter fun line => line.length ≠ 0).map
    (List.map CsvCell.text)

/-- A table and a text that it is written as. -/
structure EncodedTable where
  header : List JsString
  rows : List (List JsString)
  nonempty : ∀ key ∈ header, key ≠ []
  distinct : header.Nodup
  bounded : ∀ row ∈ rows, row.length ≤ header.length
  filled : ∀ row ∈ rows, ∃ field ∈ row, field ≠ []
  text : CsvText
  records : text.records = (header :: rows).filter fun record => record.length ≠ 0

/-- The fields of a row under their header, missing ones empty. -/
def rowFields (header row : List JsString) : Entries JsString :=
  header.zipIdx.map fun key => (key.1, (row[key.2]?).getD [])

/-- The object of each row has exactly the fields of the row. -/
def EncodedTable.Decodes (table : EncodedTable) (objects : List (Record JsString)) : Prop :=
  List.Forall₂ (fun row (object : Record JsString) =>
    ∀ key, object.own key = (rowFields table.header row).lookup key) table.rows objects

end Musi.DriftAi
