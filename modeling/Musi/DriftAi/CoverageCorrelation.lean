import Musi.DriftAi.PathUtil
import Musi.Js.Joined
import Musi.Js.Number
import Musi.Js.Order
import Musi.Js.Table

namespace Musi.DriftAi
open Musi.Js Lines
set_option autoImplicit true

section
variable {N : Type} [JsNumber N]

/-! ## Evidence -/

structure CoverageFunctionEvidence (N : Type) where
  name : JsString
  line : N
  endLine : Option N
  hits : N

structure CoverageLineEvidence (N : Type) where
  line : N
  hits : N

structure CoverageFileEvidence (N : Type) where
  file : JsString
  functions : List (CoverageFunctionEvidence N)
  lines : List (CoverageLineEvidence N)
  linesFound : N
  linesHit : N
  functionsFound : N
  functionsHit : N

inductive CoverageParseNoteKind where
  | malformedRecord
  | missingEndOfRecord
  | unsupportedFormat
  | emptyArtifact
  deriving DecidableEq

structure CoverageParseNote where
  kind : CoverageParseNoteKind
  detail : JsString
  line : Option Nat

structure ParsedLcov (N : Type) where
  files : List (CoverageFileEvidence N)
  notes : List CoverageParseNote

/-! ## Values -/

/-- `/^-?\d+$/u` -/
def isInteger (s : JsString) : Bool :=
  isDigits (if s.head? = some (unit '-') then s.tail else s)

def toInteger (raw : JsString) : Option N :=
  if isInteger (trim raw) then some (JsNumber.ofInt (intValue (trim raw))) else none

def isPositive (value : N) : Bool := JsNumber.less (JsNumber.ofInt 0) value

def toPositiveInt (raw : JsString) : Option N := (toInteger raw).filter isPositive

def toNonNegativeInt (raw : JsString) : Option N :=
  (toInteger raw).filter fun value => !JsNumber.less value (JsNumber.ofInt 0)

def truncate (value : JsString) : JsString :=
  if value.length ≤ 40 then value else value.take 37 ++ js "..."

def malformed (line : Option Nat) (detail : JsString) : CoverageParseNote :=
  ⟨.malformedRecord, detail, line⟩

def missingEor (file : JsString) : CoverageParseNote :=
  ⟨.missingEndOfRecord, js "source file '" ++ file ++ js "' had no end_of_record", none⟩

/-! ## Sections -/

structure FunctionDecl (N : Type) where
  name : JsString
  line : N
  endLine : Option N

/-- The lines are a Map keyed by line number. -/
structure Section (N : Type) where
  file : JsString
  fnDecls : List (FunctionDecl N)
  fnHits : JsMap N
  lines : List (N × N)
  linesFound : Option N
  linesHit : Option N
  functionsFound : Option N
  functionsHit : Option N

structure LcovParseState (N : Type) where
  files : List (CoverageFileEvidence N)
  notes : List CoverageParseNote
  open_ : Option (Section N)

def newSection (file : JsString) : Section N :=
  ⟨file, [], JsMap.empty, [], none, none, none, none⟩

/-- Map.prototype.set with a line number. -/
def setLine (line hits : N) : List (N × N) → List (N × N)
  | [] => [(line, hits)]
  | e :: es => if e.1 = line then (line, hits) :: es else e :: setLine line hits es

/-- A declaration, or the note of why there is none. -/
def parseFunctionDecl (value : JsString) (lineNo : Nat) :
    Except CoverageParseNote (FunctionDecl N) :=
  let parts := splitOn (unit ',') value
  let malformedRecord := malformed (some lineNo)
    (js "FN record has a malformed line/name '" ++ truncate value ++ js "'")
  match toPositiveInt (parts.headD []) with
  | none => .error malformedRecord
  | some start =>
    if parts.length < 2 then .error malformedRecord
    else
      let second := parts.getD 1 []
      let hasEnd := 3 ≤ parts.length && (toInteger (N := N) second).isSome
      let name := trim (join (js ",") (if hasEnd then parts.drop 2 else parts.drop 1))
      if name.length = 0 then
        .error (malformed (some lineNo)
          (js "FN record has an empty function name '" ++ truncate value ++ js "'"))
      else if !hasEnd then .ok ⟨name, start, none⟩
      else
        match toPositiveInt second with
        | none => .error malformedRecord
        | some end_ =>
          if JsNumber.less end_ start then
            .error (malformed (some lineNo)
              (js "FN record end line precedes start line '" ++ truncate value ++ js "'"))
          else .ok ⟨name, start, some end_⟩

def applyFn (current : Section N) (value : JsString) (lineNo : Nat) :
    Section N × List CoverageParseNote :=
  match parseFunctionDecl value lineNo with
  | .error note => (current, [note])
  | .ok decl =>
    let duplicate := if current.fnDecls.any fun existing => existing.name = decl.name then
      [malformed (some lineNo) (js "duplicate FN record for function '" ++ decl.name ++ js "' in '" ++
        current.file ++
        js "'; FNDA hit counts are name-based and applied to each declaration")]
    else []
    ({ current with fnDecls := current.fnDecls ++ [decl] }, duplicate)

/-- `FNDA:<hits>,<name>` -/
def parseFunctionHits (value : JsString) : Option (JsString × N) :=
  if unit ',' ∈ value then
    let name := trim (value.dropWhile (· ≠ unit ',')).tail
    match toNonNegativeInt (value.takeWhile (· ≠ unit ',')) with
    | none => none
    | some hits => if name.length = 0 then none else some (name, hits)
  else none

def applyFnda (current : Section N) (value : JsString) (lineNo : Nat) :
    Section N × List CoverageParseNote :=
  match parseFunctionHits value with
  | none => (current, [malformed (some lineNo)
      (js "FNDA record has a malformed hits/name '" ++ truncate value ++ js "'")])
  | some (name, hits) => ({ current with fnHits := current.fnHits.set name hits }, [])

/-- `DA:<line>,<hits>[,<checksum>]` -/
def parseLineHits (value : JsString) : Option (N × N) :=
  let parts := splitOn (unit ',') value
  match toPositiveInt (parts.headD []), parts[1]?.bind toNonNegativeInt with
  | some line, some hits => some (line, hits)
  | _, _ => none

def applyDa (current : Section N) (value : JsString) (lineNo : Nat) :
    Section N × List CoverageParseNote :=
  match parseLineHits value with
  | none => (current, [malformed (some lineNo)
      (js "DA record has a malformed line/hits '" ++ truncate value ++ js "'")])
  | some (line, hits) =>
    let differs := (current.lines.lookup line).any (· ≠ hits)
    ({ current with lines := setLine line hits current.lines },
      if differs then [malformed (some lineNo) (js "duplicate DA record for line " ++
        JsNumber.toText line ++ js " with differing hits")] else [])

def COUNT_KEYS : List JsString := [js "FNF", js "FNH", js "LF", js "LH"]

def applyCount (current : Section N) (key value : JsString) (lineNo : Nat) :
    Section N × List CoverageParseNote :=
  match toNonNegativeInt value with
  | none => (current, [malformed (some lineNo)
      (key ++ js " record has a malformed count '" ++ truncate value ++ js "'")])
  | some count =>
    (if key = js "FNF" then { current with functionsFound := some count }
    else if key = js "FNH" then { current with functionsHit := some count }
    else if key = js "LF" then { current with linesFound := some count }
    else { current with linesHit := some count }, [])

def applyRecord (current : Section N) (key value : JsString) (lineNo : Nat) :
    Section N × List CoverageParseNote :=
  if key = js "FN" then applyFn current value lineNo
  else if key = js "FNDA" then applyFnda current value lineNo
  else if key = js "DA" then applyDa current value lineNo
  else if key ∈ COUNT_KEYS then applyCount current key value lineNo
  else (current, [malformed (some lineNo) (js "unrecognized lcov record '" ++ key ++ js "'")])

/-! ## Finished sections -/

/-- The sign of `left - right`, which is all that a sort reads. -/
def subtract (left right : N) : Int :=
  if JsNumber.less left right then -1 else if JsNumber.less right left then 1 else 0

def compareFunctions [Locale] (left right : CoverageFunctionEvidence N) : Int :=
  orElse (subtract left.line right.line) (Locale.localeCompare left.name right.name)

def functionEvidence (current : Section N) (decl : FunctionDecl N) : CoverageFunctionEvidence N :=
  ⟨decl.name, decl.line, decl.endLine,
    (current.fnHits.get decl.name).getD (JsNumber.ofInt 0)⟩

def buildFunctions [Locale] (current : Section N) :
    List (CoverageFunctionEvidence N) × List CoverageParseNote :=
  let declaredNames := current.fnDecls.map FunctionDecl.name
  (sortBy compareFunctions (current.fnDecls.map (functionEvidence current)),
    (current.fnHits.keys.filter (· ∉ declaredNames)).map fun name =>
      malformed none (js "FNDA for function '" ++ name ++ js "' with no matching FN record in '" ++
        current.file ++ js "'"))

def finalizeSection [Locale] (current : Section N) :
    CoverageFileEvidence N × List CoverageParseNote :=
  let functions := (buildFunctions current).1
  let lines := sortBy (fun left right => subtract left.line right.line)
    (current.lines.map fun e => (⟨e.1, e.2⟩ : CoverageLineEvidence N))
  let derivedLinesHit := (lines.filter fun entry => isPositive entry.hits).length
  let derivedFunctionsHit := (functions.filter fun fn => isPositive fn.hits).length
  ({ file := current.file, functions, lines
     linesFound := current.linesFound.getD (JsNumber.ofInt lines.length)
     linesHit := current.linesHit.getD (JsNumber.ofInt derivedLinesHit)
     functionsFound := current.functionsFound.getD (JsNumber.ofInt functions.length)
     functionsHit := current.functionsHit.getD (JsNumber.ofInt derivedFunctionsHit) },
    (buildFunctions current).2)

/-! ## The lines of a report -/

/-- The open section is finished, with the notes that come before its own. -/
def closeSection [Locale] (state : LcovParseState N) (notes : List CoverageParseNote)
    (current : Section N) : LcovParseState N :=
  let finished := finalizeSection current
  ⟨state.files ++ [finished.1], state.notes ++ notes ++ finished.2, none⟩

def handleEndOfRecord [Locale] (state : LcovParseState N) (lineNo : Nat) : LcovParseState N :=
  match state.open_ with
  | none => { state with notes := state.notes ++
      [malformed (some lineNo) (js "end_of_record with no open source-file (SF) record")] }
  | some current => closeSection state [] current

def handleSf [Locale] (state : LcovParseState N) (value : JsString) (lineNo : Nat) : LcovParseState N :=
  let state := match state.open_ with
    | none => state
    | some current => closeSection state [missingEor current.file] current
  let file := toPosix (trim value)
  if file.length = 0 then
    ⟨state.files, state.notes ++ [malformed (some lineNo) (js "SF record has an empty source path")],
      none⟩
  else { state with open_ := some (newSection file) }

def IGNORED_KEYS : List JsString := [js "TN", js "BRDA", js "BRF", js "BRH"]

def handleLine [Locale] (state : LcovParseState N) (line : JsString) (lineNo : Nat) : LcovParseState N :=
  if line = js "end_of_record" then handleEndOfRecord state lineNo
  else if unit ':' ∉ line then
    { state with notes := state.notes ++
        [malformed (some lineNo) (js "unrecognized lcov line '" ++ truncate line ++ js "'")] }
  else
    let key := line.takeWhile (· ≠ unit ':')
    let value := (line.dropWhile (· ≠ unit ':')).tail
    if key ∈ IGNORED_KEYS then state
    else if key = js "SF" then handleSf state value lineNo
    else
      match state.open_ with
      | none => { state with notes := state.notes ++
          [malformed (some lineNo) (key ++ js " record before any source file (SF)")] }
      | some current =>
        let applied := applyRecord current key value lineNo
        ⟨state.files, state.notes ++ applied.2, some applied.1⟩

/-- A line of the report with its index. -/
def parseLine [Locale] (state : LcovParseState N) (entry : JsString × Nat) : LcovParseState N :=
  let line := dropReturn entry.1
  if line.length = 0 then state else handleLine state line (entry.2 + 1)

def parseLcov [Locale] (content : JsString) : ParsedLcov N :=
  let state : LcovParseState N := (splitOn lineFeed content).zipIdx.foldl parseLine ⟨[], [], none⟩
  let state := match state.open_ with
    | none => state
    | some current => closeSection state [missingEor current.file] current
  ⟨sortBy (fun left right => Locale.localeCompare left.file right.file) state.files, state.notes⟩

end

section
variable {N : Type} [JsNumber N]

/-! ## Artifacts -/

inductive CoverageFormat where
  | lcov
  deriving DecidableEq

structure CoverageArtifactEvidence (N : Type) where
  path : JsString
  label : JsString
  format : Option CoverageFormat
  timestamp : Option JsString
  files : List (CoverageFileEvidence N)
  notes : List CoverageParseNote

structure BuildCoverageArtifactEvidenceInput where
  path : JsString
  label : JsString
  content : JsString
  format : Option CoverageFormat
  timestamp : Option JsString

def buildCoverageArtifactEvidence [Locale] (input : BuildCoverageArtifactEvidenceInput) :
    CoverageArtifactEvidence N :=
  match input.format with
  | none => ⟨input.path, input.label, none, input.timestamp, [],
      [⟨.unsupportedFormat, js "no parser for artifact '" ++ input.path ++
        js "'; only lcov (.info) is supported", none⟩]⟩
  | some format =>
    if (trim input.content).length = 0 then ⟨input.path, input.label, some format, input.timestamp, [],
      [⟨.emptyArtifact, js "artifact '" ++ input.path ++ js "' is empty", none⟩]⟩
    else
      let parsed := parseLcov input.content
      ⟨input.path, input.label, some format, input.timestamp, parsed.files, parsed.notes⟩

/-! ## Symbols and rows -/

inductive UnusedExportCategory where
  | exports
  | types
  | enumMembers
  | namespaceMembers
  deriving DecidableEq

def UnusedExportCategory.text : UnusedExportCategory → JsString
  | exports => js "exports"
  | types => js "types"
  | enumMembers => js "enumMembers"
  | namespaceMembers => js "namespaceMembers"

structure UnusedExportSymbol (N : Type) where
  category : UnusedExportCategory
  file : JsString
  name : JsString
  line : Option N
  col : Option N
  namespace_ : Option JsString

inductive CoverageMatchState where
  | covered
  | uncovered
  | unavailable
  deriving DecidableEq

inductive CoverageMatchKind where
  | functionRange
  | line
  | none
  deriving DecidableEq

inductive PathMatchKind where
  | exact
  | suffix
  | none
  deriving DecidableEq

structure ArtifactCoverageResult (N : Type) where
  label : JsString
  path : JsString
  format : Option CoverageFormat
  state : CoverageMatchState
  hits : Option N
  matchedLine : Option N
  matchedEndLine : Option N
  matchKind : CoverageMatchKind
  pathMatch : PathMatchKind
  note : Option JsString

inductive CorrelationAgreement where
  | coveredButUnused
  | uncoveredAndUnused
  | coverageUnavailable
  deriving DecidableEq

def CorrelationAgreement.order : CorrelationAgreement → Int
  | coveredButUnused => 0
  | uncoveredAndUnused => 1
  | coverageUnavailable => 2

structure CoverageUnusedCorrelationRow (N : Type) where
  category : UnusedExportCategory
  file : JsString
  symbol : JsString
  namespace_ : Option JsString
  line : Option N
  col : Option N
  hasLocation : Bool
  agreement : CorrelationAgreement
  coverage : List (ArtifactCoverageResult N)
  caveats : List JsString

structure CoverageUnusedCorrelationStats where
  totalSymbols : Nat
  missingLocation : Nat
  fileNotInAnyArtifact : Nat
  suffixMatched : Nat
  coveredButUnused : Nat
  uncoveredAndUnused : Nat
  coverageUnavailable : Nat

/-- The rows with their ranks, which count from one. -/
structure CoverageUnusedCorrelationResult (N : Type) where
  rows : List (Nat × CoverageUnusedCorrelationRow N)
  stats : CoverageUnusedCorrelationStats

/-! ## Matching -/

structure ArtifactIndex (N : Type) where
  label : JsString
  path : JsString
  format : Option CoverageFormat
  entries : Entries (CoverageFileEvidence N)
  byFile : JsMap (CoverageFileEvidence N)

def buildArtifactIndex (artifact : CoverageArtifactEvidence N) : ArtifactIndex N :=
  let entries := artifact.files.map fun file => (toPosix file.file, file)
  ⟨artifact.label, artifact.path, artifact.format, entries, JsMap.ofList entries⟩

def pathsAlign (left right : JsString) : Bool :=
  endsWith left (slash :: right) || endsWith right (slash :: left)

def matchFile (index : ArtifactIndex N) (symFile : JsString) :
    Option (CoverageFileEvidence N × PathMatchKind) :=
  match index.byFile.get symFile with
  | some exact => some (exact, .exact)
  | none =>
    match index.entries.filter fun entry => pathsAlign entry.1 symFile with
    | [entry] => some (entry.2, .suffix)
    | _ => none

structure WithinMatch (N : Type) where
  hits : N
  kind : CoverageMatchKind
  matchedLine : N
  matchedEndLine : Option N

def functionMatch (fn : CoverageFunctionEvidence N) : WithinMatch N :=
  ⟨fn.hits, .functionRange, fn.line, fn.endLine⟩

/-- `left <= right` -/
def atMost (left right : N) : Bool := !JsNumber.less right left

/-- Whether a line is in the range of a function that has one. -/
def inRange (start : N) (endLine : Option N) (line : N) : Bool :=
  endLine.any fun end_ => atMost start line && atMost line end_

def matchInFile (file : CoverageFileEvidence N) (line : N) : Option (WithinMatch N) :=
  match file.functions.find? fun fn => fn.line = line with
  | some declMatch => some (functionMatch declMatch)
  | none =>
    match file.functions.find? fun fn => inRange fn.line fn.endLine line with
    | some rangeMatch => some (functionMatch rangeMatch)
    | none =>
      (file.lines.find? fun entry => entry.line = line).map fun lineMatch =>
        ⟨lineMatch.hits, .line, lineMatch.line, none⟩

def joinNotes (primary : JsString) : Option JsString → JsString
  | none => primary
  | some secondary => primary ++ js "; " ++ secondary

def unavailable (index : ArtifactIndex N) (pathMatch : PathMatchKind) (note : JsString) :
    ArtifactCoverageResult N :=
  ⟨index.label, index.path, index.format, .unavailable, none, none, none, .none, pathMatch, some note⟩

def resultFromFile (index : ArtifactIndex N) (file : CoverageFileEvidence N)
    (pathMatch : PathMatchKind) (line : N) : ArtifactCoverageResult N :=
  let suffixNote := if pathMatch = .suffix then
    some (js "matched by path suffix; verify source-map alignment") else none
  match matchInFile file line with
  | none => unavailable index pathMatch (joinNotes
      (js "no coverage record at " ++ file.file ++ js ":" ++ JsNumber.toText line) suffixNote)
  | some within =>
    ⟨index.label, index.path, index.format,
      if isPositive within.hits then .covered else .uncovered,
      some within.hits, some within.matchedLine, within.matchedEndLine, within.kind, pathMatch,
      suffixNote⟩

def resultForArtifact (symbol : UnusedExportSymbol N) (index : ArtifactIndex N) :
    ArtifactCoverageResult N :=
  match symbol.line with
  | none => unavailable index .none
      (js "symbol has no source location from knip; cannot align it to a coverage range")
  | some line =>
    match matchFile index (toPosix symbol.file) with
    | none => unavailable index .none (js "file '" ++ toPosix symbol.file ++
        js "' not present in this artifact (path / source-map mismatch)")
    | some (file, pathMatch) => resultFromFile index file pathMatch line

def agreementFor (coverage : List (ArtifactCoverageResult N)) : CorrelationAgreement :=
  let matched := coverage.filter fun result => result.state ≠ .unavailable
  if matched.length = 0 then .coverageUnavailable
  else if matched.any fun result => result.state = .covered then .coveredButUnused
  else .uncoveredAndUnused

def CORRELATION_STANDING_CAVEAT : JsString :=
  js "static-unused (knip) is not a deletion verdict: a symbol can be invisibly reachable via " ++
    js "barrel re-export, dynamic import(), reflection / string-keyed access, framework-entrypoint " ++
    js "registration, or test-only usage. Coverage shows runtime execution for the supplied run(s), " ++
    js "not reachability -- keep 'uncovered' and 'unused' as two separate signals."

def rowForSymbol (indexes : List (ArtifactIndex N))
    (caveatLabeler : Option (UnusedExportSymbol N → List JsString)) (symbol : UnusedExportSymbol N) :
    CoverageUnusedCorrelationRow N :=
  let coverage := indexes.map (resultForArtifact symbol)
  { category := symbol.category
    file := toPosix symbol.file
    symbol := symbol.name
    namespace_ := symbol.namespace_
    line := symbol.line
    col := symbol.col
    hasLocation := symbol.line.isSome
    agreement := agreementFor coverage
    coverage
    caveats := CORRELATION_STANDING_CAVEAT :: (caveatLabeler.map fun label => label symbol).getD [] }

/-! ## Rows in order -/

def MAX_SAFE_INTEGER : N := JsNumber.ofInt (2 ^ 53 - 1)

def compareRows [Locale] (left right : CoverageUnusedCorrelationRow N) : Int :=
  orElse (left.agreement.order - right.agreement.order)
    (orElse (Locale.localeCompare left.file right.file)
      (orElse (subtract (left.line.getD MAX_SAFE_INTEGER) (right.line.getD MAX_SAFE_INTEGER))
        (orElse (Locale.localeCompare left.symbol right.symbol)
          (Locale.localeCompare left.category.text right.category.text))))

def fileMissingEverywhere (row : CoverageUnusedCorrelationRow N) : Bool :=
  row.hasLocation && row.coverage.all fun result => result.pathMatch = .none

def anySuffixMatch (row : CoverageUnusedCorrelationRow N) : Bool :=
  row.coverage.any fun result => result.pathMatch = .suffix

def computeStats (rows : List (CoverageUnusedCorrelationRow N)) : CoverageUnusedCorrelationStats where
  totalSymbols := rows.length
  missingLocation := rows.countP fun row => !row.hasLocation
  fileNotInAnyArtifact := rows.countP fileMissingEverywhere
  suffixMatched := rows.countP anySuffixMatch
  coveredButUnused := rows.countP fun row => row.agreement = .coveredButUnused
  uncoveredAndUnused := rows.countP fun row => row.agreement = .uncoveredAndUnused
  coverageUnavailable := rows.countP fun row => row.agreement = .coverageUnavailable

def correlateCoverageUnusedExports [Locale] (symbols : List (UnusedExportSymbol N))
    (artifacts : List (CoverageArtifactEvidence N))
    (caveatLabeler : Option (UnusedExportSymbol N → List JsString)) :
    CoverageUnusedCorrelationResult N :=
  let indexes := artifacts.map buildArtifactIndex
  let sorted := sortBy compareRows (symbols.map (rowForSymbol indexes caveatLabeler))
  ⟨sorted.zipIdx.map fun entry => (entry.2 + 1, entry.1), computeStats sorted⟩

end

end Musi.DriftAi
