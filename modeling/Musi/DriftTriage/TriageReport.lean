import Musi.Js.Joined
import Musi.Js.Number

namespace Musi.DriftTriage
set_option autoImplicit true

section
open Musi.Js

/-! ## Reports

A field that may be null is an option; one that may be missing or null is an option of an option. -/

inductive TriagePriority where
  | reviewFirst
  | review
  deriving DecidableEq

def TriagePriority.text : TriagePriority → JsString
  | reviewFirst => js "review-first"
  | review => js "review"

inductive TriageCategory where
  | maintenance
  | structural
  | clone
  | security
  deriving DecidableEq

def TriageCategory.text : TriageCategory → JsString
  | maintenance => js "maintenance"
  | structural => js "structure"
  | clone => js "clone"
  | security => js "security"

section
variable (N : Type) [JsNumber N]

structure TriageLocation where
  path : JsString
  startLine : Option N
  startCol : Option N
  endLine : Option N
  endCol : Option N
  deriving DecidableEq

structure TriageEvidence where
  inputPath : JsString
  source : JsString
  row : N
  detail : Option JsString
  message : Option JsString
  deriving DecidableEq

structure TriageItem where
  id : JsString
  priority : TriagePriority
  category : TriageCategory
  title : JsString
  locations : List JsString
  locationDetails : List (TriageLocation N)
  evidence : List (TriageEvidence N)
  deriving DecidableEq

end

inductive TriageInputKind where
  | driftReport
  | semgrepAdvisory
  | dolosAdvisory
  deriving DecidableEq

structure ScanProvenance where
  gitHead : Option JsString
  gitDirty : Option Bool
  stateFingerprint : Option (Option JsString)
  changedDuringScan : Option (Option Bool)
  deriving DecidableEq

structure TriageInputSummary where
  path : JsString
  kind : TriageInputKind
  scanProvenance : Option ScanProvenance
  deriving DecidableEq

structure TriagePolicy (N : Type) where
  includeLiterals : Bool
  includeTypeOnlyCycles : Bool
  minCloneFragment : N

structure TriageSummary where
  inputRows : Nat
  reviewRows : Nat
  reviewItems : Nat
  deferredRows : Nat
  mergedRows : Int
  unshownRows : Nat
  inputsWithUnknownTail : Nat

structure DeferredGroup where
  reason : JsString
  count : Nat
  description : JsString

structure TriageReport (N : Type) where
  policy : TriagePolicy N
  summary : TriageSummary
  inputs : List TriageInputSummary
  deferred : List DeferredGroup
  items : List (TriageItem N)

end

section
open Musi.Js Lines

/-! ## Advisories that a packet should not trust -/

inductive StaleReason where
  | missingScanProvenance
  | provenanceUnavailable
  | gitHeadMismatch
  | dirtyStateMismatch
  | stateFingerprintMismatch
  | repositoryChangedDuringScan
  | unresolvableLocation
  deriving DecidableEq

structure TriagePacketProvenance where
  gitHead : Option JsString
  gitDirty : Option Bool
  stateFingerprint : Option (Option JsString)
  inputHashes : List (JsString × JsString)

structure StaleAdvisoryDisclosure where
  inputPath : JsString
  itemIds : List JsString
  scanProvenance : Option ScanProvenance
  reasons : List StaleReason
  unresolvableLocations : List JsString

def scanStabilityReasons : Option (Option Bool) → List StaleReason
  | some (some true) => [.repositoryChangedDuringScan]
  | some none => [.provenanceUnavailable]
  | _ => []

def stateFingerprintReasons : Option (Option JsString) → Option (Option JsString) → List StaleReason
  | none, _ => []
  | some (some scan), some (some current) =>
    if scan = current then [] else [.stateFingerprintMismatch]
  | _, _ => [.provenanceUnavailable]

def appendUniqueReasons (target additions : List StaleReason) : List StaleReason :=
  additions.foldl (fun target reason => if reason ∈ target then target else target ++ [reason]) target

def gitHeadReasons (scan current : Option JsString) : List StaleReason :=
  match scan, current with
  | some scan, some current => if scan = current then [] else [.gitHeadMismatch]
  | _, _ => [.provenanceUnavailable]

def dirtyStateReasons (scan current : Option Bool) : List StaleReason :=
  match scan, current with
  | some scan, some current => if scan = current then [] else [.dirtyStateMismatch]
  | _, _ => [.provenanceUnavailable]

/-- A missing head is listed even when the scan was listed as unavailable already. -/
def provenanceReasons (input : TriageInputSummary) (current : TriagePacketProvenance) :
    List StaleReason :=
  match input.scanProvenance with
  | none => [.missingScanProvenance]
  | some scan =>
    let reasons := scanStabilityReasons scan.changedDuringScan ++
      gitHeadReasons scan.gitHead current.gitHead
    let reasons := appendUniqueReasons reasons (dirtyStateReasons scan.gitDirty current.gitDirty)
    appendUniqueReasons reasons
      (stateFingerprintReasons scan.stateFingerprint current.stateFingerprint)

/-! ## Locations -/

/-- `contents.split(/\r?\n/)`, the empty last line left out. -/
def splitLines (contents : JsString) : List JsString :=
  if contents = [] then []
  else
    let lines := splitOn lineFeed (unifyEnds contents)
    if lines.getLast? = some [] then lines.dropLast else lines

/-- `Buffer.byteLength(text, "utf8")`; a surrogate without its other half is replaced. -/
def byteLength : JsString → Nat
  | [] => 0
  | [c] => if c < 0x80 then 1 else if c < 0x800 then 2 else 3
  | c :: d :: s =>
    if isHighSurrogate c && isLowSurrogate d then 4 + byteLength s
    else (if c < 0x80 then 1 else if c < 0x800 then 2 else 3) + byteLength (d :: s)

section
variable {N : Type} [JsNumber N]

def lineRangeValid (startLine endLine : N) (lineCount : Nat) : Bool :=
  match JsNumber.toInt? startLine, JsNumber.toInt? endLine with
  | some first, some last => 1 ≤ first && first ≤ last && last ≤ (lineCount : Int)
  | _, _ => false

/-- The columns of a range on one line go up. -/
def columnsOrdered (location : TriageLocation N) : Bool :=
  if location.startLine ≠ location.endLine then true
  else match location.startCol, location.endCol with
    | some startCol, some endCol => !JsNumber.less endCol startCol
    | _, _ => true

/-- Columns count bytes from one; the end of the line is a column. -/
def columnResolves (col : Option N) (lineText : Option JsString) : Bool :=
  match col, lineText with
  | none, _ => true
  | some _, none => false
  | some col, some lineText =>
    match JsNumber.toInt? col with
    | none => false
    | some col => 1 ≤ col && col ≤ (byteLength lineText + 1 : Int)

def lineAt (lines : List JsString) (line : N) : Option JsString :=
  (JsNumber.toInt? line).bind fun line => lines[(line - 1).toNat]?

/-- What reading a source file gives; a read that throws or finds no file gives null. -/
abbrev ReadSourceFile := JsString → Option JsString

def rangeResolves (location : TriageLocation N) (readSourceFile : ReadSourceFile) : Bool :=
  match location.startLine, location.endLine with
  | some startLine, some endLine =>
    match (readSourceFile location.path).map splitLines with
    | none => false
    | some lines =>
      lineRangeValid startLine endLine lines.length && columnsOrdered location &&
        columnResolves location.startCol (lineAt lines startLine) &&
        columnResolves location.endCol (lineAt lines endLine)
  | _, _ => true

def formatStalenessLocation (location : TriageLocation N) : JsString :=
  match location.startLine, location.endLine with
  | some startLine, some endLine =>
    match location.startCol, location.endCol with
    | some startCol, some endCol =>
      location.path ++ js ":" ++ JsNumber.toText startLine ++ js ":" ++ JsNumber.toText startCol ++
        js "-" ++ JsNumber.toText endLine ++ js ":" ++ JsNumber.toText endCol
    | _, _ =>
      location.path ++ js ":" ++ JsNumber.toText startLine ++ js "-" ++ JsNumber.toText endLine
  | _, _ => location.path

def unresolvedLocations (items : List (TriageItem N)) (readSourceFile : Option ReadSourceFile) :
    List JsString :=
  match readSourceFile with
  | none => []
  | some readSourceFile =>
    (((items.flatMap TriageItem.locationDetails).filter fun location =>
      !rangeResolves location readSourceFile).map formatStalenessLocation).eraseDups

/-! ## Disclosures -/

variable (items : List (TriageItem N)) (provenance : TriagePacketProvenance)
  (readSourceFile : Option ReadSourceFile)

def affectedItems (input : TriageInputSummary) : List (TriageItem N) :=
  items.filter fun item => item.evidence.any fun evidence => evidence.inputPath = input.path

def staleReasons (input : TriageInputSummary) : List StaleReason :=
  let unresolvable := unresolvedLocations (affectedItems items input) readSourceFile
  provenanceReasons input provenance ++ if unresolvable = [] then [] else [.unresolvableLocation]

def staleAdvisory (input : TriageInputSummary) : Option StaleAdvisoryDisclosure :=
  if input.kind = .driftReport then none
  else if affectedItems items input = [] then none
  else if staleReasons items provenance readSourceFile input = [] then none
  else some ⟨input.path, (affectedItems items input).map TriageItem.id, input.scanProvenance,
    staleReasons items provenance readSourceFile input,
    unresolvedLocations (affectedItems items input) readSourceFile⟩

def findStaleAdvisories (inputs : List TriageInputSummary) : List StaleAdvisoryDisclosure :=
  inputs.filterMap (staleAdvisory items provenance readSourceFile)

end

end

end Musi.DriftTriage
