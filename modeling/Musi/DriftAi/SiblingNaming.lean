import Musi.DriftAi.GhostTokens
import Musi.Js.TokenCounts

namespace Musi.DriftAi
open Musi.Js
set_option autoImplicit true

/-! ## Markers in sibling names -/

inductive SiblingMarkerKind where
  | version
  | lifecycle
  | copyBackup
  deriving DecidableEq

inductive SiblingMarkerPosition where
  | atStart
  | inside
  | atEnd
  deriving DecidableEq

structure SiblingMarker where
  token : JsString
  kind : SiblingMarkerKind
  position : SiblingMarkerPosition
  deriving DecidableEq

inductive SiblingNamingRelation where
  | plainVsMarked
  | markedVsMarked
  deriving DecidableEq

structure SiblingNamingPair where
  leftPath : JsString
  rightPath : JsString
  sharedTokens : List JsString
  leftMarkers : List SiblingMarker
  rightMarkers : List SiblingMarker
  relation : SiblingNamingRelation
  caveats : List JsString
  deriving DecidableEq

structure SiblingNamingConfig where
  lifecycle : List JsString
  copyBackup : List JsString
  versionPattern : JsString → Bool

structure SiblingNamingOptions where
  lifecycle : Option (List JsString)
  copyBackup : Option (List JsString)
  versionPattern : Option (JsString → Bool)
  caveatLabeler : Option (JsString → List JsString)

def defaultSiblingLifecycleMarkers : List JsString :=
  [js "old", js "legacy", js "new", js "deprecated", js "obsolete", js "previous", js "prev"]

def defaultSiblingCopyBackupMarkers : List JsString :=
  [js "copy", js "backup", js "bak", js "orig", js "original", js "tmp", js "temp", js "draft", js "wip"]

/-- `^v\d+$` -/
def defaultSiblingVersionPattern : JsString → Bool
  | [] => false
  | c :: digits => c = unit 'v' && digits ≠ [] && digits.all isDigit

def siblingNamingStandingCaveat : JsString :=
  js ("a variant-marker filename (v2/old/legacy/new/copy/backup/...) is naming evidence, not a " ++
    "deletion verdict: the marked file can be live public-API vocabulary, the current " ++
    "implementation, dynamically imported, reached by reflection / string key, a framework " ++
    "entrypoint, or test-only. Treat sibling naming as a fork lead to investigate, never as proof " ++
    "one sibling replaces another.")

def testOnlyPatterns : List JsString := peerSuffixes "test" ++ peerSuffixes "spec"

def barrelStems : List JsString := [js "index", js "public-api", js "barrel", js "mod"]

def frameworkDirSegments : List JsString := [js "routes", js "pages"]

def frameworkStemSuffixes : List JsString := [js "-route", js "-page", js "-layout"]

def resolveSiblingNamingConfig (options : SiblingNamingOptions) : SiblingNamingConfig where
  lifecycle := options.lifecycle.getD defaultSiblingLifecycleMarkers
  copyBackup := options.copyBackup.getD defaultSiblingCopyBackupMarkers
  versionPattern := options.versionPattern.getD defaultSiblingVersionPattern

/-! ## Tokens -/

/-- `[A-Za-z][a-z]*\d+|[A-Z]+(?![a-z])|[A-Z]?[a-z]+|\d+` at the start of a string: how much it
matches, or nothing. -/
def siblingPartLength : JsString → Nat
  | [] => 0
  | c :: s =>
    let lowers := (s.takeWhile isLowerAlpha).length
    let digits := ((s.drop lowers).takeWhile isDigit).length
    let uppers := ((c :: s).takeWhile isUpperAlpha).length
    let followed := ((c :: s).drop uppers).head?.any isLowerAlpha
    if (isLowerAlpha c || isUpperAlpha c) && digits > 0 then 1 + lowers + digits
    else if uppers > 0 && !followed then uppers
    else if uppers > 1 then uppers - 1
    else if isLowerAlpha c || isUpperAlpha c && lowers > 0 then 1 + lowers
    else ((c :: s).takeWhile isDigit).length

/-- String.prototype.match of that expression with the g flag. -/
def siblingPartsFrom : Nat → JsString → List JsString
  | _, [] => []
  | 0, _ => []
  | fuel + 1, c :: s =>
    let length := siblingPartLength (c :: s)
    if length = 0 then siblingPartsFrom fuel s
    else (c :: s).take length :: siblingPartsFrom fuel ((c :: s).drop length)

section
variable [CaseMapping]

def tokenizeSiblingName (basename : JsString) : List JsString :=
  let segments := (splitWhere (fun c => !isAlphanumeric c) (basenameStem basename)).filter
    fun segment => segment.length ≠ 0
  segments.flatMap fun segment =>
    let found := siblingPartsFrom segment.length segment
    let parts := if found.length > 0 then found else [segment]
    parts.map CaseMapping.toLowerCase

def siblingTokens (path : JsString) : List JsString := tokenizeSiblingName (lastSegment (toPosix path))

def classifySiblingMarker (token : JsString) (config : SiblingNamingConfig) :
    Option SiblingMarkerKind :=
  if token ∈ config.lifecycle then some .lifecycle
  else if token ∈ config.copyBackup then some .copyBackup
  else if config.versionPattern token then some .version
  else none

def contextCaveat (kind : String) (posix : JsString) : JsString :=
  js "risky-context: " ++ js kind ++ js " (" ++ posix ++ js ")"

def siblingPathCaveats (filePath : JsString) : List JsString :=
  let posix := toPosix filePath
  let base := lastSegment posix
  let segments := splitOn slash posix
  let stem := CaseMapping.toLowerCase (basenameStem base)
  (if testOnlyPatterns.any (endsWith base) then [contextCaveat "test-only" posix] else []) ++
    (if stem ∈ barrelStems then [contextCaveat "public-api" posix] else []) ++
    if segments.any (fun segment => segment ∈ frameworkDirSegments) ||
        frameworkStemSuffixes.any (endsWith stem) then [contextCaveat "framework-entrypoint" posix]
    else []

def collectCaveats (leftPath rightPath : JsString) (labeler : Option (JsString → List JsString)) :
    List JsString :=
  let labels (path : JsString) := (labeler.map fun f => f path).getD []
  (siblingNamingStandingCaveat :: siblingPathCaveats leftPath ++ siblingPathCaveats rightPath ++
    labels leftPath ++ labels rightPath).eraseDups

/-! ## Classification -/

def canonicalOrder [Locale] (left right : JsString) : JsString × JsString :=
  if Locale.localeCompare left right ≤ 0 then (left, right) else (right, left)

def extrasAreAllMarkers (extra : List JsString) (config : SiblingNamingConfig) : Bool :=
  extra.all fun token => (classifySiblingMarker token config).isSome

def positionFor (index last : Nat) : SiblingMarkerPosition :=
  if index = 0 then .atStart else if index = last then .atEnd else .inside

/-- The walk over the tokens from an index on, with what is left of the extra ones. -/
def markersFrom (config : SiblingNamingConfig) (last : Nat) :
    Nat → JsMap Nat → List JsString → List SiblingMarker
  | _, _, [] => []
  | index, remaining, token :: tokens =>
    let count := countOf remaining token
    if count = 0 then markersFrom config last (index + 1) remaining tokens
    else
      match classifySiblingMarker token config with
      | none => markersFrom config last (index + 1) remaining tokens
      | some kind => ⟨token, kind, positionFor index last⟩ ::
          markersFrom config last (index + 1) (remaining.set token (count - 1)) tokens

def markersForSide (fileTokens extra : List JsString) (config : SiblingNamingConfig) :
    List SiblingMarker :=
  markersFrom config (fileTokens.length - 1) 0 (countTokens extra) fileTokens

def classifyPair [Locale] (rawLeft rawRight : JsString) (config : SiblingNamingConfig)
    (labeler : Option (JsString → List JsString)) : Option SiblingNamingPair :=
  let (leftPath, rightPath) := canonicalOrder rawLeft rawRight
  let leftTokens := siblingTokens leftPath
  let rightTokens := siblingTokens rightPath
  let shared := multisetIntersection leftTokens rightTokens
  if !shared.any (fun token => (classifySiblingMarker token config).isNone) then none
  else
    let leftExtra := multisetDifference leftTokens rightTokens
    let rightExtra := multisetDifference rightTokens leftTokens
    if !extrasAreAllMarkers leftExtra config || !extrasAreAllMarkers rightExtra config then none
    else
      let leftMarkers := markersForSide leftTokens leftExtra config
      let rightMarkers := markersForSide rightTokens rightExtra config
      if leftMarkers.length + rightMarkers.length = 0 then none
      else some
        { leftPath, rightPath, sharedTokens := shared, leftMarkers, rightMarkers
          relation := if leftMarkers.length > 0 ∧ rightMarkers.length > 0 then .markedVsMarked
            else .plainVsMarked
          caveats := collectCaveats leftPath rightPath labeler }

def classifySiblingPair [Locale] (leftPath rightPath : JsString) (options : SiblingNamingOptions) :
    Option SiblingNamingPair :=
  classifyPair leftPath rightPath (resolveSiblingNamingConfig options) options.caveatLabeler

end

example : tokenizeSiblingName (js "HTTPServerV2-old.copy3.ts") =
    [js "http", js "server", js "v2", js "old", js "copy3"] := by decide +kernel

end Musi.DriftAi
