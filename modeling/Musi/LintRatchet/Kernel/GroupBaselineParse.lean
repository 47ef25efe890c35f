import Musi.LintRatchet.Kernel.GroupBaseline

namespace Musi.LintRatchet
open Musi.Js
set_option autoImplicit true

variable {N : Type} [JsNumber N] {GroupMeta Item : Type}

/-- GIT_CONFLICT_MARKER_PATTERN: a line that starts with seven `<` and a space. -/
def hasConflictMarker (text : JsString) : Bool :=
  startsWith text (js "<<<<<<< ") || text.tails.any fun t =>
    match t with
    | c :: rest => (c = 0x0A || c = 0x0D || c = 0x2028 || c = 0x2029) &&
        startsWith rest (js "<<<<<<< ")
    | [] => false

def baselineConflictMarkerTripwire (text : JsString)
    (remediation : Option BaselineConflictMarkerRemediation) : Option JsString :=
  match remediation with
  | none => none
  | some remediation =>
    if !hasConflictMarker text then none
    else
      let resolution :=
        if remediation.reconcileEntries then
          js "then reconcile entries from both sides and normalize with `" ++
            remediation.updateCommand ++ js "`; " ++
            js "never hand-merge conflict markers in this file."
        else
          js "then resolve by regenerating with `" ++ remediation.updateCommand ++ js "`; " ++
            js "never hand-merge this file."
      some (remediation.baselineFile ++
        js " is generated; Git conflict markers mean its semantic merge driver was not installed. " ++
        js "Run `" ++ remediation.installerCommand ++ js "`, restore a parseable side with " ++
        js "`" ++ remediation.restoreOursCommand ++ js "` " ++
        js "(always use stage 2/`--ours`; during rebase stage 2 is the upstream base, not the branch being rebased; if the markers were already committed, restore that side from a parent commit first), " ++
        resolution ++
        js " Inspect the resulting baseline against both sides before staging; preserve any lower floor from the other side or explicitly accept the regression.")

def parseJsonText [Host] (text : JsString)
    (remediation : Option BaselineConflictMarkerRemediation) : GroupedParseResult (Json N) :=
  match parseJson text with
  | some value => .ok value []
  | none => .failure ((baselineConflictMarkerTripwire text remediation).getD
      (js "baseline is not valid JSON: " ++ Host.jsonSyntaxError text)) none

/-- z.record and z.looseObject copy an object without the name `__proto__`. -/
def recordFields (v : Json N) : Option (Entries (Json N)) :=
  v.asRecord.map fun fields => fields.filter fun e => e.1 ≠ js "__proto__"

/-- z.number().int(): a safe integer. -/
def safeInteger (v : Json N) : Option Int :=
  match v with
  | .num n => (JsNumber.toInt? n).filter fun k => k.natAbs < 2 ^ 53
  | _ => none

def isInteger (v : Json N) : Bool :=
  match v with
  | .num n => (JsNumber.toInt? n).isSome
  | _ => false

def invalidEnvelopeError (rootKey : RootKey) (envelope : Entries (Json N)) : JsString :=
  if !((List.lookup (js "version") envelope).any isInteger) then
    js "baseline version must be an integer"
  else match rootKey with
    | .tests => js "baseline tests must be an object"
    | .entries => js "baseline entries must be an array"

/-- The version of an envelope that the schema of its document family accepts. -/
def envelopeVersion (rootKey : RootKey) (envelope : Entries (Json N)) : Option Int :=
  let rootOk := match List.lookup rootKey.text envelope with
    | some root =>
      match rootKey, root with
      | .tests, .obj _ => true
      | .entries, .arr _ => true
      | _, _ => false
    | none => false
  if rootOk then (List.lookup (js "version") envelope).bind safeInteger else none

def otherRootKey : RootKey → RootKey
  | .tests => .entries
  | .entries => .tests

def numberList (N : Type) [JsNumber N] (ns : List Nat) : JsString :=
  join (js ", ") (ns.map fun n => numberText N n)

def checkedEnvelope (spec : GroupedBaselineSpec N GroupMeta Item) (raw : Json N) :
    GroupedParseResult (Nat × Entries (Json N)) :=
  match recordFields raw with
  | none => .failure (js "baseline must be a JSON object") none
  | some envelope =>
    let hasKey (key : RootKey) : Bool := (List.lookup key.text envelope).isSome
    if !hasKey spec.rootKey && hasKey (otherRootKey spec.rootKey) then
      .failure (js "baseline has wrong document family: expected '" ++ spec.rootKey.text ++
        js "', found '" ++ (otherRootKey spec.rootKey).text ++ js "'") none
    else match envelopeVersion spec.rootKey envelope with
      | none => .failure (invalidEnvelopeError spec.rootKey envelope) none
      | some version =>
        if spec.acceptedReadVersions.any fun accepted => (accepted : Int) = version then
          .ok (version.toNat, envelope) []
        else match spec.acceptedReadVersions with
          | [accepted] => .failure (js "baseline version must be " ++ numberText N accepted) none
          | accepted =>
            .failure (js "baseline version must be one of " ++ numberList N accepted) none

/-! ## The tests family -/

/-- The failure of a key that breaks the order required on parse. -/
def unsortedFailure (required : Bool) (compare : JsString → JsString → Int) (what : JsString)
    (previousKey : Option JsString) (key : JsString) : List JsString :=
  match previousKey with
  | none => []
  | some previous =>
    if required && compare previous key > 0 then
      [what ++ js " must be sorted by key; '" ++ key ++ js "' follows '" ++ previous ++ js "'"]
    else []

/-- What a parse loop has gathered. -/
structure Gathered (T : Type) where
  values : List T := []
  warnings : List JsString := []
  failures : List JsString := []

def Gathered.append {T : Type} (a b : Gathered T) : Gathered T where
  values := a.values ++ b.values
  warnings := a.warnings ++ b.warnings
  failures := a.failures ++ b.failures

def parseObjectItem (spec : GroupedBaselineSpec N GroupMeta Item) (groupId itemKey : JsString)
    (rawItem : Json N) : Gathered (KeyedGroupedItem Item) :=
  let location := groupId ++ js ".items." ++ itemKey
  match spec.parseItem groupId (some itemKey) rawItem with
  | .failure error errors =>
    { failures := (failureList error errors).map fun failure => location ++ js ": " ++ failure }
  | .ok value warnings =>
    if value.key ≠ itemKey then { failures := [location ++ js ": parsed item key differs"] }
    else { values := [value], warnings }

def parseObjectItems (spec : GroupedBaselineSpec N GroupMeta Item) (groupId : JsString) :
    Option JsString → Entries (Json N) → Gathered (KeyedGroupedItem Item)
  | _, [] => {}
  | previousKey, (itemKey, rawItem) :: rest =>
    let unsorted := unsortedFailure spec.requireSortedKeysOnParse spec.compareItemKeys
      (groupId ++ js ".items") previousKey itemKey
    (Gathered.append { failures := unsorted } (parseObjectItem spec groupId itemKey rawItem)).append
      (parseObjectItems spec groupId (some itemKey) rest)

def keyedItemMap (items : List (KeyedGroupedItem Item)) : JsMap Item :=
  JsMap.ofList (items.map fun i => (i.key, i.item))

def groupFailures (groupId error : JsString) (errors : Option (List JsString)) : List JsString :=
  (failureList error errors).map fun failure => groupId ++ js ": " ++ failure

/-- A group whose items container is broken still has its metadata checked. -/
def collectBrokenGroupMetaFailures (spec : GroupedBaselineSpec N GroupMeta Item)
    (groupId : JsString) (rawGroup : Json N) : List JsString :=
  match recordFields rawGroup with
  | none => []
  | some fields =>
    match spec.parseGroupMeta groupId fields [] with
    | .ok _ _ => []
    | .failure error errors => groupFailures groupId error errors

abbrev KeyedGroup (GroupMeta Item : Type) := JsString × GroupedBaselineGroup GroupMeta Item

def parseTestGroup (spec : GroupedBaselineSpec N GroupMeta Item) (groupId : JsString)
    (rawGroup : Json N) : Gathered (KeyedGroup GroupMeta Item) :=
  match (recordFields rawGroup).bind fun fields =>
      ((List.lookup (js "items") fields).bind recordFields).map fun items => (fields, items) with
  | none =>
    { failures := (groupId ++ js ": baseline group must contain an items object") ::
        collectBrokenGroupMetaFailures spec groupId rawGroup }
  | some (fields, rawItems) =>
    let items := parseObjectItems spec groupId none rawItems
    match spec.parseGroupMeta groupId fields items.values with
    | .failure error errors =>
      { warnings := items.warnings, failures := items.failures ++ groupFailures groupId error errors }
    | .ok groupMeta warnings =>
      { values := [(groupId, { groupMeta, items := keyedItemMap items.values })],
        warnings := items.warnings ++ warnings, failures := items.failures }

def parseTestGroups (spec : GroupedBaselineSpec N GroupMeta Item) :
    Option JsString → Entries (Json N) → Gathered (KeyedGroup GroupMeta Item)
  | _, [] => {}
  | previousGroupId, (groupId, rawGroup) :: rest =>
    let unsorted := unsortedFailure spec.requireSortedKeysOnParse spec.compareGroupKeys
      (js "baseline tests") previousGroupId groupId
    (Gathered.append { failures := unsorted } (parseTestGroup spec groupId rawGroup)).append
      (parseTestGroups spec (some groupId) rest)

abbrev GroupMap (GroupMeta Item : Type) := JsMap (GroupedBaselineGroup GroupMeta Item)

def parseTestsFamily (spec : GroupedBaselineSpec N GroupMeta Item) (envelope : Entries (Json N)) :
    GroupedParseResult (GroupMap GroupMeta Item) :=
  match (List.lookup (js "tests") envelope).bind recordFields with
  | none => .failure (js "baseline tests must be an object") none
  | some rawTests =>
    let groups := parseTestGroups spec none rawTests
    match groups.failures with
    | [] => .ok (JsMap.ofList groups.values) groups.warnings
    | error :: errors => .failure error (some (error :: errors))

/-! ## The entries family -/

/-- The items of an array of entries, up to the first that cannot be taken. -/
def parseArrayItems (spec : GroupedBaselineSpec N GroupMeta Item) (groupId : JsString)
    (index : Nat) (seen : List JsString) :
    List (Json N) → GroupedParseResult (List (KeyedGroupedItem Item))
  | [] => .ok [] []
  | raw :: rest =>
    match spec.parseItem groupId none raw with
    | .failure error _ =>
      .failure (js "baseline entries[" ++ numberText N index ++ js "]: " ++ error) none
    | .ok value warnings =>
      if value.key ∈ seen then
        .failure (js "baseline has duplicate entry key '" ++ value.key ++ js "'") none
      else match unsortedFailure spec.requireSortedKeysOnParse spec.compareItemKeys
          (js "baseline entries") seen.head? value.key with
        | failure :: _ => .failure failure none
        | [] =>
          match parseArrayItems spec groupId (index + 1) (value.key :: seen) rest with
          | .failure error errors => .failure error errors
          | .ok values more => .ok (value :: values) (warnings ++ more)

def parseEntriesFamily (spec : GroupedBaselineSpec N GroupMeta Item)
    (envelope : Entries (Json N)) : GroupedParseResult (GroupMap GroupMeta Item) :=
  match spec.singleGroupId with
  | none => .failure (js "entries-family codec requires a singleGroupId") none
  | some groupId =>
    match List.lookup (js "entries") envelope with
    | some (.arr rawEntries) =>
      match parseArrayItems spec groupId 0 [] rawEntries with
      | .failure error errors => .failure error errors
      | .ok items warnings =>
        match spec.parseGroupMeta groupId envelope items with
        | .failure error errors => .failure error errors
        | .ok groupMeta more =>
          .ok (JsMap.ofList [(groupId, { groupMeta, items := keyedItemMap items })])
            (warnings ++ more)
    | _ => .failure (js "baseline entries must be an array") none

/-! ## The document -/

def collectRegenerateWarning (spec : GroupedBaselineSpec N GroupMeta Item)
    (envelope : Entries (Json N)) : List JsString :=
  match List.lookup (js "regenerate") envelope, spec.regenerate with
  | some committed, some regenerate =>
    if committed = .str regenerate then []
    else [js "baseline regenerate annotation is stale; regenerate with `" ++ regenerate ++
      js "` (committed " ++ stringify committed ++ js ")"]
  | _, _ => []

def parseGroupedBaselineDocument [Host] (spec : GroupedBaselineSpec N GroupMeta Item)
    (text : JsString) : GroupedParseResult (GroupedBaseline N GroupMeta Item) :=
  match parseJsonText text spec.conflictMarkerRemediation with
  | .failure error errors => .failure error errors
  | .ok raw _ =>
    match checkedEnvelope spec raw with
    | .failure error errors => .failure error errors
    | .ok (version, envelope) _ =>
      let groups := match spec.rootKey with
        | .tests => parseTestsFamily spec envelope
        | .entries => parseEntriesFamily spec envelope
      match groups with
      | .failure error errors => .failure error errors
      | .ok groups warnings =>
        .ok { version, regenerate := List.lookup (js "regenerate") envelope, groups }
          (collectRegenerateWarning spec envelope ++ warnings)

end Musi.LintRatchet
