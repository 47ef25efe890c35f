import Musi.Js.Number
import Musi.Js.Json
import Musi.Js.Buckets
import Musi.DriftAi.PathUtil
import Musi.Js.TokenCounts
import Musi.DriftTriage.TriageReport
import Musi.DriftTriage.VerdictCollect

namespace Musi.DriftTriage
open Musi.Js Musi.DriftAi
set_option autoImplicit true

/-! ## Selection -/

structure TriagePacketFilters where
  priorities : List TriagePriority
  categories : List TriageCategory
  sources : List JsString
  pathPrefixes : List JsString

/-- Filters of which some may be missing. -/
structure PartialFilters where
  priorities : Option (List TriagePriority)
  categories : Option (List TriageCategory)
  sources : Option (List JsString)
  pathPrefixes : Option (List JsString)

structure TriagePacketOptions (N : Type) where
  packetSize : Option N
  filters : Option PartialFilters
  readSourceFile : Option ReadSourceFile

section
variable [DriftAi.Locale]

def uniqueSorted [DecidableEq V] (text : V → JsString) (values : List V) : List V :=
  sortBy (fun left right => DriftAi.Locale.localeCompare (text left) (text right)) values.eraseDups

def normalizeFilters (filters : Option PartialFilters) : TriagePacketFilters where
  priorities := uniqueSorted TriagePriority.text ((filters.bind PartialFilters.priorities).getD [])
  categories := uniqueSorted TriageCategory.text ((filters.bind PartialFilters.categories).getD [])
  sources := uniqueSorted id ((filters.bind PartialFilters.sources).getD [])
  pathPrefixes := uniqueSorted id ((filters.bind PartialFilters.pathPrefixes).getD [])

end

section
variable {N : Type}

def matchesSource (item : TriageItem N) (sources : List JsString) : Bool :=
  item.evidence.any fun evidence => evidence.source ∈ sources

def matchesPathPrefix (item : TriageItem N) (prefixes : List JsString) : Bool :=
  item.locationDetails.any fun location => prefixes.any fun start => startsWith location.path start

def filterFailures (filters : TriagePacketFilters) (item : TriageItem N) : List JsString :=
  (if filters.priorities ≠ [] ∧ item.priority ∉ filters.priorities then [js "priority"] else []) ++
    (if filters.categories ≠ [] ∧ item.category ∉ filters.categories then [js "category"] else []) ++
    (if filters.sources ≠ [] ∧ matchesSource item filters.sources = false then [js "source"]
      else []) ++
    (if filters.pathPrefixes ≠ [] ∧ matchesPathPrefix item filters.pathPrefixes = false
      then [js "pathPrefix"] else [])

def matchesAllFilters (filters : TriagePacketFilters) (item : TriageItem N) : Bool :=
  filterFailures filters item = []

def countFilterExclusions (items : List (TriageItem N)) (filters : TriagePacketFilters) :
    JsMap Nat := countTokens (items.flatMap (filterFailures filters))

structure TriageSelection where
  totalItems : Nat
  selectedItems : Nat
  excludedItems : Nat
  exclusionCounts : JsMap Nat

structure SelectedTriageItems (N : Type) where
  filters : TriagePacketFilters
  items : List (TriageItem N)
  selection : TriageSelection

def selectTriageItems [DriftAi.Locale] (report : TriageReport N) (options : TriagePacketOptions N) :
    SelectedTriageItems N :=
  let filters := normalizeFilters options.filters
  let items := report.items.filter (matchesAllFilters filters)
  ⟨filters, items, report.items.length, items.length, report.items.length - items.length,
    countFilterExclusions report.items filters⟩

/-! ## Lanes -/

inductive LaneSource where
  | semgrep
  | dolos
  | drift
  | mixed
  deriving DecidableEq

def LaneSource.text : LaneSource → JsString
  | semgrep => js "semgrep"
  | dolos => js "dolos"
  | drift => js "drift"
  | mixed => js "mixed"

structure CoreLane where
  priority : TriagePriority
  category : TriageCategory
  source : LaneSource
  deriving DecidableEq

structure TriagePacketLane extends CoreLane where
  area : JsString
  deriving DecidableEq

def evidenceFamily (evidence : TriageEvidence N) : LaneSource :=
  if evidence.source = js "semgrep" then .semgrep
  else if evidence.source = js "dolos" then .dolos
  else .drift

def sourceFamily (item : TriageItem N) : LaneSource :=
  match (item.evidence.map evidenceFamily).eraseDups with
  | [family] => family
  | _ => .mixed

def coreLaneForItem (item : TriageItem N) : CoreLane :=
  ⟨item.priority, item.category, sourceFamily item⟩

def CoreLane.toJson (lane : CoreLane) : Json N :=
  .obj [(js "priority", .str lane.priority.text), (js "category", .str lane.category.text),
    (js "source", .str lane.source.text)]

def laneKey [JsNumber N] (item : TriageItem N) : JsString := stringify (N := N) (coreLaneForItem item).toJson

structure LaneItems (N : Type) where
  lane : CoreLane
  items : List (TriageItem N)

def addToLane (existing : Option (LaneItems N)) (item : TriageItem N) : LaneItems N :=
  match existing with
  | none => ⟨coreLaneForItem item, [item]⟩
  | some existing => ⟨existing.lane, existing.items ++ [item]⟩

/-! ## Components of shared paths -/

def itemPaths (item : TriageItem N) : List JsString :=
  (item.locationDetails.map TriageLocation.path).eraseDups

/-- What is left, and the component with its paths. -/
structure Absorption (N : Type) where
  remaining : List (TriageItem N)
  component : List (TriageItem N)
  paths : List JsString
  found : Bool

/-- The last item is looked at first. -/
def absorbConnected (remaining component : List (TriageItem N)) (paths : List JsString) :
    Absorption N :=
  remaining.foldr (fun candidate state =>
    if (itemPaths candidate).any (· ∈ state.paths) then
      ⟨state.remaining, state.component ++ [candidate], state.paths ++ itemPaths candidate, true⟩
    else { state with remaining := candidate :: state.remaining }) ⟨[], component, paths, false⟩

theorem absorbConnected_cons (candidate : TriageItem N) (remaining component : List (TriageItem N))
    (paths : List JsString) : absorbConnected (candidate :: remaining) component paths =
      let state := absorbConnected remaining component paths
      if (itemPaths candidate).any (· ∈ state.paths) then
        ⟨state.remaining, state.component ++ [candidate], state.paths ++ itemPaths candidate, true⟩
      else { state with remaining := candidate :: state.remaining } := rfl

theorem absorbConnected_length (remaining component : List (TriageItem N)) (paths : List JsString) :
    let state := absorbConnected remaining component paths
    state.remaining.length ≤ remaining.length ∧
      (state.found = true → state.remaining.length < remaining.length) := by
  induction remaining with
  | nil => exact ⟨Nat.le_refl _, by intro h; cases h⟩
  | cons candidate remaining ih =>
    rw [absorbConnected_cons, List.length_cons]
    simp only
    split
    · exact ⟨Nat.le_succ_of_le ih.1, fun _ => Nat.lt_succ_of_le ih.1⟩
    · simp only [List.length_cons]
      exact ⟨Nat.succ_le_succ ih.1, fun h => Nat.succ_lt_succ (ih.2 h)⟩

/-- The inner loop: the component, and what is left. -/
def growComponent (remaining component : List (TriageItem N)) (paths : List JsString) :
    List (TriageItem N) × List (TriageItem N) :=
  let state := absorbConnected remaining component paths
  if state.found then growComponent state.remaining state.component state.paths
  else (state.component, state.remaining)
termination_by remaining.length
decreasing_by exact (absorbConnected_length remaining component paths).2 ‹_›

theorem growComponent_length (remaining component : List (TriageItem N)) (paths : List JsString) :
    (growComponent remaining component paths).2.length ≤ remaining.length := by
  induction remaining, component, paths using growComponent.induct with
  | case1 remaining component paths state hfound ih =>
    rw [growComponent, if_pos hfound]
    exact ih.trans (absorbConnected_length remaining component paths).1
  | case2 remaining component paths state hfound =>
    rw [growComponent, if_neg hfound]
    exact (absorbConnected_length remaining component paths).1

def connectedComponents : List (TriageItem N) → List (List (TriageItem N))
  | [] => []
  | first :: remaining =>
    let grown := growComponent remaining [first] (itemPaths first)
    grown.1 :: connectedComponents grown.2
termination_by items => items.length
decreasing_by exact Nat.lt_succ_of_le (growComponent_length remaining [first] (itemPaths first))

/-! ## Packets of one lane -/

/-- The first prefix that matches wins. -/
def PATH_AREA_TAXONOMY : List (JsString × JsString) :=
  [(js "packages/client/", js "packages/client"), (js "packages/server/", js "packages/server"),
    (js "packages/shared/", js "packages/shared"), (js "scripts/drift-ai/", js "scripts/drift-ai"),
    (js "scripts/", js "scripts"), (js "eslint-rules/", js "eslint-rules")]

def pathArea (path : JsString) : JsString :=
  match PATH_AREA_TAXONOMY.find? fun entry => startsWith path entry.1 with
  | some entry => entry.2
  | none => (splitOn (unit '/') path).head?.getD (js "unknown")

def itemArea (items : List (TriageItem N)) : JsString :=
  match ((items.flatMap itemPaths).map pathArea).eraseDups with
  | [area] => area
  | _ => js "mixed"

structure PacketItemGroup (N : Type) where
  lane : TriagePacketLane
  items : List (TriageItem N)
  splitPathComponent : Bool

def toGroup (lane : CoreLane) (items : List (TriageItem N)) (splitPathComponent : Bool) :
    PacketItemGroup N := ⟨⟨lane, itemArea items⟩, items, splitPathComponent⟩

/-- `Math.ceil(length / size)` -/
def ceilDiv (length size : Nat) : Nat := (length + size - 1) / size

def splitChunks (component : List (TriageItem N)) (baseSize largerChunks : Nat) :
    Nat → Nat → Nat → List (List (TriageItem N))
  | 0, _, _ => []
  | chunks + 1, chunk, offset =>
    let size := baseSize + if chunk < largerChunks then 1 else 0
    (component.drop offset).take size ::
      splitChunks component baseSize largerChunks chunks (chunk + 1) (offset + size)

def splitComponent (lane : CoreLane) (component : List (TriageItem N)) (packetSize : Nat) :
    List (PacketItemGroup N) :=
  let chunkCount := ceilDiv component.length packetSize
  (splitChunks component (component.length / chunkCount) (component.length % chunkCount) chunkCount
    0 0).map fun chunk => toGroup lane chunk true

structure Packing (N : Type) where
  groups : List (PacketItemGroup N)
  pending : List (TriageItem N)

def flush (lane : CoreLane) (packing : Packing N) : Packing N :=
  if packing.pending = [] then packing
  else ⟨packing.groups ++ [toGroup lane packing.pending false], []⟩

def packComponent (lane : CoreLane) (packetSize : Nat) (packing : Packing N)
    (component : List (TriageItem N)) : Packing N :=
  if component.length > packetSize then
    let flushed := flush lane packing
    { flushed with groups := flushed.groups ++ splitComponent lane component packetSize }
  else
    let fitting :=
      if packing.pending.length + component.length > packetSize then flush lane packing else packing
    let added := { fitting with pending := fitting.pending ++ component }
    if added.pending.length = packetSize then flush lane added else added

def packComponents (lane : CoreLane) (components : List (List (TriageItem N))) (packetSize : Nat) :
    List (PacketItemGroup N) :=
  (flush lane (components.foldl (packComponent lane packetSize) ⟨[], []⟩)).groups

def groupPacketItems [JsNumber N] (items : List (TriageItem N)) (packetSize : Nat) : List (PacketItemGroup N) :=
  (groupFold laneKey addToLane JsMap.empty items).entries.flatMap fun entry =>
    packComponents entry.2.lane (connectedComponents entry.2.items) packetSize

/-! ## Packets -/

structure TriageVerdictContract where
  verdicts : List JsString
  severities : List JsString
  confidences : List JsString
  requiredFields : List JsString
  duplicateOfRequires : JsString

def TRIAGE_VERDICT_CONTRACT : TriageVerdictContract where
  verdicts := [js "confirmed", js "false-positive", js "accepted-drift", js "duplicate-of",
    js "needs-human"]
  severities := [js "high", js "medium", js "low", js "informational"]
  confidences := [js "high", js "medium", js "low"]
  requiredFields := [js "itemId", js "verdict", js "severity", js "confidence", js "rationale",
    js "verifiedLocations", js "recommendedAction", js "canonicalItemId"]
  duplicateOfRequires := js "canonicalItemId"

def PACKET_TASK : JsString :=
  js "Inspect the cited source and return one verdict for every item ID. Do not edit code. " ++
    js "Use the manifest's verdict contract, cite concrete evidence, and mark uncertainty as needs-human. " ++
    js "For items listed in disclosures.staleAdvisories, return needs-human and recommend regenerating the advisory."

structure PacketDisclosures (N : Type) where
  policy : TriagePolicy N
  summary : TriageSummary
  inputs : List TriageInputSummary
  deferred : List DeferredGroup
  staleAdvisories : List StaleAdvisoryDisclosure

structure TriagePacket (N : Type) where
  packetId : JsString
  lane : TriagePacketLane
  splitPathComponent : Bool
  itemIds : List JsString
  task : JsString
  verdictContract : TriageVerdictContract
  disclosures : PacketDisclosures N
  items : List (TriageItem N)

structure TriagePacketManifestEntry where
  packetId : JsString
  file : JsString
  itemCount : Nat
  itemIds : List JsString
  lane : TriagePacketLane
  splitPathComponent : Bool
  sha256 : JsString

structure TriagePacketManifest (N : Type) where
  provenance : TriagePacketProvenance
  packetSize : N
  filters : TriagePacketFilters
  selection : TriageSelection
  packets : List TriagePacketManifestEntry

structure TriagePacketBundle (N : Type) where
  manifest : TriagePacketManifest N
  packets : List (TriagePacket N)

def buildPacket [JsNumber N] (report : TriageReport N) (provenance : TriagePacketProvenance)
    (readSourceFile : Option ReadSourceFile) (group : PacketItemGroup N) (index : Nat) :
    TriagePacket N where
  packetId := js "packet-" ++ padStart 3 (natText (index + 1))
  lane := group.lane
  splitPathComponent := group.splitPathComponent
  itemIds := group.items.map TriageItem.id
  task := PACKET_TASK
  verdictContract := TRIAGE_VERDICT_CONTRACT
  disclosures := ⟨report.policy, report.summary, report.inputs, report.deferred,
    findStaleAdvisories group.items provenance readSourceFile report.inputs⟩
  items := group.items

/-- The size as an integer. -/
def validatePacketSize [JsNumber N] (packetSize : N) : Except JsString Nat :=
  match JsNumber.toInt? packetSize with
  | some size =>
    if size ≤ 0 then throw (js "packetSize must be a positive integer") else pure size.toNat
  | none => throw (js "packetSize must be a positive integer")

def manifestEntry (sha256 : TriagePacket N → JsString) (packet : TriagePacket N) :
    TriagePacketManifestEntry :=
  ⟨packet.packetId, packet.packetId ++ js ".json", packet.items.length, packet.itemIds, packet.lane,
    packet.splitPathComponent, sha256 packet⟩

/-- The checksum of a rendered packet is a parameter. -/
def buildTriagePackets [JsNumber N] [DriftAi.Locale] (sha256 : TriagePacket N → JsString)
    (report : TriageReport N)
    (options : TriagePacketOptions N) (provenance : TriagePacketProvenance) :
    Except JsString (TriagePacketBundle N) := do
  let packetSize := options.packetSize.getD (JsNumber.ofInt 20)
  let size ← validatePacketSize packetSize
  let selected := selectTriageItems report options
  let groups := groupPacketItems selected.items size
  let packets := groups.zipIdx.map fun entry =>
    buildPacket report provenance options.readSourceFile entry.1 entry.2
  return ⟨⟨provenance, packetSize, selected.filters, selected.selection,
    packets.map (manifestEntry sha256)⟩, packets⟩

end

end Musi.DriftTriage
