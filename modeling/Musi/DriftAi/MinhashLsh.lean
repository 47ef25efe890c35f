import Mathlib.Data.Rat.Defs
import Mathlib.Algebra.Order.Ring.Unbundled.Rat
import Musi.Js.Buckets
import Musi.Js.Order
import Musi.Js.Number
import Musi.DriftAi.FeatureHash
import Musi.DriftAi.PathUtil

namespace Musi.DriftAi
open Musi.Js
set_option autoImplicit true

/-- The arithmetic of doubles, rounding included. -/
class JsArithmetic (N : Type) where
  multiply : N → N → N
  divide : N → N → N
  round : N → N

structure MinHashOptions where
  shingleSize : Option Rat := none
  bands : Option Rat := none
  rowsPerBand : Option Rat := none
  maxShinglesPerDocument : Option Rat := none
  maxCandidatePairs : Option Rat := none

/-- Numbers of at least one. -/
structure ResolvedMinHashConfig where
  shingleSize : Nat
  bands : Nat
  rowsPerBand : Nat
  maxShinglesPerDocument : Nat
  maxCandidatePairs : Nat
  bands_pos : 0 < bands
  rowsPerBand_pos : 0 < rowsPerBand

structure MinHashDocument where
  id : JsString
  features : List JsString
  deriving DecidableEq

structure LshCandidatePair (N : Type) where
  a : JsString
  b : JsString
  estimatedSimilarity : N
  deriving DecidableEq

structure LshCandidateResult (N : Type) where
  candidates : List (LshCandidatePair N)
  config : ResolvedMinHashConfig
  consideredDocuments : Nat
  totalDocuments : Nat
  shingleTruncatedDocuments : Nat
  candidatePairsTruncated : Bool

def positiveInt (value : Option Rat) (fallback : Nat) : Nat :=
  match value with
  | none => fallback
  | some value => if value.den ≠ 1 ∨ value ≤ 0 then fallback else value.num.toNat

theorem positiveInt_pos {value : Option Rat} {fallback : Nat} (h : 0 < fallback) :
    0 < positiveInt value fallback := by
  cases value with
  | none => exact h
  | some value =>
    rw [positiveInt]
    split
    · exact h
    · next hvalue =>
      have hnum : 0 < value.num := Rat.num_pos.2 (not_le.1 (not_or.1 hvalue).2)
      omega

def resolveMinHashConfig (options : MinHashOptions) : ResolvedMinHashConfig where
  shingleSize := positiveInt options.shingleSize 3
  bands := positiveInt options.bands 24
  rowsPerBand := positiveInt options.rowsPerBand 4
  maxShinglesPerDocument := positiveInt options.maxShinglesPerDocument 4096
  maxCandidatePairs := positiveInt options.maxCandidatePairs 50000
  bands_pos := positiveInt_pos (by omega)
  rowsPerBand_pos := positiveInt_pos (by omega)

def ResolvedMinHashConfig.signatureLength (config : ResolvedMinHashConfig) : Nat :=
  config.bands * config.rowsPerBand

/-! ## Signatures -/

/-- The overlapping runs of a length. -/
def windows (size : Nat) : List JsString → List (List JsString)
  | [] => []
  | feature :: features =>
    if size ≤ features.length + 1 then (feature :: features).take size :: windows size features
    else []

def buildShingles (features : List JsString) (shingleSize : Nat) : List JsString :=
  if features.length = 0 then []
  else
    let size := max 1 shingleSize
    if features.length ≤ size then [join (js "|") features]
    else ((windows size features).map (join (js "|"))).eraseDups

def mix32 (value : UInt32) : UInt32 :=
  let hash := value ^^^ (value >>> 16)
  let hash := hash * 0x85ebca6b
  let hash := hash ^^^ (hash >>> 13)
  let hash := hash * 0xc2b2ae35
  hash ^^^ (hash >>> 16)

/-- The least mixed hash for every seed. The source keeps all minima in one pass over the
shingles. -/
def computeSignature (shingles : List JsString) (seeds : List UInt32) : List UInt32 :=
  seeds.map fun seed => shingles.foldl (fun least shingle =>
    let candidate := mix32 (hashFeature32 shingle ^^^ seed)
    if candidate < least then candidate else least) 0xffffffff

def estimateSimilarity (N : Type) [JsNumber N] [JsArithmetic N] (left right : List UInt32) : N :=
  if left.length = 0 ∨ left.length ≠ right.length then JsNumber.ofInt 0
  else
    let agreements := (left.zip right).countP fun (l, r) => l = r
    let share := JsArithmetic.divide (JsNumber.ofInt agreements : N) (JsNumber.ofInt left.length)
    JsArithmetic.divide (JsArithmetic.round (JsArithmetic.multiply share (JsNumber.ofInt 1000)))
      (JsNumber.ofInt 1000)

def buildSeeds (signatureLength : Nat) : List UInt32 :=
  (List.range signatureLength).map fun index => hashFeature32 (js "minhash-seed:" ++ natText index)

/-! ## Buckets and pairs -/

/-- A document with at least one shingle. -/
structure PreparedDocument where
  id : JsString
  signature : List UInt32
  deriving DecidableEq

section
variable [Locale]

def cappedShingles (shingles : List JsString) (cap : Nat) : List JsString :=
  if shingles.length ≤ cap then shingles else (sortBy Locale.localeCompare shingles).take cap

def documentShingles (config : ResolvedMinHashConfig) (document : MinHashDocument) : List JsString :=
  cappedShingles (buildShingles document.features config.shingleSize) config.maxShinglesPerDocument

def orderedDocuments (documents : List MinHashDocument) : List MinHashDocument :=
  sortBy (fun left right => Locale.localeCompare left.id right.id) documents

def prepareDocuments (documents : List MinHashDocument) (config : ResolvedMinHashConfig) :
    List PreparedDocument :=
  ((orderedDocuments documents).filter fun document => documentShingles config document ≠ []).map
    fun document =>
      { id := document.id
        signature := computeSignature (documentShingles config document)
          (buildSeeds config.signatureLength) }

def shingleTruncatedDocuments (documents : List MinHashDocument) (config : ResolvedMinHashConfig) :
    Nat :=
  (orderedDocuments documents).countP fun document =>
    (documentShingles config document).length <
      (buildShingles document.features config.shingleSize).length

end

def bandRows (config : ResolvedMinHashConfig) (band : Nat) (signature : List UInt32) :
    List UInt32 := (signature.drop (band * config.rowsPerBand)).take config.rowsPerBand

def bandKey (config : ResolvedMinHashConfig) (band : Nat) (signature : List UInt32) : JsString :=
  natText band ++ js "#" ++
    join (js ",") ((bandRows config band signature).map fun row => natText row.toNat)

/-- Every document under the key of each of its bands. -/
def bandBuckets (prepared : List PreparedDocument) (config : ResolvedMinHashConfig) :
    List (List PreparedDocument) :=
  (buckets Prod.fst (prepared.flatMap fun document =>
    (List.range config.bands).map fun band =>
      (bandKey config band document.signature, document))).entries.map fun bucket =>
        bucket.2.map Prod.snd

section
variable {N : Type} [JsNumber N] [JsArithmetic N] [Locale]

def candidatePair (N : Type) [JsNumber N] [JsArithmetic N] (left right : PreparedDocument) :
    LshCandidatePair N :=
  let (a, b) := if Locale.localeCompare left.id right.id ≤ 0 then (left.id, right.id)
    else (right.id, left.id)
  { a, b, estimatedSimilarity := estimateSimilarity N left.signature right.signature }

def LshCandidatePair.key (pair : LshCandidatePair N) : JsString := pair.a ++ js "|" ++ pair.b

/-- The loops over the pairs of the buckets, until the cap; whether the cap was hit. -/
def addCandidatePairs (config : ResolvedMinHashConfig) :
    List (PreparedDocument × PreparedDocument) → JsMap (LshCandidatePair N) →
      JsMap (LshCandidatePair N) × Bool
  | [], pairs => (pairs, false)
  | (left, right) :: rest, pairs =>
    let pair := candidatePair N left right
    if pairs.has pair.key then addCandidatePairs config rest pairs
    else if pairs.entries.length ≥ config.maxCandidatePairs then (pairs, true)
    else addCandidatePairs config rest (pairs.set pair.key pair)

def collectCandidatePairs (N : Type) [JsNumber N] [JsArithmetic N]
    (bandBuckets : List (List PreparedDocument)) (config : ResolvedMinHashConfig) :
    JsMap (LshCandidatePair N) × Bool :=
  addCandidatePairs config (bandBuckets.flatMap placePairs) JsMap.empty

/-- The sign of `left - right`. -/
def subtractSign (left right : N) : Int :=
  if JsNumber.less left right then -1 else if JsNumber.less right left then 1 else 0

def compareCandidatePairs (left right : LshCandidatePair N) : Int :=
  orElse (subtractSign right.estimatedSimilarity left.estimatedSimilarity)
    (orElse (Locale.localeCompare left.a right.a) (Locale.localeCompare left.b right.b))

def findLshCandidatePairs (N : Type) [JsNumber N] [JsArithmetic N]
    (documents : List MinHashDocument) (options : MinHashOptions) : LshCandidateResult N :=
  let config := resolveMinHashConfig options
  let prepared := prepareDocuments documents config
  let collected := collectCandidatePairs N (bandBuckets prepared config) config
  { candidates := sortBy compareCandidatePairs (collected.1.entries.map Prod.snd)
    config
    consideredDocuments := prepared.length
    totalDocuments := documents.length
    shingleTruncatedDocuments := shingleTruncatedDocuments documents config
    candidatePairsTruncated := collected.2 }

end

end Musi.DriftAi
