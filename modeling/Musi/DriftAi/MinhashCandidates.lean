import Mathlib.Data.List.Perm.Basic
import Mathlib.Data.List.Nodup
import Musi.Js.Joined
import Musi.DriftAi.ExactCloneHash
import Musi.DriftAi.MinhashLsh

namespace Musi.DriftAi
open Musi.Js Musi.System
set_option autoImplicit true

/-! ## Band keys -/

/-- A band key names the band and all of its rows. -/
theorem bandKey_inj {config : ResolvedMinHashConfig} {band band' : Nat}
    {signature signature' : List UInt32} :
    bandKey config band signature = bandKey config band' signature' ↔
      band = band' ∧ bandRows config band signature = bandRows config band' signature' := by
  constructor
  · intro h
    have hhash : js "#" = [unit '#'] := by decide
    have hcomma : js "," = [unit ','] := by decide
    simp only [bandKey, hhash, hcomma, List.append_assoc, List.singleton_append] at h
    have hdigit : isDigit (unit '#') = false := by decide
    obtain ⟨hband, hrows⟩ := append_terminator (notMem_natText hdigit band)
      (notMem_natText hdigit band') h
    have hparts (rows : List UInt32) (part : JsString)
        (hpart : part ∈ rows.map fun row => natText row.toNat) : part ≠ [] ∧ unit ',' ∉ part := by
      obtain ⟨row, -, rfl⟩ := List.mem_map.1 hpart
      exact ⟨(natText_spec row.toNat).2.1, notMem_natText (by decide) _⟩
    have hmap := join_injective (hparts _) (hparts _) hrows
    refine ⟨natText_injective hband, List.map_injective_iff.2 (fun row row' hrow => ?_) hmap⟩
    exact UInt32.toNat_inj.1 (natText_injective hrow)
  · rintro ⟨rfl, hrows⟩
    rw [bandKey, bandKey, hrows]

/-! ## Buckets -/

section
variable (config : ResolvedMinHashConfig) (prepared : List PreparedDocument)

/-- Every document under each of its keys. -/
def keyedDocuments : List (JsString × PreparedDocument) :=
  prepared.flatMap fun document =>
    (List.range config.bands).map fun band => (bandKey config band document.signature, document)

theorem filter_range_eq {n k : Nat} (h : k < n) : (List.range n).filter (fun i => i = k) = [k] := by
  have hn : ((List.range n).filter fun i => decide (i = k)).Nodup := List.nodup_range.filter _
  refine List.perm_singleton.1 ((List.perm_ext_iff_of_nodup hn (List.nodup_singleton k)).2 ?_)
  intro i
  rw [List.mem_filter, List.mem_range, decide_eq_true_eq, List.mem_singleton]
  constructor
  · intro hi
    exact hi.2
  · rintro rfl
    exact ⟨h, rfl⟩

theorem keyed_filter {band : Nat} (hband : band < config.bands) (signature : List UInt32) :
    ((keyedDocuments config prepared).filter fun e =>
        e.1 = bandKey config band signature).map Prod.snd =
      prepared.filter fun document =>
        bandRows config band document.signature = bandRows config band signature := by
  induction prepared with
  | nil => rfl
  | cons document prepared ih =>
    have hone : ((((List.range config.bands).map fun band =>
        (bandKey config band document.signature, document)).filter fun e =>
          decide (e.1 = bandKey config band signature)).map Prod.snd) =
        if bandRows config band document.signature = bandRows config band signature
          then [document] else [] := by
      rw [List.filter_map, List.map_map]
      by_cases hrows : bandRows config band document.signature = bandRows config band signature
      · have hfilter : (List.range config.bands).filter
            ((fun e : JsString × PreparedDocument => decide (e.1 = bandKey config band signature)) ∘
              fun band => (bandKey config band document.signature, document)) = [band] := by
          rw [← filter_range_eq hband]
          refine List.filter_congr fun i _ => decide_eq_decide.2 ?_
          rw [bandKey_inj]
          constructor
          · intro h
            exact h.1
          · rintro rfl
            exact ⟨rfl, hrows⟩
        rw [hfilter, if_pos hrows]
        rfl
      · have hfilter : (List.range config.bands).filter
            ((fun e : JsString × PreparedDocument => decide (e.1 = bandKey config band signature)) ∘
              fun band => (bandKey config band document.signature, document)) = [] := by
          refine List.filter_eq_nil_iff.2 fun i _ hi => ?_
          obtain ⟨rfl, h⟩ := bandKey_inj.1 (of_decide_eq_true hi)
          exact hrows h
        rw [hfilter, if_neg hrows]
        rfl
    have hcons : keyedDocuments config (document :: prepared) =
        ((List.range config.bands).map fun band =>
          (bandKey config band document.signature, document)) ++ keyedDocuments config prepared := rfl
    rw [hcons, List.filter_append, List.map_append, hone, ih, List.filter_cons]
    by_cases hrows : bandRows config band document.signature = bandRows config band signature
    · rw [if_pos hrows, if_pos (decide_eq_true hrows)]
      rfl
    · rw [if_neg hrows, if_neg (by simpa using hrows)]
      rfl

def sharesBand (left right : List UInt32) : Prop :=
  ∃ band < config.bands, bandRows config band left = bandRows config band right

/-- The pairs inside the buckets are the pairs with the rows of a band in common. -/
theorem mem_bandBuckets_placePairs {e : PreparedDocument × PreparedDocument} :
    e ∈ (bandBuckets prepared config).flatMap placePairs ↔
      e ∈ placePairs prepared ∧ sharesBand config e.1.signature e.2.signature := by
  have hbuckets : bandBuckets prepared config =
      (buckets Prod.fst (keyedDocuments config prepared)).entries.map fun bucket =>
        bucket.2.map Prod.snd := rfl
  rw [hbuckets, List.flatMap_map, List.mem_flatMap]
  constructor
  · rintro ⟨bucket, hbucket, he⟩
    obtain ⟨hne, hbucket⟩ := (mem_buckets Prod.fst _).1 hbucket
    obtain ⟨keyed, hkeyed⟩ := List.exists_mem_of_ne_nil _ hne
    rw [hbucket, List.mem_filter, decide_eq_true_eq] at hkeyed
    obtain ⟨document, -, hdocument⟩ := List.mem_flatMap.1 hkeyed.1
    obtain ⟨band, hband, rfl⟩ := List.mem_map.1 hdocument
    have hband := List.mem_range.1 hband
    rw [hbucket, ← hkeyed.2, keyed_filter config prepared hband, placePairs_filter,
      List.mem_filter, Bool.and_eq_true, decide_eq_true_eq, decide_eq_true_eq] at he
    exact ⟨he.1, band, hband, he.2.1.trans he.2.2.symm⟩
  · rintro ⟨he, band, hband, hrows⟩
    have hfilter := keyed_filter config prepared hband e.1.signature
    have hmem : e ∈ placePairs (((keyedDocuments config prepared).filter fun keyed =>
        keyed.1 = bandKey config band e.1.signature).map Prod.snd) := by
      rw [hfilter, placePairs_filter, List.mem_filter, Bool.and_eq_true, decide_eq_true_eq,
        decide_eq_true_eq]
      exact ⟨he, rfl, hrows.symm⟩
    refine ⟨(bandKey config band e.1.signature, _), (mem_buckets Prod.fst _).2 ⟨?_, rfl⟩, hmem⟩
    intro hnil
    dsimp only at hnil
    rw [hnil] at hmem
    cases hmem

end

/-! ## The Map of pairs -/

section
variable {N : Type} [JsNumber N] [JsArithmetic N] [Locale] {config : ResolvedMinHashConfig}

/-- What the loops keep: every entry under its own key, and made from a pair. -/
def Collected (found : List (PreparedDocument × PreparedDocument))
    (pairs : JsMap (LshCandidatePair N)) : Prop :=
  ∀ k v, pairs.get k = some v → k = v.key ∧ ∃ e ∈ found, v = candidatePair N e.1 e.2

theorem Collected.set {found : List (PreparedDocument × PreparedDocument)}
    {pairs : JsMap (LshCandidatePair N)} (h : Collected found pairs)
    {e : PreparedDocument × PreparedDocument} (he : e ∈ found) :
    Collected found (pairs.set (candidatePair N e.1 e.2).key (candidatePair N e.1 e.2)) := by
  intro k v hget
  rw [JsMap.get_set] at hget
  split at hget
  · next hk =>
    obtain rfl := Option.some.inj hget
    exact ⟨hk, e, he, rfl⟩
  · exact h k v hget

theorem addCandidatePairs_collected {found : List (PreparedDocument × PreparedDocument)}
    (rest : List (PreparedDocument × PreparedDocument)) {pairs : JsMap (LshCandidatePair N)}
    (hrest : ∀ e ∈ rest, e ∈ found) (h : Collected found pairs) :
    Collected found (addCandidatePairs config rest pairs).1 := by
  induction rest generalizing pairs with
  | nil => exact h
  | cons e rest ih =>
    obtain ⟨he, hrest⟩ := List.forall_mem_cons.1 hrest
    rw [addCandidatePairs]
    split
    · exact ih hrest h
    · split
      · exact h
      · exact ih hrest (h.set he)

/-- When the cap is not hit, nothing is lost and every pair finds its key. -/
theorem addCandidatePairs_complete (rest : List (PreparedDocument × PreparedDocument))
    {pairs : JsMap (LshCandidatePair N)}
    (htruncated : (addCandidatePairs config rest pairs).2 = false) :
    (∀ k v, pairs.get k = some v → (addCandidatePairs config rest pairs).1.get k = some v) ∧
      ∀ e ∈ rest, (addCandidatePairs config rest pairs).1.has (candidatePair N e.1 e.2).key := by
  induction rest generalizing pairs with
  | nil =>
    refine ⟨fun k v hget => hget, fun e he => ?_⟩
    cases he
  | cons e rest ih =>
    rw [addCandidatePairs] at htruncated ⊢
    by_cases hhas : pairs.has (candidatePair N e.1 e.2).key = true
    · rw [if_pos hhas] at htruncated ⊢
      obtain ⟨hkept, hrest⟩ := ih htruncated
      refine ⟨hkept, List.forall_mem_cons.2 ⟨?_, hrest⟩⟩
      obtain ⟨v, hv⟩ := Option.isSome_iff_exists.1 hhas
      exact Option.isSome_iff_exists.2 ⟨v, hkept _ v hv⟩
    · rw [if_neg hhas] at htruncated ⊢
      by_cases hcap : pairs.entries.length ≥ config.maxCandidatePairs
      · rw [if_pos hcap] at htruncated
        cases htruncated
      · rw [if_neg hcap] at htruncated ⊢
        obtain ⟨hkept, hrest⟩ := ih htruncated
        refine ⟨fun k v hget => hkept k v ?_, List.forall_mem_cons.2 ⟨?_, hrest⟩⟩
        · have hk : k ≠ (candidatePair N e.1 e.2).key := by
            rintro rfl
            exact hhas (Option.isSome_iff_exists.2 ⟨v, hget⟩)
          rw [JsMap.get_set, if_neg hk]
          exact hget
        · refine Option.isSome_iff_exists.2 ⟨candidatePair N e.1 e.2, hkept _ _ ?_⟩
          rw [JsMap.get_set, if_pos rfl]

theorem mem_candidates {documents : List MinHashDocument} {options : MinHashOptions}
    {c : LshCandidatePair N} :
    c ∈ (findLshCandidatePairs N documents options).candidates ↔
      ∃ k, (collectCandidatePairs N (bandBuckets
        (prepareDocuments documents (resolveMinHashConfig options)) (resolveMinHashConfig options))
        (resolveMinHashConfig options)).1.get k = some c := by
  rw [findLshCandidatePairs]
  dsimp only
  rw [mem_sortBy, List.mem_map]
  constructor
  · rintro ⟨e, he, rfl⟩
    exact ⟨e.1, JsMap.mem_entries.1 he⟩
  · rintro ⟨k, hk⟩
    exact ⟨(k, c), JsMap.mem_entries.2 hk, rfl⟩

end

/-! ## Candidates -/

section
variable [Locale]

def documentSignature (config : ResolvedMinHashConfig) (document : MinHashDocument) : List UInt32 :=
  computeSignature (documentShingles config document) (buildSeeds config.signatureLength)

/-- Two documents in the order of their ids, both with a shingle, that have the rows of a band in
common. -/
structure Sharing (config : ResolvedMinHashConfig) (left right : MinHashDocument) : Prop where
  before : Locale.localeCompare left.id right.id < 0
  left_shingles : buildShingles left.features config.shingleSize ≠ []
  right_shingles : buildShingles right.features config.shingleSize ≠ []
  band : sharesBand config (documentSignature config left) (documentSignature config right)

/-- Ids that differ, and not only for the locale. -/
structure DistinctIds (documents : List MinHashDocument) : Prop where
  nodup : (documents.map MinHashDocument.id).Nodup
  separated : ∀ left ∈ documents, ∀ right ∈ documents,
    Locale.localeCompare left.id right.id = 0 → left.id = right.id

theorem cappedShingles_eq_nil {shingles : List JsString} {cap : Nat} (hcap : 0 < cap) :
    cappedShingles shingles cap = [] ↔ shingles = [] := by
  rw [cappedShingles]
  split
  · exact Iff.rfl
  · rw [List.take_eq_nil_iff, sortBy_eq_nil]
    exact or_iff_right (Nat.pos_iff_ne_zero.1 hcap)

omit [Locale] in
theorem maxShinglesPerDocument_pos (options : MinHashOptions) :
    0 < (resolveMinHashConfig options).maxShinglesPerDocument := positiveInt_pos (by omega)

theorem mem_prepareDocuments {documents : List MinHashDocument} {options : MinHashOptions}
    {prepared : PreparedDocument} :
    prepared ∈ prepareDocuments documents (resolveMinHashConfig options) ↔
      ∃ document ∈ documents,
        buildShingles document.features (resolveMinHashConfig options).shingleSize ≠ [] ∧
        prepared = ⟨document.id, documentSignature (resolveMinHashConfig options) document⟩ := by
  simp only [prepareDocuments, orderedDocuments, List.mem_map, List.mem_filter, mem_sortBy,
    decide_eq_true_eq, documentShingles, ne_eq,
    cappedShingles_eq_nil (maxShinglesPerDocument_pos options), and_assoc]
  constructor
  · rintro ⟨document, hmem, hne, rfl⟩
    exact ⟨document, hmem, hne, rfl⟩
  · rintro ⟨document, hmem, hne, rfl⟩
    exact ⟨document, hmem, hne, rfl⟩

theorem DistinctIds.eq {documents : List MinHashDocument} (h : DistinctIds documents)
    {left right : MinHashDocument} (hleft : left ∈ documents) (hright : right ∈ documents)
    (he : left.id = right.id) : left = right := List.inj_on_of_nodup_map h.nodup hleft hright he

/-- The documents come in the order of their ids. -/
theorem DistinctIds.sorted {documents : List MinHashDocument} (h : DistinctIds documents) :
    (orderedDocuments documents).Pairwise fun left right =>
      Locale.localeCompare left.id right.id < 0 := by
  have hle := sortBy_sorted (Locale.localeCompare_consistent.comap MinHashDocument.id) documents
  have hnodup : (orderedDocuments documents).Nodup := nodup_sortBy.2 h.nodup.of_map
  refine (hle.and hnodup).imp_of_mem fun {left right} hleft hright hboth => ?_
  refine lt_of_le_of_ne hboth.1 fun hzero => hboth.2 ?_
  have hleft := mem_sortBy.1 hleft
  have hright := mem_sortBy.1 hright
  exact h.eq hleft hright (h.separated left hleft right hright hzero)

theorem DistinctIds.prepared_sorted {documents : List MinHashDocument} (h : DistinctIds documents)
    (config : ResolvedMinHashConfig) : (prepareDocuments documents config).Pairwise
      fun left right => Locale.localeCompare left.id right.id < 0 := by
  rw [prepareDocuments, List.pairwise_map]
  exact h.sorted.filter _

theorem localeCompare_asymm {a b : JsString} (hab : Locale.localeCompare a b < 0) :
    ¬ Locale.localeCompare b a < 0 := by
  have hba := Locale.localeCompare_consistent.neg_iff.2 hab
  omega

/-- The pairs in the buckets are the pairs of documents that share a band. -/
theorem DistinctIds.mem_placePairs {documents : List MinHashDocument} (h : DistinctIds documents)
    {options : MinHashOptions} {e : PreparedDocument × PreparedDocument} :
    e ∈ (bandBuckets (prepareDocuments documents (resolveMinHashConfig options))
        (resolveMinHashConfig options)).flatMap placePairs ↔
      ∃ left ∈ documents, ∃ right ∈ documents, Sharing (resolveMinHashConfig options) left right ∧
        e = (⟨left.id, documentSignature (resolveMinHashConfig options) left⟩,
          ⟨right.id, documentSignature (resolveMinHashConfig options) right⟩) := by
  rw [mem_bandBuckets_placePairs, Js.mem_placePairs (h.prepared_sorted _)
    (fun a => (Locale.localeCompare_consistent.self a.id).not_lt)
    (fun a b => localeCompare_asymm), mem_prepareDocuments, mem_prepareDocuments]
  constructor
  · rintro ⟨⟨⟨left, hleft, hlne, hl⟩, ⟨right, hright, hrne, hr⟩, hlt⟩, hband⟩
    rw [hl, hr] at hlt hband
    exact ⟨left, hleft, right, hright, ⟨hlt, hlne, hrne, hband⟩, Prod.ext hl hr⟩
  · rintro ⟨left, hleft, right, hright, hsharing, rfl⟩
    exact ⟨⟨⟨left, hleft, hsharing.left_shingles, rfl⟩,
      ⟨right, hright, hsharing.right_shingles, rfl⟩, hsharing.before⟩, hsharing.band⟩

end

section
variable (N : Type) [JsNumber N] [JsArithmetic N] [Locale]

/-- The candidate of two documents, the one with the lesser id first. -/
def documentPair (config : ResolvedMinHashConfig) (left right : MinHashDocument) :
    LshCandidatePair N where
  a := left.id
  b := right.id
  estimatedSimilarity :=
    estimateSimilarity N (documentSignature config left) (documentSignature config right)

theorem candidatePair_eq {config : ResolvedMinHashConfig} {left right : MinHashDocument}
    (h : Sharing config left right) :
    candidatePair N ⟨left.id, documentSignature config left⟩
      ⟨right.id, documentSignature config right⟩ = documentPair N config left right := by
  rw [candidatePair]
  dsimp only
  rw [if_pos h.before.le]
  rfl

variable (documents : List MinHashDocument) (options : MinHashOptions)

/-- The candidates are the pairs that share a band, each once. -/
structure ExactCandidates : Prop where
  mem_iff : ∀ c, c ∈ (findLshCandidatePairs N documents options).candidates ↔
    ∃ left ∈ documents, ∃ right ∈ documents, Sharing (resolveMinHashConfig options) left right ∧
      c = documentPair N (resolveMinHashConfig options) left right
  once : ((findLshCandidatePairs N documents options).candidates.map fun c => (c.a, c.b)).Nodup
  /-- Documents with the same shingles are among them. -/
  equal : ∀ left ∈ documents, ∀ right ∈ documents, left ≠ right →
    buildShingles left.features (resolveMinHashConfig options).shingleSize ≠ [] →
    (∀ shingle, shingle ∈ buildShingles left.features (resolveMinHashConfig options).shingleSize ↔
      shingle ∈ buildShingles right.features (resolveMinHashConfig options).shingleSize) →
    ∃ c ∈ (findLshCandidatePairs N documents options).candidates,
      (c.a = left.id ∧ c.b = right.id) ∨ (c.a = right.id ∧ c.b = left.id)
  permuted : ∀ documents' : List MinHashDocument, documents'.Perm documents →
    findLshCandidatePairs N documents' options = findLshCandidatePairs N documents options

/-- The keys of the Map tell the pairs apart, and the cap on the shingles keeps a band of documents
with the same shingles. -/
structure Separable : Prop where
  keys : ∀ left ∈ documents, ∀ right ∈ documents, ∀ left' ∈ documents, ∀ right' ∈ documents,
    Sharing (resolveMinHashConfig options) left right →
    Sharing (resolveMinHashConfig options) left' right' →
    left.id ++ js "|" ++ right.id = left'.id ++ js "|" ++ right'.id → left = left' ∧ right = right'
  capped : ∀ left ∈ documents, ∀ right ∈ documents, left ≠ right →
    buildShingles left.features (resolveMinHashConfig options).shingleSize ≠ [] →
    (∀ shingle, shingle ∈ buildShingles left.features (resolveMinHashConfig options).shingleSize ↔
      shingle ∈ buildShingles right.features (resolveMinHashConfig options).shingleSize) →
    sharesBand (resolveMinHashConfig options)
      (documentSignature (resolveMinHashConfig options) left)
      (documentSignature (resolveMinHashConfig options) right)

/-- The Map of the pairs. -/
def pairMap : JsMap (LshCandidatePair N) :=
  (collectCandidatePairs N (bandBuckets (prepareDocuments documents (resolveMinHashConfig options))
    (resolveMinHashConfig options)) (resolveMinHashConfig options)).1

variable {N documents options}

theorem DistinctIds.pairMap_sound (h : DistinctIds documents) {k : JsString}
    {c : LshCandidatePair N} (hget : (pairMap N documents options).get k = some c) :
    k = c.key ∧ ∃ left ∈ documents, ∃ right ∈ documents,
      Sharing (resolveMinHashConfig options) left right ∧
      c = documentPair N (resolveMinHashConfig options) left right := by
  have hempty : Collected ((bandBuckets (prepareDocuments documents (resolveMinHashConfig options))
      (resolveMinHashConfig options)).flatMap placePairs)
      (JsMap.empty : JsMap (LshCandidatePair N)) := by
    intro k v hget
    cases hget
  obtain ⟨hkey, e, he, hc⟩ := addCandidatePairs_collected _ (fun e he => he) hempty k c hget
  obtain ⟨left, hleft, right, hright, hsharing, rfl⟩ := h.mem_placePairs.1 he
  exact ⟨hkey, left, hleft, right, hright, hsharing, hc.trans (candidatePair_eq N hsharing)⟩

theorem DistinctIds.pairMap_complete (h : DistinctIds documents)
    (htruncated : (findLshCandidatePairs N documents options).candidatePairsTruncated = false)
    {left right : MinHashDocument} (hleft : left ∈ documents) (hright : right ∈ documents)
    (hsharing : Sharing (resolveMinHashConfig options) left right) :
    ∃ c, (pairMap N documents options).get
      (documentPair N (resolveMinHashConfig options) left right).key = some c := by
  have hall := (addCandidatePairs_complete _ htruncated).2 _
    (h.mem_placePairs.2 ⟨left, hleft, right, hright, hsharing, rfl⟩)
  dsimp only at hall
  rw [candidatePair_eq N hsharing] at hall
  exact Option.isSome_iff_exists.1 hall

theorem DistinctIds.once (h : DistinctIds documents) :
    ((findLshCandidatePairs N documents options).candidates.map fun c => (c.a, c.b)).Nodup := by
  have hkeys : (pairMap N documents options).entries.map (fun e => e.2.key) =
      (pairMap N documents options).keys :=
    List.map_congr_left fun e he => (h.pairMap_sound (JsMap.mem_entries.1 he)).1.symm
  have hnodup : ((pairMap N documents options).entries.map fun e => (e.2.a, e.2.b)).Nodup := by
    refine List.Nodup.of_map (fun c : JsString × JsString => c.1 ++ js "|" ++ c.2) ?_
    rw [List.map_map]
    have hnodup := (pairMap N documents options).nodup_keys
    rw [← hkeys] at hnodup
    exact hnodup
  have hperm := (sortBy_perm compareCandidatePairs
    ((pairMap N documents options).entries.map Prod.snd)).map fun c => (c.a, c.b)
  rw [List.map_map] at hperm
  exact hperm.nodup_iff.2 hnodup

/-- The order of the documents is not seen. -/
theorem DistinctIds.permuted (h : DistinctIds documents) {documents' : List MinHashDocument}
    (hperm : documents'.Perm documents) :
    findLshCandidatePairs N documents' options = findLshCandidatePairs N documents options := by
  have hordered : orderedDocuments documents' = orderedDocuments documents := by
    have hconsistent := Locale.localeCompare_consistent.comap MinHashDocument.id
    have hsorted : (orderedDocuments documents').Perm (orderedDocuments documents) :=
      (sortBy_perm _ documents').trans (hperm.trans (sortBy_perm _ documents).symm)
    refine eq_of_perm_sorted (sortBy_sorted hconsistent _) (sortBy_sorted hconsistent _) hsorted ?_
    intro left hleft right hright hle hge
    have hleft := hperm.mem_iff.1 (mem_sortBy.1 hleft)
    have hright := mem_sortBy.1 hright
    exact h.eq hleft hright (h.separated left hleft right hright (hconsistent.zero_of_le hle hge))
  simp only [findLshCandidatePairs, prepareDocuments, shingleTruncatedDocuments, hordered,
    hperm.length_eq]

theorem ExactCandidates.separable (hexact : ExactCandidates N documents options)
    (h : DistinctIds documents) : Separable documents options where
  keys := by
    intro left hleft right hright left' hleft' right' hright' hsharing hsharing' hkey
    obtain ⟨k, hk⟩ :=
      mem_candidates.1 ((hexact.mem_iff _).2 ⟨left, hleft, right, hright, hsharing, rfl⟩)
    obtain ⟨k', hk'⟩ :=
      mem_candidates.1 ((hexact.mem_iff _).2 ⟨left', hleft', right', hright', hsharing', rfl⟩)
    have hkk : k' = k := (h.pairMap_sound hk').1.trans (hkey.symm.trans (h.pairMap_sound hk).1.symm)
    rw [hkk] at hk'
    have hpair := Option.some.inj (hk.symm.trans hk')
    exact ⟨h.eq hleft hleft' (congrArg LshCandidatePair.a hpair),
      h.eq hright hright' (congrArg LshCandidatePair.b hpair)⟩
  capped := by
    intro left hleft right hright hne hshingles hsame
    obtain ⟨c, hc, hids⟩ := hexact.equal left hleft right hright hne hshingles hsame
    obtain ⟨l, hl, r, hr, hsharing, rfl⟩ := (hexact.mem_iff c).1 hc
    rcases hids with ⟨ha, hb⟩ | ⟨ha, hb⟩
    · obtain rfl := h.eq hl hleft ha
      obtain rfl := h.eq hr hright hb
      exact hsharing.band
    · obtain rfl := h.eq hl hright ha
      obtain rfl := h.eq hr hleft hb
      obtain ⟨band, hband, hrows⟩ := hsharing.band
      exact ⟨band, hband, hrows.symm⟩

theorem Separable.exact (hseparable : Separable documents options) (h : DistinctIds documents)
    (htruncated : (findLshCandidatePairs N documents options).candidatePairsTruncated = false) :
    ExactCandidates N documents options := by
  have hmem (c : LshCandidatePair N) : c ∈ (findLshCandidatePairs N documents options).candidates ↔
      ∃ left ∈ documents, ∃ right ∈ documents, Sharing (resolveMinHashConfig options) left right ∧
        c = documentPair N (resolveMinHashConfig options) left right := by
    rw [mem_candidates]
    constructor
    · rintro ⟨k, hk⟩
      exact (h.pairMap_sound hk).2
    · rintro ⟨left, hleft, right, hright, hsharing, rfl⟩
      obtain ⟨c, hc⟩ := h.pairMap_complete htruncated hleft hright hsharing
      obtain ⟨hkey, left', hleft', right', hright', hsharing', rfl⟩ := h.pairMap_sound hc
      obtain ⟨rfl, rfl⟩ := hseparable.keys left hleft right hright left' hleft' right' hright'
        hsharing hsharing' hkey
      exact ⟨_, hc⟩
  refine ⟨hmem, h.once, ?_, fun documents' hperm => h.permuted hperm⟩
  intro left hleft right hright hne hshingles hsame
  obtain ⟨band, hband, hrows⟩ := hseparable.capped left hleft right hright hne hshingles hsame
  have hshingles' : buildShingles right.features (resolveMinHashConfig options).shingleSize ≠ [] := by
    obtain ⟨shingle, hshingle⟩ := List.exists_mem_of_ne_nil _ hshingles
    exact List.ne_nil_of_mem ((hsame shingle).1 hshingle)
  rcases lt_trichotomy (Locale.localeCompare left.id right.id) 0 with hlt | hzero | hgt
  · have hsharing : Sharing (resolveMinHashConfig options) left right :=
      ⟨hlt, hshingles, hshingles', band, hband, hrows⟩
    exact ⟨_, (hmem _).2 ⟨left, hleft, right, hright, hsharing, rfl⟩, .inl ⟨rfl, rfl⟩⟩
  · exact (hne (h.eq hleft hright (h.separated left hleft right hright hzero))).elim
  · have hsharing : Sharing (resolveMinHashConfig options) right left :=
      ⟨Locale.localeCompare_consistent.neg_iff.1 hgt, hshingles', hshingles, band, hband, hrows.symm⟩
    exact ⟨_, (hmem _).2 ⟨right, hright, left, hleft, hsharing, rfl⟩, .inr ⟨rfl, rfl⟩⟩

end

/-! ## Ids without a bar, shingles that the locale tells apart -/

theorem buildShingles_nodup (features : List JsString) (shingleSize : Nat) :
    (buildShingles features shingleSize).Nodup := by
  rw [buildShingles]
  dsimp only
  split
  · exact List.nodup_nil
  · split
    · exact List.nodup_singleton _
    · exact nodup_eraseDups _

theorem cappedShingles_perm [Locale]
    (hstrict : StrictComparator (Locale.localeCompare : JsString → JsString → Int))
    {shingles shingles' : List JsString} (h : shingles.Perm shingles') (cap : Nat) :
    (cappedShingles shingles cap).Perm (cappedShingles shingles' cap) := by
  rw [cappedShingles, cappedShingles, h.length_eq, sortBy_eq_of_perm hstrict h]
  split
  · exact h
  · exact .refl _

/-- The minima do not see the order of the shingles. -/
theorem computeSignature_perm {shingles shingles' : List JsString} (h : shingles.Perm shingles')
    (seeds : List UInt32) : computeSignature shingles seeds = computeSignature shingles' seeds := by
  refine List.map_congr_left fun seed _ => h.foldl_eq' (fun a _ b _ least => ?_) _
  dsimp only
  generalize mix32 (hashFeature32 a ^^^ seed) = m
  generalize mix32 (hashFeature32 b ^^^ seed) = n
  simp only [UInt32.lt_iff_toNat_lt, ← UInt32.toNat_inj]
  split_ifs <;> omega

/-- Ids without a bar keep the keys apart, and a locale that tells all texts apart keeps the capped
shingles of documents with the same shingles. -/
theorem separable_of_plain [Locale] {documents : List MinHashDocument} {options : MinHashOptions}
    (h : DistinctIds documents) (hids : ∀ document ∈ documents, unit '|' ∉ document.id)
    (hstrict : StrictComparator (Locale.localeCompare : JsString → JsString → Int)) :
    Separable documents options where
  keys := by
    intro left hleft right hright left' hleft' right' hright' _ _ hkey
    have hbar : js "|" = [unit '|'] := by decide
    simp only [hbar, List.append_assoc, List.singleton_append] at hkey
    obtain ⟨ha, hb⟩ := append_terminator (hids left hleft) (hids left' hleft') hkey
    exact ⟨h.eq hleft hleft' ha, h.eq hright hright' hb⟩
  capped := by
    intro left _ right _ _ _ hsame
    have hperm := (List.perm_ext_iff_of_nodup (buildShingles_nodup _ _)
      (buildShingles_nodup _ _)).2 hsame
    refine ⟨0, (resolveMinHashConfig options).bands_pos, ?_⟩
    rw [documentSignature, documentSignature, documentShingles, documentShingles,
      computeSignature_perm (cappedShingles_perm hstrict hperm _)]

/-! ## Documents of one feature -/

/-- Whole numbers divided where they divide. -/
instance : JsArithmetic Numeral where
  multiply
    | .int j, .int k => .int (j * k)
    | _, _ => .int 0
  divide
    | .int j, .int k => .int (j / k)
    | _, _ => .int 0
  round n := n

def ofId (id : JsString) : MinHashDocument := ⟨id, [js "return x"]⟩

/-- One band of one row. -/
def oneRow : MinHashOptions := { bands := some 1, rowsPerBand := some 1 }

theorem distinctIds_of_nodup {documents : List MinHashDocument}
    (h : (documents.map MinHashDocument.id).Nodup) : DistinctIds documents :=
  ⟨h, fun _ _ _ _ => compareCodeUnits_strict.eq_of_zero⟩

end Musi.DriftAi
