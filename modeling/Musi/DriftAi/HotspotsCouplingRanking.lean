import Mathlib.Algebra.Order.Field.Basic
import Mathlib.Algebra.Order.Field.Rat
import Musi.DriftAi.HotspotsCouplingTally

namespace Musi.DriftAi
open Musi.Js
set_option autoImplicit true

/-! ## Ranking -/

/-- Pairs across a boundary come first. -/
def compareBoundary (left right : Bool) : Int := if left ≠ right then if left then -1 else 1 else 0

theorem compareBoundary_consistent : ConsistentComparator compareBoundary where
  swap a b := by
    cases a <;> cases b <;> decide
  trans := by
    intro a b c hab hbc
    revert hab hbc
    cases a <;> cases b <;> cases c <;> decide

section
variable [Locale]

theorem compareCandidates_eq (left right : CouplingCandidate) : compareCandidates left right =
    orElse (compareBoundary left.crossBoundary right.crossBoundary)
      (orElse (compareRat right.score left.score)
        (orElse (subtractNat right.coChanges left.coChanges)
          (Locale.localeCompare (pairKey left.a left.b) (pairKey right.a right.b)))) := by
  rw [compareCandidates]
  split
  · next hboundary =>
    have hne : compareBoundary left.crossBoundary right.crossBoundary ≠ 0 := by
      rw [compareBoundary, if_pos hboundary]
      split
      · exact Int.neg_ne_zero.2 Int.one_ne_zero
      · exact Int.one_ne_zero
    rw [orElse_of_ne hne, compareBoundary, if_pos hboundary]
  · next hboundary =>
    have hzero : compareBoundary left.crossBoundary right.crossBoundary = 0 := if_neg hboundary
    rw [orElse_of_zero hzero]
    split
    · next hscore =>
      rw [orElse_of_ne fun hzero => hscore (compareRat_strict.eq_of_zero hzero)]
    · next hscore =>
      have hzero : compareRat right.score left.score = 0 := by
        rw [not_not.1 hscore, compareRat_strict.toConsistentComparator.self]
      rw [orElse_of_zero hzero]
      split
      · next hcount =>
        rw [orElse_of_ne fun hzero => hcount (subtractNat_strict.eq_of_zero hzero)]
      · next hcount =>
        have hzero : subtractNat right.coChanges left.coChanges = 0 := by
          rw [not_not.1 hcount, subtractNat_strict.toConsistentComparator.self]
        rw [orElse_of_zero hzero]

theorem compareCandidates_consistent : ConsistentComparator compareCandidates := by
  have hscore := compareRat_strict.toConsistentComparator.reversed.comap CouplingCandidate.score
  have hcount := subtractNat_strict.toConsistentComparator.reversed.comap CouplingCandidate.coChanges
  have hkey := Locale.localeCompare_consistent.comap fun candidate : CouplingCandidate =>
    pairKey candidate.a candidate.b
  have heq : compareCandidates = fun left right : CouplingCandidate => _ :=
    funext fun left => funext fun right => compareCandidates_eq left right
  rw [heq]
  exact (compareBoundary_consistent.comap CouplingCandidate.crossBoundary).orElse
    (hscore.orElse (hcount.orElse hkey))

theorem key_tie {left right : CouplingCandidate} (h : compareCandidates left right = 0) :
    Locale.localeCompare (pairKey left.a left.b) (pairKey right.a right.b) = 0 := by
  rw [compareCandidates_eq] at h
  exact (orElse_zero.1 (orElse_zero.1 (orElse_zero.1 h).2).2).2

/-! ## Candidates -/

variable {N : Type} (sweepCap : Int) (records : List (CommitRecord N))

/-- The candidate that two files are. -/
def pairCandidate (a b : JsString) : CouplingCandidate :=
  { a := a
    b := b
    coChanges := coChangeCount sweepCap records a b
    revisionsA := revisionCount sweepCap records a
    revisionsB := revisionCount sweepCap records b
    score := (coChangeCount sweepCap records a b : Rat) /
      (min (revisionCount sweepCap records a) (revisionCount sweepCap records b) : Nat)
    crossBoundary := topSegment a ≠ topSegment b }

/-- A pair ranks alike from either of its files. -/
theorem compareCandidates_pair (candidate : CouplingCandidate) (a b : JsString) :
    compareCandidates candidate (pairCandidate sweepCap records a b) =
      compareCandidates candidate (pairCandidate sweepCap records b a) := by
  have hboundary : (pairCandidate sweepCap records a b).crossBoundary =
      (pairCandidate sweepCap records b a).crossBoundary := by
    simp only [pairCandidate, ne_comm]
  have hcount := coChangeCount_comm sweepCap records a b
  have hscore : (pairCandidate sweepCap records a b).score =
      (pairCandidate sweepCap records b a).score := by
    simp only [pairCandidate]
    rw [hcount, Nat.min_comm]
  have hkey : pairKey a b = pairKey b a := by rw [pairKey, pairKey, orderedPair_comm]
  rw [compareCandidates_eq, compareCandidates_eq, hboundary, hscore]
  simp only [pairCandidate]
  rw [hcount, hkey]

variable {sweepCap records}

theorem toCandidate_eq {tally : PairTally}
    (hcount : tally.coOccur = coChangeCount sweepCap records tally.a tally.b)
    (hpos : 0 < tally.coOccur) :
    toCandidate (tallyCoChange records sweepCap).coRevs tally =
      pairCandidate sweepCap records tally.a tally.b := by
  obtain ⟨hfirst, hsecond⟩ := coChangeCount_le sweepCap records tally.a tally.b
  have hget {file : JsString} (h : 0 < revisionCount sweepCap records file) (n : Nat) :
      ((tallyCoChange records sweepCap).coRevs.get file).getD n =
        revisionCount sweepCap records file := by
    rw [← countOf_coRevs, countOf] at h ⊢
    cases hrevs : (tallyCoChange records sweepCap).coRevs.get file with
    | none =>
      rw [hrevs] at h
      cases h
    | some revisions => rfl
  rw [toCandidate, hget (by omega), hget (by omega), pairCandidate, ← hcount]

theorem candidates_sound (hnul : GitPaths records) {minSupport : Int} {candidate : CouplingCandidate}
    (h : candidate ∈ couplingCandidates records minSupport sweepCap) :
    candidate = pairCandidate sweepCap records candidate.a candidate.b ∧
      candidate.a ≠ candidate.b ∧ Locale.localeCompare candidate.a candidate.b ≤ 0 ∧
      0 < candidate.coChanges ∧ minSupport ≤ candidate.coChanges ∧
      ∃ record ∈ records, candidate.a ∈ record.paths ∧ candidate.b ∈ record.paths := by
  rw [couplingCandidates, mem_sortBy] at h
  obtain ⟨tally, htally, rfl⟩ := List.mem_map.1 h
  obtain ⟨hentry, hsupport⟩ := List.mem_filter.1 htally
  obtain ⟨⟨key, tally⟩, hmem, rfl⟩ := List.mem_map.1 hentry
  obtain ⟨-, hne, hle, hcount, hpos, hrecord⟩ := tally_sound sweepCap hnul (JsMap.mem_entries.1 hmem)
  dsimp only at hsupport ⊢
  rw [toCandidate_eq hcount hpos]
  refine ⟨rfl, hne, hle, ?_, ?_, hrecord⟩
  · rw [pairCandidate, ← hcount]
    exact hpos
  · rw [pairCandidate, ← hcount]
    exact of_decide_eq_true hsupport

theorem candidates_complete (hnul : GitPaths records) {minSupport : Int} {a b : JsString}
    (hab : a ≠ b) (hpos : 0 < coChangeCount sweepCap records a b)
    (hsupport : minSupport ≤ coChangeCount sweepCap records a b) :
    pairCandidate sweepCap records a b ∈ couplingCandidates records minSupport sweepCap ∨
      pairCandidate sweepCap records b a ∈ couplingCandidates records minSupport sweepCap := by
  obtain ⟨tally, htally, hfiles⟩ := tally_complete sweepCap hnul hab hpos
  obtain ⟨-, -, -, hcount, htallied, -⟩ := tally_sound sweepCap hnul htally
  have hmem (hsupport : minSupport ≤ tally.coOccur) : pairCandidate sweepCap records tally.a tally.b ∈
      couplingCandidates records minSupport sweepCap := by
    rw [couplingCandidates, mem_sortBy, ← toCandidate_eq hcount htallied]
    refine List.mem_map_of_mem (List.mem_filter.2 ⟨?_, decide_eq_true hsupport⟩)
    exact List.mem_map.2 ⟨_, JsMap.mem_entries.2 htally, rfl⟩
  rcases hfiles with ⟨ha, hb⟩ | ⟨ha, hb⟩
  · rw [ha, hb] at hmem hcount
    exact .inl (hmem (hcount ▸ hsupport))
  · rw [ha, hb] at hmem hcount
    exact .inr (hmem (hcount ▸ coChangeCount_comm sweepCap records a b ▸ hsupport))

theorem candidates_sorted (minSupport : Int) :
    (couplingCandidates records minSupport sweepCap).Pairwise fun c d => compareCandidates c d ≤ 0 :=
  sortBy_sorted compareCandidates_consistent _

omit [Locale] in
theorem score_le_one {candidate : CouplingCandidate}
    (h : candidate = pairCandidate sweepCap records candidate.a candidate.b)
    (hpos : 0 < candidate.coChanges) : candidate.score ≤ 1 := by
  obtain ⟨hfirst, hsecond⟩ := coChangeCount_le sweepCap records candidate.a candidate.b
  rw [h] at hpos ⊢
  simp only [pairCandidate] at hpos ⊢
  have hmin := Nat.le_min.2 ⟨hfirst, hsecond⟩
  have hminPos := hpos.trans_le hmin
  refine (div_le_one (Nat.cast_pos.2 hminPos)).2 (Nat.cast_le.2 hmin)

/-! ## Histories that differ in their order -/

/-- Records of one commit, whose rows may be in another order and repeated. -/
structure SameCommit (record record' : CommitRecord N) : Prop where
  authorName : record.authorName = record'.authorName
  coAuthors : record.coAuthors = record'.coAuthors
  paths : ∀ path, path ∈ record.paths ↔ path ∈ record'.paths

/-- The same commits, in any order. -/
def SameHistory (records records' : List (CommitRecord N)) : Prop :=
  ∃ arranged, List.Forall₂ SameCommit records arranged ∧ arranged.Perm records'

omit [Locale] in
theorem contributes_same {record record' : CommitRecord N} (h : SameCommit record record') :
    contributes sweepCap record = contributes sweepCap record' := by
  have hperm : record.paths.Perm record'.paths :=
    (List.perm_ext_iff_of_nodup (nodup_paths _) (nodup_paths _)).2 h.paths
  rw [contributes, contributes, hperm.length_eq]

theorem touchesBoth_same {record record' : CommitRecord N} (h : SameCommit record record')
    (a b : JsString) : touchesBoth sweepCap a b record = touchesBoth sweepCap a b record' := by
  rw [Bool.eq_iff_iff, touchesBoth_iff, touchesBoth_iff, contributes_same h, h.paths, h.paths]

omit [Locale] in
theorem countP_same {records records' : List (CommitRecord N)} (h : SameHistory records records')
    {p : CommitRecord N → Bool} (hp : ∀ record record', SameCommit record record' →
      p record = p record') : records.countP p = records'.countP p := by
  obtain ⟨arranged, hsame, hperm⟩ := h
  rw [← hperm.countP_eq]
  clear hperm
  induction hsame with
  | nil => rfl
  | cons hrecord _ ih => rw [List.countP_cons, List.countP_cons, ih, hp _ _ hrecord]

theorem coChangeCount_same {records records' : List (CommitRecord N)}
    (h : SameHistory records records') (a b : JsString) :
    coChangeCount sweepCap records a b = coChangeCount sweepCap records' a b :=
  countP_same h fun _ _ hrecord => touchesBoth_same hrecord a b

theorem revisionCount_same {records records' : List (CommitRecord N)}
    (h : SameHistory records records') (file : JsString) :
    revisionCount sweepCap records file = revisionCount sweepCap records' file := by
  refine countP_same h fun record record' hrecord => ?_
  rw [contributes_same hrecord, Bool.eq_iff_iff, Bool.and_eq_true, Bool.and_eq_true,
    decide_eq_true_eq, decide_eq_true_eq, hrecord.paths]

theorem pairCandidate_same {records records' : List (CommitRecord N)}
    (h : SameHistory records records') (a b : JsString) :
    pairCandidate sweepCap records a b = pairCandidate sweepCap records' a b := by
  rw [pairCandidate, pairCandidate, coChangeCount_same h, revisionCount_same h, revisionCount_same h]

/-- The paths that the commits change. -/
def HistoryPath (records : List (CommitRecord N)) (path : JsString) : Prop :=
  ∃ record ∈ records, path ∈ record.paths

omit [Locale] in
theorem historyPath_same {records records' : List (CommitRecord N)}
    (h : SameHistory records records') {path : JsString} (hpath : HistoryPath records' path) :
    HistoryPath records path := by
  obtain ⟨arranged, hsame, hperm⟩ := h
  obtain ⟨record', hrecord', hmem⟩ := hpath
  rw [← hperm.mem_iff] at hrecord'
  clear hperm
  induction hsame with
  | nil => cases hrecord'
  | cons hrecord _ ih =>
    rcases List.mem_cons.1 hrecord' with rfl | hlater
    · exact ⟨_, List.mem_cons_self, (hrecord.paths path).2 hmem⟩
    · obtain ⟨record, hfound, hpath⟩ := ih hlater
      exact ⟨record, List.mem_cons_of_mem _ hfound, hpath⟩

omit [Locale] in
theorem gitPaths_iff {records : List (CommitRecord N)} :
    GitPaths records ↔ ∀ path, HistoryPath records path → (0 : UInt16) ∉ path := by
  constructor
  · rintro h path ⟨record, hrecord, hpath⟩
    exact h record hrecord path hpath
  · intro h record hrecord path hpath
    exact h path ⟨record, hrecord, hpath⟩

/-! ### The ranked candidates -/

/-- The order of the locale tells the paths of a history apart, and the keys of its pairs. -/
structure LocaleTellsApart (records : List (CommitRecord N)) : Prop where
  paths : ∀ a b, HistoryPath records a → HistoryPath records b →
    Locale.localeCompare a b = 0 → a = b
  keys : ∀ a b c d, HistoryPath records a → HistoryPath records b → HistoryPath records c →
    HistoryPath records d → Locale.localeCompare (pairKey a b) (pairKey c d) = 0 →
      pairKey a b = pairKey c d

theorem LocaleTellsApart.same {records records' : List (CommitRecord N)}
    (h : LocaleTellsApart records) (hsame : SameHistory records records') :
    LocaleTellsApart records' where
  paths a b ha hb := h.paths a b (historyPath_same hsame ha) (historyPath_same hsame hb)
  keys a b c d ha hb hc hd := h.keys a b c d (historyPath_same hsame ha) (historyPath_same hsame hb)
    (historyPath_same hsame hc) (historyPath_same hsame hd)

theorem mem_pairCandidates {records : List (CommitRecord N)} (hnul : GitPaths records)
    (hlocale : LocaleTellsApart records) {minSupport : Int} {candidate : CouplingCandidate} :
    candidate ∈ couplingCandidates records minSupport sweepCap ↔
      candidate = pairCandidate sweepCap records candidate.a candidate.b ∧
        candidate.a ≠ candidate.b ∧ Locale.localeCompare candidate.a candidate.b ≤ 0 ∧
        0 < candidate.coChanges ∧ minSupport ≤ candidate.coChanges := by
  constructor
  · intro h
    obtain ⟨heq, hne, hle, hpos, hsupport, -⟩ := candidates_sound hnul h
    exact ⟨heq, hne, hle, hpos, hsupport⟩
  · rintro ⟨heq, hne, hle, hpos, hsupport⟩
    have hcount : candidate.coChanges =
        coChangeCount sweepCap records candidate.a candidate.b := congrArg CouplingCandidate.coChanges heq
    rw [hcount] at hpos hsupport
    rcases candidates_complete hnul hne hpos hsupport with hmem | hmem
    · rwa [heq]
    · obtain ⟨-, -, hback, -, -, record, hrecord, hb, ha⟩ := candidates_sound hnul hmem
      have htie := Locale.localeCompare_consistent.zero_of_le hle hback
      exact absurd (hlocale.paths _ _ ⟨record, hrecord, ha⟩ ⟨record, hrecord, hb⟩ htie) hne

theorem nodup_candidates {records : List (CommitRecord N)} (hnul : GitPaths records)
    (minSupport : Int) : (couplingCandidates records minSupport sweepCap).Nodup := by
  rw [couplingCandidates, nodup_sortBy]
  refine List.Nodup.of_map (fun candidate : CouplingCandidate => pairKey candidate.a candidate.b) ?_
  rw [List.map_map]
  have hkeys : ((tallyCoChange records sweepCap).pairs.entries.map Prod.snd).map
      (fun tally => pairKey tally.a tally.b) = (tallyCoChange records sweepCap).pairs.keys := by
    rw [List.map_map, JsMap.keys, Entries.keys]
    refine List.map_congr_left fun entry hentry => ?_
    exact (tally_sound sweepCap hnul (JsMap.mem_entries.1 hentry)).1.symm
  have hnodup := (tallyCoChange records sweepCap).pairs.nodup_keys
  rw [← hkeys] at hnodup
  exact hnodup.sublist (List.Sublist.map _ List.filter_sublist)

theorem couplingCandidates_same {records records' : List (CommitRecord N)} (hnul : GitPaths records)
    (hlocale : LocaleTellsApart records) (h : SameHistory records records') (minSupport : Int) :
    couplingCandidates records minSupport sweepCap =
      couplingCandidates records' minSupport sweepCap := by
  have hnul' : GitPaths records' := gitPaths_iff.2 fun path hpath =>
    gitPaths_iff.1 hnul path (historyPath_same h hpath)
  have hperm : (couplingCandidates records minSupport sweepCap).Perm
      (couplingCandidates records' minSupport sweepCap) := by
    refine (List.perm_ext_iff_of_nodup (nodup_candidates hnul _) (nodup_candidates hnul' _)).2
      fun candidate => ?_
    rw [mem_pairCandidates hnul hlocale, mem_pairCandidates hnul' (hlocale.same h), pairCandidate_same h]
  refine eq_of_perm_sorted (candidates_sorted minSupport) (candidates_sorted minSupport) hperm ?_
  intro c hc d hd hcd hdc
  rw [← hperm.mem_iff] at hd
  obtain ⟨hceq, hcne, hcle, -, -, record, hrecord, hca, hcb⟩ := candidates_sound hnul hc
  obtain ⟨hdeq, -, hdle, -, -, record', hrecord', hda, hdb⟩ := candidates_sound hnul hd
  have hpathCa : HistoryPath records c.a := ⟨record, hrecord, hca⟩
  have hpathCb : HistoryPath records c.b := ⟨record, hrecord, hcb⟩
  have hpathDa : HistoryPath records d.a := ⟨record', hrecord', hda⟩
  have hpathDb : HistoryPath records d.b := ⟨record', hrecord', hdb⟩
  have hkey := hlocale.keys _ _ _ _ hpathCa hpathCb hpathDa hpathDb
    (key_tie (compareCandidates_consistent.zero_of_le hcd hdc))
  have hnulPath := gitPaths_iff.1 hnul
  rcases pairKey_injective (hnulPath _ hpathCa) (hnulPath _ hpathCb) (hnulPath _ hpathDa)
    (hnulPath _ hpathDb) hkey with ⟨ha, hb⟩ | ⟨ha, hb⟩
  · rw [hceq, hdeq, ha, hb]
  · rw [← ha, ← hb] at hdle
    exact absurd (hlocale.paths _ _ hpathCa hpathCb
      (Locale.localeCompare_consistent.zero_of_le hcle hdle)) hcne

end

end Musi.DriftAi
