import Musi.DriftAi.HotspotsCouplingRanking

namespace Musi.DriftAi
open Musi.Js
set_option autoImplicit true

section
variable {N : Type}

/-! ## Hands -/

/-- The names that a commit counts for, as they are counted. -/
def hands (record : CommitRecord N) : List JsString :=
  ((record.authorName :: record.coAuthors.map displayName).map trim).filter fun name =>
    name.length ≠ 0

theorem foldl_bump (counts : JsMap Nat) (names : List JsString) :
    names.foldl bump counts =
      ((names.map trim).filter fun name => name.length ≠ 0).foldl bumpRevision counts := by
  induction names generalizing counts with
  | nil => rfl
  | cons name names ih =>
    rw [List.foldl_cons, ih, List.map_cons, bump]
    by_cases hname : (trim name).length = 0
    · rw [if_pos hname, List.filter_cons_of_neg (by simpa using hname)]
    · rw [if_neg hname, List.filter_cons_of_pos (by simpa using hname)]
      rfl

theorem bumpHands_eq (counts : JsMap Nat) (record : CommitRecord N) :
    bumpHands counts record = (hands record).foldl bumpRevision counts := by
  rw [bumpHands, hands, ← foldl_bump, List.foldl_cons, List.foldl_map]

theorem foldl_bumpHands (records : List (CommitRecord N)) :
    records.foldl bumpHands JsMap.empty = countTokens (records.flatMap hands) := by
  rw [countTokens, List.foldl_flatMap]
  exact congrArg (fun step => records.foldl step JsMap.empty)
    (funext fun counts => funext fun record => bumpHands_eq counts record)

theorem get_countTokens (tokens : List JsString) (token : JsString) :
    (countTokens tokens).get token =
      if tokens.count token = 0 then none else some (tokens.count token) := by
  have hloop (counts : JsMap Nat) : (tokens.foldl bumpRevision counts).get token =
      if tokens.count token = 0 then counts.get token
      else some (countOf counts token + tokens.count token) := by
    induction tokens generalizing counts with
    | nil => rfl
    | cons first tokens ih =>
      rw [List.foldl_cons, ih, bumpRevision, countOf_set, JsMap.get_set]
      by_cases heq : first = token
      · subst heq
        rw [List.count_cons_self, if_neg (Nat.succ_ne_zero _), if_pos rfl, if_pos rfl]
        split
        · next hzero => rw [hzero]
        · rw [Nat.add_assoc, Nat.add_comm 1]
      · rw [List.count_cons_of_ne heq, if_neg (Ne.symm heq), if_neg (Ne.symm heq)]
  have hempty := hloop JsMap.empty
  rw [countOf, JsMap.get_empty, Option.getD_none, Nat.zero_add] at hempty
  exact hempty

theorem hands_same {record record' : CommitRecord N} (h : SameCommit record record') :
    hands record = hands record' := by
  rw [hands, hands, h.authorName, h.coAuthors]

theorem touchingHands_same {records records' : List (CommitRecord N)}
    (h : SameHistory records records') (sweepCap : Int) (a b : JsString) :
    ((records.filter (touchesBoth sweepCap a b)).flatMap hands).Perm
      ((records'.filter (touchesBoth sweepCap a b)).flatMap hands) := by
  obtain ⟨arranged, hsame, hperm⟩ := h
  refine List.Perm.trans (.of_eq ?_) ((hperm.filter _).flatMap_right hands)
  clear hperm
  induction hsame with
  | nil => rfl
  | @cons record record' records arranged hrecord _ ih =>
    have htouches : touchesBoth sweepCap a b record = touchesBoth sweepCap a b record' :=
      touchesBoth_same hrecord a b
    cases hboth : touchesBoth sweepCap a b record with
    | true =>
      rw [List.filter_cons_of_pos hboth, List.filter_cons_of_pos (htouches ▸ hboth),
        List.flatMap_cons, List.flatMap_cons, ih, hands_same hrecord]
    | false =>
      rw [List.filter_cons_of_neg (by rw [hboth]; exact Bool.false_ne_true),
        List.filter_cons_of_neg (by rw [← htouches, hboth]; exact Bool.false_ne_true), ih]

variable [Locale]

theorem compareAuthors_consistent : ConsistentComparator compareAuthors :=
  (subtractNat_strict.toConsistentComparator.reversed.comap HotspotAuthor.commits).orElse
    (Locale.localeCompare_consistent.comap HotspotAuthor.name)

/-- The order of the locale tells the hands of a history apart. -/
def LocaleTellsHandsApart (records : List (CommitRecord N)) : Prop :=
  ∀ m n, m ∈ records.flatMap hands → n ∈ records.flatMap hands →
    Locale.localeCompare m n = 0 → m = n

theorem aggregateAuthors_same {records records' : List (CommitRecord N)}
    (h : SameHistory records records') (hlocale : LocaleTellsHandsApart records) (sweepCap : Int)
    (a b : JsString) : aggregateAuthors records (touchesBoth sweepCap a b) =
      aggregateAuthors records' (touchesBoth sweepCap a b) := by
  have htokens := touchingHands_same h sweepCap a b
  have hentries : (countTokens ((records.filter (touchesBoth sweepCap a b)).flatMap hands)).entries.Perm
      (countTokens ((records'.filter (touchesBoth sweepCap a b)).flatMap hands)).entries := by
    refine JsMap.entries_perm fun name => ?_
    rw [get_countTokens, get_countTokens, htokens.count_eq]
  rw [aggregateAuthors, aggregateAuthors, foldl_bumpHands, foldl_bumpHands]
  have hauthors := hentries.map fun entry : JsString × Nat => HotspotAuthor.mk entry.1 entry.2
  have hknown {author : HotspotAuthor} (hauthor : author ∈
      (countTokens ((records.filter (touchesBoth sweepCap a b)).flatMap hands)).entries.map
        fun entry => HotspotAuthor.mk entry.1 entry.2) : author.name ∈ records.flatMap hands := by
    obtain ⟨entry, hentry, rfl⟩ := List.mem_map.1 hauthor
    have hget : (countTokens ((records.filter (touchesBoth sweepCap a b)).flatMap hands)).get
        entry.1 = some entry.2 := JsMap.mem_entries.1 hentry
    rw [get_countTokens] at hget
    split at hget
    · cases hget
    · next hcount =>
      have hmem := List.count_pos_iff.1 (Nat.pos_of_ne_zero hcount)
      obtain ⟨record, hrecord, hname⟩ := List.mem_flatMap.1 hmem
      exact List.mem_flatMap.2 ⟨record, (List.mem_filter.1 hrecord).1, hname⟩
  refine congrArg (List.take defaultAuthorLimit) (eq_of_perm_sorted
    (sortBy_sorted compareAuthors_consistent _) (sortBy_sorted compareAuthors_consistent _)
    ((sortBy_perm _ _).trans (hauthors.trans (sortBy_perm _ _).symm)) ?_)
  intro m hm n hn hmn hnm
  rw [mem_sortBy] at hm hn
  obtain ⟨hcommits, hname⟩ := orElse_zero.1 (compareAuthors_consistent.zero_of_le hmn hnm)
  have hn' := hauthors.mem_iff.2 hn
  cases m
  cases n
  rw [HotspotAuthor.mk.injEq]
  exact ⟨hlocale _ _ (hknown hm) (hknown hn') hname,
    (subtractNat_strict.eq_of_zero hcommits).symm⟩

/-! ## The section -/

/-- An entry without what is read from the order of the commits: the recent subjects. -/
structure CouplingRow where
  candidate : CouplingCandidate
  authors : List HotspotAuthor
  inspectCommand : JsString

def CouplingHotspot.row {Intent : Type} (entry : CouplingHotspot Intent) : CouplingRow :=
  ⟨entry.toCouplingCandidate, entry.authors, entry.inspectCommand⟩

/-- The section is the same but for the recent subjects. -/
structure SameSection {Intent : Type} (left right : CouplingSection Intent) : Prop where
  minSupport : left.minSupport = right.minSupport
  degreeCap : left.degreeCap = right.degreeCap
  sweepCap : left.sweepCap = right.sweepCap
  emptyReason : left.emptyReason = right.emptyReason
  rows : left.entries.map CouplingHotspot.row = right.entries.map CouplingHotspot.row

/-- What the lens promises of the pairs that it reports. -/
structure CouplingReport {Intent : Type} (records : List (CommitRecord N)) (top : Nat)
    (report : CouplingSection Intent) : Prop where
  counted : ∀ entry ∈ report.entries, entry.a ≠ entry.b ∧
    entry.coChanges = coChangeCount report.sweepCap records entry.a entry.b ∧
    entry.revisionsA = revisionCount report.sweepCap records entry.a ∧
    entry.revisionsB = revisionCount report.sweepCap records entry.b
  supported : ∀ entry ∈ report.entries, report.minSupport ≤ entry.coChanges ∧
    entry.coChanges ≤ entry.revisionsA ∧ entry.coChanges ≤ entry.revisionsB ∧ entry.score ≤ 1
  capped : ∀ file, report.entries.countP (fun entry => entry.hasFile file) ≤ report.degreeCap
  complete : report.entries.length < top → ∀ a b, a ≠ b →
    0 < coChangeCount report.sweepCap records a b →
    report.minSupport ≤ coChangeCount report.sweepCap records a b →
    (∀ entry ∈ report.entries, ¬ (entry.hasFile a = true ∧ entry.hasFile b = true)) →
    ∃ file ∈ [a, b], report.degreeCap ≤ report.entries.countP fun entry => entry.hasFile file &&
      compareCandidates entry.toCouplingCandidate (pairCandidate report.sweepCap records a b) ≤ 0

variable {Intent : Type} (buildCommitIntentOverlay : List JsString → Intent)
  {records : List (CommitRecord N)} (options : ReduceCouplingOptions)

/-- The pairs reported, as ranked candidates. -/
def selectedPairs (records : List (CommitRecord N)) (options : ReduceCouplingOptions) :
    List CouplingCandidate :=
  capDegree (couplingCandidates records (options.minSupport.getD defaultMinSupport)
    (options.sweepCap.getD defaultSweepCap)) (options.degreeCap.getD defaultDegreeCap) options.top

theorem entries_candidates :
    (reduceCoupling buildCommitIntentOverlay records options).entries.map
      CouplingHotspot.toCouplingCandidate = selectedPairs records options := by
  rw [reduceCoupling, List.map_map]
  exact List.map_id _

omit [Locale] in
theorem hasFile_pair {sweepCap : Int} {a b file : JsString} :
    (pairCandidate sweepCap records a b).hasFile file = true ↔ file = a ∨ file = b := by
  rw [CouplingCandidate.hasFile, pairCandidate, Bool.or_eq_true, decide_eq_true_eq,
    decide_eq_true_eq]
  exact or_congr eq_comm eq_comm

theorem reduceCoupling_report (hnul : GitPaths records) :
    CouplingReport records options.top (reduceCoupling buildCommitIntentOverlay records options) := by
  have hentries : (reduceCoupling buildCommitIntentOverlay records options).entries.map
      CouplingHotspot.toCouplingCandidate = selectedPairs records options :=
    entries_candidates buildCommitIntentOverlay options
  have hcountP (p : CouplingCandidate → Bool) :
      (reduceCoupling buildCommitIntentOverlay records options).entries.countP
        (fun entry => p entry.toCouplingCandidate) = (selectedPairs records options).countP p := by
    rw [← hentries, List.countP_map]
    rfl
  have hne : ∀ candidate ∈ couplingCandidates records (options.minSupport.getD defaultMinSupport)
      (options.sweepCap.getD defaultSweepCap), candidate.a ≠ candidate.b := fun _ hcandidate =>
    (candidates_sound hnul hcandidate).2.1
  obtain ⟨hsub, hselection⟩ := capDegree_spec (options.degreeCap.getD defaultDegreeCap) options.top
    hne (candidates_sorted _)
  have hsound {entry : CouplingHotspot Intent}
      (hentry : entry ∈ (reduceCoupling buildCommitIntentOverlay records options).entries) :=
    candidates_sound hnul (hsub.subset (a := entry.toCouplingCandidate) (by
      change entry.toCouplingCandidate ∈ selectedPairs records options
      rw [← hentries]
      exact List.mem_map_of_mem hentry))
  constructor
  · intro entry hentry
    obtain ⟨heq, hfiles, -⟩ := hsound hentry
    exact ⟨hfiles, congrArg CouplingCandidate.coChanges heq,
      congrArg CouplingCandidate.revisionsA heq, congrArg CouplingCandidate.revisionsB heq⟩
  · intro entry hentry
    obtain ⟨heq, -, -, hpos, hsupport, -⟩ := hsound hentry
    have hcounts := coChangeCount_le (options.sweepCap.getD defaultSweepCap) records entry.a entry.b
    refine ⟨hsupport, ?_, ?_, score_le_one heq hpos⟩
    · rw [heq]
      exact hcounts.1
    · rw [heq]
      exact hcounts.2
  · intro file
    rw [hcountP (CouplingCandidate.hasFile file)]
    exact hselection.capped file
  · intro hshort a b hab hpos hsupport hnot
    have hlength := congrArg List.length hentries
    rw [List.length_map] at hlength
    rw [hlength] at hshort
    have hunreported {candidate : CouplingCandidate} (ha : candidate.hasFile a = true)
        (hb : candidate.hasFile b = true) : candidate ∉ selectedPairs records options := by
      rw [← hentries]
      intro hmem
      obtain ⟨entry, hentry, rfl⟩ := List.mem_map.1 hmem
      exact hnot entry hentry ⟨ha, hb⟩
    rcases candidates_complete hnul hab hpos hsupport with hmem | hmem
    · obtain ⟨file, hfile, hfull⟩ := hselection.passedOver hshort _ hmem
        (hunreported (hasFile_pair.2 (.inl rfl)) (hasFile_pair.2 (.inr rfl)))
      refine ⟨file, ?_, ?_⟩
      · rw [List.mem_pair]
        exact hasFile_pair.1 hfile
      · rw [hcountP fun candidate => candidate.hasFile file && compareCandidates candidate _ ≤ 0]
        exact hfull
    · obtain ⟨file, hfile, hfull⟩ := hselection.passedOver hshort _ hmem
        (hunreported (hasFile_pair.2 (.inr rfl)) (hasFile_pair.2 (.inl rfl)))
      refine ⟨file, ?_, ?_⟩
      · rw [List.mem_pair]
        exact (hasFile_pair.1 hfile).symm
      · rw [hcountP fun candidate => candidate.hasFile file && compareCandidates candidate _ ≤ 0]
        simp only [compareCandidates_pair _ records _ a b]
        exact hfull

theorem reduceCoupling_same (hnul : GitPaths records) {records' : List (CommitRecord N)}
    (h : SameHistory records records') (hlocale : LocaleTellsApart records)
    (hhands : LocaleTellsHandsApart records) :
    SameSection (reduceCoupling buildCommitIntentOverlay records options)
      (reduceCoupling buildCommitIntentOverlay records' options) := by
  have hselected : selectedPairs records options = selectedPairs records' options := by
    rw [selectedPairs, selectedPairs, couplingCandidates_same hnul hlocale h]
  have hrows : (reduceCoupling buildCommitIntentOverlay records options).entries.map
      CouplingHotspot.row =
        (reduceCoupling buildCommitIntentOverlay records' options).entries.map
          CouplingHotspot.row := by
    have hmap (records : List (CommitRecord N)) :
        (reduceCoupling buildCommitIntentOverlay records options).entries.map CouplingHotspot.row =
          (selectedPairs records options).map fun candidate =>
            (withContext buildCommitIntentOverlay records
              (options.sweepCap.getD defaultSweepCap) candidate).row := by
      rw [reduceCoupling, List.map_map]
      rfl
    rw [hmap, hmap, hselected]
    refine List.map_congr_left fun candidate _ => ?_
    have hauthors := aggregateAuthors_same h hhands (options.sweepCap.getD defaultSweepCap)
      candidate.a candidate.b
    rw [withContext, withContext, buildRowActionability, buildRowActionability,
      CouplingHotspot.row, CouplingHotspot.row]
    dsimp only
    rw [hauthors]
  have hlength := congrArg List.length hrows
  rw [List.length_map, List.length_map] at hlength
  refine ⟨rfl, rfl, rfl, ?_, hrows⟩
  change (if (reduceCoupling buildCommitIntentOverlay records options).entries.length = 0 then _
    else none) = _
  rw [hlength]
  rfl

/-- Every reported pair has the counts of the contributing commits, no file is in more pairs than
the cap allows, and no pair is left out but for a file that is in as many pairs ranked above it.
Neither the order of the commits nor the rows of a commit matter, except to the recent subjects. -/
theorem reduceCoupling_exact (hnul : GitPaths records) :
    CouplingReport records options.top (reduceCoupling buildCommitIntentOverlay records options) ∧
    ∀ records', SameHistory records records' → LocaleTellsApart records →
      LocaleTellsHandsApart records →
        SameSection (reduceCoupling buildCommitIntentOverlay records options)
          (reduceCoupling buildCommitIntentOverlay records' options) :=
  ⟨reduceCoupling_report buildCommitIntentOverlay options hnul, fun _ h hlocale hhands =>
    reduceCoupling_same buildCommitIntentOverlay options hnul h hlocale hhands⟩

end

/-- A commit of one author that changes the files. -/
def commitOf (subject : JsString) (paths : List JsString) : CommitRecord Nat where
  hash := []
  authorName := js "Ada"
  authorEmail := []
  authorDate := []
  committerDate := []
  subject := subject
  coAuthors := []
  files := paths.map fun path => ⟨path, 1, 0, false⟩

def reportEveryPair (top : Nat) : ReduceCouplingOptions := ⟨top, some 1, none, none⟩

theorem reduceCoupling_exact_pair :
    CouplingReport [commitOf (js "one") [js "a", js "b"], commitOf (js "two") [js "b", js "a"]] 1
      (reduceCoupling id [commitOf (js "one") [js "a", js "b"],
        commitOf (js "two") [js "b", js "a"]] (reportEveryPair 1)) ∧
    SameSection
      (reduceCoupling id [commitOf (js "one") [js "a", js "b"],
        commitOf (js "two") [js "b", js "a"]] (reportEveryPair 1))
      (reduceCoupling id [commitOf (js "two") [js "b", js "a"],
        commitOf (js "one") [js "a", js "b"]] (reportEveryPair 1)) := by
  have hnul : GitPaths [commitOf (js "one") [js "a", js "b"],
      commitOf (js "two") [js "b", js "a"]] := by
    unfold GitPaths
    decide
  have hexact := reduceCoupling_exact id (reportEveryPair 1) hnul
  refine ⟨hexact.1, hexact.2 _ ⟨_, ?_, List.Perm.swap _ _ _⟩ ⟨?_, ?_⟩ ?_⟩
  · exact .cons ⟨rfl, rfl, fun _ => Iff.rfl⟩ (.cons ⟨rfl, rfl, fun _ => Iff.rfl⟩ .nil)
  · exact fun _ _ _ _ => compareCodeUnits_strict.eq_of_zero
  · exact fun _ _ _ _ _ _ _ _ => compareCodeUnits_strict.eq_of_zero
  · exact fun _ _ _ _ => compareCodeUnits_strict.eq_of_zero

theorem consistent_nulBlind : ConsistentComparator fun s t : JsString =>
    compareCodeUnits (s.filter fun c => c ≠ 0) (t.filter fun c => c ≠ 0) :=
  compareCodeUnits_strict.toConsistentComparator.comap _

/-- An order that passes over NUL, as the collation of a locale does. -/
@[reducible] def nulBlindLocale : Locale where
  localeCompare s t := compareCodeUnits (s.filter fun c => c ≠ 0) (t.filter fun c => c ≠ 0)
  localeCompare_consistent := consistent_nulBlind

/-- The recent subjects follow the order of the commits, paths that hold a NUL may share a key, and
pairs whose keys tie in the order of the locale are ranked in the order of the commits. -/
theorem reduceCoupling_fails :
    (∃ records records' : List (CommitRecord Nat), records.Perm records' ∧
      (reduceCoupling id records (reportEveryPair 1)).entries.map (fun entry => entry.recentSubjects) ≠
        (reduceCoupling id records' (reportEveryPair 1)).entries.map
          fun entry => entry.recentSubjects) ∧
    (∃ records : List (CommitRecord Nat),
      ∃ entry ∈ (reduceCoupling id records (reportEveryPair 1)).entries,
        entry.coChanges ≠ coChangeCount 40 records entry.a entry.b) ∧
    ∃ records records' : List (CommitRecord Nat), records.Perm records' ∧
      (@reduceCoupling Nat nulBlindLocale _ id records (reportEveryPair 1)).entries.map
          (fun entry => entry.a) ≠
        (@reduceCoupling Nat nulBlindLocale _ id records' (reportEveryPair 1)).entries.map
          fun entry => entry.a := by
  refine ⟨⟨[commitOf (js "one") [js "a", js "b"], commitOf (js "two") [js "a", js "b"]], _,
      List.Perm.swap _ _ _, ?_⟩,
    ⟨[commitOf [] [[0x61, 0, 0x62], [0x63]], commitOf [] [[0x61], [0x62, 0, 0x63]]], ?_⟩,
    ⟨[commitOf [] [js "a", js "bc"], commitOf [] [js "ab", js "c"]], _, List.Perm.swap _ _ _, ?_⟩⟩
  · decide +kernel
  · refine List.any_eq_true.1 ?_ |>.imp fun entry h => ⟨h.1, of_decide_eq_true h.2⟩
    decide +kernel
  · decide +kernel

end Musi.DriftAi
