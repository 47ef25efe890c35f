import Musi.DriftAi.GhostBucketsExact
import Musi.DriftAi.HotspotsCoupling

namespace Musi.DriftAi
open Musi.Js
set_option autoImplicit true

section
variable {N : Type}

/-! ## What is to be counted -/

/-- The number of contributing commits that contain both files. -/
def coChangeCount (sweepCap : Int) (records : List (CommitRecord N)) (a b : JsString) : Nat :=
  records.countP (touchesBoth sweepCap a b)

def revisionCount (sweepCap : Int) (records : List (CommitRecord N)) (file : JsString) : Nat :=
  records.countP fun record => contributes sweepCap record && file ∈ record.paths

/-- Paths without a NUL, as git has them. -/
def GitPaths (records : List (CommitRecord N)) : Prop :=
  ∀ record ∈ records, ∀ path ∈ record.paths, (0 : UInt16) ∉ path

theorem nodup_paths (record : CommitRecord N) : record.paths.Nodup := nodup_eraseDups _

theorem touchesBoth_iff {sweepCap : Int} {a b : JsString} {record : CommitRecord N} :
    touchesBoth sweepCap a b record = true ↔
      contributes sweepCap record = true ∧ a ∈ record.paths ∧ b ∈ record.paths := by
  rw [touchesBoth, Bool.and_eq_true, Bool.and_eq_true, decide_eq_true_eq, decide_eq_true_eq,
    and_assoc]

theorem touchesBoth_comm (sweepCap : Int) (a b : JsString) (record : CommitRecord N) :
    touchesBoth sweepCap a b record = touchesBoth sweepCap b a record := by
  rw [Bool.eq_iff_iff, touchesBoth_iff, touchesBoth_iff]
  exact and_congr_right fun _ => and_comm

theorem coChangeCount_comm (sweepCap : Int) (records : List (CommitRecord N)) (a b : JsString) :
    coChangeCount sweepCap records a b = coChangeCount sweepCap records b a := by
  rw [coChangeCount, coChangeCount, funext (touchesBoth_comm sweepCap a b)]

theorem coChangeCount_le (sweepCap : Int) (records : List (CommitRecord N)) (a b : JsString) :
    coChangeCount sweepCap records a b ≤ revisionCount sweepCap records a ∧
      coChangeCount sweepCap records a b ≤ revisionCount sweepCap records b := by
  constructor
  · refine List.countP_mono_left fun record _ h => ?_
    obtain ⟨hcontributes, ha, -⟩ := touchesBoth_iff.1 h
    exact Bool.and_eq_true_iff.2 ⟨hcontributes, decide_eq_true ha⟩
  · refine List.countP_mono_left fun record _ h => ?_
    obtain ⟨hcontributes, -, hb⟩ := touchesBoth_iff.1 h
    exact Bool.and_eq_true_iff.2 ⟨hcontributes, decide_eq_true hb⟩

/-! ## The tally as two loops -/

variable [Locale] (sweepCap : Int) (records : List (CommitRecord N))

def sortedPaths (record : CommitRecord N) : List JsString :=
  sortBy Locale.localeCompare record.paths

/-- The files of the contributing commits, commit by commit. -/
def countedFiles : List JsString := (records.filter (contributes sweepCap)).flatMap sortedPaths

def countedPairs : List (JsString × JsString) :=
  (records.filter (contributes sweepCap)).flatMap fun record => placePairs (sortedPaths record)

theorem tallyCoChange_eq : tallyCoChange records sweepCap =
    ⟨(countedPairs sweepCap records).foldl bumpPair JsMap.empty,
      (countedFiles sweepCap records).foldl bumpRevision JsMap.empty⟩ := by
  have hloop (tally : CoChangeTally) : records.foldl (tallyRecord sweepCap) tally =
      ⟨(countedPairs sweepCap records).foldl bumpPair tally.pairs,
        (countedFiles sweepCap records).foldl bumpRevision tally.coRevs⟩ := by
    induction records generalizing tally with
    | nil => rfl
    | cons record records ih =>
      rw [List.foldl_cons, ih, tallyRecord, countedPairs, countedPairs, countedFiles, countedFiles]
      cases hrecord : contributes sweepCap record with
      | false => rw [List.filter_cons_of_neg (by rw [hrecord]; exact Bool.false_ne_true)]; rfl
      | true =>
        rw [List.filter_cons_of_pos hrecord, List.flatMap_cons, List.flatMap_cons,
          List.foldl_append, List.foldl_append]
        rfl
  exact hloop _

/-! ## Revisions -/

theorem count_countedFiles (file : JsString) :
    (countedFiles sweepCap records).count file = revisionCount sweepCap records file := by
  induction records with
  | nil => rfl
  | cons record records ih =>
    rw [countedFiles] at ih ⊢
    rw [revisionCount, List.countP_cons]
    rw [revisionCount] at ih
    cases hrecord : contributes sweepCap record with
    | false =>
      rw [List.filter_cons_of_neg (by rw [hrecord]; exact Bool.false_ne_true), ih]
      rfl
    | true =>
      have hcount : (sortedPaths record).count file = if file ∈ record.paths then 1 else 0 := by
        rw [sortedPaths, (sortBy_perm Locale.localeCompare record.paths).count_eq]
        split
        · next hfile => exact List.count_eq_one_of_mem (nodup_paths record) hfile
        · next hfile => exact List.count_eq_zero.2 hfile
      rw [List.filter_cons_of_pos hrecord, List.flatMap_cons, List.count_append, ih, hcount,
        Nat.add_comm]
      simp only [Bool.true_and, decide_eq_true_eq]

theorem countOf_coRevs (file : JsString) :
    countOf (tallyCoChange records sweepCap).coRevs file = revisionCount sweepCap records file := by
  rw [tallyCoChange_eq, ← count_countedFiles, ← countOf_countTokens]
  rfl

/-! ## Pairs -/

/-- The step of the loop over the pairs, on the tally of their key. -/
def tallyStep (tally : Option PairTally) (pair : JsString × JsString) : PairTally :=
  match tally with
  | none => ⟨pair.1, pair.2, 1⟩
  | some existing => { existing with coOccur := existing.coOccur + 1 }

omit [Locale] in
theorem foldl_bumpPair (pairs : JsMap PairTally) (es : List (JsString × JsString)) :
    es.foldl bumpPair pairs = groupFold (fun e => pairKey e.1 e.2) tallyStep pairs es := by
  have hstep : bumpPair = fun pairs e =>
      pairs.set (pairKey e.1 e.2) (tallyStep (pairs.get (pairKey e.1 e.2)) e) := by
    funext pairs e
    rw [bumpPair]
    cases pairs.get (pairKey e.1 e.2) with
    | none => rfl
    | some existing => rfl
  rw [groupFold, hstep]

omit [Locale] in
theorem foldl_tallyStep (tally : PairTally) (es : List (JsString × JsString)) :
    es.foldl (fun tally e => some (tallyStep tally e)) (some tally) =
      some { tally with coOccur := tally.coOccur + es.length } := by
  induction es generalizing tally with
  | nil => rfl
  | cons e es ih =>
    rw [List.foldl_cons, tallyStep, ih, List.length_cons, Nat.add_right_comm, Nat.add_assoc]

/-- A tally has the files of the first pair of its key, and counts the pairs of its key. -/
theorem get_pairs {key : JsString} {tally : PairTally} :
    (tallyCoChange records sweepCap).pairs.get key = some tally ↔
      ∃ e es, ((countedPairs sweepCap records).filter fun e => pairKey e.1 e.2 = key) = e :: es ∧
        tally = ⟨e.1, e.2, es.length + 1⟩ := by
  rw [tallyCoChange_eq, foldl_bumpPair, get_groupFold]
  cases (countedPairs sweepCap records).filter fun e => pairKey e.1 e.2 = key with
  | nil =>
    refine iff_of_false (by intro h; cases h) ?_
    rintro ⟨e, es, h, -⟩
    cases h
  | cons e es =>
    rw [List.foldl_cons, JsMap.get_empty, tallyStep, foldl_tallyStep]
    constructor
    · intro h
      exact ⟨e, es, rfl, by rw [← Option.some.inj h, Nat.add_comm]⟩
    · rintro ⟨e', es', h, rfl⟩
      obtain ⟨rfl, rfl⟩ := List.cons.inj h
      rw [Nat.add_comm]

theorem mem_countedPairs {e : JsString × JsString} (h : e ∈ countedPairs sweepCap records) :
    ∃ record ∈ records, contributes sweepCap record = true ∧ e ∈ placePairs (sortedPaths record) := by
  obtain ⟨record, hrecord, he⟩ := List.mem_flatMap.1 h
  obtain ⟨hmem, hcontributes⟩ := List.mem_filter.1 hrecord
  exact ⟨record, hmem, hcontributes, he⟩

variable {records}

theorem length_filter_countedPairs (hnul : GitPaths records) {a b : JsString} (hab : a ≠ b)
    (ha : (0 : UInt16) ∉ a) (hb : (0 : UInt16) ∉ b) :
    ((countedPairs sweepCap records).filter fun e => pairKey e.1 e.2 = pairKey a b).length =
      coChangeCount sweepCap records a b := by
  induction records with
  | nil => rfl
  | cons record records ih =>
    rw [GitPaths, List.forall_mem_cons] at hnul
    have ih := ih hnul.2
    rw [countedPairs] at ih ⊢
    rw [coChangeCount, List.countP_cons]
    rw [coChangeCount] at ih
    cases hrecord : contributes sweepCap record with
    | false =>
      rw [List.filter_cons_of_neg (by rw [hrecord]; exact Bool.false_ne_true), ih]
      rw [touchesBoth, hrecord]
      rfl
    | true =>
      have hnodup : (sortedPaths record).Nodup := nodup_sortBy.2 (nodup_paths record)
      have hkey : ∀ e ∈ placePairs (sortedPaths record),
          decide (pairKey e.1 e.2 = pairKey a b) = true ↔ e = (a, b) ∨ e = (b, a) := by
        intro e he
        have hmem := mem_of_mem_placePairs he
        rw [decide_eq_true_eq]
        constructor
        · intro h
          rcases pairKey_injective (hnul.1 _ (mem_sortBy.1 hmem.1)) (hnul.1 _ (mem_sortBy.1 hmem.2))
            ha hb h with hsame | hswap
          · exact .inl (Prod.ext hsame.1 hsame.2)
          · exact .inr (Prod.ext hswap.1 hswap.2)
        · rintro (rfl | rfl)
          · rfl
          · rw [pairKey, pairKey, orderedPair_comm]
      rw [List.filter_cons_of_pos hrecord, List.flatMap_cons, List.filter_append,
        List.length_append, ih, length_filter_placePairs hnodup hab hkey, Nat.add_comm, touchesBoth,
        hrecord]
      simp only [sortedPaths, mem_sortBy, Bool.true_and, Bool.and_eq_true, decide_eq_true_eq]

/-- The pairs tallied are the pairs of distinct files that some contributing commit contains, in
an order of the locale, with the number of such commits. -/
theorem tally_sound (hnul : GitPaths records) {key : JsString} {tally : PairTally}
    (h : (tallyCoChange records sweepCap).pairs.get key = some tally) :
    key = pairKey tally.a tally.b ∧ tally.a ≠ tally.b ∧ Locale.localeCompare tally.a tally.b ≤ 0 ∧
      tally.coOccur = coChangeCount sweepCap records tally.a tally.b ∧ 0 < tally.coOccur ∧
      ∃ record ∈ records, tally.a ∈ record.paths ∧ tally.b ∈ record.paths := by
  obtain ⟨e, es, hfilter, rfl⟩ := (get_pairs sweepCap records).1 h
  have hmem : e ∈ (countedPairs sweepCap records).filter fun e => pairKey e.1 e.2 = key :=
    hfilter ▸ List.mem_cons_self
  obtain ⟨he, hkey⟩ := List.mem_filter.1 hmem
  rw [decide_eq_true_eq] at hkey
  obtain ⟨record, hrecord, -, hpair⟩ := mem_countedPairs sweepCap records he
  have hsub := sublist_of_mem_placePairs hpair
  have hpaths := mem_of_mem_placePairs hpair
  have hnodup : (sortedPaths record).Nodup := nodup_sortBy.2 (nodup_paths record)
  have hne : e.1 ≠ e.2 := by simpa using hnodup.sublist hsub
  have hle : Locale.localeCompare e.1 e.2 ≤ 0 :=
    List.pairwise_iff_forall_sublist.1 (sortBy_sorted Locale.localeCompare_consistent _) hsub
  have hfirst := mem_sortBy.1 hpaths.1
  have hsecond := mem_sortBy.1 hpaths.2
  have hcount := length_filter_countedPairs sweepCap hnul hne (hnul record hrecord _ hfirst)
    (hnul record hrecord _ hsecond)
  rw [hkey, hfilter, List.length_cons] at hcount
  exact ⟨hkey.symm, hne, hle, hcount, Nat.succ_pos _, record, hrecord, hfirst, hsecond⟩

theorem tally_complete (hnul : GitPaths records) {a b : JsString} (hab : a ≠ b)
    (hcount : 0 < coChangeCount sweepCap records a b) :
    ∃ tally, (tallyCoChange records sweepCap).pairs.get (pairKey a b) = some tally ∧
      (tally.a = a ∧ tally.b = b ∨ tally.a = b ∧ tally.b = a) := by
  obtain ⟨record, hrecord, htouches⟩ := List.countP_pos_iff.1 hcount
  obtain ⟨-, ha, hb⟩ := touchesBoth_iff.1 htouches
  have hlength := length_filter_countedPairs sweepCap hnul hab (hnul record hrecord a ha)
    (hnul record hrecord b hb)
  cases hfilter : (countedPairs sweepCap records).filter fun e => pairKey e.1 e.2 = pairKey a b with
  | nil =>
    rw [hfilter, List.length_nil] at hlength
    omega
  | cons e es =>
    refine ⟨⟨e.1, e.2, es.length + 1⟩, (get_pairs sweepCap records).2 ⟨e, es, hfilter, rfl⟩, ?_⟩
    have hmem : e ∈ (countedPairs sweepCap records).filter fun e => pairKey e.1 e.2 = pairKey a b :=
      hfilter ▸ List.mem_cons_self
    obtain ⟨he, hkey⟩ := List.mem_filter.1 hmem
    obtain ⟨record', hrecord', -, hpair⟩ := mem_countedPairs sweepCap records he
    have hpaths := mem_of_mem_placePairs hpair
    exact pairKey_injective (hnul record' hrecord' _ (mem_sortBy.1 hpaths.1))
      (hnul record' hrecord' _ (mem_sortBy.1 hpaths.2)) (hnul record hrecord a ha)
      (hnul record hrecord b hb) (of_decide_eq_true hkey)

end

/-! ## The degree cap -/

def CouplingCandidate.hasFile (file : JsString) (candidate : CouplingCandidate) : Bool :=
  candidate.a = file || candidate.b = file

/-- The degrees are the numbers of selected pairs. -/
structure CapState (degreeCap : Nat) (degree : JsMap Nat) (selected : List CouplingCandidate) :
    Prop where
  degrees : ∀ file, countOf degree file = selected.countP (CouplingCandidate.hasFile file)
  capped : ∀ file, selected.countP (CouplingCandidate.hasFile file) ≤ degreeCap

theorem CapState.start (degreeCap : Nat) : CapState degreeCap JsMap.empty [] where
  degrees _ := rfl
  capped _ := Nat.zero_le _

theorem countP_select (selected : List CouplingCandidate) (candidate : CouplingCandidate)
    (file : JsString) : (selected ++ [candidate]).countP (CouplingCandidate.hasFile file) =
      selected.countP (CouplingCandidate.hasFile file) +
        if candidate.a = file ∨ candidate.b = file then 1 else 0 := by
  rw [List.countP_append, List.countP_singleton, CouplingCandidate.hasFile]
  simp only [Bool.or_eq_true, decide_eq_true_eq]

theorem CapState.select {degreeCap : Nat} {degree : JsMap Nat} {selected : List CouplingCandidate}
    (h : CapState degreeCap degree selected) {candidate : CouplingCandidate}
    (hne : candidate.a ≠ candidate.b) (ha : ¬ countOf degree candidate.a ≥ degreeCap)
    (hb : ¬ countOf degree candidate.b ≥ degreeCap) :
    CapState degreeCap (bumpRevision (bumpRevision degree candidate.a) candidate.b)
      (selected ++ [candidate]) where
  degrees file := by
    rw [countP_select, ← h.degrees, bumpRevision, bumpRevision, countOf_set, countOf_set,
      countOf_set, if_neg hne.symm]
    by_cases hfirst : candidate.a = file
    · subst hfirst
      rw [if_neg hne, if_pos rfl, if_pos (.inl rfl)]
    · by_cases hsecond : candidate.b = file
      · subst hsecond
        rw [if_pos rfl, if_pos (.inr rfl)]
      · rw [if_neg (Ne.symm hsecond), if_neg (Ne.symm hfirst),
          if_neg (not_or.2 ⟨hfirst, hsecond⟩), Nat.add_zero]
  capped file := by
    have hfile := h.capped file
    rw [countP_select]
    split
    · next htouched =>
      rcases htouched with rfl | rfl
      · rw [h.degrees] at ha
        omega
      · rw [h.degrees] at hb
        omega
    · exact hfile

/-- What the loop selects: a part of the ranking that keeps to the cap. A candidate that it passes
over without filling the list has a file in as many pairs selected before it as the cap allows. -/
structure CappedSelection (cmp : CouplingCandidate → CouplingCandidate → Int) (degreeCap top : Nat)
    (candidates result : List CouplingCandidate) : Prop where
  capped : ∀ file, result.countP (CouplingCandidate.hasFile file) ≤ degreeCap
  passedOver : result.length < top → ∀ candidate ∈ candidates, candidate ∉ result →
    ∃ file, candidate.hasFile file = true ∧
      degreeCap ≤ result.countP fun other => other.hasFile file && cmp other candidate ≤ 0

theorem countP_above {cmp : CouplingCandidate → CouplingCandidate → Int}
    {selected picked : List CouplingCandidate} {candidate : CouplingCandidate}
    (h : ∀ other ∈ selected, cmp other candidate ≤ 0) (file : JsString) :
    selected.countP (CouplingCandidate.hasFile file) ≤ (selected ++ picked).countP fun other =>
      other.hasFile file && cmp other candidate ≤ 0 := by
  rw [List.countP_append]
  refine Nat.le_trans (List.countP_mono_left fun other hother hfile => ?_) (Nat.le_add_right _ _)
  exact Bool.and_eq_true_iff.2 ⟨hfile, decide_eq_true (h other hother)⟩

theorem capDegreeFrom_spec {cmp : CouplingCandidate → CouplingCandidate → Int} {degreeCap : Nat}
    (top : Nat) {degree : JsMap Nat} {selected candidates : List CouplingCandidate}
    (h : CapState degreeCap degree selected) (hne : ∀ candidate ∈ candidates, candidate.a ≠ candidate.b)
    (hsorted : (selected ++ candidates).Pairwise fun c d => cmp c d ≤ 0) :
    (∃ picked, picked.Sublist candidates ∧
      capDegreeFrom degreeCap top degree selected candidates = selected ++ picked) ∧
    CappedSelection cmp degreeCap top candidates
      (capDegreeFrom degreeCap top degree selected candidates) := by
  induction candidates generalizing degree selected with
  | nil =>
    refine ⟨⟨[], List.Sublist.refl _, (List.append_nil _).symm⟩, h.capped, ?_⟩
    intro _ candidate hcandidate
    cases hcandidate
  | cons candidate candidates ih =>
    rw [List.forall_mem_cons] at hne
    have habove : ∀ other ∈ selected, cmp other candidate ≤ 0 := fun other hother =>
      (List.pairwise_append.1 hsorted).2.2 other hother candidate List.mem_cons_self
    have hskip : (selected ++ candidates).Pairwise fun c d => cmp c d ≤ 0 :=
      hsorted.sublist ((List.sublist_cons_self candidate candidates).append_left selected)
    have htaken : (selected ++ [candidate] ++ candidates).Pairwise fun c d => cmp c d ≤ 0 := by
      rwa [List.append_assoc, List.singleton_append]
    -- A candidate is passed over for one of its files.
    have hpassed (file : JsString) (hfile : candidate.hasFile file = true)
        (hfull : countOf degree file ≥ degreeCap) :
        (∃ picked, picked.Sublist (candidate :: candidates) ∧
          capDegreeFrom degreeCap top degree selected candidates = selected ++ picked) ∧
        CappedSelection cmp degreeCap top (candidate :: candidates)
          (capDegreeFrom degreeCap top degree selected candidates) := by
      obtain ⟨⟨picked, hsub, hresult⟩, hselection⟩ := ih h hne.2 hskip
      refine ⟨⟨picked, hsub.cons candidate, hresult⟩, hselection.capped, ?_⟩
      intro hshort other hother hnot
      rcases List.mem_cons.1 hother with rfl | hother
      · refine ⟨file, hfile, Nat.le_trans ?_ (hresult ▸ countP_above habove file)⟩
        rw [h.degrees] at hfull
        exact hfull
      · exact hselection.passedOver hshort other hother hnot
    rw [capDegreeFrom]
    split
    · next ha =>
      exact hpassed candidate.a (by simp [CouplingCandidate.hasFile]) ha
    · next ha =>
      split
      · next hb =>
        exact hpassed candidate.b (by simp [CouplingCandidate.hasFile]) hb
      · next hb =>
        have hselect := h.select hne.1 ha hb
        split
        · next hfull =>
          refine ⟨⟨[candidate], (List.nil_sublist _).cons_cons candidate, rfl⟩,
            hselect.capped, fun hshort => ?_⟩
          omega
        · obtain ⟨⟨picked, hsub, hresult⟩, hselection⟩ := ih hselect hne.2 htaken
          refine ⟨⟨candidate :: picked, hsub.cons_cons candidate, ?_⟩, hselection.capped, ?_⟩
          · rw [hresult, List.append_assoc, List.singleton_append]
          · intro hshort other hother hnot
            rcases List.mem_cons.1 hother with rfl | hother
            · refine absurd ?_ hnot
              rw [hresult]
              simp
            · exact hselection.passedOver hshort other hother hnot

theorem capDegree_spec {cmp : CouplingCandidate → CouplingCandidate → Int} (degreeCap top : Nat)
    {candidates : List CouplingCandidate} (hne : ∀ candidate ∈ candidates, candidate.a ≠ candidate.b)
    (hsorted : candidates.Pairwise fun c d => cmp c d ≤ 0) :
    (capDegree candidates degreeCap top).Sublist candidates ∧
      CappedSelection cmp degreeCap top candidates (capDegree candidates degreeCap top) := by
  obtain ⟨⟨picked, hsub, hresult⟩, hselection⟩ :=
    capDegreeFrom_spec top (CapState.start degreeCap) hne hsorted
  rw [List.nil_append] at hresult
  rw [capDegree]
  exact ⟨hresult ▸ hsub, hselection⟩

end Musi.DriftAi
