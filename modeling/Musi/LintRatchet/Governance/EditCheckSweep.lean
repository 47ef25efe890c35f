import Musi.LintRatchet.Governance.EditCheck
import Musi.LintRatchet.Kernel.CollectorIndependence
import Musi.LintRatchet.Kernel.CurrentCollectionScheduler
import Musi.LintRatchet.Kernel.DriverGate
import Musi.LintRatchet.Kernel.PosixHost
import Musi.LintRatchet.Kernel.UpdateFacts

namespace Musi.LintRatchet
open Musi.Js Musi.System
set_option autoImplicit true

section
variable {N : Type}

/-! ## The item of a path -/

section Items
variable {ratchet : LintRatchetConfig N} {repoRootPath path : JsString}
  {results results' : List (ESLintFileResult N)} {items items' : JsMap (LintRatchetCurrentItem N)}
  [JsNumber N] [Host]

/-- The finding of a message that can be read. -/
def readFinding (ratchet : LintRatchetConfig N) (repoRootPath : JsString)
    (x : JsString × ESLintMessage N) : Option (Finding N) :=
  (findingOf ratchet repoRootPath x).toOption.join

theorem readFinding_path {x : JsString × ESLintMessage N} {finding : Finding N}
    (h : readFinding ratchet repoRootPath x = some finding) :
    finding.path = relativePathForRoot x.1 repoRootPath := by
  unfold readFinding at h
  cases hread : findingOf ratchet repoRootPath x with
  | error e =>
    rw [hread] at h
    cases h
  | ok o =>
    rw [hread] at h
    obtain rfl : o = some finding := h
    obtain ⟨-, metric, -, rfl⟩ := findingOf_some hread
    rfl

theorem reduceOption_found {xs : List (JsString × ESLintMessage N)}
    {found : List (Option (Finding N))}
    (h : xs.mapM (findingOf ratchet repoRootPath) = .ok found) :
    found.reduceOption = xs.filterMap (readFinding ratchet repoRootPath) := by
  have hall := mapM_ok.1 h
  clear h
  induction hall with
  | nil => rfl
  | @cons x o xs found hx _ ih =>
    have hread : readFinding ratchet repoRootPath x = o := by
      rw [readFinding, hx]
      rfl
    cases o with
    | none => rw [List.reduceOption_cons_of_none, List.filterMap_cons_none hread, ih]
    | some finding => rw [List.reduceOption_cons_of_some, List.filterMap_cons_some hread, ih]

theorem identitiesFor_filter (findings : List (Finding N)) (path : JsString) :
    identitiesFor (findings.filter fun f => f.path = path) path = identitiesFor findings path := by
  induction findings with
  | nil => rfl
  | cons finding findings ih =>
    unfold identitiesFor identitiesOf at ih ⊢
    by_cases hpath : finding.path = path
    · rw [List.filter_cons_of_pos (by simpa using hpath)]
      cases hidentity : finding.identity with
      | none =>
        rw [List.filterMap_cons_none (by rw [hidentity]; rfl),
          List.filterMap_cons_none (by rw [hidentity]; rfl), ih]
      | some identity =>
        rw [List.filterMap_cons_some (b := (finding.path, identity)) (by rw [hidentity]; rfl),
          List.filterMap_cons_some (b := (finding.path, identity)) (by rw [hidentity]; rfl),
          List.filter_cons_of_pos (by simpa using hpath),
          List.filter_cons_of_pos (by simpa using hpath), List.map_cons, List.map_cons, ih]
    · rw [List.filter_cons_of_neg (by simpa using hpath), ih]
      cases hidentity : finding.identity with
      | none => rw [List.filterMap_cons_none (by rw [hidentity]; rfl)]
      | some identity =>
        rw [List.filterMap_cons_some (b := (finding.path, identity)) (by rw [hidentity]; rfl),
          List.filter_cons_of_neg (by simpa using hpath)]

/-- The messages of a path. -/
def locatedAt (repoRootPath path : JsString) (results : List (ESLintFileResult N)) :
    List (JsString × ESLintMessage N) :=
  (located results).filter fun x => relativePathForRoot x.1 repoRootPath = path

/-- What the collector makes of the messages of a path. -/
def itemAt (ratchet : LintRatchetConfig N) (repoRootPath path : JsString)
    (xs : List (JsString × ESLintMessage N)) : Option (LintRatchetCurrentItem N) :=
  let findings := xs.filterMap (readFinding ratchet repoRootPath)
  (itemFor findings).map (stampFingerprint (identitiesFor findings path))

theorem get_itemsFromResults (h : itemsFromResults ratchet results repoRootPath = .ok items)
    (path : JsString) :
    items.get path = itemAt ratchet repoRootPath path (locatedAt repoRootPath path results) := by
  rw [itemsFromResults_eq] at h
  obtain ⟨found, hfound, rfl⟩ := map_ok.1 h
  have hfilter : (found.reduceOption.filter fun f => f.path = path) =
      (locatedAt repoRootPath path results).filterMap (readFinding ratchet repoRootPath) := by
    rw [reduceOption_found hfound, locatedAt, List.filter_filterMap, List.filterMap_filter]
    refine List.filterMap_congr fun x _ => ?_
    cases hread : readFinding ratchet repoRootPath x with
    | none => simp
    | some finding => simp [Option.filter, readFinding_path hread]
  rw [get_itemsOf, ← identitiesFor_filter, hfilter]
  rfl

/-- Results that can be read can be read in part. -/
theorem itemsFromResults_part (h : itemsFromResults ratchet results repoRootPath = .ok items)
    (hpart : located results' ⊆ located results) :
    ∃ items', itemsFromResults ratchet results' repoRootPath = .ok items' := by
  rw [itemsFromResults_eq] at h ⊢
  obtain ⟨found, hfound, rfl⟩ := map_ok.1 h
  have hall (x : JsString × ESLintMessage N) (hx : x ∈ located results') :
      ∃ o, findingOf ratchet repoRootPath x = .ok o := by
    obtain ⟨o, -, ho⟩ := mapM_ok_of_mem hfound (hpart hx)
    exact ⟨o, ho⟩
  obtain ⟨found', hfound'⟩ := mapM_ok_of_forall hall
  exact ⟨_, map_ok.2 ⟨found', hfound', rfl⟩⟩

end Items

/-! ## Part of a sweep -/

section Sweep
variable {ratchet : LintRatchetConfig N} {repoRootPath path : JsString}
  {trackedFiles swept files : List JsString} {lint : JsString → List (ESLintFileResult N)}
  {results : List (ESLintFileResult N)} [JsNumber N] [Host]

/-- ESLint reports a tracked file once at most, and under its own path. -/
def ReportsOnce (repoRootPath : JsString) (trackedFiles : List JsString)
    (lint : JsString → List (ESLintFileResult N)) : Prop :=
  ∀ file ∈ trackedFiles, ∃ report : Option (ESLintFileResult N), lint file = report.toList ∧
    ∀ result ∈ report, relativePathForRoot result.filePath repoRootPath = file

omit [JsNumber N] in
theorem locatedAt_eq (repoRootPath path : JsString) (results : List (ESLintFileResult N)) :
    locatedAt repoRootPath path results = located (results.filter fun result =>
      relativePathForRoot result.filePath repoRootPath = path) := by
  unfold locatedAt located
  induction results with
  | nil => rfl
  | cons result results ih =>
    rw [List.flatMap_cons, List.filter_append, ih, List.filter_map]
    by_cases hpath : relativePathForRoot result.filePath repoRootPath = path
    · rw [List.filter_cons_of_pos (by simpa using hpath), List.flatMap_cons]
      congr 2
      exact List.filter_eq_self.2 fun message _ => by simpa using hpath
    · rw [List.filter_cons_of_neg (by simpa using hpath)]
      have hnone : (result.messages.filter ((fun x : JsString × ESLintMessage N =>
          decide (relativePathForRoot x.1 repoRootPath = path)) ∘
            fun message => (result.filePath, message))) = [] :=
        List.filter_eq_nil_iff.2 fun message _ => by simpa using hpath
      rw [hnone]
      rfl

omit [JsNumber N] in
/-- The messages of a path are those of its own report. -/
theorem locatedAt_lint (hreports : ReportsOnce repoRootPath trackedFiles lint)
    (htracked : files ⊆ trackedFiles) (hnodup : files.Nodup)
    (hresults : results.Perm (files.flatMap lint)) (path : JsString) :
    locatedAt repoRootPath path results = if path ∈ files then located (lint path) else [] := by
  have hown (files : List JsString) (htracked : files ⊆ trackedFiles) (hnodup : files.Nodup) :
      ((files.flatMap lint).filter fun result =>
        relativePathForRoot result.filePath repoRootPath = path) =
          if path ∈ files then lint path else [] := by
    induction files with
    | nil => rfl
    | cons file files ih =>
      obtain ⟨report, hreport, hpath⟩ := hreports file (htracked List.mem_cons_self)
      rw [List.nodup_cons] at hnodup
      rw [List.flatMap_cons, List.filter_append,
        ih (fun f hf => htracked (List.mem_cons_of_mem _ hf)) hnodup.2]
      by_cases hfile : path = file
      · subst hfile
        have hall : ((lint path).filter fun result =>
            relativePathForRoot result.filePath repoRootPath = path) = lint path :=
          List.filter_eq_self.2 fun result hresult => by
            rw [hreport, Option.mem_toList] at hresult
            simpa using hpath result hresult
        rw [hall, if_neg hnodup.1, if_pos List.mem_cons_self, List.append_nil]
      · have hnone : ((lint file).filter fun result =>
            relativePathForRoot result.filePath repoRootPath = path) = [] :=
          List.filter_eq_nil_iff.2 fun result hresult => by
            rw [hreport, Option.mem_toList] at hresult
            simpa [hpath result hresult] using Ne.symm hfile
        rw [hnone, List.nil_append]
        simp [hfile]
  have hperm := hresults.filter fun result =>
    decide (relativePathForRoot result.filePath repoRootPath = path)
  rw [hown files htracked hnodup] at hperm
  rw [locatedAt_eq]
  by_cases hpath : path ∈ files
  · obtain ⟨report, hreport, -⟩ := hreports path (htracked hpath)
    rw [if_pos hpath] at hperm ⊢
    rw [hreport] at hperm ⊢
    rw [eq_toList_of_perm hperm]
  · rw [if_neg hpath] at hperm ⊢
    rw [hperm.eq_nil]
    rfl

omit [JsNumber N] [Host] in
theorem runEslintForFiles_lint
    {spawnEslint : List JsString → Except JsString (List (ESLintFileResult N))}
    (h : LintsAlone spawnEslint lint) (files : List JsString) :
    ∃ results, runEslintForFiles spawnEslint files = .ok results ∧
      results.Perm (files.flatMap lint) := by
  obtain ⟨whole, hwhole, hlint⟩ := h (fileChunks files).flatten
  obtain ⟨results, hresults, hperm⟩ := runEslintForChunks_perm h (fileChunks files) hwhole
  rw [fileChunks_flatten] at hlint
  exact ⟨results, hresults, hperm.symm.trans hlint⟩

/-- What is collected is read off the reports of the files. -/
theorem collectCurrentForRatchet_lint {engine : LintRatchetEditCheckEngine N} {hash : JsString}
    (hlint : LintsAlone (engine.spawnEslint ratchet hash) lint)
    (h : collectCurrentForRatchet engine ratchet hash files = .ok items) :
    ∃ results, itemsFromResults ratchet results engine.repoRoot = .ok items ∧
      results.Perm (files.flatMap lint) := by
  obtain ⟨results, hresults, hitems⟩ := bind_ok.1 h
  obtain ⟨linted, hlinted, hperm⟩ := runEslintForFiles_lint hlint files
  obtain rfl := Except.ok.inj (hlinted.symm.trans hresults)
  exact ⟨linted, hitems, hperm⟩

/-- A lint of some of the swept files gives their items, and no others. -/
theorem collectCurrentForRatchet_part {engine : LintRatchetEditCheckEngine N} {hash : JsString}
    (hash' : JsString)
    (hlint : ∀ hash, LintsAlone (engine.spawnEslint ratchet hash) lint)
    (hreports : ReportsOnce engine.repoRoot trackedFiles lint) (hswept : swept ⊆ trackedFiles)
    (hnodup : swept.Nodup) (hfiles : files ⊆ swept) (hnodup' : files.Nodup)
    (h : collectCurrentForRatchet engine ratchet hash swept = .ok items) :
    ∃ items', collectCurrentForRatchet engine ratchet hash' files = .ok items' ∧
      ∀ path, items'.get path = if path ∈ files then items.get path else none := by
  obtain ⟨results, hitems, hperm⟩ := collectCurrentForRatchet_lint (hlint hash) h
  obtain ⟨results', hresults', hperm'⟩ := runEslintForFiles_lint (hlint hash') files
  have hpart : located results' ⊆ located results := by
    intro x hx
    obtain ⟨result, hresult, hx⟩ := List.mem_flatMap.1 hx
    obtain ⟨file, hfile, hreport⟩ := List.mem_flatMap.1 (hperm'.mem_iff.1 hresult)
    have hwhole := List.mem_flatMap.2 ⟨file, hfiles hfile, hreport⟩
    exact List.mem_flatMap.2 ⟨result, hperm.mem_iff.2 hwhole, hx⟩
  obtain ⟨items', hitems'⟩ := itemsFromResults_part hitems hpart
  refine ⟨items', ?_, fun path => ?_⟩
  · rw [collectCurrentForRatchet, hresults']
    exact hitems'
  · rw [get_itemsFromResults hitems', get_itemsFromResults hitems,
      locatedAt_lint hreports (fun file hfile => hswept (hfiles hfile)) hnodup' hperm',
      locatedAt_lint hreports hswept hnodup hperm]
    by_cases hpath : path ∈ files
    · rw [if_pos hpath, if_pos hpath, if_pos (hfiles hpath)]
    · rw [if_neg hpath, if_neg hpath]
      rfl

end Sweep

/-! ## The schedule of a sweep -/

section Schedule
variable {engine : LintRatchetEditCheckEngine N} {trackedFiles : List JsString} {limit : Nat}
  {s : CollectionState N (ESLintFileResult N) JsString} [JsNumber N] [Host]

/-- How the scheduler's collection of a number ends: as ESLint does at the ratchet's own files. -/
def Collects (engine : LintRatchetEditCheckEngine N) (trackedFiles : List JsString)
    (ratchetIndex : Nat) (outcome : Except JsString (List (ESLintFileResult N))) : Prop :=
  ∃ ratchet ruleSourceHash, engine.registry[ratchetIndex]? = some ratchet ∧
    (buildRuleSourceHashesById engine engine.registry).get ratchet.id = some ruleSourceHash ∧
    outcome = runEslintForFiles (engine.spawnEslint ratchet ruleSourceHash)
      (matchingTrackedFiles ratchet trackedFiles)

/-- The loop of collectCurrentById over what the scheduler resolves to. -/
def currentByIdFromResults (engine : LintRatchetEditCheckEngine N)
    (results : List (Option (RatchetEslintCollectionResult N (ESLintFileResult N)))) :
    Except JsString (LintRatchetCurrentById N) :=
  (results.reduceOption.mapM fun result =>
    (itemsFromResults result.ratchet result.results engine.repoRoot).map fun items =>
      (result.id, items)).map JsMap.ofList

omit [JsNumber N] [Host] in
/-- A loop that rejects has come to a ratchet without a hash. -/
theorem pumpLoop_reject {ratchets : List (LintRatchetConfig N)} {hashes : JsString → Option JsString}
    {reason : CollectionRejection JsString}
    (h : .rejectResults reason ∈ (pumpLoop ratchets hashes limit s).effects) :
    .rejectResults reason ∈ s.effects ∨ ∃ ratchet ∈ ratchets, hashes ratchet.id = none := by
  fun_induction pumpLoop ratchets hashes limit s with
  | case1 | case2 | case5 => exact .inl h
  | case3 s hactive i hnext ratchet hratchet hhash =>
    exact .inr ⟨ratchet, List.mem_of_getElem? hratchet, hhash⟩
  | case4 s hactive i hnext ratchet hratchet hash hhash ih =>
    refine (ih h).imp_left fun hstart => ?_
    rcases List.mem_append.1 hstart with hstart | hstart
    · exact hstart
    · cases List.mem_singleton.1 hstart

omit [JsNumber N] [Host] in
theorem pump_reject {ratchets : List (LintRatchetConfig N)} {hashes : JsString → Option JsString}
    {reason : CollectionRejection JsString}
    (h : .rejectResults reason ∈ (pump ratchets hashes limit s).effects) :
    .rejectResults reason ∈ s.effects ∨ ∃ ratchet ∈ ratchets, hashes ratchet.id = none := by
  unfold pump at h
  split at h
  · exact .inl h
  · split at h
    · rcases List.mem_append.1 h with h | h
      · exact .inl h
      · cases List.mem_singleton.1 h
    · exact pumpLoop_reject h

omit [JsNumber N] [Host] in
theorem settled_pumpLoop (ratchets : List (LintRatchetConfig N)) (hashes : JsString → Option JsString)
    (s : CollectionState N (ESLintFileResult N) JsString) :
    (pumpLoop ratchets hashes limit s).settled = s.settled := by
  fun_induction pumpLoop ratchets hashes limit s with
  | case1 | case2 | case3 | case5 => rfl
  | case4 s hactive i hnext ratchet hratchet hash hhash ih => exact ih

omit [JsNumber N] [Host] in
theorem settled_pump (ratchets : List (LintRatchetConfig N)) (hashes : JsString → Option JsString)
    (s : CollectionState N (ESLintFileResult N) JsString) :
    (pump ratchets hashes limit s).settled = s.settled := by
  unfold pump
  split
  · rfl
  · split
    · rfl
    · exact settled_pumpLoop ratchets hashes s

omit [JsNumber N] [Host] in
theorem settled_settle (ratchets : List (LintRatchetConfig N)) (hashes : JsString → Option JsString)
    (s : CollectionState N (ESLintFileResult N) JsString) (i : Nat)
    (outcome : Except JsString (List (ESLintFileResult N))) :
    (settle ratchets hashes limit s i outcome).settled = s.settled ++ [(i, outcome)] := by
  unfold LintRatchet.settle
  cases ratchets[i]? with
  | none => rfl
  | some ratchet =>
    cases outcome with
    | error error => rfl
    | ok results => exact settled_pump ratchets hashes _

omit [JsNumber N] [Host] in
/-- What makes the scheduler reject: a ratchet without a hash, or a collection that failed. -/
theorem CollectionReachable.reject_cause {ratchets : List (LintRatchetConfig N)}
    {hashes : JsString → Option JsString} (h : CollectionReachable ratchets hashes limit s)
    {reason : CollectionRejection JsString} (hreason : .rejectResults reason ∈ s.effects) :
    (∃ ratchet ∈ ratchets, hashes ratchet.id = none) ∨
      ∃ i error, (i, .error error) ∈ s.settled := by
  induction h with
  | start =>
    rcases pump_reject hreason with hreason | hnone
    · cases hreason
    · exact .inl hnone
  | @settle s i outcome reached member ih =>
    rw [settled_settle]
    have hkeeps (hcause : (∃ ratchet ∈ ratchets, hashes ratchet.id = none) ∨
        ∃ j error, (j, .error error) ∈ s.settled) :
        (∃ ratchet ∈ ratchets, hashes ratchet.id = none) ∨
          ∃ j error, (j, .error error) ∈ s.settled ++ [(i, outcome)] :=
      hcause.imp_right fun ⟨j, error, hmem⟩ => ⟨j, error, List.mem_append_left _ hmem⟩
    unfold LintRatchet.settle at hreason
    dsimp only at hreason
    cases hratchet : ratchets[i]? with
    | none =>
      rw [hratchet] at hreason
      exact hkeeps (ih hreason)
    | some ratchet =>
      cases outcome with
      | error error => exact .inr ⟨i, error, List.mem_append_right _ (List.mem_singleton.2 rfl)⟩
      | ok results =>
        rw [hratchet] at hreason
        rcases pump_reject hreason with hreason | hnone
        · exact hkeeps (ih hreason)
        · exact .inl hnone

omit [JsNumber N] [Host] in
/-- A resolved schedule holds the result of every ratchet at its own number. -/
theorem CollectionState.Sound.result_at {ratchets : List (LintRatchetConfig N)}
    (h : s.Sound ratchets limit) (hrejected : s.rejected = false)
    (hall : s.settled.length = ratchets.length) {i : Nat} (hi : i < ratchets.length) :
    ∃ ratchet files, ratchets[i]? = some ratchet ∧ (i, .ok files) ∈ s.settled ∧
      s.results[i]?.join = some ⟨ratchet.id, ratchet, files⟩ := by
  have hsub : (s.settled.map Prod.fst).Subperm (List.range ratchets.length) :=
    List.subperm_of_subset h.safe.settledNodup fun j hj =>
      List.mem_range.2 (h.safe.bound j (h.safe.settledStarted j hj))
  have hmem := (hsub.perm_of_length_le (by simp [hall])).mem_iff.2 (List.mem_range.2 hi)
  obtain ⟨⟨j, outcome⟩, hsettled, rfl⟩ := List.mem_map.1 hmem
  obtain ⟨ratchet, files, hratchet, rfl, hresult⟩ :=
    (h.counted hrejected).stored j outcome hsettled
  exact ⟨ratchet, files, hratchet, hsettled, hresult⟩

/-- A result of the scheduler is what ESLint says of its ratchet. -/
def Scheduled (engine : LintRatchetEditCheckEngine N) (trackedFiles : List JsString)
    (ratchet : LintRatchetConfig N)
    (result : RatchetEslintCollectionResult N (ESLintFileResult N)) : Prop :=
  result.id = ratchet.id ∧ result.ratchet = ratchet ∧ ∃ ruleSourceHash,
    (buildRuleSourceHashesById engine engine.registry).get ratchet.id = some ruleSourceHash ∧
    runEslintForFiles (engine.spawnEslint ratchet ruleSourceHash)
      (matchingTrackedFiles ratchet trackedFiles) = .ok result.results

/-- The items of such results are collected ratchet by ratchet. -/
theorem scheduled_mapM {ratchets : List (LintRatchetConfig N)}
    {results : List (Option (RatchetEslintCollectionResult N (ESLintFileResult N)))}
    (h : List.Forall₂ (fun ratchet stored => ∃ result, stored = some result ∧
      Scheduled engine trackedFiles ratchet result) ratchets results) :
    (results.reduceOption.mapM fun result =>
      (itemsFromResults result.ratchet result.results engine.repoRoot).map fun items =>
        (result.id, items)) = ratchets.mapM (collectRatchet engine trackedFiles) := by
  induction h with
  | nil => rfl
  | @cons ratchet stored ratchets results hstored _ ih =>
    obtain ⟨result, rfl, hid, hratchet, hash, hhash, hrun⟩ := hstored
    have hcollect : collectRatchet engine trackedFiles ratchet =
        (itemsFromResults result.ratchet result.results engine.repoRoot).map fun items =>
          (result.id, items) := by
      rw [collectRatchet, hhash]
      dsimp only
      rw [collectCurrentForRatchet, hrun, hid, hratchet]
      rfl
    rw [List.reduceOption_cons_of_some, List.mapM_cons, List.mapM_cons, hcollect, ih]

theorem collectRatchet_ok {ratchet : LintRatchetConfig N}
    {entry : JsString × JsMap (LintRatchetCurrentItem N)}
    (h : collectRatchet engine trackedFiles ratchet = .ok entry) :
    ∃ hash, (buildRuleSourceHashesById engine engine.registry).get ratchet.id = some hash ∧
      ∃ items, collectCurrentForRatchet engine ratchet hash
        (matchingTrackedFiles ratchet trackedFiles) = .ok items ∧ (ratchet.id, items) = entry := by
  unfold collectRatchet at h
  split at h
  · cases h
  · next hash hhash => exact ⟨hash, hhash, map_ok.1 h⟩

/-- Where collecting one ratchet after the other succeeds, ESLint succeeds at every ratchet. -/
theorem mapM_collected {currentById : LintRatchetCurrentById N}
    (h : collectCurrentById engine trackedFiles = .ok currentById) :
    ∀ ratchet ∈ engine.registry, ∃ ruleSourceHash,
      (buildRuleSourceHashesById engine engine.registry).get ratchet.id = some ruleSourceHash ∧
      ∃ files, runEslintForFiles (engine.spawnEslint ratchet ruleSourceHash)
        (matchingTrackedFiles ratchet trackedFiles) = .ok files := by
  intro ratchet hratchet
  obtain ⟨collected, hcollected, -⟩ := map_ok.1 h
  obtain ⟨entry, -, hentry⟩ := mapM_ok_of_mem hcollected hratchet
  obtain ⟨hash, hhash, items, hitems, -⟩ := collectRatchet_ok hentry
  obtain ⟨files, hfiles, -⟩ := bind_ok.1 hitems
  exact ⟨hash, hhash, files, hfiles⟩

/-- In every order in which the collections complete, a schedule that resolves gives what collecting
one ratchet after the other gives; one that rejects does so where that fails too; and when nothing
is left in flight, one of the two has happened. -/
theorem collectRatchets_collectCurrentById {concurrency : Int}
    (h : CollectionReachable engine.registry (buildRuleSourceHashesById engine engine.registry).get
      (max 1 (min concurrency engine.registry.length)).toNat s)
    (houtcomes : ∀ i outcome, (i, outcome) ∈ s.settled → Collects engine trackedFiles i outcome) :
    (∀ results, .resolveResults results ∈ s.effects →
      currentByIdFromResults engine results = collectCurrentById engine trackedFiles) ∧
    (∀ reason, .rejectResults reason ∈ s.effects →
      ∃ error, collectCurrentById engine trackedFiles = .error error) ∧
    (s.inFlight = [] → (∃ results, .resolveResults results ∈ s.effects) ∨
      ∃ reason, .rejectResults reason ∈ s.effects) := by
  have hsound := h.sound (by omega)
  refine ⟨fun results hresults => ?_, fun reason hreason => ?_, fun hidle => ?_⟩
  · obtain ⟨hrejected, rfl, hall⟩ := hsound.resolved results hresults
    rw [currentByIdFromResults, collectCurrentById]
    refine congrArg (Except.map JsMap.ofList) (scheduled_mapM ?_)
    have hat (i : Nat) (hi : i < engine.registry.length) :
        ∃ result, s.results[i]?.join = some result ∧
          Scheduled engine trackedFiles engine.registry[i] result := by
      obtain ⟨ratchet, files, hratchet, hsettled, hresult⟩ := hsound.result_at hrejected hall hi
      obtain ⟨ratchet', hash, hratchet', hhash, hrun⟩ := houtcomes i _ hsettled
      obtain rfl := Option.some.inj (hratchet.symm.trans hratchet')
      obtain rfl := Option.some.inj ((List.getElem?_eq_getElem hi).symm.trans hratchet)
      exact ⟨_, hresult, rfl, rfl, hash, hhash, hrun.symm⟩
    have hlength : s.results.length = engine.registry.length := by
      refine Nat.le_antisymm (hsound.counted hrejected).length_le (Nat.le_of_not_lt fun hlt => ?_)
      obtain ⟨result, hresult, -⟩ := hat _ hlt
      rw [List.getElem?_eq_none (Nat.le_refl _)] at hresult
      cases hresult
    refine List.forall₂_iff_get.2 ⟨hlength.symm, fun i hi hi' => ?_⟩
    obtain ⟨result, hresult, hcollected⟩ := hat i hi
    rw [List.getElem?_eq_getElem hi', Option.join_some] at hresult
    exact ⟨result, hresult, hcollected⟩
  · cases hok : collectCurrentById engine trackedFiles with
    | error error => exact ⟨error, rfl⟩
    | ok currentById =>
      have hforall := mapM_collected hok
      rcases h.reject_cause hreason with ⟨ratchet, hratchet, hnone⟩ | ⟨i, error, hsettled⟩
      · obtain ⟨hash, hhash, -⟩ := hforall ratchet hratchet
        rw [hhash] at hnone
        cases hnone
      · obtain ⟨ratchet, hash, hratchet, hhash, hrun⟩ := houtcomes i _ hsettled
        obtain ⟨hash', hhash', files, hfiles⟩ := hforall ratchet (List.mem_of_getElem? hratchet)
        obtain rfl := Option.some.inj (hhash.symm.trans hhash')
        rw [hfiles] at hrun
        cases hrun
  · by_cases hrejected : s.rejected = true
    · exact .inr (hsound.safe.rejected_iff.1 hrejected)
    · exact .inl ⟨_, hsound.live (by simpa using hrejected) hidle⟩

end Schedule

/-! ## What a comparison reports -/

section Comparison
variable {baseline : LintRatchetBaseline N} {ratchets registry : List (LintRatchetConfig N)}
  {currentById : LintRatchetCurrentById N} {workflowVocabulary : LintRatchetWorkflowVocabulary}
  {comparison : LintRatchetComparison N} [JsNumber N] [Host]

/-- A comparison reports each regression once, at its own test and path. -/
theorem regressions_spec (h : compareCurrentToBaseline baseline ratchets currentById
      workflowVocabulary = some comparison) :
    (comparison.regressions.map fun r => (r.testId, r.path)).Nodup ∧
      ∀ r, r ∈ comparison.regressions ↔
        (comparisonAt baseline ratchets currentById r.testId r.path).regression = some r := by
  obtain ⟨keys, hkeys, hout, heq⟩ :=
    compareCurrentToBaseline_eq baseline ratchets currentById workflowVocabulary
  rw [h] at heq
  obtain rfl := Option.some.inj heq
  have hperm : (sortedDeltas (keys.map fun k =>
      comparisonAt baseline ratchets currentById k.1 k.2)).regressions.Perm
        (keys.filterMap fun k => (comparisonAt baseline ratchets currentById k.1 k.2).regression) := by
    refine (sortBy_perm _ _).trans ?_
    rw [List.filterMap_map]
    exact .refl _
  constructor
  · refine ((hperm.map fun r => (r.testId, r.path)).nodup_iff).2 ?_
    refine hkeys.sublist ?_
    clear hkeys hout hperm h heq
    induction keys with
    | nil => exact .slnil
    | cons k keys ih =>
      cases hr : (comparisonAt baseline ratchets currentById k.1 k.2).regression with
      | none => simpa only [List.filterMap_cons, hr] using ih.cons k
      | some r =>
        simpa only [List.filterMap_cons, hr, List.map_cons, comparisonAt_keys hr] using ih.cons_cons k
  · intro r
    refine hperm.mem_iff.trans (List.mem_filterMap.trans ⟨?_, fun hr => ?_⟩)
    · rintro ⟨⟨testId, path⟩, -, hr⟩
      obtain ⟨rfl, rfl⟩ := Prod.mk.inj (comparisonAt_keys hr)
      exact hr
    · refine ⟨(r.testId, r.path), by_contra fun hk => ?_, hr⟩
      rw [hout _ hk] at hr
      cases hr

omit [JsNumber N] [Host] in
theorem registryById_singleton (ratchet : LintRatchetConfig N) (testId : JsString) :
    (registryById [ratchet]).get testId = if testId = ratchet.id then some ratchet else none := by
  rw [registryById, JsMap.get_ofList]
  by_cases h : testId = ratchet.id
  · rw [if_pos h, h]
    simp
  · rw [if_neg h]
    simp [h]

/-- One ratchet alone is compared as it is in the registry, where its items agree. -/
theorem comparisonAt_part {ratchet : LintRatchetConfig N} {files : List JsString}
    {items items' : JsMap (LintRatchetCurrentItem N)}
    (hratchet : (registryById registry).get ratchet.id = some ratchet)
    (hitems : currentById.get ratchet.id = some items)
    (hpart : ∀ path, items'.get path = if path ∈ files then items.get path else none)
    (testId path : JsString) (r : LintRatchetRegression N) :
    (comparisonAt baseline [ratchet] (JsMap.ofList [(ratchet.id, items')]) testId path).regression =
        some r ↔
      testId = ratchet.id ∧ path ∈ files ∧
        (comparisonAt baseline registry currentById testId path).regression = some r := by
  have hown : (JsMap.ofList [(ratchet.id, items')]).get ratchet.id = some items' := by
    rw [JsMap.get_ofList]
    simp
  unfold comparisonAt
  rw [registryById_singleton]
  by_cases hid : testId = ratchet.id
  · subst hid
    rw [if_pos rfl, hratchet, hown, hitems, Option.bind_some, Option.bind_some, hpart]
    by_cases hpath : path ∈ files
    · rw [if_pos hpath]
      simp [hpath]
    · rw [if_neg hpath]
      cases baseline.tests.own ratchet.id <;> simp [hpath]
  · rw [if_neg hid]
    simp [hid]

end Comparison

/-! ## The check against the sweep -/

section Agreement
variable {engine : LintRatchetEditCheckEngine N} {trackedFiles paths : List JsString}
  {lint : LintRatchetConfig N → JsString → List (ESLintFileResult N)}
  {discovered targets : List EditCheckTarget} {baseline : LintRatchetBaseline N}
  {currentById : LintRatchetCurrentById N} {comparison : LintRatchetComparison N}
  {groups : List (EditCheckGroup N)} [JsNumber N] [Host]

/-- What the check relies on: ratchets with ids of their own, files tracked once, and an ESLint that
judges every file by itself. -/
structure EditCheckHost (engine : LintRatchetEditCheckEngine N) (trackedFiles : List JsString)
    (lint : LintRatchetConfig N → JsString → List (ESLintFileResult N)) : Prop where
  ids : (engine.registry.map fun ratchet => ratchet.id).Nodup
  tracked : trackedFiles.Nodup
  alone : ∀ ratchet ∈ engine.registry, ∀ hash,
    LintsAlone (engine.spawnEslint ratchet hash) (lint ratchet)
  reports : ∀ ratchet ∈ engine.registry, ReportsOnce engine.repoRoot trackedFiles (lint ratchet)

/-- The regressions of the sweep at the targets that are checked. -/
def targetedRegressions (engine : LintRatchetEditCheckEngine N) (baseline : LintRatchetBaseline N)
    (targets : List EditCheckTarget) (comparison : LintRatchetComparison N) :
    List (LintRatchetRegression N) :=
  comparison.regressions.filter fun r => targets.any fun target =>
    target.testId = r.testId && target.path = r.path && (checkOf engine baseline target).isSome

omit [JsNumber N] in
theorem EditCheckHost.registered (h : EditCheckHost engine trackedFiles lint)
    {ratchet : LintRatchetConfig N} (hratchet : ratchet ∈ engine.registry) :
    (registryById engine.registry).get ratchet.id = some ratchet :=
  JsMap.get_ofList_of_mem h.ids _ hratchet

/-- The sweep holds the items of every ratchet. -/
theorem collectCurrentById_get (hids : (engine.registry.map fun ratchet => ratchet.id).Nodup)
    (hsweep : collectCurrentById engine trackedFiles = .ok currentById)
    {ratchet : LintRatchetConfig N} (hratchet : ratchet ∈ engine.registry) :
    ∃ hash items, collectCurrentForRatchet engine ratchet hash
        (matchingTrackedFiles ratchet trackedFiles) = .ok items ∧
      currentById.get ratchet.id = some items := by
  obtain ⟨collected, hcollected, rfl⟩ := map_ok.1 hsweep
  have hkeys (ratchets : List (LintRatchetConfig N))
      (entries : Entries (JsMap (LintRatchetCurrentItem N)))
      (hall : List.Forall₂ (fun ratchet entry => collectRatchet engine trackedFiles ratchet =
        .ok entry) ratchets entries) :
      Entries.keys entries = ratchets.map fun ratchet => ratchet.id := by
    induction hall with
    | nil => rfl
    | cons he _ ih =>
      obtain ⟨-, -, items, -, rfl⟩ := collectRatchet_ok he
      rw [Entries.keys_cons, List.map_cons, ih]
  have hnodup : (Entries.keys collected).Nodup := hkeys _ _ (mapM_ok.1 hcollected) ▸ hids
  obtain ⟨entry, hentry, he⟩ := mapM_ok_of_mem hcollected hratchet
  obtain ⟨hash, -, items, hitems, rfl⟩ := collectRatchet_ok he
  refine ⟨hash, items, hitems, ?_⟩
  rw [JsMap.get_ofList_of_nodup hnodup]
  exact (Entries.mem_iff_lookup hnodup).1 hentry

/-- The sweep finds nothing where a ratchet does not apply. -/
theorem EditCheckHost.swept_path (h : EditCheckHost engine trackedFiles lint)
    (hsweep : collectCurrentById engine trackedFiles = .ok currentById)
    {ratchet : LintRatchetConfig N} (hratchet : ratchet ∈ engine.registry) {path : JsString}
    {current : LintRatchetCurrentItem N}
    (hcurrent : (currentById.get ratchet.id).bind (fun items => items.get path) = some current) :
    configMatches ratchet path = true := by
  obtain ⟨hash, items, hitems, hget⟩ := collectCurrentById_get h.ids hsweep hratchet
  obtain ⟨results, hitems, hperm⟩ := collectCurrentForRatchet_lint (h.alone _ hratchet hash) hitems
  have htracked : matchingTrackedFiles ratchet trackedFiles ⊆ trackedFiles :=
    fun file hfile => (List.mem_filter.1 hfile).1
  rw [hget, Option.bind_some, get_itemsFromResults hitems,
    locatedAt_lint (h.reports _ hratchet) htracked (h.tracked.filter _) hperm] at hcurrent
  by_cases hpath : path ∈ matchingTrackedFiles ratchet trackedFiles
  · exact (List.mem_filter.1 hpath).2
  · rw [if_neg hpath] at hcurrent
    cases hcurrent

/-- A regression of the sweep is that of a registry ratchet at a path it applies to. -/
theorem EditCheckHost.regression_spec (h : EditCheckHost engine trackedFiles lint)
    (hsweep : collectCurrentById engine trackedFiles = .ok currentById)
    (hcompare : compareCurrentToBaseline baseline engine.registry currentById
      engine.workflowVocabulary = some comparison) {r : LintRatchetRegression N}
    (hr : r ∈ comparison.regressions) :
    ∃ ratchet ∈ engine.registry, ratchet.id = r.testId ∧ ratchet.ruleId = r.ruleId ∧
      configMatches ratchet r.path = true := by
  have hat := ((regressions_spec hcompare).2 r).1 hr
  unfold comparisonAt at hat
  split at hat
  · next ratchet test hratchet _ =>
    obtain ⟨hmem, hid⟩ := registryById_id hratchet
    dsimp only at hat
    split at hat
    · next current hcurrent =>
      rw [← hid] at hcurrent
      exact ⟨ratchet, hmem, hid, (compareItem_regressionFor hat).ruleId.symm,
        h.swept_path hsweep hmem hcurrent⟩
    · cases hat
  · cases hat

/-- What one group reports is the sweep at its files. -/
theorem EditCheckHost.regressionsForGroup (h : EditCheckHost engine trackedFiles lint)
    (hsweep : collectCurrentById engine trackedFiles = .ok currentById)
    (hcompare : compareCurrentToBaseline baseline engine.registry currentById
      engine.workflowVocabulary = some comparison) {group : EditCheckGroup N}
    (hratchet : (registryById engine.registry).get group.ratchet.id = some group.ratchet)
    (hnodup : group.files.Nodup)
    (hfiles : group.files ⊆ matchingTrackedFiles group.ratchet trackedFiles) :
    ∃ result, regressionsForGroup engine baseline group = some result ∧
      result.checked = group.files ∧ result.regressions.Perm
        ((comparison.regressions.filter fun r =>
          r.testId = group.ratchet.id && group.files.contains r.path).map editCheckRegression) := by
  have hregistry := (registryById_id hratchet).1
  obtain ⟨hash, items, hitems, hcurrent⟩ := collectCurrentById_get h.ids hsweep hregistry
  obtain ⟨items', hitems', hpart⟩ := collectCurrentForRatchet_part group.ruleSourceHash
    (h.alone _ hregistry) (h.reports _ hregistry) (fun file hfile => (List.mem_filter.1 hfile).1)
    (h.tracked.filter _) hfiles hnodup hitems
  obtain ⟨part, hpartial⟩ : ∃ part, compareCurrentToBaseline baseline [group.ratchet]
      (JsMap.ofList [(group.ratchet.id, items')]) engine.workflowVocabulary = some part :=
    ⟨_, compareCurrentToBaseline_visited _ _ _ _⟩
  refine ⟨{ regressions := part.regressions.map editCheckRegression, checked := group.files }, ?_,
    rfl, ?_⟩
  · simp only [LintRatchet.regressionsForGroup, hitems', hpartial, Option.map_some]
  · obtain ⟨hkeys, hmem⟩ := regressions_spec hpartial
    obtain ⟨hkeys', hmem'⟩ := regressions_spec hcompare
    refine ((List.perm_ext_iff_of_nodup hkeys.of_map (hkeys'.of_map.filter _)).2 fun r => ?_).map _
    rw [hmem, comparisonAt_part hratchet hcurrent hpart, List.mem_filter, hmem']
    simp only [Bool.and_eq_true, decide_eq_true_eq, List.contains_iff_mem]
    tauto

variable (h : EditCheckHost engine trackedFiles lint)
  (hpaths : ∀ path ∈ paths, relativeToRepoRoot engine.repoRoot path ∈ trackedFiles)
  (hdiscovered : discoverEditCheckTargets engine paths = some discovered)
  (htargets : targets ⊆ discovered)
include h hpaths hdiscovered htargets

theorem EditCheckHost.files_swept (hgroups : GroupsOf engine baseline targets groups)
    {group : EditCheckGroup N} (hgroup : group ∈ groups) :
    group.files ⊆ matchingTrackedFiles group.ratchet trackedFiles := by
  intro path hpath
  obtain ⟨target, htarget, hid, rfl, -⟩ :=
    (hgroups.checked group.ratchet.id path).1 ⟨group, hgroup, rfl, hpath⟩
  obtain ⟨⟨rawPath, hraw, ratchet, hd⟩, -⟩ := discovered_spec hdiscovered (htargets htarget)
  have hsame : ratchet = group.ratchet := by
    have hratchet := h.registered hd.registered
    rw [← hd.testId, hid, hgroups.ratchet group hgroup] at hratchet
    exact (Option.some.inj hratchet).symm
  refine List.mem_filter.2 ⟨?_, hsame ▸ hd.globs⟩
  rw [hd.path]
  exact hpaths rawPath hraw

/-- The groups together report the sweep at the targets that are checked. -/
theorem EditCheckHost.groups_perm
    (hsweep : collectCurrentById engine trackedFiles = .ok currentById)
    (hcompare : compareCurrentToBaseline baseline engine.registry currentById
      engine.workflowVocabulary = some comparison)
    (hgroups : GroupsOf engine baseline targets groups) :
    (groups.flatMap fun g =>
        ((LintRatchet.regressionsForGroup engine baseline g).getD {}).regressions).Perm
      ((targetedRegressions engine baseline targets comparison).map editCheckRegression) := by
  have hgroup (g : EditCheckGroup N) (hg : g ∈ groups) :
      ((LintRatchet.regressionsForGroup engine baseline g).getD {}).regressions.Perm
        ((comparison.regressions.filter fun r =>
          r.testId = g.ratchet.id && g.files.contains r.path).map editCheckRegression) := by
    obtain ⟨result, hresult, -, hperm⟩ := h.regressionsForGroup hsweep hcompare
      (hgroups.ratchet g hg) (hgroups.files g hg)
      (h.files_swept hpaths hdiscovered htargets hgroups hg)
    rw [hresult]
    exact hperm
  refine (List.Perm.flatMap_left groups hgroup).trans ?_
  rw [← List.map_flatMap]
  have hnodup := (regressions_spec hcompare).1.of_map
  refine ((List.perm_ext_iff_of_nodup ?_ (hnodup.filter _)).2 fun r => ?_).map _
  · refine List.nodup_flatMap.2 ⟨fun g _ => hnodup.filter _, ?_⟩
    refine (List.pairwise_map.1 hgroups.ids).imp fun {g g'} hne r hr hr' => hne ?_
    simp only [List.mem_filter, Bool.and_eq_true, decide_eq_true_eq] at hr hr'
    exact hr.2.1.symm.trans hr'.2.1
  · simp only [List.mem_flatMap, List.mem_filter, Bool.and_eq_true, decide_eq_true_eq,
      List.contains_iff_mem, List.any_eq_true]
    have hchecked := hgroups.checked r.testId r.path
    constructor
    · rintro ⟨g, hg, hr, hid, hpath⟩
      obtain ⟨target, htarget, ht, hp, hsome⟩ := hchecked.1 ⟨g, hg, hid.symm, hpath⟩
      exact ⟨hr, target, htarget, ⟨ht, hp⟩, hsome⟩
    · rintro ⟨hr, target, htarget, ⟨ht, hp⟩, hsome⟩
      obtain ⟨g, hg, hid, hpath⟩ := hchecked.2 ⟨target, htarget, ht, hp, hsome⟩
      exact ⟨g, hg, hr, hid.symm, hpath⟩

omit h hpaths hdiscovered htargets in
/-- While a group is in the hands of a worker, the run goes on; it ends. -/
theorem GroupRun.Reachable.ends {limit : Nat} {run : GroupRun N}
    (houtcome : ∀ g ∈ groups, ∃ result,
      LintRatchet.regressionsForGroup engine baseline g = some result)
    (hrun : GroupRun.Reachable engine baseline groups limit run) :
    ∃ last, GroupRun.Reachable engine baseline groups limit last ∧ last.busy = [] := by
  generalize hleft : groups.length - run.finished.length = left
  induction left using Nat.strong_induction_on generalizing run with
  | _ left ih =>
    cases hbusy : run.busy with
    | nil => exact ⟨run, hrun, hbusy⟩
    | cons index rest =>
      have hsound := hrun.sound.pool
      have hmem : index ∈ run.busy := by rw [hbusy]; exact List.mem_cons_self
      have hindex : index < groups.length := by
        have hrange := hsound.tasks_perm.mem_iff.1 (List.mem_append_right _ hmem)
        exact (List.mem_range.1 hrange).trans_le hsound.next_le
      obtain ⟨result, hresult⟩ := houtcome groups[index] (List.getElem_mem hindex)
      have hle := hsound.finished_le
      have hpos := List.length_pos_of_mem hmem
      refine ih _ ?_ (hrun.settle hmem (List.getElem?_eq_getElem hindex) hresult) rfl
      change groups.length - (run.toPool.finish groups.length index).finished.length < left
      rw [Pool.finished_finish, List.length_append, List.length_singleton]
      omega

omit [JsNumber N] h hpaths hdiscovered htargets in
theorem compareRegressions_consistent :
    ConsistentComparator (compareRegressions : EditCheckRegression N → _ → Int) :=
  (Host.localeCompare_consistent.comap fun r : EditCheckRegression N => r.path).orElse
    (Host.localeCompare_consistent.comap fun r : EditCheckRegression N => r.testId)

omit h hpaths in
/-- No target that discovery found makes the grouping throw. -/
theorem groupTargets_discovered (hbaseline : engine.structuralBaseline = some baseline) :
    ∃ groups, groupTargets engine targets baseline = some groups := by
  have hread (target : EditCheckTarget) (htarget : target ∈ targets) :
      checkTarget engine baseline target = some (checkOf engine baseline target) := by
    obtain ⟨-, -, hreads⟩ := discovered_spec hdiscovered (htargets htarget)
    obtain ⟨test, htest⟩ := hreads baseline hbaseline
    rw [checkOf, checkTarget, htest]
    split
    · rfl
    · split
      · rfl
      · split
        · rfl
        · rw [Option.map_some, Option.join_some]
  rw [groupTargets, mapM_eq_map hread]
  exact ⟨_, rfl⟩

/-- What a result holds, in whatever order the groups settled. -/
structure Outcome (engine : LintRatchetEditCheckEngine N) (baseline : LintRatchetBaseline N)
    (targets : List EditCheckTarget) (comparison : LintRatchetComparison N)
    (groups : List (EditCheckGroup N)) (result : EditCheckResult N) : Prop where
  grouping : GroupsOf engine baseline targets groups
  regressions : ∃ merged, merged.Perm
      ((targetedRegressions engine baseline targets comparison).map editCheckRegression) ∧
    result.regressions = sortRegressions merged
  checked : result.checked.Perm (groups.flatMap fun g => g.files)

theorem EditCheckHost.outcome (hbaseline : engine.structuralBaseline = some baseline)
    (hsweep : collectCurrentById engine trackedFiles = .ok currentById)
    (hcompare : compareCurrentToBaseline baseline engine.registry currentById
      engine.workflowVocabulary = some comparison) {concurrency : Int} {result : EditCheckResult N}
    (hresult : RunEditCheckRegressions engine targets concurrency result) :
    ∃ groups, Outcome engine baseline targets comparison groups result := by
  cases hresult with
  | untargeted hempty =>
    subst hempty
    have hgroups : GroupsOf engine baseline [] [] := groupTargets_spec rfl
    have hnone : targetedRegressions engine baseline [] comparison = [] :=
      List.filter_eq_nil_iff.2 fun r _ => Bool.false_ne_true
    exact ⟨[], hgroups, ⟨[], by rw [hnone]; exact .refl _, rfl⟩, .refl _⟩
  | unread _ hunread =>
    rw [hbaseline] at hunread
    cases hunread
  | @merged baseline' groups merged _ hread hgrouped hmerged =>
    obtain rfl := Option.some.inj (hbaseline.symm.trans hread)
    have hspec := groupTargets_spec hgrouped
    obtain ⟨hregressions, hchecked⟩ := runGroups_perm hmerged
    have hfiles : (groups.flatMap fun g =>
        ((LintRatchet.regressionsForGroup engine baseline g).getD {}).checked) =
          groups.flatMap fun g => g.files := by
      refine List.flatMap_congr fun g hg => ?_
      obtain ⟨result, hresult, hfiles, -⟩ := h.regressionsForGroup hsweep hcompare
        (hspec.ratchet g hg) (hspec.files g hg)
        (h.files_swept hpaths hdiscovered htargets hspec hg)
      rw [hresult]
      exact hfiles
    rw [hfiles] at hchecked
    have hperm := h.groups_perm hpaths hdiscovered htargets hsweep hcompare hspec
    exact ⟨groups, hspec, ⟨_, hregressions.trans hperm, rfl⟩, hchecked⟩

theorem EditCheckHost.exists_result (hbaseline : engine.structuralBaseline = some baseline)
    (hsweep : collectCurrentById engine trackedFiles = .ok currentById)
    (hcompare : compareCurrentToBaseline baseline engine.registry currentById
      engine.workflowVocabulary = some comparison) (concurrency : Int) :
    ∃ result, RunEditCheckRegressions engine targets concurrency result := by
  by_cases hempty : targets = []
  · exact ⟨_, .untargeted hempty⟩
  · obtain ⟨groups, hgroups⟩ := groupTargets_discovered hdiscovered htargets hbaseline
    have hspec := groupTargets_spec hgroups
    have houtcome (g : EditCheckGroup N) (hg : g ∈ groups) : ∃ result,
        LintRatchet.regressionsForGroup engine baseline g = some result :=
      (h.regressionsForGroup hsweep hcompare (hspec.ratchet g hg) (hspec.files g hg)
        (h.files_swept hpaths hdiscovered htargets hspec hg)).imp fun result hresult => hresult.1
    obtain ⟨last, hlast, hbusy⟩ := GroupRun.Reachable.ends houtcome
      (.start : GroupRun.Reachable engine baseline groups
        (max 1 (min concurrency groups.length)).toNat _)
    exact ⟨_, .merged hempty hbaseline hgroups ⟨last, hlast, hbusy, rfl⟩⟩

omit h hpaths hdiscovered htargets in
theorem Outcome.sorted (hcompare : compareCurrentToBaseline baseline engine.registry currentById
      engine.workflowVocabulary = some comparison) {result : EditCheckResult N}
    (houtcome : Outcome engine baseline targets comparison groups result)
    (hties : ∀ r ∈ targetedRegressions engine baseline targets comparison,
      ∀ s ∈ targetedRegressions engine baseline targets comparison,
        compareRegressions (editCheckRegression r) (editCheckRegression s) = 0 →
          r.path = s.path ∧ r.testId = s.testId) :
    result.regressions = sortRegressions
      ((targetedRegressions engine baseline targets comparison).map editCheckRegression) := by
  obtain ⟨merged, hmerged, hresult⟩ := houtcome.regressions
  rw [hresult]
  have hsorted := (sortBy_perm compareRegressions merged).trans hmerged
  refine eq_of_perm_sorted (sortBy_sorted compareRegressions_consistent _)
    (sortBy_sorted compareRegressions_consistent _) (hsorted.trans (sortBy_perm _ _).symm) ?_
  intro a ha b hb hab hba
  obtain ⟨r, hr, rfl⟩ := List.mem_map.1 (hsorted.mem_iff.1 ha)
  obtain ⟨s, hs, rfl⟩ := List.mem_map.1 ((sortBy_perm _ _).mem_iff.1 hb)
  obtain ⟨hpath, hid⟩ := hties r hr s hs (compareRegressions_consistent.zero_of_le hab hba)
  obtain ⟨-, hmem⟩ := regressions_spec hcompare
  have hr' := (hmem r).1 (List.mem_filter.1 hr).1
  have hs' := (hmem s).1 (List.mem_filter.1 hs).1
  rw [hpath, hid, hs'] at hr'
  rw [Option.some.inj hr']

/-- For targets that discovery found, the edit-time check ends, and in every order of the groups it
reports the regressions of the full sweep at the targets that are checked, and no others. -/
theorem runEditCheckRegressions_sweep (hbaseline : engine.structuralBaseline = some baseline)
    (hsweep : collectCurrentById engine trackedFiles = .ok currentById)
    (hcompare : compareCurrentToBaseline baseline engine.registry currentById
      engine.workflowVocabulary = some comparison) (concurrency : Int) :
    (∃ result, RunEditCheckRegressions engine targets concurrency result) ∧
    ∀ result, RunEditCheckRegressions engine targets concurrency result →
      result.regressions.Perm
        ((targetedRegressions engine baseline targets comparison).map editCheckRegression) ∧
      ((∀ r ∈ targetedRegressions engine baseline targets comparison,
        ∀ s ∈ targetedRegressions engine baseline targets comparison,
          compareRegressions (editCheckRegression r) (editCheckRegression s) = 0 →
            r.path = s.path ∧ r.testId = s.testId) →
        result.regressions = sortRegressions
          ((targetedRegressions engine baseline targets comparison).map editCheckRegression)) ∧
      ∀ path, path ∈ result.checked ↔ ∃ target ∈ targets, target.path = path ∧
        (checkOf engine baseline target).isSome := by
  refine ⟨h.exists_result hpaths hdiscovered htargets hbaseline hsweep hcompare concurrency,
    fun result hresult => ?_⟩
  obtain ⟨groups, houtcome⟩ :=
    h.outcome hpaths hdiscovered htargets hbaseline hsweep hcompare hresult
  refine ⟨?_, houtcome.sorted hcompare, fun path => ?_⟩
  · obtain ⟨merged, hmerged, hsorted⟩ := houtcome.regressions
    rw [hsorted]
    exact (sortBy_perm _ _).trans hmerged
  · rw [houtcome.checked.mem_iff, List.mem_flatMap]
    constructor
    · rintro ⟨g, hg, hpath⟩
      obtain ⟨target, htarget, -, hp, hsome⟩ :=
        (houtcome.grouping.checked g.ratchet.id path).1 ⟨g, hg, rfl, hpath⟩
      exact ⟨target, htarget, hp, hsome⟩
    · rintro ⟨target, htarget, hp, hsome⟩
      obtain ⟨g, hg, -, hpath⟩ :=
        (houtcome.grouping.checked target.testId path).2 ⟨target, htarget, rfl, hp, hsome⟩
      exact ⟨g, hg, hpath⟩

end Agreement

end

/-! ## One more finding than the baseline has -/

def oneReport : ESLintFileResult Numeral where
  filePath := js "/musi/src/a.ts"
  messages := List.replicate 2
    { ruleId := some (js "local/one"), severity := JsNumber.ofInt 2, message := js "one"
      line := some (JsNumber.ofInt 3) }

def lintOne (_ : LintRatchetConfig Numeral) (file : JsString) : List (ESLintFileResult Numeral) :=
  if file = onePath then [oneReport] else []

def editEngine : LintRatchetEditCheckEngine Numeral where
  repoRoot := js "/musi"
  baselinePath := js "/musi/lint-ratchet.baseline.json"
  baselineText := some (formatLintRatchetBaseline (gatedFile 1) plainVocabulary)
  registry := [oneFileRatchet .messageCount]
  computeRuleSourceHash _ := zeroHash
  spawnEslint ratchet _ files := .ok (files.flatMap (lintOne ratchet))
  workflowVocabulary := plainVocabulary

def editTarget : EditCheckTarget where
  path := onePath
  testId := js "ratchet/one"
  ruleId := js "local/one"
  cacheIdentity := some (editCheckTargetCacheIdentity (oneFileRatchet .messageCount)
    ((gatedFile 1).tests.own (js "ratchet/one")) (some zeroHash))

theorem editCheckHost_one : EditCheckHost editEngine [onePath] lintOne where
  ids := List.nodup_singleton _
  tracked := List.nodup_singleton _
  alone ratchet _ _ files := ⟨_, rfl, .refl _⟩
  reports ratchet _ file hfile := by
    obtain rfl := List.mem_singleton.1 hfile
    refine ⟨some oneReport, rfl, fun result hresult => ?_⟩
    obtain rfl := Option.mem_some.1 hresult
    decide +kernel

def countsOf (r : EditCheckRegression Numeral) : Nat × Nat := (r.baselineCount, r.currentCount)

theorem sweep_one : ∃ currentById comparison,
    collectCurrentById editEngine [onePath] = .ok currentById ∧
    compareCurrentToBaseline (gatedFile 1) editEngine.registry currentById
      editEngine.workflowVocabulary = some comparison ∧
    ((targetedRegressions editEngine (gatedFile 1) [editTarget] comparison).map
      editCheckRegression).map countsOf = [(1, 2)] := by
  have hcurrent : ((collectCurrentById editEngine [onePath]).toOption.bind fun currentById =>
      (compareCurrentToBaseline (gatedFile 1) editEngine.registry currentById
        editEngine.workflowVocabulary).map fun comparison =>
          ((targetedRegressions editEngine (gatedFile 1) [editTarget] comparison).map
            editCheckRegression).map countsOf) = some [(1, 2)] := by
    decide +kernel
  obtain ⟨currentById, hsweep, hcurrent⟩ := Option.bind_eq_some_iff.1 hcurrent
  obtain ⟨comparison, hcompare, hcounts⟩ := Option.map_eq_some_iff.1 hcurrent
  exact ⟨currentById, comparison, ok_of_toOption hsweep, hcompare, hcounts⟩

theorem discovered_one : discoverEditCheckTargets editEngine [onePath] = some [editTarget] := by
  decide +kernel

theorem baseline_one : editEngine.structuralBaseline = some (gatedFile 1) := by decide +kernel

theorem paths_one : ∀ path ∈ [onePath], relativeToRepoRoot editEngine.repoRoot path ∈ [onePath] := by
  intro path hpath
  obtain rfl := List.mem_singleton.1 hpath
  decide +kernel

/-- The one new finding is reported at edit time. -/
theorem runEditCheckRegressions_sweep_one :
    ∃ result, RunEditCheckRegressions editEngine [editTarget] 4 result ∧
      (result.regressions.map countsOf).Perm [(1, 2)] := by
  obtain ⟨currentById, comparison, hsweep, hcompare, hcounts⟩ := sweep_one
  obtain ⟨⟨result, hresult⟩, hall⟩ := runEditCheckRegressions_sweep editCheckHost_one paths_one
    discovered_one (List.Subset.refl _) baseline_one hsweep hcompare 4
  obtain ⟨hperm, -⟩ := hall result hresult
  refine ⟨result, hresult, ?_⟩
  rw [← hcounts]
  exact List.Perm.map countsOf hperm

abbrev editHashes : JsString → Option JsString :=
  (buildRuleSourceHashesById editEngine editEngine.registry).get

/-- How many collections may run at once, of four. -/
abbrev editLimit : Nat := (max 1 (min (4 : Int) editEngine.registry.length)).toNat

theorem editHashes_one :
    editHashes (oneFileRatchet .messageCount).id = some zeroHash := by
  decide +kernel

theorem matchingTrackedFiles_one :
    matchingTrackedFiles (oneFileRatchet .messageCount) [onePath] =
      [onePath] := by
  decide +kernel

theorem pump_edit : (pump editEngine.registry editHashes editLimit {} :
    CollectionState Numeral (ESLintFileResult Numeral) JsString) =
      CollectionState.start {} 0 zeroHash false := by
  rw [pump, if_neg (by decide), if_neg (by decide),
    pumpLoop_start editHashes (by decide)
      (rfl : nextRunnableRatchetIndex editEngine.registry [] 0 = some 0) rfl
      editHashes_one,
    pumpLoop_limit (by decide)]
  rfl

/-- The one collection of a sweep has completed. -/
def editCollected : CollectionState Numeral (ESLintFileResult Numeral) JsString :=
  settle editEngine.registry editHashes editLimit (pump editEngine.registry editHashes editLimit {}) 0
    (runEslintForFiles (editEngine.spawnEslint (oneFileRatchet .messageCount) zeroHash) [onePath])

theorem collectRatchets_collectCurrentById_one : ∃ results,
    .resolveResults results ∈ editCollected.effects ∧
      currentByIdFromResults editEngine results = collectCurrentById editEngine [onePath] := by
  have hstart : 0 ∈ (pump editEngine.registry editHashes editLimit {} :
      CollectionState Numeral (ESLintFileResult Numeral) JsString).inFlight := by
    rw [pump_edit]
    exact List.mem_singleton.2 rfl
  have hsettled : editCollected.settled = [(0, runEslintForFiles
      (editEngine.spawnEslint (oneFileRatchet .messageCount) zeroHash) [onePath])] := by
    rw [editCollected, settled_settle, pump_edit]
    rfl
  have houtcomes (i : Nat) (outcome : Except JsString (List (ESLintFileResult Numeral)))
      (h : (i, outcome) ∈ editCollected.settled) : Collects editEngine [onePath] i outcome := by
    rw [hsettled] at h
    obtain ⟨rfl, rfl⟩ := Prod.mk.inj (List.mem_singleton.1 h)
    exact ⟨oneFileRatchet .messageCount, zeroHash, rfl, editHashes_one,
      by rw [matchingTrackedFiles_one]⟩
  have hreached : CollectionReachable editEngine.registry editHashes editLimit editCollected :=
    .settle .start hstart
  obtain ⟨currentById, comparison, hsweep, -⟩ := sweep_one
  obtain ⟨hash, hhash, files, hrun⟩ :=
    mapM_collected hsweep (oneFileRatchet .messageCount) (List.mem_singleton.2 rfl)
  obtain rfl := Option.some.inj (hhash.symm.trans editHashes_one)
  rw [matchingTrackedFiles_one] at hrun
  have hidle : editCollected.inFlight = [] := by
    rw [editCollected, pump_edit, hrun]
    rfl
  obtain ⟨hresolves, hrejects, hends⟩ := collectRatchets_collectCurrentById hreached houtcomes
  rcases hends hidle with ⟨results, hresults⟩ | ⟨reason, hreason⟩
  · exact ⟨results, hresults, hresolves results hresults⟩
  · obtain ⟨error, herror⟩ := hrejects reason hreason
    rw [hsweep] at herror
    cases herror

end Musi.LintRatchet
