import Musi.LintRatchet.Governance.DebtLog
import Musi.LintRatchet.Governance.DebtLogRoundTrip
import Musi.LintRatchet.Kernel.OneRatchet
import Musi.LintRatchet.Kernel.PosixHost
import Musi.System.Runs

namespace Musi.LintRatchet
open Musi.Js Musi.System
set_option autoImplicit true

section
variable {N : Type} [JsNumber N] [Host]

/-! ## The files of an update -/

/-- The texts of the two files on disk; a missing file is `none`. -/
structure UpdateFiles where
  baseline : Option JsString
  debtLog : Option JsString
  deriving DecidableEq

inductive UpdateEffect where
  | appendDebtLog (data : JsString)
  | writeBaseline (data : JsString)
  deriving DecidableEq

def UpdateFiles.perform (files : UpdateFiles) : UpdateEffect → UpdateFiles
  | .appendDebtLog data => { files with debtLog := some (files.debtLog.getD [] ++ data) }
  | .writeBaseline data => { files with baseline := some data }

/-! ## applyLintRatchetUpdate -/

inductive UpdateError where
  | config (message : JsString)
  | worseBaseline (message : JsString)
  | typeError
  deriving DecidableEq

/-- The baseline is named as the repository committed it. -/
structure ApplyLintRatchetUpdateParams (N : Type) where
  baselineName : JsString
  generated : LintRatchetBaseline N
  rendered : JsString
  registry : List (LintRatchetConfig N)
  options : LintRatchetUpdateOptions N

def parseCommittedStructure (params : ApplyLintRatchetUpdateParams N) (text : JsString) :
    Except UpdateError (LintRatchetBaseline N) :=
  match parseLintRatchetBaselineStructure text params.options.workflowVocabulary
      defaultVersionPolicy params.baselineName with
  | .ok baseline => .ok baseline
  | .error failures => .error (.config (join [0x0A] failures))

/-- The decision on a committed baseline; a first baseline has none. -/
def gateCommittedBaseline (params : ApplyLintRatchetUpdateParams N) (files : UpdateFiles) :
    Except UpdateError (Option (LintRatchetUpdateDecision N)) :=
  match files.baseline with
  | none => .ok none
  | some text =>
    match parseCommittedStructure params text with
    | .error error => .error error
    | .ok committed =>
      match decideLintRatchetUpdate committed params.generated params.registry params.options with
      | none => .error .typeError
      | some decision =>
        if decision.allowed then .ok (some decision)
        else .error (.worseBaseline (join [0x0A] decision.failures))

def updateIncludesAcceptedDebt (decision : Option (LintRatchetUpdateDecision N))
    (options : LintRatchetUpdateOptions N) : Bool :=
  match decision with
  | none => false
  | some decision =>
    options.allowWorse && (hasAcceptedDebt decision || decision.coverageShrinks ≠ [])

structure UpdateRun where
  effects : List UpdateEffect
  result : Except UpdateError Bool

/-- The effects in order, and what is returned or thrown. What follows the write only reports: the
committed text was parsed before. -/
def applyLintRatchetUpdate (params : ApplyLintRatchetUpdateParams N) (files : UpdateFiles) :
    UpdateRun :=
  match gateCommittedBaseline params files with
  | .error error => { effects := [], result := .error error }
  | .ok decision =>
    if files.baseline.getD [] = params.rendered then { effects := [], result := .ok false }
    else
      match appendValidatedDebtLogEntries (debtLogEntriesForUpdate decision params.options)
          (files.debtLog.getD []) with
      | .error message => { effects := [], result := .error (.config message) }
      | .ok appended =>
        { effects := appended.toList.map .appendDebtLog ++ [.writeBaseline params.rendered]
          result := .ok (appended.isSome && updateIncludesAcceptedDebt decision params.options) }

end

section
variable {N : Type} [JsNumber N] [Host] {params : ApplyLintRatchetUpdateParams N} {files : UpdateFiles}

/-! ## What an append does -/

omit [Host] in
/-- An accepted batch is appended, unless it is empty or the log already ends with it. -/
theorem appendValidatedDebtLogEntries_ok {entries : List (LintRatchetDebtLogEntry N)}
    {existing : JsString} {appended : Option JsString} :
    appendValidatedDebtLogEntries entries existing = .ok appended ↔
      (∀ entry ∈ entries, (parseLintRatchetDebtLogEntry (debtLogEntryJson entry)).isSome = true) ∧
        appended = if entries = [] ∨ debtLogBatch entries <:+ existing then none
          else some (batchSeparator existing ++ debtLogBatch entries) := by
  unfold appendValidatedDebtLogEntries
  cases entries with
  | nil =>
    rw [List.isEmpty_nil, if_pos rfl, if_pos (.inl rfl), and_iff_right (by simp), Except.ok.injEq]
    exact eq_comm
  | cons entry entries =>
    rw [List.isEmpty_cons, if_neg (by simp)]
    by_cases hall : ((entry :: entries).all fun entry =>
        (parseLintRatchetDebtLogEntry (debtLogEntryJson entry)).isSome) = true
    · have hforall := List.all_eq_true.1 hall
      rw [if_pos hall, and_iff_right hforall]
      by_cases hsuffix : debtLogBatch (entry :: entries) <:+ existing
      · simp only [endsWith_iff.2 hsuffix, if_true, hsuffix, or_true, Except.ok.injEq, eq_comm]
      · have hends : endsWith existing (debtLogBatch (entry :: entries)) = false := by
          rw [Bool.eq_false_iff, ne_eq, endsWith_iff]
          exact hsuffix
        simp only [hends, Bool.false_eq_true, if_false, hsuffix, or_false, List.cons_ne_nil,
          Except.ok.injEq, eq_comm, batchSeparator]
    · rw [if_neg hall]
      refine iff_of_false (fun h => ?_) fun h => hall (List.all_eq_true.2 h.1)
      cases h

/-! ## What a run does -/

/-- A run with effects: its decision, and what it appends before the write. -/
structure Applied (params : ApplyLintRatchetUpdateParams N) (files : UpdateFiles)
    (decision : Option (LintRatchetUpdateDecision N)) (appended : Option JsString) : Prop where
  gate : gateCommittedBaseline params files = .ok decision
  changed : files.baseline.getD [] ≠ params.rendered
  append : appendValidatedDebtLogEntries (debtLogEntriesForUpdate decision params.options)
    (files.debtLog.getD []) = .ok appended

theorem Applied.run {decision : Option (LintRatchetUpdateDecision N)} {appended : Option JsString}
    (h : Applied params files decision appended) :
    applyLintRatchetUpdate params files =
      { effects := appended.toList.map .appendDebtLog ++ [.writeBaseline params.rendered]
        result := .ok (appended.isSome && updateIncludesAcceptedDebt decision params.options) } := by
  simp only [applyLintRatchetUpdate, h.gate, if_neg h.changed, h.append]

/-- A run that is refused, or that finds its baseline on disk, has no effects. -/
theorem applyLintRatchetUpdate_cases (params : ApplyLintRatchetUpdateParams N) (files : UpdateFiles) :
    (applyLintRatchetUpdate params files).effects = [] ∨
      ∃ decision appended, Applied params files decision appended := by
  unfold applyLintRatchetUpdate
  split
  · exact .inl rfl
  · next decision hgate =>
    split_ifs with hsame
    · exact .inl rfl
    · split
      · exact .inl rfl
      · next appended happend => exact .inr ⟨decision, appended, hgate, hsame, happend⟩

theorem applyLintRatchetUpdate_error {error : UpdateError}
    (h : (applyLintRatchetUpdate params files).result = .error error) :
    (applyLintRatchetUpdate params files).effects = [] := by
  rcases applyLintRatchetUpdate_cases params files with hnil | ⟨decision, appended, happlied⟩
  · exact hnil
  · rw [happlied.run] at h
    cases h

/-- A run over its own baseline has nothing to do, whatever its gate says. -/
theorem applyLintRatchetUpdate_written (debtLog : Option JsString) :
    (applyLintRatchetUpdate params { baseline := some params.rendered, debtLog }).effects = [] := by
  rcases applyLintRatchetUpdate_cases params { baseline := some params.rendered, debtLog } with
    hnil | ⟨decision, appended, happlied⟩
  · exact hnil
  · exact absurd rfl happlied.changed

/-- After its append, a run decides as before and finds its batch at the end of the log. -/
theorem Applied.appended {decision : Option (LintRatchetUpdateDecision N)} {data : JsString}
    (h : Applied params files decision (some data)) :
    Applied params (files.perform (.appendDebtLog data)) decision none where
  gate := h.gate
  changed := h.changed
  append := by
    obtain ⟨hvalid, hdata⟩ := appendValidatedDebtLogEntries_ok.1 h.append
    refine appendValidatedDebtLogEntries_ok.2 ⟨hvalid, ?_⟩
    split at hdata
    · cases hdata
    · cases hdata
      have hsuffix : debtLogBatch (debtLogEntriesForUpdate decision params.options) <:+
          files.debtLog.getD [] ++ (batchSeparator (files.debtLog.getD []) ++
            debtLogBatch (debtLogEntriesForUpdate decision params.options)) :=
        (List.suffix_append _ _).trans (List.suffix_append _ _)
      rw [if_pos (.inr hsuffix)]

theorem applyLintRatchetUpdate_resumable (params : ApplyLintRatchetUpdateParams N) :
    Resumable UpdateFiles.perform fun files => (applyLintRatchetUpdate params files).effects := by
  intro files effect rest hrun
  dsimp only at hrun ⊢
  rcases applyLintRatchetUpdate_cases params files with hnil | ⟨decision, appended, happlied⟩
  · rw [hnil] at hrun
    cases hrun
  · rw [happlied.run] at hrun
    cases appended with
    | some data =>
      obtain ⟨rfl, rfl⟩ := List.cons.inj hrun
      rw [happlied.appended.run]
      rfl
    | none =>
      obtain ⟨rfl, rfl⟩ := List.cons.inj hrun
      exact applyLintRatchetUpdate_written files.debtLog

/-! ## Crashes -/

/-- The records of a run are in a log. -/
def RecordsLogged (params : ApplyLintRatchetUpdateParams N) (files : UpdateFiles)
    (debtLog : JsString) : Prop :=
  ∃ decision, gateCommittedBaseline params files = .ok decision ∧
    (debtLogEntriesForUpdate decision params.options = [] ∨
      debtLogBatch (debtLogEntriesForUpdate decision params.options) <:+ debtLog)

/-- A log holds what it held and at most one batch more, which it did not end with. -/
def LoggedOnce (params : ApplyLintRatchetUpdateParams N) (files : UpdateFiles)
    (debtLog : Option JsString) : Prop :=
  debtLog = files.debtLog ∨ ∃ decision, gateCommittedBaseline params files = .ok decision ∧
    ¬ debtLogBatch (debtLogEntriesForUpdate decision params.options) <:+ files.debtLog.getD [] ∧
    debtLog = some (files.debtLog.getD [] ++ (batchSeparator (files.debtLog.getD []) ++
      debtLogBatch (debtLogEntriesForUpdate decision params.options)))

/-- A run after any number of crashed ones ends with the files of an uninterrupted run. On the way,
the log is written before the baseline, and once. A run that throws leaves the files. -/
theorem applyLintRatchetUpdate_retry {crashed : UpdateFiles}
    (h : Relation.ReflTransGen (CutOff UpdateFiles.perform fun files =>
      (applyLintRatchetUpdate params files).effects) files crashed) :
    performAll UpdateFiles.perform crashed (applyLintRatchetUpdate params crashed).effects =
        performAll UpdateFiles.perform files (applyLintRatchetUpdate params files).effects ∧
      LoggedOnce params files crashed.debtLog ∧
      (crashed.baseline = files.baseline ∨ crashed.baseline = some params.rendered ∧
        RecordsLogged params files (crashed.debtLog.getD [])) ∧
      ∀ error, (applyLintRatchetUpdate params files).result = .error error → crashed = files := by
  have hresumable := applyLintRatchetUpdate_resumable params
  refine ⟨hresumable.retry h, ?_⟩
  obtain ⟨done, rest, hrun, rfl⟩ := hresumable.reached h
  have herror (error : UpdateError) (he : (applyLintRatchetUpdate params files).result = .error error) :
      performAll UpdateFiles.perform files done = files := by
    rw [applyLintRatchetUpdate_error he] at hrun
    rw [(List.append_eq_nil_iff.1 hrun.symm).1, performAll_nil]
  -- nothing done, or the append done, or the whole run done
  cases done with
  | nil => exact ⟨.inl rfl, .inl rfl, herror⟩
  | cons effect done =>
    rcases applyLintRatchetUpdate_cases params files with hnil | ⟨decision, appended, happlied⟩
    · rw [hnil] at hrun
      cases hrun
    rw [happlied.run] at hrun
    obtain ⟨-, happended⟩ := appendValidatedDebtLogEntries_ok.1 happlied.append
    split at happended
    · next hlogged =>
      subst happended
      obtain ⟨rfl, hdone⟩ := List.cons.inj hrun
      rw [(List.append_eq_nil_iff.1 hdone.symm).1] at herror ⊢
      exact ⟨.inl rfl, .inr ⟨rfl, decision, happlied.gate, hlogged⟩, herror⟩
    · next hlogged =>
      subst happended
      obtain ⟨rfl, hdone⟩ := List.cons.inj hrun
      replace hdone : [UpdateEffect.writeBaseline params.rendered] = done ++ rest := hdone
      obtain ⟨-, hfresh⟩ := not_or.1 hlogged
      cases done with
      | nil => exact ⟨.inr ⟨decision, happlied.gate, hfresh, rfl⟩, .inl rfl, herror⟩
      | cons effect done =>
        obtain ⟨rfl, hnil⟩ := List.cons.inj hdone
        rw [(List.append_eq_nil_iff.1 hnil.symm).1] at herror ⊢
        refine ⟨.inr ⟨decision, happlied.gate, hfresh, rfl⟩, .inr ⟨rfl, decision, happlied.gate, .inr ?_⟩,
          herror⟩
        exact (List.suffix_append _ _).trans (List.suffix_append _ _)

end

/-- An update that accepts a rise from one finding to two. -/
def risingUpdate : ApplyLintRatchetUpdateParams Numeral where
  baselineName := defaultBaselineFilename
  generated := oneFile .messageCount { count := 2 }
  rendered := formatLintRatchetBaseline (oneFile .messageCount { count := 2 }) plainVocabulary
  registry := [oneFileRatchet .messageCount]
  options :=
    { allowWorse := true, workflowVocabulary := plainVocabulary, reason := some (js "ok") }

def beforeRise (debtLog : Option JsString) : UpdateFiles where
  baseline := some (baselineText (oneFile .messageCount { count := 1 }))
  debtLog := debtLog

/-- The record of the rise. -/
def riseEntry : LintRatchetDebtLogEntry Numeral :=
  .acceptedDebt
    { acceptanceReason := js "ok"
      regressions := [{ testId := js "ratchet/one", ruleId := js "local/one", path := onePath
                        baselineCount := 1, currentCount := 2, reason := .increasedCount }]
      orphansRemoved := [] }

theorem risingUpdate_effects : (applyLintRatchetUpdate risingUpdate (beforeRise none)).effects =
    [.appendDebtLog (debtLogBatch [riseEntry]), .writeBaseline risingUpdate.rendered] := by
  decide +kernel

/-- The update crashes between its append and its write. -/
theorem applyLintRatchetUpdate_retry_rise :
    let crashed := beforeRise (some (debtLogBatch [riseEntry]))
    performAll UpdateFiles.perform crashed (applyLintRatchetUpdate risingUpdate crashed).effects =
        performAll UpdateFiles.perform (beforeRise none)
          (applyLintRatchetUpdate risingUpdate (beforeRise none)).effects ∧
      LoggedOnce risingUpdate (beforeRise none) crashed.debtLog ∧
      (crashed.baseline = (beforeRise none).baseline ∨
        crashed.baseline = some risingUpdate.rendered ∧
          RecordsLogged risingUpdate (beforeRise none) (crashed.debtLog.getD [])) ∧
      ∀ error, (applyLintRatchetUpdate risingUpdate (beforeRise none)).result = .error error →
        crashed = beforeRise none :=
  applyLintRatchetUpdate_retry (.single ⟨[.appendDebtLog (debtLogBatch [riseEntry])],
    ⟨[.writeBaseline risingUpdate.rendered], risingUpdate_effects.symm⟩, rfl⟩)

end Musi.LintRatchet
