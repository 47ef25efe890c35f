import Musi.LintRatchet.Governance.GateStrictness
import Musi.LintRatchet.Governance.UpdateRetry

namespace Musi.LintRatchet
open Musi.Js Musi.System
set_option autoImplicit true

section
variable {N : Type} [JsNumber N] [Host] {params : ApplyLintRatchetUpdateParams N} {files : UpdateFiles}

/-! ## What an update records -/

/-- The rule options that a retirement attests are values of the language. -/
def OptionsBuilt (options : LintRatchetUpdateOptions N) : Prop :=
  ∀ retire ∈ options.retire, ∀ a ∈ retire.optionsAttestation, AttestationBuilt a

theorem decision_attestation {committed generated : LintRatchetBaseline N}
    {ratchets : List (LintRatchetConfig N)} {options : LintRatchetUpdateOptions N}
    {decision : LintRatchetUpdateDecision N}
    (hd : decideLintRatchetUpdate committed generated ratchets options = some decision)
    (h : OptionsBuilt options) : ∀ a ∈ decision.retirementOptionsAttestation, AttestationBuilt a := by
  obtain ⟨comparison, -, rfl⟩ := Option.map_eq_some_iff.1 hd
  intro a ha
  dsimp only at ha
  split at ha
  · unfold retireResolution at ha
    split at ha
    · cases ha
    · next retire hretire =>
      unfold resolveRetire at ha
      split at ha
      · cases ha
      · split_ifs at ha
        · cases ha
        · cases ha
        · exact h retire hretire a ha
  · cases ha

/-- The decision on a committed baseline is an allowed one. -/
theorem gateCommittedBaseline_some {decision : LintRatchetUpdateDecision N}
    (h : gateCommittedBaseline params files = .ok (some decision)) :
    ∃ text committed, files.baseline = some text ∧
      parseLintRatchetBaselineStructure text params.options.workflowVocabulary defaultVersionPolicy
        params.baselineName = .ok committed ∧
      decideLintRatchetUpdate committed params.generated params.registry params.options =
        some decision ∧ decision.allowed = true := by
  unfold gateCommittedBaseline at h
  split at h
  · cases h
  · next text htext =>
    split at h
    · cases h
    · next committed hparse =>
      split at h
      · cases h
      · next decision' hdecide =>
        split_ifs at h with hallowed
        cases h
        refine ⟨text, committed, htext, ?_, hdecide, hallowed⟩
        unfold parseCommittedStructure at hparse
        split at hparse
        · next baseline hbaseline =>
          cases hparse
          exact hbaseline
        · cases hparse

theorem gateCommittedBaseline_congr {files' : UpdateFiles} (h : files.baseline = files'.baseline) :
    gateCommittedBaseline params files = gateCommittedBaseline params files' := by
  unfold gateCommittedBaseline
  rw [h]

/-- The records of a decision are of the kind that the log reads back. -/
theorem entriesBuilt_of_decision {committed generated : LintRatchetBaseline N}
    {ratchets : List (LintRatchetConfig N)} {options : LintRatchetUpdateOptions N}
    {decision : LintRatchetUpdateDecision N}
    (hd : decideLintRatchetUpdate committed generated ratchets options = some decision)
    (h : OptionsBuilt options) :
    ∀ entry ∈ debtLogEntriesForUpdate (some decision) options, EntryBuilt entry := by
  intro entry hentry
  simp only [debtLogEntriesForUpdate, List.mem_append] at hentry
  rcases hentry with ((haccepted | hshrink) | hmigration) | hretirement
  · split_ifs at haccepted
    · obtain rfl := List.mem_singleton.1 haccepted
      intro r hr
      obtain ⟨regression, -, rfl⟩ := List.mem_map.1 hr
      exact ⟨rfl, rfl⟩
    · cases haccepted
  · split_ifs at hshrink
    · obtain ⟨shrink, -, rfl⟩ := List.mem_map.1 hshrink
      trivial
    · cases hshrink
  · obtain ⟨migration, -, rfl⟩ := List.mem_map.1 hmigration
    trivial
  · obtain ⟨id, -, rfl⟩ := List.mem_map.1 hretirement
    exact decision_attestation hd h

theorem debtLogEntriesForUpdate_built {decision : Option (LintRatchetUpdateDecision N)}
    (hgate : gateCommittedBaseline params files = .ok decision) (h : OptionsBuilt params.options) :
    ∀ entry ∈ debtLogEntriesForUpdate decision params.options, EntryBuilt entry := by
  cases decision with
  | none => simp [debtLogEntriesForUpdate]
  | some decision =>
    obtain ⟨text, committed, -, -, hdecide, -⟩ := gateCommittedBaseline_some hgate
    exact entriesBuilt_of_decision hdecide h

/-- The log after a run. -/
def logAfter (params : ApplyLintRatchetUpdateParams N) (files : UpdateFiles) : JsString :=
  (performAll UpdateFiles.perform files (applyLintRatchetUpdate params files).effects).debtLog.getD []

/-- What a run that writes its baseline leaves in the log. -/
theorem logAfter_eq {decision : Option (LintRatchetUpdateDecision N)} {recorded : Bool}
    (hgate : gateCommittedBaseline params files = .ok decision)
    (hresult : (applyLintRatchetUpdate params files).result = .ok recorded)
    (hchanged : files.baseline.getD [] ≠ params.rendered) :
    (∀ entry ∈ debtLogEntriesForUpdate decision params.options,
      (parseLintRatchetDebtLogEntry (debtLogEntryJson entry)).isSome = true) ∧
    logAfter params files =
      if debtLogEntriesForUpdate decision params.options = [] ∨
          debtLogBatch (debtLogEntriesForUpdate decision params.options) <:+ files.debtLog.getD [] then
        files.debtLog.getD []
      else files.debtLog.getD [] ++ (batchSeparator (files.debtLog.getD []) ++
        debtLogBatch (debtLogEntriesForUpdate decision params.options)) := by
  cases happend : appendValidatedDebtLogEntries (debtLogEntriesForUpdate decision params.options)
      (files.debtLog.getD []) with
  | error message =>
    simp only [applyLintRatchetUpdate, hgate, if_neg hchanged, happend] at hresult
    cases hresult
  | ok appended =>
    obtain ⟨hvalid, happended⟩ := appendValidatedDebtLogEntries_ok.1 happend
    refine ⟨hvalid, ?_⟩
    rw [logAfter, (Applied.mk hgate hchanged happend).run, happended]
    split_ifs <;> rfl

/-- The added part of the log is what the update recorded, unless it repeats the end of the log. -/
theorem applyLintRatchetUpdate_records_iff {decision : Option (LintRatchetUpdateDecision N)}
    {recorded : Bool} {debtLogName : JsString} {old : List (LintRatchetDebtLogEntry N)}
    (hgate : gateCommittedBaseline params files = .ok decision)
    (hresult : (applyLintRatchetUpdate params files).result = .ok recorded)
    (hchanged : files.baseline.getD [] ≠ params.rendered)
    (hlog : parseDebtLogJsonl (files.debtLog.getD []) (debtLogName ++ js " at base") = .ok old)
    (hbuilt : OptionsBuilt params.options) :
    addedDebtLogEntries (files.debtLog.getD []) (logAfter params files) debtLogName =
        .ok (debtLogEntriesForUpdate decision params.options) ↔
      debtLogEntriesForUpdate decision params.options = [] ∨
        ¬ debtLogBatch (debtLogEntriesForUpdate decision params.options) <:+ files.debtLog.getD [] := by
  obtain ⟨hvalid, hafter⟩ := logAfter_eq hgate hresult hchanged
  rw [hafter]
  have hsame : addedDebtLogEntries (files.debtLog.getD []) (files.debtLog.getD []) debtLogName =
      .ok ([] : List (LintRatchetDebtLogEntry N)) := addedDebtLogEntries_self hlog
  by_cases hnil : debtLogEntriesForUpdate decision params.options = []
  · rw [if_pos (.inl hnil), hsame, hnil]
    exact iff_of_true rfl (.inl rfl)
  by_cases hsuffix : debtLogBatch (debtLogEntriesForUpdate decision params.options) <:+
      files.debtLog.getD []
  · rw [if_pos (.inr hsuffix), hsame]
    exact iff_of_false (fun h => hnil (Except.ok.inj h).symm) (by simp [hnil, hsuffix])
  · rw [if_neg (by simp [hnil, hsuffix])]
    refine iff_of_true (addedDebtLogEntries_batch hlog hnil fun entry hentry => ?_) (.inr hsuffix)
    exact ⟨debtLogEntriesForUpdate_built hgate hbuilt entry hentry, hvalid entry hentry⟩

end

theorem optionsBuilt_rise : OptionsBuilt risingUpdate.options := fun _ h => nomatch h

/-- What the rise records, before a given log. -/
theorem rise_records (debtLog : Option JsString) : ∃ decision,
    gateCommittedBaseline risingUpdate (beforeRise debtLog) = .ok decision ∧
      debtLogEntriesForUpdate decision risingUpdate.options = [riseEntry] := by
  have hrecords : (gateCommittedBaseline risingUpdate (beforeRise none)).toOption.map
      (debtLogEntriesForUpdate · risingUpdate.options) = some [riseEntry] := by decide +kernel
  have hsame : gateCommittedBaseline risingUpdate (beforeRise debtLog) =
      gateCommittedBaseline risingUpdate (beforeRise none) := gateCommittedBaseline_congr rfl
  rw [hsame]
  cases hgate : gateCommittedBaseline risingUpdate (beforeRise none) with
  | error error =>
    rw [hgate] at hrecords
    cases hrecords
  | ok decision =>
    rw [hgate] at hrecords
    exact ⟨decision, rfl, Option.some.inj hrecords⟩

theorem rise_changed (debtLog : Option JsString) :
    (beforeRise debtLog).baseline.getD [] ≠ risingUpdate.rendered := by
  have hnone : (beforeRise none).baseline.getD [] ≠ risingUpdate.rendered := by decide +kernel
  exact hnone

theorem appendable_rise : EntryAppendable riseEntry :=
  ⟨fun _ h => by
    obtain rfl := List.mem_singleton.1 h
    exact ⟨rfl, rfl⟩, by decide +kernel⟩

theorem rise_result (debtLog : Option JsString) : ∃ recorded,
    (applyLintRatchetUpdate risingUpdate (beforeRise debtLog)).result = .ok recorded := by
  obtain ⟨decision, hgate, hentries⟩ := rise_records debtLog
  have happend : appendValidatedDebtLogEntries [riseEntry] ((beforeRise debtLog).debtLog.getD []) =
      .ok _ := appendValidatedDebtLogEntries_ok.2 ⟨List.forall_mem_singleton.2 appendable_rise.2, rfl⟩
  rw [← hentries] at happend
  exact ⟨_, by rw [(Applied.mk hgate (rise_changed debtLog) happend).run]⟩

theorem applyLintRatchetUpdate_records_iff_rise : ∃ decision,
    debtLogEntriesForUpdate decision risingUpdate.options = [riseEntry] ∧
    (addedDebtLogEntries ((beforeRise none).debtLog.getD []) (logAfter risingUpdate (beforeRise none))
        defaultDebtLogFilename = .ok (debtLogEntriesForUpdate decision risingUpdate.options) ↔
      debtLogEntriesForUpdate decision risingUpdate.options = [] ∨
        ¬ debtLogBatch (debtLogEntriesForUpdate decision risingUpdate.options) <:+
          (beforeRise none).debtLog.getD []) := by
  obtain ⟨decision, hgate, hentries⟩ := rise_records none
  obtain ⟨recorded, hresult⟩ := rise_result none
  exact ⟨decision, hentries, applyLintRatchetUpdate_records_iff hgate hresult (rise_changed none)
    (parseDebtLogJsonl_nil _) optionsBuilt_rise⟩

/-- The rise was accepted before and drained since: it is accepted again, and adds no record. -/
theorem applyLintRatchetUpdate_repeated_rise :
    let files := beforeRise (some (debtLogBatch [riseEntry]))
    parseDebtLogJsonl (debtLogBatch [riseEntry]) (defaultDebtLogFilename ++ js " at base") =
        .ok [riseEntry] ∧
      ∃ decision recorded, gateCommittedBaseline risingUpdate files = .ok decision ∧
        (applyLintRatchetUpdate risingUpdate files).result = .ok recorded ∧
        files.baseline.getD [] ≠ risingUpdate.rendered ∧
        debtLogEntriesForUpdate decision risingUpdate.options = [riseEntry] ∧
        addedDebtLogEntries (debtLogBatch [riseEntry]) (logAfter risingUpdate files)
          defaultDebtLogFilename = .ok ([] : List (LintRatchetDebtLogEntry Numeral)) := by
  obtain ⟨decision, hgate, hentries⟩ := rise_records (some (debtLogBatch [riseEntry]))
  obtain ⟨recorded, hresult⟩ := rise_result (some (debtLogBatch [riseEntry]))
  have hlog : parseDebtLogJsonl (debtLogBatch [riseEntry])
      (defaultDebtLogFilename ++ js " at base") = .ok [riseEntry] :=
    parseDebtLogJsonl_batch (by simp) (List.forall_mem_singleton.2 appendable_rise) _
  have hafter := (logAfter_eq hgate hresult (rise_changed _)).2
  rw [hentries, if_pos (.inr (List.suffix_refl (debtLogBatch [riseEntry])))] at hafter
  refine ⟨hlog, decision, recorded, hgate, hresult, rise_changed _, hentries, ?_⟩
  rw [hafter]
  exact addedDebtLogEntries_self hlog

end Musi.LintRatchet
