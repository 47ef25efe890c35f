import Musi.LintRatchet.Governance.ChainSoundness
import Musi.LintRatchet.Governance.DebtLogRoundTrip
import Musi.LintRatchet.Kernel.OneRatchet
import Musi.LintRatchet.Kernel.PosixHost

namespace Musi.LintRatchet
open Musi.Js Musi.System
set_option autoImplicit true

section
variable {N : Type} [JsNumber N] [Host]

/-! ## Batches one after the other -/

omit [JsNumber N] [Host] in
theorem splitOn_append_cons (c : UInt16) (s t : JsString) :
    splitOn c (s ++ c :: t) = splitOn c s ++ splitOn c t := by
  induction s with
  | nil => simp [splitOn]
  | cons a s ih =>
    rw [List.cons_append, splitOn, ih, splitOn]
    split
    · rfl
    · cases hs : splitOn c s with
      | nil => exact absurd hs (splitOn_ne_nil c s)
      | cons part parts => rfl

omit [JsNumber N] [Host] in
theorem splitLines_append_cons (s t : JsString) :
    splitLines (s ++ 0x0A :: t) = (splitOn 0x0A s).map chopReturn ++ splitLines t := by
  have hne : splitOn 0x0A t ≠ [] := splitOn_ne_nil 0x0A t
  rw [splitLines, splitLines, splitOn_append_cons]
  rw [List.dropLast_append_of_ne_nil hne, List.getLast?_append_of_ne_nil _ hne, List.map_append,
    List.append_assoc]

omit [JsNumber N] [Host] in
theorem splitLines_ne_nil (s : JsString) : splitLines s ≠ [] := by
  intro h
  have hlast := (List.append_eq_nil_iff.1 h).2
  have hne : splitOn 0x0A s ≠ [] := splitOn_ne_nil 0x0A s
  rw [List.getLast?_eq_some_getLast hne] at hlast
  cases hlast

omit [JsNumber N] [Host] in
/-- The lines of a terminated text and of what follows it. -/
theorem debtLogLines_append {s t : JsString} :
    debtLogLines (s ++ 0x0A :: t) = (splitOn 0x0A s).map chopReturn ++ debtLogLines t := by
  have hne : s ++ 0x0A :: t ≠ [] := List.append_ne_nil_of_right_ne_nil _ (List.cons_ne_nil _ _)
  rw [debtLogLines, if_neg hne, splitLines_append_cons]
  dsimp only
  rw [List.getLast?_append_of_ne_nil _ (splitLines_ne_nil t)]
  by_cases ht : t = []
  · subst ht
    have hempty : splitLines ([] : JsString) = [[]] := rfl
    have hlines : debtLogLines ([] : JsString) = [] := rfl
    rw [hempty, hlines, List.append_nil, List.getLast?_singleton, if_pos rfl, List.dropLast_concat]
  · rw [debtLogLines, if_neg ht]
    dsimp only
    split
    · rw [List.dropLast_append_of_ne_nil (splitLines_ne_nil t)]
    · rfl

/-- Where its lines stand does not matter to an entry. -/
theorem parseDebtLogJsonlLine_ok {line label label' : JsString} {n n' : Nat}
    {entry : LintRatchetDebtLogEntry N} (h : parseDebtLogJsonlLine line n label = .ok entry) :
    parseDebtLogJsonlLine line n' label' = .ok entry := by
  unfold parseDebtLogJsonlLine at h ⊢
  split at h
  · cases h
  · split at h
    · cases h
    · exact h

theorem parseDebtLogLines_cons {line label : JsString} {lines : List JsString} {n : Nat}
    {entries : List (LintRatchetDebtLogEntry N)} :
    parseDebtLogLines label n (line :: lines) = .ok entries ↔
      ∃ entry rest, parseDebtLogJsonlLine line n label = .ok entry ∧
        parseDebtLogLines label (n + 1) lines = .ok rest ∧ entries = entry :: rest := by
  rw [parseDebtLogLines]
  cases hline : (parseDebtLogJsonlLine line n label : Except JsString (LintRatchetDebtLogEntry N)) with
  | error message => simp
  | ok entry =>
    cases hlines : (parseDebtLogLines label (n + 1) lines :
        Except JsString (List (LintRatchetDebtLogEntry N))) with
    | error message => simp [Except.map]
    | ok rest => simp [Except.map, eq_comm]

theorem parseDebtLogLines_append {lines lines' : List JsString} {label label' label'' : JsString}
    {n n' n'' : Nat} {entries entries' : List (LintRatchetDebtLogEntry N)}
    (h : parseDebtLogLines label n lines = .ok entries)
    (h' : parseDebtLogLines label' n' lines' = .ok entries') :
    parseDebtLogLines label'' n'' (lines ++ lines') = .ok (entries ++ entries') := by
  induction lines generalizing n n'' entries with
  | nil =>
    cases h
    induction lines' generalizing n' n'' entries' with
    | nil =>
      cases h'
      rfl
    | cons line lines' ih =>
      obtain ⟨entry, rest, hline, hrest, rfl⟩ := parseDebtLogLines_cons.1 h'
      exact parseDebtLogLines_cons.2 ⟨entry, rest, parseDebtLogJsonlLine_ok hline, ih hrest, rfl⟩
  | cons line lines ih =>
    obtain ⟨entry, rest, hline, hrest, rfl⟩ := parseDebtLogLines_cons.1 h
    exact parseDebtLogLines_cons.2
      ⟨entry, rest ++ entries', parseDebtLogJsonlLine_ok hline, ih hrest, rfl⟩

/-- Terminated lines, each a valid entry. -/
structure IsBatch (text : JsString) (entries : List (LintRatchetDebtLogEntry N)) : Prop where
  terminated : text = [] ∨ ∃ s, text = s ++ [0x0A]
  parsed : ∃ label, parseDebtLogJsonl text label = .ok entries

variable {left right base : JsString} {entries entries' : List (LintRatchetDebtLogEntry N)}

theorem IsBatch.append (hl : IsBatch left entries) (hr : IsBatch right entries') :
    IsBatch (left ++ right) (entries ++ entries') := by
  obtain ⟨label, hlp⟩ := hl.parsed
  obtain ⟨label', hrp⟩ := hr.parsed
  rcases hl.terminated with rfl | ⟨s, rfl⟩
  · cases hlp
    exact hr
  · refine ⟨?_, label, ?_⟩
    · rcases hr.terminated with rfl | ⟨t, rfl⟩
      · exact .inr ⟨s, List.append_nil _⟩
      · exact .inr ⟨s ++ [0x0A] ++ t, (List.append_assoc _ _ _).symm⟩
    · have hlines : debtLogLines (s ++ [0x0A]) = (splitOn 0x0A s).map chopReturn := by
        rw [debtLogLines_append]
        exact List.append_nil _
      rw [parseDebtLogJsonl, hlines] at hlp
      rw [parseDebtLogJsonl, List.append_assoc, List.singleton_append, debtLogLines_append]
      exact parseDebtLogLines_append hlp hrp

theorem parseDebtLogJsonl_label {text label label' : JsString}
    (h : parseDebtLogJsonl text label = .ok entries) : parseDebtLogJsonl text label' = .ok entries := by
  have hnil : parseDebtLogLines label 1 [] = .ok ([] : List (LintRatchetDebtLogEntry N)) := rfl
  have happend : parseDebtLogLines label' 1 (debtLogLines text ++ []) = .ok (entries ++ []) :=
    parseDebtLogLines_append h hnil
  rwa [List.append_nil, List.append_nil] at happend

/-- A batch does not start with a line break. -/
theorem IsBatch.front {text : JsString} (h : IsBatch text entries) : dropLeadingNewline text = text := by
  obtain ⟨label, hparse⟩ := h.parsed
  have hempty : ∀ (first rest : JsString), (splitOn 0x0A first).map chopReturn = [[]] →
      text ≠ first ++ 0x0A :: rest := by
    intro first rest hfirst htext
    subst htext
    rw [parseDebtLogJsonl, debtLogLines_append, hfirst, List.singleton_append] at hparse
    obtain ⟨entry, -, hline, -⟩ := parseDebtLogLines_cons.1 hparse
    cases hline
  unfold dropLeadingNewline
  split
  · exact absurd rfl (hempty [] _ rfl)
  · exact absurd rfl (hempty [0x0D] _ rfl)
  · rfl

/-- The entries that a batch adds to a log. -/
theorem addedDebtLogEntries_isBatch {text name : JsString} (h : IsBatch text entries)
    {old : List (LintRatchetDebtLogEntry N)}
    (hbase : parseDebtLogJsonl base (name ++ js " at base") = .ok old) :
    addedDebtLogEntries base (base ++ text) name = .ok entries := by
  have hprefix : startsWith (base ++ text) base = true := by simp
  obtain ⟨label, hparse⟩ := h.parsed
  rw [addedDebtLogEntries, hbase, appendedDebtLogText, if_pos hprefix, List.drop_left]
  dsimp only
  rw [h.front, ite_self]
  exact parseDebtLogJsonl_label hparse

/-! ## Records as edges -/

/-- The transition of a count that a record states. -/
def countEdge (r : LintRatchetRegression N) : Option ((Option Nat × Bool) × (Option Nat × Bool)) :=
  if r.currentCount > r.baselineCount then
    if r.reason = .newPath then some ((some r.baselineCount, false), (some r.currentCount, true))
    else if r.reason = .increasedCount then
      some ((some r.baselineCount, true), (some r.currentCount, true))
    else none
  else none

/-- The transition on a severity axis that a record states. -/
def severityEdge {α : Type} [LT α] [DecidableLT α] (reason : RegressionReason)
    (before after : LintRatchetRegression N → Option α) (r : LintRatchetRegression N) :
    Option (α × (α × Option Nat)) :=
  (before r).bind fun baseline => (after r).bind fun current =>
    if r.reason = reason ∧ current > baseline then some (baseline, (current, some r.currentCount))
    else none

theorem countChainStep_none {r : LintRatchetRegression N} {s : Option Nat × Bool}
    (h : countEdge r = none) : countChainStep s r = s := by
  unfold countEdge at h
  have hstay : ∀ reason, reason = .newPath ∨ reason = .increasedCount →
      isNextCountTransition r s.1 reason = false := by
    intro reason hreason
    rw [isNextCountTransition]
    split_ifs at h with hgt hnew hcount
    · rcases hreason with rfl | rfl
      · simp [hnew]
      · simp [hcount]
    · simp [hgt]
  rw [countChainStep, hstay _ (.inl rfl), hstay _ (.inr rfl)]
  simp

theorem countChainStep_some {r : LintRatchetRegression N} {s : Option Nat × Bool}
    {edge : (Option Nat × Bool) × (Option Nat × Bool)} (h : countEdge r = some edge) :
    countChainStep s r = if edge.1 = s then edge.2 else s := by
  obtain ⟨count, seen⟩ := s
  unfold countEdge at h
  split_ifs at h with hgt hnew hcount
  · cases h
    cases seen <;> by_cases hc : some r.baselineCount = count <;>
      simp [countChainStep, isNextCountTransition, hnew, hgt, hc]
  · cases h
    cases seen <;> by_cases hc : some r.baselineCount = count <;>
      simp [countChainStep, isNextCountTransition, hcount, hgt, hc]

theorem foldl_countChainStep (regressions : List (LintRatchetRegression N)) (s : Option Nat × Bool) :
    regressions.foldl countChainStep s = follow id (regressions.filterMap countEdge) s := by
  induction regressions generalizing s with
  | nil => rfl
  | cons r regressions ih =>
    rw [List.foldl_cons, ih]
    cases hedge : countEdge r with
    | none => rw [countChainStep_none hedge, List.filterMap_cons_none hedge]
    | some edge => rw [countChainStep_some hedge, List.filterMap_cons_some hedge, follow_cons, id]

section
variable {α : Type} [LinearOrder α] {reason : RegressionReason}
  {before after : LintRatchetRegression N → Option α} {s : α × Option Nat}

theorem severityChainStep_none {r : LintRatchetRegression N}
    (h : severityEdge reason before after r = none) : severityChainStep reason before after s r = s := by
  cases hb : before r with
  | none => rw [severityChainStep, hb]
  | some baseline =>
    cases ha : after r with
    | none => rw [severityChainStep, hb, ha]
    | some current =>
      rw [severityEdge, hb, ha, Option.bind_some, Option.bind_some, ite_eq_right_iff] at h
      rw [severityChainStep, hb, ha]
      refine if_neg fun hstep => ?_
      simp only [Bool.and_eq_true, decide_eq_true_eq] at hstep
      cases h ⟨hstep.1.1, hstep.2⟩

theorem severityChainStep_some {r : LintRatchetRegression N} {edge : α × (α × Option Nat)}
    (h : severityEdge reason before after r = some edge) :
    severityChainStep reason before after s r = if edge.1 = s.1 then edge.2 else s := by
  obtain ⟨baseline, hb, h⟩ := Option.bind_eq_some_iff.1 h
  obtain ⟨current, ha, h⟩ := Option.bind_eq_some_iff.1 h
  split_ifs at h with hnext
  cases h
  rw [severityChainStep, hb, ha]
  by_cases hs : baseline = s.1
  · rw [if_pos hs]
    refine if_pos ?_
    rw [decide_eq_true hnext.1, decide_eq_true hs, decide_eq_true hnext.2]
    rfl
  · rw [if_neg hs]
    refine if_neg fun hstep => hs ?_
    simp only [Bool.and_eq_true, decide_eq_true_eq] at hstep
    exact hstep.1.2

theorem foldl_severityChainStep (regressions : List (LintRatchetRegression N)) (s : α × Option Nat) :
    regressions.foldl (severityChainStep reason before after) s =
      follow Prod.fst (regressions.filterMap (severityEdge reason before after)) s := by
  induction regressions generalizing s with
  | nil => rfl
  | cons r regressions ih =>
    rw [List.foldl_cons, ih]
    cases hedge : severityEdge reason before after r with
    | none => rw [severityChainStep_none hedge, List.filterMap_cons_none hedge]
    | some edge => rw [severityChainStep_some hedge, List.filterMap_cons_some hedge, follow_cons]

end

/-! ## The verdict on a union -/

/-- No record of the two goes on from the other on any axis, and where both start at one value they
end at one value. -/
structure RecordsApart (r r' : LintRatchetRegression N) : Prop where
  counts : ∀ edge ∈ countEdge r, ∀ edge' ∈ countEdge r', System.Apart id edge edge'
  lines : ∀ edge ∈ severityEdge .increasedLines (·.baselineLines) (·.currentLines) r,
    ∀ edge' ∈ severityEdge .increasedLines (·.baselineLines) (·.currentLines) r',
      System.Apart Prod.fst edge edge'
  complexity :
    ∀ edge ∈ severityEdge .increasedComplexity (·.baselineComplexity) (·.currentComplexity) r,
      ∀ edge' ∈ severityEdge .increasedComplexity (·.baselineComplexity) (·.currentComplexity) r',
        System.Apart Prod.fst edge edge'

/-- The records of the two batches at one path are apart. -/
def BatchesApart (entries entries' : List (LintRatchetDebtLogEntry N)) : Prop :=
  ∀ r ∈ recordedRegressions entries, ∀ r' ∈ recordedRegressions entries', r.testId = r'.testId →
    r.ruleId = r'.ruleId → r.path = r'.path → RecordsApart r r'

theorem matchingRegressions_append (i : BaselineDebtIncrease) :
    matchingRegressions i (entries ++ entries') =
      matchingRegressions i entries ++ matchingRegressions i entries' :=
  List.flatMap_append

theorem BatchesApart.matching (h : BatchesApart entries entries') {i : BaselineDebtIncrease}
    {r r' : LintRatchetRegression N} (hr : r ∈ matchingRegressions i entries)
    (hr' : r' ∈ matchingRegressions i entries') : RecordsApart r r' := by
  rw [matchingRegressions_eq, List.mem_filter] at hr hr'
  simp only [Bool.and_eq_true, decide_eq_true_eq] at hr hr'
  exact h r hr.1 r' hr'.1 (hr.2.1.1.trans hr'.2.1.1.symm) (hr.2.1.2.trans hr'.2.1.2.symm)
    (hr.2.2.trans hr'.2.2.symm)

omit [JsNumber N] [Host] in
theorem follow_filterMap_comm {σ κ : Type} [DecidableEq κ] {place : σ → κ}
    {edgeOf : LintRatchetRegression N → Option (κ × σ)} {rs rs' : List (LintRatchetRegression N)}
    (h : ∀ r ∈ rs, ∀ r' ∈ rs', ∀ edge ∈ edgeOf r, ∀ edge' ∈ edgeOf r', System.Apart place edge edge')
    (s : σ) :
    follow place ((rs ++ rs').filterMap edgeOf) s = follow place ((rs' ++ rs).filterMap edgeOf) s := by
  rw [List.filterMap_append, List.filterMap_append]
  refine follow_append_comm (fun edge hedge edge' hedge' => ?_) s
  obtain ⟨r, hr, hedge⟩ := List.mem_filterMap.1 hedge
  obtain ⟨r', hr', hedge'⟩ := List.mem_filterMap.1 hedge'
  exact h r hr r' hr' edge hedge edge' hedge'

/-- Whether an increase is accounted for does not depend on which batch stands first. -/
theorem hasAccountingEntry_append_comm (h : BatchesApart entries entries') (i : BaselineDebtIncrease) :
    hasAccountingEntry i (entries ++ entries') = hasAccountingEntry i (entries' ++ entries) := by
  have hcount : countChainAccountsForIncrease i (matchingRegressions i (entries ++ entries')) =
      countChainAccountsForIncrease i (matchingRegressions i (entries' ++ entries)) := by
    rw [countChainAccountsForIncrease, countChainAccountsForIncrease, foldl_countChainStep,
      foldl_countChainStep, matchingRegressions_append, matchingRegressions_append,
      follow_filterMap_comm fun r hr r' hr' => (h.matching hr hr').counts]
  have hlines : lineChainAccountsForIncrease i (matchingRegressions i (entries ++ entries')) =
      lineChainAccountsForIncrease i (matchingRegressions i (entries' ++ entries)) := by
    unfold lineChainAccountsForIncrease severityChainAccountsForIncrease
    split
    · rw [foldl_severityChainStep, foldl_severityChainStep, matchingRegressions_append,
        matchingRegressions_append,
        follow_filterMap_comm fun r hr r' hr' => (h.matching hr hr').lines]
    · rfl
  have hcomplexity :
      complexityChainAccountsForIncrease i (matchingRegressions i (entries ++ entries')) =
        complexityChainAccountsForIncrease i (matchingRegressions i (entries' ++ entries)) := by
    unfold complexityChainAccountsForIncrease severityChainAccountsForIncrease
    split
    · rw [foldl_severityChainStep, foldl_severityChainStep, matchingRegressions_append,
        matchingRegressions_append,
        follow_filterMap_comm fun r hr r' hr' => (h.matching hr hr').complexity]
    · rfl
  unfold hasAccountingEntry
  dsimp only
  rw [hcount, hlines, hcomplexity]

theorem unaccountedCoverageShrink_comm (diff : CoverageShrinkDiff)
    (entries entries' : List (LintRatchetDebtLogEntry N)) :
    unaccountedCoverageShrink diff (entries ++ entries') =
      unaccountedCoverageShrink diff (entries' ++ entries) := by
  have hempty : ∀ l l' : List LintRatchetCoverageShrinkLogEntry,
      (l ++ l').isEmpty = (l' ++ l).isEmpty := by
    intro l l'
    cases l <;> cases l' <;> rfl
  simp only [unaccountedCoverageShrink, List.flatMap_append, List.mem_append, or_comm, hempty]

theorem collectUnaccountedLifecycleChanges_comm (base current : LintRatchetBaseline N)
    (entries entries' : List (LintRatchetDebtLogEntry N)) :
    collectUnaccountedLifecycleChanges base current (entries ++ entries') =
      collectUnaccountedLifecycleChanges base current (entries' ++ entries) := by
  have hretired : ∀ testId baseTest, accountsForMissingRatchet testId baseTest (entries ++ entries') =
      accountsForMissingRatchet (N := N) testId baseTest (entries' ++ entries) := by
    intro testId baseTest
    rw [accountsForMissingRatchet, accountsForMissingRatchet, List.any_append, List.any_append,
      Bool.or_comm]
  have hmigrated : ∀ change, accountsForMetricChange change (entries ++ entries') =
      accountsForMetricChange (N := N) change (entries' ++ entries) := by
    intro change
    rw [accountsForMetricChange, accountsForMetricChange, List.any_append, List.any_append,
      Bool.or_comm]
  simp only [collectUnaccountedLifecycleChanges, hretired, hmigrated,
    unaccountedCoverageShrink_comm _ entries entries']

theorem accountingResult_append_comm (h : BatchesApart entries entries')
    (baseBaseline currentBaseline : LintRatchetBaseline N) :
    accountingResult baseBaseline currentBaseline (entries ++ entries') =
      accountingResult baseBaseline currentBaseline (entries' ++ entries) := by
  simp only [accountingResult, hasAccountingEntry_append_comm h,
    collectUnaccountedLifecycleChanges_comm _ _ entries entries']

/-- A union merge of two batches that are apart gets one verdict in either order; a base that has
one batch already is only kept as a prefix where that batch stands first. -/
theorem checkBaselineDebtAccounting_union (hl : IsBatch left entries) (hr : IsBatch right entries')
    (hapart : BatchesApart entries entries') (options : BaselineDebtAccountingOptions)
    (hbase : options.baseDebtLogText = base) :
    checkBaselineDebtAccounting N { options with currentDebtLogText := base ++ (left ++ right) } =
        checkBaselineDebtAccounting N { options with currentDebtLogText := base ++ (right ++ left) } ∧
      (∀ name, (appendedDebtLogText (base ++ right) (base ++ (right ++ left)) name).isOk = true) ∧
      ∀ name, (appendedDebtLogText (base ++ right) (base ++ (left ++ right)) name).isOk = true ↔
        right <+: left ++ right := by
  subst hbase
  have hok : ∀ base current name : JsString,
      (appendedDebtLogText base current name).isOk = true ↔ base <+: current := by
    intro base current name
    rw [appendedDebtLogText, ← startsWith_iff]
    split
    · next h => exact iff_of_true rfl h
    · next h => exact iff_of_false Bool.false_ne_true h
  refine ⟨?_, fun name => ?_, fun name => ?_⟩
  · simp only [checkBaselineDebtAccounting, parseAccountedBaseline]
    cases hold : (parseDebtLogJsonl options.baseDebtLogText
        (options.debtLogDisplayName.getD defaultDebtLogFilename ++ js " at base") :
          Except JsString (List (LintRatchetDebtLogEntry N))) with
    | error message => simp only [addedDebtLogEntries, hold]
    | ok old =>
      rw [addedDebtLogEntries_isBatch (hl.append hr) hold, addedDebtLogEntries_isBatch (hr.append hl) hold]
      simp only [accountingResult_append_comm hapart]
  · rw [hok, List.prefix_append_right_inj]
    exact List.prefix_append right left
  · rw [hok]
    exact List.prefix_append_right_inj _

end

/-- One branch's acceptance of a new file and of a worse one. -/
def acceptance (reason worse : JsString) : LintRatchetDebtLogEntry Numeral :=
  .acceptedDebt
    { acceptanceReason := reason
      regressions :=
        [{ testId := js "ratchet/one", ruleId := js "local/one", path := js "a.ts"
           baselineCount := 0, currentCount := 1, reason := .newPath },
         { testId := js "ratchet/one", ruleId := js "local/one", path := worse
           baselineCount := 1, currentCount := 2, reason := .increasedCount }]
      orphansRemoved := [] }

theorem isBatch_acceptance {reason worse : JsString}
    (h : (parseLintRatchetDebtLogEntry (debtLogEntryJson (acceptance reason worse))).isSome = true) :
    IsBatch (debtLogBatch [acceptance reason worse]) [acceptance reason worse] := by
  refine ⟨.inr ⟨_, rfl⟩, [], parseDebtLogJsonl_batch (List.cons_ne_nil _ _) ?_ _⟩
  refine List.forall_mem_singleton.2 ⟨fun r hr => ?_, h⟩
  rcases List.mem_pair.1 hr with rfl | rfl
  · exact ⟨rfl, rfl⟩
  · exact ⟨rfl, rfl⟩

/-- Both branches accept the same new file, and each another worse one. -/
theorem batchesApart_acceptance :
    BatchesApart [acceptance (js "left") (js "b.ts")] [acceptance (js "right") (js "c.ts")] := by
  intro r hr r' hr' _ _ hpath
  rcases List.mem_pair.1 hr with rfl | rfl
  · rcases List.mem_pair.1 hr' with rfl | rfl
    · refine ⟨fun edge hedge edge' hedge' => ?_, fun edge hedge => ?_, fun edge hedge => ?_⟩
      · cases hedge
        cases hedge'
        exact ⟨by decide, by decide, fun _ => rfl⟩
      · cases hedge
      · cases hedge
    · exact absurd hpath (by decide)
  · rcases List.mem_pair.1 hr' with rfl | rfl
    · exact absurd hpath (by decide)
    · exact absurd hpath (by decide)

/-- What the union of the two branches is checked with. -/
def unionOptions (currentDebtLogText : JsString) : BaselineDebtAccountingOptions where
  baseBaselineText := baselineText (oneBaseline .messageCount [js "*.ts"]
    [(js "b.ts", { count := 1 }), (js "c.ts", { count := 1 })] : LintRatchetBaseline Numeral)
  currentBaselineText := baselineText (oneBaseline .messageCount [js "*.ts"]
    [(js "a.ts", { count := 1 }), (js "b.ts", { count := 2 }), (js "c.ts", { count := 2 })] :
      LintRatchetBaseline Numeral)
  baseDebtLogText := []
  currentDebtLogText := currentDebtLogText
  workflowVocabulary := plainVocabulary

theorem unionOptions_log (text : JsString) :
    { unionOptions [] with currentDebtLogText := [] ++ text } = unionOptions text := by
  rw [List.nil_append]
  rfl

theorem checkBaselineDebtAccounting_union_acceptance :
    let left := debtLogBatch [acceptance (js "left") (js "b.ts")]
    let right := debtLogBatch [acceptance (js "right") (js "c.ts")]
    checkBaselineDebtAccounting Numeral (unionOptions (left ++ right)) =
        checkBaselineDebtAccounting Numeral (unionOptions (right ++ left)) ∧
      (∀ name, (appendedDebtLogText right (right ++ left) name).isOk = true) ∧
      ∀ name, (appendedDebtLogText right (left ++ right) name).isOk = true ↔
        right <+: left ++ right := by
  intro left right
  have hl : IsBatch left [acceptance (js "left") (js "b.ts")] := isBatch_acceptance (by decide +kernel)
  have hr : IsBatch right [acceptance (js "right") (js "c.ts")] :=
    isBatch_acceptance (by decide +kernel)
  clear_value left right
  rw [← unionOptions_log (left ++ right), ← unionOptions_log (right ++ left)]
  exact checkBaselineDebtAccounting_union hl hr batchesApart_acceptance (unionOptions []) rfl

end Musi.LintRatchet
