import Musi.LintRatchet.Governance.AccountingFacts
import Musi.LintRatchet.Kernel.OneRatchet
import Musi.LintRatchet.Kernel.PosixHost

namespace Musi.LintRatchet
open Musi.Js
set_option autoImplicit true

section Agreement
variable {N : Type} [JsNumber N] [Host] {committed generated : LintRatchetBaseline N}
  {ratchets : List (LintRatchetConfig N)} {testId path : JsString}
  {b g : LintRatchetBaselineTest N} {previous item : LintRatchetMetricItem}

/-! ## Writer and checker -/

/-- The one record of a complexity path says what the checker will ask: where the largest
complexity rises the record names both largest values, and where only the count rises no function
and no rank is worse. -/
structure ComplexityNamed (previous item : LintRatchetMetricItem) : Prop where
  maximum : ∀ bs gs m n, previous.perFunction = some bs → item.perFunction = some gs →
    previous.maxComplexity = some m → item.maxComplexity = some n → m < n →
      ∀ f, gs.find? (exactRise bs) = some f →
        worstOf bs (complexityIdentity f) = some m ∧ f.complexity = n
  count : ∀ bs gs m n, previous.perFunction = some bs → item.perFunction = some gs →
    previous.maxComplexity = some m → item.maxComplexity = some n → n ≤ m →
      previous.count < item.count → gs.find? (exactRise bs) = none ∧ ¬ RankRise bs gs

omit [Host] in
theorem complexityNamed_iff (hbs : previous.perFunction = some bs)
    (hgs : item.perFunction = some gs) (hm : previous.maxComplexity = some m)
    (hn : item.maxComplexity = some n) : ComplexityNamed previous item ↔
      (m < n → ∀ f, gs.find? (exactRise bs) = some f →
        worstOf bs (complexityIdentity f) = some m ∧ f.complexity = n) ∧
      (n ≤ m → previous.count < item.count →
        gs.find? (exactRise bs) = none ∧ ¬ RankRise bs gs) := by
  constructor
  · rintro ⟨hmax, hcount⟩
    exact ⟨hmax bs gs m n hbs hgs hm hn, hcount bs gs m n hbs hgs hm hn⟩
  · rintro ⟨hmax, hcount⟩
    constructor <;> intro bs' gs' m' n' hbs' hgs' hm' hn' <;>
      simp only [hbs, hgs, hm, hn, Option.some.injEq] at hbs' hgs' hm' hn' <;>
      subst hbs' hgs' hm' hn'
    · exact hmax
    · exact hcount

/-- One path of a ratchet is recorded the way the checker asks for it. -/
structure PathNamed (b g : LintRatchetBaselineTest N) (path : JsString)
    (item : LintRatchetMetricItem) : Prop where
  plain : b.items.own path = none → path ∉ inheritedNames
  complexity : ∀ previous, b.items.own path = some previous → b.metric = g.metric →
    g.metric = .complexitySeverity → ComplexityNamed previous item

/-- The regression that an update reports names the rule of the generated test. -/
theorem SharedTest.ruleId (h : SharedTest committed generated ratchets testId b g)
    (hr : updateRegressionAt committed generated ratchets testId path = some r) :
    r.ruleId = g.ruleId := by
  obtain ⟨ratchet, hid, hat⟩ := h.comparisonAt
  rw [updateRegressionAt, hat, Option.filter_eq_some_iff] at hr
  cases hi : g.items.own path with
  | none => simp [hi] at hr
  | some item =>
    rw [hi] at hr
    exact (compareItem_regressionFor hr.1).ruleId.trans hid

section Path
variable {options : LintRatchetUpdateOptions N} {decision : LintRatchetUpdateDecision N}
  {i : BaselineDebtIncrease} {reason : JsString}

/-- Counts compared on both sides agree. -/
theorem accounted_count (h : SharedTest committed generated ratchets testId b g)
    (hd : decideLintRatchetUpdate committed generated ratchets options = some decision)
    (hreport : ReportsCountAt g.ruleId previousCount item.count
      (updateRegressionAt committed generated ratchets testId path))
    (hk : kind = .newPath ∧ previousCount = 0 ∨ kind = .count ∧ 0 < previousCount)
    (hlt : previousCount < item.count) :
    hasAccountingEntry { testId, ruleId := g.ruleId, path, kind, previousCount := some previousCount,
                         currentCount := item.count }
      [.acceptedDebt (buildLintRatchetDebtLogEntry decision reason)] = true := by
  rw [hasAccountingEntry, matchingRegressions_update hd fun r hr => h.ruleId hr]
  rcases hk with ⟨rfl, h0⟩ | ⟨rfl, h0⟩
  · exact countChain_single hreport hlt rfl (by simp [h0])
  · exact countChain_single hreport hlt rfl (by simp [h0.ne'])

/-- The increases of a path that only the counts decide are accounted for. -/
theorem accounted_counts (h : SharedTest committed generated ratchets testId b g)
    (hd : decideLintRatchetUpdate committed generated ratchets options = some decision)
    (hreport : ReportsCountAt g.ruleId previous.count item.count
      (updateRegressionAt committed generated ratchets testId path))
    (hp : 0 < previous.count)
    (hi : countIncrease (sharedContext testId path g previous item) = some i) :
    hasAccountingEntry i [.acceptedDebt (buildLintRatchetDebtLogEntry decision reason)] = true := by
  rw [countIncrease_shared] at hi
  split at hi
  · cases hi
  · next hlt =>
    cases hi
    exact accounted_count h hd hreport (.inr ⟨rfl, hp⟩) (not_le.1 hlt)

theorem accounted_lines (h : SharedTest committed generated ratchets testId b g)
    (hd : decideLintRatchetUpdate committed generated ratchets options = some decision)
    (hm : b.metric = g.metric) (hmetric : g.metric = .effectiveLineCount)
    (hb : b.items.own path = some previous) (hi : g.items.own path = some item)
    (hv : PathValid b g path item)
    (hinc : collectItemIncreases (sharedContext testId path g previous item) = some i) :
    hasAccountingEntry i [.acceptedDebt (buildLintRatchetDebtLogEntry decision reason)] = true := by
  obtain ⟨hpv, hpos⟩ := hv.previous previous hb
  have hiv := hv.valid
  rw [hm, hmetric] at hpv
  rw [hmetric] at hiv
  obtain ⟨lb, hlb⟩ := Option.isSome_iff_exists.1 (itemValid_effectiveLineCount.1 hpv).1
  obtain ⟨lg, hlg⟩ := Option.isSome_iff_exists.1 (itemValid_effectiveLineCount.1 hiv).1
  obtain ⟨hworse, hkept⟩ := h.lines hm hmetric hb hi hlb hlg
  rw [collectItemIncreases_lines hlb hlg (itemValid_effectiveLineCount.1 hiv).2.1] at hinc
  split at hinc
  · next hle => exact accounted_counts h hd (hkept hle) hpos hinc
  · next hlt =>
    cases hinc
    rw [not_le] at hlt
    obtain ⟨r, hr, -, hc, hreason, hx, hy⟩ := hworse hlt
    rw [hasAccountingEntry, matchingRegressions_update hd fun r hr => h.ruleId hr, hr]
    exact (severityChain_single hreason hx hy hc hlt).2 ⟨rfl, rfl⟩

/-- An increase of the count alone is accounted for unless a severity record takes its place. -/
theorem accounted_count_complexity (h : SharedTest committed generated ratchets testId b g)
    (hd : decideLintRatchetUpdate committed generated ratchets options = some decision)
    (hm : b.metric = g.metric) (hmetric : g.metric = .complexitySeverity)
    (hb : b.items.own path = some previous) (hi : g.items.own path = some item)
    (hbs : previous.perFunction = some bs) (hgs : item.perFunction = some gs)
    (hpos : 0 < previous.count) (hlt : previous.count < item.count) :
    hasAccountingEntry { testId, ruleId := g.ruleId, path, kind := .count,
                         previousCount := some previous.count, currentCount := item.count }
      [.acceptedDebt (buildLintRatchetDebtLogEntry decision reason)] = true ↔
        gs.find? (exactRise bs) = none ∧ ¬ RankRise bs gs := by
  obtain ⟨hexact, hrank, hkept⟩ := h.complexity hm hmetric hb hi hbs hgs
  constructor
  · intro hacc
    have hno (r : LintRatchetRegression N)
        (hr : updateRegressionAt committed generated ratchets testId path = some r)
        (hreason : r.reason = .increasedComplexity) : False := by
      rw [hasAccountingEntry, matchingRegressions_update hd fun r hr => h.ruleId hr, hr] at hacc
      simp only [Option.toList_some, List.map_cons, List.map_nil] at hacc
      rw [countChain_severity _ (by simp [debtLogRegressionFor, hreason]) hlt rfl] at hacc
      cases hacc
    cases hf : gs.find? (exactRise bs) with
    | some f =>
      obtain ⟨r, hr, -, -, hreason, -⟩ := hexact f hf
      exact (hno r hr hreason).elim
    | none =>
      refine ⟨rfl, fun hrise => ?_⟩
      obtain ⟨r, hr, -, -, hreason, -⟩ := hrank hf hrise
      exact hno r hr hreason
  · rintro ⟨hf, hrise⟩
    exact accounted_count h hd (hkept hf hrise) (.inr ⟨rfl, hpos⟩) hlt

/-- A larger maximum is accounted for when the first risen function names both maxima. -/
theorem accounted_maximum (h : SharedTest committed generated ratchets testId b g)
    (hd : decideLintRatchetUpdate committed generated ratchets options = some decision)
    (hm : b.metric = g.metric) (hmetric : g.metric = .complexitySeverity)
    (hb : b.items.own path = some previous) (hi : g.items.own path = some item)
    (hbs : previous.perFunction = some bs) (hgs : item.perFunction = some gs)
    (hmax : maxComplexityFor (some bs) = some m) (hmax' : maxComplexityFor (some gs) = some n)
    (hlt : m < n) :
    hasAccountingEntry { testId, ruleId := g.ruleId, path, kind := .complexity,
                         previousCount := some previous.count, currentCount := item.count,
                         previousComplexity := some m, currentComplexity := some n }
      [.acceptedDebt (buildLintRatchetDebtLogEntry decision reason)] = true ↔
        ∀ f, gs.find? (exactRise bs) = some f →
          worstOf bs (complexityIdentity f) = some m ∧ f.complexity = n := by
  obtain ⟨hexact, hrank, -⟩ := h.complexity hm hmetric hb hi hbs hgs
  rw [hasAccountingEntry, matchingRegressions_update hd fun r hr => h.ruleId hr]
  cases hf : gs.find? (exactRise bs) with
  | some f =>
    obtain ⟨r, hr, -, hc, hreason, hx, hy⟩ := hexact f hf
    have hrise : exactRise bs f = true := List.find?_some hf
    obtain ⟨w, hw, -⟩ := (Option.any_eq_true _ _).1 hrise
    rw [hr]
    refine (severityChain_single (r := debtLogRegressionFor r) hreason hx hy hc hlt).trans ?_
    simp [hw]
  | none =>
    obtain ⟨r, hr, -, hc, hreason, hval⟩ := hrank hf (RankRise.of_max hmax hmax' hlt)
    obtain ⟨hx, hy⟩ := hval m n hmax hmax' hlt
    rw [hr]
    exact iff_of_true ((severityChain_single (r := debtLogRegressionFor r) hreason hx hy hc
      hlt).2 ⟨rfl, rfl⟩) (by simp)

/-- On the axis of complexity everything depends on what the record names. -/
theorem accounted_complexity_iff (h : SharedTest committed generated ratchets testId b g)
    (hd : decideLintRatchetUpdate committed generated ratchets options = some decision)
    (hm : b.metric = g.metric) (hmetric : g.metric = .complexitySeverity)
    (hb : b.items.own path = some previous) (hi : g.items.own path = some item)
    (hv : PathValid b g path item) :
    (∀ i, collectItemIncreases (sharedContext testId path g previous item) = some i →
      hasAccountingEntry i [.acceptedDebt (buildLintRatchetDebtLogEntry decision reason)] = true) ↔
        ComplexityNamed previous item := by
  obtain ⟨hpv, hpos⟩ := hv.previous previous hb
  have hiv := hv.valid
  rw [hm, hmetric] at hpv
  rw [hmetric] at hiv
  obtain ⟨bs, m, hbs, hbm, hmax, -⟩ := hpv.complexity hpos
  obtain ⟨gs, n, hgs, hgn, hmax', -, hl, -⟩ := hiv.complexity hv.positive
  rw [collectItemIncreases_complexity hl hbm hgn, complexityNamed_iff hbs hgs hbm hgn]
  by_cases hle : n ≤ m
  · rw [if_pos hle, countIncrease_shared]
    by_cases hcount : item.count ≤ previous.count
    · simp [hcount, not_lt.2 hle]
    · simp only [if_neg hcount, Option.some.injEq, forall_eq']
      rw [not_le] at hcount
      rw [accounted_count_complexity h hd hm hmetric hb hi hbs hgs hpos hcount]
      simp [not_lt.2 hle, hle, hcount]
  · simp only [if_neg hle, Option.some.injEq, forall_eq']
    rw [accounted_maximum h hd hm hmetric hb hi hbs hgs hmax hmax' (not_le.1 hle)]
    simp [hle, not_le.1 hle]

variable (reason) in
/-- A path of a generated test is accounted for exactly when its record names what is asked. -/
theorem path_accounted_iff (h : SharedTest committed generated ratchets testId b g)
    (hd : decideLintRatchetUpdate committed generated ratchets options = some decision)
    (hi : g.items.own path = some item) (hv : PathValid b g path item) :
    (∀ i, pathIncrease testId b g path = some i →
      hasAccountingEntry i [.acceptedDebt (buildLintRatchetDebtLogEntry decision reason)] = true) ↔
        PathNamed b g path item := by
  cases hb : b.items.own path with
  | none =>
    by_cases hin : path ∈ inheritedNames
    · obtain ⟨i, hinc, -, h1, h2, h3⟩ := pathIncrease_inherited testId hi
        (Record.read_inherited.2 ⟨hb, hin⟩)
      refine iff_of_false (fun hall => ?_) fun hn => hn.plain hb hin
      have := hall i hinc
      rw [hasAccountingEntry_unknown h1 h2 h3] at this
      cases this
    · rw [pathIncrease_absent hi (Record.read_absent.2 ⟨hb, hin⟩)]
      refine iff_of_true (fun i hinc => ?_) ⟨fun _ => hin, by simp [hb]⟩
      cases hinc
      have hcount := h.count hi (by simp [hb]) (by simp [hb])
      rw [hb] at hcount
      exact accounted_count h hd hcount (.inl ⟨rfl, rfl⟩) hv.positive
  | some previous =>
    obtain ⟨hpv, hpos⟩ := hv.previous previous hb
    rw [pathIncrease_shared hi hb]
    by_cases hm : b.metric = g.metric
    · rw [hm]
      simp only [collectItemIncreasesForMetric, decide_true, if_true]
      cases hmetric : g.metric with
      | messageCount =>
        have hiv := hv.valid
        rw [hmetric, itemValid_messageCount] at hiv
        rw [collectItemIncreases_count hiv.1 hiv.2.1]
        refine iff_of_true (fun i hinc => ?_) ⟨by simp [hb], by simp [hmetric]⟩
        have hcount := h.count hi (by simp [hmetric]) (by simp [hmetric])
        rw [hb] at hcount
        exact accounted_counts h hd hcount hpos hinc
      | effectiveLineCount =>
        exact iff_of_true (fun i hinc => accounted_lines h hd hm hmetric hb hi hv hinc)
          ⟨by simp [hb], by simp [hmetric]⟩
      | complexitySeverity =>
        rw [accounted_complexity_iff h hd hm hmetric hb hi hv]
        refine ⟨fun hn => ⟨by simp [hb], fun p hp _ _ => ?_⟩, fun hn =>
          hn.complexity previous hb hm hmetric⟩
        rw [hb, Option.some.injEq] at hp
        exact hp ▸ hn
    · have hm' : ¬ g.metric = b.metric := fun he => hm he.symm
      simp only [collectItemIncreasesForMetric, hm', decide_false, Bool.false_eq_true, if_false]
      refine iff_of_true (fun i hinc => ?_) ⟨by simp [hb], fun _ _ he => absurd he hm⟩
      have hcount := h.count hi
        (fun he => by
          rw [hb, Option.bind_some]
          exact hpv.lines_none fun he' => hm (he'.trans he.symm))
        (fun he => by
          rw [hb, Option.bind_some]
          exact hpv.perFunction_none fun he' => hm (he'.trans he.symm))
      rw [hb] at hcount
      exact accounted_counts h hd hcount hpos hinc

/-- Every path that two baselines share a ratchet on is recorded the way the checker asks. -/
def RecordsNamed (committed generated : LintRatchetBaseline N) : Prop :=
  ∀ testId b g, committed.tests.own testId = some b → generated.tests.own testId = some g →
    ∀ path item, g.items.own path = some item → PathNamed b g path item

/-- Between the two baselines of an update, allowed or not, the one accepted-debt entry that it
writes accounts for every collected increase exactly when every path's record names what the
checker asks for. -/
theorem accountedByOwnEntry_iff {w w' : LintRatchetWorkflowVocabulary}
    (hc : Accepted w committed) (hg : Accepted w' generated)
    (hcv : ItemsValid committed) (hgv : ItemsValid generated) (hfrom : BuiltFrom ratchets generated)
    (hd : decideLintRatchetUpdate committed generated ratchets options = some decision) :
    (∀ i ∈ collectBaselineIncreases committed generated, hasAccountingEntry i
      [.acceptedDebt (buildLintRatchetDebtLogEntry decision (trim (options.reason.getD [])))] =
        true) ↔ RecordsNamed committed generated := by
  have hpath {testId b g path item} (hb : committed.tests.own testId = some b)
      (hgt : generated.tests.own testId = some g) (hi : g.items.own path = some item) :=
    path_accounted_iff (trim (options.reason.getD []))
      (SharedTest.of_builtFrom hc hfrom hb hgt) hd hi (.of_accepted hc hg hcv hgv hb hgt hi)
  constructor
  · intro h testId b g hb hgt path item hi
    exact (hpath hb hgt hi).1 fun i hinc =>
      h i (mem_collectBaselineIncreases.2 ⟨testId, b, g, path, hb, hgt, hinc⟩)
  · intro h i hinc
    obtain ⟨testId, b, g, path, hb, hgt, hinc⟩ := mem_collectBaselineIncreases.1 hinc
    cases hi : g.items.own path with
    | none => simp [pathIncrease, hi] at hinc
    | some item => exact (hpath hb hgt hi).2 (h testId b g hb hgt path item hi) i hinc

end Path

end Agreement

/-! ## A disagreement -/

/-- Options that accept worse. -/
def acceptingOptions : LintRatchetUpdateOptions Numeral :=
  { allowWorse := true, workflowVocabulary := plainVocabulary, reason := some (js "accepted") }

/-- A file before its worst function was replaced. -/
def beforeReplacement : LintRatchetMetricItem :=
  complexityItem [⟨1, js "g", 20⟩, ⟨9, js "f", 5⟩]

/-- A worse function took the place of the worst, and a small one rose by one. -/
def afterReplacement : LintRatchetMetricItem :=
  complexityItem [⟨1, js "h", 25⟩, ⟨9, js "f", 6⟩]

theorem oneItem_beforeReplacement : OneItem .complexitySeverity beforeReplacement :=
  oneItem_complexity (by simp) (by decide)

theorem oneItem_afterReplacement : OneItem .complexitySeverity afterReplacement :=
  oneItem_complexity (by simp) (by decide)

theorem accountedByOwnEntry_iff_replacement : ∃ decision,
    decideLintRatchetUpdate (oneFile .complexitySeverity beforeReplacement)
      (oneFile .complexitySeverity afterReplacement) [oneFileRatchet .complexitySeverity]
        acceptingOptions = some decision ∧
    ((∀ i ∈ collectBaselineIncreases (oneFile .complexitySeverity beforeReplacement)
        (oneFile .complexitySeverity afterReplacement), hasAccountingEntry i
      [.acceptedDebt (buildLintRatchetDebtLogEntry decision
        (trim (acceptingOptions.reason.getD [])))] = true) ↔
          RecordsNamed (oneFile .complexitySeverity beforeReplacement)
            (oneFile .complexitySeverity afterReplacement)) := by
  obtain ⟨decision, hd⟩ := decideLintRatchetUpdate_total (oneFile .complexitySeverity
    beforeReplacement) (oneFile .complexitySeverity afterReplacement)
    [oneFileRatchet .complexitySeverity] acceptingOptions
  exact ⟨decision, hd, accountedByOwnEntry_iff (oneItem_beforeReplacement.accepted plainVocabulary)
    (oneItem_afterReplacement.accepted plainVocabulary) oneItem_beforeReplacement.itemsValid
    oneItem_afterReplacement.itemsValid builtFrom_oneFile hd⟩

/-- The record names the small function, the checker asks for the largest complexity. -/
theorem not_pathNamed_replacement :
    ¬ PathNamed (oneFileTest .complexitySeverity beforeReplacement)
      (oneFileTest .complexitySeverity afterReplacement) onePath afterReplacement := by
  intro hn
  have hnamed := hn.complexity beforeReplacement own_oneFileTest rfl rfl
  have := (hnamed.maximum _ _ 20 25 rfl rfl rfl rfl (by decide) ⟨9, js "f", 6⟩ (by decide)).2
  simp at this

/-- An allowed update whose own entry leaves an increase unaccounted. -/
theorem accountedByOwnEntry_fails : ∃ (committed generated : LintRatchetBaseline Numeral)
    (ratchets : List (LintRatchetConfig Numeral)) (options : LintRatchetUpdateOptions Numeral)
    (decision : LintRatchetUpdateDecision Numeral),
    Accepted plainVocabulary committed ∧ Accepted plainVocabulary generated ∧
    ItemsValid committed ∧ ItemsValid generated ∧ BuiltFrom ratchets generated ∧
    decideLintRatchetUpdate committed generated ratchets options = some decision ∧
    options.allowWorse = true ∧ decision.allowed = true ∧
    ∃ i ∈ collectBaselineIncreases committed generated, hasAccountingEntry i
      [.acceptedDebt (buildLintRatchetDebtLogEntry decision (trim (options.reason.getD [])))] =
        false := by
  obtain ⟨decision, hd⟩ := decideLintRatchetUpdate_total (oneFile .complexitySeverity
    beforeReplacement) (oneFile .complexitySeverity afterReplacement)
    [oneFileRatchet .complexitySeverity] acceptingOptions
  have hc := oneItem_beforeReplacement.accepted plainVocabulary
  have hg := oneItem_afterReplacement.accepted plainVocabulary
  have hcv := oneItem_beforeReplacement.itemsValid
  have hgv := oneItem_afterReplacement.itemsValid
  have hallowed : decision.allowed = true :=
    (decision_allowed hd).2 ⟨.inl rfl, .inl rfl, by decide, rfl, .inl rfl, by decide⟩
  refine ⟨_, _, _, _, _, hc, hg, hcv, hgv, builtFrom_oneFile, hd, rfl, hallowed, ?_⟩
  have hnot := not_pathNamed_replacement
  rw [← path_accounted_iff (trim (acceptingOptions.reason.getD []))
    (SharedTest.of_builtFrom hc builtFrom_oneFile own_oneFile own_oneFile) hd own_oneFileTest
    (.of_accepted hc hg hcv hgv own_oneFile own_oneFile own_oneFileTest)] at hnot
  simp only [not_forall, Bool.not_eq_true] at hnot
  obtain ⟨i, hinc, hacc⟩ := hnot
  exact ⟨i, mem_collectBaselineIncreases.2 ⟨_, _, _, _, own_oneFile, own_oneFile, hinc⟩, hacc⟩

end Musi.LintRatchet
