import Musi.Js.Number
import Musi.LintRatchet.Governance.AccountingFacts
import Musi.System.Runs

namespace Musi.LintRatchet
open Musi.Js Musi.System
set_option autoImplicit true

variable {N : Type} {i : BaselineDebtIncrease} {regressions : List (LintRatchetRegression N)}

/-! ## Chains of records, apart from the folds that look for them -/

/-- The regressions that accepted debt records, in log order. -/
def recordedRegressions (entries : List (LintRatchetDebtLogEntry N)) :
    List (LintRatchetRegression N) :=
  entries.flatMap fun
    | .acceptedDebt entry => entry.regressions
    | .retirement _ | .metricMigration _ | .coverageShrink _ => []

def CountClimb (previous : Nat) (chain : List (LintRatchetRegression N)) (current : Nat) : Prop :=
  Climb (fun r => some r.baselineCount) (fun r => some r.currentCount) previous chain current

/-- A chain that accounts for an increase climbs on its axis from its previous value to its current
one. A new path stands first in the chain of a new path and nowhere else. -/
inductive DebtChain (i : BaselineDebtIncrease) : List (LintRatchetRegression N) → Prop
  | newPath (hk : i.kind = .newPath) (hp : i.previousCount = some previous)
      (hfirst : first.reason = .newPath) (hrest : ∀ r ∈ rest, r.reason = .increasedCount)
      (h : CountClimb previous (first :: rest) i.currentCount) : DebtChain i (first :: rest)
  | count (hk : i.kind = .count) (hp : i.previousCount = some previous)
      (hall : ∀ r ∈ chain, r.reason = .increasedCount)
      (h : CountClimb previous chain i.currentCount) : DebtChain i chain
  | lines {previous current : ℕ∞} (hk : i.kind = .lines) (hp : i.previousLines = some previous)
      (hc : i.currentLines = some current) (hall : ∀ r ∈ chain, r.reason = .increasedLines)
      (h : Climb (·.baselineLines) (·.currentLines) previous chain current)
      (hlast : last ∈ chain.getLast?) (hcount : last.currentCount = i.currentCount) :
      DebtChain i chain
  | complexity {previous current : Nat} (hk : i.kind = .complexity)
      (hp : i.previousComplexity = some previous) (hc : i.currentComplexity = some current)
      (hall : ∀ r ∈ chain, r.reason = .increasedComplexity)
      (h : Climb (·.baselineComplexity) (·.currentComplexity) previous chain current)
      (hlast : last ∈ chain.getLast?) (hcount : last.currentCount = i.currentCount) :
      DebtChain i chain

/-! ## The walkers follow such chains -/

theorem matchingRegressions_eq (entries : List (LintRatchetDebtLogEntry N)) :
    matchingRegressions i entries = (recordedRegressions entries).filter fun r =>
      r.testId = i.testId && r.ruleId = i.ruleId && r.path = i.path := by
  rw [matchingRegressions, recordedRegressions, List.filter_flatMap]
  refine List.flatMap_congr fun entry _ => ?_
  cases entry <;> rfl

theorem isNextCountTransition_iff {r : LintRatchetRegression N} {count : Nat}
    {reason : RegressionReason} : isNextCountTransition r (some count) reason = true ↔
      r.reason = reason ∧ r.baselineCount = count ∧ count < r.currentCount := by
  simp only [isNextCountTransition, Bool.and_eq_true, decide_eq_true_eq, Option.some.injEq, and_assoc]
  constructor
  · rintro ⟨hreason, rfl, hlt⟩
    exact ⟨hreason, rfl, hlt⟩
  · rintro ⟨hreason, rfl, hlt⟩
    exact ⟨hreason, rfl, hlt⟩

/-- Once a path is known the walker climbs by increased counts. -/
theorem countChain_climb (previous : Nat) (regressions : List (LintRatchetRegression N)) :
    ∃ chain current, chain.Sublist regressions ∧ CountClimb previous chain current ∧
      regressions.foldl countChainStep (some previous, true) = (some current, true) ∧
      ∀ r ∈ chain, r.reason = .increasedCount := by
  have hstep (s : Option Nat × Bool) (a : Nat) (r : LintRatchetRegression N)
      (hs : s = (some a, true)) : countChainStep s r = s ∨ ∃ b,
        countChainStep s r = (some b, true) ∧ some r.baselineCount = some a ∧
          some r.currentCount = some b ∧ a < b ∧ r.reason = .increasedCount := by
    subst hs
    by_cases hnext : isNextCountTransition r (some a) .increasedCount = true
    · obtain ⟨hreason, hbefore, hlt⟩ := isNextCountTransition_iff.1 hnext
      exact .inr ⟨r.currentCount, by simp [countChainStep, hnext], congrArg some hbefore, rfl, hlt,
        hreason⟩
    · exact .inl (by simp [countChainStep, hnext])
  obtain ⟨chain, current, hsub, hclimb, hend, hall, -⟩ :=
    foldl_climb (fun s a => s = (some a, true)) (fun _ r => r.reason = .increasedCount) hstep rfl
      regressions
  exact ⟨chain, current, hsub, hclimb, hend, fun r hr => (hall r hr).choose_spec⟩

/-- Before that it waits for the record of a new path. -/
theorem countChain_newPath {previous : Nat}
    (h : (regressions.foldl countChainStep (some previous, false)).2 = true) :
    ∃ first rest current, (first :: rest).Sublist regressions ∧
      CountClimb previous (first :: rest) current ∧
      regressions.foldl countChainStep (some previous, false) = (some current, true) ∧
      first.reason = .newPath ∧ ∀ r ∈ rest, r.reason = .increasedCount := by
  induction regressions with
  | nil => simp at h
  | cons r regressions ih =>
    rw [List.foldl_cons] at h ⊢
    by_cases hnext : isNextCountTransition r (some previous) .newPath = true
    · have hmove : countChainStep (some previous, false) r = (some r.currentCount, true) := by
        simp [countChainStep, hnext]
      obtain ⟨hreason, hbefore, hlt⟩ := isNextCountTransition_iff.1 hnext
      obtain ⟨chain, current, hsub, hclimb, hend, hall⟩ :=
        countChain_climb r.currentCount regressions
      rw [hmove]
      exact ⟨r, chain, current, hsub.cons_cons r, .cons (congrArg some hbefore) rfl hlt hclimb, hend,
        hreason, hall⟩
    · have hkept : countChainStep (some previous, false) r = (some previous, false) := by
        simp [countChainStep, hnext]
      rw [hkept] at h ⊢
      obtain ⟨first, rest, current, hsub, hrest⟩ := ih h
      exact ⟨first, rest, current, hsub.cons r, hrest⟩

/-- A walker on a severity axis climbs by the reason of the axis, and keeps the count of the last
record it followed. -/
theorem severityChain_climb {α : Type} [LinearOrder α] {reason : RegressionReason}
    {before after : LintRatchetRegression N → Option α} (previous : α)
    (regressions : List (LintRatchetRegression N)) :
    ∃ chain, chain.Sublist regressions ∧
      Climb before after previous chain
        (regressions.foldl (severityChainStep reason before after) (previous, none)).1 ∧
      (∀ r ∈ chain, r.reason = reason) ∧
      (regressions.foldl (severityChainStep reason before after) (previous, none)).2 =
        chain.getLast?.map (·.currentCount) := by
  have hstep (s : α × Option Nat) (a : α) (r : LintRatchetRegression N) (hs : s.1 = a) :
      severityChainStep reason before after s r = s ∨ ∃ b,
        (severityChainStep reason before after s r).1 = b ∧ before r = some a ∧ after r = some b ∧
          a < b ∧ (r.reason = reason ∧
            (severityChainStep reason before after s r).2 = some r.currentCount) := by
    subst hs
    unfold severityChainStep
    cases hb : before r with
    | none => exact .inl rfl
    | some x =>
      cases ha : after r with
      | none => exact .inl rfl
      | some y =>
        dsimp only
        by_cases hnext : (decide (r.reason = reason) && decide (x = s.1) && decide (y > x)) = true
        · rw [if_pos hnext]
          simp only [Bool.and_eq_true, decide_eq_true_eq] at hnext
          obtain ⟨⟨hreason, rfl⟩, hlt⟩ := hnext
          exact .inr ⟨y, rfl, rfl, rfl, hlt, hreason, rfl⟩
        · exact .inl (if_neg hnext)
  obtain ⟨chain, current, hsub, hclimb, rfl, hall, hlast⟩ :=
    foldl_climb (fun (s : α × Option Nat) a => s.1 = a)
      (fun s r => r.reason = reason ∧ s.2 = some r.currentCount) hstep
      (rfl : (previous, (none : Option Nat)).1 = previous) regressions
  refine ⟨chain, hsub, hclimb, fun r hr => (hall r hr).choose_spec.1, ?_⟩
  rcases hlast with ⟨rfl, hkept⟩ | ⟨last, hmem, -, hcount⟩
  · rw [hkept]
    rfl
  · have hlast? : chain.getLast? = some last := hmem
    rw [hlast?, hcount]
    rfl

/-! ## Which increases are of new paths -/

theorem collectItemIncreases_kind {context : ItemIncreaseContext}
    (h : collectItemIncreases context = some i ∨ countIncrease context = some i) :
    i.kind ≠ .newPath := by
  have hcount (h : countIncrease context = some i) : i.kind ≠ .newPath := by
    unfold countIncrease at h
    split at h
    · cases h
    · cases h
      simp
  rcases h with h | h
  · rcases Option.or_eq_some_iff.1 h with h | ⟨-, h⟩
    · unfold lineIncrease at h
      split at h
      · cases h
      · split at h <;> cases h
        simp
    · rcases Option.or_eq_some_iff.1 h with h | ⟨-, h⟩
      · unfold complexityIncrease at h
        split at h
        · cases h
        · split at h <;> cases h
          simp
      · exact hcount h
  · exact hcount h

/-- Only a path that the base does not have is new, and it starts from nothing. -/
theorem pathIncrease_newPath {b g : LintRatchetBaselineTest N}
    (h : pathIncrease testId b g path = some i) (hk : i.kind = .newPath) :
    b.items.read path = .absent ∧ i.previousCount = some 0 := by
  unfold pathIncrease at h
  split at h
  · cases h
  · cases hr : b.items.read path with
    | absent =>
      simp only [hr, baseItemFields, Option.some.injEq] at h
      exact ⟨rfl, by rw [← h]; rfl⟩
    | inherited =>
      simp only [hr, baseItemFields, collectItemIncreasesForMetric] at h
      split at h
      · exact absurd hk (collectItemIncreases_kind (.inl h))
      · exact absurd hk (collectItemIncreases_kind (.inr h))
    | own item =>
      simp only [hr, baseItemFields, collectItemIncreasesForMetric] at h
      split at h
      · exact absurd hk (collectItemIncreases_kind (.inl h))
      · exact absurd hk (collectItemIncreases_kind (.inr h))

/-- The chain of an increase between two baselines is not empty. -/
theorem DebtChain.ne_nil {chain : List (LintRatchetRegression N)} (h : DebtChain i chain)
    (hrises : i.kind = .count → i.previousCount ≠ some i.currentCount) : chain ≠ [] := by
  rintro rfl
  cases h with
  | count hk hp hall h =>
    cases h
    exact hrises hk hp
  | lines hk hp hc hall h hlast hcount => simp at hlast
  | complexity hk hp hc hall h hlast hcount => simp at hlast

/-! ## Soundness -/

theorem severityChain_debtChain {α : Type} [LinearOrder α] {reason : RegressionReason}
    {before after : LintRatchetRegression N → Option α} {previous current : Option α} {count : Nat}
    (h : severityChainAccountsForIncrease reason before after previous current count regressions =
      true) :
    ∃ chain a b last, chain.Sublist regressions ∧ previous = some a ∧ current = some b ∧
      (∀ r ∈ chain, r.reason = reason) ∧ Climb before after a chain b ∧ last ∈ chain.getLast? ∧
        last.currentCount = count := by
  unfold severityChainAccountsForIncrease at h
  split at h
  · next a b =>
    simp only [Bool.and_eq_true, decide_eq_true_eq] at h
    obtain ⟨chain, hsub, hclimb, hall, hcount⟩ :=
      @severityChain_climb _ _ _ reason before after a regressions
    rw [h.1] at hclimb
    rw [h.2] at hcount
    obtain ⟨last, hlast, hcount⟩ := Option.map_eq_some_iff.1 hcount.symm
    exact ⟨chain, a, b, last, hsub, rfl, rfl, hall, hclimb, hlast, hcount⟩
  · cases h

theorem countChain_debtChain (hk : i.kind = .newPath ∨ i.kind = .count)
    (h : countChainAccountsForIncrease i regressions = true) :
    ∃ chain, chain.Sublist regressions ∧ DebtChain i chain := by
  simp only [countChainAccountsForIncrease, Bool.and_eq_true, decide_eq_true_eq] at h
  obtain ⟨hseen, hend⟩ := h
  cases hp : i.previousCount with
  | none =>
    obtain ⟨seen, hs⟩ := countChain_unknown regressions (decide (i.kind ≠ .newPath))
    rw [hp, hs] at hend
    cases hend
  | some previous =>
    rw [hp] at hseen hend
    rcases hk with hk | hk
    · rw [hk] at hseen hend
      obtain ⟨first, rest, current, hsub, hclimb, hlast, hfirst, hrest⟩ :=
        countChain_newPath hseen
      have hcurrent : some current = some i.currentCount := by
        rw [← hend]
        exact (congrArg Prod.fst hlast).symm
      cases hcurrent
      exact ⟨_, hsub, .newPath hk hp hfirst hrest hclimb⟩
    · rw [hk] at hend
      obtain ⟨chain, current, hsub, hclimb, hlast, hall⟩ := countChain_climb previous regressions
      have hcurrent : some current = some i.currentCount := by
        rw [← hend]
        exact (congrArg Prod.fst hlast).symm
      cases hcurrent
      exact ⟨_, hsub, .count hk hp hall hclimb⟩

/-- An accepted increase has a chain of records of its own path, ratchet and axis in log order; one
that was found between two baselines has a chain that is not empty, and a new path is one that the
base does not have. -/
theorem hasAccountingEntry_chain {entries : List (LintRatchetDebtLogEntry N)}
    (h : hasAccountingEntry i entries = true) :
    ∃ chain, chain.Sublist (recordedRegressions entries) ∧
      (∀ r ∈ chain, r.testId = i.testId ∧ r.ruleId = i.ruleId ∧ r.path = i.path) ∧
      DebtChain i chain ∧
      ∀ base current : LintRatchetBaseline N, i ∈ collectBaselineIncreases base current →
        chain ≠ [] ∧ (i.kind = .newPath → i.previousCount = some 0 ∧
          ∃ b, base.tests.own i.testId = some b ∧ b.items.read i.path = .absent) := by
  have hchain : ∃ chain, chain.Sublist (matchingRegressions i entries) ∧ DebtChain i chain := by
    unfold hasAccountingEntry at h
    split at h
    · next hk =>
      obtain ⟨chain, a, b, last, hsub, hp, hc, hall, hclimb, hlast, hcount⟩ :=
        severityChain_debtChain h
      exact ⟨chain, hsub, .lines hk hp hc hall hclimb hlast hcount⟩
    · next hk =>
      obtain ⟨chain, a, b, last, hsub, hp, hc, hall, hclimb, hlast, hcount⟩ :=
        severityChain_debtChain h
      exact ⟨chain, hsub, .complexity hk hp hc hall hclimb hlast hcount⟩
    · next hk => exact countChain_debtChain (.inl hk) h
    · next hk => exact countChain_debtChain (.inr hk) h
  obtain ⟨chain, hsub, hchain⟩ := hchain
  rw [matchingRegressions_eq] at hsub
  refine ⟨chain, hsub.trans List.filter_sublist, fun r hr => ?_, hchain, fun base current hi => ?_⟩
  · have hr := (List.mem_filter.1 (hsub.subset hr)).2
    simpa [and_assoc] using hr
  · obtain ⟨testId, b, g, path, hb, -, hpath⟩ := mem_collectBaselineIncreases.1 hi
    have hat := pathIncrease_at hpath
    refine ⟨hchain.ne_nil hat.rises, fun hk => ?_⟩
    obtain ⟨habsent, hprevious⟩ := pathIncrease_newPath hpath hk
    rw [hat.testId, hat.path]
    exact ⟨hprevious, b, hb, habsent⟩

/-- Two records of one path with a record of another between them. -/
def climbingLog : List (LintRatchetDebtLogEntry Numeral) :=
  [.acceptedDebt
    { acceptanceReason := js "first"
      regressions :=
        [{ testId := js "ratchet/one", ruleId := js "local/one", path := js "a.ts"
           baselineCount := 0, currentCount := 1, reason := .newPath },
         { testId := js "ratchet/one", ruleId := js "local/one", path := js "b.ts"
           baselineCount := 1, currentCount := 2, reason := .increasedCount }]
      orphansRemoved := [] },
   .acceptedDebt
    { acceptanceReason := js "second"
      regressions :=
        [{ testId := js "ratchet/one", ruleId := js "local/one", path := js "a.ts"
           baselineCount := 1, currentCount := 3, reason := .increasedCount }]
      orphansRemoved := [] }]

def climbedPath : BaselineDebtIncrease where
  testId := js "ratchet/one"
  ruleId := js "local/one"
  path := js "a.ts"
  kind := .newPath
  previousCount := some 0
  currentCount := 3

theorem hasAccountingEntry_chain_climbed : hasAccountingEntry climbedPath climbingLog = true ∧
    ∃ chain, chain.Sublist (recordedRegressions climbingLog) ∧ DebtChain climbedPath chain := by
  have h : hasAccountingEntry climbedPath climbingLog = true := by decide
  obtain ⟨chain, hsub, -, hchain, -⟩ := hasAccountingEntry_chain h
  exact ⟨h, chain, hsub, hchain⟩

end Musi.LintRatchet
