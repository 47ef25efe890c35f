import Musi.LintRatchet.Kernel.Types

namespace Musi.LintRatchet
open Musi.Js
set_option autoImplicit true

abbrev ComplexityFunctions := List LintRatchetComplexityFunction

def compareComplexityFunction [Host] (left right : LintRatchetComplexityFunction) : Int :=
  let byComplexity := (right.complexity : Int) - left.complexity
  let byLine := (left.line : Int) - right.line
  if byComplexity ≠ 0 then byComplexity
  else if byLine ≠ 0 then byLine
  else Host.localeCompare left.label right.label

def maxComplexityFor : Option ComplexityFunctions → Option Nat
  | none => none
  | some [] => none
  | some (f :: fs) => some (fs.foldl (fun best entry => max best entry.complexity) f.complexity)

/-- The key of a function. The source joins both parts into one string with a NUL between
them; a numeral has no NUL, so the strings are equal exactly when the pairs are. -/
def complexityIdentity (entry : LintRatchetComplexityFunction) : Nat × JsString :=
  (entry.line, entry.label)

abbrev ComplexityMap := List ((Nat × JsString) × LintRatchetComplexityFunction)

def recordUnique (map : ComplexityMap) (entry : LintRatchetComplexityFunction) : ComplexityMap :=
  match map.lookup (complexityIdentity entry) with
  | none => (complexityIdentity entry, entry) :: map
  | some previous =>
    if entry.complexity > previous.complexity then (complexityIdentity entry, entry) :: map
    else map

/-- The worst function of every identity. Only reads by key follow, so a newer entry simply
shadows an older one. -/
def uniqueComplexityMap (values : ComplexityFunctions) : ComplexityMap :=
  values.foldl recordUnique []

structure ComplexityDelta where
  baselineComplexity : Nat
  currentComplexity : Nat
  line : Nat
  regression : Bool
  deriving DecidableEq

/-- The direction a delta search looks in. -/
def complexityMoved (regression : Bool) (previous entry : LintRatchetComplexityFunction) : Bool :=
  if regression then entry.complexity > previous.complexity
  else entry.complexity < previous.complexity

def complexityDeltaOf (regression : Bool) (previous entry : LintRatchetComplexityFunction) :
    Option ComplexityDelta :=
  if complexityMoved regression previous entry then
    some { baselineComplexity := previous.complexity, currentComplexity := entry.complexity,
           line := entry.line, regression }
  else none

def exactComplexityDelta (baseline current : ComplexityFunctions) (regression : Bool) :
    Option ComplexityDelta :=
  let baselineByIdentity := uniqueComplexityMap baseline
  current.findSome? fun entry =>
    match baselineByIdentity.lookup (complexityIdentity entry) with
    | none => none
    | some previous => complexityDeltaOf regression previous entry

def vectorComplexityDelta [Host] (baseline current : ComplexityFunctions) (regression : Bool) :
    Option ComplexityDelta :=
  let baselineSorted := sortBy compareComplexityFunction baseline
  let currentSorted := sortBy compareComplexityFunction current
  (baselineSorted.zip currentSorted).findSome? fun (previous, entry) =>
    complexityDeltaOf regression previous entry

def complexityDelta [Host] (baseline : Option LintRatchetMetricItem)
    (current : LintRatchetMetricItem) : Option ComplexityDelta :=
  match baseline.bind (·.perFunction), current.perFunction with
  | some baselineFunctions, some currentFunctions =>
    (exactComplexityDelta baselineFunctions currentFunctions true).or <|
    (vectorComplexityDelta baselineFunctions currentFunctions true).or <|
    (exactComplexityDelta baselineFunctions currentFunctions false).or <|
    vectorComplexityDelta baselineFunctions currentFunctions false
  | _, _ => none

theorem compareComplexityFunction_consistent [Host] :
    ConsistentComparator compareComplexityFunction where
  swap a b := by
    have h := Host.localeCompare_consistent.swap a.label b.label
    unfold compareComplexityFunction
    grind
  trans {a b c} hab hbc := by
    have h := Host.localeCompare_consistent.trans (a := a.label) (b := b.label) (c := c.label)
    unfold compareComplexityFunction at *
    grind

theorem compareComplexityFunction_le [Host] {a b : LintRatchetComplexityFunction}
    (h : compareComplexityFunction a b ≤ 0) : b.complexity ≤ a.complexity := by
  unfold compareComplexityFunction at h
  grind

/-- What the identity map holds: the first of the worst functions of that identity. -/
theorem uniqueComplexityMap_lookup (values : ComplexityFunctions) (key : Nat × JsString) :
    match (uniqueComplexityMap values).lookup key with
    | none => ∀ f ∈ values, complexityIdentity f ≠ key
    | some p => p ∈ values ∧ complexityIdentity p = key ∧
        ∀ f ∈ values, complexityIdentity f = key → f.complexity ≤ p.complexity := by
  induction values using List.reverseRecOn with
  | nil => simp [uniqueComplexityMap]
  | append_singleton values f ih =>
    have hstep : uniqueComplexityMap (values ++ [f]) =
        recordUnique (uniqueComplexityMap values) f := by
      simp [uniqueComplexityMap]
    rw [hstep, recordUnique]
    by_cases hk : key = complexityIdentity f
    · subst hk
      cases hl : (uniqueComplexityMap values).lookup (complexityIdentity f) with
      | none =>
        rw [hl] at ih
        simp only [List.lookup_cons_self, List.mem_append, List.mem_singleton, or_true, true_and]
        rintro g (hg | rfl) hgk
        · exact absurd hgk (ih g hg)
        · exact le_refl _
      | some p =>
        rw [hl] at ih
        by_cases hgt : f.complexity > p.complexity
        · simp only [if_pos hgt, List.lookup_cons_self, List.mem_append, List.mem_singleton,
            or_true, true_and]
          rintro g (hg | rfl) hgk
          · exact (ih.2.2 g hg hgk).trans hgt.le
          · exact le_refl _
        · simp only [if_neg hgt, hl]
          refine ⟨List.mem_append_left _ ih.1, ih.2.1, ?_⟩
          intro g hg hgk
          rcases List.mem_append.1 hg with hg | hg
          · exact ih.2.2 g hg hgk
          · rw [List.mem_singleton.1 hg]
            omega
    · have hne : (key == complexityIdentity f) = false := by simpa using hk
      have hsame : List.lookup key (match (uniqueComplexityMap values).lookup
          (complexityIdentity f) with
          | none => (complexityIdentity f, f) :: uniqueComplexityMap values
          | some previous =>
            if f.complexity > previous.complexity then
              (complexityIdentity f, f) :: uniqueComplexityMap values
            else uniqueComplexityMap values) = (uniqueComplexityMap values).lookup key := by
        split
        · rw [List.lookup_cons, hne]
        · split
          · rw [List.lookup_cons, hne]
          · rfl
      rw [hsame]
      cases hl : (uniqueComplexityMap values).lookup key with
      | none =>
        rw [hl] at ih
        intro g hg
        rcases List.mem_append.1 hg with hg | hg
        · exact ih g hg
        · rw [List.mem_singleton.1 hg]
          exact Ne.symm hk
      | some p =>
        rw [hl] at ih
        refine ⟨List.mem_append_left _ ih.1, ih.2.1, fun g hg hgk => ?_⟩
        rcases List.mem_append.1 hg with hg | hg
        · exact ih.2.2 g hg hgk
        · rw [List.mem_singleton.1 hg] at hgk
          exact absurd hgk.symm hk

/-- The largest complexity is that of some function. -/
theorem maxComplexityFor_mem {fs : ComplexityFunctions} (h : maxComplexityFor (some fs) = some m) :
    ∃ f ∈ fs, f.complexity = m := by
  cases fs with
  | nil => cases h
  | cons f fs =>
    have hfold : ∀ (gs : ComplexityFunctions) (best : Nat),
        gs.foldl (fun b e => max b e.complexity) best = best ∨
          ∃ g ∈ gs, g.complexity = gs.foldl (fun b e => max b e.complexity) best := by
      intro gs
      induction gs with
      | nil => simp
      | cons g gs ih =>
        intro best
        simp only [List.foldl_cons, List.mem_cons, exists_eq_or_imp]
        rcases ih (max best g.complexity) with hbest | hmem
        · rw [hbest]
          rcases le_total best g.complexity with hle | hle
          · exact .inr (.inl (max_eq_right hle).symm)
          · exact .inl (max_eq_left hle)
        · exact .inr (.inr hmem)
    cases h
    rcases hfold fs f.complexity with hbest | ⟨g, hg, he⟩
    · exact ⟨f, by simp, hbest.symm⟩
    · exact ⟨g, by simp [hg], he⟩

end Musi.LintRatchet
