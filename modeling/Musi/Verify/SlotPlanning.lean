import Musi.Verify.ParallelSteps
import Mathlib.Data.List.GetD
import Mathlib.Data.List.Nodup

namespace Musi.Verify
open Musi.Shell
set_option autoImplicit true

/-! ## The steps a run records -/

/-- The steps that are not skipped, from a position on, with what they resolve to. -/
def resolvedFrom (outcomes : Outcomes) (position : Nat) (steps : List Text) :
    List (Text × Resolution) :=
  ((steps.zipIdx position).map fun step => (step.1, outcomes.resolve step.2)).filter
    (·.2.rc ≠ slotSkipRc)

/-- The steps before the first resolution error that are not skipped. -/
def admittedSteps (outcomes : Outcomes) (steps : List Text) : List (Text × Resolution) :=
  (resolvedFrom outcomes 0 steps).takeWhile (·.2.rc = 0)

/-- The step of the first resolution error. -/
def unresolvedStep (outcomes : Outcomes) (steps : List Text) : Option (Text × Resolution) :=
  ((resolvedFrom outcomes 0 steps).dropWhile (·.2.rc = 0)).head?

variable {edges : ArtifactEdges} {consumer : Text} {outcomes : Outcomes}
  {artifactState : List (Text × Nat)}

theorem resolvedFrom_cons (outcomes : Outcomes) (position : Nat) (slot : Text) (steps : List Text) :
    resolvedFrom outcomes position (slot :: steps) =
      if (outcomes.resolve position).rc = slotSkipRc then resolvedFrom outcomes (position + 1) steps
      else (slot, outcomes.resolve position) :: resolvedFrom outcomes (position + 1) steps := by
  simp only [resolvedFrom, List.zipIdx_cons, List.map_cons, List.filter_cons, ne_eq, decide_not,
    Bool.not_eq_true', decide_eq_false_iff_not, ite_not]

/-! ## The arrays of the resolution loop -/

/-- What the arrays hold once some steps are planned. -/
structure Planned (edges : ArtifactEdges) (consumer : Text) (artifactState : List (Text × Nat))
    (done : List (Text × Resolution)) (plan : SlotPlan) : Prop where
  names : plan.stepNames = done.map (·.1)
  starts : plan.commandStarts.length = done.length
  lengths : plan.commandLengths.length = done.length
  inside : ∀ index < done.length,
    plan.commandStarts.getD index 0 + plan.commandLengths.getD index 0 ≤ plan.commandTokens.length
  command : ∀ index slot resolution, done[index]? = some (slot, resolution) →
    plan.command index = resolution.command
  pending : plan.pendingIndexes =
    (done.zipIdx.filter fun step => !isDeferred edges consumer artifactState step.1.1).map (·.2)
  deferred : plan.deferredIndexes =
    (done.zipIdx.filter fun step => isDeferred edges consumer artifactState step.1.1).map
      fun step => (step.2, edges.slotRequiresArtifact (slotKey consumer step.1.1))
  ordered : plan.deferredArtifactOrder.Nodup
  covered : ∀ entry ∈ plan.deferredIndexes, entry.2 ∈ plan.deferredArtifactOrder
  producer : ∀ artifact index, plan.artifactProducerIndex.lookup artifact = some index →
    ∃ slot resolution, done[index]? = some (slot, resolution) ∧
      edges.slotProduces (slotKey consumer slot) = artifact

theorem Planned.empty : Planned edges consumer artifactState [] {} where
  names := rfl
  starts := rfl
  lengths := rfl
  inside := nofun
  command := nofun
  pending := rfl
  deferred := rfl
  ordered := .nil
  covered := nofun
  producer := nofun

section Extend
variable {done : List (Text × Resolution)} {plan : SlotPlan} {slot : Text} {resolution : Resolution}

theorem command_append_old (h : Planned edges consumer artifactState done plan)
    {index : Nat} (hi : index < done.length) :
    (appendCommand slot resolution.command plan).command index = plan.command index := by
  have hinside := h.inside index hi
  simp only [SlotPlan.command, appendCommand, List.getD_append _ _ _ _ (h.starts ▸ hi),
    List.getD_append _ _ _ _ (h.lengths ▸ hi)]
  rw [List.drop_append_of_le_length (by omega),
    List.take_append_of_le_length (by rw [List.length_drop]; omega)]

theorem command_append_new (h : Planned edges consumer artifactState done plan) :
    (appendCommand slot resolution.command plan).command done.length = resolution.command := by
  have hstart : (plan.commandStarts ++ [plan.commandTokens.length]).getD done.length 0 =
      plan.commandTokens.length := by
    rw [← h.starts, List.getD_append_right _ _ _ _ le_rfl, Nat.sub_self]
    rfl
  have hlength : (plan.commandLengths ++ [resolution.command.length]).getD done.length 0 =
      resolution.command.length := by
    rw [← h.lengths, List.getD_append_right _ _ _ _ le_rfl, Nat.sub_self]
    rfl
  simp only [SlotPlan.command, appendCommand, hstart, hlength, List.drop_left, List.take_length]

theorem getElem?_snoc {α : Type} {l : List α} {a b : α} {index : Nat}
    (h : (l ++ [a])[index]? = some b) : l[index]? = some b ∨ index = l.length ∧ a = b := by
  rw [List.getElem?_append] at h
  split at h
  · exact .inl h
  · next hlt =>
    rw [List.getElem?_singleton] at h
    split at h
    · next h0 => exact .inr ⟨by omega, Option.some.inj h⟩
    · exact absurd h nofun

theorem inside_append (h : Planned edges consumer artifactState done plan) :
    ∀ index < (done ++ [(slot, resolution)]).length,
      (appendCommand slot resolution.command plan).commandStarts.getD index 0 +
        (appendCommand slot resolution.command plan).commandLengths.getD index 0 ≤
          (appendCommand slot resolution.command plan).commandTokens.length := by
  intro index hi
  rw [List.length_append, List.length_singleton] at hi
  simp only [appendCommand, List.length_append]
  obtain hlt | heq := Nat.lt_succ_iff_lt_or_eq.1 hi
  · rw [List.getD_append _ _ _ _ (h.starts ▸ hlt), List.getD_append _ _ _ _ (h.lengths ▸ hlt)]
    have := h.inside index hlt
    omega
  · subst heq
    rw [List.getD_append_right _ _ _ _ h.starts.le, List.getD_append_right _ _ _ _ h.lengths.le,
      h.starts, h.lengths, Nat.sub_self, List.getD_cons_zero, List.getD_cons_zero]

/-- The command of a slot, whatever the plan records besides the commands. -/
theorem command_append (h : Planned edges consumer artifactState done plan) {index : Nat}
    {slot' : Text} {resolution' : Resolution}
    (hi : (done ++ [(slot, resolution)])[index]? = some (slot', resolution')) :
    (appendCommand slot resolution.command plan).command index = resolution'.command := by
  obtain hold | ⟨rfl, heq⟩ := getElem?_snoc hi
  · rw [command_append_old h (List.getElem?_eq_some_iff.1 hold).1]
    exact h.command _ _ _ hold
  · cases heq
    exact command_append_new h

theorem lookup_recordProducer (produced : Text) (index : Nat) (plan : SlotPlan) {artifact : Text}
    {found : Nat}
    (h : (recordProducer produced index plan).artifactProducerIndex.lookup artifact = some found) :
    plan.artifactProducerIndex.lookup artifact = some found ∨ produced = artifact ∧ index = found := by
  rw [recordProducer] at h
  split at h
  · exact .inl h
  · rw [List.lookup_cons] at h
    split at h
    · next heq => exact .inr ⟨(beq_iff_eq.1 heq).symm, Option.some.inj h⟩
    · exact .inl h

/-- Only the producers change. -/
theorem recordProducer_eq (produced : Text) (index : Nat) (plan : SlotPlan) :
    recordProducer produced index plan = { plan with
      artifactProducerIndex := (recordProducer produced index plan).artifactProducerIndex } := by
  rw [recordProducer]
  split <;> rfl

theorem deferIndex_ordered (index : Nat) (required : Text)
    (h : plan.deferredArtifactOrder.Nodup) :
    (deferIndex index required plan).deferredArtifactOrder.Nodup := by
  rw [deferIndex]
  split
  · exact h
  · next hnew =>
    change (plan.deferredArtifactOrder ++ [required]).Nodup
    rw [← List.concat_eq_append]
    exact h.concat hnew

theorem deferIndex_covered (index : Nat) (required : Text)
    (h : ∀ entry ∈ plan.deferredIndexes, entry.2 ∈ plan.deferredArtifactOrder) :
    ∀ entry ∈ (deferIndex index required plan).deferredIndexes,
      entry.2 ∈ (deferIndex index required plan).deferredArtifactOrder := by
  have hnew : required ∈ (deferIndex index required plan).deferredArtifactOrder := by
    rw [deferIndex]
    split
    · assumption
    · exact List.mem_append_right _ (List.mem_singleton_self _)
  have hold : ∀ artifact ∈ plan.deferredArtifactOrder,
      artifact ∈ (deferIndex index required plan).deferredArtifactOrder := by
    intro artifact ha
    rw [deferIndex]
    split
    · exact ha
    · exact List.mem_append_left _ ha
  intro entry he
  rw [deferIndex, List.mem_append, List.mem_singleton] at he
  obtain he | rfl := he
  · exact hold _ (h entry he)
  · exact hnew

theorem producer_append (h : Planned edges consumer artifactState done plan) {artifact : Text}
    {index : Nat}
    (hl : (recordProducer (edges.slotProduces (slotKey consumer slot)) plan.stepNames.length
      (appendCommand slot resolution.command plan)).artifactProducerIndex.lookup artifact =
        some index) :
    ∃ slot' resolution', (done ++ [(slot, resolution)])[index]? = some (slot', resolution') ∧
      edges.slotProduces (slotKey consumer slot') = artifact := by
  obtain hold | ⟨hp, rfl⟩ := lookup_recordProducer _ _ _ hl
  · obtain ⟨slot', resolution', hi, hp⟩ := h.producer _ _ hold
    refine ⟨slot', resolution', ?_, hp⟩
    rw [List.getElem?_append_left (List.getElem?_eq_some_iff.1 hi).1]
    exact hi
  · refine ⟨slot, resolution, ?_, hp⟩
    rw [h.names, List.length_map, List.getElem?_concat_length]

variable (slot resolution) in
theorem Planned.planSlot (h : Planned edges consumer artifactState done plan) :
    Planned edges consumer artifactState (done ++ [(slot, resolution)])
      (planSlot edges consumer artifactState slot resolution.command plan) := by
  have hlength : plan.stepNames.length = done.length := by rw [h.names, List.length_map]
  have hzip : (done ++ [(slot, resolution)]).zipIdx =
      done.zipIdx ++ [((slot, resolution), done.length)] := by
    rw [List.zipIdx_append, Nat.zero_add]
    rfl
  rw [Verify.planSlot, recordProducer_eq]
  split
  · next hd =>
    exact
      { names := by simp [deferIndex, appendCommand, h.names]
        starts := by simp [deferIndex, appendCommand, h.starts]
        lengths := by simp [deferIndex, appendCommand, h.lengths]
        inside := inside_append h
        command := fun _ _ _ => command_append h
        pending := by simp [deferIndex, appendCommand, h.pending, hzip, hd]
        deferred := by simp [deferIndex, appendCommand, h.deferred, hzip, hd, hlength]
        ordered := deferIndex_ordered _ _ h.ordered
        covered := deferIndex_covered _ _ h.covered
        producer := fun _ _ => producer_append h }
  · next hd =>
    rw [Bool.not_eq_true] at hd
    exact
      { names := by simp [appendCommand, h.names]
        starts := by simp [appendCommand, h.starts]
        lengths := by simp [appendCommand, h.lengths]
        inside := inside_append h
        command := fun _ _ _ => command_append h
        pending := by simp [appendCommand, h.pending, hzip, hd, hlength]
        deferred := by simp [appendCommand, h.deferred, hzip, hd]
        ordered := h.ordered
        covered := h.covered
        producer := fun _ _ => producer_append h }

end Extend

/-! ## The whole loop -/

/-- The outcome arrays where some steps are admitted and nothing has happened to them. -/
def untouchedSlots (count : Nat) : SlotState where
  stepPids := .replicate count none
  stepExits := .replicate count none
  memoryTokens := .replicate count none

/-- The outcome arrays with the step of the resolution error after the admitted ones. -/
def refuseSlot (refused : Option (Text × Resolution)) (s : SlotState) : SlotState :=
  { s with
    stepPids := s.stepPids ++ refused.toList.map fun _ => none
    stepExits := s.stepExits ++ refused.toList.map fun step => some step.2.rc }

def refuseName (refused : Option (Text × Resolution)) (plan : SlotPlan) : SlotPlan :=
  { plan with stepNames := plan.stepNames ++ refused.toList.map (·.1) }

theorem resolveSteps_from (position : Nat) (steps : List Text) {done : List (Text × Resolution)}
    {plan : SlotPlan} (h : Planned edges consumer artifactState done plan) :
    ∃ plan', Planned edges consumer artifactState
        (done ++ (resolvedFrom outcomes position steps).takeWhile (·.2.rc = 0)) plan' ∧
      resolveSteps edges consumer outcomes artifactState position steps
          (plan, untouchedSlots done.length) =
        (refuseName ((resolvedFrom outcomes position steps).dropWhile (·.2.rc = 0)).head? plan',
          refuseSlot ((resolvedFrom outcomes position steps).dropWhile (·.2.rc = 0)).head?
            (untouchedSlots
              (done ++ (resolvedFrom outcomes position steps).takeWhile (·.2.rc = 0)).length)) := by
  induction steps generalizing position done plan with
  | nil =>
    refine ⟨plan, ?_, ?_⟩
    · simpa [resolvedFrom] using h
    · simp [resolveSteps, resolvedFrom, refuseName, refuseSlot]
  | cons slot steps ih =>
    rw [resolvedFrom_cons, resolveSteps]
    by_cases hskip : (outcomes.resolve position).rc = slotSkipRc
    · simp only [if_pos hskip]
      exact ih (position + 1) h
    · simp only [if_neg hskip]
      by_cases hrc : (outcomes.resolve position).rc = 0
      · have hgrown : untouchedSlots (done ++ [(slot, outcomes.resolve position)]).length =
            { untouchedSlots done.length with
              stepPids := (untouchedSlots done.length).stepPids ++ [none]
              stepExits := (untouchedSlots done.length).stepExits ++ [none]
              memoryTokens := (untouchedSlots done.length).memoryTokens ++ [none] } := by
          simp [untouchedSlots, List.replicate_succ']
        obtain ⟨plan', hplan, heq⟩ := ih (position + 1)
          (h.planSlot slot (outcomes.resolve position))
        refine ⟨plan', ?_, ?_⟩
        · simpa [hrc] using hplan
        · rw [hgrown] at heq
          simpa [hrc] using heq
      · refine ⟨plan, ?_, ?_⟩
        · simpa [hrc] using h
        · simp [hrc, refuseName, refuseSlot]

theorem resolveSteps_planned (edges : ArtifactEdges) (consumer : Text) (outcomes : Outcomes)
    (artifactState : List (Text × Nat)) (steps : List Text) :
    ∃ plan, Planned edges consumer artifactState (admittedSteps outcomes steps) plan ∧
      resolveSteps edges consumer outcomes artifactState 0 steps ({}, {}) =
        (refuseName (unresolvedStep outcomes steps) plan,
          refuseSlot (unresolvedStep outcomes steps)
            (untouchedSlots (admittedSteps outcomes steps).length)) := by
  obtain ⟨plan, hplan, heq⟩ := resolveSteps_from 0 steps Planned.empty
  rw [List.nil_append] at hplan heq
  exact ⟨plan, hplan, heq⟩

theorem unresolvedStep_rc {step : Text × Resolution}
    (h : unresolvedStep outcomes steps = some step) : step.2.rc ≠ 0 := by
  intro h0
  have hfirst := List.head?_dropWhile_not (fun step : Text × Resolution => decide (step.2.rc = 0))
    (resolvedFrom outcomes 0 steps)
  rw [unresolvedStep] at h
  simp [h, h0] at hfirst

end Musi.Verify
