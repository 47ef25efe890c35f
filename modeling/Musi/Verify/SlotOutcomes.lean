import Musi.Verify.ParallelRuns
import Mathlib.Data.List.Perm.Subperm

namespace Musi.Verify
open Musi.Shell
set_option autoImplicit true

variable {edges : ArtifactEdges} {consumer : Text} {artifactState : List (Text × Nat)}
  {admitted : List (Text × Resolution)} {count index : Nat} {s : SlotState} {outcomes : Outcomes}
  {plan : SlotPlan} {steps : List Text}

/-! ## The tree at the start -/

theorem probeArtifact_probed {states states' : List (Text × Nat)} {slot : Text}
    (h : probeArtifact edges consumer outcomes states slot = some states')
    (hprobe : ∀ artifact code, states.lookup artifact = some code → code = outcomes.probe artifact) :
    (∀ artifact code, states'.lookup artifact = some code → code = outcomes.probe artifact) ∧
      (∀ artifact, (states.lookup artifact).isSome → (states'.lookup artifact).isSome) ∧
      (edges.slotRequiresArtifact (slotKey consumer slot) ≠ [] →
        (states'.lookup (edges.slotRequiresArtifact (slotKey consumer slot))).isSome) := by
  rw [probeArtifact] at h
  generalize edges.slotRequiresArtifact (slotKey consumer slot) = required at h ⊢
  split at h
  · next hnil =>
    cases h
    exact ⟨hprobe, fun _ => id, fun hne => absurd hnil hne⟩
  · split at h
    · next hsome =>
      cases h
      exact ⟨hprobe, fun _ => id, fun _ => hsome⟩
    · split at h
      · cases h
      · cases h
        refine ⟨?_, ?_, fun _ => by simp⟩
        · intro artifact code hl
          rw [List.lookup_cons] at hl
          split at hl
          · next heq =>
            cases hl
            rw [beq_iff_eq.1 heq]
          · exact hprobe artifact code hl
        · intro artifact hl
          rw [List.lookup_cons]
          split
          · rfl
          · exact hl

theorem probeArtifacts_probed (steps : List Text) {states states' : List (Text × Nat)}
    (h : steps.foldlM (probeArtifact edges consumer outcomes) states = some states')
    (hprobe : ∀ artifact code, states.lookup artifact = some code → code = outcomes.probe artifact) :
    (∀ artifact code, states'.lookup artifact = some code → code = outcomes.probe artifact) ∧
      (∀ artifact, (states.lookup artifact).isSome → (states'.lookup artifact).isSome) ∧
      ∀ slot ∈ steps, edges.slotRequiresArtifact (slotKey consumer slot) ≠ [] →
        (states'.lookup (edges.slotRequiresArtifact (slotKey consumer slot))).isSome := by
  induction steps generalizing states with
  | nil =>
    cases h
    exact ⟨hprobe, fun _ => id, fun _ hs => absurd hs List.not_mem_nil⟩
  | cons slot steps ih =>
    rw [List.foldlM_cons] at h
    obtain ⟨states₁, hstep, h⟩ := Option.bind_eq_some_iff.1 h
    obtain ⟨hprobe₁, hkeep₁, hhead⟩ := probeArtifact_probed hstep hprobe
    obtain ⟨hprobe', hkeep', htail⟩ := ih h hprobe₁
    refine ⟨hprobe', fun artifact hs => hkeep' artifact (hkeep₁ artifact hs), ?_⟩
    intro slot' hmem hne
    obtain rfl | hmem := List.mem_cons.1 hmem
    · exact hkeep' _ (hhead hne)
    · exact htail slot' hmem hne

/-- A slot whose artifact was missing at the start is deferred. -/
theorem isDeferred_of_missing
    (h : steps.foldlM (probeArtifact edges consumer outcomes) [] = some artifactState) {slot : Text}
    (hmem : slot ∈ steps) (hne : edges.slotRequiresArtifact (slotKey consumer slot) ≠ [])
    (hmissing : outcomes.probe (edges.slotRequiresArtifact (slotKey consumer slot)) ≠ 0) :
    isDeferred edges consumer artifactState slot = true := by
  obtain ⟨hprobe, _, hall⟩ := probeArtifacts_probed steps h (fun _ _ hl => absurd hl nofun)
  obtain ⟨code, hcode⟩ := Option.isSome_iff_exists.1 (hall slot hmem hne)
  simp only [isDeferred, hcode, Option.getD_some, ne_eq, decide_not, Bool.and_eq_true,
    Bool.not_eq_true', decide_eq_false_iff_not]
  exact ⟨hne, by rw [hprobe _ _ hcode]; exact hmissing⟩

/-! ## The plan of a run -/

theorem getElem?_map_names {slot : Text} {resolution : Resolution}
    (h : admitted[index]? = some (slot, resolution)) :
    (admitted.map (·.1))[index]? = some slot := by
  rw [List.getElem?_map, h]
  rfl

theorem Planned.describes (h : Planned edges consumer artifactState admitted plan)
    (refused : Option (Text × Resolution)) :
    (refuseName refused plan).Describes admitted (refuseName refused plan).stepNames.length where
  bound := by
    rw [refuseName, h.names, List.length_append, List.length_map]
    omega
  name := by
    intro index slot resolution hi
    have hlt := (List.getElem?_eq_some_iff.1 hi).1
    rw [refuseName, h.names, List.getD_append _ _ _ _ (by rwa [List.length_map]),
      List.getD_eq_getElem?_getD, getElem?_map_names hi, Option.getD_some]
  command := h.command

theorem Planned.defers (h : Planned edges consumer artifactState admitted plan)
    (refused : Option (Text × Resolution)) :
    (refuseName refused plan).Defers edges consumer admitted where
  nodup := by
    rw [refuseName, h.deferred, List.map_map]
    refine List.Nodup.sublist (List.filter_sublist.map _) ?_
    change (admitted.zipIdx.map Prod.snd).Nodup
    rw [List.zipIdx_map_snd]
    exact List.nodup_range'
  required := by
    intro entry he
    rw [refuseName, h.deferred] at he
    obtain ⟨step, hstep, rfl⟩ := List.mem_map.1 he
    exact ⟨step.1.1, step.1.2, List.mem_zipIdx_iff_getElem?.1 (List.mem_of_mem_filter hstep), rfl⟩
  producer := h.producer

/-! ## The arrays before the first drain -/

theorem untouched_pid (refused : Option (Text × Resolution)) (count index : Nat) :
    (refuseSlot refused (untouchedSlots count)).pid index = none := by
  refine Option.eq_none_iff_forall_not_mem.2 fun child hp => ?_
  have hmem := mem_of_getD hp
  simp [refuseSlot, untouchedSlots] at hmem

theorem untouched_token (refused : Option (Text × Resolution)) (count index : Nat) :
    (refuseSlot refused (untouchedSlots count)).token index = none := by
  refine Option.eq_none_iff_forall_not_mem.2 fun token ht => ?_
  have hmem := mem_of_getD ht
  simp [refuseSlot, untouchedSlots] at hmem

theorem untouched_exit {refused : Option (Text × Resolution)} {count code : Nat}
    (h : (refuseSlot refused (untouchedSlots count)).exit index = some code) :
    count ≤ index ∧ ∃ step, refused = some step ∧ step.2.rc = code := by
  have hmem := mem_of_getD h
  constructor
  · by_contra hlt
    rw [SlotState.exit, refuseSlot, List.getD_append _ _ _ _ (by simpa [untouchedSlots] using hlt)] at h
    have hnone := mem_of_getD h
    simp [untouchedSlots] at hnone
  · simpa [refuseSlot, untouchedSlots] using hmem

theorem untouched_of_lt {refused : Option (Text × Resolution)} {count : Nat} (h : index < count) :
    (refuseSlot refused (untouchedSlots count)).Untouched index := by
  refine ⟨untouched_pid _ _ _, Option.eq_none_iff_forall_not_mem.2 fun code hc => ?_⟩
  exact absurd (untouched_exit hc).1 (Nat.not_le.2 h)

theorem untouched_sound {refused : Option (Text × Resolution)}
    (hrc : ∀ step, refused = some step → step.2.rc ≠ 0) :
    (refuseSlot refused (untouchedSlots admitted.length)).Sound edges consumer artifactState admitted
      (admitted.length + refused.toList.length) where
  pids := by simp [refuseSlot, untouchedSlots]
  exits := by simp [refuseSlot, untouchedSlots]
  tokens := by simp [refuseSlot, untouchedSlots]
  history := trivial
  launched_pid := fun _ _ _ _ hl => absurd hl List.not_mem_nil
  pid_launched := by
    intro index child hp
    have hnone := (untouched_pid _ _ _).symm.trans hp
    cases hnone
  exit_zero := by
    intro index h0
    obtain ⟨_, step, hstep, hzero⟩ := untouched_exit h0
    exact absurd hzero (hrc step hstep)
  exit_waited := by
    intro index child code hp
    have hnone := (untouched_pid _ _ _).symm.trans hp
    cases hnone
  token_pid := by
    intro index token ht
    have hnone := (untouched_token _ _ _).symm.trans ht
    cases hnone
  unreleased := fun _ _ hun => hun.elim

theorem untouched_held (refused : Option (Text × Resolution)) (count : Nat) :
    (refuseSlot refused (untouchedSlots count)).Held :=
  fun index ht => absurd (untouched_token refused count index) ht

theorem untouched_running (h : Planned edges consumer artifactState admitted plan)
    {refused : Option (Text × Resolution)} (hrc : ∀ step, refused = some step → step.2.rc ≠ 0) :
    (refuseSlot refused (untouchedSlots admitted.length)).Running edges consumer artifactState admitted
      (admitted.length + refused.toList.length) plan.pendingIndexes where
  sound := untouched_sound hrc
  held := untouched_held _ _
  nodup := by
    rw [h.pending]
    refine List.Nodup.sublist (List.filter_sublist.map _) ?_
    change (admitted.zipIdx.map Prod.snd).Nodup
    rw [List.zipIdx_map_snd]
    exact List.nodup_range'
  ready := by
    intro index hi
    rw [h.pending] at hi
    obtain ⟨⟨⟨slot, resolution⟩, index'⟩, hstep, rfl⟩ := List.mem_map.1 hi
    obtain ⟨hmem, hd⟩ := List.mem_filter.1 hstep
    have ha := List.mem_zipIdx_iff_getElem?.1 hmem
    refine ⟨slot, resolution, ha, untouched_of_lt (List.getElem?_eq_some_iff.1 ha).1, fun hd' => ?_⟩
    rw [hd'] at hd
    exact absurd hd nofun

/-- The drain leaves the slots alone that wait for an artifact. -/
theorem pending_disjoint (h : Planned edges consumer artifactState admitted plan) {artifact : Text}
    (hd : (index, artifact) ∈ plan.deferredIndexes) : index ∉ plan.pendingIndexes := by
  intro hp
  rw [h.pending] at hp
  rw [h.deferred] at hd
  obtain ⟨⟨step, _⟩, hstep, rfl⟩ := List.mem_map.1 hp
  obtain ⟨⟨step', index'⟩, hstep', heq⟩ := List.mem_map.1 hd
  cases heq
  obtain ⟨hmem, hpend⟩ := List.mem_filter.1 hstep
  obtain ⟨hmem', hdefer⟩ := List.mem_filter.1 hstep'
  have hstep := List.mem_zipIdx_iff_getElem?.1 hmem
  have hstep' := List.mem_zipIdx_iff_getElem?.1 hmem'
  cases Option.some.inj (hstep.symm.trans hstep')
  rw [hdefer] at hpend
  exact absurd hpend nofun

/-! ## The last loop -/

theorem waitUnlessSettled_pid (other : Nat) : (waitUnlessSettled s index).pid other = s.pid other := by
  rw [waitUnlessSettled]
  split
  · rfl
  · exact wait_pid other

theorem waitUnlessSettled_exit {other : Nat} (h : s.exit other ≠ none) :
    (waitUnlessSettled s index).exit other = s.exit other := by
  rw [waitUnlessSettled]
  split
  · rfl
  · exact wait_exit_some h

theorem waitAll_sound (indexes : List Nat) (h : s.Sound edges consumer artifactState admitted count)
    (hh : s.Held) :
    (indexes.foldl waitUnlessSettled s).Sound edges consumer artifactState admitted count ∧
      (indexes.foldl waitUnlessSettled s).Held := by
  induction indexes generalizing s with
  | nil => exact ⟨h, hh⟩
  | cons index indexes ih =>
    rw [List.foldl_cons]
    by_cases hs : s.exit index ≠ none
    · rw [waitUnlessSettled, if_pos hs]
      exact ih h hh
    · rw [waitUnlessSettled, if_neg hs]
      exact ih h.wait hh.wait

theorem waitAll_pid (indexes : List Nat) (other : Nat) :
    (indexes.foldl waitUnlessSettled s).pid other = s.pid other := by
  induction indexes generalizing s with
  | nil => rfl
  | cons index indexes ih => rw [List.foldl_cons, ih, waitUnlessSettled_pid]

theorem waitAll_exit (indexes : List Nat) {other : Nat} (h : s.exit other ≠ none) :
    (indexes.foldl waitUnlessSettled s).exit other ≠ none := by
  induction indexes generalizing s with
  | nil => exact h
  | cons index indexes ih =>
    refine ih ?_
    rw [waitUnlessSettled_exit h]
    exact h

/-- After the loop every slot that was started has its status. -/
theorem waitAll_settles (indexes : List Nat)
    (h : s.Sound edges consumer artifactState admitted count) (hh : s.Held)
    (hi : index ∈ indexes) (hp : s.pid index ≠ none) :
    (indexes.foldl waitUnlessSettled s).exit index ≠ none := by
  induction indexes generalizing s with
  | nil => exact absurd hi List.not_mem_nil
  | cons other indexes ih =>
    rw [List.foldl_cons]
    obtain ⟨hsound, hheld⟩ := waitAll_sound [other] h hh
    obtain rfl | hi := List.mem_cons.1 hi
    · refine waitAll_exit indexes ?_
      rw [waitUnlessSettled]
      split
      · assumption
      · exact wait_settles h hp
    · refine ih hsound hheld hi ?_
      rw [waitUnlessSettled_pid]
      exact hp

end Musi.Verify
