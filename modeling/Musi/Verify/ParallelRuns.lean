import Musi.Verify.SlotAccounting

namespace Musi.Verify
open Musi.Shell
set_option autoImplicit true

variable {edges : ArtifactEdges} {consumer : Text} {artifactState : List (Text × Nat)}
  {admitted : List (Text × Resolution)} {count index : Nat} {s : SlotState} {outcomes : Outcomes}
  {plan : SlotPlan}

/-! ## What a history tells of a start -/

theorem History.launched {log : List SlotEvent} (h : History edges consumer artifactState admitted log)
    (index : Nat) (slot : Text) (command : List Text) (child : Child)
    (hl : .launched index slot command child ∈ log) :
    ∃ resolution, admitted[index]? = some (slot, resolution) ∧ command = resolution.command := by
  induction log with
  | nil => exact absurd hl List.not_mem_nil
  | cons event log ih =>
    obtain rfl | hl := List.mem_cons.1 hl
    · exact h.1.1
    · exact ih h.2 hl

/-- Every event was allowed by what came before it. -/
theorem History.allowed {after before : List SlotEvent} {event : SlotEvent}
    (h : History edges consumer artifactState admitted (after ++ event :: before)) :
    Allowed edges consumer artifactState admitted before event := by
  induction after with
  | nil => exact h.1
  | cons _ _ ih => exact ih h.2

/-! ## Waiting -/

theorem releaseToken_pid (other : Nat) : (releaseToken index s).pid other = s.pid other := by
  rw [releaseToken]
  split <;> rfl

theorem releaseToken_exit (other : Nat) : (releaseToken index s).exit other = s.exit other := by
  rw [releaseToken]
  split <;> rfl

theorem releaseToken_token_ne {other : Nat} (h : index ≠ other) :
    (releaseToken index s).token other = s.token other := by
  rw [releaseToken]
  split
  · rfl
  · exact getD_set_ne _ h _ _

theorem releaseToken_token_self : (releaseToken index s).token index = none := by
  rw [releaseToken]
  split
  · assumption
  · next token ht => exact getD_set_self (lt_of_getD ht) _ _

theorem recordWait_pid {child : Child} (other : Nat) :
    (recordWait index child s).pid other = s.pid other := by
  rw [recordWait]
  split <;> rfl

theorem recordWait_token {child : Child} (other : Nat) :
    (recordWait index child s).token other = s.token other := by
  rw [recordWait]
  split <;> rfl

theorem recordWait_exit_ne {child : Child} {other : Nat} (h : index ≠ other) :
    (recordWait index child s).exit other = s.exit other := by
  rw [recordWait]
  split
  · rfl
  · exact getD_set_ne _ h _ _

theorem recordWait_exit_some {child : Child} {other : Nat} (h : s.exit other ≠ none) :
    (recordWait index child s).exit other = s.exit other := by
  by_cases ho : index = other
  · subst ho
    rw [recordWait]
    split
    · rfl
    · contradiction
  · exact recordWait_exit_ne ho

theorem wait_pid (other : Nat) : (waitParallelVerifyIndex index s).pid other = s.pid other := by
  rw [waitParallelVerifyIndex]
  split
  · rfl
  · rw [releaseToken_pid, recordWait_pid]

theorem wait_exit_some {other : Nat} (h : s.exit other ≠ none) :
    (waitParallelVerifyIndex index s).exit other = s.exit other := by
  rw [waitParallelVerifyIndex]
  split
  · rfl
  · rw [releaseToken_exit, recordWait_exit_some h]

theorem wait_advances (index : Nat) (s : SlotState) :
    Advances [index] s (waitParallelVerifyIndex index s) := by
  refine ⟨?_, fun other ho => ⟨wait_pid other, ?_⟩⟩
  · rw [waitParallelVerifyIndex]
    split
    · exact List.suffix_refl _
    · next child _ =>
      have hrecord : s.log <:+ (recordWait index child s).log := by
        rw [recordWait]
        split
        · exact List.suffix_refl _
        · exact List.suffix_cons _ _
      refine hrecord.trans ?_
      rw [releaseToken]
      split
      · exact List.suffix_refl _
      · exact List.suffix_cons _ _
  · rw [waitParallelVerifyIndex]
    split
    · rfl
    · rw [releaseToken_exit, recordWait_exit_ne fun he => ho (List.mem_singleton.2 he.symm)]

/-- A slot that was started has its status once it is waited for. -/
theorem wait_settles (h : s.Sound edges consumer artifactState admitted count)
    (hp : s.pid index ≠ none) : (waitParallelVerifyIndex index s).exit index ≠ none := by
  obtain ⟨child, hchild⟩ := Option.ne_none_iff_exists'.1 hp
  have hlt : index < s.stepExits.length := by
    rw [h.exits, ← h.pids]
    exact lt_of_getD hchild
  rw [waitParallelVerifyIndex, hchild]
  dsimp only
  rw [releaseToken_exit, recordWait]
  split
  · next code hcode =>
    rw [hcode]
    exact Option.some_ne_none code
  · rw [SlotState.exit, getD_set_self hlt]
    exact Option.some_ne_none _

theorem SlotState.Sound.wait (h : s.Sound edges consumer artifactState admitted count) :
    (waitParallelVerifyIndex index s).Sound edges consumer artifactState admitted count := by
  rw [waitParallelVerifyIndex]
  split
  · exact h
  · next child hp => exact (h.recordWait hp).releaseToken

theorem SlotState.Held.wait (h : s.Held) : (waitParallelVerifyIndex index s).Held := by
  rw [waitParallelVerifyIndex]
  split
  · exact h
  · intro other ht
    by_cases ho : index = other
    · subst ho
      exact absurd releaseToken_token_self ht
    · rw [releaseToken_token_ne ho, recordWait_token] at ht
      rw [releaseToken_exit, recordWait_exit_ne ho]
      exact h other ht

/-! ## Giving up several slots -/

theorem setExits_keeps (code : Nat) (hc : code ≠ 0) {indexes : List Nat}
    (hs : s.Sound edges consumer artifactState admitted count) (hh : s.Held)
    (hp : ∀ index ∈ indexes, s.pid index = none) :
    (setExits code indexes s).Sound edges consumer artifactState admitted count ∧
      (setExits code indexes s).Held ∧ Advances indexes s (setExits code indexes s) := by
  induction indexes generalizing s with
  | nil => exact ⟨hs, hh, .refl _ _⟩
  | cons index indexes ih =>
    have hpid := hp index List.mem_cons_self
    obtain ⟨hsound, hheld, hadv⟩ := ih (hs.setExit hpid hc) (hh.setExit hs hpid code) fun other ho =>
      hp other (List.mem_cons_of_mem _ ho)
    refine ⟨hsound, hheld, ?_⟩
    exact ((setExit_advances index code s).mono (by simp)).trans
      (hadv.mono (List.subset_cons_self _ _))

/-! ## Draining -/

/-- The plan tells of every admitted slot its name and its own command. -/
structure SlotPlan.Describes (plan : SlotPlan) (admitted : List (Text × Resolution)) (count : Nat) :
    Prop where
  bound : admitted.length ≤ count
  name : ∀ index slot resolution, admitted[index]? = some (slot, resolution) →
    plan.stepNames.getD index [] = slot
  command : ∀ index slot resolution, admitted[index]? = some (slot, resolution) →
    plan.command index = resolution.command

/-- A state in which some slots are still to be started, and may be. -/
structure SlotState.Running (edges : ArtifactEdges) (consumer : Text)
    (artifactState : List (Text × Nat)) (admitted : List (Text × Resolution)) (count : Nat)
    (pending : List Nat) (s : SlotState) : Prop where
  sound : s.Sound edges consumer artifactState admitted count
  held : s.Held
  nodup : pending.Nodup
  ready : ∀ index ∈ pending, ∃ slot resolution, admitted[index]? = some (slot, resolution) ∧
    s.Untouched index ∧ Permitted edges consumer artifactState slot s.log

theorem ready_advances {indexes : List Nat} {t : SlotState} (hadv : Advances indexes s t)
    (hi : index ∉ indexes)
    (h : ∃ slot resolution, admitted[index]? = some (slot, resolution) ∧ s.Untouched index ∧
      Permitted edges consumer artifactState slot s.log) :
    ∃ slot resolution, admitted[index]? = some (slot, resolution) ∧ t.Untouched index ∧
      Permitted edges consumer artifactState slot t.log := by
  obtain ⟨slot, resolution, ha, hu, hp⟩ := h
  exact ⟨slot, resolution, ha, hadv.untouched hi hu, hp.mono hadv.log⟩

variable (outcomes) in
theorem drainIndex_running (hplan : plan.Describes admitted count) (round : Round) {r : DrainRound}
    {rest : List Nat}
    (h : r.slots.Running edges consumer artifactState admitted count
      (r.stillPending ++ index :: rest)) :
    (drainIndex plan outcomes round r index).slots.Running edges consumer artifactState admitted count
        ((drainIndex plan outcomes round r index).stillPending ++ rest) ∧
      Advances [index] r.slots (drainIndex plan outcomes round r index).slots ∧
      (drainIndex plan outcomes round r index).stillPending ⊆ r.stillPending ++ [index] := by
  obtain ⟨slot, resolution, ha, hu, hp⟩ := h.ready index (by simp)
  have hsub : List.Sublist (r.stillPending ++ rest) (r.stillPending ++ index :: rest) :=
    List.Sublist.append_left (List.sublist_cons_self _ _) _
  have hnot : ∀ other ∈ r.stillPending ++ rest, other ∉ [index] := by
    intro other ho he
    rw [List.mem_singleton] at he
    subst he
    have hmid := List.nodup_middle.1 h.nodup
    exact (List.nodup_cons.1 hmid).1 ho
  rw [drainIndex]
  split
  · refine ⟨?_, .refl _ _, List.Subset.refl _⟩
    rw [List.append_assoc]
    exact h
  · have hadv := setExit_advances index slotNotRunExit r.slots
    refine ⟨⟨h.sound.setExit hu.1 (by decide), h.held.setExit h.sound hu.1 _, h.nodup.sublist hsub,
      fun other ho => ?_⟩, hadv, List.subset_append_left _ _⟩
    exact ready_advances hadv (hnot other ho) (h.ready other (hsub.subset ho))
  · next token _ =>
    have hadv := launch_advances plan outcomes index token r.slots
    refine ⟨⟨?_, h.held.launch hu plan outcomes token, h.nodup.sublist hsub, fun other ho => ?_⟩,
      hadv, List.subset_append_left _ _⟩
    · exact h.sound.launch ha hplan.bound (hplan.name _ _ _ ha) (hplan.command _ _ _ ha) hu hp
        outcomes token
    · exact ready_advances hadv (hnot other ho) (h.ready other (hsub.subset ho))

variable (outcomes) in
theorem drainPass_running (hplan : plan.Describes admitted count) (round : Round)
    (pending : List Nat) {r : DrainRound}
    (h : r.slots.Running edges consumer artifactState admitted count (r.stillPending ++ pending)) :
    (pending.foldl (drainIndex plan outcomes round) r).slots.Running edges consumer artifactState
        admitted count (pending.foldl (drainIndex plan outcomes round) r).stillPending ∧
      Advances pending r.slots (pending.foldl (drainIndex plan outcomes round) r).slots ∧
      (pending.foldl (drainIndex plan outcomes round) r).stillPending ⊆ r.stillPending ++ pending := by
  induction pending generalizing r with
  | nil =>
    rw [List.append_nil] at h ⊢
    exact ⟨h, .refl _ _, List.Subset.refl _⟩
  | cons index pending ih =>
    obtain ⟨hrun, hadv, hstill⟩ := drainIndex_running outcomes hplan round h
    obtain ⟨hrun', hadv', hstill'⟩ := ih hrun
    refine ⟨hrun', (hadv.mono (by simp)).trans (hadv'.mono (List.subset_cons_self _ _)), ?_⟩
    intro other ho
    have hmem := hstill' ho
    rw [List.mem_append] at hmem ⊢
    obtain hold | hrest := hmem
    · have := hstill hold
      rw [List.mem_append, List.mem_singleton] at this
      exact this.imp_right fun he => by rw [he]; exact List.mem_cons_self
    · exact .inr (List.mem_cons_of_mem _ hrest)

theorem drainRounds_running (hplan : plan.Describes admitted count) {start : Int} {timeout : Nat}
    (rounds : List Round) {pending : List Nat} {s' : SlotState}
    (h : s.Running edges consumer artifactState admitted count pending)
    (hd : drainRounds plan outcomes start timeout rounds pending s = some s') :
    s'.Running edges consumer artifactState admitted count [] ∧ Advances pending s s' := by
  induction rounds generalizing pending s with
  | nil =>
    cases pending with
    | nil =>
      rw [drainRounds] at hd
      cases hd
      exact ⟨h, .refl _ _⟩
    | cons => exact absurd hd nofun
  | cons round rounds ih =>
    cases pending with
    | nil =>
      rw [drainRounds] at hd
      cases hd
      exact ⟨h, .refl _ _⟩
    | cons index pending =>
      obtain ⟨hrun, hadv, hstill⟩ := drainPass_running outcomes hplan round
        (index :: pending) (r := { slots := s }) h
      rw [List.nil_append] at hstill
      rw [drainRounds] at hd
      generalize (index :: pending).foldl (drainIndex plan outcomes round) { slots := s } = r
        at hrun hadv hstill hd
      have hagain (hs' : drainRounds plan outcomes start timeout rounds r.stillPending r.slots =
          some s') : s'.Running edges consumer artifactState admitted count [] ∧
            Advances (index :: pending) s s' := by
        obtain ⟨hrun', hadv'⟩ := ih hrun hs'
        exact ⟨hrun', hadv.trans (hadv'.mono hstill)⟩
      split at hd
      · next hnil =>
        cases hd
        rw [hnil] at hrun
        exact ⟨hrun, hadv⟩
      · split at hd
        · exact hagain hd
        · split at hd
          · cases hd
            obtain ⟨hsound, hheld, hadv'⟩ := setExits_keeps slotNotRunExit (by decide)
              hrun.sound hrun.held fun other ho => by
                obtain ⟨_, _, _, hu, _⟩ := hrun.ready other ho
                exact hu.1
            exact ⟨⟨hsound, hheld, .nil, nofun⟩, hadv.trans (hadv'.mono hstill)⟩
          · exact hagain hd

theorem drain_running (hplan : plan.Describes admitted count) {wait : MemoryWait} {timeout : Text}
    {pending : List Nat} {s' : SlotState}
    (h : s.Running edges consumer artifactState admitted count pending)
    (hd : drainMemoryPendingSlots plan outcomes wait timeout pending s = some s') :
    s'.Running edges consumer artifactState admitted count [] ∧ Advances pending s s' := by
  rw [drainMemoryPendingSlots] at hd
  split at hd
  · cases hd
    exact ⟨⟨h.sound, h.held, .nil, nofun⟩, .refl _ _⟩
  · exact drainRounds_running hplan _ h hd

/-! ## Releasing what waits for an artifact -/

/-- The plan tells which slots wait for an artifact, and which slot makes it. -/
structure SlotPlan.Defers (edges : ArtifactEdges) (consumer : Text)
    (admitted : List (Text × Resolution)) (plan : SlotPlan) : Prop where
  nodup : (plan.deferredIndexes.map (·.1)).Nodup
  required : ∀ entry ∈ plan.deferredIndexes, ∃ slot resolution,
    admitted[entry.1]? = some (slot, resolution) ∧
      edges.slotRequiresArtifact (slotKey consumer slot) = entry.2
  producer : ∀ artifact index, plan.artifactProducerIndex.lookup artifact = some index →
    ∃ slot resolution, admitted[index]? = some (slot, resolution) ∧
      edges.slotProduces (slotKey consumer slot) = artifact

theorem mem_artifactIndexes {artifact : Text} :
    index ∈ (plan.deferredIndexes.filter (·.2 = artifact)).map (·.1) ↔
      (index, artifact) ∈ plan.deferredIndexes := by
  simp only [List.mem_map, List.mem_filter, decide_eq_true_eq]
  constructor
  · rintro ⟨_, ⟨hmem, rfl⟩, rfl⟩
    exact hmem
  · exact fun hmem => ⟨_, ⟨hmem, rfl⟩, rfl⟩

/-- An index waits for one artifact. -/
theorem SlotPlan.Defers.unique (h : plan.Defers edges consumer admitted) {artifact artifact' : Text}
    (ha : (index, artifact) ∈ plan.deferredIndexes) (ha' : (index, artifact') ∈ plan.deferredIndexes) :
    artifact = artifact' :=
  congrArg Prod.snd (List.inj_on_of_nodup_map h.nodup ha ha' rfl)

/-- What a producer that was waited for and exited 0 permits. -/
theorem permitted_of_waited (hplan : plan.Defers edges consumer admitted)
    (h : s.Sound edges consumer artifactState admitted count) {artifact slot : Text} {producer : Nat}
    (hl : plan.artifactProducerIndex.lookup artifact = some producer)
    (hp : s.pid producer ≠ none) (h0 : s.exit producer = some 0)
    (hr : edges.slotRequiresArtifact (slotKey consumer slot) = artifact) :
    Permitted edges consumer artifactState slot s.log := by
  intro _
  obtain ⟨child, hchild⟩ := Option.ne_none_iff_exists'.1 hp
  obtain ⟨hstatus, hw⟩ := h.exit_waited producer child 0 hchild h0
  obtain ⟨slot', command, hlaunch⟩ := h.pid_launched producer child hchild
  obtain ⟨resolution, ha, _⟩ := h.history.launched _ _ _ _ hlaunch
  obtain ⟨made, resolution', ha', hmade⟩ := hplan.producer artifact producer hl
  cases Option.some.inj (ha.symm.trans ha')
  exact ⟨producer, slot', command, child, hlaunch, hstatus.symm, hw, hmade.trans hr.symm⟩

theorem releaseArtifact_running (hplan : plan.Describes admitted count)
    (hdefer : plan.Defers edges consumer admitted) {timeout artifact : Text} {s' : SlotState}
    (h : s.Running edges consumer artifactState admitted count [])
    (hu : ∀ index, (index, artifact) ∈ plan.deferredIndexes → s.Untouched index)
    (hr : releaseArtifact outcomes timeout plan s artifact = some s') :
    s'.Running edges consumer artifactState admitted count [] ∧
      ∀ index artifact', (index, artifact') ∈ plan.deferredIndexes → artifact' ≠ artifact →
        s.Untouched index → s'.Untouched index := by
  have hout : ∀ index artifact', (index, artifact') ∈ plan.deferredIndexes → artifact' ≠ artifact →
      index ∉ (plan.deferredIndexes.filter (·.2 = artifact)).map (·.1) :=
    fun index artifact' hmem hne hin =>
      hne (hdefer.unique hmem (mem_artifactIndexes.1 hin))
  have hin : ∀ index ∈ (plan.deferredIndexes.filter (·.2 = artifact)).map (·.1),
      s.Untouched index := fun index hi => hu index (mem_artifactIndexes.1 hi)
  have hnodup : ((plan.deferredIndexes.filter (·.2 = artifact)).map (·.1)).Nodup :=
    hdefer.nodup.sublist (List.filter_sublist.map _)
  rw [releaseArtifact] at hr
  generalize hindexes : (plan.deferredIndexes.filter (·.2 = artifact)).map (·.1) = indexes
    at hr hout hin hnodup
  -- The slots that wait are given up, before or after the wait for their producer.
  have hgive {code : Nat} {t : SlotState} (hc : code ≠ 0)
      (ht : t.Sound edges consumer artifactState admitted count) (hheld : t.Held)
      (htu : ∀ index ∈ indexes, t.Untouched index) :
      (setExits code indexes t).Running edges consumer artifactState admitted count [] ∧
        Advances indexes t (setExits code indexes t) := by
    obtain ⟨hsound, hheld', hadv⟩ := setExits_keeps _ hc ht hheld fun index hi => (htu index hi).1
    exact ⟨⟨hsound, hheld', .nil, nofun⟩, hadv⟩
  split at hr
  · cases hr
    exact ⟨h, fun _ _ _ _ hu => hu⟩
  · split at hr
    · cases hr
      obtain ⟨hrun, hadv⟩ := hgive Nat.one_ne_zero h.sound h.held hin
      exact ⟨hrun, fun index artifact' hmem hne hu' => hadv.untouched (hout _ _ hmem hne) hu'⟩
    · next producer hl =>
      split at hr
      · cases hr
        have hcode : (if s.exit producer = some slotNotRunExit then slotNotRunExit else 1) ≠ 0 := by
          split <;> decide
        obtain ⟨hrun, hadv⟩ := hgive hcode h.sound h.held hin
        exact ⟨hrun, fun index artifact' hmem hne hu' => hadv.untouched (hout _ _ hmem hne) hu'⟩
      · next hpid =>
        -- No slot that is untouched is the producer.
        have hwait := wait_advances producer s
        have hkeep : ∀ index, s.Untouched index →
            (waitParallelVerifyIndex producer s).Untouched index := by
          intro index hui
          refine hwait.untouched ?_ hui
          rw [List.mem_singleton]
          rintro rfl
          exact hpid hui.1
        have hsound : (waitParallelVerifyIndex producer s).Sound edges consumer artifactState admitted
            count := h.sound.wait
        have hsettled := wait_settles h.sound hpid
        dsimp only at hr
        split at hr
        · cases hr
          obtain ⟨hrun, hadv⟩ := hgive Nat.one_ne_zero hsound h.held.wait fun index hi =>
            hkeep index (hin index hi)
          exact ⟨hrun, fun index artifact' hmem hne hu' =>
            hadv.untouched (hout _ _ hmem hne) (hkeep index hu')⟩
        · next hready =>
          have h0 : (waitParallelVerifyIndex producer s).exit producer = some 0 := by
            obtain ⟨code, hcode⟩ := Option.ne_none_iff_exists'.1 hsettled
            rw [hcode, Option.getD_some, ne_eq, not_not] at hready
            rw [hcode, hready]
          have hpid' : (waitParallelVerifyIndex producer s).pid producer ≠ none := by
            rw [wait_pid]
            exact hpid
          obtain ⟨hrun, hadv⟩ := drain_running hplan
            ⟨hsound, h.held.wait, hnodup, fun index hi => by
              rw [← hindexes, mem_artifactIndexes] at hi
              obtain ⟨slot, resolution, ha, hreq⟩ := hdefer.required _ hi
              exact ⟨slot, resolution, ha, hkeep index (hu index hi),
                permitted_of_waited hdefer hsound hl hpid' h0 hreq⟩⟩ hr
          exact ⟨hrun, fun index artifact' hmem hne hu' =>
            hadv.untouched (hout _ _ hmem hne) (hkeep index hu')⟩

theorem releaseArtifacts_running (hplan : plan.Describes admitted count)
    (hdefer : plan.Defers edges consumer admitted) {timeout : Text} (artifacts : List Text)
    {s' : SlotState} (hnodup : artifacts.Nodup)
    (h : s.Running edges consumer artifactState admitted count [])
    (hu : ∀ index artifact, (index, artifact) ∈ plan.deferredIndexes → artifact ∈ artifacts →
      s.Untouched index)
    (hr : artifacts.foldlM (releaseArtifact outcomes timeout plan) s = some s') :
    s'.Running edges consumer artifactState admitted count [] := by
  induction artifacts generalizing s with
  | nil =>
    cases hr
    exact h
  | cons artifact artifacts ih =>
    rw [List.foldlM_cons] at hr
    obtain ⟨t, ht, hr⟩ := Option.bind_eq_some_iff.1 hr
    obtain ⟨hnot, hrest⟩ := List.nodup_cons.1 hnodup
    obtain ⟨hrun, hkeep⟩ := releaseArtifact_running hplan hdefer h
      (fun index hi => hu index artifact hi List.mem_cons_self) ht
    refine ih hrest hrun ?_ hr
    intro index artifact' hmem ha'
    refine hkeep index artifact' hmem ?_ (hu index artifact' hmem (List.mem_cons_of_mem _ ha'))
    rintro rfl
    exact hnot ha'

end Musi.Verify
