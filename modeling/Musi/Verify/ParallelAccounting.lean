import Musi.Verify.SlotOutcomes

namespace Musi.Verify
open Musi.Shell
set_option autoImplicit true

variable {edges : ArtifactEdges} {consumer : Text} {artifactState : List (Text × Nat)}
  {admitted : List (Text × Resolution)} {count index : Nat} {s : SlotState} {outcomes : Outcomes}
  {plan : SlotPlan} {steps : List Text} {setting : Text} {run : ParallelRun}

/-! ## The end of a run -/

/-- What is left when every slot that was started has been waited for. -/
structure Finished (edges : ArtifactEdges) (consumer : Text) (artifactState : List (Text × Nat))
    (admitted : List (Text × Resolution)) (run : ParallelRun) : Prop where
  sound : run.slots.Sound edges consumer artifactState admitted run.plan.stepNames.length
  held : run.slots.Held
  settled : ∀ index, run.slots.pid index ≠ none → run.slots.exit index ≠ none

theorem run_finished
    (h : runParallelVerifySteps edges consumer outcomes setting steps = some run)
    (h0 : run.status = 0) :
    ∃ artifactState, steps.foldlM (probeArtifact edges consumer outcomes) [] = some artifactState ∧
      run.plan.stepNames =
        (admittedSteps outcomes steps ++ (unresolvedStep outcomes steps).toList).map (·.1) ∧
      Finished edges consumer artifactState (admittedSteps outcomes steps) run := by
  rw [runParallelVerifySteps] at h
  split at h
  · cases h
    exact absurd h0 nofun
  · next states hprobe =>
    obtain ⟨plan, hplan, hresolve⟩ :=
      resolveSteps_planned edges consumer outcomes states steps
    have hrc : ∀ step, unresolvedStep outcomes steps = some step → step.2.rc ≠ 0 :=
      fun step => unresolvedStep_rc
    have hnames : (refuseName (unresolvedStep outcomes steps) plan).stepNames =
        (admittedSteps outcomes steps ++ (unresolvedStep outcomes steps).toList).map (·.1) := by
      rw [refuseName, hplan.names, List.map_append]
    have hcount : (refuseName (unresolvedStep outcomes steps) plan).stepNames.length =
        (admittedSteps outcomes steps).length + (unresolvedStep outcomes steps).toList.length := by
      rw [hnames, List.length_map, List.length_append]
    have hstart := untouched_running hplan hrc
    have hdescribes := hplan.describes (unresolvedStep outcomes steps)
    have hdefers := hplan.defers (unresolvedStep outcomes steps)
    rw [hresolve] at h
    rw [← hcount] at hstart
    generalize hfinal : refuseName (unresolvedStep outcomes steps) plan = final
      at h hnames hstart hdescribes hdefers
    have hpending : final.pendingIndexes = plan.pendingIndexes := by rw [← hfinal]; rfl
    have hdeferred : final.deferredIndexes = plan.deferredIndexes := by rw [← hfinal]; rfl
    have horder : final.deferredArtifactOrder = plan.deferredArtifactOrder := by rw [← hfinal]; rfl
    rw [← hpending] at hstart
    obtain ⟨s₁, hdrain, h⟩ := Option.bind_eq_some_iff.1 h
    obtain ⟨s₂, hrelease, h⟩ := Option.bind_eq_some_iff.1 h
    cases h
    obtain ⟨hrun₁, hadv⟩ := drain_running hdescribes hstart hdrain
    have hrun₂ := releaseArtifacts_running hdescribes hdefers _ (horder ▸ hplan.ordered) hrun₁
      (fun index artifact hmem _ => by
        obtain ⟨slot, resolution, ha, _⟩ := hdefers.required _ hmem
        rw [hdeferred] at hmem
        refine hadv.untouched ?_ (untouched_of_lt (List.getElem?_eq_some_iff.1 ha).1)
        rw [hpending]
        exact pending_disjoint hplan hmem) hrelease
    obtain ⟨hsound, hheld⟩ :=
      waitAll_sound (List.range final.stepNames.length) hrun₂.sound hrun₂.held
    refine ⟨states, hprobe, hnames, hsound, hheld, ?_⟩
    intro index hp
    rw [waitAll_pid] at hp
    obtain ⟨child, hchild⟩ := Option.ne_none_iff_exists'.1 hp
    refine waitAll_settles _ hrun₂.sound hrun₂.held ?_ hp
    rw [List.mem_range, ← hrun₂.sound.pids]
    exact lt_of_getD hchild

/-! ## Verdicts -/

/-- The slots of one verdict, in the order of the arrays. -/
def verdictSlots (plan : SlotPlan) (s : SlotState) (indexes : List Nat) (verdict : Verdict) :
    List Text :=
  (indexes.filter fun index => slotVerdict s index = verdict).map (plan.stepNames.getD · [])

theorem gateSteps_eq (plan : SlotPlan) (s : SlotState) (indexes : List Nat) (gate : GateResult) :
    indexes.foldl (gateStep plan s) gate =
      { passed := gate.passed ++ verdictSlots plan s indexes .passed
        failed := gate.failed ++ verdictSlots plan s indexes .failed
        notRun := gate.notRun ++ verdictSlots plan s indexes .notRun } := by
  induction indexes generalizing gate with
  | nil => simp [verdictSlots]
  | cons index indexes ih =>
    rw [List.foldl_cons, ih, gateStep]
    cases hv : slotVerdict s index <;> simp [verdictSlots, hv]

theorem aggregateSlots_eq (plan : SlotPlan) (s : SlotState) :
    aggregateSlots plan s =
      { passed := verdictSlots plan s (List.range plan.stepNames.length) .passed
        failed := verdictSlots plan s (List.range plan.stepNames.length) .failed
        notRun := verdictSlots plan s (List.range plan.stepNames.length) .notRun } := by
  rw [aggregateSlots, gateSteps_eq]
  rfl

theorem verdictSlots_perm (plan : SlotPlan) (s : SlotState) (indexes : List Nat) :
    (verdictSlots plan s indexes .passed ++ verdictSlots plan s indexes .failed ++
      verdictSlots plan s indexes .notRun).Perm (indexes.map (plan.stepNames.getD · [])) := by
  induction indexes with
  | nil => exact .nil
  | cons index indexes ih =>
    have hfront := ih.cons (plan.stepNames.getD index [])
    cases hv : slotVerdict s index with
    | passed => simpa [verdictSlots, hv] using ih
    | failed =>
      refine List.Perm.trans ?_ hfront
      simp [verdictSlots, hv]
    | notRun =>
      refine List.Perm.trans ?_ hfront
      simp only [verdictSlots, List.filter_cons, hv, decide_true, decide_false, if_true, if_false,
        List.map_cons, reduceCtorEq, Bool.false_eq_true]
      exact List.perm_middle

theorem map_getD_range (names : List Text) :
    (List.range names.length).map (names.getD · []) = names := by
  refine List.ext_getElem (by simp) fun index h _ => ?_
  rw [List.length_map, List.length_range] at h
  rw [List.getElem_map, List.getElem_range, List.getD_eq_getElem _ _ h]

theorem slotVerdict_passed : slotVerdict s index = .passed ↔ s.exit index = some 0 := by
  have hne : ∀ held : Bool, (if held then Verdict.notRun else Verdict.failed) ≠ .passed := by decide
  rw [slotVerdict]
  cases s.exit index with
  | none =>
    rw [Option.getD_none, if_neg Nat.one_ne_zero]
    exact iff_of_false (hne _) nofun
  | some code =>
    rw [Option.getD_some, Option.some.injEq]
    split
    · next hc => exact iff_of_true rfl hc
    · next hc => exact iff_of_false (hne _) hc

/-- Green means that the slot's own command ran and exited 0. -/
theorem Finished.passed_iff (h : Finished edges consumer artifactState admitted run) {slot : Text}
    {resolution : Resolution} (ha : admitted[index]? = some (slot, resolution)) :
    slotVerdict run.slots index = .passed ↔
      ∃ child, .launched index slot resolution.command child ∈ run.slots.log ∧ child.status = 0 := by
  rw [slotVerdict_passed]
  constructor
  · intro h0
    obtain ⟨child, hchild⟩ := Option.ne_none_iff_exists'.1 (h.sound.exit_zero index h0)
    obtain ⟨slot', command, hl⟩ := h.sound.pid_launched index child hchild
    obtain ⟨resolution', ha', rfl⟩ := h.sound.history.launched _ _ _ _ hl
    cases Option.some.inj (ha.symm.trans ha')
    exact ⟨child, hl, (h.sound.exit_waited index child 0 hchild h0).1.symm⟩
  · rintro ⟨child, hl, h0⟩
    have hchild := h.sound.launched_pid _ _ _ _ hl
    obtain ⟨code, hcode⟩ := Option.ne_none_iff_exists'.1
      (h.settled index (by rw [hchild]; nofun))
    rw [hcode, (h.sound.exit_waited index child code hchild hcode).1, h0]

theorem Finished.not_passed (h : Finished edges consumer artifactState admitted run)
    (hi : admitted.length ≤ index) : slotVerdict run.slots index ≠ .passed := by
  intro hv
  obtain ⟨child, hchild⟩ := Option.ne_none_iff_exists'.1
    (h.sound.exit_zero index (slotVerdict_passed.1 hv))
  obtain ⟨slot, command, hl⟩ := h.sound.pid_launched index child hchild
  obtain ⟨resolution, ha, _⟩ := h.sound.history.launched _ _ _ _ hl
  exact Nat.not_lt.2 hi (List.getElem?_eq_some_iff.1 ha).1

/-! ## Starts and reservations -/

/-- The index of a start. -/
def startedIndex : SlotEvent → Option Nat
  | .launched index _ _ _ => some index
  | _ => none

/-- The index of a start of a slot of some name. -/
def startedAs (slot : Text) : SlotEvent → Option Nat
  | .launched index slot' _ _ => if slot' = slot then some index else none
  | _ => none

theorem startedIndex_eq_some {event : SlotEvent} (h : startedIndex event = some index) :
    ∃ slot command child, event = .launched index slot command child := by
  cases event with
  | launched index' slot command child =>
    cases h
    exact ⟨slot, command, child, rfl⟩
  | reserved | waited | released => cases h

theorem startedAs_eq_some {event : SlotEvent} {slot : Text} (h : startedAs slot event = some index) :
    ∃ command child, event = .launched index slot command child := by
  cases event with
  | launched index' slot' command child =>
    rw [startedAs] at h
    split at h
    · next heq =>
      cases h
      exact ⟨command, child, by rw [heq]⟩
    · cases h
  | reserved | waited | released => cases h

theorem History.nodup_starts {log : List SlotEvent} {f : SlotEvent → Option Nat}
    (h : History edges consumer artifactState admitted log)
    (hf : ∀ event index, f event = some index → startedIndex event = some index) :
    (log.filterMap f).Nodup := by
  induction log with
  | nil => exact .nil
  | cons event log ih =>
    rw [List.filterMap_cons]
    split
    · exact ih h.2
    · next index hindex =>
      refine List.nodup_cons.2 ⟨fun hmem => ?_, ih h.2⟩
      obtain ⟨earlier, hearlier, hsame⟩ := List.mem_filterMap.1 hmem
      obtain ⟨slot, command, child, rfl⟩ := startedIndex_eq_some (hf _ _ hindex)
      obtain ⟨slot', command', child', rfl⟩ := startedIndex_eq_some (hf _ _ hsame)
      exact h.1.2.1 _ _ _ hearlier

/-- Indexes that all carry one name are no more than its occurrences. -/
theorem length_le_count {names : List Text} {slot : Text} {indexes : List Nat}
    (hn : indexes.Nodup) (h : ∀ index ∈ indexes, names[index]? = some slot) :
    indexes.length ≤ names.count slot := by
  have hsub : indexes ⊆ (names.zipIdx.filter fun entry => entry.1 == slot).map (·.2) := by
    intro index hi
    refine List.mem_map.2 ⟨(slot, index), List.mem_filter.2 ⟨?_, beq_self_eq_true _⟩, rfl⟩
    exact List.mk_mem_zipIdx_iff_getElem?.2 (h index hi)
  have hle := (hn.subperm hsub).length_le
  rw [List.length_map, ← List.countP_eq_length_filter] at hle
  refine hle.trans (le_of_eq ?_)
  conv_rhs => rw [← List.zipIdx_map_fst 0 names, List.count, List.countP_map]
  rfl

theorem admittedSteps_names (outcomes : Outcomes) (steps : List Text) :
    List.Sublist ((admittedSteps outcomes steps).map (·.1)) steps := by
  have hsub : List.Sublist (admittedSteps outcomes steps)
      (steps.zipIdx.map fun step => (step.1, outcomes.resolve step.2)) :=
    (List.takeWhile_sublist _).trans List.filter_sublist
  have hmap := hsub.map (·.1)
  rw [List.map_map] at hmap
  change List.Sublist _ (steps.zipIdx.map Prod.fst) at hmap
  rwa [List.zipIdx_map_fst] at hmap

theorem Finished.released (h : Finished edges consumer artifactState admitted run) {token : Token}
    {after before : List SlotEvent}
    (hlog : run.slots.log = after ++ .reserved index token :: before) :
    .released index token ∈ after := by
  refine released_of_not_unreleased before fun hopen => ?_
  rw [← hlog] at hopen
  have ht := h.sound.unreleased _ _ hopen
  exact h.settled index (h.sound.token_pid _ _ ht).1 (h.held index (by rw [ht]; nofun))

theorem Finished.producer_first (h : Finished edges consumer artifactState admitted run)
    {slot : Text} {command : List Text} {child : Child} {after before : List SlotEvent}
    (hlog : run.slots.log = after ++ .launched index slot command child :: before)
    (hd : isDeferred edges consumer artifactState slot = true) :
    ∃ producer slot' command' child', .launched producer slot' command' child' ∈ before ∧
      child'.status = 0 ∧ .waited producer 0 ∈ before ∧
      edges.slotProduces (slotKey consumer slot') =
        edges.slotRequiresArtifact (slotKey consumer slot) := by
  have hhistory := h.sound.history
  rw [hlog] at hhistory
  exact hhistory.allowed.2.2 hd

/-! ## The accounting of a run -/

/-- What a run leaves in the outcome arrays, what the gate makes of them, and what its history
shows. -/
structure Accounted (edges : ArtifactEdges) (consumer : Text) (outcomes : Outcomes)
    (steps : List Text) (run : ParallelRun) : Prop where
  /-- The slots before the first resolution error that are not skipped, each once, and then the
  one of the error. -/
  recorded : run.plan.stepNames =
    (admittedSteps outcomes steps ++ (unresolvedStep outcomes steps).toList).map (·.1)
  pids : run.slots.stepPids.length = run.plan.stepNames.length
  exits : run.slots.stepExits.length = run.plan.stepNames.length
  classified : ((aggregateSlots run.plan run.slots).passed ++
    (aggregateSlots run.plan run.slots).failed ++
      (aggregateSlots run.plan run.slots).notRun).Perm run.plan.stepNames
  verdicts : aggregateSlots run.plan run.slots =
    { passed := verdictSlots run.plan run.slots (List.range run.plan.stepNames.length) .passed
      failed := verdictSlots run.plan run.slots (List.range run.plan.stepNames.length) .failed
      notRun := verdictSlots run.plan run.slots (List.range run.plan.stepNames.length) .notRun }
  passed : ∀ index slot resolution, (admittedSteps outcomes steps)[index]? = some (slot, resolution) →
    (slotVerdict run.slots index = .passed ↔
      ∃ child, .launched index slot resolution.command child ∈ run.slots.log ∧ child.status = 0)
  unresolved : ∀ index, (admittedSteps outcomes steps).length ≤ index →
    slotVerdict run.slots index ≠ .passed
  launched : ∀ index slot command child, .launched index slot command child ∈ run.slots.log →
    ∃ resolution, (admittedSteps outcomes steps)[index]? = some (slot, resolution) ∧
      command = resolution.command
  producerFirst : ∀ index slot command child after before,
    run.slots.log = after ++ .launched index slot command child :: before →
    edges.slotRequiresArtifact (slotKey consumer slot) ≠ [] →
    outcomes.probe (edges.slotRequiresArtifact (slotKey consumer slot)) ≠ 0 →
      ∃ producer slot' command' child', .launched producer slot' command' child' ∈ before ∧
        child'.status = 0 ∧ .waited producer 0 ∈ before ∧
        edges.slotProduces (slotKey consumer slot') =
          edges.slotRequiresArtifact (slotKey consumer slot)
  launchedOnce : (run.slots.log.filterMap startedIndex).Nodup
  launchedOnceAs : ∀ slot, (run.slots.log.filterMap (startedAs slot)).length ≤ steps.count slot
  released : ∀ index token after before,
    run.slots.log = after ++ .reserved index token :: before → .released index token ∈ after

/-- Whatever the slots resolve to, whatever the probes, the memory admission and the children
come to, a run that returns 0 accounts for every slot. -/
theorem runParallelVerifySteps_accounted (edges : ArtifactEdges) (consumer : Text)
    (outcomes : Outcomes) (setting : Text) (steps : List Text) (run : ParallelRun)
    (h : runParallelVerifySteps edges consumer outcomes setting steps = some run)
    (h0 : run.status = 0) : Accounted edges consumer outcomes steps run := by
  obtain ⟨artifactState, hprobe, hnames, hfinished⟩ := run_finished h h0
  have hverdicts := aggregateSlots_eq run.plan run.slots
  have hown := fun index slot command child =>
    hfinished.sound.history.launched index slot command child
  exact
    { recorded := hnames
      pids := hfinished.sound.pids
      exits := hfinished.sound.exits
      classified := by
        rw [hverdicts]
        have hperm := verdictSlots_perm run.plan run.slots (List.range run.plan.stepNames.length)
        rwa [map_getD_range] at hperm
      verdicts := hverdicts
      passed := fun _ _ _ => hfinished.passed_iff
      unresolved := fun _ => hfinished.not_passed
      launched := hown
      producerFirst := by
        intro index slot command child after before hlog hne hmissing
        refine hfinished.producer_first hlog (isDeferred_of_missing hprobe ?_ hne hmissing)
        obtain ⟨resolution, ha, _⟩ := hown index slot command child (by rw [hlog]; simp)
        exact (admittedSteps_names outcomes steps).subset
          (List.mem_of_getElem? (getElem?_map_names ha))
      launchedOnce := hfinished.sound.history.nodup_starts fun _ _ => id
      launchedOnceAs := by
        intro slot
        have hnodup := hfinished.sound.history.nodup_starts (f := startedAs slot) fun event index he => by
          obtain ⟨command, child, rfl⟩ := startedAs_eq_some he
          rfl
        refine (length_le_count hnodup ?_).trans ((admittedSteps_names outcomes steps).count_le slot)
        intro index hi
        obtain ⟨event, hevent, he⟩ := List.mem_filterMap.1 hi
        obtain ⟨command, child, rfl⟩ := startedAs_eq_some he
        obtain ⟨resolution, ha, _⟩ := hown _ _ _ _ hevent
        exact getElem?_map_names ha
      released := fun _ _ _ _ => hfinished.released }

/-- A slot that waits for an artifact, the slot that makes it, one that is skipped and one that
does not resolve. -/
def builtFirst : Outcomes where
  resolve
    | 0 => { rc := 0, command := [sh "vitest"] }
    | 1 => { rc := slotSkipRc, command := [] }
    | 2 => { rc := 0, command := [sh "tsc", sh "-b"] }
    | _ => { rc := 2, command := [] }
  probe _ := 1
  child index := { pid := 40 + index, status := 0 }
  memory
    | none =>
      { start := 0
        rounds := [{ reserve := fun _ => .deferred, now := 2 },
          { reserve := fun _ => .granted ⟨7, sh "typecheck", sh "a"⟩, now := 4 }] }
    | some _ =>
      { start := 9, rounds := [{ reserve := fun _ => .granted ⟨7, sh "test", sh "b"⟩, now := 9 }] }

def builtEdges : ArtifactEdges where
  slotRequiresArtifact key := if key = sh "verify:test" then sh "build" else []
  slotProduces key := if key = sh "verify:typecheck" then sh "build" else []

def builtSteps : List Text := [sh "test", sh "scripts", sh "typecheck", sh "lint", sh "e2e"]

theorem builtRun_returns :
    (runParallelVerifySteps builtEdges (sh "verify") builtFirst [] builtSteps).isSome = true := by
  decide +kernel

def builtRun : ParallelRun :=
  (runParallelVerifySteps builtEdges (sh "verify") builtFirst [] builtSteps).get builtRun_returns

theorem runParallelVerifySteps_accounted_built :
    Accounted builtEdges (sh "verify") builtFirst builtSteps builtRun ∧
      (aggregateSlots builtRun.plan builtRun.slots).passed = [sh "test", sh "typecheck"] ∧
      (aggregateSlots builtRun.plan builtRun.slots).failed = [sh "lint"] ∧
      (aggregateSlots builtRun.plan builtRun.slots).notRun = [] :=
  ⟨runParallelVerifySteps_accounted builtEdges (sh "verify") builtFirst [] builtSteps builtRun
      (Option.some_get builtRun_returns).symm (by decide +kernel),
    by decide +kernel, by decide +kernel, by decide +kernel⟩

end Musi.Verify
