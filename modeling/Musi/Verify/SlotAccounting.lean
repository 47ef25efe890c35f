import Musi.Verify.SlotPlanning

namespace Musi.Verify
open Musi.Shell
set_option autoImplicit true

/-! ## Arrays written at one index -/

theorem getD_set_self {α : Type} {l : List α} {index : Nat} (h : index < l.length) (a d : α) :
    (l.set index a).getD index d = a := by
  rw [List.getD_eq_getElem?_getD, List.getElem?_set_self h, Option.getD_some]

theorem getD_set_ne {α : Type} (l : List α) {index other : Nat} (h : index ≠ other) (a d : α) :
    (l.set index a).getD other d = l.getD other d := by
  rw [List.getD_eq_getElem?_getD, List.getElem?_set_ne h, ← List.getD_eq_getElem?_getD]

theorem lt_of_getD {α : Type} {l : List (Option α)} {index : Nat} {a : α}
    (h : l.getD index none = some a) : index < l.length := by
  by_contra hge
  rw [List.getD_eq_default _ _ (Nat.le_of_not_lt hge)] at h
  exact absurd h nofun

theorem mem_of_getD {α : Type} {l : List (Option α)} {index : Nat} {a : α}
    (h : l.getD index none = some a) : some a ∈ l := by
  have hlt := lt_of_getD h
  rw [List.getD_eq_getElem _ _ hlt] at h
  exact h ▸ List.getElem_mem hlt

theorem getD_set_some {α : Type} {l : List (Option α)} {index other : Nat} {a b : α}
    (h : (l.set index (some a)).getD other none = some b) :
    other = index ∧ b = a ∨ other ≠ index ∧ l.getD other none = some b := by
  by_cases ho : index = other
  · subst ho
    have hlt := lt_of_getD h
    rw [List.length_set] at hlt
    rw [getD_set_self hlt] at h
    exact .inl ⟨rfl, (Option.some.inj h).symm⟩
  · rw [getD_set_ne _ ho] at h
    exact .inr ⟨Ne.symm ho, h⟩

/-! ## Reservations that a history leaves open -/

/-- A token that was taken for a slot and not given back since. -/
def Unreleased (index : Nat) (token : Token) : List SlotEvent → Prop
  | [] => False
  | event :: log =>
    event = .reserved index token ∨ event ≠ .released index token ∧ Unreleased index token log

theorem released_of_not_unreleased {index : Nat} {token : Token} {after : List SlotEvent}
    (before : List SlotEvent)
    (h : ¬Unreleased index token (after ++ .reserved index token :: before)) :
    .released index token ∈ after := by
  induction after with
  | nil => exact absurd (.inl rfl) h
  | cons event after ih =>
    rw [List.cons_append, Unreleased, not_or, not_and] at h
    by_cases he : event = .released index token
    · exact he ▸ List.mem_cons_self
    · exact List.mem_cons_of_mem _ (ih (h.2 he))

/-! ## Histories of a run -/

section History
variable (edges : ArtifactEdges) (consumer : Text) (artifactState : List (Text × Nat))
  (admitted : List (Text × Resolution))

/-- A slot that had to wait for its artifact may start once the producer was waited for and
exited 0. -/
def Permitted (slot : Text) (log : List SlotEvent) : Prop :=
  isDeferred edges consumer artifactState slot = true →
    ∃ producer slot' command child, .launched producer slot' command child ∈ log ∧
      child.status = 0 ∧ .waited producer 0 ∈ log ∧
      edges.slotProduces (slotKey consumer slot') =
        edges.slotRequiresArtifact (slotKey consumer slot)

/-- What may come next after a history. -/
def Allowed (log : List SlotEvent) : SlotEvent → Prop
  | .reserved _ _ => True
  | .launched index slot command _ =>
    (∃ resolution, admitted[index]? = some (slot, resolution) ∧ command = resolution.command) ∧
      (∀ slot' command' child', .launched index slot' command' child' ∉ log) ∧
      Permitted edges consumer artifactState slot log
  | .waited index code =>
    ∃ slot command child, .launched index slot command child ∈ log ∧ child.status = code
  | .released index token => .reserved index token ∈ log

def History : List SlotEvent → Prop
  | [] => True
  | event :: log => Allowed edges consumer artifactState admitted log event ∧ History log

/-! ## States of a run -/

/-- What holds of the arrays at every moment, for some number of recorded slots. -/
structure SlotState.Sound (count : Nat) (s : SlotState) : Prop where
  pids : s.stepPids.length = count
  exits : s.stepExits.length = count
  tokens : s.memoryTokens.length = admitted.length
  history : History edges consumer artifactState admitted s.log
  launched_pid : ∀ index slot command child, .launched index slot command child ∈ s.log →
    s.pid index = some child
  pid_launched : ∀ index child, s.pid index = some child →
    ∃ slot command, .launched index slot command child ∈ s.log
  exit_zero : ∀ index, s.exit index = some 0 → s.pid index ≠ none
  exit_waited : ∀ index child code, s.pid index = some child → s.exit index = some code →
    code = child.status ∧ .waited index code ∈ s.log
  token_pid : ∀ index token, s.token index = some token →
    s.pid index ≠ none ∧ .reserved index token ∈ s.log
  unreleased : ∀ index token, Unreleased index token s.log → s.token index = some token

end History

/-- A reservation is kept no longer than the slot runs. -/
def SlotState.Held (s : SlotState) : Prop := ∀ index, s.token index ≠ none → s.exit index = none

/-- Neither started nor given up. -/
def SlotState.Untouched (s : SlotState) (index : Nat) : Prop :=
  s.pid index = none ∧ s.exit index = none

/-- Only some indexes were written, and the history only grew. -/
structure Advances (indexes : List Nat) (s s' : SlotState) : Prop where
  log : s.log <:+ s'.log
  frame : ∀ other ∉ indexes, s'.pid other = s.pid other ∧ s'.exit other = s.exit other

theorem Advances.refl (indexes : List Nat) (s : SlotState) : Advances indexes s s :=
  ⟨List.suffix_refl _, fun _ _ => ⟨rfl, rfl⟩⟩

theorem Advances.trans {indexes : List Nat} {s t u : SlotState} (h : Advances indexes s t)
    (h' : Advances indexes t u) : Advances indexes s u :=
  ⟨h.log.trans h'.log, fun other ho =>
    ⟨(h'.frame other ho).1.trans (h.frame other ho).1,
      (h'.frame other ho).2.trans (h.frame other ho).2⟩⟩

theorem Advances.mono {indexes more : List Nat} {s t : SlotState} (h : Advances indexes s t)
    (hsub : indexes ⊆ more) : Advances more s t :=
  ⟨h.log, fun other ho => h.frame other fun hi => ho (hsub hi)⟩

theorem Advances.untouched {indexes : List Nat} {s t : SlotState} (h : Advances indexes s t)
    {other : Nat} (ho : other ∉ indexes) (hu : s.Untouched other) : t.Untouched other :=
  ⟨(h.frame other ho).1.trans hu.1, (h.frame other ho).2.trans hu.2⟩

theorem Permitted.mono {edges : ArtifactEdges} {consumer : Text} {artifactState : List (Text × Nat)}
    {slot : Text} {log log' : List SlotEvent}
    (h : Permitted edges consumer artifactState slot log) (hs : log <:+ log') :
    Permitted edges consumer artifactState slot log' := by
  intro hd
  obtain ⟨producer, slot', command, child, hl, h0, hw, hp⟩ := h hd
  exact ⟨producer, slot', command, child, hs.subset hl, h0, hs.subset hw, hp⟩

/-! ## A slot that is given up -/

section Operations
variable {edges : ArtifactEdges} {consumer : Text} {artifactState : List (Text × Nat)}
  {admitted : List (Text × Resolution)} {count index : Nat} {s : SlotState}

theorem exit_setExit {code other found : Nat} (h : (setExit index code s).exit other = some found) :
    other = index ∧ found = code ∨ other ≠ index ∧ s.exit other = some found :=
  getD_set_some h

theorem setExit_advances (index code : Nat) (s : SlotState) :
    Advances [index] s (setExit index code s) := by
  refine ⟨List.suffix_refl _, fun other ho => ⟨rfl, ?_⟩⟩
  exact getD_set_ne _ (fun he => ho (List.mem_singleton.2 he.symm)) _ _

theorem SlotState.Sound.setExit (h : s.Sound edges consumer artifactState admitted count)
    (hp : s.pid index = none) {code : Nat} (hc : code ≠ 0) :
    (setExit index code s).Sound edges consumer artifactState admitted count where
  pids := h.pids
  exits := by rw [Verify.setExit, List.length_set, h.exits]
  tokens := h.tokens
  history := h.history
  launched_pid := h.launched_pid
  pid_launched := h.pid_launched
  exit_zero := by
    intro other hz
    obtain ⟨_, h0⟩ | ⟨_, hold⟩ := exit_setExit hz
    · exact absurd h0.symm hc
    · exact h.exit_zero other hold
  exit_waited := by
    intro other child found hchild hf
    obtain ⟨rfl, _⟩ | ⟨_, hold⟩ := exit_setExit hf
    · exact absurd (hp.symm.trans hchild) nofun
    · exact h.exit_waited other child found hchild hold
  token_pid := h.token_pid
  unreleased := h.unreleased

theorem SlotState.Held.setExit (h : s.Held) (hs : s.Sound edges consumer artifactState admitted count)
    (hp : s.pid index = none) (code : Nat) : (setExit index code s).Held := by
  intro other ht
  obtain ⟨token, htoken⟩ := Option.ne_none_iff_exists'.1 ht
  have hne : index ≠ other := by
    rintro rfl
    exact (hs.token_pid _ _ htoken).1 hp
  exact (getD_set_ne _ hne _ _).trans (h other ht)

/-! ## A slot that is started -/

theorem launch_pid {plan : SlotPlan} {outcomes : Outcomes} {token : Token} {other : Nat}
    {child : Child} (h : (launch plan outcomes index token s).pid other = some child) :
    other = index ∧ child = outcomes.child index ∨ other ≠ index ∧ s.pid other = some child :=
  getD_set_some h

theorem launch_token {plan : SlotPlan} {outcomes : Outcomes} {token found : Token} {other : Nat}
    (h : (launch plan outcomes index token s).token other = some found) :
    other = index ∧ found = token ∨ other ≠ index ∧ s.token other = some found :=
  getD_set_some h

theorem launch_advances (plan : SlotPlan) (outcomes : Outcomes) (index : Nat) (token : Token)
    (s : SlotState) : Advances [index] s (launch plan outcomes index token s) := by
  refine ⟨(List.suffix_cons _ _).trans (List.suffix_cons _ _), fun other ho => ⟨?_, rfl⟩⟩
  exact getD_set_ne _ (fun he => ho (List.mem_singleton.2 he.symm)) _ _

theorem unreleased_launch {plan : SlotPlan} {outcomes : Outcomes} {token found : Token} {other : Nat} :
    Unreleased other found (launch plan outcomes index token s).log ↔
      other = index ∧ found = token ∨ Unreleased other found s.log := by
  simp only [launch, Unreleased, reduceCtorEq, false_or, ne_eq, not_false_eq_true, true_and,
    SlotEvent.reserved.injEq]
  exact or_congr_left (and_congr eq_comm eq_comm)

theorem SlotState.Sound.launch (h : s.Sound edges consumer artifactState admitted count)
    {plan : SlotPlan} {slot : Text} {resolution : Resolution}
    (hi : admitted[index]? = some (slot, resolution)) (hcount : admitted.length ≤ count)
    (hname : plan.stepNames.getD index [] = slot) (hcommand : plan.command index = resolution.command)
    (hu : s.Untouched index) (hperm : Permitted edges consumer artifactState slot s.log)
    (outcomes : Outcomes) (token : Token) :
    (Verify.launch plan outcomes index token s).Sound edges consumer artifactState admitted count := by
  have hlt : index < admitted.length := (List.getElem?_eq_some_iff.1 hi).1
  have hself : (Verify.launch plan outcomes index token s).pid index = some (outcomes.child index) := by
    exact getD_set_self (by rw [h.pids]; omega) _ _
  have hother : ∀ {other}, other ≠ index →
      (Verify.launch plan outcomes index token s).pid other = s.pid other := fun ho =>
    getD_set_ne _ (Ne.symm ho) _ _
  have hfresh : ∀ slot' command' child', .launched index slot' command' child' ∉ s.log := by
    intro slot' command' child' hl
    exact absurd (hu.1.symm.trans (h.launched_pid _ _ _ _ hl)) nofun
  exact
    { pids := by rw [Verify.launch, List.length_set, h.pids]
      exits := h.exits
      tokens := by rw [Verify.launch, List.length_set, h.tokens]
      history := by
        refine ⟨⟨⟨resolution, ?_, hcommand⟩, ?_, ?_⟩, trivial, h.history⟩
        · rw [hname, hi]
        · intro slot' command' child' hl
          exact hfresh slot' command' child' ((List.mem_cons.1 hl).resolve_left nofun)
        · rw [hname]
          exact hperm.mono (List.suffix_cons _ _)
      launched_pid := by
        intro other slot' command' child' hl
        rw [Verify.launch, List.mem_cons, List.mem_cons] at hl
        obtain heq | heq | hl := hl
        · cases heq
          exact hself
        · cases heq
        · have hold := h.launched_pid _ _ _ _ hl
          rw [hother, hold]
          rintro rfl
          exact absurd (hu.1.symm.trans hold) nofun
      pid_launched := by
        intro other child hp
        obtain ⟨rfl, rfl⟩ | ⟨_, hold⟩ := launch_pid hp
        · exact ⟨_, _, List.mem_cons_self⟩
        · obtain ⟨slot', command', hl⟩ := h.pid_launched other child hold
          exact ⟨slot', command', List.mem_cons_of_mem _ (List.mem_cons_of_mem _ hl)⟩
      exit_zero := by
        intro other hz
        have hold := h.exit_zero other hz
        rw [hother]
        · exact hold
        · rintro rfl
          exact hold hu.1
      exit_waited := by
        intro other child code hp hc
        obtain ⟨rfl, _⟩ | ⟨_, hold⟩ := launch_pid hp
        · exact absurd (hu.2.symm.trans hc) nofun
        · obtain ⟨hcode, hw⟩ := h.exit_waited other child code hold hc
          exact ⟨hcode, List.mem_cons_of_mem _ (List.mem_cons_of_mem _ hw)⟩
      token_pid := by
        intro other found ht
        obtain ⟨rfl, rfl⟩ | ⟨hne, hold⟩ := launch_token ht
        · exact ⟨by rw [hself]; nofun, List.mem_cons_of_mem _ List.mem_cons_self⟩
        · obtain ⟨hp, hr⟩ := h.token_pid other found hold
          exact ⟨by rw [hother hne]; exact hp, List.mem_cons_of_mem _ (List.mem_cons_of_mem _ hr)⟩
      unreleased := by
        intro other found hun
        obtain ⟨rfl, rfl⟩ | hold := unreleased_launch.1 hun
        · exact getD_set_self (by rw [h.tokens]; omega) _ _
        · have ht := h.unreleased other found hold
          have hne : other ≠ index := by
            rintro rfl
            exact (h.token_pid _ _ ht).1 hu.1
          exact (getD_set_ne _ (Ne.symm hne) _ _).trans ht }

theorem SlotState.Held.launch (h : s.Held) (hu : s.Untouched index) (plan : SlotPlan)
    (outcomes : Outcomes) (token : Token) : (Verify.launch plan outcomes index token s).Held := by
  intro other ht
  obtain ⟨found, hfound⟩ := Option.ne_none_iff_exists'.1 ht
  obtain ⟨rfl, _⟩ | ⟨_, hold⟩ := launch_token hfound
  · exact hu.2
  · exact h other (by rw [hold]; nofun)

/-! ## A slot that is waited for -/

theorem SlotState.Sound.recordWait (h : s.Sound edges consumer artifactState admitted count)
    {child : Child} (hp : s.pid index = some child) :
    (recordWait index child s).Sound edges consumer artifactState admitted count := by
  rw [Verify.recordWait]
  split
  · exact h
  · next hnone =>
    obtain ⟨slot, command, hl⟩ := h.pid_launched index child hp
    exact
      { pids := h.pids
        exits := by rw [List.length_set, h.exits]
        tokens := h.tokens
        history := ⟨⟨slot, command, child, hl, rfl⟩, h.history⟩
        launched_pid := fun other slot' command' child' hl' =>
          h.launched_pid other slot' command' child' ((List.mem_cons.1 hl').resolve_left nofun)
        pid_launched := by
          intro other child' hp'
          obtain ⟨slot', command', hl'⟩ := h.pid_launched other child' hp'
          exact ⟨slot', command', List.mem_cons_of_mem _ hl'⟩
        exit_zero := by
          intro other hz
          obtain ⟨rfl, _⟩ | ⟨_, hold⟩ := getD_set_some hz
          · change s.pid other ≠ none
            rw [hp]
            nofun
          · exact h.exit_zero other hold
        exit_waited := by
          intro other child' code hp' hc
          obtain ⟨rfl, rfl⟩ | ⟨_, hold⟩ := getD_set_some hc
          · cases Option.some.inj (hp.symm.trans hp')
            exact ⟨rfl, List.mem_cons_self⟩
          · obtain ⟨hcode, hw⟩ := h.exit_waited other child' code hp' hold
            exact ⟨hcode, List.mem_cons_of_mem _ hw⟩
        token_pid := by
          intro other token ht
          obtain ⟨hp', hr⟩ := h.token_pid other token ht
          exact ⟨hp', List.mem_cons_of_mem _ hr⟩
        unreleased := by
          rintro other token (heq | ⟨_, hun⟩)
          · cases heq
          · exact h.unreleased other token hun }

theorem SlotState.Sound.releaseToken (h : s.Sound edges consumer artifactState admitted count) :
    (releaseToken index s).Sound edges consumer artifactState admitted count := by
  rw [Verify.releaseToken]
  split
  · exact h
  · next token ht =>
    exact
      { pids := h.pids
        exits := h.exits
        tokens := by rw [List.length_set, h.tokens]
        history := ⟨(h.token_pid index token ht).2, h.history⟩
        launched_pid := fun other slot' command' child' hl' =>
          h.launched_pid other slot' command' child' ((List.mem_cons.1 hl').resolve_left nofun)
        pid_launched := by
          intro other child' hp'
          obtain ⟨slot', command', hl'⟩ := h.pid_launched other child' hp'
          exact ⟨slot', command', List.mem_cons_of_mem _ hl'⟩
        exit_zero := h.exit_zero
        exit_waited := by
          intro other child' code hp' hc
          obtain ⟨hcode, hw⟩ := h.exit_waited other child' code hp' hc
          exact ⟨hcode, List.mem_cons_of_mem _ hw⟩
        token_pid := by
          intro other found hf
          have hold : s.token other = some found := by
            by_cases ho : index = other
            · subst ho
              have hlt := lt_of_getD hf
              rw [List.length_set] at hlt
              rw [SlotState.token, getD_set_self hlt] at hf
              exact absurd hf nofun
            · rwa [SlotState.token, getD_set_ne _ ho] at hf
          obtain ⟨hp', hr⟩ := h.token_pid other found hold
          exact ⟨hp', List.mem_cons_of_mem _ hr⟩
        unreleased := by
          rintro other found (heq | ⟨hne, hun⟩)
          · cases heq
          · have hold := h.unreleased other found hun
            have ho : index ≠ other := by
              rintro rfl
              cases Option.some.inj (ht.symm.trans hold)
              exact hne rfl
            exact (getD_set_ne _ ho _ _).trans hold }

end Operations

end Musi.Verify
