import Mathlib.Data.List.Range
import Mathlib.Data.List.Perm.Subperm
import Musi.LintRatchet.Kernel.OneRatchet

namespace Musi.LintRatchet
open Musi.Js
set_option autoImplicit true

/-! ## The scheduler -/

structure RatchetEslintCollectionResult (N F : Type) where
  id : JsString
  ratchet : LintRatchetConfig N
  results : List F

/-- What the scheduler rejects with: its own configuration error, or the error of a collection. -/
inductive CollectionRejection (E : Type) where
  | configError (message : JsString)
  | collection (error : E)

/-- What the scheduler does: it starts a collection, or it settles its promise. -/
inductive SchedulerEffect (N F E : Type) where
  | collect (ratchetIndex : Nat) (ruleSourceHash : JsString)
  | resolveResults (results : List (Option (RatchetEslintCollectionResult N F)))
  | rejectResults (reason : CollectionRejection E)

/-- The variables that the callbacks of collectRatchets share, what it has done so far, and the
collections that have settled, with their outcomes. -/
structure CollectionState (N F E : Type) where
  results : List (Option (RatchetEslintCollectionResult N F)) := []
  started : List Nat := []
  active : Nat := 0
  completed : Nat := 0
  typeAwareInFlight : Nat := 0
  rejected : Bool := false
  effects : List (SchedulerEffect N F E) := []
  settled : List (Nat × Except E (List F)) := []

/-- An assignment to an index of a sparse array. -/
def storeAt (xs : List (Option α)) (i : Nat) (x : α) : List (Option α) :=
  (List.range (max xs.length (i + 1))).map fun j => if j = i then some x else xs[j]?.join

theorem length_storeAt {x : α} : (storeAt xs i x).length = max xs.length (i + 1) := by
  simp [storeAt]

theorem getElem_storeAt {x : α} {j : Nat} :
    (storeAt xs i x)[j]?.join = if j = i then some x else xs[j]?.join := by
  rcases lt_or_ge j (max xs.length (i + 1)) with hj | hj
  · simp [storeAt, List.getElem?_range hj]
  · have hi : j ≠ i := by omega
    have hx : xs.length ≤ j := by omega
    rw [if_neg hi, List.getElem?_eq_none hx, List.getElem?_eq_none (length_storeAt.trans_le hj)]

section Scheduler

variable {N F E : Type}

def isTypeAwareRatchet (ratchet : LintRatchetConfig N) : Bool :=
  ratchetParserProfile ratchet = .typeAwareTs

def nextRunnableRatchetIndex (ratchets : List (LintRatchetConfig N)) (started : List Nat)
    (typeAwareInFlight : Nat) : Option Nat :=
  (List.range ratchets.length).find? fun ratchetIndex =>
    ratchetIndex ∉ started &&
      match ratchets[ratchetIndex]? with
      | none => false
      | some ratchet => !(0 < typeAwareInFlight && isTypeAwareRatchet ratchet)

/-- The collection of an index is started; its callbacks run later. -/
def CollectionState.start (s : CollectionState N F E) (ratchetIndex : Nat)
    (ruleSourceHash : JsString) (typeAware : Bool) : CollectionState N F E :=
  { s with
    started := s.started ++ [ratchetIndex]
    active := s.active + 1
    typeAwareInFlight := if typeAware then s.typeAwareInFlight + 1 else s.typeAwareInFlight
    effects := s.effects ++ [.collect ratchetIndex ruleSourceHash] }

def CollectionState.reject (s : CollectionState N F E) (reason : CollectionRejection E) :
    CollectionState N F E :=
  { s with rejected := true, effects := s.effects ++ [.rejectResults reason] }

/-- The indices that no collection was started for. -/
def unstarted (ratchets : List (LintRatchetConfig N)) (started : List Nat) : List Nat :=
  (List.range ratchets.length).filter (· ∉ started)

theorem nextRunnableRatchetIndex_some {ratchets : List (LintRatchetConfig N)}
    (h : nextRunnableRatchetIndex ratchets started inFlight = some i) :
    i ∉ started ∧ ∃ ratchet, ratchets[i]? = some ratchet ∧
      (0 < inFlight → isTypeAwareRatchet ratchet = false) := by
  have hp := List.find?_some h
  simp only [Bool.and_eq_true, decide_eq_true_eq] at hp
  refine ⟨hp.1, ?_⟩
  cases hr : ratchets[i]? with
  | none => simp [hr] at hp
  | some ratchet =>
    refine ⟨ratchet, rfl, fun h0 => ?_⟩
    simpa [hr, h0] using hp.2

theorem nextRunnableRatchetIndex_none {ratchets : List (LintRatchetConfig N)}
    (h : nextRunnableRatchetIndex ratchets started 0 = none) (hi : i < ratchets.length) :
    i ∈ started := by
  have hp := List.find?_eq_none.1 h i (List.mem_range.2 hi)
  simpa [List.getElem?_eq_getElem hi] using hp

theorem length_unstarted_lt {ratchets : List (LintRatchetConfig N)}
    (h : nextRunnableRatchetIndex ratchets started inFlight = some i) :
    (unstarted ratchets (started ++ [i])).length < (unstarted ratchets started).length := by
  obtain ⟨hi, ratchet, hr, -⟩ := nextRunnableRatchetIndex_some h
  have hmem : i ∈ unstarted ratchets started := by
    simp [unstarted, hi, (List.getElem?_eq_some_iff.1 hr).1]
  have heq : unstarted ratchets (started ++ [i]) =
      (unstarted ratchets started).filter (· ≠ i) := by
    simp [unstarted, List.filter_filter, not_or, Bool.and_comm]
  rw [heq]
  exact List.length_filter_lt_length_iff_exists.2 ⟨i, hmem, by simp⟩

variable (ratchets : List (LintRatchetConfig N)) (ruleSourceHashesById : JsString → Option JsString)
  (limit : Nat)

/-- The loop of pump. The index that it finds is always the index of a ratchet. -/
def pumpLoop (s : CollectionState N F E) : CollectionState N F E :=
  if s.active < limit then
    match _h : nextRunnableRatchetIndex ratchets s.started s.typeAwareInFlight with
    | none => s
    | some ratchetIndex =>
      match ratchets[ratchetIndex]? with
      | none => s
      | some ratchet =>
        match ruleSourceHashesById ratchet.id with
        | none =>
          s.reject (.configError (js "lint:ratchet: missing rule source hash for " ++ ratchet.id))
        | some ruleSourceHash =>
          pumpLoop (s.start ratchetIndex ruleSourceHash (isTypeAwareRatchet ratchet))
  else s
termination_by (unstarted ratchets s.started).length
decreasing_by exact length_unstarted_lt _h

def pump (s : CollectionState N F E) : CollectionState N F E :=
  if s.rejected then s
  else if s.completed = ratchets.length then
    { s with effects := s.effects ++ [.resolveResults s.results] }
  else pumpLoop ratchets ruleSourceHashesById limit s

/-- The callbacks of one collection. -/
def settle (s : CollectionState N F E) (ratchetIndex : Nat) (outcome : Except E (List F)) :
    CollectionState N F E :=
  let s := { s with settled := s.settled ++ [(ratchetIndex, outcome)] }
  match ratchets[ratchetIndex]?, outcome with
  | none, _ => s
  | some _, .error error => s.reject (.collection error)
  | some ratchet, .ok results =>
    pump ratchets ruleSourceHashesById limit
      { s with
        results := storeAt s.results ratchetIndex { id := ratchet.id, ratchet, results }
        active := s.active - 1
        completed := s.completed + 1
        typeAwareInFlight :=
          if isTypeAwareRatchet ratchet then s.typeAwareInFlight - 1 else s.typeAwareInFlight }

/-- The indices of the collections that a list of effects starts. -/
def collected (effects : List (SchedulerEffect N F E)) : List Nat :=
  effects.filterMap fun
    | .collect ratchetIndex _ => some ratchetIndex
    | .resolveResults _ | .rejectResults _ => none

/-- The collections that were started and have not settled. -/
def CollectionState.inFlight (s : CollectionState N F E) : List Nat :=
  (collected s.effects).filter (· ∉ s.settled.map (·.1))

/-- The states of collectRatchets: after the first pump, and after each collection that settles.
Which one settles next, and how, is not the scheduler's choice. -/
inductive CollectionReachable : CollectionState N F E → Prop where
  | start : CollectionReachable (pump ratchets ruleSourceHashesById limit {})
  | settle {s : CollectionState N F E} {i : Nat} {outcome : Except E (List F)}
      (reached : CollectionReachable s) (member : i ∈ s.inFlight) :
      CollectionReachable (settle ratchets ruleSourceHashesById limit s i outcome)

/-! ## What every order of completions keeps -/

/-- The index of a ratchet whose collection is type-aware. -/
def typeAwareAt (ratchetIndex : Nat) : Bool :=
  match ratchets[ratchetIndex]? with
  | none => false
  | some ratchet => isTypeAwareRatchet ratchet

/-- No collection starts after a rejection. -/
def Quiet (effects : List (SchedulerEffect N F E)) : Prop :=
  ∀ before after, effects = before ++ after →
    (∃ reason, .rejectResults reason ∈ before) → collected after = []

/-- What holds of the bookkeeping at any time, rejected or not. -/
structure CollectionState.Safe (s : CollectionState N F E) : Prop where
  collected_eq : collected s.effects = s.started
  nodup : s.started.Nodup
  bound : ∀ i ∈ s.started, i < ratchets.length
  settledNodup : (s.settled.map (·.1)).Nodup
  settledStarted : ∀ i ∈ s.settled.map (·.1), i ∈ s.started
  inFlight_le : s.inFlight.length ≤ limit
  typeAware_le : (s.inFlight.filter (typeAwareAt ratchets)).length ≤ 1
  rejected_iff : s.rejected = true ↔ ∃ reason, .rejectResults reason ∈ s.effects
  quiet : Quiet s.effects

/-- What the counters and the results say while nothing was rejected. -/
structure CollectionState.Counted (s : CollectionState N F E) : Prop where
  active_eq : s.active = s.inFlight.length
  typeAware_eq : s.typeAwareInFlight = (s.inFlight.filter (typeAwareAt ratchets)).length
  completed_eq : s.completed = s.settled.length
  length_le : s.results.length ≤ ratchets.length
  stored : ∀ i outcome, (i, outcome) ∈ s.settled → ∃ ratchet files,
    ratchets[i]? = some ratchet ∧ outcome = .ok files ∧
      s.results[i]?.join = some { id := ratchet.id, ratchet, results := files }

def CollectionState.Pending (s : CollectionState N F E) : Prop :=
  ∀ results, .resolveResults results ∉ s.effects

/-- What every state between two callbacks satisfies. -/
structure CollectionState.Sound (s : CollectionState N F E) : Prop where
  safe : s.Safe ratchets limit
  counted : s.rejected = false → s.Counted ratchets
  resolved : ∀ results, .resolveResults results ∈ s.effects →
    s.rejected = false ∧ results = s.results ∧ s.settled.length = ratchets.length
  live : s.rejected = false → s.inFlight = [] → .resolveResults s.results ∈ s.effects

variable {ratchets : List (LintRatchetConfig N)} {limit : Nat} {s : CollectionState N F E}

@[simp] theorem collected_append : collected (es ++ fs : List (SchedulerEffect N F E)) =
    collected es ++ collected fs := List.filterMap_append

theorem Quiet.append {es fs : List (SchedulerEffect N F E)} (h : Quiet es)
    (hf : collected fs = []) : Quiet (es ++ fs) := by
  intro before after heq hreject
  rcases List.append_eq_append_iff.1 heq with ⟨c, rfl, rfl⟩ | ⟨c, rfl, rfl⟩
  · exact (List.append_eq_nil_iff.1 (collected_append ▸ hf)).2
  · rw [collected_append, h before c rfl hreject, hf]
    rfl

theorem Quiet.of_none {es : List (SchedulerEffect N F E)}
    (h : ∀ reason, .rejectResults reason ∉ es) : Quiet es := by
  intro before after heq ⟨reason, hreason⟩
  subst heq
  exact (h reason (List.mem_append_left _ hreason)).elim

theorem CollectionState.Safe.length_inFlight (h : s.Safe ratchets limit) :
    s.inFlight.length + s.settled.length = s.started.length := by
  have hperm : (s.started.filter (· ∈ s.settled.map (·.1))).Perm (s.settled.map (·.1)) := by
    refine (List.perm_ext_iff_of_nodup (h.nodup.filter _) h.settledNodup).2 fun i => ?_
    simp only [List.mem_filter, decide_eq_true_eq, and_iff_right_iff_imp]
    exact h.settledStarted i
  have hlen := hperm.length_eq
  rw [List.length_map] at hlen
  rw [← hlen, Nat.add_comm, CollectionState.inFlight, h.collected_eq]
  simpa using (List.length_eq_length_filter_add (l := s.started) (· ∈ s.settled.map (·.1))).symm

theorem CollectionState.Safe.started_le (h : s.Safe ratchets limit) :
    s.started.length ≤ ratchets.length := by
  have hsub : s.started.Subperm (List.range ratchets.length) :=
    List.subperm_of_subset h.nodup fun i hi => List.mem_range.2 (h.bound i hi)
  simpa using hsub.length_le

theorem CollectionState.Safe.inFlight_start {hash : JsString} (h : s.Safe ratchets limit)
    (hi : i ∉ s.started) : (s.start i hash typeAware).inFlight = s.inFlight ++ [i] := by
  have hs : i ∉ s.settled.map (·.1) := fun hm => hi (h.settledStarted i hm)
  change (collected (s.effects ++ [.collect i hash])).filter (· ∉ s.settled.map (·.1)) = _
  have hi' : [i].filter (fun j => j ∉ s.settled.map (·.1)) = [i] :=
    List.filter_eq_self.2 fun j hj => by simpa [List.mem_singleton.1 hj] using hs
  rw [collected_append, List.filter_append]
  exact congrArg _ hi'

/-- An effect that starts nothing leaves the collections in flight as they are. -/
theorem inFlight_of_effects {t : CollectionState N F E} (hs : t.settled = s.settled)
    (he : t.effects = s.effects ++ [effect]) (hf : collected [effect] = []) :
    t.inFlight = s.inFlight := by
  rw [CollectionState.inFlight, he, collected_append, hf, List.append_nil, hs]
  rfl

theorem typeAwareAt_of {ratchet : LintRatchetConfig N} (h : ratchets[i]? = some ratchet) :
    typeAwareAt ratchets i = isTypeAwareRatchet ratchet := by
  simp only [typeAwareAt, h]

/-- Starting a runnable collection keeps the bookkeeping. -/
theorem CollectionState.Safe.start (h : s.Safe ratchets limit) (hc : s.Counted ratchets)
    (hrejected : s.rejected = false) (hactive : s.active < limit)
    (hnext : nextRunnableRatchetIndex ratchets s.started s.typeAwareInFlight = some i)
    (hratchet : ratchets[i]? = some ratchet) (hash : JsString) :
    (s.start i hash (isTypeAwareRatchet ratchet)).Safe ratchets limit ∧
      (s.start i hash (isTypeAwareRatchet ratchet)).Counted ratchets := by
  obtain ⟨hi, r, hr, halone⟩ := nextRunnableRatchetIndex_some hnext
  obtain rfl : r = ratchet := Option.some.inj (hr.symm.trans hratchet)
  have hin : (s.start i hash (isTypeAwareRatchet r)).inFlight = _ := h.inFlight_start hi
  have hlen := hc.active_eq
  have haware := hc.typeAware_eq
  have hclean : ∀ reason, .rejectResults reason ∉ s.effects := fun reason hmem => by
    have := h.rejected_iff.2 ⟨reason, hmem⟩
    simp [hrejected] at this
  have hcount : (((s.start i hash (isTypeAwareRatchet r)).inFlight).filter
      (typeAwareAt ratchets)).length =
        if isTypeAwareRatchet r then s.typeAwareInFlight + 1 else s.typeAwareInFlight := by
    rw [hin, List.filter_append, List.length_append, ← haware, List.filter_singleton,
      typeAwareAt_of hr]
    cases isTypeAwareRatchet r <;> rfl
  constructor
  · constructor
    · change collected (s.effects ++ [.collect i hash]) = s.started ++ [i]
      rw [collected_append, h.collected_eq]
      rfl
    · refine List.nodup_append.2 ⟨h.nodup, List.nodup_singleton i, ?_⟩
      intro a ha b hb hab
      exact hi (List.mem_singleton.1 hb ▸ hab ▸ ha)
    · intro j hj
      rcases List.mem_append.1 hj with hj | hj
      · exact h.bound j hj
      · rw [List.mem_singleton.1 hj]
        exact (List.getElem?_eq_some_iff.1 hr).1
    · exact h.settledNodup
    · exact fun j hj => List.mem_append_left _ (h.settledStarted j hj)
    · rw [hin, List.length_append, List.length_singleton]
      omega
    · rw [hcount]
      split
      · next ht =>
        have hnone : ¬ 0 < s.typeAwareInFlight := fun h0 => by simp [halone h0] at ht
        omega
      · exact haware ▸ h.typeAware_le
    · simpa [CollectionState.start] using h.rejected_iff
    · apply Quiet.of_none
      intro reason hmem
      rcases List.mem_append.1 hmem with hmem | hmem
      · exact hclean reason hmem
      · simp at hmem
  · constructor
    · rw [hin, List.length_append, ← hlen]
      rfl
    · rw [hcount]
      rfl
    · exact hc.completed_eq
    · exact hc.length_le
    · exact hc.stored

theorem inFlight_reject {reason : CollectionRejection E} :
    (s.reject reason).inFlight = s.inFlight := inFlight_of_effects rfl rfl rfl

theorem CollectionState.Safe.reject (h : s.Safe ratchets limit) (reason : CollectionRejection E) :
    (s.reject reason).Safe ratchets limit where
  collected_eq := by
    change collected (s.effects ++ [.rejectResults reason]) = s.started
    rw [collected_append, h.collected_eq]
    exact List.append_nil _
  nodup := h.nodup
  bound := h.bound
  settledNodup := h.settledNodup
  settledStarted := h.settledStarted
  inFlight_le := by
    rw [inFlight_reject]
    exact h.inFlight_le
  typeAware_le := by
    rw [inFlight_reject]
    exact h.typeAware_le
  rejected_iff := by simp [CollectionState.reject]
  quiet := h.quiet.append rfl

theorem pumpLoop_limit (h : ¬ s.active < limit) : pumpLoop ratchets hashes limit s = s := by
  rw [pumpLoop, if_neg h]

theorem pumpLoop_start {hash : JsString} (hashes : JsString → Option JsString)
    (hactive : s.active < limit)
    (hnext : nextRunnableRatchetIndex ratchets s.started s.typeAwareInFlight = some i)
    (hratchet : ratchets[i]? = some ratchet) (hhash : hashes ratchet.id = some hash) :
    pumpLoop ratchets hashes limit s =
      pumpLoop ratchets hashes limit (s.start i hash (isTypeAwareRatchet ratchet)) := by
  rw [pumpLoop, if_pos hactive]
  split
  · next hnone => simp [hnext] at hnone
  · next j hsome =>
    obtain rfl : i = j := Option.some.inj (hnext.symm.trans hsome)
    simp only [hratchet, hhash]

variable (hashes) in
/-- The loop keeps the bookkeeping, and stops only when the limit is reached, when no collection
may start, or when it rejected. -/
theorem pumpLoop_spec (h : s.Safe ratchets limit) (hc : s.Counted ratchets)
    (hrejected : s.rejected = false) (hp : s.Pending) :
    ∀ t, pumpLoop ratchets hashes limit s = t →
      t.Safe ratchets limit ∧ t.Pending ∧ t.settled = s.settled ∧
        (t.rejected = false → t.Counted ratchets ∧
          (t.active < limit →
            nextRunnableRatchetIndex ratchets t.started t.typeAwareInFlight = none)) := by
  fun_induction pumpLoop ratchets hashes limit s with
  | case1 s hactive hnext =>
    rintro t rfl
    exact ⟨h, hp, rfl, fun _ => ⟨hc, fun _ => hnext⟩⟩
  | case2 s hactive i hnext hratchet =>
    obtain ⟨-, r, hr, -⟩ := nextRunnableRatchetIndex_some hnext
    simp [hratchet] at hr
  | case3 s hactive i hnext ratchet hratchet hhash =>
    rintro t rfl
    refine ⟨h.reject _, ?_, rfl, fun ht => by simp [CollectionState.reject] at ht⟩
    simpa [CollectionState.Pending, CollectionState.reject] using hp
  | case4 s hactive i hnext ratchet hratchet hash hhash ih =>
    obtain ⟨hsafe, hcounted⟩ := h.start hc hrejected hactive hnext hratchet hash
    refine ih hsafe hcounted hrejected ?_
    simpa [CollectionState.Pending, CollectionState.start] using hp
  | case5 s hactive =>
    rintro t rfl
    exact ⟨h, hp, rfl, fun _ => ⟨hc, fun ha => (hactive ha).elim⟩⟩

/-- With nothing in flight, a loop that did not reject leaves no collection to start. -/
theorem CollectionState.Safe.all_settled (h : s.Safe ratchets limit) (hc : s.Counted ratchets)
    (hlimit : 1 ≤ limit) (hidle : s.inFlight = [])
    (hstop : s.active < limit →
      nextRunnableRatchetIndex ratchets s.started s.typeAwareInFlight = none) :
    s.settled.length = ratchets.length := by
  have hactive := hc.active_eq
  have haware := hc.typeAware_eq
  have hlen := h.length_inFlight
  have hle := h.started_le
  rw [hidle] at hactive haware hlen
  simp only [List.length_nil, List.filter_nil] at hactive haware hlen
  have hnone := hstop (by omega)
  rw [haware] at hnone
  have hsub : (List.range ratchets.length).Subperm s.started :=
    List.subperm_of_subset List.nodup_range fun i hi =>
      nextRunnableRatchetIndex_none hnone (List.mem_range.1 hi)
  have := hsub.length_le
  simp only [List.length_range] at this
  omega

/-- The collection of an index has settled; its callbacks have not run yet. -/
def CollectionState.settledWith (s : CollectionState N F E) (i : Nat)
    (outcome : Except E (List F)) : CollectionState N F E :=
  { s with settled := s.settled ++ [(i, outcome)] }

theorem CollectionState.Safe.inFlight_settledWith (h : s.Safe ratchets limit)
    (outcome : Except E (List F)) : (s.settledWith i outcome).inFlight = s.inFlight.erase i := by
  have hnodup : s.inFlight.Nodup := (h.collected_eq ▸ h.nodup).filter _
  rw [hnodup.erase_eq_filter]
  change (collected s.effects).filter (· ∉ (s.settled ++ [(i, outcome)]).map (·.1)) = _
  rw [CollectionState.inFlight, List.filter_filter]
  refine List.filter_congr fun j _ => ?_
  rw [List.map_append, Bool.eq_iff_iff]
  simp [and_comm]

theorem CollectionState.Safe.settledWith (h : s.Safe ratchets limit) (hi : i ∈ s.inFlight)
    (outcome : Except E (List F)) : (s.settledWith i outcome).Safe ratchets limit := by
  have hin := h.inFlight_settledWith (i := i) outcome
  obtain ⟨hstarted, hnew⟩ := List.mem_filter.1 hi
  simp only [decide_eq_true_eq] at hnew
  refine ⟨h.collected_eq, h.nodup, h.bound, ?_, ?_, ?_, ?_, h.rejected_iff, h.quiet⟩
  · change ((s.settled ++ [(i, outcome)]).map (·.1)).Nodup
    rw [List.map_append]
    refine List.nodup_append.2 ⟨h.settledNodup, List.nodup_singleton i, ?_⟩
    intro a ha b hb hab
    obtain rfl : b = i := List.mem_singleton.1 hb
    exact hnew (hab ▸ ha)
  · intro j hj
    change j ∈ (s.settled ++ [(i, outcome)]).map (·.1) at hj
    rw [List.map_append] at hj
    rcases List.mem_append.1 hj with hj | hj
    · exact h.settledStarted j hj
    · obtain rfl : j = i := List.mem_singleton.1 hj
      exact h.collected_eq ▸ hstarted
  · rw [hin]
    exact List.length_erase_le.trans h.inFlight_le
  · rw [hin]
    exact ((List.erase_sublist.filter _).length_le).trans h.typeAware_le

/-- What pump leaves between two callbacks. -/
theorem pump_sound (h : s.Safe ratchets limit) (hc : s.rejected = false → s.Counted ratchets)
    (hp : s.Pending) (hlimit : 1 ≤ limit) :
    (pump ratchets hashes limit s).Sound ratchets limit := by
  unfold pump
  split
  · next hrejected =>
    refine ⟨h, hc, fun rs hrs => (hp rs hrs).elim, fun hfalse => ?_⟩
    simp [hrejected] at hfalse
  · next hrejected =>
    simp only [Bool.not_eq_true] at hrejected
    have hcounted := hc hrejected
    split
    · next hall =>
      have hin : ({ s with effects := s.effects ++ [.resolveResults s.results] } :
          CollectionState N F E).inFlight = s.inFlight := inFlight_of_effects rfl rfl rfl
      refine ⟨⟨?_, h.nodup, h.bound, h.settledNodup, h.settledStarted, hin ▸ h.inFlight_le,
        hin ▸ h.typeAware_le, ?_, h.quiet.append rfl⟩, fun _ => ?_, ?_, ?_⟩
      · change collected (s.effects ++ [.resolveResults s.results]) = s.started
        rw [collected_append, h.collected_eq]
        exact List.append_nil _
      · simpa using h.rejected_iff
      · exact ⟨hin ▸ hcounted.active_eq, hin ▸ hcounted.typeAware_eq, hcounted.completed_eq,
          hcounted.length_le, hcounted.stored⟩
      · intro rs hrs
        rcases List.mem_append.1 hrs with hrs | hrs
        · exact (hp rs hrs).elim
        · obtain rfl : rs = s.results := by simpa using hrs
          exact ⟨hrejected, rfl, hcounted.completed_eq.symm.trans hall⟩
      · exact fun _ _ => List.mem_append_right _ (List.mem_singleton.2 rfl)
    · next hall =>
      obtain ⟨hsafe, hpending, hsettled, hstop⟩ :=
        pumpLoop_spec hashes h hcounted hrejected hp _ rfl
      refine ⟨hsafe, fun ht => (hstop ht).1, fun rs hrs => (hpending rs hrs).elim, ?_⟩
      intro ht hidle
      have hdone := hsafe.all_settled (hstop ht).1 hlimit hidle (hstop ht).2
      rw [hsettled, ← hcounted.completed_eq] at hdone
      exact (hall hdone).elim

theorem CollectionState.Sound.pending_of_inFlight (h : s.Sound ratchets limit)
    (hi : i ∈ s.inFlight) : s.Pending := by
  intro results hresults
  obtain ⟨-, -, hall⟩ := h.resolved results hresults
  have hlen := h.safe.length_inFlight
  have hle := h.safe.started_le
  have hpos := List.length_pos_of_mem hi
  omega

/-- A completion takes its collection out of the counters and stores its result. -/
theorem CollectionState.Safe.counted_completion (h : s.Safe ratchets limit)
    (hc : s.Counted ratchets) (hi : i ∈ s.inFlight) (hratchet : ratchets[i]? = some ratchet)
    (files : List F) :
    ({ s.settledWith i (.ok files) with
        results := storeAt s.results i { id := ratchet.id, ratchet, results := files }
        active := s.active - 1
        completed := s.completed + 1
        typeAwareInFlight := if isTypeAwareRatchet ratchet then s.typeAwareInFlight - 1
          else s.typeAwareInFlight } : CollectionState N F E).Counted ratchets := by
  have hin := h.inFlight_settledWith (i := i) (.ok files)
  have hnodup : s.inFlight.Nodup := (h.collected_eq ▸ h.nodup).filter _
  have hnew : i ∉ s.settled.map (·.1) := by simpa using (List.mem_filter.1 hi).2
  refine ⟨?_, ?_, ?_, ?_, ?_⟩
  · exact (congrArg (· - 1) hc.active_eq).trans
      ((List.length_erase_of_mem hi).symm.trans (congrArg List.length hin.symm))
  · change _ = ((s.settledWith i (.ok files)).inFlight.filter (typeAwareAt ratchets)).length
    rw [hin, hnodup.erase_eq_filter, List.filter_comm, ← (hnodup.filter _).erase_eq_filter,
      hc.typeAware_eq]
    dsimp only
    rw [← typeAwareAt_of hratchet]
    split
    · next haware => rw [List.length_erase_of_mem (List.mem_filter.2 ⟨hi, haware⟩)]
    · next haware => rw [List.erase_of_not_mem fun hm => haware (List.mem_filter.1 hm).2]
  · simp [CollectionState.settledWith, hc.completed_eq]
  · have hlt := (List.getElem?_eq_some_iff.1 hratchet).1
    have := hc.length_le
    simp only [length_storeAt]
    omega
  · intro j outcome hj
    simp only [getElem_storeAt]
    rcases List.mem_append.1 hj with hj | hj
    · have hne : j ≠ i := fun he => hnew (he ▸ List.mem_map_of_mem (f := (·.1)) hj)
      simpa only [if_neg hne] using hc.stored j outcome hj
    · obtain ⟨rfl, rfl⟩ := Prod.mk.inj (List.mem_singleton.1 hj)
      exact ⟨ratchet, files, hratchet, rfl, if_pos rfl⟩

/-- One settlement keeps every state between two callbacks sound. -/
theorem CollectionState.Sound.settle (h : s.Sound ratchets limit) (hlimit : 1 ≤ limit)
    (hi : i ∈ s.inFlight) (outcome : Except E (List F)) :
    (settle ratchets hashes limit s i outcome).Sound ratchets limit := by
  have hpending := h.pending_of_inFlight hi
  have hsafe := h.safe.settledWith hi outcome
  have hbound := h.safe.bound i (h.safe.collected_eq ▸ (List.mem_filter.1 hi).1)
  have hratchet := List.getElem?_eq_getElem hbound
  unfold LintRatchet.settle
  rw [hratchet]
  cases outcome with
  | error error =>
    refine ⟨hsafe.reject _, fun ht => ?_, fun results hresults => ?_, fun ht => ?_⟩
    · simp [CollectionState.reject] at ht
    · rcases List.mem_append.1 hresults with hresults | hresults
      · exact (hpending results hresults).elim
      · simp at hresults
    · simp [CollectionState.reject] at ht
  | ok files =>
    refine pump_sound ⟨hsafe.collected_eq, hsafe.nodup, hsafe.bound, hsafe.settledNodup,
      hsafe.settledStarted, hsafe.inFlight_le, hsafe.typeAware_le, hsafe.rejected_iff,
      hsafe.quiet⟩ (fun hrejected => ?_) hpending hlimit
    exact h.safe.counted_completion (h.counted hrejected) hi hratchet files

theorem CollectionReachable.sound (h : CollectionReachable ratchets hashes limit s)
    (hlimit : 1 ≤ limit) : s.Sound ratchets limit := by
  induction h with
  | start =>
    refine pump_sound ?_ (fun _ => ?_) (by simp [CollectionState.Pending]) hlimit
    · refine ⟨rfl, List.nodup_nil, by simp, List.nodup_nil, by simp, Nat.zero_le _, Nat.zero_le _,
        by simp, Quiet.of_none (by simp)⟩
    · exact ⟨rfl, rfl, rfl, Nat.zero_le _, by simp⟩
  | settle reached member ih => exact ih.settle hlimit member _

/-- Safety and progress of the scheduler in every order of completions. -/
theorem collectRatchets_sound (hlimit : 1 ≤ limit)
    (h : CollectionReachable ratchets hashes limit s) :
    s.inFlight.length ≤ limit ∧
    (s.inFlight.filter (typeAwareAt ratchets)).length ≤ 1 ∧
    (collected s.effects).Nodup ∧
    (∀ before after, s.effects = before ++ after →
      (∃ reason, .rejectResults reason ∈ before) → collected after = []) ∧
    (∀ results, .resolveResults results ∈ s.effects →
      results.length = ratchets.length ∧
      ∀ i ratchet, ratchets[i]? = some ratchet → ∃ files, (i, .ok files) ∈ s.settled ∧
        results[i]? = some (some { id := ratchet.id, ratchet, results := files })) ∧
    ((∀ reason, .rejectResults reason ∉ s.effects) → s.inFlight = [] →
      (∀ i < ratchets.length, ∃ files, (i, .ok files) ∈ s.settled) ∧
        .resolveResults s.results ∈ s.effects) := by
  have hs := h.sound hlimit
  have hall (hlen : s.settled.length = ratchets.length) (i : Nat) (hi : i < ratchets.length) :
      i ∈ s.settled.map (·.1) := by
    have hsub : (s.settled.map (·.1)).Subperm (List.range ratchets.length) :=
      List.subperm_of_subset hs.safe.settledNodup fun j hj =>
        List.mem_range.2 (hs.safe.bound j (hs.safe.settledStarted j hj))
    exact (hsub.perm_of_length_le (by simp [hlen])).mem_iff.2 (List.mem_range.2 hi)
  have hdone (results : List (Option (RatchetEslintCollectionResult N F)))
      (hr : .resolveResults results ∈ s.effects) (i : Nat)
      (hi : i < ratchets.length) : ∃ ratchet files, ratchets[i]? = some ratchet ∧
        (i, .ok files) ∈ s.settled ∧
        results[i]?.join = some { id := ratchet.id, ratchet, results := files } := by
    obtain ⟨hrejected, rfl, hlen⟩ := hs.resolved results hr
    obtain ⟨⟨j, outcome⟩, hmem, rfl⟩ := List.mem_map.1 (hall hlen i hi)
    obtain ⟨ratchet, files, hratchet, rfl, hresult⟩ :=
      (hs.counted hrejected).stored j outcome hmem
    exact ⟨ratchet, files, hratchet, hmem, hresult⟩
  refine ⟨hs.safe.inFlight_le, hs.safe.typeAware_le, hs.safe.collected_eq ▸ hs.safe.nodup,
    hs.safe.quiet, fun results hr => ?_, fun hnone hidle => ?_⟩
  · have hle : results.length ≤ ratchets.length := by
      obtain ⟨hrejected, rfl, -⟩ := hs.resolved results hr
      exact (hs.counted hrejected).length_le
    constructor
    · refine Nat.le_antisymm hle (Nat.le_of_not_lt fun hlt => ?_)
      obtain ⟨ratchet, files, -, -, hresult⟩ := hdone results hr results.length hlt
      simp at hresult
    · intro i ratchet hratchet
      obtain ⟨r, files, hr', hmem, hresult⟩ :=
        hdone results hr i (List.getElem?_eq_some_iff.1 hratchet).1
      obtain rfl : r = ratchet := Option.some.inj (hr'.symm.trans hratchet)
      exact ⟨files, hmem, Option.join_eq_some_iff.1 hresult⟩
  · have hrejected : s.rejected = false := by
      rw [← Bool.not_eq_true, hs.safe.rejected_iff]
      exact fun ⟨reason, hreason⟩ => hnone reason hreason
    have hr := hs.live hrejected hidle
    refine ⟨fun i hi => ?_, hr⟩
    obtain ⟨-, files, -, hmem, -⟩ := hdone _ hr i hi
    exact ⟨files, hmem⟩

end Scheduler

/-- A registry of a type-aware ratchet and a plain one. -/
def mixedRatchets : List (LintRatchetConfig Numeral) :=
  [{ oneFileRatchet .messageCount with parserProfile := some .typeAwareTs },
    oneFileRatchet .messageCount]

/-- The collection of the second ratchet starts when that of the first, under a limit of one,
completes. -/
def afterFirstMixed : CollectionState Numeral Unit Unit :=
  settle mixedRatchets (fun _ => some zeroHash) 1
    (pump mixedRatchets (fun _ => some zeroHash) 1 {}) 0 (.ok [()])

theorem inFlight_firstMixed :
    (pump mixedRatchets (fun _ => some zeroHash) 1 {} : CollectionState Numeral Unit Unit).inFlight =
      [0] := by
  rw [pump, if_neg (by decide), if_neg (by decide),
    pumpLoop_start (fun _ => some zeroHash) (by decide)
      (rfl : nextRunnableRatchetIndex mixedRatchets [] 0 = some 0) rfl rfl,
    pumpLoop_limit (by decide)]
  rfl

theorem collectRatchets_sound_mixed :
    afterFirstMixed.inFlight.length ≤ 1 ∧ (collected afterFirstMixed.effects).Nodup :=
  have h := collectRatchets_sound (Nat.le_refl 1)
    (.settle .start (inFlight_firstMixed ▸ List.mem_singleton.2 rfl) : CollectionReachable
      mixedRatchets (fun _ => some zeroHash) 1 afterFirstMixed)
  ⟨h.1, h.2.2.1⟩

end Musi.LintRatchet
