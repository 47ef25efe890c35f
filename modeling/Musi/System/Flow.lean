import Mathlib.Data.List.Dedup
import Mathlib.Logic.Relation

namespace Musi.System
set_option autoImplicit true

/-! ## Flows -/

/-- What is left of a program when its values are forgotten: marks, ends, and what follows an end.
A loop goes round until a turn ends in what `next` gives a completion for. -/
inductive Flow (α κ : Type)
  | done (c : κ)
  | emit (a : α) (c : κ)
  | andThen (f : Flow α κ) (k : κ → Flow α κ)
  | either (f g : Flow α κ)
  | loop (next : κ → Option κ) (f : Flow α κ)

/-- The runs that end, with the marks they leave. -/
inductive Flow.Runs : Flow α κ → List α → κ → Prop
  | done : Runs (.done c) [] c
  | emit : Runs (.emit a c) [a] c
  | andThen (hf : Runs f t c) (hk : Runs (k c) u d) : Runs (.andThen f k) (t ++ u) d
  | left (hf : Runs f t c) : Runs (.either f g) t c
  | right (hg : Runs g t c) : Runs (.either f g) t c
  | leave (hf : Runs f t c) (hnext : next c = some d) : Runs (.loop next f) t d
  | again (hf : Runs f t c) (hnext : next c = none) (hloop : Runs (.loop next f) u d) :
      Runs (.loop next f) (t ++ u) d

/-! ## Monitors -/

/-- A finite automaton over the marks that leaves a state for good when it leaves it. -/
structure Monitor (α σ : Type) where
  step : σ → α → σ
  rank : σ → Nat
  bound : Nat
  step_rises : ∀ s a, step s a = s ∨ rank s < rank (step s a)
  rank_le : ∀ s, rank s ≤ bound

namespace Monitor
variable (m : Monitor α σ)

def watch (s : σ) (t : List α) : σ := t.foldl m.step s

@[simp] theorem watch_nil (s : σ) : m.watch s [] = s := rfl

@[simp] theorem watch_cons (s : σ) (a : α) (t : List α) :
    m.watch s (a :: t) = m.watch (m.step s a) t := rfl

@[simp] theorem watch_append (s : σ) (t u : List α) :
    m.watch s (t ++ u) = m.watch (m.watch s t) u := List.foldl_append

theorem watch_rises (s : σ) (t : List α) : m.watch s t = s ∨ m.rank s < m.rank (m.watch s t) := by
  induction t generalizing s with
  | nil => exact .inl rfl
  | cons a t ih =>
    rw [watch_cons]
    rcases m.step_rises s a with hstep | hstep
    · rw [hstep]
      exact ih s
    · rcases ih (m.step s a) with hrest | hrest
      · rw [hrest]
        exact .inr hstep
      · exact .inr (Nat.lt_trans hstep hrest)

end Monitor

/-! ## The analysis of a flow -/

section heads
variable [DecidableEq σ]

/-- The states at the head of a loop after at most so many turns. -/
def heads (turn : σ → List σ) : Nat → σ → List σ
  | 0, s => [s]
  | n + 1, s => (s :: (turn s).flatMap (heads turn n)).dedup

variable {turn : σ → List σ}

theorem self_mem_heads (n : Nat) (s : σ) : s ∈ heads turn n s := by
  cases n with
  | zero => exact List.mem_cons_self
  | succ n => exact List.mem_dedup.2 List.mem_cons_self

theorem reaches_of_mem_heads {n : Nat} {s s' : σ} (h : s' ∈ heads turn n s) :
    Relation.ReflTransGen (fun a b => b ∈ turn a) s s' := by
  induction n generalizing s with
  | zero =>
    rw [heads, List.mem_singleton] at h
    rw [h]
  | succ n ih =>
    rw [heads, List.mem_dedup, List.mem_cons, List.mem_flatMap] at h
    rcases h with rfl | ⟨middle, hturn, hrest⟩
    · exact .refl
    · exact .head hturn (ih hrest)

/-- As every turn that changes the state raises it, few turns reach every head. -/
theorem mem_heads_of_reaches (m : Monitor α σ) (hturn : ∀ {a b}, b ∈ turn a → b = a ∨ m.rank a < m.rank b)
    {s s' : σ} (h : Relation.ReflTransGen (fun a b => b ∈ turn a) s s') {n : Nat}
    (hn : m.bound ≤ n + m.rank s) : s' ∈ heads turn n s := by
  induction h using Relation.ReflTransGen.head_induction_on generalizing n with
  | refl => exact self_mem_heads n s'
  | @head a b hab _ ih =>
    rcases hturn hab with rfl | hrise
    · exact ih hn
    · have hbound := m.rank_le b
      cases n with
      | zero => omega
      | succ n =>
        have hrest : s' ∈ heads turn n b := ih (by omega)
        rw [heads, List.mem_dedup, List.mem_cons, List.mem_flatMap]
        exact .inr ⟨b, hab, hrest⟩

end heads

section outcomes
variable [DecidableEq σ] [DecidableEq κ] (m : Monitor α σ)

namespace Flow

/-- Where the monitor may be at the end of a run, and how the run ends. -/
def outcomes : Flow α κ → σ → List (σ × κ)
  | .done c, s => [(s, c)]
  | .emit a c, s => [(m.step s a, c)]
  | .andThen f k, s => ((outcomes f s).flatMap fun e => outcomes (k e.2) e.1).dedup
  | .either f g, s => outcomes f s ++ outcomes g s
  | .loop next f, s =>
    let turn s := (outcomes f s).filterMap fun e => if next e.2 = none then some e.1 else none
    (heads turn m.bound s).flatMap fun s' =>
      (outcomes f s').filterMap fun e => (next e.2).map fun d => (e.1, d)

variable {m}

theorem mem_outcomes_andThen {f : Flow α κ} {k : κ → Flow α κ} {s : σ} {e : σ × κ} :
    e ∈ (andThen f k).outcomes m s ↔ ∃ first ∈ f.outcomes m s, e ∈ (k first.2).outcomes m first.1 := by
  rw [outcomes, List.mem_dedup, List.mem_flatMap]

/-- A turn that leads back to the head of the loop. -/
def Turn (m : Monitor α σ) (next : κ → Option κ) (f : Flow α κ) (a b : σ) : Prop :=
  ∃ c, (b, c) ∈ f.outcomes m a ∧ next c = none

theorem mem_outcomes_loop {f : Flow α κ} {next : κ → Option κ} {s : σ} {e : σ × κ}
    (hrises : ∀ {a b c}, (b, c) ∈ f.outcomes m a → b = a ∨ m.rank a < m.rank b) :
    e ∈ (loop next f).outcomes m s ↔ ∃ head c, Relation.ReflTransGen (Turn m next f) s head ∧
      (e.1, c) ∈ f.outcomes m head ∧ next c = some e.2 := by
  have hturn {a b : σ} : b ∈ ((f.outcomes m a).filterMap fun e => if next e.2 = none then some e.1 else none) ↔
      Turn m next f a b := by
    rw [List.mem_filterMap]
    constructor
    · rintro ⟨⟨state, c⟩, hmem, hback⟩
      split at hback
      · next hnext =>
        cases hback
        exact ⟨c, hmem, hnext⟩
      · cases hback
    · rintro ⟨c, hmem, hnext⟩
      exact ⟨(b, c), hmem, if_pos hnext⟩
  have hreach {head : σ} : head ∈ heads (fun a => (f.outcomes m a).filterMap fun e =>
      if next e.2 = none then some e.1 else none) m.bound s ↔
      Relation.ReflTransGen (Turn m next f) s head := by
    constructor
    · intro hmem
      exact Relation.ReflTransGen.mono (fun _ _ => hturn.1) _ _ (reaches_of_mem_heads hmem)
    · intro hreaches
      have hturns := Relation.ReflTransGen.mono (fun _ _ => hturn.2) _ _ hreaches
      refine mem_heads_of_reaches m ?_ hturns (Nat.le_add_right _ _)
      intro a b hb
      obtain ⟨c, hmem, -⟩ := hturn.1 hb
      exact hrises hmem
  rw [outcomes, List.mem_flatMap]
  constructor
  · rintro ⟨head, hhead, hleave⟩
    obtain ⟨⟨state, c⟩, hmem, hnext⟩ := List.mem_filterMap.1 hleave
    rw [Option.map_eq_some_iff] at hnext
    obtain ⟨d, hd, rfl⟩ := hnext
    exact ⟨head, c, hreach.1 hhead, hmem, hd⟩
  · rintro ⟨head, c, hhead, hmem, hnext⟩
    refine ⟨head, hreach.2 hhead, List.mem_filterMap.2 ⟨(e.1, c), hmem, ?_⟩⟩
    rw [Option.map_eq_some_iff]
    exact ⟨e.2, hnext, rfl⟩

/-- Each outcome is the end of some run. -/
theorem runs_of_mem_outcomes {f : Flow α κ} {s s' : σ} {c : κ} (h : (s', c) ∈ f.outcomes m s) :
    ∃ t, f.Runs t c ∧ m.watch s t = s' := by
  induction f generalizing s s' c with
  | done d =>
    rw [outcomes, List.mem_singleton] at h
    cases h
    exact ⟨[], .done, rfl⟩
  | emit a d =>
    rw [outcomes, List.mem_singleton] at h
    cases h
    exact ⟨[a], .emit, rfl⟩
  | andThen f k ihf ihk =>
    obtain ⟨⟨middle, d⟩, hfirst, hrest⟩ := mem_outcomes_andThen.1 h
    obtain ⟨t, ht, rfl⟩ := ihf hfirst
    obtain ⟨u, hu, rfl⟩ := ihk d hrest
    exact ⟨t ++ u, .andThen ht hu, m.watch_append s t u⟩
  | either f g ihf ihg =>
    rw [outcomes, List.mem_append] at h
    rcases h with h | h
    · obtain ⟨t, ht, hwatch⟩ := ihf h
      exact ⟨t, .left ht, hwatch⟩
    · obtain ⟨t, ht, hwatch⟩ := ihg h
      exact ⟨t, .right ht, hwatch⟩
  | loop next f ih =>
    have hrises {a b : σ} {d : κ} (hmem : (b, d) ∈ f.outcomes m a) : b = a ∨ m.rank a < m.rank b := by
      obtain ⟨t, -, rfl⟩ := ih hmem
      exact m.watch_rises a t
    obtain ⟨head, d, hhead, hleave, hnext⟩ := (mem_outcomes_loop hrises).1 h
    clear h
    induction hhead using Relation.ReflTransGen.head_induction_on with
    | refl =>
      obtain ⟨t, ht, hwatch⟩ := ih hleave
      exact ⟨t, .leave ht hnext, hwatch⟩
    | head hturn _ ihrest =>
      obtain ⟨e, hmem, hback⟩ := hturn
      obtain ⟨t, ht, rfl⟩ := ih hmem
      obtain ⟨u, hu, hwatch⟩ := ihrest
      exact ⟨t ++ u, .again ht hback hu, by rw [m.watch_append, hwatch]⟩

/-- The end of each run is an outcome. -/
theorem Runs.mem_outcomes {f : Flow α κ} {t : List α} {c : κ} (h : f.Runs t c) (s : σ) :
    (m.watch s t, c) ∈ f.outcomes m s := by
  have hrises {f : Flow α κ} {a b : σ} {d : κ} (hmem : (b, d) ∈ f.outcomes m a) :
      b = a ∨ m.rank a < m.rank b := by
    obtain ⟨t, -, rfl⟩ := runs_of_mem_outcomes hmem
    exact m.watch_rises a t
  induction h generalizing s with
  | done => exact List.mem_cons_self
  | emit => exact List.mem_cons_self
  | @andThen f t c k u d _ _ ihf ihk =>
    rw [m.watch_append]
    exact mem_outcomes_andThen.2 ⟨_, ihf s, ihk (m.watch s t)⟩
  | left _ ih => exact List.mem_append_left _ (ih s)
  | right _ ih => exact List.mem_append_right _ (ih s)
  | leave _ hnext ih => exact (mem_outcomes_loop hrises).2 ⟨s, _, .refl, ih s, hnext⟩
  | @again f t c next u d _ hback _ ihf ihloop =>
    rw [m.watch_append]
    obtain ⟨head, e, hhead, hleave, hnext⟩ := (mem_outcomes_loop hrises).1 (ihloop (m.watch s t))
    exact (mem_outcomes_loop hrises).2 ⟨head, e, .head ⟨c, ihf s, hback⟩ hhead, hleave, hnext⟩

theorem mem_outcomes {f : Flow α κ} {s s' : σ} {c : κ} :
    (s', c) ∈ f.outcomes m s ↔ ∃ t, f.Runs t c ∧ m.watch s t = s' := by
  constructor
  · exact runs_of_mem_outcomes
  · rintro ⟨t, ht, rfl⟩
    exact ht.mem_outcomes s

/-- Some run takes the monitor from the one state to the other. -/
def leads (m : Monitor α σ) (f : Flow α κ) (s s' : σ) : Bool := (f.outcomes m s).any fun e => e.1 = s'

theorem leads_iff {f : Flow α κ} {s s' : σ} :
    f.leads m s s' = true ↔ ∃ t c, f.Runs t c ∧ m.watch s t = s' := by
  rw [leads, List.any_eq_true]
  constructor
  · rintro ⟨⟨state, c⟩, hmem, hstate⟩
    obtain ⟨t, ht, hwatch⟩ := mem_outcomes.1 hmem
    exact ⟨t, c, ht, hwatch.trans (of_decide_eq_true hstate)⟩
  · rintro ⟨t, c, ht, hwatch⟩
    exact ⟨(s', c), mem_outcomes.2 ⟨t, ht, hwatch⟩, decide_eq_true rfl⟩

end Flow
end outcomes

/-! ## One mark and afterwards another -/

inductive Passage
  | waiting
  | started
  | finished
  deriving DecidableEq

section inOrder
variable [DecidableEq α]

def inOrder (first second : α) : Monitor α Passage where
  step
    | .waiting, a => if a = first then .started else .waiting
    | .started, a => if a = second then .finished else .started
    | .finished, _ => .finished
  rank
    | .waiting => 0
    | .started => 1
    | .finished => 2
  bound := 2
  step_rises := by
    intro s a
    cases s with
    | waiting =>
      by_cases h : a = first
      · exact .inr (by simp [h])
      · exact .inl (if_neg h)
    | started =>
      by_cases h : a = second
      · exact .inr (by simp [h])
      · exact .inl (if_neg h)
    | finished => exact .inl rfl
  rank_le := by
    intro s
    cases s <;> decide

variable {first second : α} {t : List α}

theorem watch_finished : (inOrder first second).watch .finished t = .finished := by
  induction t with
  | nil => rfl
  | cons a t ih => exact ih

theorem watch_started : (inOrder first second).watch .started t = .finished ↔ second ∈ t := by
  induction t with
  | nil => exact iff_of_false (fun h => (by cases h)) List.not_mem_nil
  | cons a t ih =>
    rw [Monitor.watch_cons, List.mem_cons]
    by_cases h : a = second
    · have hstep : (inOrder first second).step .started a = .finished := if_pos h
      rw [hstep]
      exact iff_of_true watch_finished (.inl h.symm)
    · have hstep : (inOrder first second).step .started a = .started := if_neg h
      rw [hstep, ih]
      exact (or_iff_right (Ne.symm h)).symm

theorem watch_waiting : (inOrder first second).watch .waiting t = .finished ↔ [first, second].Sublist t := by
  induction t with
  | nil => exact iff_of_false (fun h => (by cases h)) (fun h => (by cases h))
  | cons a t ih =>
    rw [Monitor.watch_cons]
    by_cases h : a = first
    · have hstep : (inOrder first second).step .waiting a = .started := if_pos h
      rw [hstep, h, watch_started, List.cons_sublist_cons, List.singleton_sublist]
    · have hstep : (inOrder first second).step .waiting a = .waiting := if_neg h
      rw [hstep, ih]
      constructor
      · exact .cons a
      · intro hsub
        cases hsub with
        | cons _ hrest => exact hrest
        | cons_cons _ _ => exact absurd rfl h

/-- The analysis finds exactly the marks that some run leaves in this order. -/
theorem leads_inOrder_iff [DecidableEq κ] {f : Flow α κ} :
    f.leads (inOrder first second) .waiting .finished = true ↔
      ∃ t c, f.Runs t c ∧ [first, second].Sublist t := by
  rw [Flow.leads_iff]
  simp only [watch_waiting]

end inOrder

end Musi.System
