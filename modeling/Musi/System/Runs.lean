import Mathlib.Algebra.BigOperators.Group.List.Basic
import Mathlib.Algebra.Order.Group.Int
import Mathlib.Data.List.Basic
import Mathlib.Data.List.Infix
import Mathlib.Data.List.Perm.Basic
import Mathlib.Data.List.Range
import Mathlib.Logic.Basic
import Mathlib.Logic.Relation
import Mathlib.Order.Basic
import Mathlib.Order.WellFoundedSet
import Mathlib.Tactic.Linarith

namespace Musi.System
set_option autoImplicit true

section

/-! ## Invariants of a transition system -/

variable {σ : Type} {Step : σ → σ → Prop} {Inv : σ → Prop} {a b : σ}

/-- What every step keeps holds after every run. -/
theorem run_invariant (h : Relation.ReflTransGen Step a b) (ha : Inv a)
    (hstep : ∀ {s t}, Inv s → Step s t → Inv t) : Inv b := by
  induction h with
  | refl => exact ha
  | tail _ hst ih => exact hstep ih hst

end

/-! ## Postconditions of a computation that may return early -/

/-- What holds of the value, and what holds of the early return. -/
def Returns (post : α → Prop) (early : ε → Prop) : Except ε α → Prop
  | .ok a => post a
  | .error e => early e

theorem Returns.bind {post : α → Prop} {post' : β → Prop} {early : ε → Prop} {x : Except ε α}
    {f : α → Except ε β} (h : Returns post early x)
    (hf : ∀ a, post a → Returns post' early (f a)) : Returns post' early (x >>= f) := by
  cases x with
  | ok a => exact hf a h
  | error e => exact h

theorem Returns.mono {post post' : α → Prop} {early early' : ε → Prop} {x : Except ε α}
    (h : Returns post early x) (hp : ∀ a, post a → post' a) (he : ∀ e, early e → early' e) :
    Returns post' early' x := by
  cases x with
  | ok a => exact hp a h
  | error e => exact he e h

theorem Returns.ok {post : α → Prop} {early : ε → Prop} {x : Except ε α} {a : α}
    (h : Returns post early x) (hx : x = .ok a) : post a := by
  subst hx
  exact h

/-- Without an early return there is a value. -/
theorem Returns.total {post : α → Prop} {early : ε → Prop} {x : Except ε α}
    (h : Returns post early x) (hno : ∀ e, ¬early e) : ∃ a, x = .ok a ∧ post a := by
  cases x with
  | ok a => exact ⟨a, rfl, h⟩
  | error e => exact absurd h (hno e)

/-! ## Climbs

A record may say where it starts and where it ends. A climb is a list of records that each start
where the one before ended, and each end higher than they start. -/

section
variable {ρ α : Type} [Preorder α]

inductive Climb (before after : ρ → Option α) : α → List ρ → α → Prop
  | nil (a : α) : Climb before after a [] a
  | cons (hb : before r = some a) (ha : after r = some b) (hlt : a < b)
      (h : Climb before after b rs c) : Climb before after a (r :: rs) c

variable {before after : ρ → Option α} {a b c : α} {rs ss : List ρ}

/-! ## Folds that follow a climb -/

/-- A fold that either keeps its state or moves with a record follows a climb through some of the
records, and its last state was made by the last of them. -/
theorem foldl_climb {step : σ → ρ → σ} (At : σ → α → Prop) (Moves : σ → ρ → Prop)
    (hstep : ∀ s a r, At s a → step s r = s ∨ ∃ b, At (step s r) b ∧ before r = some a ∧
      after r = some b ∧ a < b ∧ Moves (step s r) r) (ha : At s a) (rs : List ρ) :
    ∃ chain b, chain.Sublist rs ∧ Climb before after a chain b ∧ At (rs.foldl step s) b ∧
      (∀ r ∈ chain, ∃ s', Moves s' r) ∧
      (chain = [] ∧ rs.foldl step s = s ∨
        ∃ last ∈ chain.getLast?, Moves (rs.foldl step s) last) := by
  induction rs generalizing s a with
  | nil => exact ⟨[], a, .slnil, .nil a, ha, by simp, .inl ⟨rfl, rfl⟩⟩
  | cons r rs ih =>
    rw [List.foldl_cons]
    rcases hstep s a r ha with hkept | ⟨b, hb, hbefore, hafter, hlt, hmoves⟩
    · rw [hkept]
      obtain ⟨chain, c, hsub, hrest⟩ := ih ha
      exact ⟨chain, c, hsub.cons r, hrest⟩
    · obtain ⟨chain, c, hsub, hclimb, hc, hall, hlast⟩ := ih hb
      refine ⟨r :: chain, c, hsub.cons_cons r, .cons hbefore hafter hlt hclimb, hc,
        List.forall_mem_cons.2 ⟨⟨_, hmoves⟩, hall⟩, .inr ?_⟩
      rcases hlast with ⟨rfl, hkept⟩ | ⟨last, hmem, hlast⟩
      · exact ⟨r, rfl, by rwa [hkept]⟩
      · refine ⟨last, ?_, hlast⟩
        have hlast? : chain.getLast? = some last := hmem
        rw [List.getLast?_cons, hlast?]
        rfl

end

/-! ## Runs that can be cut off

A run decides on its effects from the state it starts in, and performs them one after the other. -/

section
variable {σ ε : Type} (perform : σ → ε → σ) (run : σ → List ε)

/-- The state after some effects. -/
def performAll (s : σ) (effects : List ε) : σ := effects.foldl perform s

/-- A run that stops after some of its effects. -/
def CutOff (s t : σ) : Prop := ∃ done, done <+: run s ∧ t = performAll perform s done

/-- Starting over after one effect performs the others. -/
def Resumable : Prop := ∀ s effect rest, run s = effect :: rest → run (perform s effect) = rest

variable {perform run}

@[simp] theorem performAll_nil (s : σ) : performAll perform s [] = s := rfl

@[simp] theorem performAll_cons (s : σ) (effect : ε) (rest : List ε) :
    performAll perform s (effect :: rest) = performAll perform (perform s effect) rest := rfl

theorem performAll_append (s : σ) (done rest : List ε) :
    performAll perform s (done ++ rest) = performAll perform (performAll perform s done) rest :=
  List.foldl_append

theorem Resumable.run_rest (h : Resumable perform run) {done rest : List ε}
    (hrun : run s = done ++ rest) : run (performAll perform s done) = rest := by
  induction done generalizing s with
  | nil => exact hrun
  | cons effect done ih => exact ih (h s effect (done ++ rest) hrun)

/-- Whatever was cut off before, a state on the way was reached by the first effects of the run. -/
theorem Resumable.reached (h : Resumable perform run)
    (hcut : Relation.ReflTransGen (CutOff perform run) s t) :
    ∃ done rest, run s = done ++ rest ∧ t = performAll perform s done := by
  induction hcut with
  | refl => exact ⟨[], run s, rfl, rfl⟩
  | tail _ hcut ih =>
    obtain ⟨done, rest, hrun, rfl⟩ := ih
    obtain ⟨more, ⟨last, hlast⟩, rfl⟩ := hcut
    rw [h.run_rest hrun] at hlast
    refine ⟨done ++ more, last, ?_, (performAll_append _ _ _).symm⟩
    rw [hrun, ← hlast, List.append_assoc]

/-- A run after any number of cut off ones ends where an uninterrupted run ends. -/
theorem Resumable.retry (h : Resumable perform run)
    (hcut : Relation.ReflTransGen (CutOff perform run) s t) :
    performAll perform t (run t) = performAll perform s (run s) := by
  obtain ⟨done, rest, hrun, rfl⟩ := h.reached hcut
  rw [h.run_rest hrun, hrun, performAll_append]

end

section

/-! ## Renewals of a timed grant -/

/-- What was granted, and when. -/
structure Stamp (S : Type) where
  subject : S
  time : Int
  deriving DecidableEq

/-- A renewal looks at a stamp and then writes the next one. -/
structure Renewal where
  window : Int
  checked : Int
  written : Int
  deriving DecidableEq

/-- How far a renewal can carry a stamp on. -/
def Renewal.reach (renewal : Renewal) : Int := renewal.window + (renewal.written - renewal.checked)

/-- The stamps that renewals make of one, each while the stamp that it replaces is inside of its
window, and for a subject related to the last. -/
inductive Renewed {S : Type} (same : S → S → Prop) (first : Stamp S) :
    List Renewal → Stamp S → Prop
  | granted : Renewed same first [] first
  | renewed (h : Renewed same first renewals stamp) (hsame : same stamp.subject subject)
      (hpast : stamp.time ≤ renewal.checked)
      (hfresh : renewal.checked - stamp.time < renewal.window) :
      Renewed same first (renewals ++ [renewal]) ⟨subject, renewal.written⟩

variable {S : Type} {same : S → S → Prop} {first stamp : Stamp S} {renewals : List Renewal}

/-- Renewals keep what each of them keeps. -/
theorem Renewed.keeps {T : Type} {f : S → T} (hf : ∀ a b, same a b → f a = f b)
    (h : Renewed same first renewals stamp) : f first.subject = f stamp.subject := by
  induction h with
  | granted => rfl
  | renewed _ hsame _ _ ih => exact ih.trans (hf _ _ hsame)

/-- A stamp is as old as its renewals can reach, at most. -/
theorem Renewed.time_le (h : Renewed same first renewals stamp) :
    stamp.time ≤ first.time + (renewals.map Renewal.reach).sum := by
  induction h with
  | granted => simp
  | @renewed renewals stamp subject renewal _ _ _ hfresh ih =>
    rw [List.map_append, List.sum_append, List.map_singleton, List.sum_singleton, Renewal.reach]
    change renewal.written ≤ _
    linarith

end

section
open Relation

/-! ## Following a reference until there is none -/

section
variable {α : Type} (next : α → Option α)

def Follows (a b : α) : Prop := next a = some b

/-- Following from an element comes to one that refers to nothing. -/
def Ends (a : α) : Prop := ∃ b, ReflTransGen (Follows next) a b ∧ next b = none

variable {next}

theorem Ends.step {a b : α} (h : Follows next a b) (hb : Ends next b) : Ends next a := by
  obtain ⟨c, hc, hnone⟩ := hb
  exact ⟨c, ReflTransGen.head h hc, hnone⟩

/-- Whatever is followed from an element on a cycle is on the cycle. -/
theorem cycle_of_follows {a b : α} (ha : TransGen (Follows next) a a)
    (h : ReflTransGen (Follows next) a b) : TransGen (Follows next) b b := by
  induction h with
  | refl => exact ha
  | tail _ hbc ih =>
    obtain ⟨d, hbd, hdb⟩ := TransGen.head'_iff.1 ih
    rw [Follows] at hbc hbd
    rw [hbc] at hbd
    cases hbd
    exact TransGen.tail' hdb hbc

theorem Ends.acyclic {a : α} (h : Ends next a) : ¬ TransGen (Follows next) a a := by
  intro hcycle
  obtain ⟨b, hb, hnone⟩ := h
  obtain ⟨c, hc, -⟩ := TransGen.head'_iff.1 (cycle_of_follows hcycle hb)
  rw [Follows, hnone] at hc
  cases hc

/-- Where finitely many elements refer to another, following always ends exactly when there is no
cycle. -/
theorem ends_iff_acyclic (support : List α) (hsupport : ∀ a b, Follows next a b → a ∈ support) :
    (∀ a, Ends next a) ↔ ∀ a, ¬ TransGen (Follows next) a a := by
  constructor
  · intro h a
    exact (h a).acyclic
  · intro hacyclic
    let _ : IsStrictOrder α (fun a b => TransGen (Follows next) b a) :=
      { irrefl := hacyclic, trans := fun a b c hab hbc => hbc.trans hab }
    have hfounded : Set.WellFoundedOn {a | a ∈ support} (fun a b => TransGen (Follows next) b a) :=
      (List.finite_toSet support).wellFoundedOn
    have hnone {a : α} (ha : a ∉ support) : Ends next a := by
      refine ⟨a, .refl, Option.eq_none_iff_forall_ne_some.2 fun b hb => ?_⟩
      exact ha (hsupport a b hb)
    intro a
    by_cases ha : a ∈ support
    · refine hfounded.induction ha fun a _ ih => ?_
      cases hnext : next a with
      | none => exact ⟨a, .refl, hnext⟩
      | some b =>
        by_cases hb : b ∈ support
        · exact Ends.step hnext (ih b hb (TransGen.single hnext))
        · exact Ends.step hnext (hnone hb)
    · exact hnone ha

end

end

/-! ## Following edges

An edge starts at a place and leads to a state. A walker takes an edge of a list when it stands at
the start of the edge, and passes it by otherwise. -/

section
variable {σ κ : Type} [DecidableEq κ] {place : σ → κ} {edges left right : List (κ × σ)} {s t : σ}

def follow (place : σ → κ) (edges : List (κ × σ)) (s : σ) : σ :=
  edges.foldl (fun s edge => if edge.1 = place s then edge.2 else s) s

theorem follow_cons (edge : κ × σ) (edges : List (κ × σ)) (s : σ) :
    follow place (edge :: edges) s =
      follow place edges (if edge.1 = place s then edge.2 else s) := rfl

theorem follow_append (left right : List (κ × σ)) (s : σ) :
    follow place (left ++ right) s = follow place right (follow place left s) :=
  List.foldl_append

theorem follow_stuck (h : ∀ edge ∈ edges, edge.1 ≠ place s) : follow place edges s = s := by
  induction edges with
  | nil => rfl
  | cons edge edges ih =>
    rw [List.forall_mem_cons] at h
    rw [follow_cons, if_neg h.1, ih h.2]

theorem follow_moved (place : σ → κ) (edges : List (κ × σ)) (s : σ) :
    follow place edges s = s ∨ ∃ edge ∈ edges, follow place edges s = edge.2 := by
  induction edges generalizing s with
  | nil => exact .inl rfl
  | cons edge edges ih =>
    rw [follow_cons]
    split
    · rcases ih edge.2 with h | ⟨edge', hmem, h⟩
      · exact .inr ⟨edge, List.mem_cons_self, h⟩
      · exact .inr ⟨edge', List.mem_cons_of_mem _ hmem, h⟩
    · rcases ih s with h | ⟨edge', hmem, h⟩
      · exact .inl h
      · exact .inr ⟨edge', List.mem_cons_of_mem _ hmem, h⟩

/-- Where every edge from here leads to one state, and none leads on, the walker ends there. -/
theorem follow_once (hto : ∀ edge ∈ edges, edge.1 = place s → edge.2 = t)
    (hstuck : ∀ edge ∈ edges, edge.1 ≠ place t) (hex : ∃ edge ∈ edges, edge.1 = place s) :
    follow place edges s = t := by
  induction edges with
  | nil =>
    obtain ⟨edge, hmem, -⟩ := hex
    cases hmem
  | cons edge edges ih =>
    rw [follow_cons]
    by_cases hedge : edge.1 = place s
    · rw [if_pos hedge, hto edge List.mem_cons_self hedge]
      exact follow_stuck fun edge hmem => hstuck edge (List.mem_cons_of_mem _ hmem)
    · rw [if_neg hedge]
      refine ih (fun edge hmem => hto edge (List.mem_cons_of_mem _ hmem))
        (fun edge hmem => hstuck edge (List.mem_cons_of_mem _ hmem)) ?_
      obtain ⟨edge', hmem, hstart⟩ := hex
      rcases List.mem_cons.1 hmem with rfl | hmem
      · exact absurd hstart hedge
      · exact ⟨edge', hmem, hstart⟩

/-- Neither edge goes on from the other, and two that start at one place lead to one state. -/
structure Apart (place : σ → κ) (edge edge' : κ × σ) : Prop where
  after : edge'.1 ≠ place edge.2
  before : edge.1 ≠ place edge'.2
  same : edge.1 = edge'.1 → edge.2 = edge'.2

omit [DecidableEq κ] in
theorem Apart.symm {edge edge' : κ × σ} (h : Apart place edge edge') : Apart place edge' edge :=
  ⟨h.before, h.after, fun hstart => (h.same hstart.symm).symm⟩

theorem follow_apart (h : ∀ edge ∈ left, ∀ edge' ∈ right, Apart place edge edge')
    (hstuck : ∀ edge ∈ left, edge.1 ≠ place s) :
    follow place left (follow place right s) = follow place right s := by
  rcases follow_moved place right s with hkept | ⟨edge', hmem, hmoved⟩
  · rw [hkept, follow_stuck hstuck]
  · rw [hmoved]
    exact follow_stuck fun edge hedge => (h edge hedge edge' hmem).before

/-- The order of two lists whose edges are apart does not matter. -/
theorem follow_append_comm (h : ∀ edge ∈ left, ∀ edge' ∈ right, Apart place edge edge') (s : σ) :
    follow place (left ++ right) s = follow place (right ++ left) s := by
  rw [follow_append, follow_append]
  by_cases hleft : ∃ edge ∈ left, edge.1 = place s
  · by_cases hright : ∃ edge ∈ right, edge.1 = place s
    · -- Both leave this place, for one state, and neither leads on from there.
      obtain ⟨edge, hmem, hstart⟩ := hleft
      obtain ⟨edge', hmem', hstart'⟩ := hright
      have hend : edge.2 = edge'.2 := (h edge hmem edge' hmem').same (hstart.trans hstart'.symm)
      have hl : follow place left s = edge.2 := by
        refine follow_once (fun e he hs => ?_) (fun e he => ?_) ⟨edge, hmem, hstart⟩
        · rw [hend]
          exact (h e he edge' hmem').same (hs.trans hstart'.symm)
        · rw [hend]
          exact (h e he edge' hmem').before
      have hr : follow place right s = edge.2 := by
        refine follow_once (fun e he hs => ?_) (fun e he => ?_) ⟨edge', hmem', hstart'⟩
        · exact ((h edge hmem e he).same (hstart.trans hs.symm)).symm
        · exact (h edge hmem e he).after
      rw [hl, hr, follow_stuck fun e he => (h edge hmem e he).after, hend]
      exact (follow_stuck fun e he => (h e he edge' hmem').before).symm
    · rw [not_exists] at hright
      have hstuck : ∀ edge ∈ right, edge.1 ≠ place s := fun edge hmem hs => hright edge ⟨hmem, hs⟩
      rw [follow_stuck hstuck]
      exact follow_apart (fun e he e' he' => (h e' he' e he).symm) hstuck
  · rw [not_exists] at hleft
    have hstuck : ∀ edge ∈ left, edge.1 ≠ place s := fun edge hmem hs => hleft edge ⟨hmem, hs⟩
    rw [follow_stuck hstuck]
    exact (follow_apart h hstuck).symm

end

/-! ## What one pass of a loop is enough for -/

/-- What a pass brings about, and no pass undoes, holds after the loop. -/
theorem foldl_of_mem {f : σ → α → σ} {P : σ → Prop} (hkeeps : ∀ s a, P s → P (f s a)) {l : List α}
    {a : α} (ha : a ∈ l) (hbrings : ∀ s, P (f s a)) (s : σ) : P (l.foldl f s) := by
  have hkeep (l : List α) (s : σ) (hs : P s) : P (l.foldl f s) := by
    induction l generalizing s with
    | nil => exact hs
    | cons b l ih => exact ih (f s b) (hkeeps s b hs)
  induction l generalizing s with
  | nil => cases ha
  | cons b l ih =>
    rcases List.mem_cons.1 ha with rfl | ha
    · exact hkeep l _ (hbrings s)
    · exact ih ha (f s b)

/-! ## A pool of workers

Workers share one counter; each takes the task it names, and the next one when that is finished. -/

structure Pool where
  next : Nat := 0
  busy : List Nat := []
  finished : List Nat := []

namespace Pool

/-- A worker that is free takes the next of the tasks, if any is left. -/
def take (tasks : Nat) (p : Pool) : Pool :=
  if p.next < tasks then { p with next := p.next + 1, busy := p.busy ++ [p.next] } else p

/-- The workers in the order in which they start. -/
def start (tasks : Nat) : Nat → Pool
  | 0 => {}
  | workers + 1 => (start tasks workers).take tasks

/-- The worker of a task has finished it, and takes another. -/
def finish (tasks : Nat) (p : Pool) (task : Nat) : Pool :=
  take tasks { p with busy := p.busy.erase task, finished := p.finished ++ [task] }

theorem finished_start (tasks workers : Nat) : (start tasks workers).finished = [] := by
  induction workers with
  | zero => rfl
  | succ workers ih =>
    rw [start, take]
    split
    · exact ih
    · exact ih

theorem finished_finish (tasks : Nat) (p : Pool) (task : Nat) :
    (p.finish tasks task).finished = p.finished ++ [task] := by
  unfold finish take
  split
  · rfl
  · rfl

/-- Every task below the counter is in the hands of one worker or finished; a worker is idle only
when no task is left. -/
structure Sound (tasks workers : Nat) (p : Pool) : Prop where
  tasks_perm : (p.finished ++ p.busy).Perm (List.range p.next)
  next_le : p.next ≤ tasks
  busy_le : p.busy.length ≤ workers
  idle : p.busy.length < workers → p.next = tasks

variable {p : Pool}

theorem sound_take (hperm : (p.finished ++ p.busy).Perm (List.range p.next))
    (hnext : p.next ≤ tasks) (hbusy : p.busy.length ≤ workers)
    (hidle : p.busy.length < workers → p.next = tasks) :
    Sound tasks (workers + 1) (p.take tasks) := by
  unfold take
  split
  · next hlt =>
    refine ⟨?_, hlt, ?_, ?_⟩
    · rw [← List.append_assoc, List.range_succ]
      exact hperm.append_right _
    · rw [List.length_append, List.length_singleton]
      exact Nat.succ_le_succ hbusy
    · intro hlen
      rw [List.length_append, List.length_singleton] at hlen
      exact absurd (hidle (Nat.lt_of_succ_lt_succ hlen)) hlt.ne
  · next hge =>
    exact ⟨hperm, hnext, Nat.le_succ_of_le hbusy, fun _ => Nat.le_antisymm hnext (not_lt.1 hge)⟩

theorem sound_start (tasks workers : Nat) : Sound tasks workers (start tasks workers) := by
  induction workers with
  | zero => exact ⟨.refl _, Nat.zero_le _, Nat.le_refl _, fun h => absurd h (Nat.not_lt_zero _)⟩
  | succ workers ih => exact sound_take ih.tasks_perm ih.next_le ih.busy_le ih.idle

theorem Sound.finish (h : Sound tasks workers p) (htask : task ∈ p.busy) :
    Sound tasks workers (p.finish tasks task) := by
  have hlen := List.length_erase_of_mem htask
  have hpos := List.length_pos_of_mem htask
  have hbusy := h.busy_le
  obtain ⟨workers, rfl⟩ : ∃ k, workers = k + 1 := ⟨workers - 1, by omega⟩
  refine sound_take ?_ h.next_le ?_ ?_
  · have hmove : (p.finished ++ [task] ++ p.busy.erase task).Perm (p.finished ++ p.busy) := by
      rw [List.append_assoc]
      exact (List.perm_cons_erase htask).symm.append_left _
    exact hmove.trans h.tasks_perm
  · change (p.busy.erase task).length ≤ workers
    omega
  · intro hlt
    change (p.busy.erase task).length < workers at hlt
    exact h.idle (by omega)

theorem Sound.finished_le (h : Sound tasks workers p) : p.finished.length + p.busy.length ≤ tasks := by
  have hlen := h.tasks_perm.length_eq
  rw [List.length_append, List.length_range] at hlen
  have hnext := h.next_le
  omega

/-- When no worker is left, every task was finished once. -/
theorem Sound.finished_perm (h : Sound tasks workers p) (hworkers : 0 < workers)
    (hbusy : p.busy = []) : p.finished.Perm (List.range tasks) := by
  have hnext := h.idle (by rw [hbusy]; exact hworkers)
  have hperm := h.tasks_perm
  rwa [hbusy, List.append_nil, hnext] at hperm

end Pool

end Musi.System
