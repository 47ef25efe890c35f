import Mathlib.Data.List.Basic
import Mathlib.Data.List.Nodup
import Mathlib.Algebra.Order.BigOperators.Group.List
import Mathlib.Algebra.Order.Group.Nat
import Mathlib.Algebra.Ring.Nat
import Mathlib.Logic.Relation

namespace Musi.System
open Relation
set_option autoImplicit true

variable {α : Type} [DecidableEq α]

/-! ## A worklist that repeats its entries -/

/-- A graph in which only some nodes are entered, and only those have successors. -/
structure EnteredGraph (α : Type) where
  next : α → List α
  enter : α → Bool

/-- `crossed` lists the edges of the nodes that were entered, in the order they were followed. -/
structure Progress (α : Type) where
  pending : List α
  visited : List α
  traversed : List α
  crossed : List (α × α)

variable (graph : EnteredGraph α)

/-- The last pending node is visited, and entered when it was not before. -/
def Progress.step (progress : Progress α) : Progress α :=
  match progress.pending with
  | [] => progress
  | a :: rest =>
    let visited := if a ∈ progress.visited then progress.visited else progress.visited ++ [a]
    if graph.enter a ∧ a ∉ progress.traversed then
      { pending := (graph.next a).reverse ++ rest
        visited
        traversed := progress.traversed ++ [a]
        crossed := progress.crossed ++ (graph.next a).map fun b => (a, b) }
    else { progress with pending := rest, visited }

/-- The steps until nothing is pending, by at most as many of them. -/
def Progress.run : Nat → Progress α → Option (Progress α)
  | 0, progress => if progress.pending = [] then some progress else none
  | fuel + 1, progress =>
    if progress.pending = [] then some progress else run fuel (progress.step graph)

def Progress.start (a : α) : Progress α := ⟨[a], [], [], []⟩

/-- What is reached through nodes that are entered. -/
def EnteredGraph.Reaches (a b : α) : Prop :=
  ReflTransGen (fun a b => graph.enter a = true ∧ b ∈ graph.next a) a b

/-- What every step keeps. -/
structure Progress.Sound (a : α) (progress : Progress α) : Prop where
  reached : ∀ b, b ∈ progress.visited ∨ b ∈ progress.pending → graph.Reaches a b
  started : a ∈ progress.visited ∨ a ∈ progress.pending
  visited_nodup : progress.visited.Nodup
  traversed_nodup : progress.traversed.Nodup
  traversed_enter : ∀ b ∈ progress.traversed, graph.enter b = true ∧ b ∈ progress.visited
  traversed_next : ∀ b ∈ progress.traversed, ∀ c ∈ graph.next b,
    c ∈ progress.visited ∨ c ∈ progress.pending
  visited_enter : ∀ b ∈ progress.visited, graph.enter b = true → b ∈ progress.traversed
  crossed : progress.crossed = progress.traversed.flatMap fun b =>
    (graph.next b).map fun c => (b, c)

variable {graph} {a : α} {progress : Progress α}

omit [DecidableEq α] in
theorem Progress.sound_start (a : α) : (Progress.start a).Sound graph a where
  reached := by
    rintro b (hb | hb)
    · cases hb
    · rw [Progress.start, List.mem_singleton] at hb
      rw [hb]
      exact .refl
  started := .inr List.mem_cons_self
  visited_nodup := List.nodup_nil
  traversed_nodup := List.nodup_nil
  traversed_enter := by
    intro b hb
    cases hb
  traversed_next := by
    intro b hb
    cases hb
  visited_enter := by
    intro b hb
    cases hb
  crossed := rfl

theorem mem_visit {a b : α} {visited : List α} :
    b ∈ (if a ∈ visited then visited else visited ++ [a]) ↔ b ∈ visited ∨ b = a := by
  split
  · next h =>
    constructor
    · exact .inl
    · rintro (hb | rfl)
      · exact hb
      · exact h
  · rw [List.mem_append, List.mem_singleton]

theorem nodup_visit {a : α} {visited : List α} (h : visited.Nodup) :
    (if a ∈ visited then visited else visited ++ [a]).Nodup := by
  split
  · exact h
  · next ha => exact List.nodup_append.2 ⟨h, List.nodup_singleton a, by
      intro b hb c hc
      rw [List.mem_singleton.1 hc]
      rintro rfl
      exact ha hb⟩

theorem Progress.Sound.step (h : progress.Sound graph a) : (progress.step graph).Sound graph a := by
  rw [Progress.step]
  split
  · exact h
  · next b rest hpending =>
    have hb : graph.Reaches a b := h.reached b (.inr (hpending ▸ List.mem_cons_self))
    have hrest {c : α} (hc : c ∈ rest) : graph.Reaches a c :=
      h.reached c (.inr (hpending ▸ List.mem_cons_of_mem _ hc))
    have hkeep {c : α} (hc : c ∈ progress.visited ∨ c ∈ progress.pending) :
        (c ∈ progress.visited ∨ c = b) ∨ c ∈ rest := by
      rcases hc with hc | hc
      · exact .inl (.inl hc)
      · rw [hpending, List.mem_cons] at hc
        rcases hc with hc | hc
        · exact .inl (.inr hc)
        · exact .inr hc
    dsimp only
    split
    · next henter =>
      constructor
      · intro c hc
        rw [mem_visit, List.mem_append, List.mem_reverse] at hc
        rcases hc with (hc | rfl) | hc | hc
        · exact h.reached c (.inl hc)
        · exact hb
        · exact hb.tail ⟨henter.1, hc⟩
        · exact hrest hc
      · rw [mem_visit, List.mem_append]
        exact (hkeep h.started).imp id .inr
      · exact nodup_visit h.visited_nodup
      · refine List.nodup_append.2 ⟨h.traversed_nodup, List.nodup_singleton b, ?_⟩
        intro c hc d hd
        rw [List.mem_singleton.1 hd]
        rintro rfl
        exact henter.2 hc
      · intro c hc
        rw [mem_visit]
        rcases List.mem_append.1 hc with hc | hc
        · exact ⟨(h.traversed_enter c hc).1, .inl (h.traversed_enter c hc).2⟩
        · rw [List.mem_singleton.1 hc]
          exact ⟨henter.1, .inr rfl⟩
      · intro c hc d hd
        rw [mem_visit, List.mem_append, List.mem_reverse]
        rcases List.mem_append.1 hc with hc | hc
        · exact (hkeep (h.traversed_next c hc d hd)).imp id .inr
        · rw [List.mem_singleton.1 hc] at hd
          exact .inr (.inl hd)
      · intro c hc henter'
        rw [List.mem_append, List.mem_singleton]
        rcases mem_visit.1 hc with hc | hc
        · exact .inl (h.visited_enter c hc henter')
        · exact .inr hc
      · rw [List.flatMap_append, ← h.crossed, List.flatMap_cons, List.flatMap_nil, List.append_nil]
    · next henter =>
      constructor
      · intro c hc
        rcases hc with hc | hc
        · rcases mem_visit.1 hc with hc | rfl
          · exact h.reached c (.inl hc)
          · exact hb
        · exact hrest hc
      · rw [mem_visit]
        exact hkeep h.started
      · exact nodup_visit h.visited_nodup
      · exact h.traversed_nodup
      · intro c hc
        rw [mem_visit]
        exact ⟨(h.traversed_enter c hc).1, .inl (h.traversed_enter c hc).2⟩
      · intro c hc d hd
        rw [mem_visit]
        exact hkeep (h.traversed_next c hc d hd)
      · intro c hc henter'
        rcases mem_visit.1 hc with hc | rfl
        · exact h.visited_enter c hc henter'
        · by_contra hfresh
          exact henter ⟨henter', hfresh⟩
      · exact h.crossed

/-- By induction on the steps. -/
theorem Progress.Sound.run {fuel : Nat} (h : progress.Sound graph a) {ended : Progress α}
    (hrun : progress.run graph fuel = some ended) : ended.Sound graph a ∧ ended.pending = [] := by
  induction fuel generalizing progress with
  | zero =>
    rw [Progress.run] at hrun
    split at hrun
    · next hpending =>
      obtain rfl := Option.some.inj hrun
      exact ⟨h, hpending⟩
    · cases hrun
  | succ fuel ih =>
    rw [Progress.run] at hrun
    split at hrun
    · next hpending =>
      obtain rfl := Option.some.inj hrun
      exact ⟨h, hpending⟩
    · exact ih h.step hrun

omit [DecidableEq α] in
/-- With nothing pending, what was visited is what is reached. -/
theorem Progress.Sound.mem_visited (h : progress.Sound graph a) (hpending : progress.pending = [])
    {b : α} : b ∈ progress.visited ↔ graph.Reaches a b := by
  have hvisited {c : α} (hc : c ∈ progress.visited ∨ c ∈ progress.pending) :
      c ∈ progress.visited := by
    rcases hc with hc | hc
    · exact hc
    · rw [hpending] at hc
      cases hc
  constructor
  · intro hb
    exact h.reached b (.inl hb)
  · intro hb
    induction hb with
    | refl => exact hvisited h.started
    | tail _ hedge ih =>
      exact hvisited (h.traversed_next _ (h.visited_enter _ ih hedge.1) _ hedge.2)

omit [DecidableEq α] in
theorem Progress.Sound.mem_traversed (h : progress.Sound graph a) (hpending : progress.pending = [])
    {b : α} : b ∈ progress.traversed ↔ graph.Reaches a b ∧ graph.enter b = true := by
  rw [← h.mem_visited hpending]
  constructor
  · intro hb
    exact ⟨(h.traversed_enter b hb).2, (h.traversed_enter b hb).1⟩
  · intro hb
    exact h.visited_enter b hb.1 hb.2

/-! ## Termination -/

/-- The steps that are left when only these nodes occur: one for each pending entry, and one for
each entry that is still to be pushed. -/
def Progress.potential (graph : EnteredGraph α) (nodes : List α) (progress : Progress α) : Nat :=
  progress.pending.length +
    ((nodes.filter fun b => b ∉ progress.traversed).map fun b => (graph.next b).length).sum

theorem sum_filter_ne {f : α → Nat} {nodes : List α} (ha : a ∈ nodes) :
    ((nodes.filter fun b => b ≠ a).map f).sum + f a ≤ (nodes.map f).sum := by
  induction nodes with
  | nil => cases ha
  | cons b nodes ih =>
    by_cases hba : b = a
    · subst hba
      have hle : ((nodes.filter fun c => c ≠ b).map f).sum ≤ (nodes.map f).sum :=
        (List.filter_sublist.map f).sum_le_sum (fun _ _ => Nat.zero_le _)
      rw [List.filter_cons_of_neg (by simp), List.map_cons, List.sum_cons]
      omega
    · have hmem : a ∈ nodes := (List.mem_cons.1 ha).resolve_left (Ne.symm hba)
      have := ih hmem
      rw [List.filter_cons_of_pos (by simpa using hba), List.map_cons, List.map_cons,
        List.sum_cons, List.sum_cons]
      omega

/-- Every step uses up some of the potential. -/
theorem Progress.potential_step {nodes : List α} (hpending : progress.pending ≠ [])
    (hnodes : ∀ b ∈ progress.pending, b ∈ nodes) :
    (progress.step graph).potential graph nodes < progress.potential graph nodes := by
  obtain ⟨b, rest, hcons⟩ := List.exists_cons_of_ne_nil hpending
  rw [Progress.step, hcons]
  dsimp only
  split
  · next henter =>
    have hb : b ∈ nodes.filter fun c => c ∉ progress.traversed :=
      List.mem_filter.2 ⟨hnodes b (hcons ▸ List.mem_cons_self), decide_eq_true henter.2⟩
    have hle := sum_filter_ne (f := fun c => (graph.next c).length) hb
    rw [List.filter_filter] at hle
    have hfilter : (nodes.filter fun c => decide (c ∉ progress.traversed ++ [b])) =
        nodes.filter fun c => decide (c ≠ b) && decide (c ∉ progress.traversed) :=
      List.filter_congr fun c _ => by
        rw [Bool.eq_iff_iff]
        simp only [List.mem_append, List.mem_singleton, decide_eq_true_eq, Bool.and_eq_true]
        tauto
    rw [Progress.potential, Progress.potential, hcons, hfilter, List.length_append,
      List.length_reverse, List.length_cons]
    omega
  · rw [Progress.potential, Progress.potential, hcons, List.length_cons]
    exact Nat.add_lt_add_right (Nat.lt_succ_self rest.length) _

theorem Progress.pending_step {nodes : List α} (hnodes : ∀ b ∈ progress.pending, b ∈ nodes)
    (hclosed : ∀ b ∈ nodes, graph.enter b = true → ∀ c ∈ graph.next b, c ∈ nodes) :
    ∀ b ∈ (progress.step graph).pending, b ∈ nodes := by
  rw [Progress.step]
  split
  · exact hnodes
  · next b rest hcons =>
    rw [hcons, List.forall_mem_cons] at hnodes
    dsimp only
    split
    · next henter =>
      intro c hc
      rcases List.mem_append.1 hc with hc | hc
      · exact hclosed b hnodes.1 henter.1 c (List.mem_reverse.1 hc)
      · exact hnodes.2 c hc
    · exact hnodes.2

/-- A walk among finitely many nodes ends, whatever the fuel beyond its potential. -/
theorem Progress.run_ends {nodes : List α}
    (hclosed : ∀ b ∈ nodes, graph.enter b = true → ∀ c ∈ graph.next b, c ∈ nodes)
    (hnodes : ∀ b ∈ progress.pending, b ∈ nodes) :
    ∃ ended, ∀ fuel, progress.potential graph nodes ≤ fuel →
      progress.run graph fuel = some ended := by
  induction hp : progress.potential graph nodes using Nat.strong_induction_on generalizing progress with
  | _ potential ih =>
    by_cases hpending : progress.pending = []
    · refine ⟨progress, fun fuel _ => ?_⟩
      cases fuel with
      | zero => rw [Progress.run, if_pos hpending]
      | succ fuel => rw [Progress.run, if_pos hpending]
    · have hlt : (progress.step graph).potential graph nodes < progress.potential graph nodes :=
        Progress.potential_step hpending hnodes
      rw [hp] at hlt
      obtain ⟨ended, hended⟩ := ih _ hlt (Progress.pending_step hnodes hclosed) rfl
      refine ⟨ended, fun fuel hfuel => ?_⟩
      cases fuel with
      | zero => omega
      | succ fuel =>
        rw [Progress.run, if_neg hpending]
        exact hended fuel (by omega)

end Musi.System
