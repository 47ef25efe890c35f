import Mathlib.Data.Nat.Basic
import Mathlib.Data.Set.Insert
import Mathlib.Data.Set.Lattice
import Mathlib.Logic.Relation

namespace Musi.System
set_option autoImplicit true

section
variable {α : Type} {edge : α → α → Prop}

/-! ## Shortest walks -/

/-- A walk of so many steps. -/
inductive Walk (edge : α → α → Prop) : Nat → α → α → Prop where
  | refl (a : α) : Walk edge 0 a a
  | tail : Walk edge n a b → edge b c → Walk edge (n + 1) a c

/-- The number of steps of a shortest walk. -/
def Distance (edge : α → α → Prop) (a b : α) (d : Nat) : Prop :=
  Walk edge d a b ∧ ∀ n, Walk edge n a b → d ≤ n

theorem distance_zero {a b : α} : Distance edge a b 0 ↔ b = a := by
  constructor
  · rintro ⟨hwalk, -⟩
    cases hwalk
    rfl
  · rintro rfl
    exact ⟨.refl b, fun n _ => Nat.zero_le n⟩

/-- Labels of nodes by walks from a start, up to a length: what is labelled is passed on to its
neighbours with at most one step more. -/
structure Labelled (edge : α → α → Prop) (allowed : Nat → Prop) (start : α) (label : α → Option Nat) :
    Prop where
  origin : label start = some 0
  walk : ∀ a d, label a = some d → Walk edge d start a ∧ (d = 0 ∨ allowed d)
  closed : ∀ a d b, label a = some d → edge a b → allowed (d + 1) → ∃ e, e ≤ d + 1 ∧ label b = some e

variable {allowed : Nat → Prop} {start a : α} {label : α → Option Nat} {n d : Nat}

theorem Labelled.le_walk (h : Labelled edge allowed start label)
    (hdown : ∀ n m, m ≤ n → allowed n → allowed m) (hwalk : Walk edge n start a)
    (hallowed : n = 0 ∨ allowed n) : ∃ e, e ≤ n ∧ label a = some e := by
  induction hwalk with
  | refl a => exact ⟨0, Nat.le_refl 0, h.origin⟩
  | @tail n start b c _ hedge ih =>
    have hlast : allowed (n + 1) := hallowed.resolve_left (Nat.succ_ne_zero n)
    obtain ⟨e, he, hb⟩ := ih h (.inr (hdown _ _ (Nat.le_succ n) hlast))
    obtain ⟨f, hf, hc⟩ := h.closed b e c hb hedge (hdown _ _ (Nat.succ_le_succ he) hlast)
    exact ⟨f, Nat.le_trans hf (Nat.succ_le_succ he), hc⟩

/-- The labels are the distances, as far as the length allows. -/
theorem Labelled.distance (h : Labelled edge allowed start label)
    (hdown : ∀ n m, m ≤ n → allowed n → allowed m) :
    label a = some d ↔ Distance edge start a d ∧ (d = 0 ∨ allowed d) := by
  constructor
  · intro hlabel
    obtain ⟨hwalk, hallowed⟩ := h.walk a d hlabel
    refine ⟨⟨hwalk, fun n hn => ?_⟩, hallowed⟩
    by_contra hlt
    have hshort : n = 0 ∨ allowed n :=
      .inr (hdown d n (by omega) (hallowed.resolve_left (by omega)))
    obtain ⟨e, he, hlabel'⟩ := h.le_walk hdown hn hshort
    have heq : d = e := Option.some.inj (hlabel.symm.trans hlabel')
    omega
  · rintro ⟨⟨hwalk, hmin⟩, hallowed⟩
    obtain ⟨e, he, hlabel⟩ := h.le_walk hdown hwalk hallowed
    have heq : d = e := Nat.le_antisymm (hmin e (h.walk a e hlabel).1) he
    rw [hlabel, heq]

end

section
open Relation

variable {α : Type} {edge : α → α → Prop} {starts starts' before between after : Set α} {a : α}

/-! ## Depth-first search with a set of what was seen -/

/-- What a search from some nodes adds to what was seen before. A node seen before may still be
under exploration, so only the new ones are known to be closed. -/
structure Searched (edge : α → α → Prop) (starts before after : Set α) : Prop where
  grows : before ⊆ after
  covers : starts ⊆ after
  reached : ∀ b ∈ after, b ∈ before ∨ ∃ s ∈ starts, ReflTransGen edge s b
  closed : ∀ b ∈ after, b ∉ before → ∀ c, edge b c → c ∈ after

theorem Searched.nothing : Searched edge ∅ before before where
  grows := Set.Subset.rfl
  covers := Set.empty_subset _
  reached := fun _ hb => .inl hb
  closed := fun _ hb hn => absurd hb hn

/-- A node that was seen is not searched from again. -/
theorem Searched.seen (h : a ∈ before) : Searched edge {a} before before where
  grows := Set.Subset.rfl
  covers := Set.singleton_subset_iff.2 h
  reached := fun _ hb => .inl hb
  closed := fun _ hb hn => absurd hb hn

/-- One search after the other. -/
theorem Searched.append (h : Searched edge starts before between)
    (h' : Searched edge starts' between after) : Searched edge (starts ∪ starts') before after where
  grows := h.grows.trans h'.grows
  covers := Set.union_subset (h.covers.trans h'.grows) h'.covers
  reached := by
    intro b hb
    rcases h'.reached b hb with hb | ⟨s, hs, hr⟩
    · rcases h.reached b hb with hb | ⟨s, hs, hr⟩
      · exact .inl hb
      · exact .inr ⟨s, .inl hs, hr⟩
    · exact .inr ⟨s, .inr hs, hr⟩
  closed := by
    intro b hb hn c hc
    by_cases hbetween : b ∈ between
    · exact h'.grows (h.closed b hbetween hn c hc)
    · exact h'.closed b hb hbetween c hc

/-- A new node is recorded first, and its neighbours are searched from after it. -/
theorem Searched.visit (ha : a ∉ before)
    (h : Searched edge {b | edge a b} (insert a before) after) : Searched edge {a} before after where
  grows := (Set.subset_insert a before).trans h.grows
  covers := Set.singleton_subset_iff.2 (h.grows (Set.mem_insert a before))
  reached := by
    intro b hb
    rcases h.reached b hb with hb | ⟨s, hs, hr⟩
    · rcases Set.mem_insert_iff.1 hb with rfl | hb
      · exact .inr ⟨b, rfl, .refl⟩
      · exact .inl hb
    · exact .inr ⟨a, rfl, .head hs hr⟩
  closed := by
    intro b hb hn c hc
    by_cases hba : b = a
    · subst hba
      exact h.covers hc
    · exact h.closed b hb (fun hi => (Set.mem_insert_iff.1 hi).elim hba hn) c hc

/-- A search from one node that starts with nothing seen ends with what the node reaches. -/
theorem Searched.reachable (h : Searched edge {a} ∅ after) : ∀ b, b ∈ after ↔ ReflTransGen edge a b := by
  intro b
  constructor
  · intro hb
    rcases h.reached b hb with hb | ⟨s, rfl, hr⟩
    · exact absurd hb (Set.notMem_empty b)
    · exact hr
  · intro hr
    induction hr with
    | refl => exact h.covers rfl
    | tail _ hc ih => exact h.closed _ ih (Set.notMem_empty _) _ hc

end

end Musi.System
