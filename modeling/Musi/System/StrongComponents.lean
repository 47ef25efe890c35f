import Mathlib.Data.List.Basic
import Mathlib.Data.List.Nodup
import Mathlib.Data.Set.Insert
import Mathlib.Data.Set.Subsingleton
import Mathlib.Logic.Relation

namespace Musi.System
open Relation
set_option autoImplicit true

variable {α : Type} {edge : α → α → Prop} {order assigned : List α} {a b c root : α}

/-! ## Strongly connected components -/

/-- Two nodes that lead to each other. -/
def Strong (edge : α → α → Prop) (a b : α) : Prop := ReflTransGen edge a b ∧ ReflTransGen edge b a

theorem Strong.refl (a : α) : Strong edge a a := ⟨.refl, .refl⟩

theorem Strong.symm (h : Strong edge a b) : Strong edge b a := ⟨h.2, h.1⟩

theorem Strong.trans (hab : Strong edge a b) (hbc : Strong edge b c) : Strong edge a c :=
  ⟨hab.1.trans hbc.1, hbc.2.trans hab.2⟩

/-- A strongly connected component. -/
def Component (edge : α → α → Prop) (members : Set α) : Prop :=
  ∃ a, ∀ b, b ∈ members ↔ Strong edge a b

/-- A component that is more than a node. -/
def Cycle (edge : α → α → Prop) (members : Set α) : Prop :=
  Component edge members ∧ members.Nontrivial

theorem Component.eq_of_mem {s t : Set α} (hs : Component edge s) (ht : Component edge t)
    (has : a ∈ s) (hat : a ∈ t) : s = t := by
  obtain ⟨b, hb⟩ := hs
  obtain ⟨c, hc⟩ := ht
  have hbc : Strong edge b c := ((hb a).1 has).trans ((hc a).1 hat).symm
  ext d
  rw [hb, hc]
  exact ⟨hbc.symm.trans, hbc.trans⟩

/-- The members of a cycle all have an edge. -/
theorem Cycle.exists_edge {members : Set α} (h : Cycle edge members) (ha : a ∈ members) :
    ∃ b, edge a b := by
  obtain ⟨⟨r, hr⟩, hnontrivial⟩ := h
  obtain ⟨b, hb, hne⟩ := hnontrivial.exists_ne a
  have hab : ReflTransGen edge a b := (((hr a).1 ha).symm.trans ((hr b).1 hb)).1
  rcases hab.cases_head with rfl | ⟨c, hac, -⟩
  · exact absurd rfl hne
  · exact ⟨c, hac⟩

/-! ## Finishing orders -/

/-- The order holds a node of this component that comes after everything it leads to. -/
def Settled (edge : α → α → Prop) (order : List α) (a : α) : Prop :=
  ∃ before last after, order = before ++ last :: after ∧ Strong edge a last ∧
    ∀ b, ReflTransGen edge last b → b ∈ before ∨ b = last

theorem Settled.append (h : Settled edge order a) (later : List α) :
    Settled edge (order ++ later) a := by
  obtain ⟨before, last, after, horder, hstrong, hleads⟩ := h
  exact ⟨before, last, after ++ later, by rw [horder, List.append_assoc]; rfl, hstrong, hleads⟩

theorem Settled.of_strong (h : Settled edge order b) (hab : Strong edge a b) :
    Settled edge order a := by
  obtain ⟨before, last, after, horder, hstrong, hleads⟩ := h
  exact ⟨before, last, after, horder, hab.trans hstrong, hleads⟩

/-- A node is settled as it finishes, when everything that it leads to has finished before it. -/
theorem Settled.finish (h : ∀ b, ReflTransGen edge a b → b ∈ order ∨ b = a) :
    Settled edge (order ++ [a]) a :=
  ⟨order, a, [], rfl, .refl a, h⟩

/-- The order in which a depth-first search finishes its nodes. -/
structure FinishOrder (edge : α → α → Prop) (order : List α) : Prop where
  nodup : order.Nodup
  settled : ∀ a ∈ order, Settled edge order a

/-- Read from its end, the order meets a component first in a node that only leads back to it from
what is left: a node left over that leads to it is in its component. -/
theorem FinishOrder.strong {rest : List α} (h : FinishOrder edge (rest ++ root :: assigned))
    (done : Set α) (hassigned : ∀ b ∈ assigned, b ∈ done)
    (hdone : ∀ b ∈ done, ∀ c, Strong edge b c → c ∈ done)
    (ha : a ∈ rest ++ root :: assigned) (hfresh : a ∉ done) (hleads : ReflTransGen edge a root) :
    Strong edge a root := by
  obtain ⟨before, last, after, horder, hstrong, hreach⟩ := h.settled a ha
  have hlast : last ∉ assigned := fun hmem =>
    hfresh (hdone last (hassigned last hmem) a hstrong.symm)
  rcases hreach root (hstrong.2.trans hleads) with hbefore | rfl
  · -- the root would stand before this node, which is not among the assigned ones after it
    exfalso
    obtain ⟨early, late, rfl⟩ := List.append_of_mem hbefore
    rw [List.append_assoc, List.cons_append] at horder
    have hnodup : rest.Nodup ∧ (root :: assigned).Nodup ∧ ∀ b ∈ rest, ∀ c ∈ root :: assigned, b ≠ c :=
      List.nodup_append.1 h.nodup
    have hsplit : rest = early ∧ root = root ∧ assigned = late ++ last :: after :=
      (List.append_cons_inj_of_notMem (fun hmem => hnodup.2.2 root hmem root List.mem_cons_self rfl)
        (List.nodup_cons.1 hnodup.2.1).1).1 horder
    exact hlast (hsplit.2.2 ▸ List.mem_append_right late List.mem_cons_self)
  · exact hstrong

/-- What is found against the edges from a fresh node, between the components that are done, is its
component. An edge into a node without edges of its own need not be known backwards. -/
theorem strong_of_found (back : α → α → Prop) (found done : Set α)
    (hcomplete : ∀ a b, edge b a → (∃ c, edge a c) → back a b)
    (hdone : ∀ b ∈ done, ∀ c, Strong edge b c → c ∈ done) (hfresh : root ∉ done)
    (hroot : root ∈ found) (hclosed : ∀ b ∈ found, ∀ c, back b c → c ∈ found ∨ c ∈ done)
    (h : Strong edge root a) : a ∈ found := by
  have hfound : ∀ b, ReflTransGen edge b root → ReflTransGen edge root b → b ∈ found := by
    intro b hb
    induction hb using ReflTransGen.head_induction_on with
    | refl => exact fun _ => hroot
    | @head b c hbc hc ih =>
      intro hb
      have hfoundc : c ∈ found := ih (hb.tail hbc)
      rcases (hc.trans hb).cases_head with rfl | hedge
      · exact hfoundc
      · obtain ⟨d, hd, -⟩ := hedge
        rcases hclosed c hfoundc b (hcomplete c b hbc ⟨d, hd⟩) with hfoundb | hdoneb
        · exact hfoundb
        · exact absurd (hdone b hdoneb root ⟨.head hbc hc, hb⟩) hfresh
  exact hfound a h.2 h.1

end Musi.System
