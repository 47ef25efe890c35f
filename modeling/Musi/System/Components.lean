import Mathlib.Logic.Relation
import Mathlib.Data.List.Nodup
import Mathlib.Data.List.Pairwise
import Mathlib.Data.List.Perm.Basic

namespace Musi.System
open Relation
set_option autoImplicit true

variable {α G : Type} {edge : α → α → Prop} {items : List α} {classes : List (List α)} {size : Nat}

/-! ## Connected classes -/

/-- A chain of edges through the items. -/
def Chained (edge : α → α → Prop) (items : List α) : α → α → Prop :=
  ReflTransGen fun a b => b ∈ items ∧ edge a b

theorem Chained.mono {edge' : α → α → Prop} {items' : List α} {a b : α}
    (hitems : ∀ a b, b ∈ items → edge a b → b ∈ items' ∧ edge' a b) (h : Chained edge items a b) :
    Chained edge' items' a b :=
  h.lift id fun a b hab => hitems a b hab.1 hab.2

theorem Chained.mem {a b : α} (h : Chained edge items a b) (ha : a ∈ items) : b ∈ items := by
  induction h with
  | refl => exact ha
  | tail _ hbc _ => exact hbc.1

theorem Chained.symm (hsymm : ∀ a b, edge a b → edge b a) {a b : α} (ha : a ∈ items)
    (h : Chained edge items a b) : Chained edge items b a := by
  induction h with
  | refl => exact .refl
  | @tail b c hab hbc ih => exact .head ⟨Chained.mem hab ha, hsymm b c hbc.2⟩ ih

/-- The items by the chains between them. -/
structure Classes (edge : α → α → Prop) (items : List α) (classes : List (List α)) : Prop where
  perm : classes.flatten.Perm items
  inhabited : ∀ c ∈ classes, c ≠ []
  inside : ∀ c ∈ classes, ∀ a ∈ c, ∀ b ∈ c, Chained edge items a b
  apart : classes.Pairwise fun c d => ∀ a ∈ c, ∀ b ∈ d, ¬ edge a b

theorem Classes.mem_iff (h : Classes edge items classes) (hsymm : ∀ a b, edge a b → edge b a)
    {c : List α} (hc : c ∈ classes) {a b : α} (ha : a ∈ c) : b ∈ c ↔ Chained edge items a b := by
  refine ⟨h.inside c hc a ha b, fun hab => ?_⟩
  induction hab with
  | refl => exact ha
  | @tail b d _ hbd ih =>
    obtain ⟨c', hc', hd⟩ := List.mem_flatten.1 (h.perm.mem_iff.2 hbd.1)
    by_cases heq : c = c'
    · rw [heq]
      exact hd
    · have hsymmetric : Std.Symm fun c d : List α => ∀ a ∈ c, ∀ b ∈ d, ¬ edge a b :=
        ⟨fun c d hcd a ha b hb hab => hcd b hb a ha (hsymm a b hab)⟩
      exact absurd hbd.2 (h.apart.forall hc hc' heq b ih d hd)

theorem Classes.congr {edge' : α → α → Prop}
    (hedge : ∀ a ∈ items, ∀ b ∈ items, (edge a b ↔ edge' a b)) (h : Classes edge items classes) :
    Classes edge' items classes := by
  have hmem {c : List α} (hc : c ∈ classes) {a : α} (ha : a ∈ c) : a ∈ items :=
    h.perm.mem_iff.1 (List.mem_flatten.2 ⟨c, hc, ha⟩)
  refine ⟨h.perm, h.inhabited, fun c hc a ha b hb => ?_, ?_⟩
  · have hchained := h.inside c hc a ha b hb
    clear hb
    induction hchained with
    | refl => exact .refl
    | @tail d e had hde ih =>
      have hd := Chained.mem had (hmem hc ha)
      exact ih.tail ⟨hde.1, (hedge d hd e hde.1).1 hde.2⟩
  · refine h.apart.imp_of_mem fun hc hd hcd a ha b hb hab => ?_
    exact hcd a ha b hb ((hedge a (hmem hc ha) b (hmem hd hb)).2 hab)

/-- The classes of parts that no edges lead between. -/
theorem Classes.flatMap {β : Type} {part : β → List α} {f : β → List (List α)} {l : List β}
    (h : ∀ b ∈ l, Classes edge (part b) (f b)) (hperm : (l.flatMap part).Perm items)
    (hapart : l.Pairwise fun b b' => ∀ x ∈ part b, ∀ y ∈ part b', ¬ edge x y) :
    Classes edge items (l.flatMap f) := by
  have hmem {b : β} (hb : b ∈ l) {x : α} (hx : x ∈ part b) : x ∈ items :=
    hperm.mem_iff.1 (List.mem_flatMap.2 ⟨b, hb, hx⟩)
  have hflatten (b : β) (hb : b ∈ l) : (f b).flatten.Perm (part b) := (h b hb).perm
  refine ⟨?_, fun c hc => ?_, fun c hc x hx y hy => ?_, ?_⟩
  · refine List.Perm.trans ?_ hperm
    rw [← List.flatMap_id, List.flatMap_assoc]
    simp only [List.flatMap_id]
    exact List.Perm.flatMap_left l hflatten
  · obtain ⟨b, hb, hc⟩ := List.mem_flatMap.1 hc
    exact (h b hb).inhabited c hc
  · obtain ⟨b, hb, hc⟩ := List.mem_flatMap.1 hc
    exact Chained.mono (fun _ _ hy hxy => ⟨hmem hb hy, hxy⟩) ((h b hb).inside c hc x hx y hy)
  · rw [List.pairwise_flatMap]
    refine ⟨fun b hb => (h b hb).apart, hapart.imp_of_mem fun hb hb' hbb' c hc d hd x hx y hy => ?_⟩
    exact hbb' x ((hflatten _ hb).mem_iff.1 (List.mem_flatten.2 ⟨c, hc, hx⟩)) y
      ((hflatten _ hb').mem_iff.1 (List.mem_flatten.2 ⟨d, hd, hy⟩))

/-! ## Packing classes into groups of bounded size -/

/-- As few parts as the size allows, as even as they can be. -/
structure Cut (size : Nat) (whole : List α) (parts : List (List α)) : Prop where
  joined : parts.flatten = whole
  sized : ∀ part ∈ parts, 1 ≤ part.length ∧ part.length ≤ size
  least : ∀ n, whole.length ≤ n * size → parts.length ≤ n
  even : ∀ part ∈ parts, ∀ other ∈ parts, part.length ≤ other.length + 1

/-- Classes that fill one group, or a class that is divided into several. -/
inductive Block (α : Type) where
  | fitted (classes : List (List α))
  | divided (whole : List α) (parts : List (List α))

namespace Block

def packs : Block α → List (List α)
  | fitted classes => classes
  | divided whole _ => [whole]

def groups : Block α → List (List α × Bool)
  | fitted classes => [(classes.flatten, false)]
  | divided _ parts => parts.map fun part => (part, true)

def Fits (size : Nat) : Block α → Prop
  | fitted classes => classes.flatten ≠ [] ∧ classes.flatten.length ≤ size
  | divided whole parts => size < whole.length ∧ Cut size whole parts

theorem flatMap_groups {block : Block α} (h : block.Fits size) :
    block.groups.flatMap Prod.fst = block.packs.flatten := by
  cases block with
  | fitted classes => rw [groups, List.flatMap_singleton]; rfl
  | divided whole parts =>
    rw [groups, List.flatMap_map, packs, List.flatten_singleton]
    change parts.flatMap id = whole
    rw [List.flatMap_id, h.2.joined]

end Block

/-- The groups are blocks of the classes, in their order. -/
def Packed (size : Nat) (classes : List (List α)) (groups : List (List α × Bool)) : Prop :=
  ∃ blocks : List (Block α), (∀ block ∈ blocks, block.Fits size) ∧
    blocks.flatMap Block.packs = classes ∧ blocks.flatMap Block.groups = groups

theorem flatten_packs (blocks : List (Block α)) : (blocks.flatMap Block.packs).flatten =
    blocks.flatMap fun block => block.packs.flatten := by
  rw [← List.flatMap_id, List.flatMap_assoc]
  simp only [List.flatMap_id]

theorem Packed.perm {groups : List (List α × Bool)} (h : Packed size classes groups) :
    (groups.flatMap Prod.fst).Perm classes.flatten := by
  obtain ⟨blocks, hfits, rfl, rfl⟩ := h
  rw [List.flatMap_assoc, flatten_packs]
  exact List.Perm.of_eq (List.flatMap_congr fun block hblock =>
    Block.flatMap_groups (hfits block hblock))

theorem Packed.append {classes' : List (List α)} {groups groups' : List (List α × Bool)}
    (h : Packed size classes groups) (h' : Packed size classes' groups') :
    Packed size (classes ++ classes') (groups ++ groups') := by
  obtain ⟨blocks, hfits, rfl, rfl⟩ := h
  obtain ⟨blocks', hfits', rfl, rfl⟩ := h'
  refine ⟨blocks ++ blocks', fun block hblock => ?_, List.flatMap_append, List.flatMap_append⟩
  rcases List.mem_append.1 hblock with hblock | hblock
  · exact hfits block hblock
  · exact hfits' block hblock

theorem Packed.single {block : Block α} (h : block.Fits size) :
    Packed size block.packs block.groups :=
  ⟨[block], fun _ hblock => List.mem_singleton.1 hblock ▸ h, List.flatMap_singleton _ _,
    List.flatMap_singleton _ _⟩

theorem Packed.nil : Packed size ([] : List (List α)) [] :=
  ⟨[], fun _ hblock => (List.not_mem_nil hblock).elim, rfl, rfl⟩

theorem Packed.flatMap {β : Type} {f : β → List (List α)} {g : β → List (List α × Bool)} {l : List β}
    (h : ∀ b ∈ l, Packed size (f b) (g b)) : Packed size (l.flatMap f) (l.flatMap g) := by
  induction l with
  | nil => exact Packed.nil
  | cons b l ih =>
    rw [List.forall_mem_cons] at h
    rw [List.flatMap_cons, List.flatMap_cons]
    exact h.1.append (ih h.2)

/-- Groups that hold every item once, in bounded numbers, and keep what is chained together unless
there is too much of it; what is divided is then divided into as few groups as possible. -/
structure Arranged (edge : α → α → Prop) (size : Nat) (items : List α) (members : G → List α)
    (divided : G → Bool) (groups : List G) : Prop where
  perm : (groups.flatMap members).Perm items
  sized : ∀ g ∈ groups, 1 ≤ (members g).length ∧ (members g).length ≤ size
  together : ∀ g ∈ groups, ∀ g' ∈ groups, ∀ a ∈ members g, ∀ b ∈ members g',
    Chained edge items a b → g = g' ∨ divided g = true ∧ divided g' = true
  split : ∀ g ∈ groups, divided g = true → ∀ a ∈ members g, ∃ component : List α, ∃ parts : List G,
    component.Nodup ∧ (∀ b, b ∈ component ↔ Chained edge items a b) ∧ size < component.length ∧
      parts.Sublist groups ∧
      (∀ g' ∈ groups, g' ∈ parts ↔ ∃ b ∈ members g', Chained edge items a b) ∧
      Cut size component (parts.map members)

theorem Block.fits_sized {block : Block α} (h : block.Fits size) {group : List α × Bool}
    (hgroup : group ∈ block.groups) : 1 ≤ group.1.length ∧ group.1.length ≤ size := by
  cases block with
  | fitted classes =>
    cases List.mem_singleton.1 hgroup
    exact ⟨List.length_pos_of_ne_nil h.1, h.2⟩
  | divided whole parts =>
    obtain ⟨part, hpart, rfl⟩ := List.mem_map.1 hgroup
    exact h.2.sized part hpart

theorem disjoint_of_nodup {β : Type} {f : β → List α} {l : List β} (h : (l.flatMap f).Nodup)
    {b b' : β} (hb : b ∈ l) (hb' : b' ∈ l) (hne : b ≠ b') : List.Disjoint (f b) (f b') := by
  have hsymmetric : Std.Symm (Function.onFun List.Disjoint f) := ⟨fun _ _ hd _ hb' hb => hd hb hb'⟩
  exact (List.nodup_flatMap.1 h).2.forall hb hb' hne

/-- Packing the connected classes arranges the items. -/
theorem Packed.arranged {members : G → List α} {divided : G → Bool} {groups : List G}
    (h : Packed size classes (groups.map fun g => (members g, divided g)))
    (hclasses : Classes edge items classes) (hsymm : ∀ a b, edge a b → edge b a)
    (hitems : items.Nodup) : Arranged edge size items members divided groups := by
  have hperm : (groups.flatMap members).Perm items := by
    have hfst : groups.flatMap members =
        (groups.map fun g => (members g, divided g)).flatMap Prod.fst := by
      rw [List.flatMap_map]
    rw [hfst]
    exact h.perm.trans hclasses.perm
  obtain ⟨blocks, hfits, rfl, hgroups⟩ := h
  have hnodup := hclasses.perm.nodup_iff.2 hitems
  have hone {g g' : G} (hg : g ∈ groups) (hg' : g' ∈ groups) {b : α} (hb : b ∈ members g)
      (hb' : b ∈ members g') : g = g' := by
    by_contra hne
    exact disjoint_of_nodup (hperm.nodup_iff.2 hitems) hg hg' hne hb hb'
  rw [flatten_packs] at hnodup
  have hblockOne {block block' : Block α} (hblock : block ∈ blocks) (hblock' : block' ∈ blocks)
      {b : α} (hb : b ∈ block.packs.flatten) (hb' : b ∈ block'.packs.flatten) :
      block = block' := by
    by_contra hne
    exact disjoint_of_nodup hnodup hblock hblock' hne hb hb'
  have hfind {g : G} (hg : g ∈ groups) : ∃ block ∈ blocks, (members g, divided g) ∈ block.groups :=
    List.mem_flatMap.1 (hgroups ▸ List.mem_map_of_mem (f := fun g => (members g, divided g)) hg)
  have hinside {block : Block α} (hblock : block ∈ blocks) {group : List α × Bool}
      (hgroup : group ∈ block.groups) {b : α} (hb : b ∈ group.1) : b ∈ block.packs.flatten := by
    rw [← Block.flatMap_groups (hfits block hblock)]
    exact List.mem_flatMap.2 ⟨group, hgroup, hb⟩
  -- A chain stays in the block where it starts.
  have hchain {block : Block α} (hblock : block ∈ blocks) {a b : α}
      (ha : a ∈ block.packs.flatten) (hab : Chained edge items a b) :
      b ∈ block.packs.flatten := by
    obtain ⟨c, hc, ha⟩ := List.mem_flatten.1 ha
    have hc' := List.mem_flatMap.2 ⟨block, hblock, hc⟩
    exact List.mem_flatten.2 ⟨c, hc, (hclasses.mem_iff hsymm hc' ha).2 hab⟩
  refine ⟨hperm, fun g hg => ?_, ?_, ?_⟩
  · obtain ⟨block, hblock, hgroup⟩ := hfind hg
    exact Block.fits_sized (hfits block hblock) hgroup
  · intro g hg g' hg' a ha b hb hab
    obtain ⟨block, hblock, hgroup⟩ := hfind hg
    obtain ⟨block', hblock', hgroup'⟩ := hfind hg'
    have hsame := hblockOne hblock hblock' (hchain hblock (hinside hblock hgroup ha) hab)
      (hinside hblock' hgroup' hb)
    cases hsame
    cases block with
    | fitted classes =>
      have heq : members g = members g' := (Prod.mk.inj
        ((List.mem_singleton.1 hgroup).trans (List.mem_singleton.1 hgroup').symm)).1
      exact .inl (hone hg hg' ha (heq ▸ ha))
    | divided whole parts =>
      obtain ⟨part, -, hpart⟩ := List.mem_map.1 hgroup
      obtain ⟨part', -, hpart'⟩ := List.mem_map.1 hgroup'
      exact .inr ⟨(Prod.mk.inj hpart).2.symm, (Prod.mk.inj hpart').2.symm⟩
  · intro g hg hdivided a ha
    obtain ⟨block, hblock, hgroup⟩ := hfind hg
    have ha' := hinside hblock hgroup ha
    cases block with
    | fitted classes =>
      have hfalse : divided g = false := (Prod.mk.inj (List.mem_singleton.1 hgroup)).2
      rw [hfalse] at hdivided
      cases hdivided
    | divided whole parts =>
      obtain ⟨hlarge, hcut⟩ := hfits _ hblock
      obtain ⟨before, after, hsplit⟩ := List.append_of_mem hblock
      rw [hsplit, List.flatMap_append, List.flatMap_cons] at hgroups
      obtain ⟨first, rest, rfl, -, hrest⟩ := List.map_eq_append_iff.1 hgroups.symm
      obtain ⟨chosen, last, rfl, hchosen, -⟩ := List.map_eq_append_iff.1 hrest
      have hwhole : (Block.divided whole parts).packs.flatten = whole := List.flatten_singleton
      rw [hwhole] at ha'
      have hmem (b : α) : b ∈ whole ↔ Chained edge items a b :=
        hclasses.mem_iff hsymm (List.mem_flatMap.2 ⟨_, hblock, List.mem_singleton_self _⟩) ha'
      have hparts : chosen.map members = parts := by
        have hfst := congrArg (List.map Prod.fst) hchosen
        rw [List.map_map, Block.groups, List.map_map] at hfst
        exact hfst.trans (List.map_id _)
      refine ⟨whole, chosen, ?_, hmem, hlarge, ?_, fun g' hg' => ⟨fun hmemChosen => ?_, ?_⟩, ?_⟩
      · have hmemBlock := (List.nodup_flatMap.1 hnodup).1 _ hblock
        rwa [hwhole] at hmemBlock
      · exact (List.sublist_append_left _ _).trans (List.sublist_append_right _ _)
      · have hpart : members g' ∈ parts := hparts ▸ List.mem_map_of_mem hmemChosen
        obtain ⟨b, hb⟩ := List.exists_mem_of_length_pos (hcut.sized _ hpart).1
        refine ⟨b, hb, (hmem b).1 ?_⟩
        rw [← hcut.joined]
        exact List.mem_flatten.2 ⟨_, hpart, hb⟩
      · rintro ⟨b, hb, hab⟩
        have hbwhole := (hmem b).2 hab
        rw [← hcut.joined, ← hparts] at hbwhole
        obtain ⟨part, hpart, hb'⟩ := List.mem_flatten.1 hbwhole
        obtain ⟨other, hother, rfl⟩ := List.mem_map.1 hpart
        have hothers : other ∈ first ++ (chosen ++ last) :=
          List.mem_append_right _ (List.mem_append_left _ hother)
        exact hone hothers hg' hb' hb ▸ hother
      · rw [hparts]
        exact hcut

end Musi.System
