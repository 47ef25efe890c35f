import Mathlib.Data.List.Lattice
import Mathlib.Data.Set.BooleanAlgebra
import Mathlib.Order.CompletePartialOrder
import Musi.DriftAi.ImportCyclesFinish

namespace Musi.DriftAi
open Relation Musi.Js Musi.System
set_option autoImplicit true

variable {adjacency : Adjacency} {done order : List JsString} {root node : JsString}
  {stack : List JsString} {state : ComponentState}

/-! ## The second pass -/

theorem foldl_assignNext (nexts : List JsString) (state : ComponentState) :
    ∃ added : List JsString, added.Nodup ∧ (∀ a, a ∈ added ↔ a ∈ nexts ∧ a ∉ state.assigned) ∧
      nexts.foldl assignNext state =
        { state with assigned := state.assigned ++ added, stack := added.reverse ++ state.stack } := by
  induction nexts generalizing state with
  | nil => exact ⟨[], List.nodup_nil, by simp, by simp⟩
  | cons next nexts ih =>
    obtain ⟨added, hnodup, hmem, hfold⟩ := ih (assignNext state next)
    rw [List.foldl_cons, hfold]
    rw [assignNext] at hmem ⊢
    by_cases hnext : next ∈ state.assigned
    · rw [if_pos hnext] at hmem ⊢
      refine ⟨added, hnodup, fun a => ?_, rfl⟩
      rw [hmem, List.mem_cons]
      constructor
      · rintro ⟨ha, hfresh⟩
        exact ⟨.inr ha, hfresh⟩
      · rintro ⟨rfl | ha, hfresh⟩
        · exact absurd hnext hfresh
        · exact ⟨ha, hfresh⟩
    · rw [if_neg hnext] at hmem ⊢
      dsimp only at hmem ⊢
      refine ⟨next :: added, List.nodup_cons.2 ⟨?_, hnodup⟩, fun a => ?_, ?_⟩
      · intro hadded
        exact ((hmem next).1 hadded).2 (List.mem_append_right _ (List.mem_singleton_self next))
      · rw [List.mem_cons, hmem, List.mem_cons, List.mem_append, List.mem_singleton]
        constructor
        · rintro (rfl | ⟨ha, hfresh⟩)
          · exact ⟨.inl rfl, hnext⟩
          · exact ⟨.inr ha, fun hassigned => hfresh (.inl hassigned)⟩
        · rintro ⟨rfl | ha, hfresh⟩
          · exact .inl rfl
          · by_cases heq : a = next
            · exact .inl heq
            · exact .inr ⟨ha, fun hassigned => hassigned.elim hfresh heq⟩
      · simp

/-- The nodes found so far lead to the root, and were not assigned to an earlier component. -/
structure ComponentState.Sound (adjacency : Adjacency) (done order : List JsString) (root : JsString)
    (state : ComponentState) : Prop where
  mem_assigned : ∀ a, a ∈ state.assigned ↔ a ∈ done ∨ a ∈ state.component ∨ a ∈ state.stack
  nodup : (state.component ++ state.stack).Nodup
  found : ∀ a ∈ state.component ++ state.stack,
    a ∉ done ∧ a ∈ order ∧ ReflTransGen (Imports adjacency) a root
  root : root ∈ state.component ++ state.stack
  closed : ∀ a ∈ state.component, ∀ b ∈ neighborsIn (buildTranspose adjacency) a, b ∈ state.assigned

theorem componentState_sound_start (hroot : root ∉ done) (horder : root ∈ order) :
    ComponentState.Sound adjacency done order root ⟨done ++ [root], [], [root]⟩ where
  mem_assigned := by
    intro a
    simp
  nodup := List.nodup_singleton root
  found := by
    intro a ha
    rw [List.nil_append, List.mem_singleton] at ha
    rw [ha]
    exact ⟨hroot, horder, .refl⟩
  root := List.mem_singleton_self root
  closed := by
    intro a ha
    cases ha

theorem ComponentState.Sound.step (hkeys : ∀ a ∈ adjacency.keys, a ∈ order)
    (h : state.Sound adjacency done order root) (hstack : state.stack = node :: stack) :
    (componentStep (buildTranspose adjacency) node { state with stack }).Sound adjacency done order
      root := by
  obtain ⟨added, hadded, hmem, hfold⟩ := foldl_assignNext (neighborsIn (buildTranspose adjacency) node)
    { state with component := state.component ++ [node], stack }
  dsimp only at hmem hfold
  rw [componentStep, hfold]
  have hsame : ∀ a, a ∈ (state.component ++ [node]) ++ stack ↔ a ∈ state.component ++ state.stack := by
    intro a
    rw [hstack, List.append_assoc, List.singleton_append]
  have hall : ∀ a, a ∈ (state.component ++ [node]) ++ (added.reverse ++ stack) ↔
      a ∈ state.component ++ state.stack ∨ a ∈ added := by
    intro a
    rw [← hsame]
    simp only [List.mem_append, List.mem_reverse]
    tauto
  have hassigned : ∀ a, a ∈ state.assigned ↔ a ∈ done ∨ a ∈ state.component ++ state.stack := by
    intro a
    rw [h.mem_assigned, List.mem_append]
  have hnode := h.found node (by
    rw [hstack]
    exact List.mem_append_right _ List.mem_cons_self)
  constructor
  · intro a
    dsimp only
    rw [← List.mem_append (s := state.component ++ [node]), hall, List.mem_append, hassigned, or_assoc]
  · have hnodup : ((state.component ++ [node]) ++ stack).Nodup := by
      have := h.nodup
      rwa [hstack, List.append_cons] at this
    have hdisjoint : ∀ a ∈ added, a ∉ (state.component ++ [node]) ++ stack := by
      intro a ha hold
      exact ((hmem a).1 ha).2 ((hassigned a).2 (.inr ((hsame a).1 hold)))
    dsimp only
    have hperm : ((state.component ++ [node]) ++ (added.reverse ++ stack)).Perm
        (added.reverse ++ ((state.component ++ [node]) ++ stack)) := List.perm_append_comm_assoc ..
    refine hperm.nodup_iff.2 (List.nodup_append.2 ⟨List.nodup_reverse.2 hadded, hnodup, ?_⟩)
    rintro a ha b hb rfl
    exact hdisjoint a (List.mem_reverse.1 ha) hb
  · intro a ha
    rcases (hall a).1 ha with hold | hnew
    · exact h.found a hold
    · obtain ⟨hback, hfresh⟩ := (hmem a).1 hnew
      obtain ⟨-, himports⟩ := mem_neighborsIn_buildTranspose.1 hback
      refine ⟨fun hdone => hfresh ((hassigned a).2 (.inl hdone)), hkeys a (mem_keys_of_neighborsIn himports),
        .head himports hnode.2.2⟩
  · exact (hall root).2 (.inl h.root)
  · intro a ha b hb
    dsimp only at ha ⊢
    rw [List.mem_append]
    rcases List.mem_append.1 ha with ha | ha
    · exact .inl (h.closed a ha b hb)
    · rw [List.mem_singleton.1 ha] at hb
      by_cases hold : b ∈ state.assigned
      · exact .inl hold
      · exact .inr ((hmem b).2 ⟨hb, hold⟩)

/-- Every pass adds a node of the order to the component. -/
theorem componentLoop_ends (hkeys : ∀ a ∈ adjacency.keys, a ∈ order)
    (h : state.Sound adjacency done order root) :
    ∃ ended : ComponentState, ended.Sound adjacency done order root ∧ ended.stack = [] ∧
      ∀ fuel, order.length ≤ fuel + state.component.length →
        componentLoop (buildTranspose adjacency) fuel state = some ended := by
  induction hn : order.length - state.component.length using Nat.strong_induction_on
    generalizing state with
  | _ n ih =>
    match hstack : state.stack with
    | [] =>
      refine ⟨state, h, hstack, fun fuel _ => ?_⟩
      cases fuel with
      | zero => rw [componentLoop, if_pos hstack]
      | succ fuel => rw [componentLoop, hstack]
    | node :: stack =>
      have hcomponent : (componentStep (buildTranspose adjacency) node { state with stack }).component =
          state.component ++ [node] := by
        obtain ⟨added, -, -, hfold⟩ := foldl_assignNext
          (neighborsIn (buildTranspose adjacency) node)
          { state with component := state.component ++ [node], stack }
        rw [componentStep, hfold]
      have hlt : state.component.length < order.length := by
        have hle := (List.subperm_of_subset h.nodup fun a ha => (h.found a ha).2.1).length_le
        rw [hstack, List.length_append, List.length_cons] at hle
        omega
      have hlength : (componentStep (buildTranspose adjacency) node
          { state with stack }).component.length = state.component.length + 1 := by
        rw [hcomponent, List.length_append, List.length_singleton]
      obtain ⟨ended, hended, hempty, hruns⟩ := ih _ (by omega) (h.step hkeys hstack) rfl
      refine ⟨ended, hended, hempty, fun fuel hfuel => ?_⟩
      cases fuel with
      | zero => omega
      | succ fuel =>
        rw [componentLoop, hstack]
        exact hruns fuel (by omega)

/-- The earlier components, each whole. -/
structure Assignment.Sound (adjacency : Adjacency) (assignment : Assignment) : Prop where
  mem_assigned : ∀ a, a ∈ assignment.assigned ↔ ∃ component ∈ assignment.components, a ∈ component
  nodup : ∀ component ∈ assignment.components, component.Nodup
  disjoint : assignment.components.Pairwise List.Disjoint
  component : ∀ component ∈ assignment.components,
    Component (Imports adjacency) {a | a ∈ component}

theorem Assignment.Sound.strong {assignment : Assignment} (h : assignment.Sound adjacency)
    {a b : JsString} (ha : a ∈ assignment.assigned) (hab : Strong (Imports adjacency) a b) :
    b ∈ assignment.assigned := by
  obtain ⟨component, hcomponent, hmem⟩ := (h.mem_assigned a).1 ha
  obtain ⟨r, hr⟩ := h.component component hcomponent
  exact (h.mem_assigned b).2 ⟨component, hcomponent, (hr b).2 (((hr a).1 hmem).trans hab)⟩

/-- What a search back from an unassigned root finds is the component of the root. -/
theorem ComponentState.Sound.component {assignment : Assignment} {rest assigned : List JsString}
    (hassignment : assignment.Sound adjacency)
    (horder : FinishOrder (Imports adjacency) (rest ++ root :: assigned))
    (hassigned : ∀ a ∈ assigned, a ∈ assignment.assigned)
    (h : state.Sound adjacency assignment.assigned (rest ++ root :: assigned) root)
    (hstack : state.stack = []) : ∀ a, a ∈ state.component ↔ Strong (Imports adjacency) root a := by
  have hfound : ∀ a, a ∈ state.component ++ state.stack ↔ a ∈ state.component := by
    intro a
    rw [hstack, List.append_nil]
  have hfresh : root ∉ assignment.assigned := (h.found root h.root).1
  intro a
  constructor
  · intro ha
    obtain ⟨hnew, hmem, hleads⟩ := h.found a ((hfound a).2 ha)
    exact (horder.strong {b | b ∈ assignment.assigned} hassigned
      (fun b hb c hbc => hassignment.strong hb hbc) hmem hnew hleads).symm
  · intro ha
    refine strong_of_found (fun b c => c ∈ neighborsIn (buildTranspose adjacency) b)
      {b | b ∈ state.component} {b | b ∈ assignment.assigned} ?_
      (fun b hb c hbc => hassignment.strong hb hbc) hfresh ((hfound root).1 h.root) ?_ ha
    · rintro b c hcb ⟨d, hbd⟩
      exact mem_neighborsIn_buildTranspose.2 ⟨mem_keys_of_neighborsIn hbd, hcb⟩
    · intro b hb c hc
      rcases (h.mem_assigned c).1 (h.closed b hb c hc) with hdone | hcomponent | hopen
      · exact .inr hdone
      · exact .inl hcomponent
      · rw [hstack] at hopen
        cases hopen

theorem assignRoot_ends {assignment : Assignment} {rest assigned : List JsString}
    (hassignment : assignment.Sound adjacency)
    (horder : FinishOrder (Imports adjacency) (rest ++ root :: assigned))
    (hkeys : ∀ a ∈ adjacency.keys, a ∈ rest ++ root :: assigned)
    (hassigned : ∀ a ∈ assigned, a ∈ assignment.assigned) :
    ∃ ended : Assignment, ended.Sound adjacency ∧ (∀ a ∈ root :: assigned, a ∈ ended.assigned) ∧
      ∀ fuel, (rest ++ root :: assigned).length ≤ fuel →
        assignRoot (buildTranspose adjacency) fuel assignment root = some ended := by
  by_cases hroot : root ∈ assignment.assigned
  · refine ⟨assignment, hassignment, ?_, fun fuel _ => ?_⟩
    · rw [List.forall_mem_cons]
      exact ⟨hroot, hassigned⟩
    · rw [assignRoot, if_pos hroot]
  · obtain ⟨state, hstate, hstack, hruns⟩ := componentLoop_ends hkeys
      (componentState_sound_start hroot (List.mem_append_right rest List.mem_cons_self))
    have hcomponent := ComponentState.Sound.component hassignment horder hassigned hstate hstack
    have hmem : ∀ a, a ∈ state.assigned ↔ a ∈ assignment.assigned ∨ a ∈ state.component := by
      intro a
      rw [hstate.mem_assigned, hstack]
      simp
    have hnodup := hstate.nodup
    have hfound := hstate.found
    rw [hstack, List.append_nil] at hnodup hfound
    refine ⟨⟨state.assigned, assignment.components ++ [state.component]⟩, ?_, ?_, fun fuel hfuel => ?_⟩
    · constructor
      · intro a
        dsimp only
        rw [hmem, hassignment.mem_assigned]
        simp only [List.mem_append, List.mem_singleton, or_and_right, exists_or, exists_eq_left]
      · intro component hc
        rcases List.mem_append.1 hc with hc | hc
        · exact hassignment.nodup component hc
        · rw [List.mem_singleton.1 hc]
          exact hnodup
      · refine List.pairwise_append.2 ⟨hassignment.disjoint, List.pairwise_singleton _ _, ?_⟩
        intro component hc last hlast a ha hb
        rw [List.mem_singleton.1 hlast] at hb
        exact (hfound a hb).1 ((hassignment.mem_assigned a).2 ⟨component, hc, ha⟩)
      · intro component hc
        rcases List.mem_append.1 hc with hc | hc
        · exact hassignment.component component hc
        · rw [List.mem_singleton.1 hc]
          exact ⟨root, hcomponent⟩
    · rw [List.forall_mem_cons]
      exact ⟨(hmem root).2 (.inr ((hcomponent root).2 (.refl root))),
        fun a ha => (hmem a).2 (.inl (hassigned a ha))⟩
    · rw [assignRoot, if_neg hroot, hruns fuel (by simpa using hfuel), Option.map_some]

/-- The nodes of the order that come last were assigned before the ones that come first. -/
theorem foldlM_assignRoot_ends {assignment : Assignment} {roots assigned : List JsString}
    (hassignment : assignment.Sound adjacency)
    (horder : FinishOrder (Imports adjacency) (roots.reverse ++ assigned))
    (hkeys : ∀ a ∈ adjacency.keys, a ∈ roots.reverse ++ assigned)
    (hassigned : ∀ a ∈ assigned, a ∈ assignment.assigned) :
    ∃ ended : Assignment, ended.Sound adjacency ∧
      (∀ a ∈ roots.reverse ++ assigned, a ∈ ended.assigned) ∧
      ∀ fuel, (roots.reverse ++ assigned).length ≤ fuel →
        roots.foldlM (assignRoot (buildTranspose adjacency) fuel) assignment = some ended := by
  induction roots generalizing assignment assigned with
  | nil => exact ⟨assignment, hassignment, hassigned, fun fuel _ => rfl⟩
  | cons root roots ih =>
    rw [List.reverse_cons, List.append_assoc, List.singleton_append] at horder hkeys
    obtain ⟨mid, hmid, hroot, hfirst⟩ := assignRoot_ends hassignment horder hkeys hassigned
    obtain ⟨ended, hended, hcovers, hruns⟩ := ih hmid horder hkeys hroot
    rw [List.reverse_cons, List.append_assoc, List.singleton_append]
    refine ⟨ended, hended, hcovers, fun fuel hfuel => ?_⟩
    rw [List.foldlM_cons, hfirst fuel hfuel]
    exact hruns fuel hfuel

/-- The components that the two passes give: each whole and once, and no file of the graph left out. -/
structure ComponentsOf (adjacency : Adjacency) (components : List (List JsString)) : Prop where
  nodup : ∀ component ∈ components, component.Nodup
  disjoint : components.Pairwise List.Disjoint
  component : ∀ component ∈ components, Component (Imports adjacency) {a | a ∈ component}
  covers : ∀ a ∈ adjacency.keys, ∃ component ∈ components, a ∈ component

theorem stronglyConnectedComponents_ends (adjacency : Adjacency) :
    ∃ components enough, ComponentsOf adjacency components ∧ ∀ fuel, enough ≤ fuel →
      stronglyConnectedComponents fuel adjacency = some components := by
  obtain ⟨order, horder, hkeys, hfinish⟩ := finishOrder_ends adjacency
  have hstart : Assignment.Sound adjacency ⟨[], []⟩ := by
    constructor
    · simp
    · simp
    · exact List.Pairwise.nil
    · simp
  have horder' : FinishOrder (Imports adjacency) (order.reverse.reverse ++ []) := by
    rwa [List.reverse_reverse, List.append_nil]
  have hkeys' : ∀ a ∈ adjacency.keys, a ∈ order.reverse.reverse ++ [] := by
    rwa [List.reverse_reverse, List.append_nil]
  obtain ⟨ended, hended, hcovers, hruns⟩ := foldlM_assignRoot_ends hstart horder' hkeys' (by simp)
  refine ⟨ended.components, max (passes adjacency (nodesOf adjacency)) order.length,
    ⟨hended.nodup, hended.disjoint, hended.component, ?_⟩, fun fuel hfuel => ?_⟩
  · intro a ha
    exact (hended.mem_assigned a).1 (hcovers a (hkeys' a ha))
  · have hfirst := hfinish fuel (le_of_max_le_left hfuel)
    have hsecond := hruns fuel (by
      rw [List.reverse_reverse, List.append_nil]
      exact le_of_max_le_right hfuel)
    rw [stronglyConnectedComponents, hfirst]
    simp only [Option.bind_eq_bind, Option.bind_some, assignComponents, hsecond, Option.map_some]

/-! ## Cycles -/

theorem isCycle_iff {component : List JsString} (h : component.Nodup) :
    isCycle component = true ↔ {a | a ∈ component}.Nontrivial := by
  rw [isCycle, decide_eq_true_eq]
  constructor
  · intro hlength
    match component, h, hlength with
    | a :: b :: rest, h, _ =>
      refine ⟨a, List.mem_cons_self, b, List.mem_cons_of_mem _ List.mem_cons_self, ?_⟩
      rintro rfl
      exact (List.nodup_cons.1 h).1 List.mem_cons_self
  · rintro ⟨a, ha, b, hb, hne⟩
    match component, ha, hb with
    | [c], ha, hb =>
      exact absurd ((List.mem_singleton.1 ha).trans (List.mem_singleton.1 hb).symm) hne
    | c :: d :: rest, _, _ => exact Nat.le_add_left 2 rest.length

/-- The components that are kept are the cycles of the graph. -/
theorem ComponentsOf.cycles {components : List (List JsString)}
    (h : ComponentsOf adjacency components) (members : Set JsString) :
    (∃ component ∈ components.filter isCycle, {a | a ∈ component} = members) ↔
      Cycle (Imports adjacency) members := by
  constructor
  · rintro ⟨component, hmem, rfl⟩
    obtain ⟨hcomponent, hcycle⟩ := List.mem_filter.1 hmem
    exact ⟨h.component component hcomponent, (isCycle_iff (h.nodup component hcomponent)).1 hcycle⟩
  · intro hcycle
    obtain ⟨a, ha⟩ := hcycle.2.nonempty
    obtain ⟨b, hb⟩ := hcycle.exists_edge ha
    obtain ⟨component, hcomponent, hmem⟩ := h.covers a (mem_keys_of_neighborsIn hb)
    have heq : {a | a ∈ component} = members :=
      (h.component component hcomponent).eq_of_mem hcycle.1 hmem ha
    refine ⟨component, List.mem_filter.2 ⟨hcomponent, ?_⟩, heq⟩
    rw [isCycle_iff (h.nodup component hcomponent), heq]
    exact hcycle.2

/-- An import of one module by another, type-only or not. -/
def ModuleGraph.ImportsModule (graph : ModuleGraph) (a b : JsString) : Prop :=
  ∃ edges, graph.edges.get a = some edges ∧ ∃ edge ∈ edges, edge.target = b

/-- An import that exists at runtime. -/
def ModuleGraph.ImportsAtRuntime (graph : ModuleGraph) (a b : JsString) : Prop :=
  ∃ edges, graph.edges.get a = some edges ∧ ∃ edge ∈ edges, edge.target = b ∧ edge.typeOnly = false

theorem imports_buildAdjacency {graph : ModuleGraph} {includeTypeOnly : Bool} {a b : JsString} :
    Imports (buildAdjacency graph includeTypeOnly) a b ↔
      ∃ edges, graph.edges.get a = some edges ∧ ∃ edge ∈ edges,
        (includeTypeOnly = true ∨ edge.typeOnly = false) ∧ edge.target = b := by
  rw [Imports, neighborsIn, get_buildAdjacency]
  cases graph.edges.get a with
  | none => simp
  | some edges => simp [targets, and_assoc]

theorem imports_full (graph : ModuleGraph) :
    Imports (buildAdjacency graph true) = graph.ImportsModule := by
  funext a b
  rw [ModuleGraph.ImportsModule, imports_buildAdjacency]
  simp

theorem imports_value (graph : ModuleGraph) :
    Imports (buildAdjacency graph false) = graph.ImportsAtRuntime := by
  funext a b
  rw [ModuleGraph.ImportsAtRuntime, imports_buildAdjacency]
  simp [and_comm]

/-- A cycle of the whole graph that no runtime cycle meets. -/
def ModuleGraph.TypeOnlyCycle (graph : ModuleGraph) (members : Set JsString) : Prop :=
  Cycle graph.ImportsModule members ∧
    ∀ runtime, Cycle graph.ImportsAtRuntime runtime → Disjoint members runtime

/-- The member sets of the cycles that are listed. -/
def memberSets (cycles : List (List JsString)) : Set (Set JsString) :=
  {members | ∃ cycle ∈ cycles, {a | a ∈ cycle} = members}

/-- Every cycle is listed once, and with every member once. -/
def ListedOnce (cycles : List (List JsString)) : Prop :=
  (∀ cycle ∈ cycles, cycle.Nodup) ∧ cycles.Pairwise List.Disjoint

theorem ListedOnce.filter {cycles : List (List JsString)} (h : ListedOnce cycles)
    (p : List JsString → Bool) : ListedOnce (cycles.filter p) :=
  ⟨fun cycle hcycle => h.1 cycle (List.mem_filter.1 hcycle).1, h.2.filter p⟩

section

variable [Locale]

theorem ListedOnce.sorted {cycles : List (List JsString)} (h : ListedOnce cycles) :
    ListedOnce (cycles.map sortedCycle) := by
  constructor
  · intro cycle hcycle
    obtain ⟨component, hcomponent, rfl⟩ := List.mem_map.1 hcycle
    exact nodup_sortBy.2 (h.1 component hcomponent)
  · refine List.pairwise_map.2 (h.2.imp ?_)
    intro first second hdisjoint a ha hb
    exact hdisjoint (mem_sortBy.1 ha) (mem_sortBy.1 hb)

theorem memberSets_sorted (cycles : List (List JsString)) :
    memberSets (cycles.map sortedCycle) = memberSets cycles := by
  ext members
  have hsorted (cycle : List JsString) : {a | a ∈ sortedCycle cycle} = {a | a ∈ cycle} := by
    ext a
    exact mem_sortBy
  constructor
  · rintro ⟨_, hcycle, rfl⟩
    obtain ⟨cycle, hmem, rfl⟩ := List.mem_map.1 hcycle
    exact ⟨cycle, hmem, (hsorted cycle).symm⟩
  · rintro ⟨cycle, hmem, rfl⟩
    exact ⟨sortedCycle cycle, List.mem_map_of_mem hmem, hsorted cycle⟩

/-- What the search gives with enough passes. -/
def Detects (graph : ModuleGraph) (cycles : DetectedCycles) : Prop :=
  ∃ enough, ∀ fuel, enough ≤ fuel → findCycles fuel graph = some cycles

/-- The cycles of a graph, by their members. -/
structure CyclesOf (graph : ModuleGraph) (cycles : DetectedCycles) : Prop where
  runtime : memberSets cycles.runtimeCycles = {members | Cycle graph.ImportsAtRuntime members}
  typeOnly : memberSets cycles.typeOnlyCycles = {members | graph.TypeOnlyCycle members}
  runtime_once : ListedOnce cycles.runtimeCycles
  typeOnly_once : ListedOnce cycles.typeOnlyCycles

theorem findCycles_ends (graph : ModuleGraph) :
    ∃ cycles, Detects graph cycles ∧ CyclesOf graph cycles := by
  obtain ⟨full, enoughFull, hfull, hruns⟩ :=
    stronglyConnectedComponents_ends (buildAdjacency graph true)
  obtain ⟨value, enoughValue, hvalue, hruns'⟩ :=
    stronglyConnectedComponents_ends (buildAdjacency graph false)
  have hruntime : ∀ members, members ∈ memberSets (value.filter isCycle) ↔
      Cycle graph.ImportsAtRuntime members := by
    intro members
    rw [← imports_value]
    exact hvalue.cycles members
  have hwhole : ∀ members, members ∈ memberSets (full.filter isCycle) ↔
      Cycle graph.ImportsModule members := by
    intro members
    rw [← imports_full]
    exact hfull.cycles members
  have hnode : ∀ a, a ∈ (value.filter isCycle).flatten ↔
      ∃ runtime, Cycle graph.ImportsAtRuntime runtime ∧ a ∈ runtime := by
    intro a
    rw [List.mem_flatten]
    constructor
    · rintro ⟨cycle, hcycle, ha⟩
      exact ⟨_, (hruntime _).1 ⟨cycle, hcycle, rfl⟩, ha⟩
    · rintro ⟨runtime, hcycle, ha⟩
      obtain ⟨cycle, hmem, rfl⟩ := (hruntime runtime).2 hcycle
      exact ⟨cycle, hmem, ha⟩
  have hkept : ∀ scc : List JsString,
      (scc.all fun node => node ∉ (value.filter isCycle).flatten) = true ↔
        ∀ runtime, Cycle graph.ImportsAtRuntime runtime → Disjoint {a | a ∈ scc} runtime := by
    intro scc
    simp only [List.all_eq_true, decide_eq_true_eq, hnode, Set.disjoint_left, Set.mem_ofPred_eq]
    constructor
    · intro h runtime hcycle a ha hb
      exact h a ha ⟨runtime, hcycle, hb⟩
    · rintro h a ha ⟨runtime, hcycle, hb⟩
      exact h runtime hcycle ha hb
  refine ⟨⟨(value.filter isCycle).map sortedCycle, ((full.filter isCycle).filter fun scc =>
    scc.all fun node => node ∉ (value.filter isCycle).flatten).map sortedCycle⟩,
    ⟨max enoughFull enoughValue, fun fuel hfuel => ?_⟩, ⟨?_, ?_, ?_, ?_⟩⟩
  · rw [findCycles, hruns fuel (le_of_max_le_left hfuel), hruns' fuel (le_of_max_le_right hfuel)]
    rfl
  · rw [memberSets_sorted]
    ext members
    exact hruntime members
  · rw [memberSets_sorted]
    ext members
    constructor
    · rintro ⟨scc, hmem, rfl⟩
      obtain ⟨hscc, hdisjoint⟩ := List.mem_filter.1 hmem
      exact ⟨(hwhole _).1 ⟨scc, hscc, rfl⟩, (hkept scc).1 hdisjoint⟩
    · rintro ⟨hcycle, hdisjoint⟩
      obtain ⟨scc, hscc, rfl⟩ := (hwhole members).2 hcycle
      exact ⟨scc, List.mem_filter.2 ⟨hscc, (hkept scc).2 hdisjoint⟩, rfl⟩
  · exact (ListedOnce.filter ⟨hvalue.nodup, hvalue.disjoint⟩ isCycle).sorted
  · exact ((ListedOnce.filter ⟨hfull.nodup, hfull.disjoint⟩ isCycle).filter _).sorted

/-- The same files with the same edges, in other orders. -/
def Reordered (graph reordered : ModuleGraph) : Prop :=
  graph.edges.keys.Perm reordered.edges.keys ∧ ∀ file edges edges', graph.edges.get file = some edges →
    reordered.edges.get file = some edges' → edges.Perm edges'

omit [Locale] in
theorem Reordered.edges {graph reordered : ModuleGraph} (h : Reordered graph reordered)
    (P : ModuleEdge → Prop) (a : JsString) :
    (∃ edges, graph.edges.get a = some edges ∧ ∃ edge ∈ edges, P edge) ↔
      ∃ edges, reordered.edges.get a = some edges ∧ ∃ edge ∈ edges, P edge := by
  constructor
  · rintro ⟨edges, hedges, edge, hedge, hp⟩
    obtain ⟨edges', hedges'⟩ := JsMap.mem_keys.1 (h.1.mem_iff.1 (JsMap.mem_keys.2 ⟨edges, hedges⟩))
    exact ⟨edges', hedges', edge, (h.2 a edges edges' hedges hedges').mem_iff.1 hedge, hp⟩
  · rintro ⟨edges', hedges', edge, hedge, hp⟩
    obtain ⟨edges, hedges⟩ := JsMap.mem_keys.1 (h.1.mem_iff.2 (JsMap.mem_keys.2 ⟨edges', hedges'⟩))
    exact ⟨edges, hedges, edge, (h.2 a edges edges' hedges hedges').mem_iff.2 hedge, hp⟩

/-- The search ends with the cycles of the graph, and in every order of its files and edges with the
same ones. -/
theorem findCycles_exact (graph : ModuleGraph) :
    ∃ cycles, Detects graph cycles ∧ CyclesOf graph cycles ∧
      ∀ reordered, Reordered graph reordered → ∃ cycles', Detects reordered cycles' ∧
        memberSets cycles'.runtimeCycles = memberSets cycles.runtimeCycles ∧
        memberSets cycles'.typeOnlyCycles = memberSets cycles.typeOnlyCycles := by
  obtain ⟨cycles, hdetects, hcycles⟩ := findCycles_ends graph
  refine ⟨cycles, hdetects, hcycles, fun reordered hreordered => ?_⟩
  obtain ⟨cycles', hdetects', hcycles'⟩ := findCycles_ends reordered
  have hmodule : graph.ImportsModule = reordered.ImportsModule := by
    funext a b
    exact propext (hreordered.edges (fun edge => edge.target = b) a)
  have hruntime : graph.ImportsAtRuntime = reordered.ImportsAtRuntime := by
    funext a b
    exact propext (hreordered.edges (fun edge => edge.target = b ∧ edge.typeOnly = false) a)
  refine ⟨cycles', hdetects', ?_, ?_⟩
  · rw [hcycles'.runtime, hcycles.runtime, hruntime]
  · have htypeOnly : graph.TypeOnlyCycle = reordered.TypeOnlyCycle := by
      funext members
      rw [ModuleGraph.TypeOnlyCycle, ModuleGraph.TypeOnlyCycle, hmodule, hruntime]
    rw [hcycles'.typeOnly, hcycles.typeOnly, htypeOnly]

end

end Musi.DriftAi
