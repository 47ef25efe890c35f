import Mathlib.Algebra.Order.BigOperators.Group.List
import Mathlib.Algebra.Order.Group.Nat
import Mathlib.Algebra.Ring.Nat
import Mathlib.Data.List.Perm.Subperm
import Musi.DriftAi.ImportCycles
import Musi.System.StrongComponents

namespace Musi.DriftAi
open Relation Musi.Js Musi.System
set_option autoImplicit true

/-- The edges that a search follows. -/
def Imports (adjacency : Adjacency) (a b : JsString) : Prop := b ∈ neighborsIn adjacency a

variable {adjacency : Adjacency} {state : FinishState} {top : Frame} {rest : List Frame}

/-! ## The first pass -/

/-- The nodes that were entered and not left, the last one first. -/
def FinishState.opened (state : FinishState) : List JsString := state.stack.map Frame.node

/-- A node that was left is settled, or it is in the component of a node that is still open. -/
structure FinishState.Sound (adjacency : Adjacency) (state : FinishState) : Prop where
  mem_visited : ∀ a, a ∈ state.visited ↔ a ∈ state.order ∨ a ∈ state.opened
  nodup : (state.order ++ state.opened).Nodup
  chain : state.opened.Pairwise fun upper lower => ReflTransGen (Imports adjacency) lower upper
  bounded : ∀ frame ∈ state.stack, frame.index ≤ (neighborsIn adjacency frame.node).length
  followed : ∀ frame ∈ state.stack,
    ∀ b ∈ (neighborsIn adjacency frame.node).take frame.index, b ∈ state.visited
  closed : ∀ a ∈ state.order, ∀ b, Imports adjacency a b → b ∈ state.visited
  settled : ∀ a ∈ state.order, Settled (Imports adjacency) state.order a ∨
    ∃ b ∈ state.opened, Strong (Imports adjacency) a b

theorem finishState_sound_start : FinishState.Sound adjacency ⟨[], [], []⟩ where
  mem_visited := by
    intro a
    simp [FinishState.opened]
  nodup := List.nodup_nil
  chain := List.Pairwise.nil
  bounded := by
    intro frame hframe
    cases hframe
  followed := by
    intro frame hframe
    cases hframe
  closed := by
    intro a ha
    cases ha
  settled := by
    intro a ha
    cases ha

/-- Everything that a node leads to was left before it, when it leads to no other open node. -/
theorem FinishState.Sound.leads (h : state.Sound adjacency) (hstack : state.stack = top :: rest)
    (hdone : (neighborsIn adjacency top.node).length ≤ top.index)
    (hopen : ∀ b ∈ rest.map Frame.node, ¬ ReflTransGen (Imports adjacency) top.node b) {b : JsString}
    (hb : ReflTransGen (Imports adjacency) top.node b) : b ∈ state.order ∨ b = top.node := by
  induction hb with
  | refl => exact .inr rfl
  | @tail b c hb hc ih =>
    have hvisited : c ∈ state.visited := by
      rcases ih with hb | rfl
      · exact h.closed b hb c hc
      · refine h.followed top (hstack ▸ List.mem_cons_self) c ?_
        rw [List.take_of_length_le hdone]
        exact hc
    rcases (h.mem_visited c).1 hvisited with horder | hopened
    · exact .inl horder
    · rw [FinishState.opened, hstack, List.map_cons, List.mem_cons] at hopened
      rcases hopened with htop | hrest
      · exact .inr htop
      · exact absurd (hb.tail hc) (hopen c hrest)

/-- A node is left when its neighbours were all followed. -/
theorem FinishState.Sound.leave (h : state.Sound adjacency) (hstack : state.stack = top :: rest)
    (hdone : (neighborsIn adjacency top.node).length ≤ top.index) :
    FinishState.Sound adjacency { state with order := state.order ++ [top.node], stack := rest } := by
  have hopened : state.opened = top.node :: rest.map Frame.node := by
    rw [FinishState.opened, hstack, List.map_cons]
  have hmem : ∀ a, a ∈ state.visited ↔ a ∈ state.order ++ [top.node] ∨ a ∈ rest.map Frame.node := by
    intro a
    rw [h.mem_visited, hopened, List.mem_cons, List.mem_append, List.mem_singleton, or_assoc]
  have hchain := h.chain
  rw [hopened, List.pairwise_cons] at hchain
  constructor
  · exact hmem
  · have hnodup := h.nodup
    rw [hopened] at hnodup
    rw [FinishState.opened, List.append_assoc]
    exact hnodup
  · exact hchain.2
  · intro frame hframe
    exact h.bounded frame (hstack ▸ List.mem_cons_of_mem _ hframe)
  · intro frame hframe
    exact h.followed frame (hstack ▸ List.mem_cons_of_mem _ hframe)
  · intro a ha b hb
    rcases List.mem_append.1 ha with ha | ha
    · exact h.closed a ha b hb
    · rw [List.mem_singleton.1 ha] at hb
      refine h.followed top (hstack ▸ List.mem_cons_self) b ?_
      rw [List.take_of_length_le hdone]
      exact hb
  · -- the node that is left leads back to an open one, or it settles its component
    have htop : Settled (Imports adjacency) (state.order ++ [top.node]) top.node ∨
        ∃ b ∈ rest.map Frame.node, Strong (Imports adjacency) top.node b := by
      by_cases hopen : ∃ b ∈ rest.map Frame.node, ReflTransGen (Imports adjacency) top.node b
      · obtain ⟨b, hb, hleads⟩ := hopen
        exact .inr ⟨b, hb, hleads, hchain.1 b hb⟩
      · refine .inl (Settled.finish fun c hc => h.leads hstack hdone ?_ hc)
        intro b hb hleads
        exact hopen ⟨b, hb, hleads⟩
    have htransfer {a : JsString} (ha : Strong (Imports adjacency) a top.node) :
        Settled (Imports adjacency) (state.order ++ [top.node]) a ∨
          ∃ b ∈ rest.map Frame.node, Strong (Imports adjacency) a b := by
      rcases htop with hsettled | ⟨b, hb, hstrong⟩
      · exact .inl (hsettled.of_strong ha)
      · exact .inr ⟨b, hb, ha.trans hstrong⟩
    intro a ha
    rcases List.mem_append.1 ha with ha | ha
    · rcases h.settled a ha with hsettled | ⟨b, hb, hstrong⟩
      · exact .inl (hsettled.append [top.node])
      · rw [hopened, List.mem_cons] at hb
        rcases hb with rfl | hb
        · exact htransfer hstrong
        · exact .inr ⟨b, hb, hstrong⟩
    · rw [List.mem_singleton.1 ha]
      exact htop

/-- An open node has followed one more of its neighbours. -/
theorem FinishState.Sound.advance (front : List Frame) (h : state.Sound adjacency)
    (hstack : state.stack = front ++ top :: rest) {next : JsString}
    (hnext : (neighborsIn adjacency top.node)[top.index]? = some next)
    (hvisited : next ∈ state.visited) :
    FinishState.Sound adjacency
      { state with stack := front ++ { top with index := top.index + 1 } :: rest } := by
  have hopened : ({ state with
      stack := front ++ { top with index := top.index + 1 } :: rest } : FinishState).opened =
      state.opened := by
    rw [FinishState.opened, FinishState.opened, hstack, List.map_append, List.map_append,
      List.map_cons, List.map_cons]
  have htop : top ∈ state.stack := hstack ▸ List.mem_append_right front List.mem_cons_self
  have hframe : ∀ frame ∈ front ++ { top with index := top.index + 1 } :: rest,
      frame ∈ state.stack ∨ frame = { top with index := top.index + 1 } := by
    intro frame hmem
    rw [hstack, List.mem_append, List.mem_cons]
    rcases List.mem_append.1 hmem with hmem | hmem
    · exact .inl (.inl hmem)
    · rcases List.mem_cons.1 hmem with hmem | hmem
      · exact .inr hmem
      · exact .inl (.inr (.inr hmem))
  constructor
  · rw [hopened]
    exact h.mem_visited
  · rw [hopened]
    exact h.nodup
  · rw [hopened]
    exact h.chain
  · intro frame hmem
    rcases hframe frame hmem with hmem | rfl
    · exact h.bounded frame hmem
    · obtain ⟨hlt, -⟩ := List.getElem?_eq_some_iff.1 hnext
      exact hlt
  · intro frame hmem b hb
    rcases hframe frame hmem with hmem | rfl
    · exact h.followed frame hmem b hb
    · rw [List.take_add_one, hnext, Option.toList_some, List.mem_append, List.mem_singleton] at hb
      rcases hb with hb | rfl
      · exact h.followed top htop b hb
      · exact hvisited
  · exact h.closed
  · rw [hopened]
    exact h.settled

/-- A node that was not visited is entered, from an open node or first of all. -/
theorem FinishState.Sound.enter (h : state.Sound adjacency) {next : JsString}
    (hleads : ∀ b ∈ state.opened, ReflTransGen (Imports adjacency) b next)
    (hfresh : next ∉ state.visited) :
    FinishState.Sound adjacency
      { state with visited := state.visited ++ [next], stack := ⟨next, 0⟩ :: state.stack } := by
  have hopened : ({ state with
      visited := state.visited ++ [next], stack := ⟨next, 0⟩ :: state.stack } : FinishState).opened =
      next :: state.opened := rfl
  rw [h.mem_visited, not_or] at hfresh
  have hgrow {a : JsString} (ha : a ∈ state.visited) : a ∈ state.visited ++ [next] :=
    List.mem_append_left _ ha
  constructor
  · intro a
    rw [hopened, List.mem_append, h.mem_visited, List.mem_singleton, List.mem_cons]
    tauto
  · rw [hopened]
    exact List.perm_middle.nodup_iff.2 (List.nodup_cons.2
      ⟨fun hmem => (List.mem_append.1 hmem).elim hfresh.1 hfresh.2, h.nodup⟩)
  · rw [hopened, List.pairwise_cons]
    exact ⟨hleads, h.chain⟩
  · rw [List.forall_mem_cons]
    exact ⟨Nat.zero_le _, h.bounded⟩
  · rw [List.forall_mem_cons]
    refine ⟨?_, fun frame hframe b hb => hgrow (h.followed frame hframe b hb)⟩
    intro b hb
    rw [List.take_zero] at hb
    cases hb
  · intro a ha b hb
    exact hgrow (h.closed a ha b hb)
  · intro a ha
    rw [hopened]
    rcases h.settled a ha with hsettled | ⟨b, hb, hstrong⟩
    · exact .inl hsettled
    · exact .inr ⟨b, List.mem_cons_of_mem _ hb, hstrong⟩

theorem FinishState.Sound.step (h : state.Sound adjacency) (hstack : state.stack = top :: rest) :
    (finishStep adjacency top rest state).Sound adjacency := by
  rw [finishStep]
  split
  · next hnext => exact h.leave hstack (List.getElem?_eq_none_iff.1 hnext)
  · next next hnext =>
    have himports : Imports adjacency top.node next := List.mem_of_getElem? hnext
    dsimp only
    split
    · next hvisited => exact h.advance [] hstack hnext hvisited
    · next hvisited =>
      have hchain := h.chain
      rw [FinishState.opened, hstack, List.map_cons, List.pairwise_cons] at hchain
      have hleads : ∀ b ∈ state.opened, ReflTransGen (Imports adjacency) b next := by
        intro b hb
        rw [FinishState.opened, hstack, List.map_cons, List.mem_cons] at hb
        rcases hb with rfl | hb
        · exact .single himports
        · exact (hchain.1 b hb).tail himports
      have hentered := h.enter hleads hvisited
      rw [hstack] at hentered
      exact hentered.advance [⟨next, 0⟩] rfl hnext
        (List.mem_append_right _ (List.mem_singleton_self next))

/-! ## Its end -/

/-- A pass for each neighbour of a node, and one to leave it. -/
def passes (adjacency : Adjacency) (nodes : List JsString) : Nat :=
  (nodes.map fun a => (neighborsIn adjacency a).length + 1).sum

/-- The passes that were made. -/
def FinishState.made (adjacency : Adjacency) (state : FinishState) : Nat :=
  passes adjacency state.order + (state.stack.map Frame.index).sum

theorem FinishState.Sound.made_step (h : state.Sound adjacency) (hstack : state.stack = top :: rest) :
    (finishStep adjacency top rest state).made adjacency = state.made adjacency + 1 := by
  rw [finishStep]
  split
  · next hnext =>
    have hindex : top.index = (neighborsIn adjacency top.node).length :=
      le_antisymm (h.bounded top (hstack ▸ List.mem_cons_self)) (List.getElem?_eq_none_iff.1 hnext)
    simp only [FinishState.made, passes, hstack, List.map_append, List.map_cons, List.map_nil,
      List.sum_append, List.sum_cons, List.sum_nil, hindex]
    omega
  · dsimp only
    split
    · simp only [FinishState.made, hstack, List.map_cons, List.sum_cons]
      omega
    · simp only [FinishState.made, hstack, List.map_cons, List.sum_cons]
      omega

theorem passes_le {nodes nodes' : List JsString} (hnodup : nodes.Nodup)
    (hsub : ∀ a ∈ nodes, a ∈ nodes') : passes adjacency nodes ≤ passes adjacency nodes' := by
  obtain ⟨between, hperm, hsublist⟩ := List.subperm_of_subset hnodup hsub
  rw [passes, ← (hperm.map _).sum_eq]
  exact (hsublist.map _).sum_le_sum fun _ _ => Nat.zero_le _

/-- While a node is open, some pass is left. -/
theorem FinishState.Sound.made_lt (h : state.Sound adjacency) (hstack : state.stack ≠ [])
    {nodes : List JsString} (hnodes : ∀ a ∈ state.visited, a ∈ nodes) :
    state.made adjacency < passes adjacency nodes := by
  have hle : passes adjacency (state.order ++ state.opened) ≤ passes adjacency nodes :=
    passes_le h.nodup fun a ha => hnodes a ((h.mem_visited a).2 (List.mem_append.1 ha))
  have hindices : (state.stack.map Frame.index).sum + state.stack.length ≤
      passes adjacency state.opened := by
    have hframes : ∀ frame ∈ state.stack,
        frame.index ≤ (neighborsIn adjacency frame.node).length := h.bounded
    rw [passes, FinishState.opened, List.map_map]
    generalize state.stack = stack at hframes
    induction stack with
    | nil => rfl
    | cons frame frames ih =>
      rw [List.forall_mem_cons] at hframes
      have := ih hframes.2
      simp only [List.map_cons, List.sum_cons, List.length_cons, Function.comp_apply]
      omega
  have hsum : passes adjacency (state.order ++ state.opened) =
      passes adjacency state.order + passes adjacency state.opened := by
    rw [passes, List.map_append, List.sum_append]
    rfl
  have hpos : 0 < state.stack.length := List.length_pos_of_ne_nil hstack
  rw [FinishState.made]
  omega

theorem finishStep_visited {nodes : List JsString} (hnodes : ∀ a ∈ state.visited, a ∈ nodes)
    (hclosed : ∀ a ∈ nodes, ∀ b, Imports adjacency a b → b ∈ nodes) (htop : top.node ∈ nodes) :
    ∀ a ∈ (finishStep adjacency top rest state).visited, a ∈ nodes := by
  rw [finishStep]
  split
  · exact hnodes
  · next next hnext =>
    dsimp only
    split
    · exact hnodes
    · intro a ha
      rcases List.mem_append.1 ha with ha | ha
      · exact hnodes a ha
      · rw [List.mem_singleton.1 ha]
        exact hclosed top.node htop next (List.mem_of_getElem? hnext)

theorem finishStep_grows {a : JsString} (ha : a ∈ state.visited) :
    a ∈ (finishStep adjacency top rest state).visited := by
  rw [finishStep]
  split
  · exact ha
  · dsimp only
    split
    · exact ha
    · exact List.mem_append_left _ ha

/-- What a loop that ends leaves. -/
structure FinishState.Ended (adjacency : Adjacency) (nodes : List JsString)
    (state ended : FinishState) : Prop where
  sound : ended.Sound adjacency
  stack : ended.stack = []
  visited : ∀ a ∈ ended.visited, a ∈ nodes
  grows : ∀ a ∈ state.visited, a ∈ ended.visited

theorem finishLoop_ends {nodes : List JsString}
    (hclosed : ∀ a ∈ nodes, ∀ b, Imports adjacency a b → b ∈ nodes) (h : state.Sound adjacency)
    (hnodes : ∀ a ∈ state.visited, a ∈ nodes) : ∃ ended, state.Ended adjacency nodes ended ∧
      ∀ fuel, passes adjacency nodes ≤ fuel + state.made adjacency →
        finishLoop adjacency fuel state = some ended := by
  induction hn : passes adjacency nodes - state.made adjacency using Nat.strong_induction_on
    generalizing state with
  | _ n ih =>
    match hstack : state.stack with
    | [] =>
      refine ⟨state, ⟨h, hstack, hnodes, fun _ ha => ha⟩, fun fuel _ => ?_⟩
      cases fuel with
      | zero => rw [finishLoop, if_pos hstack]
      | succ fuel => rw [finishLoop, hstack]
    | top :: rest =>
      have hlt : state.made adjacency < passes adjacency nodes := by
        refine h.made_lt ?_ hnodes
        rw [hstack]
        exact List.cons_ne_nil top rest
      have hmade := h.made_step hstack
      have htop : top.node ∈ nodes := hnodes _ ((h.mem_visited _).2 (.inr (by
        rw [FinishState.opened, hstack]
        exact List.mem_cons_self)))
      obtain ⟨ended, hended, hruns⟩ := ih _ (by omega) (h.step hstack)
        (finishStep_visited hnodes hclosed htop) rfl
      refine ⟨ended, ⟨hended.sound, hended.stack, hended.visited, fun a ha =>
        hended.grows a (finishStep_grows ha)⟩, fun fuel hfuel => ?_⟩
      cases fuel with
      | zero => omega
      | succ fuel =>
        rw [finishLoop, hstack]
        exact hruns fuel (by omega)

/-- Between two searches no node is open. -/
theorem finishFrom_ends {nodes : List JsString}
    (hclosed : ∀ a ∈ nodes, ∀ b, Imports adjacency a b → b ∈ nodes) (h : state.Sound adjacency)
    (hstack : state.stack = []) (hnodes : ∀ a ∈ state.visited, a ∈ nodes) {start : JsString}
    (hstart : start ∈ nodes) : ∃ ended, state.Ended adjacency nodes ended ∧ start ∈ ended.visited ∧
      ∀ fuel, passes adjacency nodes ≤ fuel → finishFrom adjacency fuel state start = some ended := by
  by_cases hvisited : start ∈ state.visited
  · refine ⟨state, ⟨h, hstack, hnodes, fun _ ha => ha⟩, hvisited, fun fuel _ => ?_⟩
    rw [finishFrom, if_pos hvisited]
  · have hopened : state.opened = [] := by rw [FinishState.opened, hstack, List.map_nil]
    have hfirst : ∀ b ∈ state.opened, ReflTransGen (Imports adjacency) b start := by
      rw [hopened]
      intro b hb
      cases hb
    have hentered := h.enter hfirst hvisited
    rw [hstack] at hentered
    obtain ⟨ended, hended, hruns⟩ := finishLoop_ends hclosed hentered (by
      intro a ha
      rcases List.mem_append.1 ha with ha | ha
      · exact hnodes a ha
      · rw [List.mem_singleton.1 ha]
        exact hstart)
    refine ⟨ended, ⟨hended.sound, hended.stack, hended.visited, fun a ha =>
      hended.grows a (List.mem_append_left _ ha)⟩,
      hended.grows start (List.mem_append_right _ (List.mem_singleton_self start)), fun fuel hfuel => ?_⟩
    rw [finishFrom, if_neg hvisited]
    exact hruns fuel (by omega)

theorem foldlM_finishFrom_ends {nodes : List JsString}
    (hclosed : ∀ a ∈ nodes, ∀ b, Imports adjacency a b → b ∈ nodes) {starts : List JsString}
    (hstarts : ∀ a ∈ starts, a ∈ nodes) (h : state.Sound adjacency) (hstack : state.stack = [])
    (hnodes : ∀ a ∈ state.visited, a ∈ nodes) : ∃ ended, state.Ended adjacency nodes ended ∧
      (∀ a ∈ starts, a ∈ ended.visited) ∧ ∀ fuel, passes adjacency nodes ≤ fuel →
        starts.foldlM (finishFrom adjacency fuel) state = some ended := by
  induction starts generalizing state with
  | nil =>
    refine ⟨state, ⟨h, hstack, hnodes, fun _ ha => ha⟩, ?_, fun fuel _ => rfl⟩
    intro a ha
    cases ha
  | cons start starts ih =>
    rw [List.forall_mem_cons] at hstarts
    obtain ⟨mid, hmid, hstart, hfirst⟩ := finishFrom_ends hclosed h hstack hnodes hstarts.1
    obtain ⟨ended, hended, hrest, hruns⟩ := ih hstarts.2 hmid.sound hmid.stack hmid.visited
    refine ⟨ended, ⟨hended.sound, hended.stack, hended.visited, fun a ha =>
      hended.grows a (hmid.grows a ha)⟩, ?_, fun fuel hfuel => ?_⟩
    · rw [List.forall_mem_cons]
      exact ⟨hended.grows start hstart, hrest⟩
    · rw [List.foldlM_cons, hfirst fuel hfuel]
      exact hruns fuel hfuel

/-- Every file that is walked or imported. -/
def nodesOf (adjacency : Adjacency) : List JsString :=
  adjacency.keys ++ adjacency.keys.flatMap (neighborsIn adjacency)

theorem nodesOf_closed : ∀ a ∈ nodesOf adjacency, ∀ b, Imports adjacency a b → b ∈ nodesOf adjacency := by
  intro a _ b hb
  exact List.mem_append_right _ (List.mem_flatMap.2 ⟨a, mem_keys_of_neighborsIn hb, hb⟩)

/-- The first pass ends, with every file of the graph in its order. -/
theorem finishOrder_ends (adjacency : Adjacency) :
    ∃ order, FinishOrder (Imports adjacency) order ∧ (∀ a ∈ adjacency.keys, a ∈ order) ∧
      ∀ fuel, passes adjacency (nodesOf adjacency) ≤ fuel →
        finishOrder fuel adjacency = some order := by
  have hstarts : ∀ a ∈ adjacency.keys, a ∈ nodesOf adjacency := fun a ha =>
    List.mem_append_left _ ha
  have hnone : ∀ a ∈ (⟨[], [], []⟩ : FinishState).visited, a ∈ nodesOf adjacency := by
    intro a ha
    cases ha
  obtain ⟨ended, hended, hkeys, hruns⟩ := foldlM_finishFrom_ends nodesOf_closed hstarts
    finishState_sound_start rfl hnone
  have hopened : ended.opened = [] := by rw [FinishState.opened, hended.stack, List.map_nil]
  have hvisited : ∀ a, a ∈ ended.visited ↔ a ∈ ended.order := by
    intro a
    rw [hended.sound.mem_visited, hopened]
    simp
  refine ⟨ended.order, ⟨?_, ?_⟩, ?_, fun fuel hfuel => ?_⟩
  · have hnodup := hended.sound.nodup
    rwa [hopened, List.append_nil] at hnodup
  · intro a ha
    rcases hended.sound.settled a ha with hsettled | ⟨b, hb, -⟩
    · exact hsettled
    · rw [hopened] at hb
      cases hb
  · intro a ha
    exact (hvisited a).1 (hkeys a ha)
  · rw [finishOrder, hruns fuel hfuel, Option.map_some]

end Musi.DriftAi
