import Mathlib.Data.List.Nodup
import Musi.DriftAi.PathUtil
import Musi.Js.Table

namespace Musi.DriftAi
open Musi.Js
set_option autoImplicit true

/-! ## The module graph -/

/-- `typeOnly` when every import of the target from the file is a type-only one. -/
structure ModuleEdge where
  target : JsString
  typeOnly : Bool

/-- The files that were walked, each with its edges in order. -/
structure ModuleGraph where
  edges : JsMap (List ModuleEdge)

abbrev Adjacency := JsMap (List JsString)

/-- `map.get(key) ?? []`. -/
def neighborsIn (adjacency : Adjacency) (node : JsString) : List JsString :=
  (adjacency.get node).getD []

/-- `map.get(key)?.push(...values)`. -/
def pushTo (adjacency : Adjacency) (key : JsString) (values : List JsString) : Adjacency :=
  match adjacency.get key with
  | none => adjacency
  | some list => adjacency.set key (list ++ values)

def emptyLists (keys : List JsString) : Adjacency :=
  keys.foldl (fun adjacency key => adjacency.set key []) JsMap.empty

def targets (includeTypeOnly : Bool) (edges : List ModuleEdge) : List JsString :=
  (edges.filter fun edge => includeTypeOnly || !edge.typeOnly).map ModuleEdge.target

def buildAdjacency (graph : ModuleGraph) (includeTypeOnly : Bool) : Adjacency :=
  graph.edges.entries.foldl
    (fun adjacency entry => pushTo adjacency entry.1 (targets includeTypeOnly entry.2))
    (emptyLists graph.edges.keys)

def buildTranspose (adjacency : Adjacency) : Adjacency :=
  adjacency.entries.foldl
    (fun transpose entry =>
      entry.2.foldl (fun transpose target => pushTo transpose target [entry.1]) transpose)
    (emptyLists adjacency.keys)

/-! ## Strongly connected components -/

structure Frame where
  node : JsString
  index : Nat
  deriving DecidableEq

/-- The last frame of the stack comes first. -/
structure FinishState where
  visited : List JsString
  order : List JsString
  stack : List Frame
  deriving DecidableEq

/-- One pass of the loop on a stack that is not empty. -/
def finishStep (adjacency : Adjacency) (top : Frame) (rest : List Frame) (state : FinishState) :
    FinishState :=
  match (neighborsIn adjacency top.node)[top.index]? with
  | none => { state with order := state.order ++ [top.node], stack := rest }
  | some next =>
    let rest := { top with index := top.index + 1 } :: rest
    if next ∈ state.visited then { state with stack := rest }
    else { state with visited := state.visited ++ [next], stack := ⟨next, 0⟩ :: rest }

/-- The loop, by at most as many passes. -/
def finishLoop (adjacency : Adjacency) : Nat → FinishState → Option FinishState
  | 0, state => if state.stack = [] then some state else none
  | fuel + 1, state =>
    match state.stack with
    | [] => some state
    | top :: rest => finishLoop adjacency fuel (finishStep adjacency top rest state)

def finishFrom (adjacency : Adjacency) (fuel : Nat) (state : FinishState) (start : JsString) :
    Option FinishState :=
  if start ∈ state.visited then some state
  else finishLoop adjacency fuel
    { state with visited := state.visited ++ [start], stack := [⟨start, 0⟩] }

/-- The nodes in the order in which a depth-first search leaves them. -/
def finishOrder (fuel : Nat) (adjacency : Adjacency) : Option (List JsString) :=
  (adjacency.keys.foldlM (finishFrom adjacency fuel) ⟨[], [], []⟩).map FinishState.order

/-- The node that was pushed last comes first. -/
structure ComponentState where
  assigned : List JsString
  component : List JsString
  stack : List JsString

def assignNext (state : ComponentState) (next : JsString) : ComponentState :=
  if next ∈ state.assigned then state
  else { state with assigned := state.assigned ++ [next], stack := next :: state.stack }

def componentStep (transpose : Adjacency) (node : JsString) (state : ComponentState) :
    ComponentState :=
  (neighborsIn transpose node).foldl assignNext
    { state with component := state.component ++ [node] }

/-- The inner loop, by at most as many passes. -/
def componentLoop (transpose : Adjacency) : Nat → ComponentState → Option ComponentState
  | 0, state => if state.stack = [] then some state else none
  | fuel + 1, state =>
    match state.stack with
    | [] => some state
    | node :: stack => componentLoop transpose fuel (componentStep transpose node { state with stack })

/-- What was assigned so far, and the components so far. -/
structure Assignment where
  assigned : List JsString
  components : List (List JsString)

def assignRoot (transpose : Adjacency) (fuel : Nat) (assignment : Assignment) (root : JsString) :
    Option Assignment :=
  if root ∈ assignment.assigned then some assignment
  else (componentLoop transpose fuel ⟨assignment.assigned ++ [root], [], [root]⟩).map fun state =>
    ⟨state.assigned, assignment.components ++ [state.component]⟩

/-- The order is read from its end. -/
def assignComponents (fuel : Nat) (order : List JsString) (transpose : Adjacency) :
    Option (List (List JsString)) :=
  (order.reverse.foldlM (assignRoot transpose fuel) ⟨[], []⟩).map Assignment.components

def stronglyConnectedComponents (fuel : Nat) (adjacency : Adjacency) :
    Option (List (List JsString)) := do
  let order ← finishOrder fuel adjacency
  assignComponents fuel order (buildTranspose adjacency)

/-! ## Cycles -/

structure DetectedCycles where
  runtimeCycles : List (List JsString)
  typeOnlyCycles : List (List JsString)

def isCycle (component : List JsString) : Bool := 2 ≤ component.length

section

variable [Locale]

def sortedCycle (component : List JsString) : List JsString := sortBy Locale.localeCompare component

/-- The cycles of a graph, when each loop ends within as many passes. -/
def findCycles (fuel : Nat) (graph : ModuleGraph) : Option DetectedCycles := do
  let full ← stronglyConnectedComponents fuel (buildAdjacency graph true)
  let value ← stronglyConnectedComponents fuel (buildAdjacency graph false)
  let fullSccs := full.filter isCycle
  let valueSccs := value.filter isCycle
  let runtimeNodes := valueSccs.flatten
  let typeOnlyCycles := fullSccs.filter fun scc => scc.all fun node => node ∉ runtimeNodes
  some ⟨valueSccs.map sortedCycle, typeOnlyCycles.map sortedCycle⟩

end

/-! ## What the maps hold -/

theorem get_pushTo (adjacency : Adjacency) (key : JsString) (values : List JsString) (k : JsString) :
    (pushTo adjacency key values).get k =
      (adjacency.get k).map fun list => if key = k then list ++ values else list := by
  rw [pushTo]
  by_cases hk : key = k
  · subst hk
    cases hget : adjacency.get key with
    | none => simp [hget]
    | some list => simp
  · cases hget : adjacency.get key with
    | none => simp [hk]
    | some list => simp [hk, Ne.symm hk]

theorem get_foldl_pushTo (pushes : Entries (List JsString)) (adjacency : Adjacency) (k : JsString) :
    (pushes.foldl (fun adjacency push => pushTo adjacency push.1 push.2) adjacency).get k =
      (adjacency.get k).map fun list =>
        list ++ (pushes.filter fun push => push.1 = k).flatMap Prod.snd := by
  induction pushes generalizing adjacency with
  | nil => simp
  | cons push pushes ih =>
    rw [List.foldl_cons, ih, get_pushTo, Option.map_map]
    congr 1
    funext list
    by_cases hk : push.1 = k
    · simp [hk]
    · simp [hk]

theorem get_emptyLists (keys : List JsString) (k : JsString) :
    (emptyLists keys).get k = if k ∈ keys then some [] else none := by
  have hfold : ∀ adjacency : Adjacency,
      (keys.foldl (fun adjacency key => adjacency.set key []) adjacency).get k =
        if k ∈ keys then some [] else adjacency.get k := by
    induction keys with
    | nil => simp
    | cons key keys ih =>
      intro adjacency
      rw [List.foldl_cons, ih, JsMap.get_set]
      by_cases hk : k = key
      · simp [hk]
      · simp [hk]
  exact hfold JsMap.empty

/-- With distinct keys, the entries of one key are what the lookup finds. -/
theorem filter_key {α : Type} {es : Entries α} (h : (Entries.keys es).Nodup) (k : JsString) :
    (es.filter fun e => e.1 = k) = (es.lookup k).toList.map fun v => (k, v) := by
  induction es with
  | nil => rfl
  | cons e es ih =>
    rw [Entries.keys_cons, List.nodup_cons] at h
    rw [Entries.lookup_cons]
    by_cases hk : k = e.1
    · subst hk
      rw [List.filter_cons_of_pos (by simp), ih h.2, Entries.lookup_none.2 h.1]
      simp
    · rw [List.filter_cons_of_neg (by simpa using Ne.symm hk), ih h.2, if_neg hk]

/-- A file keeps the targets of its own edges. -/
theorem get_buildAdjacency (graph : ModuleGraph) (includeTypeOnly : Bool) (k : JsString) :
    (buildAdjacency graph includeTypeOnly).get k = (graph.edges.get k).map (targets includeTypeOnly) := by
  have hfold := get_foldl_pushTo
    (graph.edges.entries.map fun entry => (entry.1, targets includeTypeOnly entry.2))
    (emptyLists graph.edges.keys) k
  rw [List.foldl_map, get_emptyLists, filter_key (by
    rw [Entries.keys_map (fun _ => targets includeTypeOnly)]
    exact graph.edges.nodup), Entries.lookup_map (fun _ => targets includeTypeOnly)] at hfold
  rw [buildAdjacency, hfold]
  cases hk : graph.edges.get k with
  | none => rw [if_neg (JsMap.get_none.1 hk)]; rfl
  | some edges =>
    have hlookup : graph.edges.entries.lookup k = some edges := hk
    rw [if_pos (JsMap.mem_keys.2 ⟨edges, hk⟩), hlookup]
    simp

/-- The edges that are not in the graph are none of its neighbours. -/
theorem mem_neighborsIn_iff {adjacency : Adjacency} {a b : JsString} :
    b ∈ neighborsIn adjacency a ↔ ∃ list, (a, list) ∈ adjacency.entries ∧ b ∈ list := by
  simp only [neighborsIn, JsMap.mem_entries]
  cases adjacency.get a with
  | none => simp
  | some list => simp

theorem mem_keys_of_neighborsIn {adjacency : Adjacency} {a b : JsString}
    (h : b ∈ neighborsIn adjacency a) : a ∈ adjacency.keys := by
  obtain ⟨list, hlist, -⟩ := mem_neighborsIn_iff.1 h
  exact JsMap.mem_keys.2 ⟨list, JsMap.mem_entries.1 hlist⟩

/-- A file is searched against an edge when that edge leads to a file of the graph. -/
theorem mem_neighborsIn_buildTranspose {adjacency : Adjacency} {a b : JsString} :
    b ∈ neighborsIn (buildTranspose adjacency) a ↔
      a ∈ adjacency.keys ∧ a ∈ neighborsIn adjacency b := by
  have hflat : buildTranspose adjacency =
      (adjacency.entries.flatMap fun entry => entry.2.map fun target => (target, [entry.1])).foldl
        (fun transpose push => pushTo transpose push.1 push.2) (emptyLists adjacency.keys) := by
    rw [List.foldl_flatMap, buildTranspose]
    congr 1
    funext transpose entry
    rw [List.foldl_map]
  rw [neighborsIn, hflat, get_foldl_pushTo, get_emptyLists]
  by_cases ha : a ∈ adjacency.keys
  · rw [if_pos ha, mem_neighborsIn_iff]
    simp only [Option.map_some, Option.getD_some, List.nil_append, List.mem_flatMap, List.mem_filter,
      List.mem_map, decide_eq_true_eq]
    constructor
    · rintro ⟨push, ⟨⟨entry, hentry, target, htarget, rfl⟩, rfl⟩, hb⟩
      rw [List.mem_singleton] at hb
      subst hb
      exact ⟨ha, entry.2, hentry, htarget⟩
    · rintro ⟨-, list, hlist, hb⟩
      exact ⟨(a, [b]), ⟨⟨(b, list), hlist, a, hb, rfl⟩, rfl⟩, List.mem_singleton_self b⟩
  · rw [if_neg ha]
    simp [ha]

end Musi.DriftAi
