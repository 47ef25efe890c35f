import Mathlib.Data.List.Dedup
import Musi.CodeIntel.GraphQueries
import Musi.Js.Order

namespace Musi.CodeIntel
open Musi.Js Musi.System Musi.DriftAi
set_option autoImplicit true

variable {graph : ImportGraph} {depthLimit : DepthLimit} {runtimeOnly : Bool} {target : JsString}

/-! ## The imports that a search follows -/

/-- A file is imported by another one, at run time when only those imports count. -/
def ImportedBy (graph : ImportGraph) (runtimeOnly : Bool) (file importer : JsString) : Prop :=
  ∃ edge ∈ graph.edgesInto file, edge.source = importer ∧ (runtimeOnly → edge.runtime)

theorem DepthLimit.allows_of_le {n m : Nat} (hle : m ≤ n) (h : depthLimit.allows n) :
    depthLimit.allows m := by
  cases depthLimit with
  | infinity => rfl
  | number limit =>
    have hn : (n : ℚ) ≤ limit := of_decide_eq_true h
    exact decide_eq_true ((by exact_mod_cast hle : (m : ℚ) ≤ n).trans hn)

/-! ## One pass -/

/-- What holds of a search whose pending visits are at least so deep. -/
structure Searching (graph : ImportGraph) (depthLimit : DepthLimit) (runtimeOnly : Bool)
    (target : JsString) (depth : Nat) (pending : List BfsVisit) (state : BfsState) : Prop where
  entries : state.seen.entries = (startVisit target :: state.results).map fun v => (v.file, v)
  pending_seen : ∀ v ∈ pending, state.seen.get v.file = some v
  walk : ∀ v ∈ startVisit target :: state.results,
    Walk (ImportedBy graph runtimeOnly) v.depth target v.file ∧
      (v.depth = 0 ∨ depthLimit.allows v.depth)
  sorted : pending.Pairwise fun v w => v.depth ≤ w.depth
  deep : ∀ v ∈ pending, depth ≤ v.depth
  level : ∀ v ∈ startVisit target :: state.results, v.depth ≤ depth + 1
  closed : ∀ v ∈ startVisit target :: state.results, v ∉ pending → ∀ importer,
    ImportedBy graph runtimeOnly v.file importer → depthLimit.allows (v.depth + 1) →
      ∃ w, state.seen.get importer = some w ∧ w.depth ≤ v.depth + 1

variable {depth : Nat} {pending : List BfsVisit} {state : BfsState} {visit v : BfsVisit}
  {edge : ImportEdge}

theorem Searching.mem_seen (h : Searching graph depthLimit runtimeOnly target depth pending state) :
    state.seen.get f = some v ↔ v ∈ startVisit target :: state.results ∧ v.file = f := by
  rw [← JsMap.mem_entries, h.entries, List.mem_map]
  constructor
  · rintro ⟨w, hw, heq⟩
    cases heq
    exact ⟨hw, rfl⟩
  · rintro ⟨hv, rfl⟩
    exact ⟨v, hv, rfl⟩

/-- The edge is one that the search may take from a visit. -/
def Taken (depthLimit : DepthLimit) (runtimeOnly : Bool) (visit : BfsVisit) (edge : ImportEdge) :
    Prop := (runtimeOnly → edge.runtime) ∧ depthLimit.allows (visit.depth + 1)

/-- The next visit is a new file, since what is seen is at most one step deeper. -/
theorem Searching.nextReverseVisit_eq (edge : ImportEdge)
    (h : Searching graph depthLimit runtimeOnly target visit.depth pending state) :
    (∃ w, state.seen.get edge.source = some w ∧ w.depth ≤ visit.depth + 1 ∧
      nextReverseVisit edge visit depthLimit runtimeOnly state.seen = none) ∨
    (¬ Taken depthLimit runtimeOnly visit edge ∧
      nextReverseVisit edge visit depthLimit runtimeOnly state.seen = none) ∨
    (state.seen.get edge.source = none ∧ Taken depthLimit runtimeOnly visit edge ∧
      nextReverseVisit edge visit depthLimit runtimeOnly state.seen =
        some ⟨edge.source, visit.depth + 1, edge.via⟩) := by
  by_cases hruntime : runtimeOnly → edge.runtime
  swap
  · refine .inr (.inl ⟨fun htaken => hruntime htaken.1, ?_⟩)
    rw [nextReverseVisit, if_pos (Classical.not_imp.1 hruntime)]
  · by_cases hallows : depthLimit.allows (visit.depth + 1)
    · have htaken : Taken depthLimit runtimeOnly visit edge :=
        ⟨hruntime, hallows⟩
      cases hseen : state.seen.get edge.source with
      | none =>
        refine .inr (.inr ⟨rfl, htaken, ?_⟩)
        simpa [nextReverseVisit, hallows, hseen] using hruntime
      | some w =>
        have hlevel := h.level w (h.mem_seen.1 hseen).1
        refine .inl ⟨w, rfl, hlevel, ?_⟩
        simp [nextReverseVisit, hallows, hseen, hlevel]
    · refine .inr (.inl ⟨fun htaken => hallows htaken.2, ?_⟩)
      simp [nextReverseVisit, hallows]

/-- What was seen is not seen otherwise later. -/
def Extends (state state' : BfsState) : Prop :=
  ∀ f v, state.seen.get f = some v → state'.seen.get f = some v

def pushVisit (state : BfsState) (next : BfsVisit) : BfsState :=
  ⟨state.queue ++ [next], state.seen.set next.file next, state.results ++ [next]⟩

theorem mem_cons_concat {a b c : α} {l : List α} : a ∈ b :: (l ++ [c]) ↔ a ∈ b :: l ∨ a = c := by
  rw [← List.cons_append, List.mem_append, List.mem_singleton]

theorem extends_pushVisit (hfresh : state.seen.get v.file = none) :
    Extends state (pushVisit state v) := by
  intro f w hw
  rw [pushVisit, JsMap.get_set, if_neg, hw]
  rintro rfl
  rw [hfresh] at hw
  cases hw

theorem Searching.pushVisit
    (h : Searching graph depthLimit runtimeOnly target visit.depth (visit :: state.queue) state)
    (himported : ImportedBy graph runtimeOnly visit.file v.file) (hdepth : v.depth = visit.depth + 1)
    (hallows : depthLimit.allows v.depth) (hfresh : state.seen.get v.file = none) :
    Searching graph depthLimit runtimeOnly target visit.depth
      (visit :: (CodeIntel.pushVisit state v).queue) (CodeIntel.pushVisit state v) := by
  have hvisit := (h.mem_seen.1 (h.pending_seen visit List.mem_cons_self)).1
  constructor
  · have hkeys : v.file ∉ Entries.keys state.seen.entries := JsMap.get_none.1 hfresh
    have hset : (CodeIntel.pushVisit state v).seen.entries = state.seen.entries ++ [(v.file, v)] :=
      setEntry_of_notMem hkeys
    rw [hset, h.entries, CodeIntel.pushVisit, ← List.cons_append, List.map_append]
    rfl
  · intro w hw
    rcases mem_cons_concat.1 hw with hw | rfl
    · exact extends_pushVisit hfresh _ _ (h.pending_seen w hw)
    · exact (JsMap.get_set ..).trans (if_pos rfl)
  · intro w hw
    rcases mem_cons_concat.1 hw with hw | rfl
    · exact h.walk w hw
    · rw [hdepth]
      exact ⟨(h.walk visit hvisit).1.tail himported, .inr (hdepth ▸ hallows)⟩
  · rw [CodeIntel.pushVisit, ← List.cons_append, List.pairwise_append]
    refine ⟨h.sorted, List.pairwise_singleton _ _, fun w hw u hu => ?_⟩
    rw [List.mem_singleton.1 hu, hdepth]
    exact h.level w (h.mem_seen.1 (h.pending_seen w hw)).1
  · intro w hw
    rcases mem_cons_concat.1 hw with hw | rfl
    · exact h.deep w hw
    · omega
  · intro w hw
    rcases mem_cons_concat.1 hw with hw | rfl
    · exact h.level w hw
    · exact hdepth.le
  · intro w hw hpending importer himporter hnext
    obtain ⟨hbefore, hne⟩ := not_or.1 fun hmem => hpending (mem_cons_concat.2 hmem)
    rcases mem_cons_concat.1 hw with hw | rfl
    · obtain ⟨u, hu, hle⟩ := h.closed w hw hbefore importer himporter hnext
      exact ⟨u, extends_pushVisit hfresh _ _ hu, hle⟩
    · exact (hne rfl).elim

theorem Searching.followEdge
    (h : Searching graph depthLimit runtimeOnly target visit.depth (visit :: state.queue) state)
    (hedge : edge ∈ graph.edgesInto visit.file) :
    Searching graph depthLimit runtimeOnly target visit.depth
      (visit :: (CodeIntel.followEdge depthLimit runtimeOnly visit state edge).queue)
      (CodeIntel.followEdge depthLimit runtimeOnly visit state edge) ∧
    Extends state (CodeIntel.followEdge depthLimit runtimeOnly visit state edge) ∧
    (Taken depthLimit runtimeOnly visit edge → ∃ w,
      (CodeIntel.followEdge depthLimit runtimeOnly visit state edge).seen.get edge.source = some w ∧
        w.depth ≤ visit.depth + 1) := by
  rcases h.nextReverseVisit_eq edge with ⟨w, hw, hdepth, hnext⟩ | ⟨htaken, hnext⟩ |
    ⟨hfresh, htaken, hnext⟩
  · rw [CodeIntel.followEdge, hnext]
    exact ⟨h, fun _ _ hv => hv, fun _ => ⟨w, hw, hdepth⟩⟩
  · rw [CodeIntel.followEdge, hnext]
    exact ⟨h, fun _ _ hv => hv, fun ht => (htaken ht).elim⟩
  · rw [CodeIntel.followEdge, hnext]
    have hfresh' : state.seen.get (BfsVisit.mk edge.source (visit.depth + 1) edge.via).file = none :=
      hfresh
    refine ⟨h.pushVisit ⟨edge, hedge, rfl, htaken.1⟩ rfl htaken.2 hfresh',
      extends_pushVisit hfresh', fun _ => ⟨_, (JsMap.get_set ..).trans (if_pos rfl), le_rfl⟩⟩

/-- After every edge into the file of a visit, what imports it within the limit has been seen. -/
theorem Searching.followEdges (edges : List ImportEdge)
    (hedges : ∀ edge ∈ edges, edge ∈ graph.edgesInto visit.file)
    (h : Searching graph depthLimit runtimeOnly target visit.depth (visit :: state.queue) state) :
    Searching graph depthLimit runtimeOnly target visit.depth
      (visit :: (edges.foldl (CodeIntel.followEdge depthLimit runtimeOnly visit) state).queue)
      (edges.foldl (CodeIntel.followEdge depthLimit runtimeOnly visit) state) ∧
    Extends state (edges.foldl (CodeIntel.followEdge depthLimit runtimeOnly visit) state) ∧
    ∀ edge ∈ edges, Taken depthLimit runtimeOnly visit edge → ∃ w,
      (edges.foldl (CodeIntel.followEdge depthLimit runtimeOnly visit) state).seen.get edge.source =
        some w ∧ w.depth ≤ visit.depth + 1 := by
  induction edges generalizing state with
  | nil => exact ⟨h, fun _ _ hv => hv, fun edge hedge => (List.not_mem_nil hedge).elim⟩
  | cons first edges ih =>
    obtain ⟨hstep, hextends, htaken⟩ := h.followEdge (hedges first List.mem_cons_self)
    obtain ⟨hrest, hextends', hseen⟩ := ih (fun e he => hedges e (List.mem_cons_of_mem _ he)) hstep
    refine ⟨hrest, fun f v hv => hextends' f v (hextends f v hv), fun edge hedge ht => ?_⟩
    rcases List.mem_cons.1 hedge with rfl | hedge
    · obtain ⟨w, hw, hle⟩ := htaken ht
      exact ⟨w, hextends' _ _ hw, hle⟩
    · exact hseen edge hedge ht

/-- A visit whose edges were all followed is not pending any more. -/
theorem Searching.visited {queue : List BfsVisit}
    (h : Searching graph depthLimit runtimeOnly target visit.depth (visit :: queue) state)
    (hseen : ∀ edge ∈ graph.edgesInto visit.file, Taken depthLimit runtimeOnly visit edge →
      ∃ w, state.seen.get edge.source = some w ∧ w.depth ≤ visit.depth + 1) :
    Searching graph depthLimit runtimeOnly target visit.depth queue state where
  entries := h.entries
  pending_seen v hv := h.pending_seen v (List.mem_cons_of_mem _ hv)
  walk := h.walk
  sorted := (List.pairwise_cons.1 h.sorted).2
  deep v hv := h.deep v (List.mem_cons_of_mem _ hv)
  level := h.level
  closed v hv hpending importer himported hallows := by
    by_cases hvisit : v = visit
    · subst hvisit
      obtain ⟨edge, hedge, rfl, hruntime⟩ := himported
      exact hseen edge hedge ⟨hruntime, hallows⟩
    · exact h.closed v hv (by simp [hvisit, hpending]) importer himported hallows

/-- The next visit of the queue is the one with the least depth of all pending. -/
theorem Searching.next {queue : List BfsVisit}
    (h : Searching graph depthLimit runtimeOnly target depth (visit :: queue) state) :
    Searching graph depthLimit runtimeOnly target visit.depth (visit :: queue) state where
  entries := h.entries
  pending_seen := h.pending_seen
  walk := h.walk
  sorted := h.sorted
  deep v hv := by
    rcases List.mem_cons.1 hv with rfl | hv
    · exact le_rfl
    · exact (List.pairwise_cons.1 h.sorted).1 v hv
  level v hv := (h.level v hv).trans (Nat.succ_le_succ (h.deep visit List.mem_cons_self))
  closed := h.closed

def visitFile (graph : ImportGraph) (depthLimit : DepthLimit) (runtimeOnly : Bool) (visit : BfsVisit)
    (queue : List BfsVisit) (state : BfsState) : BfsState :=
  (graph.edgesInto visit.file).foldl (followEdge depthLimit runtimeOnly visit) { state with queue }

theorem Searching.visitFile {queue : List BfsVisit}
    (h : Searching graph depthLimit runtimeOnly target depth (visit :: queue) state) :
    Searching graph depthLimit runtimeOnly target visit.depth
      (CodeIntel.visitFile graph depthLimit runtimeOnly visit queue state).queue
      (CodeIntel.visitFile graph depthLimit runtimeOnly visit queue state) := by
  have hstart : Searching graph depthLimit runtimeOnly target visit.depth
      (visit :: BfsState.queue { state with queue }) { state with queue } := by
    obtain ⟨hentries, hpending, hwalk, hsorted, hdeep, hlevel, hclosed⟩ := h.next
    exact ⟨hentries, hpending, hwalk, hsorted, hdeep, hlevel, hclosed⟩
  obtain ⟨hvisit, -, hseen⟩ := hstart.followEdges (graph.edgesInto visit.file) fun _ he => he
  exact hvisit.visited hseen

/-! ## The whole search -/

/-- The files that a search can ever visit. -/
def sourceFiles (graph : ImportGraph) (target : JsString) : List JsString :=
  target :: graph.incoming.entries.flatMap fun entry => entry.2.map ImportEdge.source

theorem mem_sourceFiles {importer : JsString} {file : JsString}
    (h : ImportedBy graph runtimeOnly file importer) : importer ∈ sourceFiles graph target := by
  obtain ⟨edge, hedge, rfl, -⟩ := h
  rw [ImportGraph.edgesInto] at hedge
  cases hfile : graph.incoming.get file with
  | none =>
    rw [hfile] at hedge
    cases hedge
  | some edges =>
    rw [hfile] at hedge
    exact List.mem_cons_of_mem _ (List.mem_flatMap.2
      ⟨(file, edges), JsMap.mem_entries.2 hfile, List.mem_map_of_mem hedge⟩)

theorem Searching.nodup (h : Searching graph depthLimit runtimeOnly target depth pending state) :
    ((startVisit target :: state.results).map BfsVisit.file).Nodup := by
  have hkeys := state.seen.nodup
  rw [h.entries, Entries.keys, List.map_map] at hkeys
  exact hkeys

theorem Searching.length_results
    (h : Searching graph depthLimit runtimeOnly target depth pending state) :
    state.results.length + 1 ≤ (sourceFiles graph target).length := by
  have hsub : (startVisit target :: state.results).map BfsVisit.file ⊆ sourceFiles graph target := by
    intro file hfile
    obtain ⟨v, hv, rfl⟩ := List.mem_map.1 hfile
    obtain ⟨hwalk, -⟩ := h.walk v hv
    generalize hd : v.depth = d at hwalk
    cases hwalk with
    | refl => exact List.mem_cons_self
    | tail _ hlast => exact mem_sourceFiles hlast
  have hle := (h.nodup.subperm hsub).length_le
  rwa [List.length_map, List.length_cons] at hle

/-- The visits that a search still has to make: what is queued, and what may yet be found. -/
def remaining (graph : ImportGraph) (target : JsString) (state : BfsState) : Nat :=
  state.queue.length + ((sourceFiles graph target).length - (state.results.length + 1))

theorem followEdges_balanced (edges : List ImportEdge) (state : BfsState) :
    (edges.foldl (followEdge depthLimit runtimeOnly visit) state).queue.length +
        state.results.length =
      state.queue.length +
        (edges.foldl (followEdge depthLimit runtimeOnly visit) state).results.length := by
  induction edges generalizing state with
  | nil => rfl
  | cons edge edges ih =>
    have hrest := ih (followEdge depthLimit runtimeOnly visit state edge)
    rw [List.foldl_cons]
    cases hnext : nextReverseVisit edge visit depthLimit runtimeOnly state.seen with
    | none =>
      have hsame : followEdge depthLimit runtimeOnly visit state edge = state := by
        rw [followEdge, hnext]
      rwa [hsame] at hrest ⊢
    | some next =>
      have hqueue : (followEdge depthLimit runtimeOnly visit state edge).queue.length =
          state.queue.length + 1 := by
        rw [followEdge, hnext, List.length_append, List.length_singleton]
      have hresults : (followEdge depthLimit runtimeOnly visit state edge).results.length =
          state.results.length + 1 := by
        rw [followEdge, hnext, List.length_append, List.length_singleton]
      omega

theorem Searching.remaining_lt {queue : List BfsVisit}
    (h : Searching graph depthLimit runtimeOnly target depth (visit :: queue) state)
    (hqueue : state.queue = visit :: queue) :
    remaining graph target (CodeIntel.visitFile graph depthLimit runtimeOnly visit queue state) <
      remaining graph target state := by
  have hbound := h.visitFile.length_results
  have hbalanced : (CodeIntel.visitFile graph depthLimit runtimeOnly visit queue state).queue.length +
      state.results.length = queue.length +
        (CodeIntel.visitFile graph depthLimit runtimeOnly visit queue state).results.length :=
    followEdges_balanced (graph.edgesInto visit.file) { state with queue }
  have hlength : state.queue.length = queue.length + 1 := by rw [hqueue, List.length_cons]
  rw [remaining, remaining]
  omega

theorem bfsLoop_cons {fuel : Nat} {queue : List BfsVisit} (hqueue : state.queue = visit :: queue) :
    bfsLoop graph depthLimit runtimeOnly (fuel + 1) state =
      bfsLoop graph depthLimit runtimeOnly fuel
        (visitFile graph depthLimit runtimeOnly visit queue state) := by
  rw [bfsLoop, hqueue]
  rfl

theorem bfsLoop_nil (fuel : Nat) (hqueue : state.queue = []) :
    bfsLoop graph depthLimit runtimeOnly fuel state = some state := by
  cases fuel with
  | zero => rw [bfsLoop, hqueue]; rfl
  | succ fuel => rw [bfsLoop, hqueue]

/-- With as many passes as visits remain, the loop ends with nothing pending. -/
theorem Searching.bfsLoop (fuel : Nat)
    (h : Searching graph depthLimit runtimeOnly target depth state.queue state)
    (hfuel : remaining graph target state ≤ fuel) : ∃ state' depth',
      Searching graph depthLimit runtimeOnly target depth' [] state' ∧
      ∀ more, fuel ≤ more → CodeIntel.bfsLoop graph depthLimit runtimeOnly more state = some state' := by
  induction fuel generalizing state depth with
  | zero =>
    have hqueue : state.queue = [] := by
      rw [← List.length_eq_zero_iff]
      rw [remaining] at hfuel
      omega
    exact ⟨state, depth, hqueue ▸ h, fun more _ => bfsLoop_nil more hqueue⟩
  | succ fuel ih =>
    cases hqueue : state.queue with
    | nil => exact ⟨state, depth, hqueue ▸ h, fun more _ => bfsLoop_nil more hqueue⟩
    | cons visit queue =>
      rw [hqueue] at h
      have hlt := h.remaining_lt hqueue
      obtain ⟨state', depth', hend, hloop⟩ := ih h.visitFile (by omega)
      refine ⟨state', depth', hend, fun more hmore => ?_⟩
      obtain ⟨more, rfl⟩ : ∃ n, more = n + 1 := ⟨more - 1, by omega⟩
      rw [bfsLoop_cons hqueue]
      exact hloop more (by omega)

theorem searching_start :
    Searching graph depthLimit runtimeOnly target 0 [startVisit target] (startState target) where
  entries := rfl
  pending_seen v hv := by
    rw [List.mem_singleton.1 hv]
    exact (JsMap.get_set ..).trans (if_pos rfl)
  walk v hv := by
    rw [List.mem_singleton.1 hv]
    exact ⟨.refl target, .inl rfl⟩
  sorted := List.pairwise_singleton _ _
  deep v _ := Nat.zero_le v.depth
  level v hv := by
    rw [List.mem_singleton.1 hv]
    exact Nat.zero_le 1
  closed v hv hpending := (hpending hv).elim

/-- The depths of what was seen label the files by their distances. -/
theorem Searching.labelled
    (h : Searching graph depthLimit runtimeOnly target depth [] state) :
    Labelled (ImportedBy graph runtimeOnly) (fun n => depthLimit.allows n = true) target
      fun file => (state.seen.get file).map BfsVisit.depth where
  origin := by
    have hstart : state.seen.get target = some (startVisit target) :=
      h.mem_seen.2 ⟨List.mem_cons_self, rfl⟩
    rw [hstart]
    rfl
  walk file d hlabel := by
    obtain ⟨v, hv, rfl⟩ := Option.map_eq_some_iff.1 hlabel
    obtain ⟨hmem, rfl⟩ := h.mem_seen.1 hv
    exact h.walk v hmem
  closed file d importer hlabel himported hallows := by
    obtain ⟨v, hv, rfl⟩ := Option.map_eq_some_iff.1 hlabel
    obtain ⟨hmem, rfl⟩ := h.mem_seen.1 hv
    obtain ⟨w, hw, hle⟩ := h.closed v hmem List.not_mem_nil importer himported hallows
    exact ⟨w.depth, hle, by rw [hw]; rfl⟩

/-- The results of a search are the other files at their distances, up to the limit. -/
theorem Searching.mem_results
    (h : Searching graph depthLimit runtimeOnly target depth [] state) {file : JsString} {d : Nat} :
    (∃ v ∈ state.results, v.file = file ∧ v.depth = d) ↔
      file ≠ target ∧ Distance (ImportedBy graph runtimeOnly) target file d ∧ depthLimit.allows d := by
  have hlabel := h.labelled.distance (a := file) (d := d)
    fun n m hle hallows => DepthLimit.allows_of_le hle hallows
  have hnodup := h.nodup
  rw [List.map_cons, List.nodup_cons] at hnodup
  constructor
  · rintro ⟨v, hv, rfl, rfl⟩
    have hne : v.file ≠ target := fun heq => hnodup.1 (List.mem_map.2 ⟨v, hv, heq⟩)
    have hseen := h.mem_seen.2 ⟨List.mem_cons_of_mem _ hv, rfl⟩
    obtain ⟨hdistance, hallows⟩ := hlabel.1 (by rw [hseen]; rfl)
    refine ⟨hne, hdistance, hallows.resolve_left fun hzero => hne ?_⟩
    rw [hzero] at hdistance
    exact distance_zero.1 hdistance
  · rintro ⟨hne, hdistance, hallows⟩
    obtain ⟨v, hv, rfl⟩ := Option.map_eq_some_iff.1 (hlabel.2 ⟨hdistance, .inr hallows⟩)
    obtain ⟨hmem, rfl⟩ := h.mem_seen.1 hv
    rcases List.mem_cons.1 hmem with rfl | hmem
    · exact (hne rfl).elim
    · exact ⟨v, hmem, rfl, rfl⟩

/-! ## Test queries -/

theorem get_addColocated (host : QueryHost) (candidates : List JsString)
    (results : JsMap TestResult) (file : JsString) :
    (candidates.foldl (addColocated host) results).get file =
      if file ∈ candidates ∧ host.fileExistsRelative file then some (colocatedResult file)
      else results.get file := by
  induction candidates generalizing results with
  | nil => simp
  | cons candidate candidates ih =>
    rw [List.foldl_cons, ih]
    by_cases hrest : file ∈ candidates ∧ host.fileExistsRelative file
    · rw [if_pos hrest, if_pos ⟨List.mem_cons_of_mem _ hrest.1, hrest.2⟩]
    · rw [if_neg hrest, addColocated]
      by_cases hexists : host.fileExistsRelative candidate
      · by_cases hfile : file = candidate
        · subst hfile
          simp [hexists]
        · rw [if_neg (not_not.2 hexists), JsMap.get_set, if_neg hfile, if_neg]
          simpa [hfile] using hrest
      · rw [if_pos hexists, if_neg]
        rintro ⟨hmem, hfile⟩
        rcases List.mem_cons.1 hmem with rfl | hmem
        · exact hexists hfile
        · exact hrest ⟨hmem, hfile⟩

theorem get_addVisit {results : JsMap TestResult} {visits : List BfsVisit}
    (hnodup : (visits.map BfsVisit.file).Nodup) {file : JsString} {result : TestResult} :
    (visits.foldl addVisit results).get file = some result ↔ results.get file = some result ∨
      results.get file = none ∧ ∃ visit ∈ visits, visit.file = file ∧ isTestFile visit.file ∧
        result = visitResult visit := by
  induction visits generalizing results with
  | nil => simp
  | cons visit visits ih =>
    rw [List.map_cons, List.nodup_cons] at hnodup
    rw [List.foldl_cons, ih hnodup.2]
    have hother : visit.file = file → ¬ ∃ v ∈ visits, v.file = file ∧ isTestFile v.file ∧
        result = visitResult v := by
      rintro rfl ⟨v, hv, hfile, -⟩
      exact hnodup.1 (List.mem_map.2 ⟨v, hv, hfile⟩)
    rw [addVisit]
    by_cases hskip : ¬ isTestFile visit.file ∨ results.has visit.file
    · have hnot : results.get file = none → visit.file = file → ¬ isTestFile visit.file := by
        rintro hnone rfl
        exact hskip.resolve_right (by simp [JsMap.has, hnone])
      rw [if_pos hskip]
      simp only [List.mem_cons, exists_eq_or_imp]
      grind
    · obtain ⟨htest, hhas⟩ := not_or.1 hskip
      have hnone : results.get visit.file = none := by simpa [JsMap.has] using hhas
      rw [if_neg hskip, JsMap.get_set]
      by_cases hfile : visit.file = file
      · have hrest := hother hfile
        subst hfile
        rw [if_pos rfl, hnone]
        simp only [List.mem_cons, exists_eq_or_imp]
        grind
      · rw [if_neg (Ne.symm hfile)]
        simp only [List.mem_cons, exists_eq_or_imp]
        grind

/-- The tests are the existing files beside the target and the other tests among the visits, a file
once. -/
structure TestSelection (host : QueryHost) (target : JsString) (visits : List BfsVisit)
    (project : Option ProjectFilter) (tests : List TestResult) : Prop where
  nodup : (tests.map TestResult.file).Nodup
  mem_iff : ∀ result, result ∈ tests ↔
    (∀ filter, project = some filter → fileMatchesProject result.file filter) ∧
      ((∃ candidate ∈ colocatedTestCandidates target, host.fileExistsRelative candidate ∧
          result = colocatedResult candidate) ∨
        ∃ visit ∈ visits, isTestFile visit.file ∧
          ¬ (visit.file ∈ colocatedTestCandidates target ∧ host.fileExistsRelative visit.file) ∧
          result = visitResult visit)

theorem get_testResults (host : QueryHost) (target : JsString) {visits : List BfsVisit}
    (hnodup : (visits.map BfsVisit.file).Nodup) {file : JsString} {result : TestResult} :
    (testResults host target visits).get file = some result ↔ result.file = file ∧
      ((∃ candidate ∈ colocatedTestCandidates target, host.fileExistsRelative candidate ∧
          result = colocatedResult candidate) ∨
        ∃ visit ∈ visits, isTestFile visit.file ∧
          ¬ (visit.file ∈ colocatedTestCandidates target ∧ host.fileExistsRelative visit.file) ∧
          result = visitResult visit) := by
  rw [testResults, get_addVisit hnodup, get_addColocated, JsMap.get_empty]
  constructor
  · rintro (h | ⟨h, visit, hvisit, rfl, htest, rfl⟩)
    · split at h
      · next hfile =>
        cases h
        exact ⟨rfl, .inl ⟨file, hfile.1, hfile.2, rfl⟩⟩
      · cases h
    · refine ⟨rfl, .inr ⟨visit, hvisit, htest, fun hfile => ?_, rfl⟩⟩
      rw [if_pos hfile] at h
      cases h
  · rintro ⟨rfl, ⟨candidate, hcandidate, hexists, rfl⟩ | ⟨visit, hvisit, htest, hnot, rfl⟩⟩
    · exact .inl (if_pos ⟨hcandidate, hexists⟩)
    · exact .inr ⟨if_neg hnot, visit, hvisit, rfl, htest, rfl⟩

section
variable [DriftAi.Locale]

theorem compareVisits_consistent : ConsistentComparator compareVisits := by
  have heq : compareVisits = fun left right =>
      orElse (subtractNat left.depth right.depth) (DriftAi.Locale.localeCompare left.file right.file) := by
    funext left right
    rw [compareVisits, orElse, subtractNat]
    split <;> split <;> omega
  rw [heq]
  exact (subtractNat_strict.toConsistentComparator.comap BfsVisit.depth).orElse
    (DriftAi.Locale.localeCompare_consistent.comap BfsVisit.file)

/-- The visits are the files that depend on a target, once each, at their distances in order. -/
structure Dependents (graph : ImportGraph) (target : JsString) (depthLimit : DepthLimit)
    (runtimeOnly : Bool) (visits : List BfsVisit) : Prop where
  nodup : (visits.map BfsVisit.file).Nodup
  sorted : visits.Pairwise fun v w => v.depth ≤ w.depth
  exact_iff : ∀ file depth, (∃ v ∈ visits, v.file = file ∧ v.depth = depth) ↔
    file ≠ target ∧ Distance (ImportedBy graph runtimeOnly) target file depth ∧
      depthLimit.allows depth

theorem reverseBfs_dependents (graph : ImportGraph) (target : JsString) (depthLimit : DepthLimit)
    (runtimeOnly : Bool) : ∃ visits, Dependents graph target depthLimit runtimeOnly visits ∧
      ∃ enough, ∀ fuel, enough ≤ fuel →
        reverseBfs fuel graph target depthLimit runtimeOnly = some visits := by
  have hstart : Searching graph depthLimit runtimeOnly target 0 (startState target).queue
      (startState target) := searching_start
  obtain ⟨state, depth, hend, hloop⟩ := hstart.bfsLoop _ le_rfl
  refine ⟨sortBy compareVisits state.results, ⟨?_, ?_, fun file d => ?_⟩,
    remaining graph target (startState target), fun fuel hfuel => ?_⟩
  · have hnodup := hend.nodup
    rw [List.map_cons, List.nodup_cons] at hnodup
    exact ((sortBy_perm _ _).map _).nodup_iff.2 hnodup.2
  · refine (sortBy_sorted compareVisits_consistent state.results).imp fun {v w} hle => ?_
    rw [compareVisits] at hle
    split at hle <;> omega
  · rw [← hend.mem_results]
    simp only [mem_sortBy]
  · rw [reverseBfs, hloop fuel hfuel]
    rfl

theorem testSelection (host : QueryHost) (target : JsString) {visits : List BfsVisit}
    (hnodup : (visits.map BfsVisit.file).Nodup) (project : Option ProjectFilter) :
    TestSelection host target visits project (sortBy compareTestResults
      (filterTestsByProject ((testResults host target visits).entries.map Prod.snd) project)) := by
  have hfiles : ∀ entry ∈ (testResults host target visits).entries, entry.2.file = entry.1 :=
    fun entry hentry => ((get_testResults host target hnodup).1 (JsMap.mem_entries.1 hentry)).1
  have hkeys : (((testResults host target visits).entries.map Prod.snd).map
      TestResult.file).Nodup := by
    have hnodupKeys := (testResults host target visits).nodup
    rw [Entries.keys] at hnodupKeys
    have hsame : (testResults host target visits).entries.map (TestResult.file ∘ Prod.snd) =
        (testResults host target visits).entries.map Prod.fst := List.map_congr_left hfiles
    rwa [List.map_map, hsame]
  have hfilter : ∀ result, result ∈ filterTestsByProject
      ((testResults host target visits).entries.map Prod.snd) project ↔
        (∀ filter, project = some filter → fileMatchesProject result.file filter) ∧
          result ∈ (testResults host target visits).entries.map Prod.snd := by
    intro result
    cases project with
    | none => simp [filterTestsByProject]
    | some filter => simp [filterTestsByProject, and_comm]
  constructor
  · refine ((sortBy_perm _ _).map _).nodup_iff.2 ?_
    cases project with
    | none => exact hkeys
    | some filter => exact hkeys.sublist (List.filter_sublist.map _)
  · intro result
    rw [mem_sortBy, hfilter]
    refine and_congr_right fun _ => ?_
    rw [List.mem_map]
    constructor
    · rintro ⟨entry, hentry, rfl⟩
      exact ((get_testResults host target hnodup).1 (JsMap.mem_entries.1 hentry)).2
    · intro h
      exact ⟨(result.file, result),
        JsMap.mem_entries.2 ((get_testResults host target hnodup).2 ⟨rfl, h⟩), rfl⟩

/-- What a query for the tests of a file gives, whatever the passes of its search. -/
def QueriesTests (host : QueryHost) (graph : ImportGraph) (file : JsString)
    (options : QueryTestsOptions) : Prop :=
  match host.existingRelativeFile file with
  | .error e => ∀ fuel, queryTests fuel host graph file options = some (.error e)
  | .ok target => ∃ visits tests,
      Dependents graph target (options.depth.getD .infinity) true visits ∧
      TestSelection host target visits options.project tests ∧
      ∃ enough, ∀ fuel, enough ≤ fuel →
        queryTests fuel host graph file options = some (.ok tests)

/-- The search returns the files that depend on the target at their distances, and a test query
adds the tests beside it, each once. -/
theorem reverseBfs_exact (graph : ImportGraph) :
    (∀ target depthLimit runtimeOnly, ∃ visits,
      Dependents graph target depthLimit runtimeOnly visits ∧
        ∃ enough, ∀ fuel, enough ≤ fuel →
          reverseBfs fuel graph target depthLimit runtimeOnly = some visits) ∧
    ∀ host file options, QueriesTests host graph file options := by
  refine ⟨fun target depthLimit runtimeOnly =>
    reverseBfs_dependents graph target depthLimit runtimeOnly, fun host file options => ?_⟩
  rw [QueriesTests]
  cases hfile : host.existingRelativeFile file with
  | error e =>
    intro fuel
    rw [queryTests, hfile]
  | ok target =>
    obtain ⟨visits, hdependents, enough, hloop⟩ :=
      reverseBfs_dependents graph target (options.depth.getD .infinity) true
    refine ⟨visits, _, hdependents, testSelection host target hdependents.nodup options.project,
      enough, fun fuel hfuel => ?_⟩
    rw [queryTests, hfile]
    dsimp only
    rw [hloop fuel hfuel]
    rfl

end

end Musi.CodeIntel
