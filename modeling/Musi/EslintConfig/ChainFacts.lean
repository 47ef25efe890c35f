import Musi.EslintConfig.RestrictedSyntaxBuilder
import Musi.Js.Throw

namespace Musi.EslintConfig
open Musi.Js
set_option autoImplicit true

/-! ## The index of the nodes -/

theorem indexNodes_ok_iff {nodes : List RestrictedSyntaxNode} {byId : JsMap RestrictedSyntaxNode} :
    indexNodes nodes = .ok byId ↔
      (nodes.map (·.id)).Nodup ∧ byId.entries = nodes.map fun node => (node.id, node) := by
  have hloop (m : JsMap RestrictedSyntaxNode) (rest : List RestrictedSyntaxNode) :
      rest.foldlM (fun byId node =>
        if byId.has node.id then
          fail (js "policy or exception id " ++ quoted node.id ++ js " is declared twice")
        else .ok (byId.set node.id node)) m = .ok byId ↔
      (m.keys ++ rest.map (·.id)).Nodup ∧
        byId.entries = m.entries ++ rest.map fun node => (node.id, node) := by
    induction rest generalizing m with
    | nil =>
      rw [List.foldlM_nil, List.map_nil, List.map_nil, List.append_nil, List.append_nil]
      exact ⟨fun h => Except.ok.inj h ▸ ⟨m.nodup, rfl⟩, fun h => congrArg _ (JsMap.ext h.2.symm)⟩
    | cons node rest ih =>
      rw [List.foldlM_cons, bind_ok, List.map_cons, List.map_cons]
      cases hget : m.get node.id with
      | some other =>
        have hmem : node.id ∈ m.keys := JsMap.mem_keys.2 ⟨other, hget⟩
        refine iff_of_false ?_ fun h => (List.disjoint_of_nodup_append h.1) hmem List.mem_cons_self
        rintro ⟨m', hm', -⟩
        rw [JsMap.has, hget, Option.isSome_some, if_pos rfl] at hm'
        cases hm'
      | none =>
        have hnew : node.id ∉ m.keys := JsMap.get_none.1 hget
        have hentries : (m.set node.id node).entries = m.entries ++ [(node.id, node)] :=
          setEntry_of_notMem hnew
        have hkeys : (m.set node.id node).keys = m.keys ++ [node.id] := by
          rw [JsMap.keys, hentries, Entries.keys_append]
          rfl
        rw [JsMap.has, hget, Option.isSome_none, if_neg Bool.false_ne_true]
        simp only [Except.ok.injEq, exists_eq_left']
        rw [ih, hentries, hkeys, List.append_assoc, List.append_assoc, List.singleton_append,
          List.singleton_append]
  simpa [indexNodes, JsMap.keys, JsMap.empty] using hloop JsMap.empty nodes

theorem get_indexNodes {id : JsString} (h : indexNodes nodes = .ok byId) :
    byId.get id = some node ↔ node ∈ nodes ∧ node.id = id := by
  rw [← JsMap.mem_entries, (indexNodes_ok_iff.1 h).2, List.mem_map]
  simp only [Prod.mk.injEq]
  exact ⟨fun ⟨a, ha, hid, hnode⟩ => hnode ▸ ⟨ha, hid⟩, fun ⟨hn, hid⟩ => ⟨node, hn, hid, rfl⟩⟩

/-- Nodes in another order have an index that is looked up alike. -/
theorem indexNodes_perm (h : indexNodes nodes = .ok byId) (hp : nodes.Perm nodes') :
    ∃ byId', indexNodes nodes' = .ok byId' ∧ byId'.entries.length = byId.entries.length ∧
      ∀ id, byId'.get id = byId.get id := by
  obtain ⟨hnodup, hentries⟩ := indexNodes_ok_iff.1 h
  have hnodup' : (nodes'.map (·.id)).Nodup := (hp.map _).nodup_iff.1 hnodup
  have hkeys : (Entries.keys (nodes'.map fun node => (node.id, node))).Nodup := by
    rwa [Entries.keys, List.map_map]
  have h' : indexNodes nodes' = .ok ⟨nodes'.map fun node => (node.id, node), hkeys⟩ :=
    indexNodes_ok_iff.2 ⟨hnodup', rfl⟩
  refine ⟨_, h', ?_, fun id => Option.ext fun node => ?_⟩
  · rw [hentries, List.length_map, List.length_map, hp.length_eq]
  · rw [get_indexNodes h', get_indexNodes h, hp.mem_iff]

/-! ## Chains -/

/-- The chain of a node: that of its parent, a policy, and then itself. -/
inductive ChainOf (byId : JsMap RestrictedSyntaxNode) :
    RestrictedSyntaxNode → List RestrictedSyntaxNode → Prop where
  | root : node.within = none → ChainOf byId node [node]
  | child : node.within = some parentId → byId.get parentId = some parent →
      parent.isException = false → ChainOf byId parent chain → ChainOf byId node (chain ++ [node])

namespace ChainOf
variable {byId : JsMap RestrictedSyntaxNode} {node : RestrictedSyntaxNode}
  {chain : List RestrictedSyntaxNode}

theorem unique (h : ChainOf byId node chain) (h' : ChainOf byId node chain') : chain = chain' := by
  induction h generalizing chain' with
  | root hroot =>
    cases h' with
    | root => rfl
    | child hparent => cases hroot.symm.trans hparent
  | child hparent hget _ _ ih =>
    cases h' with
    | root hroot => cases hroot.symm.trans hparent
    | child hparent' hget' _ hchain' =>
      obtain rfl := Option.some.inj (hparent.symm.trans hparent')
      obtain rfl := Option.some.inj (hget.symm.trans hget')
      rw [ih hchain']

theorem eq_append (h : ChainOf byId node chain) : ∃ above, chain = above ++ [node] ∧
    ∀ a ∈ above, a.isException = false := by
  induction h with
  | root => exact ⟨[], rfl, nofun⟩
  | @child _ parent chain node _ _ hpolicy _ ih =>
    obtain ⟨above, rfl, habove⟩ := ih
    refine ⟨above ++ [parent], rfl, fun a ha => ?_⟩
    rcases List.mem_append.1 ha with ha | ha
    · exact habove a ha
    · exact List.mem_singleton.1 ha ▸ hpolicy

theorem mem_self (h : ChainOf byId node chain) : node ∈ chain := by
  obtain ⟨above, rfl, -⟩ := h.eq_append
  simp

/-- The chain of an ancestor is a first part of the chain. -/
theorem ancestor (h : ChainOf byId node chain) (ha : a ∈ chain) :
    ∃ chain', ChainOf byId a chain' ∧ chain' <+: chain := by
  induction h with
  | root hroot =>
    obtain rfl := List.mem_singleton.1 ha
    exact ⟨_, .root hroot, List.prefix_rfl⟩
  | child hparent hget hpolicy hchain ih =>
    rcases List.mem_append.1 ha with ha | ha
    · obtain ⟨chain', ha', hpre⟩ := ih ha
      exact ⟨chain', ha', hpre.trans (List.prefix_append _ _)⟩
    · obtain rfl := List.mem_singleton.1 ha
      exact ⟨_, .child hparent hget hpolicy hchain, List.prefix_rfl⟩

/-- A proper ancestor has a shorter chain. -/
theorem length_lt (h : ChainOf byId node chain) (ha : ChainOf byId a chain') (hmem : a ∈ chain)
    (hne : a ≠ node) : chain'.length < chain.length := by
  cases h with
  | root => exact absurd (List.mem_singleton.1 hmem) hne
  | @child _ parent above _ _ _ _ hchain =>
    have habove : a ∈ above := (List.mem_append.1 hmem).resolve_right fun h =>
      hne (List.mem_singleton.1 h)
    obtain ⟨chain'', ha', hpre⟩ := hchain.ancestor habove
    rw [ha.unique ha', List.length_append, List.length_singleton]
    exact Nat.lt_succ_of_le hpre.length_le

end ChainOf

/-- A node is a proper ancestor of another. -/
def Above (byId : JsMap RestrictedSyntaxNode) (a b : RestrictedSyntaxNode) : Prop :=
  a ≠ b ∧ ∃ chain, ChainOf byId b chain ∧ a ∈ chain

theorem Above.asymm {byId : JsMap RestrictedSyntaxNode} (hab : Above byId a b)
    (hba : Above byId b a) : False := by
  obtain ⟨hne, chain, hchain, ha⟩ := hab
  obtain ⟨-, chain', hchain', hb⟩ := hba
  exact absurd (hchain.length_lt hchain' ha hne) (hchain'.length_lt hchain hb hne.symm).asymm

theorem ChainOf.pairwise {byId : JsMap RestrictedSyntaxNode} (h : ChainOf byId node chain) :
    chain.Pairwise (Above byId) := by
  induction h with
  | root => exact List.pairwise_singleton _ _
  | @child _ parent chain node hparent hget hpolicy hchain ih =>
    have hnode : ChainOf byId node (chain ++ [node]) := .child hparent hget hpolicy hchain
    refine List.pairwise_append.2 ⟨ih, List.pairwise_singleton _ _, fun a ha b hb => ?_⟩
    obtain rfl := List.mem_singleton.1 hb
    refine ⟨?_, _, hnode, List.mem_append_left _ ha⟩
    rintro rfl
    -- the chain of an ancestor of the parent would be no shorter than its own
    obtain ⟨chain', ha', hpre⟩ := hchain.ancestor ha
    have hle := hpre.length_le
    rw [ha'.unique hnode, List.length_append, List.length_singleton] at hle
    omega

theorem chainFrom_ok {byId : JsMap RestrictedSyntaxNode} {chain : List RestrictedSyntaxNode}
    {result : Chain}
    (h : chainFrom node byId fuel current chain = .ok result) :
    ∃ above, ChainOf byId current above ∧ result.1 = above ++ chain := by
  induction fuel generalizing current chain with
  | zero => cases h
  | succ fuel ih =>
    rw [chainFrom] at h
    split at h
    · cases h
    cases hwithin : current.within with
    | none =>
      rw [hwithin] at h
      obtain rfl := Except.ok.inj h
      exact ⟨[current], .root hwithin, rfl⟩
    | some parentId =>
      rw [hwithin] at h
      dsimp only at h
      cases hget : byId.get parentId with
      | none =>
        rw [hget] at h
        cases h
      | some parent =>
        rw [hget] at h
        dsimp only at h
        split at h
        · cases h
        · next hpolicy =>
          obtain ⟨above, habove, heq⟩ := ih h
          refine ⟨above ++ [current], .child hwithin hget (by simpa using hpolicy) habove, ?_⟩
          rw [heq, List.append_assoc, List.singleton_append]

theorem chainOf_ok {byId : JsMap RestrictedSyntaxNode} {chain : Chain}
    (h : chainOf node byId = .ok chain) : ChainOf byId node chain.1 := by
  obtain ⟨above, habove, heq⟩ := chainFrom_ok h
  rwa [heq, List.append_nil]

/-- Beyond one pass for each node of the index, the fuel makes no difference. -/
theorem chainFrom_fuel {byId : JsMap RestrictedSyntaxNode}
    (hcurrent : current ∈ byId.entries.map Prod.snd) (hchain : ∀ a ∈ chain, a ∈ byId.entries.map Prod.snd)
    (hnodup : chain.Nodup) (hfuel : byId.entries.length < fuel + chain.length) (more : Nat) :
    chainFrom node byId (fuel + more) current chain = chainFrom node byId fuel current chain := by
  induction fuel generalizing current chain with
  | zero =>
    have hle : chain.length ≤ (byId.entries.map Prod.snd).length :=
      (List.subperm_of_subset hnodup fun a ha => hchain a ha).length_le
    rw [List.length_map] at hle
    omega
  | succ fuel ih =>
    rw [Nat.add_right_comm, chainFrom, chainFrom]
    split
    · rfl
    next hnew =>
    cases current.within with
    | none => rfl
    | some parentId =>
      dsimp only
      cases hget : byId.get parentId with
      | none => rfl
      | some parent =>
        dsimp only
        split
        · rfl
        refine ih (List.mem_map.2 ⟨_, JsMap.mem_entries.2 hget, rfl⟩) ?_
          (List.nodup_cons.2 ⟨hnew, hnodup⟩) (by rw [List.length_cons]; omega)
        intro a ha
        rcases List.mem_cons.1 ha with rfl | ha
        · exact hcurrent
        · exact hchain a ha

theorem chainOf_fuel {byId : JsMap RestrictedSyntaxNode} {id : JsString} (h : byId.get id = some node)
    (more : Nat) :
    chainFrom node byId (byId.entries.length + 1 + more) node [] = chainOf node byId :=
  chainFrom_fuel (List.mem_map.2 ⟨_, JsMap.mem_entries.2 h, rfl⟩) (by simp) List.nodup_nil (by simp) more

theorem chainFrom_congr {byId byId' : JsMap RestrictedSyntaxNode}
    (h : ∀ id, byId'.get id = byId.get id) :
    chainFrom node byId' fuel current chain = chainFrom node byId fuel current chain := by
  induction fuel generalizing current chain with
  | zero => rfl
  | succ fuel ih => simp only [chainFrom, h, ih]

/-! ## Selector ids -/

/-- The selector ids that a node adds to its family. -/
def RestrictedSyntaxNode.adds : RestrictedSyntaxNode → List JsString
  | policy node => node.selectors
  | exception _ => []

/-- The selector ids that a node removes from its family. -/
def RestrictedSyntaxNode.removes : RestrictedSyntaxNode → List JsString
  | policy _ => []
  | exception node => node.remove

theorem applySelector_ok {id : JsString} (h : applySelector selectors node applied id = .ok applied') :
    id ∉ applied ∧ applied' = applied ++ [id] := by
  unfold applySelector at h
  split at h
  · cases h
  · split at h
    · cases h
    · next hnew => exact ⟨hnew, (Except.ok.inj h).symm⟩

theorem removeSelector_ok {id : JsString} (h : removeSelector selectors node applied id = .ok applied') :
    applied' = applied.erase id := by
  unfold removeSelector at h
  split at h
  · cases h
  · split at h
    · exact (Except.ok.inj h).symm
    · cases h

theorem composeNode_ok (h : composeNode selectors applied node = .ok applied')
    (hnodup : applied.Nodup) : applied'.Nodup ∧
      ∀ id, id ∈ applied' ↔ (id ∈ applied ∨ id ∈ node.adds) ∧ id ∉ node.removes := by
  cases node with
  | policy node =>
    refine foldlM_ok (fun b done => b.Nodup ∧ ∀ id, id ∈ b ↔ (id ∈ applied ∨ id ∈ done) ∧ id ∉ [])
      (fun b a done b' hb hstep => ?_) h [] ⟨hnodup, by simp⟩
    obtain ⟨hnew, rfl⟩ := applySelector_ok hstep
    refine ⟨List.nodup_append.2 ⟨hb.1, List.nodup_singleton _, ?_⟩, fun id => ?_⟩
    · rintro x hx y hy rfl
      exact hnew (List.mem_singleton.1 hy ▸ hx)
    · simp [hb.2 id, or_assoc]
  | exception node =>
    refine foldlM_ok (fun b done => b.Nodup ∧ ∀ id, id ∈ b ↔ (id ∈ applied ∨ id ∈ []) ∧ id ∉ done)
      (fun b a done b' hb hstep => ?_) h [] ⟨hnodup, by simp⟩
    obtain rfl := removeSelector_ok hstep
    refine ⟨hb.1.erase a, fun id => ?_⟩
    rw [hb.1.mem_erase_iff, hb.2 id, List.mem_append, List.mem_singleton]
    tauto

/-- The ids of a chain whose exception, if it has one, comes last. -/
theorem composeSelectorIds_ok (habove : ∀ a ∈ above, RestrictedSyntaxNode.isException a = false)
    (h : composeSelectorIds (above ++ [node]) selectors = .ok ids) : ids.Nodup ∧
      ∀ id, id ∈ ids ↔ (∃ a ∈ above ++ [node], id ∈ a.adds) ∧ id ∉ node.removes := by
  rw [composeSelectorIds, List.foldlM_append, bind_ok] at h
  obtain ⟨applied, happlied, h⟩ := h
  rw [List.foldlM_cons, bind_ok] at h
  obtain ⟨ids', hlast, h⟩ := h
  obtain rfl := Except.ok.inj h
  have hpolicies : applied.Nodup ∧ ∀ id, id ∈ applied ↔ ∃ a ∈ above, id ∈ a.adds := by
    have hloop := foldlM_ok (fun b done => (∀ a ∈ done, RestrictedSyntaxNode.isException a = false) →
        b.Nodup ∧ ∀ id, id ∈ b ↔ ∃ a ∈ done, id ∈ a.adds) (fun b a done b' hb hstep hdone => ?_)
      happlied [] (fun _ => ⟨List.nodup_nil, by simp⟩)
    · exact hloop habove
    obtain ⟨hnodup, hmem⟩ := hb fun x hx => hdone x (List.mem_append_left _ hx)
    obtain ⟨hnodup', hmem'⟩ := composeNode_ok hstep hnodup
    have hkeeps : a.removes = [] := by
      cases a with
      | policy => rfl
      | exception a => cases hdone (.exception a) (List.mem_append_right _ (List.mem_singleton_self _))
    refine ⟨hnodup', fun id => ?_⟩
    rw [hmem' id, hkeeps, hmem id]
    simp [or_and_right, exists_or]
  obtain ⟨hnodup, hmem⟩ := composeNode_ok hlast hpolicies.1
  refine ⟨hnodup, fun id => ?_⟩
  rw [hmem id, hpolicies.2 id]
  simp [or_and_right, exists_or]

end Musi.EslintConfig
