import Mathlib.Data.List.Chain
import Musi.EslintConfig.RestrictedSyntaxResolution

namespace Musi.EslintConfig
open Musi.Js
set_option autoImplicit true

theorem ChainOf.mem {byId : JsMap RestrictedSyntaxNode} (h : ChainOf byId node chain) (ha : a ∈ chain) :
    a = node ∨ ∃ id, byId.get id = some a := by
  induction h with
  | root => exact .inl (List.mem_singleton.1 ha)
  | child _ hget _ _ ih =>
    rcases List.mem_append.1 ha with ha | ha
    · rcases ih ha with rfl | hother
      · exact .inr ⟨_, hget⟩
      · exact .inr hother
    · exact .inl (List.mem_singleton.1 ha)

/-- Along a chain, every node is within the one before it. -/
theorem ChainOf.within {byId : JsMap RestrictedSyntaxNode} (hindex : indexNodes nodes = .ok byId)
    (h : ChainOf byId node chain) :
    chain.IsChain (fun a b => b.within = some a.id) ∧ ∀ root ∈ chain.head?, root.within = none := by
  induction h with
  | root hroot => exact ⟨List.isChain_singleton _, by simpa using hroot⟩
  | child hparent hget _ hchain ih =>
    obtain ⟨above, rfl, -⟩ := hchain.eq_append
    obtain ⟨-, rfl⟩ := (get_indexNodes hindex).1 hget
    refine ⟨List.isChain_append.2 ⟨ih.1, List.isChain_singleton _, ?_⟩, ?_⟩
    · simpa using hparent
    · rw [List.head?_append_of_ne_nil _ (by simp)]
      exact ih.2

section
variable [Minimatch]

/-! ## Accepted declarations -/

theorem assertUnambiguous_ok {left right : ResolvedFamily} : assertUnambiguous left right = .ok () ↔
    (right.node ∈ left.chain ∨ left.node ∈ right.chain) ∨ provablyDisjoint left right = true := by
  unfold assertUnambiguous
  split
  · next h => exact iff_of_true rfl (.inl h)
  · next hnested =>
    split
    · next h => exact iff_of_true rfl (.inr h)
    · next hdisjoint => exact iff_of_false nofun fun h => h.elim hnested hdisjoint

theorem provablyDisjoint_comm (a b : ResolvedFamily) :
    provablyDisjoint a b = provablyDisjoint b a := by
  have hprefix : excludedByPrefix a b = excludedByPrefix b a := by
    rw [Bool.eq_iff_iff]
    simp only [excludedByPrefix, List.all_eq_true]
    exact ⟨fun h right hr left hl => Bool.and_comm _ _ ▸ h left hl right hr,
      fun h left hl right hr => Bool.and_comm _ _ ▸ h right hr left hl⟩
  rw [provablyDisjoint, provablyDisjoint, hprefix, Bool.or_comm (excludedByIgnores a b),
    Bool.or_assoc _ (excludedByLiteralPaths a b), Bool.or_comm (excludedByLiteralPaths a b),
    ← Bool.or_assoc]

theorem assertUnambiguous_symm {left right : ResolvedFamily}
    (h : assertUnambiguous left right = .ok ()) : assertUnambiguous right left = .ok () := by
  rw [assertUnambiguous_ok] at h ⊢
  rwa [or_comm (a := left.node ∈ right.chain), provablyDisjoint_comm]

theorem assertFamiliesAreUnambiguous_ok {families : List ResolvedFamily} :
    assertFamiliesAreUnambiguous families = .ok () ↔
      families.Pairwise fun left right => assertUnambiguous left right = .ok () := by
  induction families with
  | nil => exact iff_of_true rfl List.Pairwise.nil
  | cons left rest ih =>
    rw [assertFamiliesAreUnambiguous, bind_ok, List.pairwise_cons, ← ih, ← forM_ok]
    exact ⟨fun ⟨(), hleft, hrest⟩ => ⟨hleft, hrest⟩, fun ⟨hleft, hrest⟩ => ⟨(), hleft, hrest⟩⟩

def familyIndex (families : List ResolvedFamily) : JsMap ResolvedFamily :=
  JsMap.ofList (families.map fun family => (family.node.id, family))

omit [Minimatch] in
theorem resolveNode_ok {byId : JsMap RestrictedSyntaxNode}
    (h : resolveNode byId selectors node = .ok family) :
    family.node = node ∧ Resolved byId selectors family := by
  rw [resolveNode, bind_ok] at h
  obtain ⟨chain, hchain, h⟩ := h
  exact resolveFamily_ok (chainOf_ok hchain) h

/-- What the builder has checked of a declaration when it emits its configs. -/
structure Composed (declaration : RestrictedSyntaxDeclaration) (byId : JsMap RestrictedSyntaxNode)
    (families : List ResolvedFamily) : Prop where
  order : assertOrderCoversSelectors declaration.selectors declaration.order = .ok ()
  index : indexNodes declaration.nodes = .ok byId
  nodes : families.map (·.node) = declaration.nodes
  resolves : ∀ family ∈ families, resolveNode byId declaration.selectors family.node = .ok family
  narrows : ∀ family ∈ families, assertNarrowsNamedParent (familyIndex families) family = .ok ()
  unambiguous : families.Pairwise fun left right => assertUnambiguous left right = .ok ()

theorem buildRestrictedSyntaxConfigs_ok {declaration : RestrictedSyntaxDeclaration} :
    buildRestrictedSyntaxConfigs declaration = .ok configs ↔
      ∃ byId families, Composed declaration byId families ∧
        configs = (emissionOrder families).map fun family =>
          emitConfig family declaration.selectors declaration.order := by
  have hkey (byId : JsMap RestrictedSyntaxNode) (node : RestrictedSyntaxNode) (family : ResolvedFamily)
      (h : resolveNode byId declaration.selectors node = .ok family) : family.node = node :=
    (resolveNode_ok h).1
  unfold buildRestrictedSyntaxConfigs
  constructor
  · intro h
    obtain ⟨_, horder, h⟩ := bind_ok.1 h
    obtain ⟨byId, hindex, h⟩ := bind_ok.1 h
    obtain ⟨families, hfamilies, h⟩ := bind_ok.1 h
    obtain ⟨_, hnarrows, h⟩ := bind_ok.1 h
    obtain ⟨_, hunambiguous, h⟩ := bind_ok.1 h
    obtain ⟨hnodes, hfamilies⟩ := (mapM_ok_keyed (hkey byId)).1 hfamilies
    exact ⟨byId, families, ⟨horder, hindex, hnodes, hfamilies, forM_ok.1 hnarrows,
      assertFamiliesAreUnambiguous_ok.1 hunambiguous⟩, (Except.ok.inj h).symm⟩
  · rintro ⟨byId, families, h, rfl⟩
    refine bind_ok.2 ⟨(), h.order, bind_ok.2 ⟨byId, h.index, bind_ok.2 ⟨families, ?_,
      bind_ok.2 ⟨(), forM_ok.2 h.narrows, bind_ok.2 ⟨(), ?_, rfl⟩⟩⟩⟩⟩
    · exact (mapM_ok_keyed (hkey byId)).2 ⟨h.nodes, h.resolves⟩
    · exact assertFamiliesAreUnambiguous_ok.2 h.unambiguous

namespace Composed
variable {declaration : RestrictedSyntaxDeclaration} {byId : JsMap RestrictedSyntaxNode}
  {families : List ResolvedFamily}

theorem resolved (h : Composed declaration byId families) (hf : family ∈ families) :
    Resolved byId declaration.selectors family := (resolveNode_ok (h.resolves family hf)).2

theorem nodup_ids (h : Composed declaration byId families) :
    (families.map (·.node.id)).Nodup := by
  have hnodup := (indexNodes_ok_iff.1 h.index).1
  rwa [← h.nodes, List.map_map] at hnodup

theorem nodup (h : Composed declaration byId families) : families.Nodup := h.nodup_ids.of_map

/-- Every node of a chain has its family. -/
theorem exists_family (h : Composed declaration byId families) (hf : family ∈ families)
    (ha : a ∈ family.chain) : ∃ ancestor ∈ families, ancestor.node = a := by
  have hnode : a ∈ declaration.nodes := by
    rcases (h.resolved hf).chain.mem ha with rfl | ⟨id, hid⟩
    · rw [← h.nodes]
      exact List.mem_map_of_mem hf
    · exact ((get_indexNodes h.index).1 hid).1
  rw [← h.nodes] at hnode
  exact List.mem_map.1 hnode

theorem depth_lt (h : Composed declaration byId families) (ha : a ∈ families) (hb : b ∈ families)
    (hab : Above byId a.node b.node) : a.depth < b.depth := by
  obtain ⟨hne, chain, hchain, hmem⟩ := hab
  have hlt := hchain.length_lt (h.resolved ha).chain hmem hne
  have hda := (h.resolved ha).depth
  have hdb := (h.resolved hb).depth
  rw [(h.resolved hb).chain.unique hchain] at hdb
  omega

variable [LawfulMinimatch]

/-- Of two families of one path, one is above the other. -/
theorem nested (h : Composed declaration byId families) (ha : a ∈ families) (hb : b ∈ families)
    (hne : a ≠ b) (hma : familyMatches a path = true) (hmb : familyMatches b path = true) :
    Above byId a.node b.node ∨ Above byId b.node a.node := by
  have hnode : a.node ≠ b.node := fun heq => hne ((h.resolved ha).ext (h.resolved hb) heq)
  have hsymm : Std.Symm fun left right => assertUnambiguous left right = .ok () :=
    ⟨fun _ _ => assertUnambiguous_symm⟩
  have hpair : assertUnambiguous a b = .ok () := h.unambiguous.forall ha hb hne
  rcases assertUnambiguous_ok.1 hpair with (hmem | hmem) | hdisjoint
  · exact .inr ⟨hnode.symm, _, (h.resolved ha).chain, hmem⟩
  · exact .inl ⟨hnode, _, (h.resolved hb).chain, hmem⟩
  · exact absurd ⟨hma, hmb⟩ ((h.resolved ha).provablyDisjoint_sound (h.resolved hb) hdisjoint path)

/-- The families of a path, in the order of their configs. -/
theorem covering_pairwise (h : Composed declaration byId families) (path : JsString) :
    ((emissionOrder families).filter (familyMatches · path)).Pairwise fun a b =>
      Above byId a.node b.node := by
  have hsorted : (emissionOrder families).Pairwise fun a b => (a.depth : Int) - b.depth ≤ 0 :=
    sortBy_sorted ⟨fun a b => by omega, fun hab hbc => by omega⟩ _
  have hnodup : (emissionOrder families).Nodup := nodup_sortBy.2 h.nodup
  refine ((hsorted.and hnodup).filter _).imp_of_mem fun {a b} ha hb ⟨hle, hne⟩ => ?_
  obtain ⟨hfa, hma⟩ := List.mem_filter.1 ha
  obtain ⟨hfb, hmb⟩ := List.mem_filter.1 hb
  refine (h.nested (mem_sortBy.1 hfa) (mem_sortBy.1 hfb) hne hma hmb).resolve_right fun habove => ?_
  have := h.depth_lt (mem_sortBy.1 hfb) (mem_sortBy.1 hfa) habove
  omega

/-- The nodes of a path are the chain of the deepest of them. -/
theorem covering_chain (h : Composed declaration byId families) {path : JsString}
    (hlast : ((emissionOrder families).filter (familyMatches · path)).getLast? = some deepest) :
    ((emissionOrder families).filter (familyMatches · path)).map (·.node) = deepest.chain := by
  have hpairwise := h.covering_pairwise path
  obtain ⟨shallower, hcovering⟩ := List.getLast?_eq_some_iff.1 hlast
  have hmem : deepest ∈ (emissionOrder families).filter (familyMatches · path) := by simp [hcovering]
  obtain ⟨hdeepest, hmatches⟩ := List.mem_filter.1 hmem
  have hresolved := h.resolved (mem_sortBy.1 hdeepest)
  have hnodes : (((emissionOrder families).filter (familyMatches · path)).map (·.node)).Pairwise
      (Above byId) := List.pairwise_map.2 hpairwise
  refine List.Perm.eq_of_pairwise (fun a b _ _ hab hba => (hab.asymm hba).elim) hnodes
    hresolved.chain.pairwise ((List.perm_ext_iff_of_nodup (hnodes.imp fun hab => hab.1)
      (hresolved.chain.pairwise.imp fun hab => hab.1)).2 fun a => ⟨fun ha => ?_, fun ha => ?_⟩)
  · obtain ⟨family, hfamily, rfl⟩ := List.mem_map.1 ha
    rw [hcovering, List.mem_append, List.mem_singleton] at hfamily
    rcases hfamily with hshallower | rfl
    · rw [hcovering] at hpairwise
      obtain ⟨-, chain, hchain, hin⟩ := (List.pairwise_append.1 hpairwise).2.2 family hshallower deepest
        (List.mem_singleton_self _)
      rwa [hresolved.chain.unique hchain]
    · exact hresolved.chain.mem_self
  · obtain ⟨ancestor, hancestor, rfl⟩ := h.exists_family (mem_sortBy.1 hdeepest) ha
    refine List.mem_map_of_mem (List.mem_filter.2 ⟨mem_sortBy.2 hancestor, ?_⟩)
    exact hresolved.familyMatches_above (h.resolved hancestor) ha hmatches

end Composed

/-! ## Declarations in another order -/

/-- The same declaration, authored in another order. -/
structure Reordered (declaration declaration' : RestrictedSyntaxDeclaration) : Prop where
  selectors : declaration'.selectors = declaration.selectors
  order : declaration'.order = declaration.order
  policies : declaration'.policies.Perm declaration.policies
  exceptions : declaration'.exceptions.Perm declaration.exceptions

omit [Minimatch] in
theorem Reordered.nodes {declaration declaration' : RestrictedSyntaxDeclaration}
    (h : Reordered declaration declaration') : declaration'.nodes.Perm declaration.nodes :=
  (h.policies.map _).append (h.exceptions.map _)

omit [Minimatch] in
theorem familyIndex_get {families families' : List ResolvedFamily}
    (hnodup : (families.map (·.node.id)).Nodup) (hp : families'.Perm families) (id : JsString) :
    (familyIndex families').get id = (familyIndex families).get id := by
  have hkeys (l : List ResolvedFamily) : Entries.keys (l.map fun family => (family.node.id, family)) =
      l.map (·.node.id) := by
    rw [Entries.keys, List.map_map]
    rfl
  have hnodup' : (families'.map (·.node.id)).Nodup := (hp.map _).nodup_iff.2 hnodup
  rw [familyIndex, familyIndex, JsMap.get_ofList_of_nodup ((hkeys _).symm ▸ hnodup'),
    JsMap.get_ofList_of_nodup ((hkeys _).symm ▸ hnodup)]
  exact Entries.lookup_perm ((hkeys _).symm ▸ hnodup') (hp.map _) id

/-- The builder accepts a declaration in every order, and resolves the same families. -/
theorem Composed.reorder {declaration declaration' : RestrictedSyntaxDeclaration}
    {byId : JsMap RestrictedSyntaxNode} {families : List ResolvedFamily}
    (h : Composed declaration byId families) (hr : Reordered declaration declaration') :
    ∃ byId' families', Composed declaration' byId' families' ∧ families'.Perm families := by
  obtain ⟨byId', hindex, hlength, hget⟩ := indexNodes_perm h.index hr.nodes.symm
  have hnodes := hr.nodes
  rw [← h.nodes] at hnodes
  obtain ⟨families', hnodes', hp⟩ := exists_perm_of_map hnodes
  have hsame (node : RestrictedSyntaxNode) : chainOf node byId' = chainOf node byId := by
    rw [chainOf, chainOf, hlength, chainFrom_congr hget]
  refine ⟨byId', families', ⟨?_, hindex, hnodes', fun family hf => ?_, fun family hf => ?_, ?_⟩, hp⟩
  · rw [hr.selectors, hr.order]
    exact h.order
  · have hresolves := h.resolves family (hp.mem_iff.1 hf)
    rwa [resolveNode, hsame, hr.selectors]
  · have hnarrows := h.narrows family (hp.mem_iff.1 hf)
    unfold assertNarrowsNamedParent at hnarrows ⊢
    simpa only [familyIndex_get h.nodup_ids hp] using hnarrows
  · exact (hp.pairwise_iff assertUnambiguous_symm).2 h.unambiguous

variable [LawfulMinimatch]

/-- The families of a path are covered in the same order, however the nodes are authored. -/
theorem Composed.covering_perm {declaration : RestrictedSyntaxDeclaration}
    {byId : JsMap RestrictedSyntaxNode} {families families' : List ResolvedFamily}
    (h : Composed declaration byId families) (hp : families'.Perm families) (path : JsString) :
    (emissionOrder families').filter (familyMatches · path) =
      (emissionOrder families).filter (familyMatches · path) := by
  have hnodup' : families'.Nodup := hp.nodup_iff.2 h.nodup
  refine (filter_sortBy_eq_iff ⟨fun a b => by omega, fun hab hbc => by omega⟩ hnodup' hp _).2
    fun a b hma hmb htie hsub => ?_
  -- two families of one path are never at one depth
  have hne : a ≠ b := List.pairwise_pair.1 (hnodup'.sublist hsub)
  have ha : a ∈ families := hp.mem_iff.1 (hsub.subset List.mem_cons_self)
  have hb : b ∈ families := hp.mem_iff.1 (hsub.subset (List.mem_cons_of_mem _ (List.mem_singleton_self _)))
  rcases h.nested ha hb hne hma hmb with habove | habove
  · have := h.depth_lt ha hb habove
    omega
  · have := h.depth_lt hb ha habove
    omega

/-! ## Composition -/

theorem matchingConfigs_map (families : List ResolvedFamily) (selectors : RestrictedSyntaxSelectorRegistry)
    (order : List JsString) (path : JsString) :
    matchingConfigs (families.map fun family => emitConfig family selectors order) path =
      (families.filter (familyMatches · path)).map fun family => emitConfig family selectors order := by
  rw [matchingConfigs, List.filter_map]
  congr 2
  funext family
  exact emitConfig_matchesPath family selectors order path

/-- What the emitted configs make of a path. -/
structure Composition (declaration : RestrictedSyntaxDeclaration) (configs : List EmittedConfig)
    (families : List ResolvedFamily) : Prop where
  /-- Every node has one family, at the end of its chain. -/
  nodes : families.map (·.node) = declaration.nodes
  chain : ∀ family ∈ families, family.chain.getLast? = some family.node ∧
    family.chain.IsChain (fun a b => b.within = some a.id) ∧
    ∀ root ∈ family.chain.head?, root.within = none
  selectorIds : ∀ family ∈ families, ∀ id, id ∈ family.selectorIds ↔
    (∃ node ∈ family.chain, id ∈ node.adds) ∧ id ∉ family.node.removes
  /-- The families of a path are a whole chain, and the last of them is the deepest. -/
  covering : ∀ path, ∃ covering : List ResolvedFamily, covering ⊆ families ∧
    matchingConfigs configs path = covering.map (fun family =>
      emitConfig family declaration.selectors declaration.order) ∧
    ∀ deepest ∈ covering.getLast?, covering.map (·.node) = deepest.chain ∧
      ∀ family ∈ covering, family ≠ deepest → family.depth < deepest.depth
  disjoint : ∀ a ∈ families, ∀ b ∈ families, provablyDisjoint a b = true → ∀ path,
    ¬ ((emitConfig a declaration.selectors declaration.order).matchesPath path = true ∧
      (emitConfig b declaration.selectors declaration.order).matchesPath path = true)
  /-- The order of the nodes does not matter. -/
  reorder : ∀ declaration', Reordered declaration declaration' →
    ∃ configs', buildRestrictedSyntaxConfigs declaration' = .ok configs' ∧
      ∀ path, resolvedRule configs' path = resolvedRule configs path

end

/-! ## A declaration -/

/-- Patterns whose only magic character is `*`, which stands for a part of one path segment. -/
def starMatches : JsString → JsString → Bool
  | [], path => path = []
  | c :: pattern, path =>
    if c = 0x2A then
      (List.range (path.length + 1)).any fun n =>
        !(path.take n).contains 0x2F && starMatches pattern (path.drop n)
    else if isGlobMagic c then false
    else
      match path with
      | [] => false
      | d :: path => c = d && starMatches pattern path

instance starMinimatch : Minimatch := ⟨fun path pattern => starMatches pattern path⟩

theorem starMatches_literal (h : isLiteralPath pattern = true) :
    starMatches pattern path = true ↔ path = pattern := by
  induction pattern generalizing path with
  | nil => simp [starMatches]
  | cons c pattern ih =>
    obtain ⟨hc, hrest⟩ := List.forall_mem_cons.1 (List.all_eq_true.1 h)
    have hmagic : isGlobMagic c = false := by simpa using hc
    have hstar : c ≠ 0x2A := by
      rintro rfl
      cases hmagic
    cases path with
    | nil => simp [starMatches, hstar, hmagic]
    | cons d path =>
      rw [List.cons.injEq, ← ih (List.all_eq_true.2 hrest), eq_comm (a := d)]
      simp [starMatches, hstar, hmagic]

theorem starMatches_prefix (h : starMatches pattern path = true) : staticPrefix pattern <+: path := by
  induction pattern generalizing path with
  | nil => exact List.nil_prefix
  | cons c pattern ih =>
    rw [staticPrefix, List.takeWhile_cons]
    cases hmagic : isGlobMagic c with
    | true => exact List.nil_prefix
    | false =>
      have hstar : c ≠ 0x2A := by
        rintro rfl
        cases hmagic
      cases path with
      | nil => simp [starMatches, hstar, hmagic] at h
      | cons d path =>
        simp only [starMatches, if_neg hstar, hmagic, Bool.false_eq_true, if_false, Bool.and_eq_true,
          decide_eq_true_eq] at h
        obtain ⟨rfl, hrest⟩ := h
        exact (List.prefix_cons_inj c).2 (ih hrest)

instance starMinimatch_lawful : LawfulMinimatch where
  literal _ := starMatches_literal
  prefix_of_match := starMatches_prefix

def processSelectors : Entries RestrictedSyntaxSelector :=
  [(js "exit", { selector := js "Identifier[name=exit]", message := js "no exit" }),
    (js "env", { selector := js "Identifier[name=env]", message := js "no env" })]

/-- A policy with a narrower exception, and a policy apart. -/
def processDeclaration : Except JsString RestrictedSyntaxDeclaration := do
  let selectors ← defineRestrictedSyntaxSelectors processSelectors
  let sources ← restrictedSyntaxPolicy
    { id := js "sources", files := [js "src/*.ts"], selectors := [js "exit", js "env"] }
  let tests ← restrictedSyntaxPolicy
    { id := js "tests", files := [js "test/*.ts"], selectors := [js "exit"] }
  let environment ← restrictedSyntaxException
    { id := js "environment", within := js "sources", files := [js "src/env.ts"]
      remove := [js "env"] }
  return { selectors, policies := [tests, sources], exceptions := [environment]
           order := [js "exit", js "env"] }

end Musi.EslintConfig
