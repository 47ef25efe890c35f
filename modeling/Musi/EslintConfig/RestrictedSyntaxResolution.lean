import Musi.EslintConfig.ChainFacts

namespace Musi.EslintConfig
open Musi.Js
set_option autoImplicit true

/-- What the builder relies on of the patterns it does not read. -/
class LawfulMinimatch [Minimatch] : Prop where
  literal {pattern : JsString} (path : JsString) : isLiteralPath pattern = true →
    (minimatch path pattern = true ↔ path = pattern)
  prefix_of_match {path pattern : JsString} : minimatch path pattern = true →
    staticPrefix pattern <+: path

section
variable [Minimatch]

/-! ## The files of an emitted config -/

@[simp] theorem filePattern_matchesPath (path : JsString) (patterns : List JsString) :
    (filePattern patterns).matchesPath path = patterns.all (minimatch path ·) := by
  match patterns with
  | [] => rfl
  | [pattern] => simp [filePattern, FilePattern.matchesPath]
  | _ :: _ :: _ => rfl

theorem extendCombinations_any (path : JsString) (combinations : List (List JsString))
    (group : List JsString) :
    (extendCombinations combinations group).any (fun ps => ps.all (minimatch path ·)) =
      (combinations.any (fun ps => ps.all (minimatch path ·)) && group.any (minimatch path ·)) := by
  rw [Bool.eq_iff_iff]
  simp only [extendCombinations, List.any_flatMap, List.any_map, List.any_eq_true, Bool.and_eq_true,
    Function.comp_apply, List.all_append, List.all_cons, List.all_nil, Bool.and_true]
  constructor
  · rintro ⟨combination, hc, pattern, hp, hall, hmatch⟩
    exact ⟨⟨combination, hc, hall⟩, pattern, hp, hmatch⟩
  · rintro ⟨⟨combination, hc, hall⟩, pattern, hp, hmatch⟩
    exact ⟨combination, hc, pattern, hp, hall, hmatch⟩

/-- The combinations match what some pattern of every group matches. -/
theorem combinations_any (path : JsString) (groups combinations : List (List JsString)) :
    (groups.foldl extendCombinations combinations).any (fun ps => ps.all (minimatch path ·)) =
      (combinations.any (fun ps => ps.all (minimatch path ·)) &&
        groups.all fun group => group.any (minimatch path ·)) := by
  induction groups generalizing combinations with
  | nil => simp
  | cons group groups ih =>
    rw [List.foldl_cons, ih, extendCombinations_any, List.all_cons, Bool.and_assoc]

variable [LawfulMinimatch]

/-- A literal path leaves nothing for the ancestors that match it to say. -/
theorem dropRedundantAncestorPatterns_all (path : JsString) (patterns : List JsString) :
    (dropRedundantAncestorPatterns patterns).all (minimatch path ·) =
      patterns.all (minimatch path ·) := by
  cases patterns with
  | nil => rfl
  | cons own ancestors =>
    rw [dropRedundantAncestorPatterns]
    split
    · next hliteral =>
      rw [List.all_cons, List.all_cons]
      cases hown : minimatch path own with
      | false => rfl
      | true =>
        obtain rfl := (LawfulMinimatch.literal path hliteral).1 hown
        rw [Bool.eq_iff_iff]
        simp only [Bool.true_and, List.all_eq_true, List.mem_filter, Bool.not_eq_true', and_imp]
        refine ⟨fun h pattern hp => ?_, fun h pattern hp _ => h pattern hp⟩
        cases hm : minimatch path pattern with
        | true => rfl
        | false => exact hm ▸ h pattern hp hm
    · rfl

theorem intersectFileGroups_any (path : JsString) (groups : List (List JsString)) :
    (intersectFileGroups groups).any (·.matchesPath path) =
      groups.all fun group => group.any (minimatch path ·) := by
  have hdropped : ((fun patterns => (filePattern patterns).matchesPath path) ∘
      dropRedundantAncestorPatterns) = fun patterns => patterns.all (minimatch path ·) := by
    funext patterns
    rw [Function.comp_apply, filePattern_matchesPath, dropRedundantAncestorPatterns_all]
  rw [intersectFileGroups, List.any_map, List.any_map, Function.comp_assoc]
  exact (congrArg (List.any _) hdropped).trans (by rw [combinations_any]; simp)

/-- An emitted config matches the paths of its family. -/
theorem emitConfig_matchesPath (family : ResolvedFamily)
    (selectors : RestrictedSyntaxSelectorRegistry) (order : List JsString) (path : JsString) :
    (emitConfig family selectors order).matchesPath path = familyMatches family path := by
  rw [EmittedConfig.matchesPath, familyMatches, emitConfig, intersectFileGroups_any]
  cases family.ignores.any (minimatch path ·) <;> simp

end

/-! ## Families -/

theorem mem_eraseDups {l : List JsString} : a ∈ l.eraseDups ↔ a ∈ l := List.mem_eraseDups

/-- A family that the builder resolved from the nodes of an index. -/
structure Resolved (byId : JsMap RestrictedSyntaxNode) (selectors : RestrictedSyntaxSelectorRegistry)
    (family : ResolvedFamily) : Prop where
  chain : ChainOf byId family.node family.chain
  depth : family.depth + 1 = family.chain.length
  fileGroups : family.fileGroups = family.chain.map (·.files)
  ignores : family.ignores = (family.chain.flatMap (·.ignores)).eraseDups
  selectorIds : composeSelectorIds family.chain selectors = .ok family.selectorIds

theorem resolveFamily_ok {byId : JsMap RestrictedSyntaxNode} {chain : Chain}
    (hchain : ChainOf byId node chain.1) (h : resolveFamily chain selectors = .ok family) :
    family.node = node ∧ Resolved byId selectors family := by
  rw [resolveFamily, bind_ok] at h
  obtain ⟨selectorIds, hids, h⟩ := h
  obtain rfl := Except.ok.inj h
  obtain ⟨above, heq, -⟩ := hchain.eq_append
  have hnode : chain.1.getLast chain.2 = node := by simp [heq]
  refine ⟨hnode, ?_, ?_, rfl, rfl, hids⟩
  · exact hnode.symm ▸ hchain
  · exact Nat.sub_add_cancel (List.length_pos_iff.2 chain.2)

namespace Resolved
variable {byId : JsMap RestrictedSyntaxNode} {selectors : RestrictedSyntaxSelectorRegistry}
  {family ancestor : ResolvedFamily}

theorem ext (h : Resolved byId selectors family) (h' : Resolved byId selectors ancestor)
    (hnode : family.node = ancestor.node) : family = ancestor := by
  have hchain : family.chain = ancestor.chain := h.chain.unique (hnode ▸ h'.chain)
  have hdepth := h.depth.trans (hchain ▸ h'.depth.symm)
  have hids := h.selectorIds.symm.trans (hchain ▸ h'.selectorIds)
  have hgroups := h.fileGroups.trans (hchain ▸ h'.fileGroups.symm)
  have hignores := h.ignores.trans (hchain ▸ h'.ignores.symm)
  cases family
  cases ancestor
  simp_all

theorem mem_selectorIds (h : Resolved byId selectors family) (id : JsString) :
    id ∈ family.selectorIds ↔
      (∃ node ∈ family.chain, id ∈ node.adds) ∧ id ∉ family.node.removes := by
  obtain ⟨above, heq, habove⟩ := h.chain.eq_append
  have hids := h.selectorIds
  rw [heq] at hids ⊢
  exact (composeSelectorIds_ok habove hids).2 id

variable [Minimatch]

theorem familyMatches_iff (h : Resolved byId selectors family) (path : JsString) :
    familyMatches family path = true ↔ ∀ node ∈ family.chain,
      (∃ pattern ∈ node.files, minimatch path pattern = true) ∧
        ∀ pattern ∈ node.ignores, minimatch path pattern = false := by
  rw [familyMatches, h.fileGroups, h.ignores]
  constructor
  · intro hm node hnode
    split at hm
    · cases hm
    next hignored =>
    rw [List.all_eq_true] at hm
    have hfiles := hm node.files (List.mem_map_of_mem hnode)
    refine ⟨List.any_eq_true.1 hfiles, fun pattern hp => Bool.eq_false_iff.2 fun hmatch => ?_⟩
    exact hignored (List.any_eq_true.2 ⟨pattern,
      mem_eraseDups.2 (List.mem_flatMap.2 ⟨node, hnode, hp⟩), hmatch⟩)
  · intro hall
    rw [if_neg]
    · refine List.all_eq_true.2 fun group hgroup => ?_
      obtain ⟨node, hnode, rfl⟩ := List.mem_map.1 hgroup
      exact List.any_eq_true.2 (hall node hnode).1
    · intro hignored
      obtain ⟨pattern, hp, hmatch⟩ := List.any_eq_true.1 hignored
      obtain ⟨node, hnode, hp⟩ := List.mem_flatMap.1 (mem_eraseDups.1 hp)
      exact Bool.false_ne_true (((hall node hnode).2 pattern hp).symm.trans hmatch)

/-- A path of a family is a path of the families above it. -/
theorem familyMatches_above (h : Resolved byId selectors family)
    (ha : Resolved byId selectors ancestor) (hmem : ancestor.node ∈ family.chain)
    (hm : familyMatches family path = true) : familyMatches ancestor path = true := by
  obtain ⟨chain, hchain, hpre⟩ := h.chain.ancestor hmem
  rw [ha.familyMatches_iff, ha.chain.unique hchain]
  exact fun node hnode => (h.familyMatches_iff path).1 hm node (hpre.subset hnode)

theorem own_files (h : Resolved byId selectors family) (hm : familyMatches family path = true) :
    ∃ pattern ∈ family.node.files, minimatch path pattern = true :=
  ((h.familyMatches_iff path).1 hm family.node h.chain.mem_self).1

theorem not_ignored (hm : familyMatches family path = true) (hp : pattern ∈ family.ignores) :
    minimatch path pattern = false := by
  rw [familyMatches] at hm
  split at hm
  · cases hm
  · next hignored =>
    exact Bool.eq_false_iff.2 fun hmatch => hignored (List.any_eq_true.2 ⟨pattern, hp, hmatch⟩)

/-! ## Disjointness -/

theorem disjoint_of_ignores {x y : ResolvedFamily} (hx : Resolved byId selectors x)
    (h : excludedByIgnores x y = true) (hmx : familyMatches x path = true) :
    familyMatches y path = false := by
  obtain ⟨pattern, hp, hmatch⟩ := hx.own_files hmx
  have hignored : pattern ∈ y.ignores := by simpa using List.all_eq_true.1 h pattern hp
  exact Bool.eq_false_iff.2 fun hmy => Bool.false_ne_true ((not_ignored hmy hignored).symm.trans hmatch)

variable [LawfulMinimatch]

theorem disjoint_of_literalPaths {x y : ResolvedFamily} (hx : Resolved byId selectors x)
    (h : excludedByLiteralPaths x y = true) (hmx : familyMatches x path = true) :
    familyMatches y path = false := by
  obtain ⟨hliteral, hother⟩ := (Bool.and_eq_true _ _).mp h
  obtain ⟨pattern, hp, hmatch⟩ := hx.own_files hmx
  obtain rfl := (LawfulMinimatch.literal path (List.all_eq_true.1 hliteral pattern hp)).1 hmatch
  simpa using List.all_eq_true.1 hother path hp

theorem disjoint_of_prefix {a b : ResolvedFamily} (ha : Resolved byId selectors a)
    (hb : Resolved byId selectors b) (h : excludedByPrefix a b = true)
    (hma : familyMatches a path = true) : familyMatches b path = false := by
  refine Bool.eq_false_iff.2 fun hmb => ?_
  obtain ⟨left, hleft, hmatchl⟩ := ha.own_files hma
  obtain ⟨right, hright, hmatchr⟩ := hb.own_files hmb
  have hpair := List.all_eq_true.1 (List.all_eq_true.1 h left hleft) right hright
  rw [Bool.and_eq_true, Bool.not_eq_true', Bool.not_eq_true', ← Bool.not_eq_true,
    ← Bool.not_eq_true, startsWith_iff, startsWith_iff] at hpair
  -- of two prefixes of one path, the shorter is a prefix of the longer
  rcases List.prefix_or_prefix_of_prefix (LawfulMinimatch.prefix_of_match hmatchl)
    (LawfulMinimatch.prefix_of_match hmatchr) with hpre | hpre
  · exact hpair.2 hpre
  · exact hpair.1 hpre

theorem provablyDisjoint_sound {a b : ResolvedFamily} (ha : Resolved byId selectors a)
    (hb : Resolved byId selectors b) (h : provablyDisjoint a b = true) (path : JsString) :
    ¬ (familyMatches a path = true ∧ familyMatches b path = true) := by
  rintro ⟨hma, hmb⟩
  simp only [provablyDisjoint, Bool.or_eq_true] at h
  rcases h with (((h | h) | h) | h) | h
  · exact Bool.false_ne_true ((ha.disjoint_of_ignores h hma).symm.trans hmb)
  · exact Bool.false_ne_true ((hb.disjoint_of_ignores h hmb).symm.trans hma)
  · exact Bool.false_ne_true ((ha.disjoint_of_literalPaths h hma).symm.trans hmb)
  · exact Bool.false_ne_true ((hb.disjoint_of_literalPaths h hmb).symm.trans hma)
  · exact Bool.false_ne_true ((ha.disjoint_of_prefix hb h hma).symm.trans hmb)

end Resolved

end Musi.EslintConfig
