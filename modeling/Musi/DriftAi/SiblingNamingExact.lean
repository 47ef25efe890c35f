import Musi.DriftAi.SiblingNaming

namespace Musi.DriftAi
open Musi.Js
set_option autoImplicit true

variable {config : SiblingNamingConfig}

/-! ## The markers of a side -/

/-- Markers that each stand at a place of their own among the tokens, from an index on. -/
structure PlacedMarkers (config : SiblingNamingConfig) (last index : Nat) (tokens : List JsString)
    (placed : List (Nat × SiblingMarker)) : Prop where
  sorted : placed.Pairwise fun p q => p.1 < q.1
  token : ∀ p ∈ placed, index ≤ p.1 ∧ tokens[p.1 - index]? = some p.2.token
  kind : ∀ p ∈ placed, classifySiblingMarker p.2.token config = some p.2.kind
  position : ∀ p ∈ placed, p.2.position = positionFor p.1 last

variable {last index : Nat} {token : JsString} {tokens : List JsString}
  {placed : List (Nat × SiblingMarker)}

theorem PlacedMarkers.later (h : PlacedMarkers config last (index + 1) tokens placed) :
    PlacedMarkers config last index (token :: tokens) placed where
  sorted := h.sorted
  token p hp := by
    obtain ⟨hle, htoken⟩ := h.token p hp
    have hsub : p.1 - index = p.1 - (index + 1) + 1 := by omega
    rw [hsub, List.getElem?_cons_succ]
    exact ⟨by omega, htoken⟩
  kind := h.kind
  position := h.position

theorem PlacedMarkers.first {kind : SiblingMarkerKind}
    (hkind : classifySiblingMarker token config = some kind)
    (h : PlacedMarkers config last (index + 1) tokens placed) :
    PlacedMarkers config last index (token :: tokens)
      ((index, ⟨token, kind, positionFor index last⟩) :: placed) where
  sorted := List.pairwise_cons.2 ⟨fun p hp => (h.token p hp).1, h.sorted⟩
  token := by
    rw [List.forall_mem_cons]
    exact ⟨⟨le_rfl, by rw [Nat.sub_self]; rfl⟩, h.later.token⟩
  kind := by
    rw [List.forall_mem_cons]
    exact ⟨hkind, h.kind⟩
  position := by
    rw [List.forall_mem_cons]
    exact ⟨rfl, h.position⟩

theorem exists_placed (config : SiblingNamingConfig) (last index : Nat) (remaining : JsMap Nat)
    (tokens : List JsString) : ∃ placed, PlacedMarkers config last index tokens placed ∧
      placed.map Prod.snd = markersFrom config last index remaining tokens := by
  induction tokens generalizing index remaining with
  | nil => exact ⟨[], ⟨.nil, by simp, by simp, by simp⟩, rfl⟩
  | cons token tokens ih =>
    rw [markersFrom]
    split
    · obtain ⟨placed, hplaced, hmap⟩ := ih (index + 1) remaining
      exact ⟨placed, hplaced.later, hmap⟩
    · cases hkind : classifySiblingMarker token config with
      | none =>
        obtain ⟨placed, hplaced, hmap⟩ := ih (index + 1) remaining
        exact ⟨placed, hplaced.later, hmap⟩
      | some kind =>
        obtain ⟨placed, hplaced, hmap⟩ :=
          ih (index + 1) (remaining.set token (countOf remaining token - 1))
        exact ⟨_, hplaced.first hkind, by rw [List.map_cons, hmap]⟩

/-- When all that is left are markers, the walk takes what the tokens share with it. -/
theorem map_token_markersFrom (config : SiblingNamingConfig) (last index : Nat)
    (remaining : JsMap Nat) (tokens : List JsString)
    (h : ∀ token, countOf remaining token > 0 → (classifySiblingMarker token config).isSome) :
    (markersFrom config last index remaining tokens).map SiblingMarker.token =
      takeShared remaining tokens := by
  induction tokens generalizing index remaining with
  | nil => rfl
  | cons token tokens ih =>
    rw [markersFrom, takeShared]
    by_cases hcount : countOf remaining token = 0
    · rw [if_pos hcount, if_neg (by omega)]
      exact ih (index + 1) remaining h
    · rw [if_neg hcount, if_pos (Nat.pos_of_ne_zero hcount)]
      obtain ⟨kind, hkind⟩ := Option.isSome_iff_exists.1 (h token (Nat.pos_of_ne_zero hcount))
      rw [hkind]
      refine congrArg (token :: ·) (ih (index + 1) _ fun other hother => ?_)
      rw [countOf_set] at hother
      split at hother
      · next heq =>
        rw [heq, hkind]
        rfl
      · exact h other hother

/-- The markers of a side are its extra tokens, each at a place of its own. -/
structure Attributed (config : SiblingNamingConfig) (tokens : List JsString)
    (extra : Multiset JsString) (markers : List SiblingMarker) : Prop where
  extra : (markers.map SiblingMarker.token : Multiset JsString) = extra
  placed : ∃ positions : List Nat, positions.Nodup ∧ positions.length = markers.length ∧
    ∀ p ∈ positions.zip markers, tokens[p.1]? = some p.2.token ∧
      classifySiblingMarker p.2.token config = some p.2.kind ∧
      p.2.position = positionFor p.1 (tokens.length - 1)

theorem attributed_markersForSide {tokens other : List JsString}
    (h : ∀ token ∈ (tokens : Multiset JsString) - other,
      ¬ classifySiblingMarker token config = none) :
    Attributed config tokens ((tokens : Multiset JsString) - other)
      (markersForSide tokens (multisetDifference tokens other) config) := by
  constructor
  · have hextra := coe_multisetDifference tokens other
    rw [markersForSide, map_token_markersFrom]
    · have hshared := coe_multisetIntersection tokens (multisetDifference tokens other)
      rw [multisetIntersection, hextra] at hshared
      rw [hshared, inter_extra]
    · intro token htoken
      rw [countOf_countTokens, gt_iff_lt, List.count_pos_iff, ← Multiset.mem_coe, hextra] at htoken
      exact Option.isSome_iff_ne_none.2 (h token htoken)
  · obtain ⟨placed, hplaced, hmap⟩ := exists_placed config (tokens.length - 1) 0
      (countTokens (multisetDifference tokens other)) tokens
    refine ⟨placed.map Prod.fst, (hplaced.sorted.map Prod.fst fun _ _ => id).imp (fun h => h.ne), ?_,
      ?_⟩
    · rw [markersForSide, ← hmap, List.length_map, List.length_map]
    · intro p hp
      rw [markersForSide, ← hmap, ← List.unzip_fst, ← List.unzip_snd, List.zip_unzip] at hp
      exact ⟨(hplaced.token p hp).2, hplaced.kind p hp, hplaced.position p hp⟩

theorem extrasAreAllMarkers_iff {tokens other : List JsString} :
    extrasAreAllMarkers (multisetDifference tokens other) config = true ↔
      ∀ token ∈ (tokens : Multiset JsString) - other,
        ¬ classifySiblingMarker token config = none := by
  rw [extrasAreAllMarkers, List.all_eq_true, ← coe_multisetDifference]
  simp only [Option.isSome_iff_ne_none, Multiset.mem_coe, ne_eq]

theorem Attributed.length_eq {tokens : List JsString} {extra : Multiset JsString}
    {markers : List SiblingMarker} (h : Attributed config tokens extra markers) :
    markers.length = Multiset.card extra := by
  rw [← h.extra, Multiset.coe_card, List.length_map]

/-! ## Classified pairs -/

section
variable [CaseMapping]

/-- The tokens of a path that are no markers. -/
def plainTokens (config : SiblingNamingConfig) (path : JsString) : Multiset JsString :=
  (siblingTokens path : Multiset JsString).filter fun token =>
    classifySiblingMarker token config = none

def extraTokens (path other : JsString) : Multiset JsString :=
  (siblingTokens path : Multiset JsString) - siblingTokens other

/-- Paths whose tokens differ, but only in markers over a shared name. -/
def AreVariants (config : SiblingNamingConfig) (left right : JsString) : Prop :=
  (siblingTokens left : Multiset JsString) ≠ siblingTokens right ∧
    plainTokens config left = plainTokens config right ∧ plainTokens config left ≠ 0

theorem AreVariants.symm {left right : JsString} (h : AreVariants config left right) :
    AreVariants config right left := ⟨h.1.symm, h.2.1.symm, h.2.1 ▸ h.2.2⟩

/-- The markers of a path that another one lacks. -/
def variantMarkers (config : SiblingNamingConfig) (path other : JsString) : List SiblingMarker :=
  markersForSide (siblingTokens path) (multisetDifference (siblingTokens path) (siblingTokens other))
    config

/-- The result for paths in canonical order. -/
def variantPair (config : SiblingNamingConfig) (labeler : Option (JsString → List JsString))
    (left right : JsString) : SiblingNamingPair :=
  { leftPath := left
    rightPath := right
    sharedTokens := multisetIntersection (siblingTokens left) (siblingTokens right)
    leftMarkers := variantMarkers config left right
    rightMarkers := variantMarkers config right left
    relation := if (variantMarkers config left right).length > 0 ∧
      (variantMarkers config right left).length > 0 then .markedVsMarked else .plainVsMarked
    caveats := collectCaveats left right labeler }

variable [Locale] {rawLeft rawRight left right : JsString}
  {labeler : Option (JsString → List JsString)}

theorem classifyPair_eq_some (horder : canonicalOrder rawLeft rawRight = (left, right))
    (h : AreVariants config left right) :
    classifyPair rawLeft rawRight config labeler = some (variantPair config labeler left right) := by
  obtain ⟨hne, hplain, hname⟩ := h
  have hextra := filter_eq_iff_extra.1 hplain
  obtain ⟨token, htoken, hplainToken⟩ := (exists_mem_inter_iff hplain).2 hname
  rw [← coe_multisetIntersection, Multiset.mem_coe] at htoken
  have hshared : (multisetIntersection (siblingTokens left) (siblingTokens right)).any (fun token =>
      (classifySiblingMarker token config).isNone) = true :=
    List.any_eq_true.2 ⟨token, htoken, Option.isNone_iff_eq_none.2 hplainToken⟩
  have hmarkers : (variantMarkers config left right).length +
      (variantMarkers config right left).length ≠ 0 := by
    rw [variantMarkers, variantMarkers, (attributed_markersForSide hextra.1).length_eq,
      (attributed_markersForSide hextra.2).length_eq, Ne, Nat.add_eq_zero_iff, Multiset.card_eq_zero,
      Multiset.card_eq_zero, ← eq_iff_no_extra]
    exact hne
  rw [classifyPair, horder]
  dsimp only
  rw [hshared, extrasAreAllMarkers_iff.2 hextra.1, extrasAreAllMarkers_iff.2 hextra.2]
  simp only [Bool.not_true, Bool.or_self, Bool.false_eq_true, if_false]
  exact if_neg hmarkers

theorem classifyPair_eq_none (horder : canonicalOrder rawLeft rawRight = (left, right))
    (h : ¬ AreVariants config left right) :
    classifyPair rawLeft rawRight config labeler = none := by
  rw [classifyPair, horder]
  dsimp only
  split
  · rfl
  · next hshared =>
    split
    · rfl
    · next hextras =>
      simp only [Bool.or_eq_true, Bool.not_eq_true', not_or, Bool.not_eq_false] at hextras
      have hextra := And.intro (extrasAreAllMarkers_iff.1 hextras.1)
        (extrasAreAllMarkers_iff.1 hextras.2)
      have hplain : plainTokens config left = plainTokens config right := filter_eq_iff_extra.2 hextra
      have hname : plainTokens config left ≠ 0 := by
        simp only [Bool.not_eq_true', Bool.not_eq_false] at hshared
        obtain ⟨token, htoken, hplainToken⟩ := List.any_eq_true.1 hshared
        rw [← Multiset.mem_coe, coe_multisetIntersection] at htoken
        exact (exists_mem_inter_iff hplain).1
          ⟨token, htoken, Option.isNone_iff_eq_none.1 hplainToken⟩
      have hsame : (siblingTokens left : Multiset JsString) = siblingTokens right :=
        by_contra fun hne => h ⟨hne, hplain, hname⟩
      obtain ⟨hleft, hright⟩ := eq_iff_no_extra.1 hsame
      have hzeroLeft := (attributed_markersForSide hextra.1).length_eq
      have hzeroRight := (attributed_markersForSide hextra.2).length_eq
      rw [hleft, Multiset.card_zero] at hzeroLeft
      rw [hright, Multiset.card_zero] at hzeroRight
      exact if_pos (by rw [hzeroLeft, hzeroRight])

/-! ## What a classification says -/

/-- A result without its order of sides: what another result says of the same pair. -/
structure SidesSwapped (pair other : SiblingNamingPair) : Prop where
  leftPath : other.leftPath = pair.rightPath
  rightPath : other.rightPath = pair.leftPath
  leftMarkers : other.leftMarkers = pair.rightMarkers
  rightMarkers : other.rightMarkers = pair.leftMarkers
  sharedTokens : other.sharedTokens.Perm pair.sharedTokens
  relation : other.relation = pair.relation
  caveats : ∀ caveat, caveat ∈ other.caveats ↔ caveat ∈ pair.caveats

omit [Locale] in
theorem mem_collectCaveats_comm (left right : JsString) (labeler : Option (JsString → List JsString))
    (caveat : JsString) :
    caveat ∈ collectCaveats right left labeler ↔ caveat ∈ collectCaveats left right labeler := by
  have hor (s a b c d : Prop) : s ∨ ((a ∨ b) ∨ c) ∨ d ↔ s ∨ ((b ∨ a) ∨ d) ∨ c := by tauto
  simp only [collectCaveats, List.mem_eraseDups, List.mem_cons, List.mem_append, List.cons_append]
  exact hor _ _ _ _ _

omit [Locale] in
theorem sidesSwapped_variantPair (config : SiblingNamingConfig)
    (labeler : Option (JsString → List JsString)) (left right : JsString) :
    SidesSwapped (variantPair config labeler left right) (variantPair config labeler right left) where
  leftPath := rfl
  rightPath := rfl
  leftMarkers := rfl
  rightMarkers := rfl
  sharedTokens := by
    simp only [variantPair]
    exact multisetIntersection_comm _ _
  relation := by
    simp only [variantPair]
    exact if_congr and_comm rfl rfl
  caveats := by
    simp only [variantPair]
    exact mem_collectCaveats_comm left right labeler

/-- Swapped arguments give the same result, in which the sides are only swapped for paths that tie
in the locale. -/
def SwapInvariant (config : SiblingNamingConfig) (labeler : Option (JsString → List JsString))
    (left right : JsString) : Prop :=
  if Locale.localeCompare left right = 0 then
    Option.Rel SidesSwapped (classifyPair left right config labeler)
      (classifyPair right left config labeler)
  else classifyPair right left config labeler = classifyPair left right config labeler

theorem swapInvariant (config : SiblingNamingConfig) (labeler : Option (JsString → List JsString))
    (left right : JsString) : SwapInvariant config labeler left right := by
  have hswap := Locale.localeCompare_consistent.swap left right
  have hswap' := Locale.localeCompare_consistent.swap right left
  rw [SwapInvariant]
  split
  · next htie =>
    have horder : canonicalOrder left right = (left, right) := if_pos (by omega)
    have horder' : canonicalOrder right left = (right, left) := if_pos (by omega)
    by_cases hvariants : AreVariants config left right
    · rw [classifyPair_eq_some horder hvariants, classifyPair_eq_some horder' hvariants.symm]
      exact .some (sidesSwapped_variantPair config labeler left right)
    · rw [classifyPair_eq_none horder hvariants,
        classifyPair_eq_none horder' fun h => hvariants h.symm]
      exact .none
  · next hne =>
    have hsame : canonicalOrder right left = canonicalOrder left right := by
      rw [canonicalOrder, canonicalOrder]
      split
      · next hle => rw [if_neg (by omega)]
      · next hle => rw [if_pos (by omega)]
    rw [classifyPair, classifyPair, hsame]

/-- The markers of a result are the extra tokens of its sides. -/
structure Classified (config : SiblingNamingConfig) (left right : JsString)
    (pair : SiblingNamingPair) : Prop where
  paths : (pair.leftPath, pair.rightPath) = canonicalOrder left right
  leftMarkers : Attributed config (siblingTokens pair.leftPath)
    (extraTokens pair.leftPath pair.rightPath) pair.leftMarkers
  rightMarkers : Attributed config (siblingTokens pair.rightPath)
    (extraTokens pair.rightPath pair.leftPath) pair.rightMarkers

theorem classified_variantPair (labeler : Option (JsString → List JsString))
    (h : AreVariants config (canonicalOrder left right).1 (canonicalOrder left right).2) :
    Classified config left right
      (variantPair config labeler (canonicalOrder left right).1 (canonicalOrder left right).2) := by
  have hextra := filter_eq_iff_extra.1 h.2.1
  constructor
  · rfl
  · simp only [variantPair, variantMarkers, extraTokens]
    exact attributed_markersForSide hextra.1
  · simp only [variantPair, variantMarkers, extraTokens]
    exact attributed_markersForSide hextra.2

omit [CaseMapping] in
theorem canonicalOrder_cases (left right : JsString) :
    canonicalOrder left right = (left, right) ∨ canonicalOrder left right = (right, left) := by
  rw [canonicalOrder]
  split
  · exact .inl rfl
  · exact .inr rfl

theorem areVariants_canonicalOrder (config : SiblingNamingConfig) (left right : JsString) :
    AreVariants config (canonicalOrder left right).1 (canonicalOrder left right).2 ↔
      AreVariants config left right := by
  rcases canonicalOrder_cases left right with h | h <;> rw [h]
  exact ⟨AreVariants.symm, AreVariants.symm⟩

/-- A pair is classified when its names differ in markers only, its markers are the extra tokens of
each side, and the order of the arguments does not matter. -/
theorem classifySiblingPair_exact (left right : JsString) (options : SiblingNamingOptions) :
    ((classifySiblingPair left right options).isSome ↔
      AreVariants (resolveSiblingNamingConfig options) left right) ∧
    (∀ pair ∈ classifySiblingPair left right options,
      Classified (resolveSiblingNamingConfig options) left right pair) ∧
    SwapInvariant (resolveSiblingNamingConfig options) options.caveatLabeler left right := by
  refine ⟨?_, fun pair hpair => ?_, swapInvariant _ _ left right⟩
  · rw [← areVariants_canonicalOrder, classifySiblingPair]
    by_cases h : AreVariants (resolveSiblingNamingConfig options) (canonicalOrder left right).1
        (canonicalOrder left right).2
    · rw [classifyPair_eq_some rfl h]
      exact iff_of_true rfl h
    · rw [classifyPair_eq_none rfl h]
      exact iff_of_false Bool.false_ne_true h
  · rw [classifySiblingPair] at hpair
    by_cases h : AreVariants (resolveSiblingNamingConfig options) (canonicalOrder left right).1
        (canonicalOrder left right).2
    · rw [classifyPair_eq_some rfl h] at hpair
      rw [Option.mem_some_iff] at hpair
      subst hpair
      exact classified_variantPair options.caveatLabeler h
    · rw [classifyPair_eq_none rfl h] at hpair
      cases hpair

end

/-! ## The order of the sides -/

/-- A result with its sides swapped. -/
def swapSides (pair : SiblingNamingPair) : SiblingNamingPair :=
  { pair with
    leftPath := pair.rightPath
    rightPath := pair.leftPath
    leftMarkers := pair.rightMarkers
    rightMarkers := pair.leftMarkers }

theorem classifySiblingPair_exact_fails : ¬ ∀ (left right : JsString) (options : SiblingNamingOptions),
    classifySiblingPair right left options = (classifySiblingPair left right options).map swapSides := by
  intro h
  have hpaths := congrArg (Option.map SiblingNamingPair.leftPath)
    (h (js "user.ts") (js "user-v2.ts") ⟨none, none, none, none⟩)
  revert hpaths
  decide +kernel

end Musi.DriftAi
