import Musi.MigrationSafety.SqlLexer

namespace Musi.MigrationSafety
open Musi.Js
set_option autoImplicit true

/-! ## Patterns do not see the spaces at the end of a text -/

def Spaces (text : JsString) : Prop := ∀ c ∈ text, isSqlSpace c = true

/-- What a text yields at its start does not depend on spaces at its end. -/
def SpaceBlind (p : JsString → Bool) : Prop := ∀ text spaces, Spaces spaces → p (text ++ spaces) = p text

variable {text spaces word : JsString} {p : UInt16 → Bool}

theorem endsAt_append (hp : ∀ c, isSqlSpace c = true → p c = true) : SpaceBlind (endsAt p) := by
  intro text spaces hspaces
  cases text with
  | cons c text => rfl
  | nil =>
    cases spaces with
    | nil => rfl
    | cons c spaces => exact hp c (hspaces c List.mem_cons_self)

/-- A word, which holds no space. -/
def IsWord (word : JsString) : Prop := word ≠ [] ∧ ∀ c ∈ word, isSqlSpace c = false

theorem isWord_of_all (h : (word ≠ [] && word.all fun c => !isSqlSpace c) = true) : IsWord word := by
  rw [Bool.and_eq_true, decide_eq_true_eq, List.all_eq_true] at h
  exact ⟨h.1, fun c hc => by simpa using h.2 c hc⟩

theorem afterWord_nil (hword : IsWord word) : afterWord word [] = none := by
  rw [afterWord, if_neg]
  rw [startsWith_iff, List.prefix_nil]
  exact hword.1

theorem afterWord_append (hword : IsWord word) (hspaces : Spaces spaces) :
    afterWord word (text ++ spaces) = (afterWord word text).map (· ++ spaces) := by
  rw [afterWord, afterWord]
  by_cases hstart : word <+: text
  · have hstart' : word <+: text ++ spaces := hstart.trans (List.prefix_append _ _)
    rw [if_pos (startsWith_iff.2 hstart), if_pos (startsWith_iff.2 hstart'),
      List.drop_append_of_le_length hstart.length_le]
    rfl
  · have hnot : ¬ word <+: text ++ spaces := by
      intro hstart'
      have hshort : text.length < word.length := by
        by_contra hlong
        exact hstart (List.prefix_of_prefix_length_le hstart' (List.prefix_append _ _) (by omega))
      obtain ⟨rest, rfl⟩ := List.prefix_of_prefix_length_le (List.prefix_append text spaces) hstart'
        hshort.le
      have hrest := (List.prefix_append_right_inj text).1 hstart'
      cases rest with
      | nil => simp at hshort
      | cons c rest =>
        have hspace := hspaces c (hrest.subset List.mem_cons_self)
        have hletter := hword.2 c (List.mem_append_right _ List.mem_cons_self)
        rw [hspace] at hletter
        cases hletter
    rw [if_neg fun h => hstart (startsWith_iff.1 h), if_neg fun h => hnot (startsWith_iff.1 h)]
    rfl

theorem dropWhile_spaces (hspaces : Spaces spaces) : spaces.dropWhile isSqlSpace = [] :=
  List.dropWhile_eq_nil_iff.2 hspaces

theorem Spaces.tail {c : UInt16} (h : Spaces (c :: spaces)) : Spaces spaces :=
  fun d hd => h d (List.mem_cons_of_mem _ hd)

theorem afterSpacedWord_spaces (hword : IsWord word) (hspaces : Spaces spaces) :
    afterSpacedWord word spaces = none := by
  cases spaces with
  | nil => rfl
  | cons c spaces =>
    rw [afterSpacedWord, dropWhile_spaces hspaces.tail, afterWord_nil hword]
    split
    · rfl
    · rfl

theorem afterSpacedWord_append (hword : IsWord word) (hspaces : Spaces spaces) :
    afterSpacedWord word (text ++ spaces) = (afterSpacedWord word text).map (· ++ spaces) := by
  cases text with
  | nil =>
    rw [List.nil_append, afterSpacedWord_spaces hword hspaces]
    rfl
  | cons c text =>
    rw [List.cons_append, afterSpacedWord, afterSpacedWord]
    split
    · rw [List.dropWhile_append, dropWhile_spaces hspaces]
      split
      · next hempty =>
        rw [List.isEmpty_iff.1 hempty, afterWord_nil hword]
        rfl
      · exact afterWord_append hword hspaces
    · rfl

theorem words_append {first second : JsString} (hfirst : IsWord first) (hsecond : IsWord second)
    (hspaces : Spaces spaces) :
    (afterWord first (text ++ spaces)).bind (afterSpacedWord second) =
      ((afterWord first text).bind (afterSpacedWord second)).map (· ++ spaces) := by
  rw [afterWord_append hfirst hspaces]
  cases afterWord first text with
  | none => rfl
  | some rest => exact afterSpacedWord_append hsecond hspaces

theorem endsAt_map_append (hp : ∀ c, isSqlSpace c = true → p c = true) (hspaces : Spaces spaces)
    (rest : Option JsString) : ((rest.map (· ++ spaces)).map (endsAt p)).getD false =
      (rest.map (endsAt p)).getD false := by
  cases rest with
  | none => rfl
  | some rest => exact endsAt_append hp rest spaces hspaces

theorem wordsAt_append {first second : JsString} (hp : ∀ c, isSqlSpace c = true → p c = true)
    (hfirst : IsWord first) (hsecond : IsWord second) : SpaceBlind (wordsAt p first second) := by
  intro text spaces hspaces
  rw [wordsAt, words_append hfirst hsecond hspaces, endsAt_map_append hp hspaces, wordsAt]

theorem searchFrom_spaces {q : Option UInt16 → JsString → Bool}
    (hq : ∀ before, SpaceBlind (q before)) (hnil : ∀ before, q before [] = false)
    (hspaces : Spaces spaces) (before : Option UInt16) : searchFrom q before spaces = false := by
  induction spaces generalizing before with
  | nil => exact hnil before
  | cons c spaces ih =>
    rw [searchFrom, ih hspaces.tail, Bool.or_false]
    exact (hq before [] _ hspaces).trans (hnil before)

theorem searchFrom_append {q : Option UInt16 → JsString → Bool} (hq : ∀ before, SpaceBlind (q before))
    (hnil : ∀ before, q before [] = false) (before : Option UInt16) :
    SpaceBlind (searchFrom q before) := by
  intro text spaces hspaces
  induction text generalizing before with
  | nil => exact (searchFrom_spaces hq hnil hspaces before).trans (hnil before).symm
  | cons c text ih =>
    rw [List.cons_append, searchFrom, searchFrom, ih, ← List.cons_append, hq before _ _ hspaces]

theorem isWord_type : IsWord (js "TYPE") := isWord_of_all (by decide)

theorem typeFollows_spaces (hspaces : Spaces spaces) : typeFollows spaces = false := by
  induction spaces with
  | nil => rfl
  | cons c spaces ih =>
    have hnone : afterWord (js "TYPE") spaces = none := by
      rw [← List.nil_append spaces, afterWord_append isWord_type hspaces.tail,
        afterWord_nil isWord_type]
      rfl
    rw [typeFollows, ih hspaces.tail, hnone]
    simp

theorem typeFollows_append : SpaceBlind typeFollows := by
  intro text spaces hspaces
  induction text with
  | nil => exact typeFollows_spaces hspaces
  | cons c text ih =>
    rw [List.cons_append, typeFollows, typeFollows, ih, afterWord_append isWord_type hspaces,
      endsAt_map_append (fun _ h => h) hspaces]

theorem alterColumnTypePattern_append : SpaceBlind alterColumnTypePattern := by
  have halter : IsWord (js "ALTER") := isWord_of_all (by decide)
  have hcolumn : IsWord (js "COLUMN") := isWord_of_all (by decide)
  refine searchFrom_append (fun before text spaces hspaces => ?_) (fun _ => rfl) none
  rw [words_append halter hcolumn hspaces]
  cases (afterWord (js "ALTER") text).bind (afterSpacedWord (js "COLUMN")) with
  | none => rfl
  | some rest =>
    cases rest with
    | cons c rest => exact congrArg (isSqlSpace c && ·) (typeFollows_append rest spaces hspaces)
    | nil =>
      cases spaces with
      | nil => rfl
      | cons c spaces =>
        have hfalse := typeFollows_spaces hspaces.tail
        simp [hfalse]

theorem wordsPattern_append {first second : JsString} (hp : ∀ c, isSqlSpace c = true → p c = true)
    (hfirst : IsWord first) (hsecond : IsWord second) :
    SpaceBlind (searchFrom (fun _ text => wordsAt p first second text) none) :=
  searchFrom_append (fun _ => wordsAt_append hp hfirst hsecond)
    (fun _ => by rw [wordsAt, afterWord_nil hfirst]; rfl) none

theorem dropTablePattern_append : SpaceBlind dropTablePattern := by
  have hdrop : IsWord (js "DROP") := isWord_of_all (by decide)
  have htable : IsWord (js "TABLE") := isWord_of_all (by decide)
  refine searchFrom_append (fun before text spaces hspaces => ?_) (fun before => ?_) none
  · exact congrArg _ (wordsAt_append (fun _ h => h) hdrop htable text spaces hspaces)
  · rw [wordsAt, afterWord_nil hdrop]
    exact Bool.and_false _

theorem defaultClausePattern_append : SpaceBlind defaultClausePattern := by
  have hdefault : IsWord (js "DEFAULT") := isWord_of_all (by decide)
  refine searchFrom_append (fun _ text spaces hspaces => ?_)
    (fun _ => by rw [afterWord_nil hdefault]; rfl) none
  rw [afterWord_append hdefault hspaces, endsAt_map_append (fun _ h => h) hspaces]

theorem matchedRules_append (hspaces : Spaces spaces) :
    matchedRules (text ++ spaces) = matchedRules text := by
  have hdropColumn : SpaceBlind dropColumnPattern := wordsPattern_append (fun _ h => h)
    (isWord_of_all (by decide)) (isWord_of_all (by decide))
  have haddColumn : SpaceBlind addColumnPattern := wordsPattern_append (fun _ h => h)
    (isWord_of_all (by decide)) (isWord_of_all (by decide))
  have hnotNull : SpaceBlind notNullPattern := wordsPattern_append (fun c h => by simp [h])
    (isWord_of_all (by decide)) (isWord_of_all (by decide))
  rw [matchedRules, matchedRules, dropTablePattern_append text spaces hspaces,
    hdropColumn text spaces hspaces, alterColumnTypePattern_append text spaces hspaces,
    haddColumn text spaces hspaces, hnotNull text spaces hspaces,
    defaultClausePattern_append text spaces hspaces]

theorem asciiUpper_space {c : UInt16} (h : isSqlSpace c = true) : asciiUpper c = c := by
  rw [asciiUpper, if_neg]
  intro hletter
  simp only [isSqlSpace, Bool.or_eq_true, Bool.and_eq_true, decide_eq_true_eq,
    UInt16.le_iff_toNat_le, ← UInt16.toNat_inj] at h hletter
  simp at h hletter
  omega

/-- A rule sees a line in upper case, and no spaces at its end. -/
theorem matchedRules_upper_append (hspaces : Spaces spaces) :
    matchedRules (asciiUpperCase (text ++ spaces)) = matchedRules (asciiUpperCase text) := by
  have hupper : Spaces (asciiUpperCase spaces) := by
    intro c hc
    obtain ⟨d, hd, rfl⟩ := List.mem_map.1 hc
    rw [asciiUpper_space (hspaces d hd)]
    exact hspaces d hd
  rw [asciiUpperCase, List.map_append]
  exact matchedRules_append hupper

end Musi.MigrationSafety
