import Mathlib.Data.List.Induction

namespace Musi.System
set_option autoImplicit true

/-! ## Marks that open and close -/

section Brackets
variable {α : Type} (opens closes : α → Bool)

/-- Whether the last mark of a list opens; the given answer where it has no mark. -/
def openFrom : Bool → List α → Bool
  | isOpen, [] => isOpen
  | isOpen, a :: rest =>
    openFrom (if opens a then true else if closes a then false else isOpen) rest

variable {opens closes}

theorem openFrom_append (isOpen : Bool) (before after : List α) :
    openFrom opens closes isOpen (before ++ after) =
      openFrom opens closes (openFrom opens closes isOpen before) after := by
  induction before generalizing isOpen with
  | nil => rfl
  | cons a before ih => rw [List.cons_append, openFrom, openFrom, ih]

theorem openFrom_unmarked {isOpen : Bool} {list : List α}
    (h : ∀ a ∈ list, opens a = false ∧ closes a = false) :
    openFrom opens closes isOpen list = isOpen := by
  induction list generalizing isOpen with
  | nil => rfl
  | cons a list ih =>
    obtain ⟨ha, hlist⟩ := List.forall_mem_cons.1 h
    rw [openFrom, ha.1, ha.2]
    exact ih hlist

/-- A list is open exactly where some opening mark is followed by no closing one. -/
theorem openFrom_iff {list : List α} :
    openFrom opens closes false list = true ↔
      ∃ before a after, list = before ++ a :: after ∧ opens a = true ∧
        ∀ b ∈ after, closes b = false := by
  induction list using List.reverseRecOn with
  | nil =>
    refine iff_of_false (fun h => by cases h) ?_
    rintro ⟨before, a, after, h, -⟩
    exact absurd h.symm (List.append_ne_nil_of_right_ne_nil _ (List.cons_ne_nil _ _))
  | append_singleton list last ih =>
    rw [openFrom_append, openFrom, openFrom]
    by_cases hopens : opens last = true
    · rw [if_pos hopens]
      exact iff_of_true rfl ⟨list, last, [], rfl, hopens, fun b hb => absurd hb List.not_mem_nil⟩
    · rw [if_neg hopens]
      -- The opening mark of a split stands before the last element.
      have hsplit : (∃ before a after, list ++ [last] = before ++ a :: after ∧ opens a = true ∧
          ∀ b ∈ after, closes b = false) ↔ closes last = false ∧
          ∃ before a after, list = before ++ a :: after ∧ opens a = true ∧
            ∀ b ∈ after, closes b = false := by
        constructor
        · rintro ⟨before, a, after, h, ha, hafter⟩
          rcases List.eq_nil_or_concat after with rfl | ⟨after, b, rfl⟩
          · rw [List.append_singleton_inj] at h
            exact absurd (h.2 ▸ ha) hopens
          · rw [List.concat_eq_append, ← List.cons_append, ← List.append_assoc,
              List.append_singleton_inj] at h
            obtain ⟨rfl, rfl⟩ := h
            rw [List.concat_eq_append] at hafter
            exact ⟨hafter last (List.mem_append_right _ (List.mem_singleton_self last)),
              before, a, after, rfl, ha, fun c hc => hafter c (List.mem_append_left _ hc)⟩
        · rintro ⟨hlast, before, a, after, rfl, ha, hafter⟩
          refine ⟨before, a, after ++ [last], by simp, ha, fun b hb => ?_⟩
          rcases List.mem_append.1 hb with hb | hb
          · exact hafter b hb
          · rw [List.mem_singleton.1 hb, hlast]
      rw [hsplit]
      cases hcloses : closes last with
      | true => exact iff_of_false (by simp) fun h => absurd h.1 (by simp)
      | false =>
        rw [if_neg Bool.false_ne_true, ih]
        exact ⟨fun h => ⟨rfl, h⟩, fun h => h.2⟩

end Brackets

end Musi.System
