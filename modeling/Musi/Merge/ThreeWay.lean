import Mathlib.Logic.Function.Basic

namespace Musi.Merge
set_option autoImplicit true

/-- What a three-way merge does with one value: take a side, or merge the two. -/
inductive Choice where
  | current
  | other
  | both
  deriving DecidableEq

def Choice.swap : Choice → Choice
  | .current => .other
  | .other => .current
  | .both => .both

variable [DecidableEq α]

/-- The side that changed its base, if the two do not differ from it and from each other. -/
def choose (base current other : α) : Choice :=
  if current = other then .current
  else if current = base then .other
  else if other = base then .current
  else .both

@[simp] theorem choose_same (base side : α) : choose base side side = .current := if_pos rfl

theorem choose_base_other (base side : α) : choose base side base = .current := by
  unfold choose
  split
  · rfl
  · exact if_pos rfl

theorem choose_base_current (base side : α) :
    choose base base side = if base = side then .current else .other := by
  unfold choose
  split
  · rfl
  · exact if_pos rfl

theorem choose_both {base current other : α} : choose base current other = .both ↔
    current ≠ other ∧ current ≠ base ∧ other ≠ base := by
  unfold choose
  split
  · next h => exact iff_of_false nofun fun hne => hne.1 h
  · next hco =>
    split
    · next h => exact iff_of_false nofun fun hne => hne.2.1 h
    · next hcb =>
      split
      · next h => exact iff_of_false nofun fun hne => hne.2.2 h
      · next hob => exact iff_of_true rfl ⟨hco, hcb, hob⟩

/-- A merge that takes the current side loses nothing of the other: it is as the current side, or
as the base. -/
theorem choose_current {base current other : α} (h : choose base current other = .current) :
    current = other ∨ other = base := by
  unfold choose at h
  split at h
  · next heq => exact .inl heq
  · split at h
    · cases h
    · split at h
      · next heq => exact .inr heq
      · cases h

theorem choose_other {base current other : α} (h : choose base current other = .other) :
    current = base ∧ current ≠ other := by
  unfold choose at h
  split at h
  · cases h
  · next hne =>
    split at h
    · next heq => exact ⟨heq, hne⟩
    · split at h <;> cases h

/-- Sides that differ are chosen alike from either side. -/
theorem choose_swap (base : α) {current other : α} (h : current ≠ other) :
    choose base other current = (choose base current other).swap := by
  unfold choose
  rw [if_neg h, if_neg h.symm]
  by_cases hcb : current = base
  · have hob : other ≠ base := fun hob => h (hcb.trans hob.symm)
    rw [if_pos hcb, if_neg hob, if_pos hcb]
    rfl
  · by_cases hob : other = base
    · rw [if_pos hob, if_neg hcb, if_pos hob]
      rfl
    · rw [if_neg hob, if_neg hcb, if_neg hcb, if_neg hob]
      rfl

end Musi.Merge
