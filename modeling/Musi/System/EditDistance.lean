import Mathlib.Data.List.Basic
import Mathlib.Data.Nat.Basic
import Mathlib.Order.MinMax

namespace Musi.System
set_option autoImplicit true

variable {α : Type}

/-! ## Edits -/

/-- An entry is inserted, deleted or replaced. -/
inductive Edit : List α → List α → Prop where
  | insert (before after : List α) (x : α) : Edit (before ++ after) (before ++ x :: after)
  | delete (before after : List α) (x : α) : Edit (before ++ x :: after) (before ++ after)
  | substitute (before after : List α) (x y : α) : Edit (before ++ x :: after) (before ++ y :: after)

/-- A number of edits in turn. -/
inductive Edits : Nat → List α → List α → Prop where
  | refl (a : List α) : Edits 0 a a
  | step : Edits n a b → Edit b c → Edits (n + 1) a c

/-- Two lists written side by side, with the number of places where they differ. -/
inductive Aligned : Nat → List α → List α → Prop where
  | nil : Aligned 0 [] []
  | keep (x : α) : Aligned n a b → Aligned n (x :: a) (x :: b)
  | substitute (x y : α) : Aligned n a b → Aligned (n + 1) (x :: a) (y :: b)
  | delete (x : α) : Aligned n a b → Aligned (n + 1) (x :: a) b
  | insert (y : α) : Aligned n a b → Aligned (n + 1) a (y :: b)

variable {n m : Nat} {a b c : List α} {x y : α}

theorem Aligned.refl (a : List α) : Aligned 0 a a := by
  induction a with
  | nil => exact .nil
  | cons x a ih => exact ih.keep x

theorem Aligned.symm (h : Aligned n a b) : Aligned n b a := by
  induction h with
  | nil => exact .nil
  | keep x _ ih => exact ih.keep x
  | substitute x y _ ih => exact ih.substitute y x
  | delete x _ ih => exact ih.insert x
  | insert y _ ih => exact ih.delete y

theorem Aligned.deleteAll (a : List α) : Aligned a.length a [] := by
  induction a with
  | nil => exact .nil
  | cons x a ih => exact ih.delete x

theorem Aligned.insertAll (b : List α) : Aligned b.length [] b := (Aligned.deleteAll b).symm

theorem Aligned.append {a' b' : List α} (h : Aligned n a b) (h' : Aligned m a' b') :
    Aligned (n + m) (a ++ a') (b ++ b') := by
  induction h with
  | nil => rwa [Nat.zero_add]
  | keep x _ ih => exact ih.keep x
  | substitute x y _ ih =>
    rw [Nat.add_right_comm]
    exact ih.substitute x y
  | delete x _ ih =>
    rw [Nat.add_right_comm]
    exact ih.delete x
  | insert y _ ih =>
    rw [Nat.add_right_comm]
    exact ih.insert y

theorem Aligned.reverse (h : Aligned n a b) : Aligned n a.reverse b.reverse := by
  induction h with
  | nil => exact .nil
  | keep x _ ih =>
    rw [List.reverse_cons, List.reverse_cons]
    exact ih.append (Aligned.nil.keep x)
  | substitute x y _ ih =>
    rw [List.reverse_cons, List.reverse_cons]
    exact ih.append (Aligned.nil.substitute x y)
  | @delete _ _ b x _ ih =>
    rw [List.reverse_cons, ← List.append_nil b.reverse]
    exact ih.append (Aligned.nil.delete x)
  | @insert _ a _ y _ ih =>
    rw [List.reverse_cons, ← List.append_nil a.reverse]
    exact ih.append (Aligned.nil.insert y)

theorem Aligned.length_le (h : Aligned n a b) : a.length ≤ b.length + n := by
  induction h with
  | nil => exact Nat.le_refl _
  | keep x _ ih =>
    simp only [List.length_cons]
    omega
  | substitute x y _ ih =>
    simp only [List.length_cons]
    omega
  | delete x _ ih =>
    simp only [List.length_cons]
    omega
  | insert y _ ih =>
    simp only [List.length_cons]
    omega

/-- What a list is aligned with divides where the list does. -/
theorem Aligned.split (h : Aligned n a (b ++ c)) :
    ∃ a' a'' m k, a = a' ++ a'' ∧ m + k = n ∧ Aligned m a' b ∧ Aligned k a'' c := by
  generalize hbc : b ++ c = t at h
  induction h generalizing b with
  | nil =>
    obtain ⟨rfl, rfl⟩ := List.append_eq_nil_iff.1 hbc
    exact ⟨[], [], 0, 0, rfl, rfl, .nil, .nil⟩
  | @keep n a t x h ih =>
    cases b with
    | nil =>
      obtain rfl : c = x :: t := hbc
      exact ⟨[], x :: a, 0, n, rfl, Nat.zero_add n, .nil, h.keep x⟩
    | cons y b =>
      obtain ⟨rfl, htail⟩ := List.cons.inj hbc
      obtain ⟨a', a'', m, k, rfl, hsum, hleft, hright⟩ := ih htail
      exact ⟨y :: a', a'', m, k, rfl, hsum, hleft.keep y, hright⟩
  | @substitute n a t x y h ih =>
    cases b with
    | nil =>
      obtain rfl : c = y :: t := hbc
      exact ⟨[], x :: a, 0, n + 1, rfl, Nat.zero_add _, .nil, h.substitute x y⟩
    | cons z b =>
      obtain ⟨rfl, htail⟩ := List.cons.inj hbc
      obtain ⟨a', a'', m, k, rfl, hsum, hleft, hright⟩ := ih htail
      exact ⟨x :: a', a'', m + 1, k, rfl, by omega, hleft.substitute x z, hright⟩
  | @delete n a t x h ih =>
    obtain ⟨a', a'', m, k, rfl, hsum, hleft, hright⟩ := ih hbc
    exact ⟨x :: a', a'', m + 1, k, rfl, by omega, hleft.delete x, hright⟩
  | @insert n a t y h ih =>
    cases b with
    | nil =>
      obtain rfl : c = y :: t := hbc
      exact ⟨[], a, 0, n + 1, rfl, Nat.zero_add _, .nil, h.insert y⟩
    | cons z b =>
      obtain ⟨rfl, htail⟩ := List.cons.inj hbc
      obtain ⟨a', a'', m, k, rfl, hsum, hleft, hright⟩ := ih htail
      exact ⟨a', a'', m + 1, k, rfl, by omega, hleft.insert z, hright⟩

/-- What was aligned with one entry is aligned with any other at one place more. -/
theorem Aligned.replace (h : Aligned n a [x]) (y : α) : ∃ m, m ≤ n + 1 ∧ Aligned m a [y] := by
  have hle : a.length ≤ 1 + n := h.length_le
  cases a with
  | nil => exact ⟨1, Nat.le_add_left 1 n, Aligned.insertAll [y]⟩
  | cons z a =>
    refine ⟨a.length + 1, ?_, (Aligned.deleteAll a).substitute z y⟩
    rw [List.length_cons] at hle
    omega

/-- An edit adds at most one place. -/
theorem Aligned.edit (h : Aligned n a b) (hedit : Edit b c) : ∃ m, m ≤ n + 1 ∧ Aligned m a c := by
  cases hedit with
  | insert before after x =>
    obtain ⟨a', a'', m, k, rfl, hsum, hleft, hright⟩ := h.split
    exact ⟨m + (k + 1), by omega, hleft.append (hright.insert x)⟩
  | delete before after x =>
    obtain ⟨a', a'', m, k, rfl, hsum, hleft, hright⟩ := h.split
    obtain ⟨one, rest, i, j, rfl, hsum', hone, hrest⟩ := Aligned.split (b := [x]) hright
    have hle : one.length ≤ 1 + i := hone.length_le
    exact ⟨m + (one.length + j), by omega, hleft.append ((Aligned.deleteAll one).append hrest)⟩
  | substitute before after x y =>
    obtain ⟨a', a'', m, k, rfl, hsum, hleft, hright⟩ := h.split
    obtain ⟨one, rest, i, j, rfl, hsum', hone, hrest⟩ := Aligned.split (b := [x]) hright
    obtain ⟨l, hl, hreplaced⟩ := hone.replace y
    exact ⟨m + (l + j), by omega, hleft.append (hreplaced.append hrest)⟩

theorem Edit.cons (h : Edit a b) (x : α) : Edit (x :: a) (x :: b) := by
  cases h with
  | insert before after y => exact .insert (x :: before) after y
  | delete before after y => exact .delete (x :: before) after y
  | substitute before after y z => exact .substitute (x :: before) after y z

theorem Edits.cons (h : Edits n a b) (x : α) : Edits n (x :: a) (x :: b) := by
  induction h with
  | refl a => exact .refl (x :: a)
  | step _ hedit ih => exact ih.step (hedit.cons x)

theorem Edits.aligned (h : Edits n a b) : ∃ m, m ≤ n ∧ Aligned m a b := by
  induction h with
  | refl a => exact ⟨0, Nat.le_refl 0, .refl a⟩
  | step _ hedit ih =>
    obtain ⟨m, hm, haligned⟩ := ih
    obtain ⟨k, hk, haligned'⟩ := haligned.edit hedit
    exact ⟨k, by omega, haligned'⟩

theorem Aligned.edits (h : Aligned n a b) : Edits n a b := by
  induction h with
  | nil => exact .refl []
  | keep x _ ih => exact ih.cons x
  | @substitute n a b x y _ ih => exact (ih.cons x).step (.substitute [] b x y)
  | @delete n a b x _ ih => exact (ih.cons x).step (.delete [] b x)
  | @insert n a b y _ ih => exact ih.step (.insert [] b y)

/-! ## The edit distance -/

variable [DecidableEq α]

def editDistance : List α → List α → Nat
  | [], b => b.length
  | x :: a, [] => (x :: a).length
  | x :: a, y :: b =>
    min (min (editDistance (x :: a) b + 1) (editDistance a (y :: b) + 1))
      (editDistance a b + if x = y then 0 else 1)
termination_by a b => a.length + b.length

theorem editDistance_nil_right (a : List α) : editDistance a [] = a.length := by
  cases a with
  | nil => rw [editDistance]
  | cons x a => rw [editDistance]

theorem aligned_editDistance (a b : List α) : Aligned (editDistance a b) a b := by
  induction a, b using editDistance.induct with
  | case1 b =>
    rw [editDistance]
    exact .insertAll b
  | case2 x a =>
    rw [editDistance]
    exact .deleteAll (x :: a)
  | case3 x a y b ih1 ih2 ih3 =>
    rw [editDistance]
    rcases min_choice (min (editDistance (x :: a) b + 1) (editDistance a (y :: b) + 1))
      (editDistance a b + if x = y then 0 else 1) with h | h
    · rw [h]
      rcases min_choice (editDistance (x :: a) b + 1) (editDistance a (y :: b) + 1) with h | h
      · rw [h]
        exact ih1.insert y
      · rw [h]
        exact ih2.delete x
    · rw [h]
      by_cases hxy : x = y
      · subst hxy
        rw [if_pos rfl]
        exact ih3.keep x
      · rw [if_neg hxy]
        exact ih3.substitute x y

theorem Aligned.editDistance_le (h : Aligned n a b) : editDistance a b ≤ n := by
  induction h with
  | nil =>
    rw [editDistance]
    exact Nat.le_refl 0
  | keep x _ ih =>
    rw [editDistance, if_pos rfl]
    exact (min_le_right _ _).trans ih
  | substitute x y _ ih =>
    rw [editDistance]
    refine (min_le_right _ _).trans (Nat.add_le_add ih ?_)
    split
    · exact Nat.zero_le 1
    · exact Nat.le_refl 1
  | @delete n a b x _ ih =>
    cases b with
    | nil =>
      rw [editDistance_nil_right] at ih ⊢
      exact Nat.succ_le_succ ih
    | cons y b =>
      rw [editDistance]
      exact ((min_le_left _ _).trans (min_le_right _ _)).trans (Nat.succ_le_succ ih)
  | @insert n a b y _ ih =>
    cases a with
    | nil =>
      rw [editDistance] at ih ⊢
      exact Nat.succ_le_succ ih
    | cons x a =>
      rw [editDistance]
      exact ((min_le_left _ _).trans (min_le_left _ _)).trans (Nat.succ_le_succ ih)

/-- The distance is the fewest edits that turn one list into the other. -/
theorem editDistance_le_iff : editDistance a b ≤ n ↔ ∃ m, m ≤ n ∧ Edits m a b := by
  constructor
  · intro h
    exact ⟨editDistance a b, h, (aligned_editDistance a b).edits⟩
  · rintro ⟨m, hm, hedits⟩
    obtain ⟨k, hk, haligned⟩ := hedits.aligned
    exact (haligned.editDistance_le.trans hk).trans hm

theorem editDistance_self (a : List α) : editDistance a a = 0 :=
  Nat.le_zero.1 (Aligned.refl a).editDistance_le

theorem editDistance_reverse (a b : List α) :
    editDistance a.reverse b.reverse = editDistance a b := by
  have hle : ∀ a b : List α, editDistance a.reverse b.reverse ≤ editDistance a b :=
    fun a b => (aligned_editDistance a b).reverse.editDistance_le
  refine Nat.le_antisymm (hle a b) ?_
  have := hle a.reverse b.reverse
  rwa [List.reverse_reverse, List.reverse_reverse] at this

/-- The recursion from the ends of the lists. -/
theorem editDistance_concat (a b : List α) (x y : α) : editDistance (a ++ [x]) (b ++ [y]) =
    min (min (editDistance (a ++ [x]) b + 1) (editDistance a (b ++ [y]) + 1))
      (editDistance a b + if x = y then 0 else 1) := by
  rw [← editDistance_reverse (a ++ [x]) (b ++ [y]), ← editDistance_reverse (a ++ [x]) b,
    ← editDistance_reverse a (b ++ [y]), ← editDistance_reverse a b, List.reverse_concat,
    List.reverse_concat, editDistance]

/-- A start of one list is at least as close to some start of the other. -/
theorem editDistance_prefix (a a' b : List α) :
    ∃ j, j ≤ b.length ∧ editDistance a (b.take j) ≤ editDistance (a ++ a') b := by
  obtain ⟨b', b'', m, k, rfl, hsum, hleft, -⟩ := (aligned_editDistance (a ++ a') b).symm.split
  refine ⟨b'.length, ?_, ?_⟩
  · rw [List.length_append]
    exact Nat.le_add_right _ _
  · rw [List.take_left']
    · exact hleft.symm.editDistance_le.trans (by omega)
    · rfl

theorem length_le_editDistance (a b : List α) :
    a.length ≤ b.length + editDistance a b ∧ b.length ≤ a.length + editDistance a b :=
  ⟨(aligned_editDistance a b).length_le, (aligned_editDistance a b).symm.length_le⟩

end Musi.System
