import Mathlib.Data.Multiset.UnionInter
import Musi.Js.Table

namespace Musi.Js
set_option autoImplicit true

/-! ## Lists as multisets, by a Map of counts -/

/-- `counts.get(token) ?? 0` -/
def countOf (counts : JsMap Nat) (token : JsString) : Nat := (counts.get token).getD 0

def countTokens (tokens : List JsString) : JsMap Nat :=
  tokens.foldl (fun counts token => counts.set token (countOf counts token + 1)) JsMap.empty

def takeShared (remaining : JsMap Nat) : List JsString → List JsString
  | [] => []
  | token :: tokens =>
    let count := countOf remaining token
    if count > 0 then token :: takeShared (remaining.set token (count - 1)) tokens
    else takeShared remaining tokens

/-- Tokens of the first list accounted for by the second, in their order. -/
def multisetIntersection (a b : List JsString) : List JsString := takeShared (countTokens b) a

def takeExtra (remaining : JsMap Nat) : List JsString → List JsString
  | [] => []
  | token :: tokens =>
    let count := countOf remaining token
    if count > 0 then takeExtra (remaining.set token (count - 1)) tokens
    else token :: takeExtra remaining tokens

/-- Tokens of the first list that the second cannot account for, in their order. -/
def multisetDifference (a b : List JsString) : List JsString := takeExtra (countTokens b) a

theorem countOf_set (counts : JsMap Nat) (token : JsString) (n : Nat) (token' : JsString) :
    countOf (counts.set token n) token' = if token' = token then n else countOf counts token' := by
  rw [countOf, JsMap.get_set]
  split
  · rfl
  · rfl

theorem countOf_countTokens (tokens : List JsString) (token : JsString) :
    countOf (countTokens tokens) token = tokens.count token := by
  have hloop (counts : JsMap Nat) : countOf (tokens.foldl (fun counts token =>
      counts.set token (countOf counts token + 1)) counts) token =
        countOf counts token + tokens.count token := by
    induction tokens generalizing counts with
    | nil => rfl
    | cons first tokens ih =>
      rw [List.foldl_cons, ih, countOf_set, List.count_cons]
      by_cases heq : first = token
      · subst heq
        simp only [if_true, beq_self_eq_true]
        omega
      · rw [if_neg (Ne.symm heq), if_neg (by simpa using heq)]
        omega
  rw [countTokens, hloop]
  exact Nat.zero_add _

theorem count_takeShared (remaining : JsMap Nat) (tokens : List JsString) (token : JsString) :
    (takeShared remaining tokens).count token = min (tokens.count token) (countOf remaining token) := by
  induction tokens generalizing remaining with
  | nil => exact (Nat.zero_min _).symm
  | cons first tokens ih =>
    rw [takeShared]
    by_cases heq : first = token
    · subst heq
      split
      · rw [List.count_cons_self, List.count_cons_self, ih, countOf_set, if_pos rfl]
        omega
      · rw [ih, List.count_cons_self]
        omega
    · rw [List.count_cons_of_ne heq]
      split
      · rw [List.count_cons_of_ne heq, ih, countOf_set, if_neg (Ne.symm heq)]
      · exact ih remaining

theorem count_takeExtra (remaining : JsMap Nat) (tokens : List JsString) (token : JsString) :
    (takeExtra remaining tokens).count token = tokens.count token - countOf remaining token := by
  induction tokens generalizing remaining with
  | nil => exact (Nat.zero_sub _).symm
  | cons first tokens ih =>
    rw [takeExtra]
    by_cases heq : first = token
    · subst heq
      split
      · rw [List.count_cons_self, ih, countOf_set, if_pos rfl]
        omega
      · rw [List.count_cons_self, List.count_cons_self, ih]
        omega
    · rw [List.count_cons_of_ne heq]
      split
      · rw [ih, countOf_set, if_neg (Ne.symm heq)]
      · rw [List.count_cons_of_ne heq, ih]

theorem coe_multisetIntersection (a b : List JsString) :
    (multisetIntersection a b : Multiset JsString) = (a : Multiset JsString) ∩ b := by
  refine Multiset.ext.2 fun token => ?_
  have hcount := count_takeShared (countTokens b) a token
  rw [countOf_countTokens] at hcount
  rw [Multiset.count_inter, Multiset.coe_count, Multiset.coe_count, Multiset.coe_count,
    multisetIntersection]
  convert hcount

theorem coe_multisetDifference (a b : List JsString) :
    (multisetDifference a b : Multiset JsString) = (a : Multiset JsString) - b := by
  refine Multiset.ext.2 fun token => ?_
  have hcount := count_takeExtra (countTokens b) a token
  rw [countOf_countTokens] at hcount
  rw [Multiset.count_sub, Multiset.coe_count, Multiset.coe_count, Multiset.coe_count,
    multisetDifference]
  convert hcount

theorem multisetIntersection_comm (a b : List JsString) :
    (multisetIntersection a b).Perm (multisetIntersection b a) := by
  rw [← Multiset.coe_eq_coe, coe_multisetIntersection, coe_multisetIntersection, Multiset.inter_comm]

/-! ## Multisets that differ outside a test -/

variable {α : Type} [DecidableEq α] {s t : Multiset α} {p : α → Prop} [DecidablePred p]

/-- The members that pass a test are the same when all that is extra on either side fails it. -/
theorem filter_eq_iff_extra : s.filter p = t.filter p ↔ (∀ a ∈ s - t, ¬ p a) ∧ ∀ a ∈ t - s, ¬ p a := by
  have hextra (s t : Multiset α) : (∀ a ∈ s - t, ¬ p a) ↔ ∀ a, p a → s.count a ≤ t.count a := by
    refine forall_congr' fun a => ?_
    rw [← Multiset.count_pos, Multiset.count_sub]
    constructor
    · intro h hp
      by_contra hle
      exact h (by omega) hp
    · intro h hlt hp
      have hle := h hp
      omega
  rw [hextra, hextra, Multiset.ext]
  constructor
  · intro h
    have hcount (a : α) (hp : p a) : s.count a = t.count a := by
      have heq := h a
      rwa [Multiset.count_filter_of_pos hp, Multiset.count_filter_of_pos hp] at heq
    exact ⟨fun a hp => (hcount a hp).le, fun a hp => (hcount a hp).ge⟩
  · rintro ⟨hle, hge⟩ a
    by_cases hp : p a
    · rw [Multiset.count_filter_of_pos hp, Multiset.count_filter_of_pos hp]
      exact le_antisymm (hle a hp) (hge a hp)
    · rw [Multiset.count_filter_of_neg hp, Multiset.count_filter_of_neg hp]

/-- A shared member that passes the test, once those that do are the same on both sides. -/
theorem exists_mem_inter_iff (h : s.filter p = t.filter p) : (∃ a ∈ s ∩ t, p a) ↔ s.filter p ≠ 0 := by
  constructor
  · rintro ⟨a, ha, hp⟩
    have hmem := Multiset.mem_filter.2 ⟨(Multiset.mem_inter.1 ha).1, hp⟩
    exact fun hzero => Multiset.notMem_zero a (hzero ▸ hmem)
  · intro hne
    obtain ⟨a, ha⟩ := Multiset.exists_mem_of_ne_zero hne
    have hs := Multiset.mem_filter.1 ha
    rw [h] at ha
    exact ⟨a, Multiset.mem_inter.2 ⟨hs.1, (Multiset.mem_filter.1 ha).1⟩, hs.2⟩

theorem inter_extra : s ∩ (s - t) = s - t := by
  refine Multiset.ext.2 fun a => ?_
  rw [Multiset.count_inter, Multiset.count_sub]
  omega

theorem eq_iff_no_extra : s = t ↔ s - t = 0 ∧ t - s = 0 := by
  have hle (s t : Multiset α) : s - t = 0 ↔ s ≤ t := by
    rw [← Multiset.le_zero, Multiset.sub_le_iff_le_add, Multiset.zero_add]
  rw [hle, hle]
  exact le_antisymm_iff

end Musi.Js
