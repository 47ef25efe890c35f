import Mathlib.Algebra.Order.Ring.Unbundled.Rat
import Mathlib.Data.Int.Order.Basic
import Mathlib.Data.List.Sort
import Mathlib.Data.Rat.Defs
import Mathlib.Order.Basic
import Musi.Js.Text

namespace Musi.Js
set_option autoImplicit true

section
variable {cmp : α → α → Int} {l m : List α}

/-- What Array.prototype.sort asks of its comparator before the result is specified. -/
structure ConsistentComparator (cmp : α → α → Int) : Prop where
  swap : ∀ a b, cmp a b ≤ 0 ↔ 0 ≤ cmp b a
  trans : ∀ {a b c}, cmp a b ≤ 0 → cmp b c ≤ 0 → cmp a c ≤ 0

/-- A comparator under which only equal values tie. -/
structure StrictComparator (cmp : α → α → Int) : Prop extends ConsistentComparator cmp where
  eq_of_zero : ∀ {a b}, cmp a b = 0 → a = b

namespace ConsistentComparator

theorem total (h : ConsistentComparator cmp) (a b : α) : cmp a b ≤ 0 ∨ cmp b a ≤ 0 := by
  rcases le_total (cmp a b) 0 with hab | hab
  · exact .inl hab
  · exact .inr ((h.swap b a).2 hab)

theorem self (h : ConsistentComparator cmp) (a : α) : cmp a a = 0 := by
  rcases h.total a a with ha | ha <;> exact le_antisymm ha ((h.swap a a).1 ha)

theorem zero_of_le (h : ConsistentComparator cmp) (hab : cmp a b ≤ 0) (hba : cmp b a ≤ 0) :
    cmp a b = 0 := le_antisymm hab ((h.swap b a).1 hba)

theorem neg_iff (h : ConsistentComparator cmp) {a b : α} : 0 < cmp a b ↔ cmp b a < 0 := by
  rw [← not_le, h.swap a b, not_le]

theorem trans_lt (h : ConsistentComparator cmp) (hab : cmp a b < 0) (hbc : cmp b c < 0) :
    cmp a c < 0 := by
  rw [← h.neg_iff] at hbc ⊢
  refine lt_of_not_ge fun hca => ?_
  have hcb := h.trans hca hab.le
  omega

theorem comap (h : ConsistentComparator cmp) (f : β → α) :
    ConsistentComparator fun a b => cmp (f a) (f b) :=
  ⟨fun a b => h.swap (f a) (f b), fun hab hbc => h.trans hab hbc⟩

end ConsistentComparator

theorem StrictComparator.antisymm (h : StrictComparator cmp) (hab : cmp a b ≤ 0)
    (hba : cmp b a ≤ 0) : a = b := h.eq_of_zero (h.zero_of_le hab hba)

theorem StrictComparator.comap (h : StrictComparator cmp) {f : β → α}
    (hf : Function.Injective f) : StrictComparator fun a b => cmp (f a) (f b) :=
  { h.toConsistentComparator.comap f with eq_of_zero := fun he => hf (h.eq_of_zero he) }

/-- Array.prototype.sort: the stable sort by a comparator. -/
def sortBy (cmp : α → α → Int) (l : List α) : List α :=
  l.insertionSort fun a b => cmp a b ≤ 0

theorem sortBy_perm (cmp : α → α → Int) (l : List α) : (sortBy cmp l).Perm l :=
  List.perm_insertionSort _ l

@[simp] theorem mem_sortBy : a ∈ sortBy cmp l ↔ a ∈ l := (sortBy_perm cmp l).mem_iff

@[simp] theorem length_sortBy : (sortBy cmp l).length = l.length := (sortBy_perm cmp l).length_eq

@[simp] theorem sortBy_nil : sortBy cmp [] = [] := rfl

@[simp] theorem sortBy_eq_nil : sortBy cmp l = [] ↔ l = [] := by
  rw [← List.length_eq_zero_iff, length_sortBy, List.length_eq_zero_iff]

theorem nodup_sortBy : (sortBy cmp l).Nodup ↔ l.Nodup := (sortBy_perm cmp l).nodup_iff

theorem sortBy_sorted (h : ConsistentComparator cmp) (l : List α) :
    (sortBy cmp l).Pairwise fun a b => cmp a b ≤ 0 := by
  have : Std.Total fun a b => cmp a b ≤ 0 := ⟨h.total⟩
  have : IsTrans α fun a b => cmp a b ≤ 0 := ⟨fun _ _ _ hab hbc => h.trans hab hbc⟩
  exact List.pairwise_insertionSort _ l

/-- A sorted list is already in the order the sort would give it. -/
theorem sortBy_of_sorted (h : l.Pairwise fun a b => cmp a b ≤ 0) : sortBy cmp l = l :=
  List.Pairwise.insertionSort_eq h

theorem sortBy_idem (h : ConsistentComparator cmp) (l : List α) :
    sortBy cmp (sortBy cmp l) = sortBy cmp l := sortBy_of_sorted (sortBy_sorted h l)

/-- Two sorted arrangements of the same values agree when tied values are equal. -/
theorem eq_of_perm_sorted (hl : l.Pairwise fun a b => cmp a b ≤ 0)
    (hm : m.Pairwise fun a b => cmp a b ≤ 0) (hp : l.Perm m)
    (ht : ∀ a ∈ l, ∀ b ∈ m, cmp a b ≤ 0 → cmp b a ≤ 0 → a = b) : l = m :=
  List.Perm.eq_of_pairwise (fun a b ha hb hab hba => ht a ha b hb hab hba) hl hm hp

theorem sortBy_eq_of_perm (h : StrictComparator cmp) (hp : l.Perm m) :
    sortBy cmp l = sortBy cmp m := by
  have hp' := (sortBy_perm cmp l).trans (hp.trans (sortBy_perm cmp m).symm)
  exact eq_of_perm_sorted (sortBy_sorted h.toConsistentComparator l)
    (sortBy_sorted h.toConsistentComparator m) hp' fun _ _ _ _ => h.antisymm

theorem sortBy_map (f : α → β) (cmp : β → β → Int) (l : List α) :
    sortBy cmp (l.map f) = (sortBy (fun a b => cmp (f a) (f b)) l).map f :=
  (List.map_insertionSort _ _ f l (fun _ _ _ _ => Iff.rfl)).symm

/-! ### The order of pairs in a list -/

/-- Of two values of a list, one comes first. -/
theorem pair_total (ha : a ∈ l) (hb : b ∈ l) (hab : a ≠ b) :
    [a, b].Sublist l ∨ [b, a].Sublist l := by
  induction l with
  | nil => cases ha
  | cons x l ih =>
    rcases List.mem_cons.1 ha with rfl | ha'
    · rcases List.mem_cons.1 hb with rfl | hb'
      · exact (hab rfl).elim
      · exact .inl ((List.singleton_sublist.2 hb').cons_cons a)
    · rcases List.mem_cons.1 hb with rfl | hb'
      · exact .inr ((List.singleton_sublist.2 ha').cons_cons b)
      · exact (ih ha' hb').imp (.cons x) (.cons x)

/-- In a list without repetitions only one of two values comes first. -/
theorem pair_antisymm (hl : l.Nodup) (hab : [a, b].Sublist l) : ¬ [b, a].Sublist l := by
  intro hba
  induction l with
  | nil => cases hab
  | cons x l ih =>
    obtain ⟨hx, hl⟩ := List.nodup_cons.1 hl
    cases hab with
    | cons _ hab =>
      cases hba with
      | cons _ hba => exact ih hl hab hba
      | cons_cons _ _ => exact hx (hab.subset (by simp))
    | cons_cons _ hb =>
      cases hba with
      | cons _ hba => exact hx (hba.subset (by simp))
      | cons_cons _ _ => exact hx (hb.subset (by simp))

/-- Arrangements of the same values agree when they arrange every pair alike. -/
theorem eq_of_pairs (hp : l.Perm m) (hm : m.Nodup)
    (h : ∀ a b, [a, b].Sublist l → [a, b].Sublist m) : l = m := by
  have hantisymm (a b : α) (_ : a ∈ l) (_ : b ∈ m) (hab : [a, b].Sublist m)
      (hba : [b, a].Sublist m) : a = b := (pair_antisymm hm hab hba).elim
  exact List.Perm.eq_of_pairwise hantisymm
    (List.pairwise_iff_forall_sublist.2 fun {a b} => h a b)
    (List.pairwise_iff_forall_sublist.2 fun {a b} hab => hab) hp

/-- The sort is stable. -/
theorem pair_sortBy (hab : cmp a b ≤ 0) (h : [a, b].Sublist l) : [a, b].Sublist (sortBy cmp l) :=
  List.pair_sublist_insertionSort hab h

/-- Of the values that tie with the first one, the first one comes first. -/
theorem find?_sortBy_cons (h : ConsistentComparator cmp) (a : α) (l : List α) :
    (sortBy cmp (a :: l)).find? (fun b => cmp a b = 0) = some a := by
  have hinsert (m : List α) :
      (m.orderedInsert (fun a b => cmp a b ≤ 0) a).find? (fun b => cmp a b = 0) = some a := by
    induction m with
    | nil => simp [h.self]
    | cons b m ih =>
      by_cases hab : cmp a b ≤ 0
      · rw [List.orderedInsert_cons_of_le _ m hab,
          List.find?_cons_of_pos (by simpa using h.self a)]
      · have hne : cmp a b ≠ 0 := fun he => hab he.le
        rw [List.orderedInsert_of_not_le _ m hab, List.find?_cons_of_neg (by simpa using hne), ih]
  exact hinsert (sortBy cmp l)

/-- What survives a filter is sorted alike exactly when the survivors that tie come in the same
order before. -/
theorem filter_sortBy_eq_iff (h : ConsistentComparator cmp) (hl : l.Nodup) (hp : l.Perm m)
    (p : α → Bool) : (sortBy cmp l).filter p = (sortBy cmp m).filter p ↔
      ∀ a b, p a = true → p b = true → cmp a b = 0 → [a, b].Sublist l → [a, b].Sublist m := by
  have hm : m.Nodup := hp.nodup_iff.1 hl
  have hsl : (sortBy cmp l).Nodup := nodup_sortBy.2 hl
  have hsm : (sortBy cmp m).Nodup := nodup_sortBy.2 hm
  have hperm : (sortBy cmp l).Perm (sortBy cmp m) :=
    (sortBy_perm cmp l).trans (hp.trans (sortBy_perm cmp m).symm)
  have hne {a b : α} {k : List α} (hk : k.Nodup) (hab : [a, b].Sublist k) : a ≠ b := by
    simpa using hk.sublist hab
  have hlt {a b : α} {k : List α} (hab : [a, b].Sublist (sortBy cmp k)) : cmp a b ≤ 0 :=
    List.pairwise_iff_forall_sublist.1 (sortBy_sorted h k) hab
  constructor
  · intro heq a b ha hb hab hsub
    have hkept : [a, b].Sublist ((sortBy cmp l).filter p) := by
      have := (pair_sortBy hab.le hsub).filter p
      rwa [List.filter_cons_of_pos ha, List.filter_cons_of_pos hb, List.filter_nil] at this
    rw [heq] at hkept
    have hsorted := hkept.trans List.filter_sublist
    rcases pair_total (hp.subset (hsub.subset (by simp))) (hp.subset (hsub.subset (by simp)))
      (hne hl hsub) with hgoal | hback
    · exact hgoal
    · have hba : cmp b a ≤ 0 := (h.swap b a).2 hab.ge
      exact (pair_antisymm hsm hsorted (pair_sortBy hba hback)).elim
  · intro hties
    refine eq_of_pairs (hperm.filter p) (hsm.filter p) fun a b hab => ?_
    have hsub := hab.trans List.filter_sublist
    have ha : p a = true := (List.mem_filter.1 (hab.subset (by simp))).2
    have hb : p b = true := (List.mem_filter.1 (hab.subset (by simp))).2
    have hab' : [a, b].Sublist (sortBy cmp m) := by
      have hmem {x : α} (hx : x ∈ [a, b]) : x ∈ sortBy cmp m := hperm.subset (hsub.subset hx)
      rcases pair_total (hmem (by simp)) (hmem (by simp)) (hne hsl hsub) with hgoal | hback
      · exact hgoal
      · have hzero := h.zero_of_le (hlt hsub) (hlt hback)
        have hl' : [a, b].Sublist l := by
          rcases pair_total (mem_sortBy.1 (hsub.subset (by simp)))
            (mem_sortBy.1 (hsub.subset (by simp))) (hne hsl hsub) with hgoal | hback'
          · exact hgoal
          · exact (pair_antisymm hsl hsub (pair_sortBy (hlt hback) hback')).elim
        exact pair_sortBy (hlt hsub) (hties a b ha hb hzero hl')
    have := hab'.filter p
    rwa [List.filter_cons_of_pos ha, List.filter_cons_of_pos hb, List.filter_nil] at this

/-- The three-way comparison of two numbers. -/
def compareScalars (left right : Nat) : Int :=
  if left < right then -1 else if right < left then 1 else 0

theorem compareScalars_self (a : Nat) : compareScalars a a = 0 := by
  simp [compareScalars]

/-- Lexicographic order of sequences of numbers, a proper prefix first. -/
def lexCompare : List Nat → List Nat → Int
  | [], [] => 0
  | [], _ :: _ => -1
  | _ :: _, [] => 1
  | a :: s, b :: t => if compareScalars a b = 0 then lexCompare s t else compareScalars a b

theorem compareScalars_zero : compareScalars a b = 0 ↔ a = b := by
  unfold compareScalars; split <;> (try split) <;> omega

theorem lexCompare_zero : lexCompare s t = 0 ↔ s = t := by
  induction s generalizing t with
  | nil => cases t <;> simp [lexCompare]
  | cons a s ih =>
    cases t with
    | nil => simp [lexCompare]
    | cons b t =>
      by_cases h : compareScalars a b = 0
      · rw [lexCompare, if_pos h, ih, compareScalars_zero.1 h, List.cons_inj_right]
      · simp [lexCompare, h, mt compareScalars_zero.2 h]

theorem compareScalars_neg (a b : Nat) : compareScalars b a = -compareScalars a b := by
  unfold compareScalars; split <;> split <;> omega

theorem lexCompare_neg (s t : List Nat) : lexCompare t s = -lexCompare s t := by
  induction s generalizing t with
  | nil => cases t <;> simp [lexCompare]
  | cons a s ih =>
    cases t with
    | nil => simp [lexCompare]
    | cons b t =>
      have hn := compareScalars_neg a b
      by_cases h : compareScalars a b = 0
      · simp [lexCompare, h, hn, ih]
      · simp [lexCompare, h, hn]

theorem compareScalars_trans (hab : compareScalars a b ≤ 0) (hbc : compareScalars b c ≤ 0) :
    compareScalars a c ≤ 0 := by
  unfold compareScalars at *; grind

theorem lexCompare_cons_le : lexCompare (a :: s) (b :: t) ≤ 0 ↔
    a < b ∨ a = b ∧ lexCompare s t ≤ 0 := by
  by_cases h : a = b
  · simp [lexCompare, h, compareScalars_self]
  · have h0 : compareScalars a b ≠ 0 := mt compareScalars_zero.1 h
    simp only [lexCompare, if_neg h0, h, false_and, or_false]
    unfold compareScalars; split <;> (try split) <;> omega

theorem lexCompare_trans (hst : lexCompare s t ≤ 0) (htu : lexCompare t u ≤ 0) :
    lexCompare s u ≤ 0 := by
  induction s generalizing t u with
  | nil => cases u <;> simp [lexCompare]
  | cons a s ih =>
    cases t with
    | nil => simp [lexCompare] at hst
    | cons b t =>
      cases u with
      | nil => simp [lexCompare] at htu
      | cons c u =>
        rw [lexCompare_cons_le] at *
        rcases hst with hab | ⟨rfl, hst⟩ <;> rcases htu with hbc | ⟨rfl, htu⟩
        · exact .inl (hab.trans hbc)
        · exact .inl hab
        · exact .inl hbc
        · exact .inr ⟨rfl, ih hst htu⟩

theorem lexCompare_strict : StrictComparator lexCompare where
  swap s t := by rw [lexCompare_neg s t]; omega
  trans := lexCompare_trans
  eq_of_zero h := lexCompare_zero.1 h

/-- The relational operators on strings compare code units. -/
def compareCodeUnits (a b : JsString) : Int :=
  lexCompare (a.map UInt16.toNat) (b.map UInt16.toNat)

theorem compareCodeUnits_strict : StrictComparator compareCodeUnits :=
  lexCompare_strict.comap (List.map_injective_iff.2 fun _ _ => UInt16.toNat_inj.1)

/-- The string order `left < right`. -/
def stringLess (left right : JsString) : Bool := compareCodeUnits left right < 0

theorem stringLess_total (s t : JsString) :
    stringLess s t = true ∨ s = t ∨ stringLess t s = true := by
  have hswap := compareCodeUnits_strict.swap s t
  simp only [stringLess, decide_eq_true_eq]
  rcases lt_trichotomy (compareCodeUnits s t) 0 with h | h | h
  · exact .inl h
  · exact .inr (.inl (compareCodeUnits_strict.eq_of_zero h))
  · exact .inr (.inr (by rw [← compareCodeUnits_strict.neg_iff]; exact h))

theorem stringLess_trans (hst : stringLess s t = true) (htu : stringLess t u = true) :
    stringLess s u = true := by
  simp only [stringLess, decide_eq_true_eq] at hst htu ⊢
  exact compareCodeUnits_strict.trans_lt hst htu

/-- Array.prototype.sort without a comparator, on strings. -/
def sortStrings (l : List JsString) : List JsString := sortBy compareCodeUnits l

end

section
variable {first second : α → α → Int}

/-! ## Comparators joined by `||` -/

/-- `first || second` -/
def orElse (first second : Int) : Int := if first ≠ 0 then first else second

theorem orElse_of_ne {a b : Int} (h : a ≠ 0) : orElse a b = a := if_pos h

theorem orElse_of_zero {a b : Int} (h : a = 0) : orElse a b = b := if_neg (not_not.2 h)

theorem orElse_le {a b : Int} : orElse a b ≤ 0 ↔ a < 0 ∨ a = 0 ∧ b ≤ 0 := by
  rw [orElse]
  split <;> omega

theorem orElse_zero {a b : Int} : orElse a b = 0 ↔ a = 0 ∧ b = 0 := by
  rw [orElse]
  split <;> omega

theorem ConsistentComparator.lt_of_lt_of_le (h : ConsistentComparator first) {a b c : α}
    (hab : first a b < 0) (hbc : first b c ≤ 0) : first a c < 0 := by
  refine lt_of_not_ge fun hac => ?_
  have hca : first c a ≤ 0 := (h.swap c a).2 hac
  have hba := (h.swap b a).1 (h.trans hbc hca)
  omega

theorem ConsistentComparator.lt_of_le_of_lt (h : ConsistentComparator first) {a b c : α}
    (hab : first a b ≤ 0) (hbc : first b c < 0) : first a c < 0 := by
  refine lt_of_not_ge fun hac => ?_
  have hca : first c a ≤ 0 := (h.swap c a).2 hac
  have hcb := (h.swap c b).1 (h.trans hca hab)
  omega

theorem ConsistentComparator.orElse (h : ConsistentComparator first)
    (h' : ConsistentComparator second) :
    ConsistentComparator fun a b => orElse (first a b) (second a b) where
  swap a b := by
    have hlt := h.neg_iff (a := b) (b := a)
    have hle := h.swap a b
    have hge := h.swap b a
    have hle' := h'.swap a b
    rw [orElse_le, Musi.Js.orElse]
    split <;> omega
  trans := by
    intro a b c hab hbc
    rw [orElse_le] at hab hbc ⊢
    rcases hab with hab | ⟨hab, hab'⟩
    · rcases hbc with hbc | ⟨hbc, -⟩
      · exact .inl (h.trans_lt hab hbc)
      · exact .inl (h.lt_of_lt_of_le hab hbc.le)
    · rcases hbc with hbc | ⟨hbc, hbc'⟩
      · exact .inl (h.lt_of_le_of_lt hab.le hbc)
      · refine .inr ⟨h.zero_of_le (h.trans hab.le hbc.le) ?_, h'.trans hab' hbc'⟩
        exact h.trans ((h.swap c b).2 hbc.ge) ((h.swap b a).2 hab.ge)

theorem ConsistentComparator.reversed (h : ConsistentComparator first) :
    ConsistentComparator fun a b => first b a :=
  ⟨fun a b => h.swap b a, fun hab hbc => h.trans hbc hab⟩

/-- The sign of `left - right` for naturals. -/
def subtractNat (left right : Nat) : Int := (left : Int) - right

theorem subtractNat_strict : StrictComparator subtractNat where
  swap a b := by
    rw [subtractNat, subtractNat]
    omega
  trans := by
    intro a b c hab hbc
    rw [subtractNat] at hab hbc ⊢
    omega
  eq_of_zero := by
    intro a b h
    rw [subtractNat] at h
    omega

/-- The sign of `left - right` for fractions. -/
def compareRat (left right : Rat) : Int := if left < right then -1 else if right < left then 1 else 0

theorem compareRat_le {a b : Rat} : compareRat a b ≤ 0 ↔ a ≤ b := by
  rw [compareRat]
  split
  · next h => exact iff_of_true (by omega) h.le
  · split
    · next h => exact iff_of_false (by omega) (not_le.2 h)
    · next h => exact iff_of_true (by omega) (not_lt.1 h)

theorem compareRat_ge {a b : Rat} : 0 ≤ compareRat a b ↔ b ≤ a := by
  rw [compareRat]
  split
  · next h => exact iff_of_false (by omega) (not_le.2 h)
  · next h => exact iff_of_true (by split <;> omega) (not_lt.1 h)

theorem compareRat_strict : StrictComparator compareRat where
  swap a b := by rw [compareRat_le, compareRat_ge]
  trans := by
    intro a b c hab hbc
    rw [compareRat_le] at hab hbc ⊢
    exact hab.trans hbc
  eq_of_zero := fun h => le_antisymm (compareRat_le.1 h.le) (compareRat_ge.1 h.ge)

end

end Musi.Js
