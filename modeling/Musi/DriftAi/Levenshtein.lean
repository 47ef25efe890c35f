import Musi.Js.Text
import Musi.System.EditDistance

namespace Musi.DriftAi
open Musi.Js Musi.System
set_option autoImplicit true

/-! ## The bounded edit distance -/

/-- One cell of a row: `curr[j]`, and the least value so far. -/
def levenshteinCell (a b : JsString) (i : Nat) (prev : List Nat) (row : List Nat × Nat) (j : Nat) :
    List Nat × Nat :=
  let (curr, rowMin) := row
  let cost := if a[i - 1]? = b[j - 1]? then 0 else 1
  let left := curr[j - 1]?.getD 0
  let above := prev[j]?.getD 0
  let diag := prev[j - 1]?.getD 0
  let value := min (min (left + 1) (above + 1)) (diag + cost)
  (curr.set j value, if value < rowMin then value else rowMin)

/-- The next row, written over an old one, and its least value. -/
def computeLevenshteinRow (a b : JsString) (i : Nat) (prev curr : List Nat) : List Nat × Nat :=
  (List.range' 1 b.length).foldl (levenshteinCell a b i prev) (curr.set 0 i, i)

def levenshteinRows (a b : JsString) (cap : Int) : List Nat → List Nat → List Nat → Int
  | [], prev, _ => prev[b.length]?.getD 0
  | i :: rest, prev, curr =>
    let (curr, rowMin) := computeLevenshteinRow a b i prev curr
    if (rowMin : Int) > cap then cap + 1 else levenshteinRows a b cap rest curr curr

def levenshteinBounded (a b : JsString) (cap : Int) : Int :=
  if a = b then 0
  else if (((a.length : Int) - b.length).natAbs : Int) > cap then cap + 1
  else levenshteinRows a b cap (List.range' 1 a.length) (List.range (b.length + 1))
    (List.replicate (b.length + 1) 0)

example : levenshteinBounded (js "auth-util") (js "auth-utils") 2 = 1 := by decide

/-! ## Its rows -/

variable {a b : JsString} {i j n : Nat} {prev curr : List Nat}

/-- The distance between the starts of the strings. -/
def startDistance (a b : JsString) (i j : Nat) : Nat := editDistance (a.take i) (b.take j)

theorem startDistance_zero_left (a b : JsString) (hj : j ≤ b.length) : startDistance a b 0 j = j := by
  rw [startDistance, List.take_zero, editDistance, List.length_take_of_le hj]

theorem startDistance_zero_right (a b : JsString) (hi : i ≤ a.length) : startDistance a b i 0 = i := by
  rw [startDistance, List.take_zero, editDistance_nil_right, List.length_take_of_le hi]

theorem startDistance_succ (hi : i < a.length) (hj : j < b.length) :
    startDistance a b (i + 1) (j + 1) =
      min (min (startDistance a b (i + 1) j + 1) (startDistance a b i (j + 1) + 1))
        (startDistance a b i j + if a[i]? = b[j]? then 0 else 1) := by
  simp only [startDistance]
  rw [List.take_succ_eq_append_getElem hi, List.take_succ_eq_append_getElem hj, editDistance_concat,
    List.getElem?_eq_getElem hi, List.getElem?_eq_getElem hj]
  simp only [Option.some.injEq]

/-- The first cells of a row hold distances. -/
structure IsRow (a b : JsString) (i : Nat) (filled : Nat) (row : List Nat) : Prop where
  length : row.length = b.length + 1
  cells : ∀ j, j ≤ filled → row[j]?.getD 0 = startDistance a b i j

/-- The least distance among the first cells. -/
structure IsRowMin (a b : JsString) (i : Nat) (filled : Nat) (rowMin : Nat) : Prop where
  le : ∀ j, j ≤ filled → rowMin ≤ startDistance a b i j
  attained : ∃ j, j ≤ filled ∧ rowMin = startDistance a b i j

theorem levenshteinCell_spec {row : List Nat × Nat} (hi : i < a.length) (hj : j < b.length)
    (hprev : IsRow a b i b.length prev) (hrow : IsRow a b (i + 1) j row.1)
    (hmin : IsRowMin a b (i + 1) j row.2) :
    IsRow a b (i + 1) (j + 1) (levenshteinCell a b (i + 1) prev row (j + 1)).1 ∧
      IsRowMin a b (i + 1) (j + 1) (levenshteinCell a b (i + 1) prev row (j + 1)).2 := by
  have hvalue : levenshteinCell a b (i + 1) prev row (j + 1) =
      (row.1.set (j + 1) (startDistance a b (i + 1) (j + 1)),
        if startDistance a b (i + 1) (j + 1) < row.2 then startDistance a b (i + 1) (j + 1)
        else row.2) := by
    rw [levenshteinCell, startDistance_succ hi hj, Nat.add_sub_cancel, Nat.add_sub_cancel, hrow.cells j (Nat.le_refl j), hprev.cells (j + 1) hj,
      hprev.cells j hj.le]
  rw [hvalue]
  refine ⟨⟨?_, fun k hk => ?_⟩, ⟨fun k hk => ?_, ?_⟩⟩
  · rw [List.length_set]
    exact hrow.length
  · rw [List.getElem?_set]
    by_cases hkj : j + 1 = k
    · subst hkj
      rw [if_pos rfl, if_pos (by rw [hrow.length]; omega), Option.getD_some]
    · rw [if_neg hkj]
      exact hrow.cells k (by omega)
  · dsimp only
    by_cases hkj : k = j + 1
    · subst hkj
      split <;> omega
    · have := hmin.le k (by omega)
      split <;> omega
  · dsimp only
    split
    · exact ⟨j + 1, Nat.le_refl _, rfl⟩
    · obtain ⟨k, hk, heq⟩ := hmin.attained
      exact ⟨k, by omega, heq⟩

theorem computeLevenshteinRow_spec (hi : i < a.length) (hprev : IsRow a b i b.length prev)
    (hcurr : curr.length = b.length + 1) :
    IsRow a b (i + 1) b.length (computeLevenshteinRow a b (i + 1) prev curr).1 ∧
      IsRowMin a b (i + 1) b.length (computeLevenshteinRow a b (i + 1) prev curr).2 := by
  have hcells : ∀ j, j ≤ b.length →
      IsRow a b (i + 1) j ((List.range' 1 j).foldl (levenshteinCell a b (i + 1) prev)
        (curr.set 0 (i + 1), i + 1)).1 ∧
      IsRowMin a b (i + 1) j ((List.range' 1 j).foldl (levenshteinCell a b (i + 1) prev)
        (curr.set 0 (i + 1), i + 1)).2 := by
    intro j
    induction j with
    | zero =>
      intro _
      have hfirst : startDistance a b (i + 1) 0 = i + 1 := startDistance_zero_right a b hi
      refine ⟨⟨?_, fun k hk => ?_⟩, ⟨fun k hk => ?_, 0, Nat.le_refl 0, hfirst.symm⟩⟩
      · rw [List.range'_zero, List.foldl_nil, List.length_set]
        exact hcurr
      · obtain rfl : k = 0 := Nat.le_zero.1 hk
        rw [List.range'_zero, List.foldl_nil, List.getElem?_set_self (by omega), Option.getD_some,
          hfirst]
      · obtain rfl : k = 0 := Nat.le_zero.1 hk
        exact hfirst.ge
    | succ j ih =>
      intro hj
      obtain ⟨hrow, hmin⟩ := ih (by omega)
      rw [List.range'_1_concat, List.foldl_append, List.foldl_cons, List.foldl_nil, Nat.add_comm 1 j]
      exact levenshteinCell_spec hi hj hprev hrow hmin
  exact hcells b.length (Nat.le_refl _)

/-- Every alignment passes through every row. -/
theorem IsRowMin.le_editDistance {rowMin : Nat} (h : IsRowMin a b i b.length rowMin) :
    rowMin ≤ editDistance a b := by
  obtain ⟨j, hj, hle⟩ := editDistance_prefix (a.take i) (a.drop i) b
  rw [List.take_append_drop] at hle
  exact (h.le j hj).trans hle

theorem levenshteinRows_le_iff {cap : Int} (hi : i + n = a.length)
    (hprev : IsRow a b i b.length prev) (hcurr : curr.length = b.length + 1) :
    levenshteinRows a b cap (List.range' (i + 1) n) prev curr ≤ cap ↔
      (editDistance a b : Int) ≤ cap := by
  induction n generalizing i prev curr with
  | zero =>
    have hlast : startDistance a b i b.length = editDistance a b := by
      rw [startDistance, List.take_of_length_le (by omega), List.take_length]
    rw [List.range'_zero, levenshteinRows, hprev.cells b.length (Nat.le_refl _), hlast]
  | succ n ih =>
    have hlt : i < a.length := by omega
    obtain ⟨hrow, hmin⟩ := computeLevenshteinRow_spec hlt hprev hcurr
    rw [List.range'_succ, levenshteinRows]
    dsimp only
    split
    · next hexit =>
      have hle := hmin.le_editDistance
      constructor
      · intro h
        omega
      · intro h
        omega
    · exact ih (by omega) hrow hrow.length

/-- The early exits lose no distance within the cap. -/
theorem levenshteinBounded_le_iff (a b : JsString) (cap : Int) :
    levenshteinBounded a b cap ≤ cap ↔ (editDistance a b : Int) ≤ cap := by
  rw [levenshteinBounded]
  split
  · next hab =>
    subst hab
    rw [editDistance_self]
    rfl
  · split
    · next hlength =>
      obtain ⟨hle, hle'⟩ := length_le_editDistance a b
      have hdiff : ((a.length : Int) - b.length).natAbs ≤ editDistance a b := by omega
      constructor
      · intro h
        omega
      · intro h
        omega
    · have hrow : IsRow a b 0 b.length (List.range (b.length + 1)) := by
        refine ⟨List.length_range, fun j hj => ?_⟩
        rw [List.getElem?_range (by omega), Option.getD_some, startDistance_zero_left a b hj]
      exact levenshteinRows_le_iff (Nat.zero_add _) hrow List.length_replicate

end Musi.DriftAi
