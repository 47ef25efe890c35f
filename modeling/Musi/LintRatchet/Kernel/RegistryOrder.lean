import Mathlib.Data.List.Chain
import Musi.LintRatchet.Kernel.PosixHost
import Musi.LintRatchet.Kernel.OneRatchet
import Musi.LintRatchet.Kernel.RegistryValidation

namespace Musi.LintRatchet
open Musi.Js
set_option autoImplicit true

/-! ## Where code units and code points order two strings apart -/

/-- The unit between two stretches of a string is half of a surrogate pair. -/
def isPairHalf (before : JsString) (c : UInt16) (after : JsString) : Bool :=
  isHighSurrogate c && after.head?.any isLowSurrogate ||
    isLowSurrogate c && before.getLast?.any isHighSurrogate

/-- Where `a` and `b` first differ, `a` has the smaller unit, half of an astral character, and the
unit of `b` is no such half. -/
def Strays (a b : JsString) : Prop :=
  ∃ p c d s t, a = p ++ c :: s ∧ b = p ++ d :: t ∧ c < d ∧
    isPairHalf p c s = true ∧ isPairHalf p d t = false

theorem lexCompare_append (p s t : List Nat) : lexCompare (p ++ s) (p ++ t) = lexCompare s t := by
  induction p with
  | nil => rfl
  | cons c p ih =>
    rw [List.cons_append, List.cons_append, lexCompare, if_pos (compareScalars_self c), ih]

theorem lexCompare_heads {c d : Nat} (h : c ≠ d) (s t : List Nat) :
    lexCompare (c :: s) (d :: t) < 0 ↔ c < d := by
  rw [lexCompare, if_neg (mt compareScalars_zero.1 h), compareScalars]
  split
  · next hlt => exact iff_of_true (by decide) hlt
  · next hlt =>
    have hgt : d < c := by omega
    rw [if_pos hgt]
    exact iff_of_false (by decide) hlt

theorem compareCodeUnits_split (h : c ≠ d) (p s t : JsString) :
    compareCodeUnits (p ++ c :: s) (p ++ d :: t) < 0 ↔ c < d := by
  rw [compareCodeUnits, List.map_append, List.map_append, lexCompare_append, List.map_cons,
    List.map_cons, lexCompare_heads (mt UInt16.toNat_inj.1 h), UInt16.lt_iff_toNat_lt]

theorem compareCodeUnits_extended (p s : JsString) (c : UInt16) :
    compareCodeUnits p (p ++ c :: s) < 0 := by
  have hnil := lexCompare_append (p.map UInt16.toNat) [] ((c :: s).map UInt16.toNat)
  rw [List.append_nil] at hnil
  rw [compareCodeUnits, List.map_append, hnil, List.map_cons, lexCompare]
  decide

/-- The code point of a unit that starts a character. -/
theorem codePoints_front (c : UInt16) (s : JsString) : ∃ x rest, codePoints (c :: s) = x :: rest ∧
    ((∃ low t, s = low :: t ∧ isHighSurrogate c = true ∧ isLowSurrogate low = true ∧
        isPairHalf [] c s = true ∧ x = pairCodePoint c low) ∨
      (isPairHalf [] c s = false ∧ x = c.toNat)) := by
  cases s with
  | nil => exact ⟨_, _, rfl, .inr ⟨by simp [isPairHalf], rfl⟩⟩
  | cons low t =>
    by_cases hp : (isHighSurrogate c && isLowSurrogate low) = true
    · rw [Bool.and_eq_true] at hp
      exact ⟨pairCodePoint c low, codePoints t, by simp [codePoints, hp],
        .inl ⟨low, t, rfl, hp.1, hp.2, by simp [isPairHalf, hp], rfl⟩⟩
    · exact ⟨c.toNat, codePoints (low :: t), by simp [codePoints, hp],
        .inr ⟨by simpa [isPairHalf] using hp, rfl⟩⟩

theorem pairCodePoint_lt {high high' low low' : UInt16} (hh : isHighSurrogate high = true)
    (hh' : isHighSurrogate high' = true) (hl : isLowSurrogate low = true)
    (hl' : isLowSurrogate low' = true) (hne : high ≠ high') :
    pairCodePoint high low ≠ pairCodePoint high' low' ∧
      (pairCodePoint high low < pairCodePoint high' low' ↔ high < high') := by
  simp only [isHighSurrogate, isLowSurrogate, Bool.and_eq_true, decide_eq_true_eq,
    UInt16.le_iff_toNat_le] at hh hh' hl hl'
  have h₁ : 0xD800 ≤ high.toNat ∧ high.toNat ≤ 0xDBFF := hh
  have h₂ : 0xD800 ≤ high'.toNat ∧ high'.toNat ≤ 0xDBFF := hh'
  have h₃ : 0xDC00 ≤ low.toNat ∧ low.toNat ≤ 0xDFFF := hl
  have h₄ : 0xDC00 ≤ low'.toNat ∧ low'.toNat ≤ 0xDFFF := hl'
  have hne' : high.toNat ≠ high'.toNat := mt UInt16.toNat_inj.1 hne
  rw [UInt16.lt_iff_toNat_lt, pairCodePoint, pairCodePoint]
  omega

theorem pairCodePoint_low {high low low' : UInt16} (hl : isLowSurrogate low = true)
    (hl' : isLowSurrogate low' = true) (hne : low ≠ low') :
    pairCodePoint high low ≠ pairCodePoint high low' ∧
      (pairCodePoint high low < pairCodePoint high low' ↔ low < low') := by
  simp only [isLowSurrogate, Bool.and_eq_true, decide_eq_true_eq, UInt16.le_iff_toNat_le] at hl hl'
  have h₃ : 0xDC00 ≤ low.toNat ∧ low.toNat ≤ 0xDFFF := hl
  have h₄ : 0xDC00 ≤ low'.toNat ∧ low'.toNat ≤ 0xDFFF := hl'
  have hne' : low.toNat ≠ low'.toNat := mt UInt16.toNat_inj.1 hne
  rw [UInt16.lt_iff_toNat_lt, pairCodePoint, pairCodePoint]
  omega

/-- What the code points make of two strings that first differ at `c` and `d`. -/
def PointsBefore (p : JsString) (c : UInt16) (s : JsString) (d : UInt16) (t : JsString) : Prop :=
  (isPairHalf p c s = false ∧ isPairHalf p d t = true) ∨
    (isPairHalf p c s = isPairHalf p d t ∧ c < d)

theorem comparePoints_front (h : c ≠ d) (s t : JsString) :
    lexCompare (codePoints (c :: s)) (codePoints (d :: t)) < 0 ↔ PointsBefore [] c s d t := by
  have hc := c.toNat_lt
  have hd := d.toNat_lt
  obtain ⟨x, s', hx, hxc⟩ := codePoints_front c s
  obtain ⟨y, t', hy, hyd⟩ := codePoints_front d t
  rw [hx, hy, PointsBefore]
  rcases hxc with ⟨low, u, -, hhigh, hlow, hhalf, rfl⟩ | ⟨hhalf, rfl⟩
  · have hbound := (pairCodePoint_bounds hhigh hlow).1
    rcases hyd with ⟨low', u', -, hhigh', hlow', hhalf', rfl⟩ | ⟨hhalf', rfl⟩
    · obtain ⟨hne, hlt⟩ := pairCodePoint_lt hhigh hhigh' hlow hlow' h
      rw [lexCompare_heads hne, hlt]
      simp [hhalf, hhalf']
    · rw [lexCompare_heads (by omega)]
      simp only [hhalf, hhalf', Bool.true_eq_false, false_and, or_self, iff_false]
      omega
  · rcases hyd with ⟨low', u', -, hhigh', hlow', hhalf', rfl⟩ | ⟨hhalf', rfl⟩
    · have hbound := (pairCodePoint_bounds hhigh' hlow').1
      rw [lexCompare_heads (by omega)]
      simp only [hhalf, hhalf', and_self, true_or, iff_true]
      omega
    · rw [lexCompare_heads (mt UInt16.toNat_inj.1 h), ← UInt16.lt_iff_toNat_lt]
      simp [hhalf, hhalf']

theorem isPairHalf_cons (x y : UInt16) (p : JsString) (c : UInt16) (s : JsString) :
    isPairHalf (x :: y :: p) c s = isPairHalf (y :: p) c s := by
  simp [isPairHalf, List.getLast?_cons_cons]

theorem isPairHalf_one (x c : UInt16) (s : JsString)
    (h : (isHighSurrogate x && isLowSurrogate c) = false) :
    isPairHalf [x] c s = isPairHalf [] c s := by
  cases hx : isHighSurrogate x <;> cases hc : isLowSurrogate c <;> simp_all [isPairHalf]

theorem isPairHalf_low {x c : UInt16} (hx : isHighSurrogate x = true) (hc : isLowSurrogate c = true)
    (s : JsString) : isPairHalf [x] c s = true := by
  simp [isPairHalf, hx, hc]

theorem codePoints_unpaired {x c : UInt16} (h : (isHighSurrogate x && isLowSurrogate c) = false)
    (s : JsString) : codePoints (x :: c :: s) = x.toNat :: codePoints (c :: s) := by
  rw [codePoints, h]
  rfl

theorem codePoints_paired {x c : UInt16} (hx : isHighSurrogate x = true)
    (hc : isLowSurrogate c = true) (s : JsString) :
    codePoints (x :: c :: s) = pairCodePoint x c :: codePoints s := by
  rw [codePoints, hx, hc]
  rfl

/-- One common unit before the difference: it may be the first half of a pair of either string. -/
theorem comparePoints_one (h : c ≠ d) (x : UInt16) (s t : JsString) :
    lexCompare (codePoints (x :: c :: s)) (codePoints (x :: d :: t)) < 0 ↔
      PointsBefore [x] c s d t := by
  have hx := x.toNat_lt
  cases hc : isHighSurrogate x && isLowSurrogate c with
  | false =>
    rw [codePoints_unpaired hc]
    cases hd : isHighSurrogate x && isLowSurrogate d with
    | false =>
      rw [codePoints_unpaired hd, lexCompare, if_pos (compareScalars_self _), comparePoints_front h,
        PointsBefore, PointsBefore, isPairHalf_one x c s hc, isPairHalf_one x d t hd]
    | true =>
      rw [Bool.and_eq_true] at hd
      have hbound := (pairCodePoint_bounds hd.1 hd.2).1
      have hlow : isLowSurrogate c = false := by simpa [hd.1] using hc
      rw [codePoints_paired hd.1 hd.2, lexCompare_heads (by omega), PointsBefore,
        isPairHalf_low hd.1 hd.2]
      refine iff_of_true (by omega) ?_
      cases hhalf : isPairHalf [x] c s with
      | false => exact .inl ⟨rfl, rfl⟩
      | true =>
        -- A high surrogate is smaller than the low one.
        refine .inr ⟨rfl, ?_⟩
        have hhigh : isHighSurrogate c = true := by
          simp only [isPairHalf, hlow, Bool.false_and, Bool.or_false, Bool.and_eq_true] at hhalf
          exact hhalf.1
        have hc' := hd.2
        simp only [isHighSurrogate, isLowSurrogate, Bool.and_eq_true, decide_eq_true_eq] at hhigh hc'
        exact UInt16.lt_of_le_of_lt hhigh.2 (UInt16.lt_of_lt_of_le (by decide) hc'.1)
  | true =>
    rw [Bool.and_eq_true] at hc
    have hbound := (pairCodePoint_bounds hc.1 hc.2).1
    rw [codePoints_paired hc.1 hc.2]
    cases hd : isLowSurrogate d with
    | true =>
      obtain ⟨hne, hlt⟩ := pairCodePoint_low hc.2 hd h
      rw [codePoints_paired hc.1 hd, lexCompare_heads hne, hlt, PointsBefore,
        isPairHalf_low hc.1 hc.2, isPairHalf_low hc.1 hd]
      simp
    | false =>
      rw [codePoints_unpaired (by rw [hd, Bool.and_false]), lexCompare_heads (by omega),
        PointsBefore, isPairHalf_low hc.1 hc.2]
      refine iff_of_false (by omega) ?_
      rintro (⟨hf, -⟩ | ⟨hhalf, hlt⟩)
      · cases hf
      · have hhigh : isHighSurrogate d = true := by
          simp only [isPairHalf, hd, Bool.false_and, Bool.or_false, Eq.comm (a := true),
            Bool.and_eq_true] at hhalf
          exact hhalf.1
        have hc' := hc.2
        simp only [isHighSurrogate, isLowSurrogate, Bool.and_eq_true, decide_eq_true_eq] at hhigh hc'
        exact absurd (UInt16.lt_of_lt_of_le hlt hhigh.2)
          (UInt16.not_lt.2 (UInt16.le_trans (by decide) hc'.1))

theorem comparePoints_split (h : c ≠ d) (p s t : JsString) :
    lexCompare (codePoints (p ++ c :: s)) (codePoints (p ++ d :: t)) < 0 ↔
      PointsBefore p c s d t := by
  induction p using codePoints.induct with
  | case1 => exact comparePoints_front h s t
  | case2 x => exact comparePoints_one h x s t
  | case3 x y p hp ih =>
    have hlow : isHighSurrogate y = false := by
      rw [Bool.and_eq_true] at hp
      cases hy : isHighSurrogate y with
      | false => rfl
      | true =>
        have hl := hp.2
        simp only [isHighSurrogate, isLowSurrogate, Bool.and_eq_true, decide_eq_true_eq] at hy hl
        exact absurd (UInt16.le_trans hl.1 hy.2) (by decide)
    have hhalf (c : UInt16) (s : JsString) : isPairHalf (x :: y :: p) c s = isPairHalf p c s := by
      rw [isPairHalf_cons]
      cases p with
      | nil => exact isPairHalf_one y c s (by rw [hlow, Bool.false_and])
      | cons z p => exact isPairHalf_cons y z p c s
    rw [Bool.and_eq_true] at hp
    rw [List.cons_append, List.cons_append, List.cons_append, List.cons_append,
      codePoints_paired hp.1 hp.2, codePoints_paired hp.1 hp.2, lexCompare,
      if_pos (compareScalars_self _), ih, PointsBefore, PointsBefore, hhalf, hhalf]
  | case4 x y p hp ih =>
    rw [Bool.not_eq_true] at hp
    rw [List.cons_append, List.cons_append, List.cons_append, List.cons_append,
      codePoints_unpaired hp, codePoints_unpaired hp, lexCompare, if_pos (compareScalars_self _)]
    rw [List.cons_append, List.cons_append] at ih
    rw [ih, PointsBefore, PointsBefore, isPairHalf_cons, isPairHalf_cons]

theorem compareByCodepoint_split (h : c ≠ d) (p s t : JsString) :
    compareByCodepoint (p ++ c :: s) (p ++ d :: t) < 0 ↔ PointsBefore p c s d t := by
  rw [compareByCodepoint_eq]
  exact comparePoints_split h p s t

/-- A proper prefix comes first, even one that ends inside of a surrogate pair. -/
theorem compareByCodepoint_extended (p s : JsString) (c : UInt16) :
    compareByCodepoint p (p ++ c :: s) < 0 := by
  rw [compareByCodepoint_eq]
  induction p using codePoints.induct with
  | case1 =>
    obtain ⟨x, rest, hx, -⟩ := codePoints_front c s
    rw [List.nil_append, hx, codePoints, lexCompare]
    decide
  | case2 x =>
    have hx := x.toNat_lt
    rw [List.cons_append, List.nil_append]
    cases hp : isHighSurrogate x && isLowSurrogate c with
    | false =>
      obtain ⟨y, rest, hy, -⟩ := codePoints_front c s
      rw [codePoints_unpaired hp, codePoints, lexCompare, if_pos (compareScalars_self _), hy,
        lexCompare]
      decide
    | true =>
      rw [Bool.and_eq_true] at hp
      have hbound := (pairCodePoint_bounds hp.1 hp.2).1
      rw [codePoints_paired hp.1 hp.2, codePoints, lexCompare_heads (by omega)]
      omega
  | case3 x y p hp ih =>
    rw [Bool.and_eq_true] at hp
    rw [List.cons_append, List.cons_append, codePoints_paired hp.1 hp.2,
      codePoints_paired hp.1 hp.2, lexCompare, if_pos (compareScalars_self _)]
    exact ih
  | case4 x y p hp ih =>
    rw [Bool.not_eq_true] at hp
    rw [List.cons_append, List.cons_append, codePoints_unpaired hp, codePoints_unpaired hp,
      lexCompare, if_pos (compareScalars_self _)]
    exact ih

/-- Two strings differ at a unit, or one goes on where the other ends. -/
theorem exists_difference {a b : JsString} (h : a ≠ b) :
    (∃ c s, b = a ++ c :: s) ∨ (∃ c s, a = b ++ c :: s) ∨
      ∃ p c s d t, c ≠ d ∧ a = p ++ c :: s ∧ b = p ++ d :: t := by
  induction a generalizing b with
  | nil =>
    cases b with
    | nil => exact absurd rfl h
    | cons d b => exact .inl ⟨d, b, rfl⟩
  | cons c a ih =>
    cases b with
    | nil => exact .inr (.inl ⟨c, a, rfl⟩)
    | cons d b =>
      by_cases hcd : c = d
      · subst hcd
        rcases ih (b := b) (fun he => h (he ▸ rfl)) with ⟨e, s, rfl⟩ | ⟨e, s, rfl⟩ |
          ⟨p, e, s, f, t, hne, rfl, rfl⟩
        · exact .inl ⟨e, s, rfl⟩
        · exact .inr (.inl ⟨e, s, rfl⟩)
        · exact .inr (.inr ⟨c :: p, e, s, f, t, hne, rfl, rfl⟩)
      · exact .inr (.inr ⟨[], c, a, d, b, hcd, rfl, rfl⟩)

/-- Straying is being before by code units and not before by code points. -/
theorem strays_iff (a b : JsString) :
    Strays a b ↔ compareCodeUnits a b < 0 ∧ ¬ compareByCodepoint a b < 0 := by
  constructor
  · rintro ⟨p, c, d, s, t, rfl, rfl, hlt, hc, hd⟩
    have hne : c ≠ d := fun he => UInt16.lt_irrefl d (he ▸ hlt)
    rw [compareCodeUnits_split hne, compareByCodepoint_split hne, PointsBefore, hc, hd]
    exact ⟨hlt, by simp⟩
  · rintro ⟨hunits, hpoints⟩
    have hab : a ≠ b := by
      intro he
      rw [he, compareCodeUnits_strict.self] at hunits
      exact absurd hunits (by decide)
    rcases exists_difference hab with ⟨c, s, rfl⟩ | ⟨c, s, rfl⟩ | ⟨p, c, s, d, t, hne, rfl, rfl⟩
    · exact absurd (compareByCodepoint_extended a s c) hpoints
    · have hback := compareCodeUnits_strict.neg_iff.2 (compareCodeUnits_extended b s c)
      exact absurd hunits (by omega)
    · rw [compareCodeUnits_split hne] at hunits
      rw [compareByCodepoint_split hne, PointsBefore] at hpoints
      refine ⟨p, c, d, s, t, rfl, rfl, hunits, ?_, ?_⟩
      · cases hc : isPairHalf p c s <;> cases hd : isPairHalf p d t <;> simp_all
      · cases hc : isPairHalf p c s <;> cases hd : isPairHalf p d t <;> simp_all

theorem strays_swap_iff (a b : JsString) :
    Strays b a ↔ compareByCodepoint a b < 0 ∧ ¬ compareCodeUnits a b < 0 := by
  have hunits := compareCodeUnits_strict.swap a b
  have hpoints := compareByCodepoint_strict.swap a b
  rw [strays_iff]
  constructor
  · rintro ⟨hba, hn⟩
    have hne : compareByCodepoint a b ≠ 0 := by
      intro he
      rw [compareByCodepoint_strict.eq_of_zero he, compareCodeUnits_strict.self] at hba
      exact absurd hba (by decide)
    omega
  · rintro ⟨hab, hn⟩
    have hne : compareCodeUnits a b ≠ 0 := by
      intro he
      rw [compareCodeUnits_strict.eq_of_zero he, compareByCodepoint_strict.self] at hab
      exact absurd hab (by decide)
    omega

/-! ## The order check and the canonical order -/

/-- The one string stands right before the other. -/
def Neighbours (values : List JsString) (a b : JsString) : Prop :=
  ∃ before after, values = before ++ a :: b :: after

theorem isChain_neighbours {R : JsString → JsString → Prop} {values : List JsString} :
    values.IsChain R ↔ ∀ a b, Neighbours values a b → R a b := by
  rw [List.isChain_iff_forall_rel_of_append_cons_cons]
  exact ⟨fun h a b ⟨_, _, he⟩ => h he, fun h a b _ _ he => h a b ⟨_, _, he⟩⟩

theorem isSortedUniqueAfter_iff (previous : Option JsString) (values : List JsString) :
    isSortedUniqueAfter previous values = true ↔
      (previous.toList ++ values).IsChain fun a b => compareCodeUnits a b < 0 := by
  induction values generalizing previous with
  | nil => cases previous <;> simp [isSortedUniqueAfter]
  | cons value values ih =>
    have hih := ih (some value)
    rw [Option.toList_some, List.singleton_append] at hih
    cases previous with
    | none =>
      rw [isSortedUniqueAfter, Option.any_none, if_neg Bool.false_ne_true, hih]
      rfl
    | some p =>
      rw [isSortedUniqueAfter, Option.any_some, Option.toList_some, List.singleton_append,
        List.isChain_cons_cons, ← hih]
      by_cases hp : compareCodeUnits p value < 0
      · simp [hp]
      · simp [hp, not_lt.1 hp]

theorem isSortedUnique_iff (values : List JsString) :
    isSortedUnique values = true ↔ values.IsChain fun a b => compareCodeUnits a b < 0 :=
  isSortedUniqueAfter_iff none values

/-- A list is free of duplicates and kept by a sort where each member is before the next. -/
theorem sortBy_unchanged_iff {cmp : α → α → Int} (h : StrictComparator cmp) (l : List α) :
    (l.Nodup ∧ sortBy cmp l = l) ↔ l.IsChain fun a b => cmp a b < 0 := by
  constructor
  · rintro ⟨hn, hs⟩
    have hsorted := sortBy_sorted h.toConsistentComparator l
    rw [hs] at hsorted
    have hstrict := hsorted.and hn
    apply List.Pairwise.isChain
    refine hstrict.imp fun {a b} hab => ?_
    have hne : cmp a b ≠ 0 := fun he => hab.2 (h.eq_of_zero he)
    have hle := hab.1
    omega
  · intro hc
    have htrans : Trans (fun a b => cmp a b < 0) (fun a b => cmp a b < 0) fun a b => cmp a b < 0 :=
      ⟨h.trans_lt⟩
    have hp := List.isChain_iff_pairwise.1 hc
    refine ⟨hp.imp fun {a b} hab he => ?_, sortBy_of_sorted (hp.imp le_of_lt)⟩
    rw [he, h.self] at hab
    exact absurd hab (by decide)

/-- No two neighbours stray from each other. -/
def InStep (values : List JsString) : Prop :=
  ∀ a b, Neighbours values a b → ¬ Strays a b ∧ ¬ Strays b a

/-- No neighbours stray, or two of them are in neither order, or some stray either way. -/
def OrderedAlike (values : List JsString) : Prop :=
  InStep values ∨
    (∃ a b, Neighbours values a b ∧ ¬ compareCodeUnits a b < 0 ∧ ¬ compareByCodepoint a b < 0) ∨
    ((∃ a b, Neighbours values a b ∧ Strays a b) ∧ ∃ a b, Neighbours values a b ∧ Strays b a)

theorem normalizeStringList_iff (values : List JsString) :
    (values.Nodup ∧ normalizeStringList values = values) ↔
      ∀ a b, Neighbours values a b → compareByCodepoint a b < 0 := by
  rw [normalizeStringList, sortBy_unchanged_iff compareByCodepoint_strict, isChain_neighbours]

theorem orderedAlike_iff (values : List JsString) :
    (isSortedUnique values = true ↔ values.Nodup ∧ normalizeStringList values = values) ↔
      OrderedAlike values := by
  rw [isSortedUnique_iff, isChain_neighbours, normalizeStringList_iff, OrderedAlike, InStep]
  constructor
  · intro h
    by_cases hunits : ∀ a b, Neighbours values a b → compareCodeUnits a b < 0
    · have hpoints := h.1 hunits
      exact .inl fun a b hab =>
        ⟨fun hs => ((strays_iff a b).1 hs).2 (hpoints a b hab),
          fun hs => ((strays_swap_iff a b).1 hs).2 (hunits a b hab)⟩
    · have hpoints := mt h.2 hunits
      push Not at hunits hpoints
      obtain ⟨a, b, hab, hu⟩ := hunits
      obtain ⟨c, d, hcd, hp⟩ := hpoints
      by_cases hu' : compareByCodepoint a b < 0
      · by_cases hp' : compareCodeUnits c d < 0
        · exact .inr (.inr ⟨⟨c, d, hcd, (strays_iff c d).2 ⟨hp', not_lt.2 hp⟩⟩, a, b, hab,
            (strays_swap_iff a b).2 ⟨hu', not_lt.2 hu⟩⟩)
        · exact .inr (.inl ⟨c, d, hcd, hp', not_lt.2 hp⟩)
      · exact .inr (.inl ⟨a, b, hab, not_lt.2 hu, hu'⟩)
  · rintro (h | ⟨a, b, hab, hu, hp⟩ | ⟨⟨a, b, hab, hs⟩, c, d, hcd, hs'⟩)
    · constructor
      · intro hunits a b hab
        by_contra hp
        exact (h a b hab).1 ((strays_iff a b).2 ⟨hunits a b hab, hp⟩)
      · intro hpoints a b hab
        by_contra hu
        exact (h a b hab).2 ((strays_swap_iff a b).2 ⟨hpoints a b hab, hu⟩)
    · exact iff_of_false (fun h => hu (h a b hab)) fun h => hp (h a b hab)
    · exact iff_of_false (fun h => ((strays_swap_iff c d).1 hs').2 (h c d hcd)) fun h =>
        ((strays_iff a b).1 hs).2 (h a b hab)

/-- A list in code-unit order is canonical where no neighbours stray. -/
theorem normalizeStringList_sorted {values : List JsString} (h : isSortedUnique values = true) :
    normalizeStringList values = values ↔ InStep values := by
  rw [isSortedUnique_iff, isChain_neighbours] at h
  constructor
  · intro hs a b hab
    have hn : values.Nodup := by
      have hunits := sortBy_unchanged_iff compareCodeUnits_strict values
      exact (hunits.2 (isChain_neighbours.2 h)).1
    have hpoints := (normalizeStringList_iff values).1 ⟨hn, hs⟩ a b hab
    rw [strays_iff, strays_swap_iff]
    exact ⟨fun hst => hst.2 hpoints, fun hst => hst.2 (h a b hab)⟩
  · intro hs
    refine ((normalizeStringList_iff values).2 fun a b hab => ?_).2
    by_contra hp
    exact (hs a b hab).1 ((strays_iff a b).2 ⟨h a b hab, hp⟩)

section Registry
variable {N : Type} [JsNumber N] [Host]

/-- The baseline lists the globs of a ratchet as its registry entry does. -/
def WrittenAsDeclared (ratchet : LintRatchetConfig N) : Prop :=
  ∀ currentItems ruleSourceHash,
    (baselineTestFromConfig ratchet currentItems ruleSourceHash).files = ratchet.files ∧
      (baselineTestFromConfig ratchet currentItems ruleSourceHash).ignores = ratchet.ignores

/-- The order check is the canonical order except for what straying neighbours decide, and what it
accepts is written as declared exactly where no neighbours stray. -/
theorem isSortedUnique_canonical (values : List JsString) (ratchets : List (LintRatchetConfig N))
    (options : ValidateLintRatchetRegistryOptions) :
    ((isSortedUnique values = true ↔ values.Nodup ∧ normalizeStringList values = values) ↔
        OrderedAlike values) ∧
      (validateLintRatchetRegistry ratchets options = [] →
        ((∀ ratchet ∈ ratchets, WrittenAsDeclared ratchet) ↔
          ∀ ratchet ∈ ratchets, InStep ratchet.files ∧ InStep ratchet.ignores)) := by
  refine ⟨orderedAlike_iff values, fun h => forall₂_congr fun ratchet hr => ?_⟩
  obtain ⟨hfiles, hignores⟩ := validateLintRatchetRegistry_sorted h ratchet hr
  rw [← normalizeStringList_sorted hfiles, ← normalizeStringList_sorted hignores]
  exact ⟨fun hw => hw none [], fun hw _ _ => hw⟩

end Registry

/-! ## An astral file name before a full-width one -/

/-- `😀.ts` and `！.ts`. -/
def strayingFiles : List JsString :=
  [[0xD83D, 0xDE00] ++ js ".ts", [0xFF01] ++ js ".ts"]

def strayingRatchet : LintRatchetConfig Numeral := oneRatchet Numeral .messageCount strayingFiles

theorem isSortedUnique_canonical_straying :
    (∀ ratchet ∈ [strayingRatchet], WrittenAsDeclared ratchet) ↔
      ∀ ratchet ∈ [strayingRatchet], InStep ratchet.files ∧ InStep ratchet.ignores :=
  (isSortedUnique_canonical strayingFiles [strayingRatchet] {}).2 (by decide +kernel)

/-- The registry passes, and its globs are written the other way round. -/
theorem isSortedUnique_canonical_fails :
    validateLintRatchetRegistry [strayingRatchet] = [] ∧
    isSortedUnique strayingFiles = true ∧
    ¬ (isSortedUnique strayingFiles = true ↔
      strayingFiles.Nodup ∧ normalizeStringList strayingFiles = strayingFiles) ∧
    (baselineTestFromConfig strayingRatchet none zeroHash).files = strayingFiles.reverse := by
  refine ⟨by decide +kernel, by decide +kernel, ?_, by decide +kernel⟩
  have hsorted : isSortedUnique strayingFiles = true := by decide +kernel
  have hkept : normalizeStringList strayingFiles ≠ strayingFiles := by decide +kernel
  exact fun h => hkept (h.1 hsorted).2

end Musi.LintRatchet
