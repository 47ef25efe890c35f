import Musi.LintRatchet.Kernel.MessageIdentity

namespace Musi.LintRatchet
open Musi.Js
set_option autoImplicit true

/-! ## Replacing every occurrence -/

section Replace
variable {pattern replacement : JsString}

theorem replaceAllFrom_skip (a b : JsString) :
    replaceAllFrom pattern replacement a.length (a ++ b) = replaceAllFrom pattern replacement 0 b := by
  induction a with
  | nil => rfl
  | cons c a ih => rw [List.cons_append, List.length_cons, replaceAllFrom, ih]

/-- Two texts are replaced apart where no occurrence begins in the first and ends in the second. -/
theorem replaceAllFrom_append {a b : JsString} {skipped : Nat} (hskipped : skipped ≤ a.length)
    (h : ∀ before after, a ++ b = before ++ pattern ++ after → before.length < a.length →
      (before ++ pattern).length ≤ a.length) :
    replaceAllFrom pattern replacement skipped (a ++ b) =
      replaceAllFrom pattern replacement skipped a ++ replaceAllFrom pattern replacement 0 b := by
  induction a generalizing skipped with
  | nil =>
    rw [List.length_nil, Nat.le_zero] at hskipped
    subst hskipped
    rw [replaceAllFrom]
    rfl
  | cons c a ih =>
    have hrest : ∀ before after, a ++ b = before ++ pattern ++ after → before.length < a.length →
        (before ++ pattern).length ≤ a.length := by
      intro before after heq hlt
      have hcons := h (c :: before) after (by rw [List.cons_append, heq]; rfl)
        (by simpa using hlt)
      simpa using hcons
    cases skipped with
    | succ skipped =>
      rw [List.cons_append, replaceAllFrom, replaceAllFrom]
      exact ih (Nat.le_of_succ_le_succ hskipped) hrest
    | zero =>
      rw [List.cons_append, replaceAllFrom, replaceAllFrom]
      by_cases hmatch : startsWith (c :: (a ++ b)) pattern = true
      · obtain ⟨after, hafter⟩ := startsWith_iff.1 hmatch
        have hlength : pattern.length ≤ (c :: a).length := by
          have := h [] after (by rw [List.nil_append, hafter]; rfl) (Nat.succ_pos _)
          simpa using this
        have hfirst : startsWith (c :: a) pattern = true := by
          rw [startsWith_iff]
          exact List.prefix_of_prefix_length_le ⟨after, hafter⟩ ⟨b, rfl⟩ hlength
        rw [if_pos hmatch, if_pos hfirst, ih (by rw [List.length_cons] at hlength; omega) hrest,
          List.append_assoc]
      · have hfirst : ¬ startsWith (c :: a) pattern = true := by
          rw [startsWith_iff] at hmatch ⊢
          exact fun hp => hmatch (hp.trans ⟨b, rfl⟩)
        rw [if_neg hmatch, if_neg hfirst, ih (Nat.zero_le _) hrest]
        rfl

theorem replaceAllFrom_absent {s : JsString} (h : ∀ before after, s ≠ before ++ pattern ++ after) :
    replaceAllFrom pattern replacement 0 s = s := by
  induction s with
  | nil => rfl
  | cons c s ih =>
    have hmatch : ¬ startsWith (c :: s) pattern = true := by
      rw [startsWith_iff]
      rintro ⟨after, hafter⟩
      exact h [] after hafter.symm
    rw [replaceAllFrom, if_neg hmatch, ih fun before after heq => h (c :: before) after (by rw [heq]; rfl)]

end Replace

/-! ## The repository root in a text -/

def repoRootToken : JsString := js "<repo-root>"

/-- The root stands between the pieces of a text and occurs nowhere else in it. -/
structure Rendered (root : JsString) (pieces : List JsString) : Prop where
  rooted : root ≠ []
  pieced : pieces ≠ []
  only : ∀ before after, join root pieces = before ++ root ++ after →
    ∃ front back, front ≠ [] ∧ back ≠ [] ∧ pieces = front ++ back ∧ before = join root front ∧
      after = join root back

theorem join_cons_append {sep : JsString} (piece : JsString) (pieces : List JsString) :
    ∃ rest, join sep (piece :: pieces) = piece ++ rest := by
  cases pieces with
  | nil => exact ⟨[], (List.append_nil _).symm⟩
  | cons next pieces => exact ⟨sep ++ join sep (next :: pieces), List.append_assoc _ _ _⟩

/-- No occurrence begins in the first piece. -/
theorem Rendered.first {root piece : JsString} {pieces : List JsString}
    (h : Rendered root (piece :: pieces)) {before after : JsString}
    (heq : join root (piece :: pieces) = before ++ root ++ after) : piece.length ≤ before.length := by
  obtain ⟨front, back, hfront, -, hsplit, rfl, -⟩ := h.only before after heq
  cases front with
  | nil => exact absurd rfl hfront
  | cons first front =>
    cases hsplit
    obtain ⟨rest, hrest⟩ := @join_cons_append root piece front
    rw [hrest, List.length_append]
    omega

theorem Rendered.tail {root piece next : JsString} {pieces : List JsString}
    (h : Rendered root (piece :: next :: pieces)) : Rendered root (next :: pieces) where
  rooted := h.rooted
  pieced := List.cons_ne_nil _ _
  only := by
    intro before after heq
    have hwhole : join root (piece :: next :: pieces) = (piece ++ root ++ before) ++ root ++ after := by
      rw [join, heq]
      simp only [List.append_assoc]
    obtain ⟨front, back, hfront, hback, hsplit, hbefore, hafter⟩ := h.only _ _ hwhole
    cases front with
    | nil => exact absurd rfl hfront
    | cons first front =>
      rw [List.cons_append, List.cons.injEq] at hsplit
      obtain ⟨rfl, hsplit⟩ := hsplit
      cases front with
      | nil =>
        -- The occurrence stands after the separator that follows the first piece.
        have hlength := congrArg List.length hbefore
        have hroot := List.length_pos_iff.2 h.rooted
        rw [join, List.length_append, List.length_append] at hlength
        omega
      | cons second front =>
        rw [join, List.append_cancel_left_eq] at hbefore
        exact ⟨second :: front, back, List.cons_ne_nil _ _, hback, hsplit, hbefore, hafter⟩

theorem startsWith_append (p s : JsString) : startsWith (p ++ s) p = true := by
  rw [startsWith_iff]
  exact List.prefix_append p s

/-- The token takes the place of every root. -/
theorem normalizeRepoRoot_rendered {root : JsString} {pieces : List JsString}
    (h : Rendered root pieces) : normalizeRepoRoot (join root pieces) root = join repoRootToken pieces := by
  rw [normalizeRepoRoot, if_neg h.rooted]
  change replaceAllFrom root repoRootToken 0 (join root pieces) = join repoRootToken pieces
  have hroot := List.length_pos_iff.2 h.rooted
  induction pieces with
  | nil => exact absurd rfl h.pieced
  | cons piece pieces ih =>
    have habsent : replaceAllFrom root repoRootToken 0 piece = piece := by
      refine replaceAllFrom_absent fun before after heq => ?_
      obtain ⟨rest, hrest⟩ := @join_cons_append root piece pieces
      have hwhole : join root (piece :: pieces) = before ++ root ++ (after ++ rest) := by
        rw [hrest, heq, List.append_assoc]
      have hle := h.first hwhole
      have hlength := congrArg List.length heq
      rw [List.length_append, List.length_append] at hlength
      omega
    cases pieces with
    | nil => exact habsent
    | cons next pieces =>
      have hinside : ∀ before after, piece ++ (root ++ join root (next :: pieces)) =
          before ++ root ++ after → before.length < piece.length →
            (before ++ root).length ≤ piece.length := by
        intro before after heq hlt
        have hwhole : join root (piece :: next :: pieces) = before ++ root ++ after := by
          rw [join, List.append_assoc, heq]
        have hle := h.first hwhole
        omega
      have hmatch : replaceAllFrom root repoRootToken 0 (root ++ join root (next :: pieces)) =
          repoRootToken ++ join repoRootToken (next :: pieces) := by
        rw [← ih h.tail]
        obtain ⟨c, rest, rfl⟩ := List.exists_cons_of_ne_nil h.rooted
        rw [List.cons_append, replaceAllFrom, ← List.cons_append, if_pos (startsWith_append _ _)]
        congr 1
        exact replaceAllFrom_skip rest _
      rw [join, List.append_assoc, replaceAllFrom_append (Nat.zero_le _) hinside, habsent, hmatch, join,
        List.append_assoc]

/-! ## Lines -/

/-- The root has no line feed and begins with nothing that the start of a code frame line is made
of, as an absolute path does. -/
structure RootPath (root : JsString) : Prop where
  oneLine : 0x0A ∉ root
  notSpace : ∀ c, root.head? = some c → isWhiteSpace c = false
  notDigit : ∀ c, root.head? = some c → isDigit c = false
  notMark : ∀ c, root.head? = some c → c ≠ unit '|' ∧ c ≠ unit '>' ∧ c ≠ unit '^'

section Lines
variable {root : JsString}

theorem normalizeRepoRoot_nil (root : JsString) : normalizeRepoRoot [] root = [] := by
  rw [normalizeRepoRoot]
  split
  · rfl
  · rfl

/-- A unit that the root does not begin with stays. -/
theorem normalizeRepoRoot_cons {c : UInt16} (h : root.head? ≠ some c) (s : JsString) :
    normalizeRepoRoot (c :: s) root = c :: normalizeRepoRoot s root := by
  rw [normalizeRepoRoot, normalizeRepoRoot]
  split
  · rfl
  · next hroot =>
    have hmatch : ¬ startsWith (c :: s) root = true := by
      rw [startsWith_iff]
      rintro ⟨after, hafter⟩
      obtain ⟨d, rest, rfl⟩ := List.exists_cons_of_ne_nil hroot
      exact h (congrArg some (List.cons.inj hafter).1)
    rw [replaceAllFrom, if_neg hmatch]

/-- What a text begins with is kept, or it is the root and gives way to the token. -/
theorem normalizeRepoRoot_head (c : UInt16) (s : JsString) :
    normalizeRepoRoot (c :: s) root = c :: normalizeRepoRoot s root ∨
      (root.head? = some c ∧ ∃ rest, normalizeRepoRoot (c :: s) root = unit '<' :: rest) := by
  by_cases hhead : root.head? = some c
  · rw [normalizeRepoRoot, normalizeRepoRoot]
    split
    · exact .inl rfl
    · rw [replaceAllFrom]
      split
      · exact .inr ⟨hhead, _, rfl⟩
      · exact .inl rfl
  · exact .inl (normalizeRepoRoot_cons hhead s)

/-- An occurrence that reached over the end of a line would hold its line feed. -/
theorem occurrence_ends {c : UInt16} (hroot : c ∉ root) {line rest before after : JsString}
    (heq : line ++ c :: rest = before ++ root ++ after) (hlt : before.length < line.length) :
    (before ++ root).length ≤ line.length := by
  by_contra hle
  have hget : (line ++ c :: rest)[line.length]? = (before ++ root ++ after)[line.length]? := by
    rw [heq]
  rw [List.getElem?_append_right (Nat.le_refl _), Nat.sub_self, List.getElem?_cons_zero,
    List.getElem?_append_left (Nat.lt_of_not_le hle), List.getElem?_append_right hlt.le] at hget
  exact hroot (List.mem_of_getElem? hget.symm)

theorem normalizeRepoRoot_join (hroot : 0x0A ∉ root) {lines : List JsString} (hne : lines ≠ []) :
    normalizeRepoRoot (join [0x0A] lines) root =
      join [0x0A] (lines.map fun line => normalizeRepoRoot line root) := by
  induction lines with
  | nil => exact absurd rfl hne
  | cons line lines ih =>
    cases lines with
    | nil => rfl
    | cons next lines =>
      have hhead : root.head? ≠ some 0x0A := fun h => hroot (List.mem_of_mem_head? h)
      have hsplit : normalizeRepoRoot (line ++ (0x0A :: join [0x0A] (next :: lines))) root =
          normalizeRepoRoot line root ++
            normalizeRepoRoot (0x0A :: join [0x0A] (next :: lines)) root := by
        rw [normalizeRepoRoot, normalizeRepoRoot, normalizeRepoRoot]
        split
        · rfl
        · exact replaceAllFrom_append (Nat.zero_le _) fun before after heq hlt =>
            occurrence_ends hroot heq hlt
      rw [join, List.append_assoc, List.singleton_append, hsplit, normalizeRepoRoot_cons hhead,
        ih (List.cons_ne_nil _ _)]
      simp only [List.map_cons, join, List.append_assoc, List.singleton_append]

/-! ## Code frames -/

theorem normalizeRepoRoot_takeWhile {p : UInt16 → Bool} (hp : ∀ c, root.head? = some c → p c = false)
    (htoken : p (unit '<') = false) (s : JsString) :
    (normalizeRepoRoot s root).takeWhile p = s.takeWhile p ∧
      (normalizeRepoRoot s root).dropWhile p = normalizeRepoRoot (s.dropWhile p) root := by
  induction s with
  | nil =>
    rw [normalizeRepoRoot_nil]
    exact ⟨rfl, (normalizeRepoRoot_nil root).symm⟩
  | cons c s ih =>
    cases hc : p c with
    | true =>
      have hhead : root.head? ≠ some c := fun h => by
        rw [hp c h] at hc
        cases hc
      rw [normalizeRepoRoot_cons hhead, List.takeWhile_cons_of_pos hc, List.takeWhile_cons_of_pos hc,
        List.dropWhile_cons_of_pos hc, List.dropWhile_cons_of_pos hc]
      exact ⟨by rw [ih.1], ih.2⟩
    | false =>
      have hneg : ¬ p c = true := by rw [hc]; exact Bool.false_ne_true
      rw [List.takeWhile_cons_of_neg hneg, List.dropWhile_cons_of_neg hneg]
      rcases @normalizeRepoRoot_head root c s with h | ⟨-, rest, h⟩
      · rw [h, List.takeWhile_cons_of_neg hneg, List.dropWhile_cons_of_neg hneg]
        exact ⟨rfl, rfl⟩
      · have htokenNeg : ¬ p (unit '<') = true := by rw [htoken]; exact Bool.false_ne_true
        rw [h, List.takeWhile_cons_of_neg htokenNeg, List.dropWhile_cons_of_neg htokenNeg]
        exact ⟨rfl, rfl⟩

theorem skipSome_normalize {p : UInt16 → Bool} (hp : ∀ c, root.head? = some c → p c = false)
    (htoken : p (unit '<') = false) (s : JsString) :
    skipSome p (normalizeRepoRoot s root) =
      (skipSome p s).map fun rest => normalizeRepoRoot rest root := by
  obtain ⟨htake, hdrop⟩ := normalizeRepoRoot_takeWhile hp htoken s
  rw [skipSome, skipSome, htake, hdrop]
  split
  · rfl
  · rfl

theorem startsWithUnit_normalize {c : Char} (hroot : root.head? ≠ some (unit c))
    (htoken : unit '<' ≠ unit c) (s : JsString) :
    startsWithUnit c (normalizeRepoRoot s root) = startsWithUnit c s := by
  cases s with
  | nil => rw [normalizeRepoRoot_nil]
  | cons d s =>
    rcases @normalizeRepoRoot_head root d s with h | ⟨hd, rest, h⟩
    · rw [h]
      rfl
    · rw [h, startsWithUnit, startsWithUnit, List.head?_cons, List.head?_cons,
        decide_eq_false fun he => htoken (Option.some.inj he),
        decide_eq_false fun he => hroot (hd.trans he)]

theorem tail_normalize {c : Char} (hroot : root.head? ≠ some (unit c)) {s : JsString}
    (h : startsWithUnit c s = true) :
    (normalizeRepoRoot s root).tail = normalizeRepoRoot s.tail root := by
  cases s with
  | nil => cases of_decide_eq_true h
  | cons d s =>
    have hd : d = unit c := Option.some.inj (of_decide_eq_true h)
    rw [normalizeRepoRoot_cons (hd ▸ hroot)]
    rfl

namespace RootPath
variable (h : RootPath root)
include h

theorem isCodeFrameSourceLine (line : JsString) :
    LintRatchet.isCodeFrameSourceLine (normalizeRepoRoot line root) =
      LintRatchet.isCodeFrameSourceLine line := by
  have hspace := skipSome_normalize h.notSpace (by decide)
  have hdigit := skipSome_normalize h.notDigit (by decide)
  have hbar : root.head? ≠ some (unit '|') := fun hc => (h.notMark _ hc).1 rfl
  rw [LintRatchet.isCodeFrameSourceLine, LintRatchet.isCodeFrameSourceLine, hspace]
  cases skipSome isWhiteSpace line with
  | none => rfl
  | some rest =>
    rw [Option.map_some, Option.bind_some, Option.bind_some, hdigit]
    cases skipSome isDigit rest with
    | none => rfl
    | some rest =>
      rw [Option.map_some, Option.bind_some, Option.bind_some, hspace]
      cases skipSome isWhiteSpace rest with
      | none => rfl
      | some rest => exact startsWithUnit_normalize hbar (by decide) rest

theorem isCodeFrameTargetLine (line : JsString) :
    LintRatchet.isCodeFrameTargetLine (normalizeRepoRoot line root) =
      LintRatchet.isCodeFrameTargetLine line := by
  have hmark : root.head? ≠ some (unit '>') := fun hc => (h.notMark _ hc).2.1 rfl
  rw [LintRatchet.isCodeFrameTargetLine, LintRatchet.isCodeFrameTargetLine,
    startsWithUnit_normalize hmark (by decide)]
  cases hstart : startsWithUnit '>' line with
  | false => rfl
  | true => rw [tail_normalize hmark hstart, h.isCodeFrameSourceLine]

theorem isCodeFramePointerLine (line : JsString) :
    LintRatchet.isCodeFramePointerLine (normalizeRepoRoot line root) =
      LintRatchet.isCodeFramePointerLine line := by
  have hspace := skipSome_normalize h.notSpace (by decide)
  have hbar : root.head? ≠ some (unit '|') := fun hc => (h.notMark _ hc).1 rfl
  have hcaret : root.head? ≠ some (unit '^') := fun hc => (h.notMark _ hc).2.2 rfl
  rw [LintRatchet.isCodeFramePointerLine, LintRatchet.isCodeFramePointerLine, hspace]
  cases skipSome isWhiteSpace line with
  | none => rfl
  | some rest =>
    rw [Option.map_some, Option.any_some, Option.any_some, startsWithUnit_normalize hbar (by decide)]
    cases hstart : startsWithUnit '|' rest with
    | false => rfl
    | true =>
      rw [tail_normalize hbar hstart, hspace, Bool.true_and, Bool.true_and]
      cases skipSome isWhiteSpace rest.tail with
      | none => rfl
      | some rest => exact startsWithUnit_normalize hcaret (by decide) rest

end RootPath

end Lines

end Musi.LintRatchet
