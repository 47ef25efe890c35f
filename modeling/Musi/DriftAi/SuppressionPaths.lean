import Musi.DriftAi.Suppressions

namespace Musi.DriftAi
open Musi.Js
set_option autoImplicit true

namespace SuppressionDiff

/-! ## Unescaping -/

theorem unescape_cons {c : UInt16} (hc : c ≠ backslash) (d : UInt16) (s : JsString) :
    unescape d (c :: s) = c :: unescape d s := by
  cases s with
  | nil => rfl
  | cons e s => rw [unescape, if_neg fun h => hc h.1]

theorem unescape_append {s : JsString} (hs : backslash ∉ s) (d : UInt16) (t : JsString) :
    unescape d (s ++ t) = s ++ unescape d t := by
  induction s with
  | nil => rfl
  | cons c s ih =>
    rw [List.mem_cons, not_or] at hs
    rw [List.cons_append, unescape_cons (Ne.symm hs.1), ih hs.2, List.cons_append]

theorem unescape_pair (d : UInt16) (s : JsString) :
    unescape d (backslash :: d :: s) = d :: unescape d s := by
  rw [unescape, if_pos ⟨rfl, rfl⟩]

theorem unescape_backslash {d : UInt16} {s : JsString} (h : s.head? ≠ some d) :
    unescape d (backslash :: s) = backslash :: unescape d s := by
  cases s with
  | nil => rfl
  | cons e s =>
    rw [unescape, if_neg]
    rintro ⟨-, rfl⟩
    exact h rfl

theorem pathCode_unit {code : JsString} (h : isPathCode code = true) {c : UInt16} (hc : c ∈ code) :
    c ≠ backslash ∧ c ≠ quote := by
  rw [isPathCode, Bool.and_eq_true] at h
  have hunit := List.all_eq_true.1 h.2 c hc
  refine ⟨?_, ?_⟩
  · rintro rfl
    revert hunit
    decide
  · rintro rfl
    revert hunit
    decide

theorem pathCode_head {code : JsString} (h : isPathCode code = true) {d : UInt16}
    (hd : d = backslash ∨ d = quote) (s : JsString) : (code ++ s).head? ≠ some d := by
  have hne : code ≠ [] := by
    rw [isPathCode, Bool.and_eq_true, decide_eq_true_eq] at h
    exact h.1
  obtain ⟨c, rest, rfl⟩ := List.exists_cons_of_ne_nil hne
  have hunit := pathCode_unit h (List.mem_cons_self (a := c))
  rintro heq
  rcases hd with rfl | rfl
  · exact hunit.1 (Option.some.inj heq)
  · exact hunit.2 (Option.some.inj heq)

theorem unescape_codes {d : UInt16} (hd : d = backslash ∨ d = quote) {codes : List JsString}
    (h : ∀ code ∈ codes, isPathCode code = true) (s : JsString) :
    unescape d (codes.flatMap (fun code => backslash :: code) ++ s) =
      codes.flatMap (fun code => backslash :: code) ++ unescape d s := by
  induction codes with
  | nil => rfl
  | cons code codes ih =>
    rw [List.forall_mem_cons] at h
    have hplain : backslash ∉ code := fun hc => (pathCode_unit h.1 hc).1 rfl
    rw [List.flatMap_cons, List.append_assoc, List.cons_append,
      unescape_backslash (pathCode_head h.1 hd _), unescape_append hplain, ih h.2,
      List.cons_append, List.cons_append, List.append_assoc]

end SuppressionDiff

open SuppressionDiff

/-- A piece once the quotes are unescaped. -/
def PathPiece.quotesOnly : PathPiece → JsString
  | plain c => [c]
  | quote => [SuppressionDiff.quote]
  | backslash => [SuppressionDiff.backslash, SuppressionDiff.backslash]
  | escaped _ codes => codes.flatMap fun code => SuppressionDiff.backslash :: code

/-- A piece once the backslashes are unescaped too. -/
def PathPiece.decoded : PathPiece → JsString
  | plain c => [c]
  | quote => [SuppressionDiff.quote]
  | backslash => [SuppressionDiff.backslash]
  | escaped _ codes => codes.flatMap fun code => SuppressionDiff.backslash :: code

theorem print_head {pieces : List PathPiece} (h : ∀ piece ∈ pieces, piece.Valid) :
    (pieces.flatMap PathPiece.print).head? ≠ some SuppressionDiff.quote := by
  cases pieces with
  | nil =>
    intro heq
    cases heq
  | cons piece pieces =>
    have hvalid := h piece List.mem_cons_self
    rw [List.flatMap_cons]
    cases piece with
    | plain c =>
      intro heq
      exact hvalid.2.1 (Option.some.inj heq)
    | quote =>
      intro heq
      exact absurd (Option.some.inj heq) (by decide)
    | backslash =>
      intro heq
      exact absurd (Option.some.inj heq) (by decide)
    | escaped units codes =>
      obtain ⟨code, rest, rfl⟩ := List.exists_cons_of_ne_nil hvalid.1
      intro heq
      exact absurd (Option.some.inj heq) (by decide)

theorem unescape_quotes {pieces : List PathPiece} (h : ∀ piece ∈ pieces, piece.Valid) :
    unescape SuppressionDiff.quote (pieces.flatMap PathPiece.print) =
      pieces.flatMap PathPiece.quotesOnly := by
  induction pieces with
  | nil => rfl
  | cons piece pieces ih =>
    rw [List.forall_mem_cons] at h
    rw [List.flatMap_cons, List.flatMap_cons, ← ih h.2]
    cases piece with
    | plain c => exact unescape_cons h.1.2.2 _ _
    | quote => exact unescape_pair _ _
    | backslash =>
      have hsecond : (SuppressionDiff.backslash :: pieces.flatMap PathPiece.print).head? ≠
          some SuppressionDiff.quote := fun heq => absurd (Option.some.inj heq) (by decide)
      exact (unescape_backslash hsecond).trans
        (congrArg (List.cons _) (unescape_backslash (print_head h.2)))
    | escaped units codes => exact unescape_codes (.inr rfl) h.1.2.2 _

theorem unescape_backslashes {pieces : List PathPiece} (h : ∀ piece ∈ pieces, piece.Valid) :
    unescape SuppressionDiff.backslash (pieces.flatMap PathPiece.quotesOnly) =
      pieces.flatMap PathPiece.decoded := by
  induction pieces with
  | nil => rfl
  | cons piece pieces ih =>
    rw [List.forall_mem_cons] at h
    rw [List.flatMap_cons, List.flatMap_cons, ← ih h.2]
    cases piece with
    | plain c => exact unescape_cons h.1.2.2 _ _
    | quote => exact unescape_cons (by decide) _ _
    | backslash => exact unescape_pair _ _
    | escaped units codes => exact unescape_codes (.inl rfl) h.1.2.2 _

/-! ## What the decoding loses -/

theorem decoded_eq {pieces : List PathPiece}
    (h : ∀ units codes, PathPiece.escaped units codes ∉ pieces) :
    pieces.flatMap PathPiece.decoded = pathText pieces := by
  refine List.flatMap_congr fun piece hpiece => ?_
  cases piece with
  | plain c => rfl
  | quote => rfl
  | backslash => rfl
  | escaped units codes => exact absurd hpiece (h units codes)

/-- An escape that is not decoded leaves a backslash that the path does not have. -/
theorem count_decoded {pieces : List PathPiece} (h : ∀ piece ∈ pieces, piece.Valid) :
    (pathText pieces).count SuppressionDiff.backslash ≤
      (pieces.flatMap PathPiece.decoded).count SuppressionDiff.backslash ∧
    ∀ units codes, PathPiece.escaped units codes ∈ pieces →
      (pathText pieces).count SuppressionDiff.backslash <
        (pieces.flatMap PathPiece.decoded).count SuppressionDiff.backslash := by
  induction pieces with
  | nil => exact ⟨Nat.le_refl _, fun _ _ hmem => absurd hmem List.not_mem_nil⟩
  | cons piece pieces ih =>
    rw [List.forall_mem_cons] at h
    obtain ⟨hle, hlt⟩ := ih h.2
    have hpiece : piece.units.count SuppressionDiff.backslash ≤
        piece.decoded.count SuppressionDiff.backslash ∧ ∀ units codes, piece = .escaped units codes →
          piece.units.count SuppressionDiff.backslash <
            piece.decoded.count SuppressionDiff.backslash := by
      cases piece with
      | plain c => exact ⟨Nat.le_refl _, fun _ _ heq => by cases heq⟩
      | quote => exact ⟨Nat.le_refl _, fun _ _ heq => by cases heq⟩
      | backslash => exact ⟨Nat.le_refl _, fun _ _ heq => by cases heq⟩
      | escaped units codes =>
        have hzero : units.count SuppressionDiff.backslash = 0 := List.count_eq_zero.2 h.1.2.1
        obtain ⟨code, rest, rfl⟩ := List.exists_cons_of_ne_nil h.1.1
        have hpos : 0 < (PathPiece.escaped units (code :: rest)).decoded.count
            SuppressionDiff.backslash := List.count_pos_iff.2 List.mem_cons_self
        rw [PathPiece.units, hzero]
        exact ⟨Nat.zero_le _, fun _ _ _ => hpos⟩
    rw [pathText] at hle hlt ⊢
    rw [List.flatMap_cons, List.flatMap_cons, List.count_append, List.count_append]
    refine ⟨Nat.add_le_add hpiece.1 hle, fun units codes hmem => ?_⟩
    rcases List.mem_cons.1 hmem with heq | hmem
    · exact Nat.add_lt_add_of_lt_of_le (hpiece.2 units codes heq.symm) hle
    · exact Nat.add_lt_add_of_le_of_lt hpiece.1 (hlt units codes hmem)

/-! ## The path of a new file -/

theorem dropTab_of_notMem {s : JsString} (h : tab ∉ s) : dropTab s = s := by
  induction s with
  | nil => rfl
  | cons c s ih =>
    rw [List.mem_cons, not_or] at h
    rw [dropTab, if_neg (fun heq => h.1 heq.1.symm), ih h.2]

theorem dropTab_tab {s : JsString} (h : tab ∉ s) : dropTab (s ++ [tab]) = s := by
  induction s with
  | nil => rfl
  | cons c s ih =>
    rw [List.mem_cons, not_or] at h
    rw [List.cons_append, dropTab, if_neg (fun heq => h.1 heq.1.symm), ih h.2]

theorem prefix_units (diffPrefix : DiffPrefix) : ∀ c ∈ diffPrefix.text,
    0x20 ≤ c ∧ c ≠ SuppressionDiff.quote ∧ c ≠ SuppressionDiff.backslash ∧
      isWhiteSpace c = false := by
  have hall : diffPrefix.text.all (fun c => decide (0x20 ≤ c ∧ c ≠ SuppressionDiff.quote ∧
      c ≠ SuppressionDiff.backslash ∧ isWhiteSpace c = false)) = true := by
    cases diffPrefix with
    | standard => decide
    | noPrefix => decide
    | mnemonic => decide
  exact fun c hc => of_decide_eq_true (List.all_eq_true.1 hall c hc)

theorem piece_print_units {piece : PathPiece} (h : piece.Valid) {c : UInt16} (hc : c ∈ piece.print) :
    0x20 ≤ c := by
  cases piece with
  | plain d =>
    rw [List.mem_singleton.1 hc]
    exact h.1
  | quote =>
    simp only [PathPiece.print, List.mem_cons, List.not_mem_nil, or_false] at hc
    rcases hc with rfl | rfl
    · decide
    · decide
  | backslash =>
    simp only [PathPiece.print, List.mem_cons, List.not_mem_nil, or_false] at hc
    rcases hc with rfl | rfl
    · decide
    · decide
  | escaped units codes =>
    obtain ⟨code, hcode, hmem⟩ := List.mem_flatMap.1 hc
    rcases List.mem_cons.1 hmem with rfl | hmem
    · decide
    · have hunit := h.2.2 code hcode
      rw [isPathCode, Bool.and_eq_true] at hunit
      have hunit := List.all_eq_true.1 hunit.2 c hmem
      have hdigit : (0x20 : UInt16) ≤ 0x30 := by decide
      have halpha : (0x20 : UInt16) ≤ 0x61 := by decide
      rw [isDigit, isLowerAlpha, Bool.or_eq_true, Bool.and_eq_true, Bool.and_eq_true,
        decide_eq_true_eq, decide_eq_true_eq] at hunit
      rcases hunit with hunit | hunit
      · exact UInt16.le_trans hdigit hunit.1
      · exact UInt16.le_trans halpha (of_decide_eq_true hunit.1)

namespace PrintedPath

variable (diffPrefix : DiffPrefix) (printed : PrintedPath)

/-- The path as it is printed, without the tab. -/
def body : JsString :=
  let text := diffPrefix.text ++ printed.pieces.flatMap PathPiece.print
  if printed.inQuotes then SuppressionDiff.quote :: text ++ [SuppressionDiff.quote] else text

theorem body_units {c : UInt16} (hc : c ∈ printed.body diffPrefix) : 0x20 ≤ c := by
  have htext (hc : c ∈ diffPrefix.text ++ printed.pieces.flatMap PathPiece.print) : 0x20 ≤ c := by
    rcases List.mem_append.1 hc with hc | hc
    · exact (prefix_units diffPrefix c hc).1
    · obtain ⟨piece, hpiece, hmem⟩ := List.mem_flatMap.1 hc
      exact piece_print_units (printed.valid piece hpiece) hmem
  rw [body] at hc
  split at hc
  · rw [List.cons_append, List.mem_cons, List.mem_append, List.mem_singleton] at hc
    rcases hc with rfl | hc | rfl
    · decide
    · exact htext hc
    · decide
  · exact htext hc

theorem tab_notMem_body : tab ∉ printed.body diffPrefix := fun h =>
  absurd (printed.body_units diffPrefix h) (by decide)

theorem print_units {c : UInt16} (hc : c ∈ printed.print diffPrefix) : c = tab ∨ 0x20 ≤ c := by
  have hprint : printed.print diffPrefix =
      printed.body diffPrefix ++ if printed.tabbed then [tab] else [] := rfl
  rw [hprint, List.mem_append] at hc
  rcases hc with hc | hc
  · exact .inr (printed.body_units diffPrefix hc)
  · split at hc
    · exact .inl (List.mem_singleton.1 hc)
    · cases hc

theorem dropTab_print : dropTab (printed.print diffPrefix) = printed.body diffPrefix := by
  have hprint : printed.print diffPrefix =
      printed.body diffPrefix ++ if printed.tabbed then [tab] else [] := rfl
  rw [hprint]
  split
  · exact dropTab_tab (printed.tab_notMem_body diffPrefix)
  · rw [List.append_nil, dropTab_of_notMem (printed.tab_notMem_body diffPrefix)]

variable {printed}

theorem bare_text (h : printed.inQuotes = false) :
    printed.pieces.flatMap PathPiece.print = printed.path := by
  refine List.flatMap_congr fun piece hpiece => ?_
  obtain ⟨c, rfl⟩ := printed.bare h piece hpiece
  rfl

/-- What is read of a path before its prefix is taken off. -/
def read (diffPrefix : DiffPrefix) (printed : PrintedPath) : JsString :=
  diffPrefix.text ++ if printed.inQuotes then printed.pieces.flatMap PathPiece.decoded
    else printed.path.rdropWhile isWhiteSpace

theorem rdropWhile_prefix (text : JsString) :
    (diffPrefix.text ++ text).rdropWhile isWhiteSpace =
      diffPrefix.text ++ text.rdropWhile isWhiteSpace := by
  induction text using List.reverseRecOn with
  | nil =>
    rw [List.append_nil, List.rdropWhile_nil, List.append_nil, List.rdropWhile_eq_self_iff]
    intro hne hlast
    rw [(prefix_units diffPrefix _ (List.getLast_mem hne)).2.2.2] at hlast
    exact Bool.false_ne_true hlast
  | append_singleton text c ih =>
    rw [← List.append_assoc, List.rdropWhile_concat, List.rdropWhile_concat]
    split
    · exact ih
    · rw [List.append_assoc]

theorem parse_print (changedPaths : List JsString) :
    parseNewFilePath (js "+++ " ++ printed.print diffPrefix) changedPaths =
      some (stripDiffPathPrefix (printed.read diffPrefix) changedPaths) := by
  have hdrop : (js "+++ " ++ printed.print diffPrefix).drop 4 = printed.print diffPrefix :=
    List.drop_left' rfl
  rw [parseNewFilePath, hdrop, dropTab_print, body, read]
  cases hquotes : printed.inQuotes with
  | true =>
    have htrim : (SuppressionDiff.quote :: (diffPrefix.text ++ printed.pieces.flatMap PathPiece.print) ++
        [SuppressionDiff.quote]).rdropWhile isWhiteSpace =
          SuppressionDiff.quote :: (diffPrefix.text ++ printed.pieces.flatMap PathPiece.print) ++
            [SuppressionDiff.quote] := by
      rw [List.rdropWhile_concat_neg _ _ _ (by decide)]
    have hprefix : SuppressionDiff.backslash ∉ diffPrefix.text := fun h =>
      (prefix_units diffPrefix _ h).2.2.1 rfl
    have hnull : SuppressionDiff.quote :: (diffPrefix.text ++ printed.pieces.flatMap PathPiece.print) ++
        [SuppressionDiff.quote] ≠ js "/dev/null" := fun heq =>
      absurd (congrArg List.head? heq) (by rw [List.cons_append, List.head?_cons]; decide)
    have hunquote : unquoteDiffPath (SuppressionDiff.quote ::
        (diffPrefix.text ++ printed.pieces.flatMap PathPiece.print) ++ [SuppressionDiff.quote]) =
          diffPrefix.text ++ printed.pieces.flatMap PathPiece.decoded := by
      have hquoted : (!startsWith (SuppressionDiff.quote :: (diffPrefix.text ++
          printed.pieces.flatMap PathPiece.print) ++ [SuppressionDiff.quote]) [SuppressionDiff.quote] ||
            !endsWith (SuppressionDiff.quote :: (diffPrefix.text ++
              printed.pieces.flatMap PathPiece.print) ++ [SuppressionDiff.quote])
                [SuppressionDiff.quote]) = false := by
        rw [Bool.or_eq_false_iff, Bool.not_eq_false', Bool.not_eq_false', startsWith_iff, endsWith_iff]
        exact ⟨⟨_, rfl⟩, List.suffix_append _ _⟩
      rw [unquoteDiffPath, if_neg (by rw [hquoted]; exact Bool.false_ne_true), List.cons_append,
        List.tail_cons, List.dropLast_concat, unescape_append hprefix, unescape_append hprefix,
        unescape_quotes printed.valid, unescape_backslashes printed.valid]
    simp only [if_true]
    rw [htrim, if_neg hnull, hunquote]
  | false =>
    simp only [Bool.false_eq_true, if_false]
    rw [bare_text hquotes, rdropWhile_prefix]
    have hunit : ∀ c ∈ diffPrefix.text ++ printed.path.rdropWhile isWhiteSpace,
        c ≠ SuppressionDiff.quote := by
      intro c hc
      rcases List.mem_append.1 hc with hc | hc
      · exact (prefix_units diffPrefix c hc).2.1
      · obtain ⟨piece, hpiece, hmem⟩ := List.mem_flatMap.1 ((List.rdropWhile_prefix _ _).subset hc)
        have hvalid := printed.valid piece hpiece
        obtain ⟨d, rfl⟩ := printed.bare hquotes piece hpiece
        rw [List.mem_singleton.1 hmem]
        exact hvalid.2.1
    have hunquote : unquoteDiffPath (diffPrefix.text ++ printed.path.rdropWhile isWhiteSpace) =
        diffPrefix.text ++ printed.path.rdropWhile isWhiteSpace := by
      rw [unquoteDiffPath, if_pos]
      rw [Bool.or_eq_true, Bool.not_eq_true']
      left
      rw [← Bool.not_eq_true, startsWith_iff]
      rintro ⟨rest, heq⟩
      exact hunit SuppressionDiff.quote (heq ▸ List.mem_cons_self) rfl
    have hnull : diffPrefix.text ++ printed.path.rdropWhile isWhiteSpace ≠ js "/dev/null" := by
      intro heq
      cases diffPrefix with
      | standard =>
        have hhead : some (unit 'b') = some (unit '/') := congrArg List.head? heq
        exact absurd (Option.some.inj hhead) (by decide)
      | mnemonic =>
        have hhead : some (unit 'w') = some (unit '/') := congrArg List.head? heq
        exact absurd (Option.some.inj hhead) (by decide)
      | noPrefix =>
        obtain ⟨rest, hrest⟩ := List.rdropWhile_prefix isWhiteSpace printed.path
        change printed.path.rdropWhile isWhiteSpace = _ at heq
        rw [heq] at hrest
        exact printed.relative.2 (congrArg List.head? hrest.symm)
    rw [hunquote, if_neg hnull]

/-- What is read is the path after its prefix where nothing is lost. -/
theorem read_eq (h : ∀ units codes, PathPiece.escaped units codes ∉ printed.pieces)
    (htrimmed : printed.inQuotes = false → ∀ c, printed.path.getLast? = some c →
      isWhiteSpace c = false) : printed.read diffPrefix = diffPrefix.text ++ printed.path := by
  rw [read]
  cases hquotes : printed.inQuotes with
  | true => rw [if_pos rfl, decoded_eq h, path]
  | false =>
    have hself : printed.path.rdropWhile isWhiteSpace = printed.path := by
      rw [List.rdropWhile_eq_self_iff]
      intro hne hlast
      rw [htrimmed hquotes _ (List.getLast?_eq_some_getLast hne)] at hlast
      exact Bool.false_ne_true hlast
    rw [if_neg Bool.false_ne_true, hself]

/-- What stripping gives: the value, or the value without the `a/` or `b/` that it starts with. -/
theorem strip_cases (value : JsString) (changedPaths : List JsString) :
    stripDiffPathPrefix value changedPaths = value ∨
      ∃ start, (start = js "a/" ∨ start = js "b/") ∧
        value = start ++ stripDiffPathPrefix value changedPaths := by
  rw [stripDiffPathPrefix]
  split
  · exact .inl rfl
  · split
    · next hprefix =>
      rw [Bool.or_eq_true, startsWith_iff, startsWith_iff] at hprefix
      split
      · right
        rcases hprefix with ⟨rest, rfl⟩ | ⟨rest, rfl⟩
        · exact ⟨js "a/", .inl rfl, rfl⟩
        · exact ⟨js "b/", .inr rfl, rfl⟩
      · exact .inl rfl
    · exact .inl rfl

theorem count_strip (value : JsString) (changedPaths : List JsString) :
    (stripDiffPathPrefix value changedPaths).count SuppressionDiff.backslash =
      value.count SuppressionDiff.backslash := by
  rcases strip_cases value changedPaths with heq | ⟨start, hstart, heq⟩
  · rw [heq]
  · have hzero : start.count SuppressionDiff.backslash = 0 := by
      rcases hstart with rfl | rfl
      · decide
      · decide
    conv_rhs => rw [heq, List.count_append, hzero, Nat.zero_add]

theorem getLast?_strip {value : JsString} {changedPaths : List JsString}
    (h : stripDiffPathPrefix value changedPaths ≠ []) :
    (stripDiffPathPrefix value changedPaths).getLast? = value.getLast? := by
  rcases strip_cases value changedPaths with heq | ⟨start, -, heq⟩
  · rw [heq]
  · conv_rhs => rw [heq, List.getLast?_append_of_ne_nil _ h]

/-- An escape, or a white space at the end, is not recovered. -/
theorem read_of_strip {changedPaths : List JsString}
    (h : stripDiffPathPrefix (printed.read diffPrefix) changedPaths = printed.path) :
    (∀ units codes, PathPiece.escaped units codes ∉ printed.pieces) ∧
      (printed.inQuotes = false → ∀ c, printed.path.getLast? = some c → isWhiteSpace c = false) := by
  have hcount := count_strip (printed.read diffPrefix) changedPaths
  have hne : stripDiffPathPrefix (printed.read diffPrefix) changedPaths ≠ [] := by
    rw [h]
    exact printed.relative.1
  have hlast := getLast?_strip hne
  rw [h] at hcount hlast
  rw [read] at hcount hlast
  cases hquotes : printed.inQuotes with
  | true =>
    refine ⟨fun units codes hmem => ?_, fun hbare => by cases hbare⟩
    have hprefix : diffPrefix.text.count SuppressionDiff.backslash = 0 :=
      List.count_eq_zero.2 fun hmem => (prefix_units diffPrefix _ hmem).2.2.1 rfl
    rw [hquotes, if_pos rfl, List.count_append, hprefix, Nat.zero_add] at hcount
    exact absurd hcount ((count_decoded printed.valid).2 units codes hmem).ne
  | false =>
    rw [hquotes, if_neg Bool.false_ne_true, ← rdropWhile_prefix] at hlast
    refine ⟨fun units codes hmem => ?_, fun _ c hc => ?_⟩
    · obtain ⟨c, heq⟩ := printed.bare hquotes _ hmem
      cases heq
    · rw [hc] at hlast
      have hne : (diffPrefix.text ++ printed.path).rdropWhile isWhiteSpace ≠ [] := by
        intro hnil
        rw [hnil] at hlast
        cases hlast
      have hnot := List.rdropWhile_last_not isWhiteSpace _ hne
      rw [List.getLast?_eq_some_getLast hne] at hlast
      rw [← Option.some.inj hlast] at hnot
      exact eq_false_of_ne_true hnot

/-- The path that is read of its line is the path exactly where nothing is lost. -/
theorem parse_iff {changedPaths : List JsString} (hchanged : printed.path ∈ changedPaths) :
    parseNewFilePath (js "+++ " ++ printed.print diffPrefix) changedPaths = some printed.path ↔
      printed.Recovered diffPrefix changedPaths := by
  have hlength (text : JsString) (htext : text ≠ []) : text ++ printed.path ≠ printed.path :=
    fun heq => htext (List.self_eq_append_left.1 heq.symm)
  rw [parse_print, Option.some.injEq]
  constructor
  · intro h
    obtain ⟨hunescaped, htrimmed⟩ := read_of_strip diffPrefix h
    refine ⟨hunescaped, htrimmed, ?_⟩
    rw [read_eq diffPrefix hunescaped htrimmed] at h
    cases diffPrefix with
    | standard =>
      intro hmem
      rw [stripDiffPathPrefix, DiffPrefix.text, if_pos hmem] at h
      exact hlength _ (by decide) h
    | noPrefix => trivial
    | mnemonic =>
      rcases strip_cases (DiffPrefix.mnemonic.text ++ printed.path) changedPaths with
        heq | ⟨start, hstart, heq⟩
      · exact hlength _ (by decide) (heq.symm.trans h)
      · rcases hstart with rfl | rfl
        · have hhead : some (unit 'w') = some (unit 'a') := congrArg List.head? heq
          exact absurd (Option.some.inj hhead) (by decide)
        · have hhead : some (unit 'w') = some (unit 'b') := congrArg List.head? heq
          exact absurd (Option.some.inj hhead) (by decide)
  · intro h
    rw [read_eq diffPrefix h.unescaped h.trimmed]
    have hstripped := h.stripped
    cases diffPrefix with
    | standard =>
      have hdrop : (js "b/" ++ printed.path).drop 2 = printed.path := List.drop_left' rfl
      have hstarts : (startsWith (js "b/" ++ printed.path) (js "a/") ||
          startsWith (js "b/" ++ printed.path) (js "b/")) = true := by
        rw [Bool.or_eq_true, startsWith_iff, startsWith_iff]
        exact .inr (List.prefix_append _ _)
      rw [stripDiffPathPrefix, DiffPrefix.text, if_neg hstripped, if_pos hstarts, hdrop,
        if_pos hchanged]
    | noPrefix =>
      rw [stripDiffPathPrefix, DiffPrefix.text, List.nil_append, if_pos hchanged]
    | mnemonic => exact absurd hstripped id

end PrintedPath

end Musi.DriftAi
