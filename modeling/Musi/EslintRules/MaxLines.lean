import Mathlib.Algebra.Order.Ring.Int
import Musi.Js.Text

namespace Musi.EslintRules
open Musi.Js
set_option autoImplicit true

/-! ## Source code -/

structure Position where
  line : Int
  column : Int
  deriving DecidableEq

namespace Position

def le (a b : Position) : Prop := a.line < b.line ∨ a.line = b.line ∧ a.column ≤ b.column

def lt (a b : Position) : Prop := a.line < b.line ∨ a.line = b.line ∧ a.column < b.column

theorem le_line {a b : Position} (h : a.le b) : a.line ≤ b.line := by
  rcases h with h | h
  · exact h.le
  · exact h.1.le

theorem lt_line {a b : Position} (h : a.lt b) : a.line ≤ b.line := by
  rcases h with h | h
  · exact h.le
  · exact h.1.le

end Position

/-- A token or a comment, from its first position to the one behind it. -/
structure Token where
  isComment : Bool
  start : Position
  stop : Position
  deriving DecidableEq

/-- The tokens and comments are in the order of the text. -/
structure SourceCode where
  lines : List JsString
  tokens : List Token

/-! ## The count -/

def lineRange (start stop : Int) : List Int :=
  (List.range (stop - start).toNat).map fun index : Nat => start + (index : Int)

def isSameLine (left right : Token) : Bool := left.stop.line = right.start.line

/-- The nearest token that is no comment, of the tokens on one side, nearest first. -/
def adjacentCodeToken (side : List Token) : Option Token := side.find? fun token => !token.isComment

/-- A comment where it stands: the tokens before it, the last of them first, and those after it. -/
structure PlacedComment where
  before : List Token
  comment : Token
  after : List Token

def commentOnlyLines (placed : PlacedComment) : List Int :=
  let start := if (adjacentCodeToken placed.before).any (isSameLine · placed.comment) then
    placed.comment.start.line + 1 else placed.comment.start.line
  let stop := if (adjacentCodeToken placed.after).any (isSameLine placed.comment ·) then
    placed.comment.stop.line - 1 else placed.comment.stop.line
  if start ≤ stop then lineRange start (stop + 1) else []

def commentsFrom (before : List Token) : List Token → List PlacedComment
  | [] => []
  | token :: tokens =>
    if token.isComment then ⟨before, token, tokens⟩ :: commentsFrom (token :: before) tokens
    else commentsFrom (token :: before) tokens

def getAllComments (source : SourceCode) : List PlacedComment := commentsFrom [] source.tokens

structure NumberedLine where
  lineNumber : Int
  text : JsString
  deriving DecidableEq

def numberedLines (source : SourceCode) : List NumberedLine :=
  source.lines.zipIdx.map fun e => ⟨e.2 + 1, e.1⟩

/-- Without the phantom line behind the last line break. -/
def dropPhantom (lines : List NumberedLine) : List NumberedLine :=
  if 1 < lines.length ∧ lines.getLast?.any (fun line => line.text = []) then lines.dropLast else lines

def effectiveLines (source : SourceCode) (skipBlankLines skipComments : Bool) : List NumberedLine :=
  let lines := dropPhantom (numberedLines source)
  let lines := if skipBlankLines then lines.filter fun line => trim line.text ≠ [] else lines
  if skipComments then
    let commentLines := (getAllComments source).flatMap commentOnlyLines
    lines.filter fun line => line.lineNumber ∉ commentLines
  else lines

/-! ## Tokens that cover the text -/

/-- Tokens and comments are in order and do not overlap, and no other text is left than blanks. -/
structure SourceCode.Tokenized (source : SourceCode) : Prop where
  proper : ∀ token ∈ source.tokens, token.start.le token.stop
  ordered : source.tokens.Pairwise fun a b => a.stop.le b.start
  covered : ∀ (index : Nat) line, source.lines[index]? = some line → ∀ (column : Nat) c,
    (line)[column]? = some c →
      isWhiteSpace c = false → ∃ token ∈ source.tokens, token.start.le ⟨index + 1, column⟩ ∧
        Position.lt ⟨index + 1, column⟩ token.stop

/-- Some part of the token lies on the line. -/
def Token.on (token : Token) (line : Int) : Bool :=
  token.start.line ≤ line && line ≤ token.stop.line

theorem Token.on_iff {token : Token} {line : Int} :
    token.on line = true ↔ token.start.line ≤ line ∧ line ≤ token.stop.line := by
  rw [Token.on, Bool.and_eq_true, decide_eq_true_eq, decide_eq_true_eq]

theorem mem_lineRange {start stop line : Int} :
    line ∈ lineRange start stop ↔ start ≤ line ∧ line < stop := by
  rw [lineRange, List.mem_map]
  constructor
  · rintro ⟨index, hindex, rfl⟩
    rw [List.mem_range] at hindex
    omega
  · rintro ⟨hstart, hstop⟩
    exact ⟨(line - start).toNat, List.mem_range.2 (by omega), by omega⟩

theorem mem_commentsFrom {placed : PlacedComment} {before tokens : List Token} :
    placed ∈ commentsFrom before tokens ↔ ∃ earlier later, tokens = earlier ++ placed.comment :: later ∧
      placed.comment.isComment = true ∧ placed.before = earlier.reverse ++ before ∧
      placed.after = later := by
  induction tokens generalizing before with
  | nil =>
    refine iff_of_false List.not_mem_nil ?_
    rintro ⟨earlier, later, h, -⟩
    exact absurd h.symm (List.append_ne_nil_of_right_ne_nil _ (List.cons_ne_nil _ _))
  | cons token tokens ih =>
    have hcons : (∃ earlier later, token :: tokens = earlier ++ placed.comment :: later ∧
        placed.comment.isComment = true ∧ placed.before = earlier.reverse ++ before ∧
        placed.after = later) ↔
        (token.isComment = true ∧ placed = ⟨before, token, tokens⟩) ∨
          ∃ earlier later, tokens = earlier ++ placed.comment :: later ∧
            placed.comment.isComment = true ∧ placed.before = earlier.reverse ++ token :: before ∧
            placed.after = later := by
      constructor
      · rintro ⟨earlier, later, h, hcomment, hbefore, hafter⟩
        cases earlier with
        | nil =>
          rw [List.nil_append, List.cons.injEq] at h
          obtain ⟨rfl, rfl⟩ := h
          obtain ⟨placedBefore, comment, after⟩ := placed
          simp only [List.reverse_nil, List.nil_append] at hbefore hafter
          subst hbefore hafter
          exact .inl ⟨hcomment, rfl⟩
        | cons first earlier =>
          rw [List.cons_append, List.cons.injEq] at h
          obtain ⟨rfl, rfl⟩ := h
          rw [List.reverse_cons, List.append_assoc, List.singleton_append] at hbefore
          exact .inr ⟨earlier, later, rfl, hcomment, hbefore, hafter⟩
      · rintro (⟨hcomment, rfl⟩ | ⟨earlier, later, rfl, hcomment, hbefore, hafter⟩)
        · exact ⟨[], tokens, rfl, hcomment, rfl, rfl⟩
        · refine ⟨token :: earlier, later, rfl, hcomment, ?_, hafter⟩
          rw [List.reverse_cons, List.append_assoc, List.singleton_append]
          exact hbefore
    rw [commentsFrom, hcons]
    split
    · next hcomment => rw [List.mem_cons, ih, and_iff_right hcomment]
    · next hcode => rw [ih, or_iff_right fun h => hcode h.1]

section
variable {tokens : List Token}

/-- Nothing of the code before a place goes further than the nearest token there. -/
theorem adjacentCodeToken_before (hproper : ∀ token ∈ tokens, token.start.line ≤ token.stop.line)
    (hordered : tokens.Pairwise fun a b => a.stop.line ≤ b.start.line) {code : Token}
    (hcode : code ∈ tokens) (hnot : code.isComment = false) :
    ∃ nearest ∈ tokens, adjacentCodeToken tokens.reverse = some nearest ∧
      nearest.isComment = false ∧ code.stop.line ≤ nearest.stop.line := by
  have hfound : (adjacentCodeToken tokens.reverse).isSome = true := by
    rw [adjacentCodeToken, List.find?_isSome]
    exact ⟨code, List.mem_reverse.2 hcode, by rw [hnot]; rfl⟩
  obtain ⟨nearest, hnearest⟩ := Option.isSome_iff_exists.1 hfound
  have hfind := hnearest
  rw [adjacentCodeToken, List.find?_eq_some_iff_append] at hfind
  obtain ⟨hcodeNearest, between, rest, hsplit, hcomments⟩ := hfind
  have htokens : tokens = rest.reverse ++ nearest :: between.reverse := by
    rw [← List.reverse_reverse tokens, hsplit, List.reverse_append, List.reverse_cons,
      List.append_assoc, List.singleton_append]
  have hmem : nearest ∈ tokens := by
    rw [htokens]
    exact List.mem_append_right _ List.mem_cons_self
  refine ⟨nearest, hmem, hnearest, by rwa [Bool.not_eq_true'] at hcodeNearest, ?_⟩
  rw [htokens, List.pairwise_append] at hordered
  rw [htokens, List.mem_append, List.mem_cons] at hcode
  rcases hcode with hcode | rfl | hcode
  · exact (hordered.2.2 code hcode nearest List.mem_cons_self).trans (hproper nearest hmem)
  · exact Int.le_refl _
  · have hcomment := hcomments code (List.mem_reverse.1 hcode)
    rw [hnot] at hcomment
    cases hcomment

theorem adjacentCodeToken_after (hproper : ∀ token ∈ tokens, token.start.line ≤ token.stop.line)
    (hordered : tokens.Pairwise fun a b => a.stop.line ≤ b.start.line) {code : Token}
    (hcode : code ∈ tokens) (hnot : code.isComment = false) :
    ∃ nearest ∈ tokens, adjacentCodeToken tokens = some nearest ∧
      nearest.isComment = false ∧ nearest.start.line ≤ code.start.line := by
  have hfound : (adjacentCodeToken tokens).isSome = true := by
    rw [adjacentCodeToken, List.find?_isSome]
    exact ⟨code, hcode, by rw [hnot]; rfl⟩
  obtain ⟨nearest, hnearest⟩ := Option.isSome_iff_exists.1 hfound
  have hfind := hnearest
  rw [adjacentCodeToken, List.find?_eq_some_iff_append] at hfind
  obtain ⟨hcodeNearest, between, rest, htokens, hcomments⟩ := hfind
  have hmem : nearest ∈ tokens := by
    rw [htokens]
    exact List.mem_append_right _ List.mem_cons_self
  refine ⟨nearest, hmem, hnearest, by rwa [Bool.not_eq_true'] at hcodeNearest, ?_⟩
  rw [htokens, List.pairwise_append, List.pairwise_cons] at hordered
  rw [htokens, List.mem_append, List.mem_cons] at hcode
  rcases hcode with hcode | rfl | hcode
  · have hcomment := hcomments code hcode
    rw [hnot] at hcomment
    cases hcomment
  · exact Int.le_refl _
  · exact (hproper nearest hmem).trans (hordered.2.1.1 code hcode)

theorem adjacentCodeToken_spec {nearest : Token} (h : adjacentCodeToken tokens = some nearest) :
    nearest ∈ tokens ∧ nearest.isComment = false := by
  rw [adjacentCodeToken] at h
  have hcode := List.find?_some h
  rw [Bool.not_eq_true'] at hcode
  exact ⟨List.mem_of_find?_eq_some h, hcode⟩

end

theorem mem_commentOnlyLines {placed : PlacedComment} {line : Int} :
    line ∈ commentOnlyLines placed ↔ placed.comment.on line = true ∧
      ¬(line = placed.comment.start.line ∧
        (adjacentCodeToken placed.before).any (isSameLine · placed.comment) = true) ∧
      ¬(line = placed.comment.stop.line ∧
        (adjacentCodeToken placed.after).any (isSameLine placed.comment ·) = true) := by
  have hrange (start stop : Int) : line ∈ (if start ≤ stop then lineRange start (stop + 1) else []) ↔
      start ≤ line ∧ line ≤ stop := by
    split
    · rw [mem_lineRange]
      omega
    · next hempty =>
      refine iff_of_false List.not_mem_nil ?_
      omega
  rw [Token.on_iff, commentOnlyLines, hrange]
  cases (adjacentCodeToken placed.before).any (isSameLine · placed.comment) with
  | true =>
    cases (adjacentCodeToken placed.after).any (isSameLine placed.comment ·) with
    | true =>
      simp only [if_true, and_true]
      omega
    | false =>
      simp only [if_true, and_true, Bool.false_eq_true, if_false, and_false, not_false_eq_true]
      omega
  | false =>
    cases (adjacentCodeToken placed.after).any (isSameLine placed.comment ·) with
    | true =>
      simp only [if_true, and_true, Bool.false_eq_true, if_false, and_false, not_false_eq_true, true_and]
      omega
    | false => simp only [Bool.false_eq_true, if_false, and_false, not_false_eq_true, and_true]

/-- A line on which something lies is taken out exactly if no code token lies there. -/
theorem notMem_commentLines {source : SourceCode} (h : source.Tokenized) {line : Int}
    (hline : ∃ token ∈ source.tokens, token.on line = true) :
    line ∉ (getAllComments source).flatMap commentOnlyLines ↔
      ∃ token ∈ source.tokens, token.isComment = false ∧ token.on line = true := by
  have hproper : ∀ token ∈ source.tokens, token.start.line ≤ token.stop.line :=
    fun token htoken => Position.le_line (h.proper token htoken)
  have hordered : source.tokens.Pairwise fun a b => a.stop.line ≤ b.start.line :=
    h.ordered.imp fun hle => Position.le_line hle
  rw [List.mem_flatMap]
  constructor
  · intro hnot
    obtain ⟨token, htoken, hon⟩ := hline
    by_contra hnone
    have hcomment : token.isComment = true := by
      by_contra hcode
      exact hnone ⟨token, htoken, eq_false_of_ne_true hcode, hon⟩
    obtain ⟨earlier, later, hsplit⟩ := List.append_of_mem htoken
    have hplaced : (⟨earlier.reverse, token, later⟩ : PlacedComment) ∈ getAllComments source :=
      mem_commentsFrom.2 ⟨earlier, later, hsplit, hcomment, (List.append_nil _).symm, rfl⟩
    refine hnot ⟨_, hplaced, mem_commentOnlyLines.2 ⟨hon, ?_, ?_⟩⟩
    · rintro ⟨hstart, hany⟩
      obtain ⟨nearest, hnearest, hsame⟩ := (Option.any_eq_true _ _).1 hany
      obtain ⟨hmem, hcode⟩ := adjacentCodeToken_spec hnearest
      have hsource : nearest ∈ source.tokens := by
        rw [hsplit]
        exact List.mem_append_left _ (List.mem_reverse.1 hmem)
      have hstop : nearest.stop.line = token.start.line := of_decide_eq_true hsame
      have hle := hproper nearest hsource
      exact hnone ⟨nearest, hsource, hcode, Token.on_iff.2 (by simp only at hstart; omega)⟩
    · rintro ⟨hstop, hany⟩
      obtain ⟨nearest, hnearest, hsame⟩ := (Option.any_eq_true _ _).1 hany
      obtain ⟨hmem, hcode⟩ := adjacentCodeToken_spec hnearest
      have hsource : nearest ∈ source.tokens := by
        rw [hsplit]
        exact List.mem_append_right _ (List.mem_cons_of_mem _ hmem)
      have hstart : token.stop.line = nearest.start.line := of_decide_eq_true hsame
      have hle := hproper nearest hsource
      exact hnone ⟨nearest, hsource, hcode, Token.on_iff.2 (by simp only at hstop; omega)⟩
  · rintro ⟨code, hcode, hnot, hon⟩ ⟨placed, hplaced, hmem⟩
    obtain ⟨earlier, later, hsplit, hcomment, hbefore, hafter⟩ := mem_commentsFrom.1 hplaced
    obtain ⟨hcommentOn, hfirst, hlast⟩ := mem_commentOnlyLines.1 hmem
    rw [List.append_nil] at hbefore
    rw [Token.on_iff] at hon hcommentOn
    rw [hsplit, List.pairwise_append, List.pairwise_cons] at hordered
    rw [hsplit, List.forall_mem_append, List.forall_mem_cons] at hproper
    rw [hsplit, List.mem_append, List.mem_cons] at hcode
    rcases hcode with hcode | rfl | hcode
    · obtain ⟨nearest, hnearest, hfound, -, hreach⟩ :=
        adjacentCodeToken_before hproper.1 hordered.1 hcode hnot
      have hle := hordered.2.2 nearest hnearest placed.comment List.mem_cons_self
      refine hfirst ⟨by omega, ?_⟩
      rw [hbefore, hfound, Option.any_some, isSameLine, decide_eq_true_eq]
      omega
    · rw [hnot] at hcomment
      cases hcomment
    · obtain ⟨nearest, hnearest, hfound, -, hreach⟩ :=
        adjacentCodeToken_after hproper.2.2 hordered.2.1.2 hcode hnot
      have hle := hordered.2.1.1 nearest hnearest
      refine hlast ⟨by omega, ?_⟩
      rw [hafter, hfound, Option.any_some, isSameLine, decide_eq_true_eq]
      omega

/-! ## Exactness -/

/-- The phantom line is blank. -/
theorem filter_dropPhantom (lines : List NumberedLine) :
    (dropPhantom lines).filter (fun line => trim line.text ≠ []) =
      lines.filter fun line => trim line.text ≠ [] := by
  rw [dropPhantom]
  split
  · next hphantom =>
    obtain ⟨last, hlast, htext⟩ := (Option.any_eq_true _ _).1 hphantom.2
    have hsplit : lines = lines.dropLast ++ [last] :=
      (List.dropLast_append_getLast? last hlast).symm
    have hblank : [last].filter (fun line => trim line.text ≠ []) = [] := by
      rw [List.filter_singleton, of_decide_eq_true htext]
      rfl
    rw [hsplit, List.filter_append, hblank, List.append_nil, List.dropLast_concat]
  · rfl

theorem exists_on_of_not_blank {source : SourceCode} (h : source.Tokenized) {line : NumberedLine}
    (hline : line ∈ numberedLines source) (hblank : trim line.text ≠ []) :
    ∃ token ∈ source.tokens, token.on line.lineNumber = true := by
  obtain ⟨⟨text, index⟩, hmem, rfl⟩ := List.mem_map.1 hline
  have hget : source.lines[index]? = some text := List.mem_zipIdx_iff_getElem?.1 hmem
  have hchar : ∃ c ∈ text, isWhiteSpace c = false := by
    by_contra hnone
    refine hblank ?_
    have hall : ∀ c ∈ text, isWhiteSpace c = true := by
      intro c hc
      by_contra hnot
      exact hnone ⟨c, hc, eq_false_of_ne_true hnot⟩
    have hdrop : text.dropWhile isWhiteSpace = [] := List.dropWhile_eq_nil_iff.2 hall
    rw [trim, hdrop]
    rfl
  obtain ⟨c, hc, hspace⟩ := hchar
  obtain ⟨column, hcolumn⟩ := List.getElem?_of_mem hc
  obtain ⟨token, htoken, hstart, hstop⟩ := h.covered index text hget column c hcolumn hspace
  exact ⟨token, htoken, Token.on_iff.2 ⟨Position.le_line hstart, Position.lt_line hstop⟩⟩

/-- What is counted is the lines that are not blank and have code on them. -/
theorem effectiveLines_exact {source : SourceCode} (h : source.Tokenized) :
    effectiveLines source true true = (numberedLines source).filter fun line =>
      trim line.text ≠ [] && source.tokens.any fun token => !token.isComment && token.on line.lineNumber := by
  rw [effectiveLines]
  simp only [if_true]
  rw [filter_dropPhantom, List.filter_filter]
  refine List.filter_congr fun line hline => ?_
  by_cases hblank : trim line.text = []
  · rw [decide_eq_false (not_not.2 hblank), Bool.and_false, Bool.false_and]
  · rw [decide_eq_true hblank, Bool.and_true, Bool.true_and, Bool.eq_iff_iff, decide_eq_true_eq,
      notMem_commentLines h (exists_on_of_not_blank h hline hblank), List.any_eq_true]
    simp only [Bool.and_eq_true, Bool.not_eq_true']

/-- A statement, and a comment that ends on the line of another. -/
def commentedSource : SourceCode where
  lines := [js "a", js "/*", js "*/b", []]
  tokens := [⟨false, ⟨1, 0⟩, ⟨1, 1⟩⟩, ⟨true, ⟨2, 0⟩, ⟨3, 2⟩⟩, ⟨false, ⟨3, 2⟩, ⟨3, 3⟩⟩]

theorem commentedSource_tokenized : commentedSource.Tokenized := by
  refine ⟨?_, ?_, fun index line hline column c hcolumn _ => ?_⟩
  · simp only [commentedSource, List.forall_mem_cons, List.not_mem_nil, false_imp_iff, implies_true,
      and_true, Position.le]
    decide
  · simp only [commentedSource, List.pairwise_cons, List.forall_mem_cons, List.not_mem_nil,
      false_imp_iff, implies_true, and_true, List.Pairwise.nil, Position.le]
    decide
  · simp only [commentedSource, List.exists_mem_cons_iff, List.not_mem_nil, false_and, exists_false,
      or_false, Position.le, Position.lt]
    match index, hline with
    | 0, hline =>
      cases hline
      have hlength : column < 1 := (List.getElem?_eq_some_iff.1 hcolumn).1
      omega
    | 1, hline =>
      cases hline
      have hlength : column < 2 := (List.getElem?_eq_some_iff.1 hcolumn).1
      omega
    | 2, hline =>
      cases hline
      have hlength : column < 3 := (List.getElem?_eq_some_iff.1 hcolumn).1
      omega
    | 3, hline =>
      cases hline
      cases hcolumn

theorem effectiveLines_exact_commented :
    effectiveLines commentedSource true true = [⟨1, js "a"⟩, ⟨3, js "*/b"⟩] :=
  (effectiveLines_exact commentedSource_tokenized).trans (by decide)

end Musi.EslintRules
