import Musi.Js.Joined
import Musi.Js.JsonLines
import Musi.System.Brackets
import Musi.LintRatchet.GitRail.InfoAttributes

namespace Musi.LintRatchet
open Musi.Js Musi.System
set_option autoImplicit true

/-! ## Lines and texts -/

theorem join_append {sep : JsString} {xs ys : List JsString} (hx : xs ≠ []) (hy : ys ≠ []) :
    join sep (xs ++ ys) = join sep xs ++ sep ++ join sep ys := by
  fun_induction join sep xs with
  | case1 => exact absurd rfl hx
  | case2 x =>
    cases ys with
    | nil => exact absurd rfl hy
    | cons y ys => rfl
  | case3 x x' xs ih =>
    rw [List.cons_append, List.cons_append, join, ← List.cons_append, ih (List.cons_ne_nil _ _)]
    simp only [List.append_assoc]

theorem lineFeed_notMem_attributeLines {text line : JsString} (h : line ∈ attributeLines text) :
    lineFeed ∉ line := by
  rw [attributeLines] at h
  split at h
  · exact notMem_splitOn (List.mem_of_mem_dropLast h)
  · exact notMem_splitOn h

/-- The text of some lines, each of them ended. -/
def fileText (lines : List JsString) : JsString :=
  if lines = [] then [] else join [lineFeed] lines ++ [lineFeed]

theorem attributeLines_fileText {lines : List JsString} (h : ∀ line ∈ lines, lineFeed ∉ line) :
    attributeLines (fileText lines) = lines := by
  rw [fileText]
  split
  · next hnil =>
    rw [hnil]
    rfl
  · next hne =>
    rw [attributeLines, splitOn_join hne h, List.getLast?_concat, if_pos rfl, List.dropLast_concat]

theorem stripCr_subset {line : JsString} : ∀ c ∈ stripCr line, c ∈ line := by
  intro c hc
  rw [stripCr] at hc
  split at hc
  · exact List.mem_of_mem_dropLast hc
  · exact hc

/-- A line with at most one carriage return at its end is stripped once and for all. -/
theorem stripCr_stripCr {line : JsString} (h : ¬ [carriageReturn, carriageReturn] <:+ line) :
    stripCr (stripCr line) = stripCr line := by
  by_cases hlast : line.getLast? = some carriageReturn
  · rw [stripCr, stripCr, if_pos hlast, if_neg]
    intro hsecond
    obtain ⟨front, rfl⟩ := List.getLast?_eq_some_iff.1 hlast
    rw [List.dropLast_concat] at hsecond
    obtain ⟨front, rfl⟩ := List.getLast?_eq_some_iff.1 hsecond
    exact h ⟨front, by simp⟩
  · rw [stripCr, stripCr, if_neg hlast, if_neg hlast]

/-! ## A driver and the lines that it leaves -/

def legacyMarkers : List JsString := legacyBlockBegins ++ legacyBlockEnds

namespace ManagedBlock
variable (block : ManagedBlock)

/-- A line that the fold passes through as it is, outside the block. -/
structure Keeps (line : JsString) : Prop where
  oneLine : lineFeed ∉ line
  stripped : stripCr line = line
  notLegacy : line ∉ legacyMarkers
  notBegin : line ≠ block.beginLine
  notEnd : line ≠ block.endLine
  unclaimed : firstToken line ∉ block.paths

/-- A marker is a line of its own, and no legacy marker. -/
structure ProperMarker (line : JsString) : Prop where
  nonempty : line ≠ []
  oneLine : lineFeed ∉ line
  stripped : stripCr line = line
  notLegacy : line ∉ legacyMarkers

/-- The marker lines of a block are two different ones. -/
structure ProperMarkers : Prop where
  beginMarker : ProperMarker block.beginLine
  endMarker : ProperMarker block.endLine
  distinct : block.beginLine ≠ block.endLine

/-- No row is a marker line, and none claims the blank lines, as one with the path `/` does. -/
structure ProperRows : Prop where
  rows : ∀ row ∈ block.rows, lineFeed ∉ row ∧ stripCr row ∉ legacyMarkers ∧
    stripCr row ≠ block.beginLine ∧ stripCr row ≠ block.endLine
  blank : [] ∉ block.paths

structure Proper : Prop extends ProperMarkers block, ProperRows block

/-- Whether a block of the driver is open after some lines. -/
def openAfter (lines : List JsString) : Bool :=
  openFrom (fun line => stripCr line = block.beginLine) (fun line => stripCr line = block.endLine)
    false lines

end ManagedBlock

def legacyAfter (lines : List JsString) : Bool :=
  openFrom (fun line => stripCr line ∈ legacyBlockBegins) (fun line => stripCr line ∈ legacyBlockEnds)
    false lines

/-- Each driver leaves the lines of the other's block as they are: markers and paths are disjoint
and no row ends in a carriage return. -/
structure Strangers (block other : ManagedBlock) : Prop where
  kept : ∀ line ∈ block.lines, other.Keeps line
  keeps : ∀ line ∈ other.lines, block.Keeps line

def ManagedBlock.Marks (block : ManagedBlock) (line : JsString) : Prop :=
  line = block.beginLine ∨ line = block.endLine

/-- The blocks of two drivers are not nested or interleaved: no marker of one stands in a block of
the other. -/
def Apart (block other : ManagedBlock) (lines : List JsString) : Prop :=
  ∀ before line after, lines = before ++ line :: after →
    (block.Marks (stripCr line) → other.openAfter before = false) ∧
      (other.Marks (stripCr line) → block.openAfter before = false)

theorem Strangers.symm {block other : ManagedBlock} (h : Strangers block other) :
    Strangers other block where
  kept := h.keeps
  keeps := h.kept

theorem Apart.symm {block other : ManagedBlock} {lines : List JsString} (h : Apart block other lines) :
    Apart other block lines := fun before line after heq => (h before line after heq).symm

theorem Apart.front {block other : ManagedBlock} {lines : List JsString} {last : JsString}
    (h : Apart block other (lines ++ [last])) : Apart block other lines := by
  rintro before line after rfl
  exact h before line (after ++ [last]) (by simp)

theorem Apart.last {block other : ManagedBlock} {lines : List JsString} {last : JsString}
    (h : Apart block other (lines ++ [last])) :
    (block.Marks (stripCr last) → other.openAfter lines = false) ∧
      (other.Marks (stripCr last) → block.openAfter lines = false) := h lines last [] rfl

section Open
variable {block : ManagedBlock} {lines : List JsString} {line : JsString}

theorem mem_legacyMarkers : line ∈ legacyMarkers ↔ line ∈ legacyBlockBegins ∨ line ∈ legacyBlockEnds :=
  List.mem_append

theorem ManagedBlock.openAfter_concat :
    block.openAfter (lines ++ [line]) = if stripCr line = block.beginLine then true
      else if stripCr line = block.endLine then false else block.openAfter lines := by
  rw [openAfter, openFrom_append, openFrom, openFrom]
  simp only [decide_eq_true_eq]
  rfl

theorem ManagedBlock.openAfter_unmarked (h : ¬ block.Marks (stripCr line)) :
    block.openAfter (lines ++ [line]) = block.openAfter lines := by
  rw [Marks, not_or] at h
  rw [openAfter_concat, if_neg h.1, if_neg h.2]

/-- Lines that the driver keeps open and close nothing. -/
theorem ManagedBlock.openAfter_keeps {more : List JsString} (h : ∀ line ∈ more, block.Keeps line) :
    block.openAfter (lines ++ more) = block.openAfter lines := by
  rw [openAfter, openFrom_append]
  refine openFrom_unmarked fun line hline => ?_
  rw [(h line hline).stripped]
  exact ⟨decide_eq_false (h line hline).notBegin, decide_eq_false (h line hline).notEnd⟩

theorem legacyAfter_concat :
    legacyAfter (lines ++ [line]) = if stripCr line ∈ legacyBlockBegins then true
      else if stripCr line ∈ legacyBlockEnds then false else legacyAfter lines := by
  rw [legacyAfter, openFrom_append, openFrom, openFrom]
  simp only [decide_eq_true_eq]
  rfl

theorem legacyAfter_unmarked (h : stripCr line ∉ legacyMarkers) :
    legacyAfter (lines ++ [line]) = legacyAfter lines := by
  rw [mem_legacyMarkers, not_or] at h
  rw [legacyAfter_concat, if_neg h.1, if_neg h.2]

theorem legacyBlockEnds_disjoint (h : line ∈ legacyBlockEnds) : line ∉ legacyBlockBegins := by
  have hall : ∀ l ∈ legacyBlockEnds, l ∉ legacyBlockBegins := by decide +kernel
  exact hall line h

theorem ManagedBlock.ProperMarkers.not_legacy (h : block.ProperMarkers) (hline : block.Marks line) :
    line ∉ legacyMarkers := by
  rcases hline with rfl | rfl
  · exact h.beginMarker.notLegacy
  · exact h.endMarker.notLegacy

end Open

/-! ## One line -/

/-- What the fold does at a line, its carriage return stripped. -/
inductive FoldStep (block : ManagedBlock) (state : FoldState) (line : JsString) : FoldState → Prop
  | legacyBegin (h : line ∈ legacyBlockBegins) : FoldStep block state line { state with legacy := true }
  | legacyEnd (h : line ∈ legacyBlockEnds) : FoldStep block state line { state with legacy := false }
  | blockBegin (h : line = block.beginLine) (hemitted : state.managedEmitted = false) :
    FoldStep block state line
      { state with kept := state.kept ++ block.lines, managedEmitted := true, skip := true }
  | blockAgain (h : line = block.beginLine) (hemitted : state.managedEmitted = true) :
    FoldStep block state line { state with skip := true }
  | blockEnd (h : line = block.endLine) : FoldStep block state line { state with skip := false }
  | dropped (hlegacy : line ∉ legacyMarkers) (hmarks : ¬ block.Marks line)
    (hdrop : state.skip = true ∨ firstToken line ∈ block.paths) : FoldStep block state line state
  | kept (hlegacy : line ∉ legacyMarkers) (hmarks : ¬ block.Marks line) (hskip : state.skip = false)
    (hpath : firstToken line ∉ block.paths) :
    FoldStep block state line { state with kept := state.kept ++ [line] }

theorem foldAttributeLine_step (block : ManagedBlock) (state : FoldState) (line : JsString) :
    FoldStep block state (stripCr line) (foldAttributeLine block state line) := by
  rw [foldAttributeLine]
  dsimp only
  by_cases hbegins : stripCr line ∈ legacyBlockBegins
  · rw [if_pos hbegins]
    exact .legacyBegin hbegins
  rw [if_neg hbegins]
  by_cases hends : stripCr line ∈ legacyBlockEnds
  · rw [if_pos hends]
    exact .legacyEnd hends
  rw [if_neg hends]
  by_cases hbegin : stripCr line = block.beginLine
  · rw [if_pos hbegin]
    cases hemitted : state.managedEmitted with
    | false => exact .blockBegin hbegin hemitted
    | true => exact .blockAgain hbegin hemitted
  rw [if_neg hbegin]
  by_cases hend : stripCr line = block.endLine
  · rw [if_pos hend]
    exact .blockEnd hend
  rw [if_neg hend]
  have hlegacy : stripCr line ∉ legacyMarkers := by
    rw [mem_legacyMarkers, not_or]
    exact ⟨hbegins, hends⟩
  have hmarks : ¬ block.Marks (stripCr line) := by
    rw [ManagedBlock.Marks, not_or]
    exact ⟨hbegin, hend⟩
  by_cases hdrop : (state.skip || decide (firstToken (stripCr line) ∈ block.paths)) = true
  · rw [if_pos hdrop]
    rw [Bool.or_eq_true, decide_eq_true_eq] at hdrop
    exact .dropped hlegacy hmarks hdrop
  · rw [if_neg hdrop]
    rw [Bool.or_eq_true, decide_eq_true_eq, not_or] at hdrop
    exact .kept hlegacy hmarks (Bool.eq_false_iff.2 hdrop.1) hdrop.2

/-- The two flags of the fold say which blocks are open. -/
theorem foldl_flags {block : ManagedBlock} (h : block.ProperMarkers) (lines : List JsString) :
    (lines.foldl (foldAttributeLine block) {}).skip = block.openAfter lines ∧
      (lines.foldl (foldAttributeLine block) {}).legacy = legacyAfter lines := by
  induction lines using List.reverseRecOn with
  | nil => exact ⟨rfl, rfl⟩
  | append_singleton lines line ih =>
    rw [List.foldl_append, List.foldl_cons, List.foldl_nil]
    generalize lines.foldl (foldAttributeLine block) {} = state at ih
    have hstep := foldAttributeLine_step block state line
    generalize foldAttributeLine block state line = state' at hstep ⊢
    cases hstep with
    | legacyBegin hb =>
      have hl : stripCr line ∈ legacyMarkers := mem_legacyMarkers.2 (.inl hb)
      rw [ManagedBlock.openAfter_unmarked fun hm => h.not_legacy hm hl, legacyAfter_concat, if_pos hb]
      exact ⟨ih.1, rfl⟩
    | legacyEnd he =>
      have hl : stripCr line ∈ legacyMarkers := mem_legacyMarkers.2 (.inr he)
      rw [ManagedBlock.openAfter_unmarked fun hm => h.not_legacy hm hl, legacyAfter_concat,
        if_neg (legacyBlockEnds_disjoint he), if_pos he]
      exact ⟨ih.1, rfl⟩
    | blockBegin hb hemitted =>
      rw [legacyAfter_unmarked (h.not_legacy (.inl hb)), ManagedBlock.openAfter_concat, if_pos hb]
      exact ⟨rfl, ih.2⟩
    | blockAgain hb hemitted =>
      rw [legacyAfter_unmarked (h.not_legacy (.inl hb)), ManagedBlock.openAfter_concat, if_pos hb]
      exact ⟨rfl, ih.2⟩
    | blockEnd he =>
      have hne : stripCr line ≠ block.beginLine := fun hb => h.distinct (hb.symm.trans he)
      rw [legacyAfter_unmarked (h.not_legacy (.inr he)), ManagedBlock.openAfter_concat, if_neg hne,
        if_pos he]
      exact ⟨rfl, ih.2⟩
    | dropped hlegacy hmarks hdrop =>
      rw [legacyAfter_unmarked hlegacy, ManagedBlock.openAfter_unmarked hmarks]
      exact ih
    | kept hlegacy hmarks hskip hpath =>
      rw [legacyAfter_unmarked hlegacy, ManagedBlock.openAfter_unmarked hmarks]
      exact ih

/-! ## What the fold adds -/

/-- The fold only adds, and what it adds is a line of the text or of the block. -/
theorem foldl_appends {block : ManagedBlock} {P : JsString → Prop} {lines : List JsString}
    (hlines : ∀ line ∈ lines, P (stripCr line)) (hblock : ∀ line ∈ block.lines, P line)
    (state : FoldState) : ∃ more, (lines.foldl (foldAttributeLine block) state).kept =
      state.kept ++ more ∧ ∀ line ∈ more, P line := by
  induction lines generalizing state with
  | nil => exact ⟨[], (List.append_nil _).symm, fun line h => absurd h List.not_mem_nil⟩
  | cons line lines ih =>
    obtain ⟨hline, hrest⟩ := List.forall_mem_cons.1 hlines
    rw [List.foldl_cons]
    obtain ⟨more, hmore, hall⟩ := ih hrest (foldAttributeLine block state line)
    have hone : ∃ first, (foldAttributeLine block state line).kept = state.kept ++ first ∧
        ∀ l ∈ first, P l := by
      have hstep := foldAttributeLine_step block state line
      generalize foldAttributeLine block state line = state' at hstep ⊢
      have hnothing : ∀ l ∈ ([] : List JsString), P l := fun l h => absurd h List.not_mem_nil
      cases hstep with
      | legacyBegin => exact ⟨[], (List.append_nil _).symm, hnothing⟩
      | legacyEnd => exact ⟨[], (List.append_nil _).symm, hnothing⟩
      | blockBegin => exact ⟨block.lines, rfl, hblock⟩
      | blockAgain => exact ⟨[], (List.append_nil _).symm, hnothing⟩
      | blockEnd => exact ⟨[], (List.append_nil _).symm, hnothing⟩
      | dropped => exact ⟨[], (List.append_nil _).symm, hnothing⟩
      | kept => exact ⟨[stripCr line], rfl, List.forall_mem_singleton.2 hline⟩
    obtain ⟨first, hfirst, hfirstAll⟩ := hone
    refine ⟨first ++ more, by rw [hmore, hfirst, List.append_assoc], fun l hl => ?_⟩
    rcases List.mem_append.1 hl with hl | hl
    · exact hfirstAll l hl
    · exact hall l hl

/-- The lines outside the driver's block, a carriage return stripped, but for marker lines and the
lines that a managed path claims. -/
def looseLines (block : ManagedBlock) : Bool → List JsString → List JsString
  | _, [] => []
  | inside, rawLine :: rest =>
    let line := stripCr rawLine
    if line ∈ legacyMarkers then looseLines block inside rest
    else if line = block.beginLine then looseLines block true rest
    else if line = block.endLine then looseLines block false rest
    else if inside || firstToken line ∈ block.paths then looseLines block inside rest
    else line :: looseLines block inside rest

/-- The fold keeps the loose lines in their order. -/
theorem foldl_loose {block : ManagedBlock} (h : block.ProperMarkers) (lines : List JsString)
    (state : FoldState) :
    (state.kept ++ looseLines block state.skip lines).Sublist
      (lines.foldl (foldAttributeLine block) state).kept := by
  induction lines generalizing state with
  | nil =>
    rw [looseLines, List.append_nil]
    exact List.Sublist.refl _
  | cons line lines ih =>
    rw [List.foldl_cons, looseLines]
    have hrest := ih (foldAttributeLine block state line)
    have hstep := foldAttributeLine_step block state line
    generalize foldAttributeLine block state line = state' at hstep hrest ⊢
    cases hstep with
    | legacyBegin hb =>
      rw [if_pos (mem_legacyMarkers.2 (.inl hb))]
      exact hrest
    | legacyEnd he =>
      rw [if_pos (mem_legacyMarkers.2 (.inr he))]
      exact hrest
    | blockBegin hb hemitted =>
      rw [if_neg (h.not_legacy (.inl hb)), if_pos hb]
      exact ((List.sublist_append_left _ _).append_right _).trans hrest
    | blockAgain hb hemitted =>
      rw [if_neg (h.not_legacy (.inl hb)), if_pos hb]
      exact hrest
    | blockEnd he =>
      rw [if_neg (h.not_legacy (.inr he)), if_neg fun hb => h.distinct (hb.symm.trans he), if_pos he]
      exact hrest
    | dropped hlegacy hmarks hdrop =>
      rw [ManagedBlock.Marks, not_or] at hmarks
      rw [if_neg hlegacy, if_neg hmarks.1, if_neg hmarks.2, if_pos (by simpa using hdrop)]
      exact hrest
    | kept hlegacy hmarks hskip hpath =>
      rw [ManagedBlock.Marks, not_or] at hmarks
      rw [if_neg hlegacy, if_neg hmarks.1, if_neg hmarks.2, hskip, Bool.false_or,
        if_neg (by simpa using hpath)]
      rw [List.append_assoc, List.singleton_append] at hrest
      rw [hskip] at hrest
      exact hrest

end Musi.LintRatchet
