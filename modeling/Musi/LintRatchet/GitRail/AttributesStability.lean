import Musi.LintRatchet.GitRail.AttributesFold

namespace Musi.LintRatchet
open Musi.Js Musi.System
set_option autoImplicit true

/-! ## What the fold has done after some lines -/

/-- The block once, among lines that the driver keeps. -/
def Blocked (block : ManagedBlock) (before after lines : List JsString) : Prop :=
  lines = before ++ block.lines ++ after ∧ ∀ line ∈ before ++ after, block.Keeps line

/-- The marks of another driver are carried over, and the block does not come to stand in one of
its blocks. -/
structure Folded (block : ManagedBlock) (lines : List JsString) (state : FoldState) : Prop where
  emitted : state.managedEmitted = lines.any fun line => stripCr line = block.beginLine
  pending : state.managedEmitted = false → ∀ line ∈ state.kept, block.Keeps line
  settled : state.managedEmitted = true → ∃ before after, Blocked block before after state.kept ∧
    ∀ other : ManagedBlock, other.Proper → Strangers block other → Apart block other lines →
      other.openAfter before = false
  others : ∀ other : ManagedBlock, other.Proper → Strangers block other → Apart block other lines →
    other.openAfter state.kept = other.openAfter lines

variable {block other : ManagedBlock} {lines : List JsString} {line : JsString} {state : FoldState}

theorem folded_nil : Folded block [] {} where
  emitted := rfl
  pending := fun _ line h => absurd h List.not_mem_nil
  settled := fun h => by cases h
  others := fun _ _ _ _ => rfl

theorem Strangers.notMarks (h : Strangers block other) (hline : block.Marks line) :
    ¬ other.Marks line := by
  have hmem : line ∈ block.lines := by
    rcases hline with rfl | rfl
    · exact List.mem_cons_self
    · exact List.mem_append_right _ (List.mem_singleton_self _)
  rintro (hm | hm)
  · exact (h.kept line hmem).notBegin hm
  · exact (h.kept line hmem).notEnd hm

theorem any_concat_begin : ((lines ++ [line]).any fun l => stripCr l = block.beginLine) =
    ((lines.any fun l => stripCr l = block.beginLine) || decide (stripCr line = block.beginLine)) := by
  rw [List.any_append, List.any_cons, List.any_nil, Bool.or_false]

/-- A line that the fold adds nothing for and that is no mark of another driver. -/
theorem Folded.carry (h : Folded block lines state) {state' : FoldState}
    (hkept : state'.kept = state.kept) (hemitted : state'.managedEmitted = state.managedEmitted)
    (hbegin : stripCr line = block.beginLine → state.managedEmitted = true)
    (hothers : ∀ other : ManagedBlock, other.Proper → Strangers block other →
      Apart block other (lines ++ [line]) → ¬ other.Marks (stripCr line)) :
    Folded block (lines ++ [line]) state' where
  emitted := by
    rw [hemitted, any_concat_begin, ← h.emitted]
    by_cases hb : stripCr line = block.beginLine
    · rw [hbegin hb, Bool.true_or]
    · rw [decide_eq_false hb, Bool.or_false]
  pending := by
    rw [hemitted, hkept]
    exact h.pending
  settled := by
    rw [hemitted, hkept]
    intro he
    obtain ⟨before, after, hblocked, hopen⟩ := h.settled he
    exact ⟨before, after, hblocked, fun other hp hs ha => hopen other hp hs ha.front⟩
  others := by
    intro other hp hs ha
    rw [hkept, ManagedBlock.openAfter_unmarked (hothers other hp hs ha), h.others other hp hs ha.front]

/-- One line. -/
theorem Folded.step (hproper : block.ProperMarkers) (h : Folded block lines state)
    (hopen : state.skip = block.openAfter lines) (hline : lineFeed ∉ line)
    (hstripped : stripCr (stripCr line) = stripCr line) :
    Folded block (lines ++ [line]) (foldAttributeLine block state line) := by
  have hlegacyMark (hl : stripCr line ∈ legacyMarkers) {other : ManagedBlock}
      (hp : other.ProperMarkers) : ¬ other.Marks (stripCr line) := fun hm => hp.not_legacy hm hl
  have hstep := foldAttributeLine_step block state line
  generalize foldAttributeLine block state line = state' at hstep ⊢
  cases hstep with
  | legacyBegin hb =>
    have hl : stripCr line ∈ legacyMarkers := mem_legacyMarkers.2 (.inl hb)
    exact h.carry rfl rfl (fun heq => absurd (.inl heq) (hlegacyMark hl hproper))
      fun other hp _ _ => hlegacyMark hl hp.toProperMarkers
  | legacyEnd he =>
    have hl : stripCr line ∈ legacyMarkers := mem_legacyMarkers.2 (.inr he)
    exact h.carry rfl rfl (fun heq => absurd (.inl heq) (hlegacyMark hl hproper))
      fun other hp _ _ => hlegacyMark hl hp.toProperMarkers
  | blockAgain hb hemitted =>
    exact h.carry rfl rfl (fun _ => hemitted) fun other _ hs _ => hs.notMarks (.inl hb)
  | blockEnd he =>
    have hne : stripCr line ≠ block.beginLine := fun hb => hproper.distinct (hb.symm.trans he)
    exact h.carry rfl rfl (fun hb => absurd hb hne) fun other _ hs _ => hs.notMarks (.inr he)
  | dropped hlegacy hmarks hdrop =>
    refine h.carry rfl rfl (fun hb => absurd (.inl hb) hmarks) fun other _ hs ha hm => ?_
    -- A mark of the other driver stands outside the block and is claimed by no row.
    have hmem : stripCr line ∈ other.lines := by
      rcases hm with hm | hm
      · rw [hm]
        exact List.mem_cons_self
      · rw [hm]
        exact List.mem_append_right _ (List.mem_singleton_self _)
    rcases hdrop with hskip | hpath
    · rw [hopen, ha.last.2 hm] at hskip
      cases hskip
    · exact (hs.keeps _ hmem).unclaimed hpath
  | blockBegin hb hemitted =>
    have hkeeps := h.pending hemitted
    exact
      { emitted := by rw [any_concat_begin, decide_eq_true hb, Bool.or_true]
        pending := fun hf => by cases hf
        settled := by
          intro _
          refine ⟨state.kept, [], ⟨(List.append_nil _).symm, ?_⟩, fun other hp hs ha => ?_⟩
          · rw [List.append_nil]
            exact hkeeps
          · rw [h.others other hp hs ha.front]
            exact ha.last.1 (.inl hb)
        others := by
          intro other hp hs ha
          rw [ManagedBlock.openAfter_keeps hs.kept,
            ManagedBlock.openAfter_unmarked (hs.notMarks (.inl hb)), h.others other hp hs ha.front] }
  | kept hlegacy hmarks hskip hpath =>
    rw [ManagedBlock.Marks, not_or] at hmarks
    have hkeeps : block.Keeps (stripCr line) :=
      { oneLine := fun hmem => hline (stripCr_subset _ hmem)
        stripped := hstripped
        notLegacy := hlegacy
        notBegin := hmarks.1
        notEnd := hmarks.2
        unclaimed := hpath }
    exact
      { emitted := by
          rw [any_concat_begin, decide_eq_false hmarks.1, Bool.or_false]
          exact h.emitted
        pending := by
          intro hemitted l hl
          rcases List.mem_append.1 hl with hl | hl
          · exact h.pending hemitted l hl
          · rw [List.mem_singleton.1 hl]
            exact hkeeps
        settled := by
          intro hemitted
          obtain ⟨before, after, ⟨heq, hall⟩, hopen⟩ := h.settled hemitted
          refine ⟨before, after ++ [stripCr line], ⟨by simp [heq], ?_⟩,
            fun other hp hs ha => hopen other hp hs ha.front⟩
          rw [← List.append_assoc]
          intro l hl
          rcases List.mem_append.1 hl with hl | hl
          · exact hall l hl
          · rw [List.mem_singleton.1 hl]
            exact hkeeps
        others := by
          intro other hp hs ha
          rw [ManagedBlock.openAfter_concat, ManagedBlock.openAfter_concat, hstripped,
            h.others other hp hs ha.front] }

/-- No line of the text ends in two carriage returns. -/
def SingleReturns (lines : List JsString) : Prop :=
  ∀ line ∈ lines, ¬ [carriageReturn, carriageReturn] <:+ line

theorem folded_run (hproper : block.ProperMarkers) (hlines : ∀ line ∈ lines, lineFeed ∉ line)
    (hreturns : SingleReturns lines) : Folded block lines (lines.foldl (foldAttributeLine block) {}) := by
  induction lines using List.reverseRecOn with
  | nil => exact folded_nil
  | append_singleton lines line ih =>
    rw [List.foldl_append, List.foldl_cons, List.foldl_nil]
    have hmem : line ∈ lines ++ [line] := List.mem_append_right _ (List.mem_singleton_self line)
    exact (ih (fun l hl => hlines l (List.mem_append_left _ hl))
      (fun l hl => hreturns l (List.mem_append_left _ hl))).step hproper (foldl_flags hproper lines).1
      (hlines line hmem) (stripCr_stripCr (hreturns line hmem))

/-! ## The rendered lines -/

theorem attributeLines_any (hproper : block.ProperMarkers) (text : JsString) :
    ((splitOn lineFeed text).any fun line => stripCr line = block.beginLine) =
      (attributeLines text).any fun line => stripCr line = block.beginLine := by
  rw [attributeLines]
  split
  · next hlast =>
    obtain ⟨front, hfront⟩ := List.getLast?_eq_some_iff.1 hlast
    have hblank : decide (stripCr [] = block.beginLine) = false :=
      decide_eq_false fun h => hproper.beginMarker.nonempty h.symm
    rw [hfront, List.dropLast_concat, List.any_append, List.any_cons, List.any_nil, hblank]
    simp
  · rfl

def trimBlank (lines : List JsString) : List JsString := lines.rdropWhile fun line => line = []

/-- The lines of a rendered text, from what the fold kept. -/
def finishLines (block : ManagedBlock) (blockPresent : Bool) (kept : List JsString) : List JsString :=
  if blockPresent then trimBlank kept
  else if trimBlank kept = [] then block.lines else trimBlank kept ++ [] :: block.lines

theorem join_lines (input : ManagedAttributes) :
    join [lineFeed] input.block.lines =
      join [lineFeed] [input.managedBegin, input.managedAttributes, input.managedEnd] := by
  have hrows : input.block.rows ≠ [] := splitOn_ne_nil _ _
  have hsplit : input.block.lines = [input.managedBegin] ++ (input.block.rows ++ [input.managedEnd]) :=
    rfl
  have hjoin : join [lineFeed] input.block.rows = input.managedAttributes := join_splitOn _ _
  rw [hsplit, join_append (List.cons_ne_nil _ _) (List.append_ne_nil_of_left_ne_nil hrows _),
    join_append hrows (List.cons_ne_nil _ _), hjoin]
  simp only [join, List.append_assoc]

/-- Blank lines at the end fall away, and an absent block comes after a blank line. -/
theorem fileText_finishLines (input : ManagedAttributes) (blockPresent : Bool) (kept : List JsString) :
    fileText (finishLines input.block blockPresent kept) =
      if blockPresent then
        if (trimBlank kept).length > 0 then join [lineFeed] (trimBlank kept) ++ [lineFeed] else []
      else if (trimBlank kept).length > 0 then
        join [lineFeed] (trimBlank kept) ++ [lineFeed, lineFeed] ++
          join [lineFeed] [input.managedBegin, input.managedAttributes, input.managedEnd] ++ [lineFeed]
      else join [lineFeed] [input.managedBegin, input.managedAttributes, input.managedEnd] ++
        [lineFeed] := by
  rw [finishLines, ← join_lines]
  have hlines : input.block.lines ≠ [] := List.cons_ne_nil _ _
  cases blockPresent with
  | true =>
    rw [if_pos rfl, if_pos rfl, fileText]
    by_cases hnil : trimBlank kept = []
    · rw [hnil]
      rfl
    · rw [if_neg hnil, if_pos (List.length_pos_iff.2 hnil)]
  | false =>
    rw [if_neg Bool.false_ne_true, if_neg Bool.false_ne_true]
    by_cases hnil : trimBlank kept = []
    · rw [hnil, if_pos rfl, fileText, if_neg hlines]
      rfl
    · rw [if_neg hnil, if_pos (List.length_pos_iff.2 hnil), fileText,
        if_neg (List.append_ne_nil_of_left_ne_nil hnil _), join_append hnil (List.cons_ne_nil _ _)]
      have hblank : join [lineFeed] ([] :: input.block.lines) =
          [lineFeed] ++ join [lineFeed] input.block.lines := rfl
      rw [hblank]
      simp only [List.append_assoc, List.cons_append, List.nil_append]

theorem renderBaselineMergeAttributes_eq {input : ManagedAttributes}
    (hproper : input.block.ProperMarkers) (text : JsString) :
    renderBaselineMergeAttributes (some text) input =
      let state := (attributeLines text).foldl (foldAttributeLine input.block) {}
      if state.skip || state.legacy then .error {}
      else .ok (fileText (finishLines input.block
        ((attributeLines text).any fun line => stripCr line = input.block.beginLine) state.kept)) := by
  rw [renderBaselineMergeAttributes, foldExistingAttributes]
  dsimp only
  simp only [Option.any_some, ← attributeLines_any hproper]
  cases hopen : ((attributeLines text).foldl (foldAttributeLine input.block) {}).skip ||
      ((attributeLines text).foldl (foldAttributeLine input.block) {}).legacy with
  | true => rfl
  | false =>
    rw [if_neg Bool.false_ne_true, if_neg Bool.false_ne_true, fileText_finishLines]
    change (if ((splitOn lineFeed text).any fun line => stripCr line = input.managedBegin) = true then _
      else _) = Except.ok (if ((splitOn lineFeed text).any fun line => stripCr line = input.managedBegin) =
        true then _ else _)
    split
    · rfl
    · split
      · next hpos => exact (congrArg Except.ok (if_pos hpos)).symm
      · next hpos => exact (congrArg Except.ok (if_neg hpos)).symm

/-! ## A settled text -/

/-- The block stands once among lines that the driver keeps, and the last line is not blank. -/
structure Settled (block : ManagedBlock) (before after lines : List JsString) : Prop where
  blocked : Blocked block before after lines
  ends : lines.getLast? ≠ some []

theorem getLast?_trimBlank (lines : List JsString) : (trimBlank lines).getLast? ≠ some [] := by
  intro h
  obtain ⟨front, hfront⟩ := List.getLast?_eq_some_iff.1 h
  have hne : trimBlank lines ≠ [] := by
    rw [hfront]
    exact List.append_ne_nil_of_right_ne_nil _ (List.cons_ne_nil _ _)
  have hlast := List.rdropWhile_last_not _ lines hne
  have hnil : (trimBlank lines).getLast hne = [] := by
    rw [List.getLast?_eq_some_getLast hne] at h
    exact Option.some.inj h
  exact hlast (decide_eq_true hnil)

theorem trimBlank_of_ends (h : lines.getLast? ≠ some []) : trimBlank lines = lines := by
  rw [trimBlank, List.rdropWhile_eq_self_iff]
  intro hne hlast
  rw [List.getLast?_eq_some_getLast hne] at h
  exact h (congrArg some (of_decide_eq_true hlast))

theorem mem_trimBlank (h : line ∈ trimBlank lines) : line ∈ lines :=
  List.IsPrefix.subset (List.rdropWhile_prefix _ _) h

/-- Nothing before a last line that is not blank falls away. -/
theorem trimBlank_append {front : List JsString} (h : front.getLast? ≠ some []) :
    trimBlank (front ++ lines) = front ++ trimBlank lines := by
  induction lines using List.reverseRecOn with
  | nil =>
    rw [List.append_nil, trimBlank_of_ends h]
    exact (List.append_nil _).symm
  | append_singleton lines line ih =>
    rw [← List.append_assoc, trimBlank, trimBlank, List.rdropWhile_concat, List.rdropWhile_concat]
    split
    · exact ih
    · exact List.append_assoc _ _ _

theorem getLast?_block (hproper : block.ProperMarkers) (before : List JsString) :
    (before ++ block.lines).getLast? ≠ some [] := by
  rw [ManagedBlock.lines, ← List.append_assoc, List.getLast?_concat]
  exact fun h => hproper.endMarker.nonempty (Option.some.inj h)

/-- A blank line is kept. -/
theorem ManagedBlock.Proper.keeps_blank (h : block.Proper) : block.Keeps [] where
  oneLine := List.not_mem_nil
  stripped := rfl
  notLegacy := by decide +kernel
  notBegin := fun hb => h.beginMarker.nonempty hb.symm
  notEnd := fun he => h.endMarker.nonempty he.symm
  unclaimed := h.blank

/-- Blank lines open and close nothing. -/
theorem ManagedBlock.openAfter_trimBlank (h : block.Proper) (lines : List JsString) :
    block.openAfter (trimBlank lines) = block.openAfter lines := by
  have hsplit : trimBlank lines ++ lines.rtakeWhile (fun line => line = []) = lines :=
    List.rdropWhile_append_rtakeWhile
  have hblank : ∀ line ∈ lines.rtakeWhile (fun line => line = []), block.Keeps line := by
    intro line hline
    have hblank := List.mem_rtakeWhile_imp hline
    have hnil : line = [] := of_decide_eq_true hblank
    exact hnil ▸ h.keeps_blank
  have hopen : block.openAfter (trimBlank lines ++ lines.rtakeWhile (fun line => line = [])) =
      block.openAfter (trimBlank lines) := block.openAfter_keeps hblank
  rw [← hopen, hsplit]

/-- What the fold kept is settled once it is finished, and stays out of another driver's blocks. -/
theorem Folded.finish (hproper : block.Proper) (h : Folded block lines state) :
    ∃ before after, Settled block before after
        (finishLines block (lines.any fun line => stripCr line = block.beginLine) state.kept) ∧
      ∀ other : ManagedBlock, other.Proper → Strangers block other → Apart block other lines →
        other.openAfter lines = false → other.openAfter before = false ∧
          other.openAfter (finishLines block (lines.any fun line => stripCr line = block.beginLine)
            state.kept) = false := by
  rw [← h.emitted]
  cases hemitted : state.managedEmitted with
  | true =>
    obtain ⟨before, after, ⟨heq, hall⟩, hopen⟩ := h.settled hemitted
    rw [finishLines, if_pos rfl]
    have htrim : trimBlank state.kept = before ++ block.lines ++ trimBlank after := by
      rw [heq, trimBlank_append (getLast?_block hproper.toProperMarkers before)]
    refine ⟨before, trimBlank after, ⟨⟨htrim, fun line hline => hall line ?_⟩,
      getLast?_trimBlank _⟩, fun other hp hs ha hlines => ⟨hopen other hp hs ha, ?_⟩⟩
    · rcases List.mem_append.1 hline with hline | hline
      · exact List.mem_append_left _ hline
      · exact List.mem_append_right _ (mem_trimBlank hline)
    · rw [ManagedBlock.openAfter_trimBlank hp, h.others other hp hs ha, hlines]
  | false =>
    have hkeeps := h.pending hemitted
    rw [finishLines, if_neg Bool.false_ne_true]
    by_cases hnil : trimBlank state.kept = []
    · rw [if_pos hnil]
      refine ⟨[], [], ⟨⟨(List.append_nil _).symm, fun line hline => absurd hline List.not_mem_nil⟩,
        getLast?_block hproper.toProperMarkers []⟩, fun other _ hs _ _ => ⟨rfl, ?_⟩⟩
      have hopen : other.openAfter ([] ++ block.lines) = other.openAfter [] :=
        other.openAfter_keeps hs.kept
      exact hopen
    · rw [if_neg hnil]
      have heq : trimBlank state.kept ++ [] :: block.lines =
          (trimBlank state.kept ++ [[]]) ++ block.lines := by simp
      rw [heq]
      refine ⟨trimBlank state.kept ++ [[]], [], ⟨⟨(List.append_nil _).symm, ?_⟩,
        getLast?_block hproper.toProperMarkers _⟩, fun other hp hs ha hlines => ?_⟩
      · rw [List.append_nil]
        intro line hline
        rcases List.mem_append.1 hline with hline | hline
        · exact hkeeps line (mem_trimBlank hline)
        · rw [List.mem_singleton.1 hline]
          exact hproper.keeps_blank
      · have hbefore : other.openAfter (trimBlank state.kept ++ [[]]) = false := by
          rw [ManagedBlock.openAfter_keeps fun line hline => by
              rw [List.mem_singleton.1 hline]; exact hp.keeps_blank,
            ManagedBlock.openAfter_trimBlank hp, h.others other hp hs ha, hlines]
        exact ⟨hbefore, by rw [ManagedBlock.openAfter_keeps hs.kept, hbefore]⟩

/-! ## Rendering a settled text -/

/-- The fold passes over lines that it keeps. -/
theorem foldl_keeps {more : List JsString} (h : ∀ line ∈ more, block.Keeps line)
    (hskip : state.skip = false) :
    more.foldl (foldAttributeLine block) state = { state with kept := state.kept ++ more } := by
  induction more generalizing state with
  | nil => rw [List.foldl_nil, List.append_nil]
  | cons line more ih =>
    obtain ⟨hline, hmore⟩ := List.forall_mem_cons.1 h
    have hone : foldAttributeLine block state line = { state with kept := state.kept ++ [line] } := by
      have hlegacy := hline.notLegacy
      rw [mem_legacyMarkers, not_or] at hlegacy
      rw [foldAttributeLine]
      dsimp only
      rw [hline.stripped, if_neg hlegacy.1, if_neg hlegacy.2, if_neg hline.notBegin,
        if_neg hline.notEnd, hskip, Bool.false_or, if_neg (by simpa using hline.unclaimed)]
    rw [List.foldl_cons, hone, ih hmore (by exact hskip)]
    simp only [List.append_assoc, List.singleton_append]

/-- Rows in a block are skipped. -/
theorem foldl_rows {rows : List JsString} (h : ∀ row ∈ rows, stripCr row ∉ legacyMarkers ∧
      stripCr row ≠ block.beginLine ∧ stripCr row ≠ block.endLine) (hskip : state.skip = true) :
    rows.foldl (foldAttributeLine block) state = state := by
  induction rows with
  | nil => rfl
  | cons row rows ih =>
    obtain ⟨⟨hlegacy, hbegin, hend⟩, hrows⟩ := List.forall_mem_cons.1 h
    have hone : foldAttributeLine block state row = state := by
      rw [mem_legacyMarkers, not_or] at hlegacy
      rw [foldAttributeLine]
      dsimp only
      rw [if_neg hlegacy.1, if_neg hlegacy.2, if_neg hbegin, if_neg hend, hskip, Bool.true_or,
        if_pos rfl]
    rw [List.foldl_cons, hone]
    exact ih hrows

/-- The block itself is emitted once in its place. -/
theorem foldl_block (hproper : block.Proper) (hemitted : state.managedEmitted = false) :
    block.lines.foldl (foldAttributeLine block) state =
      { state with kept := state.kept ++ block.lines, managedEmitted := true, skip := false } := by
  have hbeginLegacy := hproper.beginMarker.notLegacy
  have hendLegacy := hproper.endMarker.notLegacy
  rw [mem_legacyMarkers, not_or] at hbeginLegacy hendLegacy
  have hbegin : foldAttributeLine block state block.beginLine =
      { state with kept := state.kept ++ block.lines, managedEmitted := true, skip := true } := by
    rw [foldAttributeLine]
    dsimp only
    rw [hproper.beginMarker.stripped, if_neg hbeginLegacy.1, if_neg hbeginLegacy.2, if_pos rfl,
      hemitted]
    rfl
  have hlines : block.lines = block.beginLine :: (block.rows ++ [block.endLine]) := rfl
  rw [hlines, List.foldl_cons, ← hlines, hbegin, List.foldl_append,
    foldl_rows (fun row hrow => (hproper.rows row hrow).2) rfl, List.foldl_cons, List.foldl_nil,
    foldAttributeLine]
  dsimp only
  rw [hproper.endMarker.stripped, if_neg hendLegacy.1, if_neg hendLegacy.2,
    if_neg hproper.distinct.symm, if_pos rfl]

theorem Settled.oneLine {before after : List JsString} (hproper : block.Proper)
    (h : Settled block before after lines) : ∀ line ∈ lines, lineFeed ∉ line := by
  obtain ⟨⟨heq, hall⟩, -⟩ := h
  intro line hline
  rw [heq, List.append_assoc, List.mem_append, List.mem_append, ManagedBlock.lines,
    List.mem_append, List.mem_cons, List.mem_singleton] at hline
  rcases hline with hline | ((rfl | hline) | rfl) | hline
  · exact (hall line (List.mem_append_left _ hline)).oneLine
  · exact hproper.beginMarker.oneLine
  · exact (hproper.rows line hline).1
  · exact hproper.endMarker.oneLine
  · exact (hall line (List.mem_append_right _ hline)).oneLine

/-- A settled text renders to itself. -/
theorem Settled.render {input : ManagedAttributes} {before after : List JsString}
    (hproper : input.block.Proper) (h : Settled input.block before after lines) :
    renderBaselineMergeAttributes (some (fileText lines)) input = .ok (fileText lines) := by
  rw [renderBaselineMergeAttributes_eq hproper.toProperMarkers, attributeLines_fileText (h.oneLine hproper)]
  obtain ⟨⟨heq, hall⟩, hends⟩ := h
  have hfold : lines.foldl (foldAttributeLine input.block) {} =
      { kept := lines, managedEmitted := true } := by
    rw [heq, List.foldl_append, List.foldl_append,
      foldl_keeps (fun line hline => hall line (List.mem_append_left _ hline)) rfl,
      foldl_block hproper rfl,
      foldl_keeps (fun line hline => hall line (List.mem_append_right _ hline)) rfl]
    rfl
  have hpresent : (lines.any fun line => stripCr line = input.block.beginLine) = true := by
    refine List.any_eq_true.2 ⟨input.block.beginLine, ?_, decide_eq_true hproper.beginMarker.stripped⟩
    rw [heq]
    exact List.mem_append_left _ (List.mem_append_right _ List.mem_cons_self)
  rw [hfold, hpresent]
  dsimp only
  rw [finishLines, if_pos rfl, trimBlank_of_ends hends]
  rfl

end Musi.LintRatchet
