import Musi.System.PrefixCode
import Musi.LintRatchet.GitRail.AttributesStability

namespace Musi.LintRatchet
open Musi.Js Musi.System
set_option autoImplicit true

/-! ## Texts that do not render -/

/-- A block of the driver or a legacy block begins and never ends. -/
def Unterminated (block : ManagedBlock) (lines : List JsString) : Prop :=
  ∃ before line after, lines = before ++ line :: after ∧
    ((stripCr line = block.beginLine ∧ ∀ later ∈ after, stripCr later ≠ block.endLine) ∨
      (stripCr line ∈ legacyBlockBegins ∧ ∀ later ∈ after, stripCr later ∉ legacyBlockEnds))

section
variable {block other : ManagedBlock} {lines : List JsString} {input : ManagedAttributes}

theorem unterminated_iff :
    Unterminated block lines ↔ (block.openAfter lines || legacyAfter lines) = true := by
  rw [Bool.or_eq_true, ManagedBlock.openAfter, legacyAfter, openFrom_iff, openFrom_iff]
  simp only [decide_eq_true_eq, decide_eq_false_iff_not]
  constructor
  · rintro ⟨before, line, after, h, hown | hlegacy⟩
    · exact .inl ⟨before, line, after, h, hown⟩
    · exact .inr ⟨before, line, after, h, hlegacy⟩
  · rintro (⟨before, line, after, h, hown⟩ | ⟨before, line, after, h, hlegacy⟩)
    · exact ⟨before, line, after, h, .inl hown⟩
    · exact ⟨before, line, after, h, .inr hlegacy⟩

theorem not_unterminated_iff :
    ¬ Unterminated block lines ↔ block.openAfter lines = false ∧ legacyAfter lines = false := by
  rw [unterminated_iff, Bool.not_eq_true, Bool.or_eq_false_iff]

/-- The lines that a driver renders of a text. -/
def renderedLines (block : ManagedBlock) (lines : List JsString) : List JsString :=
  finishLines block (lines.any fun line => stripCr line = block.beginLine)
    (lines.foldl (foldAttributeLine block) {}).kept

theorem renderBaselineMergeAttributes_error (hproper : input.block.ProperMarkers) (text : JsString) :
    renderBaselineMergeAttributes (some text) input = .error {} ↔
      Unterminated input.block (attributeLines text) := by
  obtain ⟨hskip, hlegacy⟩ := foldl_flags hproper (attributeLines text)
  rw [renderBaselineMergeAttributes_eq hproper, unterminated_iff]
  dsimp only
  rw [hskip, hlegacy]
  split
  · next h => exact iff_of_true rfl h
  · next h => exact iff_of_false (fun he => by cases he) h

theorem renderBaselineMergeAttributes_ok (hproper : input.block.ProperMarkers) {text rendered : JsString} :
    renderBaselineMergeAttributes (some text) input = .ok rendered ↔
      ¬ Unterminated input.block (attributeLines text) ∧
        rendered = fileText (renderedLines input.block (attributeLines text)) := by
  obtain ⟨hskip, hlegacy⟩ := foldl_flags hproper (attributeLines text)
  rw [renderBaselineMergeAttributes_eq hproper, unterminated_iff]
  dsimp only
  rw [hskip, hlegacy]
  split
  · next h => exact iff_of_false (fun he => by cases he) fun hn => hn.1 h
  · next h =>
    rw [Except.ok.injEq, eq_comm]
    exact ⟨fun heq => ⟨h, heq⟩, fun hn => hn.2⟩

/-! ## What is kept -/

theorem dropWhile_sublist {α : Type} {p : α → Bool} {l m : List α} (h : l.Sublist m) :
    (l.dropWhile p).Sublist (m.dropWhile p) := by
  induction h with
  | slnil => exact List.Sublist.refl _
  | cons a h ih =>
    rw [List.dropWhile_cons]
    split
    · exact ih
    · exact ((List.dropWhile_sublist p).trans h).cons a
  | cons_cons a h ih =>
    rw [List.dropWhile_cons, List.dropWhile_cons]
    split
    · exact ih
    · exact h.cons_cons a

theorem trimBlank_sublist {kept : List JsString} (h : lines.Sublist kept) :
    (trimBlank lines).Sublist (trimBlank kept) := by
  rw [trimBlank, trimBlank, List.rdropWhile, List.rdropWhile, List.reverse_sublist]
  exact dropWhile_sublist h.reverse

theorem trimBlank_renderedLines (block : ManagedBlock) (lines : List JsString) :
    (trimBlank (lines.foldl (foldAttributeLine block) {}).kept).Sublist (renderedLines block lines) := by
  rw [renderedLines, finishLines]
  split
  · exact List.Sublist.refl _
  · split
    · next hnil =>
      rw [hnil]
      exact List.nil_sublist _
    · exact List.sublist_append_left _ _

/-- Rendered lines are lines of the text and of the block, and blank ones. -/
theorem mem_renderedLines {P : JsString → Prop} (hlines : ∀ line ∈ lines, P (stripCr line))
    (hblock : ∀ line ∈ block.lines, P line) (hblank : P []) :
    ∀ line ∈ renderedLines block lines, P line := by
  obtain ⟨more, hmore, hall⟩ := foldl_appends hlines hblock {}
  rw [List.nil_append] at hmore
  have htrim : ∀ line ∈ trimBlank (lines.foldl (foldAttributeLine block) {}).kept, P line := by
    intro line hline
    rw [hmore] at hline
    exact hall line (mem_trimBlank hline)
  intro line hline
  rw [renderedLines, finishLines] at hline
  split at hline
  · exact htrim line hline
  · split at hline
    · exact hblock line hline
    · rcases List.mem_append.1 hline with hline | hline
      · exact htrim line hline
      · rcases List.mem_cons.1 hline with rfl | hline
        · exact hblank
        · exact hblock line hline

theorem oneLine_block (hproper : block.ProperMarkers) (hrows : ∀ row ∈ block.rows, lineFeed ∉ row) :
    ∀ line ∈ block.lines, lineFeed ∉ line := by
  intro line hline
  rw [ManagedBlock.lines, List.mem_append, List.mem_cons, List.mem_singleton] at hline
  rcases hline with (rfl | hline) | rfl
  · exact hproper.beginMarker.oneLine
  · exact hrows line hline
  · exact hproper.endMarker.oneLine

theorem attributeLines_rendered (hproper : input.block.ProperMarkers) (text : JsString) :
    attributeLines (fileText (renderedLines input.block (attributeLines text))) =
      renderedLines input.block (attributeLines text) := by
  refine attributeLines_fileText (mem_renderedLines (fun line hline hmem => ?_)
    (oneLine_block hproper fun row hrow => notMem_splitOn hrow) List.not_mem_nil)
  exact lineFeed_notMem_attributeLines hline (stripCr_subset _ hmem)

/-- The loose lines come out in their order, but for blank ones at the end. -/
theorem loose_rendered (hproper : input.block.ProperMarkers) {text rendered : JsString}
    (h : renderBaselineMergeAttributes (some text) input = .ok rendered) :
    (trimBlank (looseLines input.block false (attributeLines text))).Sublist
      (attributeLines rendered) := by
  rw [((renderBaselineMergeAttributes_ok hproper).1 h).2, attributeLines_rendered hproper]
  exact (trimBlank_sublist (foldl_loose hproper (attributeLines text) {})).trans
    (trimBlank_renderedLines _ _)

/-! ## One driver -/

theorem settled_rendered (hproper : block.Proper) (hlines : ∀ line ∈ lines, lineFeed ∉ line)
    (hreturns : SingleReturns lines) :
    ∃ before after, Settled block before after (renderedLines block lines) ∧
      ∀ other : ManagedBlock, other.Proper → Strangers block other → Apart block other lines →
        other.openAfter lines = false → other.openAfter before = false ∧
          other.openAfter (renderedLines block lines) = false :=
  (folded_run hproper.toProperMarkers hlines hreturns).finish hproper

/-- Rendering again changes nothing. -/
theorem render_again (hproper : input.block.Proper) {text rendered : JsString}
    (hreturns : SingleReturns (attributeLines text))
    (h : renderBaselineMergeAttributes (some text) input = .ok rendered) :
    renderBaselineMergeAttributes (some rendered) input = .ok rendered := by
  rw [((renderBaselineMergeAttributes_ok hproper.toProperMarkers).1 h).2]
  obtain ⟨before, after, hsettled, -⟩ :=
    settled_rendered hproper (fun _ hline => lineFeed_notMem_attributeLines hline) hreturns
  exact hsettled.render hproper

/-! ## Two drivers -/

theorem not_returns_of_stripped {line : JsString} (h : stripCr line = line) :
    ¬ [carriageReturn, carriageReturn] <:+ line := by
  rintro ⟨front, rfl⟩
  have hlast : (front ++ [carriageReturn, carriageReturn]).getLast? = some carriageReturn := by simp
  rw [stripCr, if_pos hlast] at h
  have hlength := congrArg List.length h
  simp at hlength

/-- The lines of a settled text are those that the driver keeps and those of its block. -/
theorem Blocked.forall_mem {P : JsString → Prop} {before after : List JsString}
    (h : Blocked block before after lines) (hkeeps : ∀ line, block.Keeps line → P line)
    (hblock : ∀ line ∈ block.lines, P line) : ∀ line ∈ lines, P line := by
  obtain ⟨heq, hall⟩ := h
  intro line hline
  rw [heq, List.append_assoc, List.mem_append, List.mem_append] at hline
  rcases hline with hline | hline | hline
  · exact hkeeps line (hall line (List.mem_append_left _ hline))
  · exact hblock line hline
  · exact hkeeps line (hall line (List.mem_append_right _ hline))

theorem legacyAfter_settled {before after : List JsString} (hs : Strangers block other)
    (h : Blocked block before after lines) : legacyAfter lines = false := by
  refine openFrom_unmarked (h.forall_mem (fun line hk => ?_) fun line hline => ?_)
  · have hlegacy := hk.notLegacy
    rw [mem_legacyMarkers, not_or] at hlegacy
    rw [hk.stripped]
    exact ⟨decide_eq_false hlegacy.1, decide_eq_false hlegacy.2⟩
  · have hk := hs.kept line hline
    have hlegacy := hk.notLegacy
    rw [mem_legacyMarkers, not_or] at hlegacy
    rw [hk.stripped]
    exact ⟨decide_eq_false hlegacy.1, decide_eq_false hlegacy.2⟩

/-- Where its block stands outside those of another driver, that driver leaves it settled. -/
theorem Settled.rendered {before after : List JsString} (hproper : block.Proper)
    (hother : other.Proper) (hs : Strangers block other) (h : Settled block before after lines)
    (hopen : other.openAfter before = false) :
    ∃ before' after', Settled block before' after' (renderedLines other lines) := by
  obtain ⟨⟨heq, hall⟩, -⟩ := h
  have hfront : ∀ line ∈ before, block.Keeps (stripCr line) := by
    intro line hline
    have hk := hall line (List.mem_append_left _ hline)
    rwa [hk.stripped]
  have hback : ∀ line ∈ after, block.Keeps (stripCr line) := by
    intro line hline
    have hk := hall line (List.mem_append_right _ hline)
    rwa [hk.stripped]
  -- The fold before the block, over it and after it.
  obtain ⟨first, hfirst, hfirstAll⟩ := foldl_appends hfront hs.keeps {}
  have hskip := (foldl_flags hother.toProperMarkers before).1
  rw [hopen] at hskip
  have hmiddle := foldl_keeps hs.kept hskip
  obtain ⟨last, hlast, hlastAll⟩ := foldl_appends hback hs.keeps
    (block.lines.foldl (foldAttributeLine other) (before.foldl (foldAttributeLine other) {}))
  have hkept : (lines.foldl (foldAttributeLine other) {}).kept = first ++ block.lines ++ last := by
    rw [heq, List.foldl_append, List.foldl_append, hlast, hmiddle, hfirst]
    rfl
  have htrim : trimBlank (first ++ block.lines ++ last) = first ++ block.lines ++ trimBlank last :=
    trimBlank_append (getLast?_block hproper.toProperMarkers first)
  have hkeeps : ∀ line ∈ first ++ trimBlank last, block.Keeps line := by
    intro line hline
    rcases List.mem_append.1 hline with hline | hline
    · exact hfirstAll line hline
    · exact hlastAll line (mem_trimBlank hline)
  rw [renderedLines, finishLines, hkept]
  split
  · exact ⟨first, trimBlank last, ⟨htrim, hkeeps⟩, getLast?_trimBlank _⟩
  · have hne : trimBlank (first ++ block.lines ++ last) ≠ [] := by
      rw [htrim, List.append_assoc]
      exact List.append_ne_nil_of_right_ne_nil _
        (List.append_ne_nil_of_left_ne_nil (List.cons_ne_nil _ _) _)
    rw [if_neg hne, htrim]
    refine ⟨first, trimBlank last ++ [] :: other.lines, ⟨by simp, ?_⟩, ?_⟩
    · rw [← List.append_assoc]
      intro line hline
      rcases List.mem_append.1 hline with hline | hline
      · exact hkeeps line hline
      · rcases List.mem_cons.1 hline with rfl | hline
        · exact hproper.keeps_blank
        · exact hs.keeps line hline
    · have hsplit : first ++ block.lines ++ trimBlank last ++ [] :: other.lines =
          (first ++ block.lines ++ trimBlank last ++ [[]]) ++ other.lines := by simp
      rw [hsplit]
      exact getLast?_block hother.toProperMarkers _

/-- One driver after the other. -/
def Installed (text : JsString) (first second : ManagedAttributes) (rendered : JsString) : Prop :=
  ∃ between, renderBaselineMergeAttributes (some text) first = .ok between ∧
    renderBaselineMergeAttributes (some between) second = .ok rendered

theorem installed_settled {first second : ManagedAttributes} (hfirst : first.block.Proper)
    (hsecond : second.block.Proper) (hs : Strangers first.block second.block) {text : JsString}
    (hreturns : SingleReturns (attributeLines text))
    (hapart : Apart first.block second.block (attributeLines text))
    (hterminated : ¬ Unterminated first.block (attributeLines text))
    (hterminated' : ¬ Unterminated second.block (attributeLines text)) :
    ∃ lines, Installed text first second (fileText lines) ∧
      (∃ before after, Settled first.block before after lines) ∧
      ∃ before after, Settled second.block before after lines := by
  obtain ⟨before, after, hsettled, hopen⟩ := settled_rendered hfirst
    (fun _ hline => lineFeed_notMem_attributeLines hline) hreturns
  obtain ⟨hopenBefore, hopenLines⟩ :=
    hopen second.block hsecond hs hapart (not_unterminated_iff.1 hterminated').1
  have hreturns' : SingleReturns (renderedLines first.block (attributeLines text)) := by
    intro line hline
    exact not_returns_of_stripped (hsettled.blocked.forall_mem (fun line hk => hk.stripped)
      (fun line hline => (hs.kept line hline).stripped) line hline)
  have hagain := settled_rendered hsecond (hsettled.oneLine hfirst) hreturns'
  obtain ⟨before', after', hsettled', -⟩ := hagain
  refine ⟨renderedLines second.block (renderedLines first.block (attributeLines text)),
    ⟨fileText (renderedLines first.block (attributeLines text)), ?_, ?_⟩,
    hsettled.rendered hfirst hsecond hs hopenBefore, before', after', hsettled'⟩
  · exact (renderBaselineMergeAttributes_ok hfirst.toProperMarkers).2 ⟨hterminated, rfl⟩
  · rw [renderBaselineMergeAttributes_ok hsecond.toProperMarkers,
      attributeLines_rendered hfirst.toProperMarkers]
    exact ⟨not_unterminated_iff.2 ⟨hopenLines, legacyAfter_settled hs hsettled.blocked⟩, rfl⟩

/-- A block of the driver: its marker lines and the rows between them. -/
def BlockIn (block : ManagedBlock) (lines rows : List JsString) : Prop :=
  ∃ before after, lines = before ++ block.beginLine :: (rows ++ block.endLine :: after) ∧
    block.beginLine ∉ rows ∧ block.endLine ∉ rows

/-- A settled text has one block of the driver, the one that it asks for. -/
theorem Settled.blockIn_iff {before after rows : List JsString} (hproper : block.Proper)
    (h : Settled block before after lines) : BlockIn block lines rows ↔ rows = block.rows := by
  obtain ⟨⟨heq, hall⟩, -⟩ := h
  have hbegin : block.beginLine ∉ before ∧ block.beginLine ∉ after := by
    constructor
    · exact fun hm => (hall _ (List.mem_append_left _ hm)).notBegin rfl
    · exact fun hm => (hall _ (List.mem_append_right _ hm)).notBegin rfl
  have hrows : block.beginLine ∉ block.rows ∧ block.endLine ∉ block.rows := by
    constructor
    · exact fun hm => (hproper.rows _ hm).2.2.1 hproper.beginMarker.stripped
    · exact fun hm => (hproper.rows _ hm).2.2.2 hproper.endMarker.stripped
  have hlines : lines =
      before ++ block.beginLine :: (block.rows ++ block.endLine :: after) := by
    rw [heq, ManagedBlock.lines]
    simp
  constructor
  · rintro ⟨before', after', heq', hb, he⟩
    -- The begin marker stands in the text once.
    have hcount : lines.count block.beginLine = 1 := by
      rw [hlines, List.count_append, List.count_cons_self, List.count_append,
        List.count_cons_of_ne hproper.distinct.symm, List.count_eq_zero.2 hbegin.1,
        List.count_eq_zero.2 hrows.1, List.count_eq_zero.2 hbegin.2]
    have hbefore' : block.beginLine ∉ before' := by
      rw [heq', List.count_append, List.count_cons_self] at hcount
      rw [← List.count_eq_zero]
      omega
    obtain ⟨-, htail⟩ := append_terminator hbefore' hbegin.1 (heq'.symm.trans hlines)
    exact (append_terminator he hrows.2 htail).1
  · rintro rfl
    exact ⟨before, after, hlines, hrows⟩

/-- Rendering fails exactly on an unterminated block, keeps the loose lines, is stable where no line
ends in two carriage returns, and two drivers whose blocks stand apart install in either order. -/
theorem renderBaselineMergeAttributes_managed (hmarkers : input.block.ProperMarkers)
    (text : JsString) :
    (renderBaselineMergeAttributes (some text) input = .error {} ↔
      Unterminated input.block (attributeLines text)) ∧
    (∀ rendered, renderBaselineMergeAttributes (some text) input = .ok rendered →
      (trimBlank (looseLines input.block false (attributeLines text))).Sublist
        (attributeLines rendered)) ∧
    (input.block.ProperRows → SingleReturns (attributeLines text) →
      ∀ rendered, renderBaselineMergeAttributes (some text) input = .ok rendered →
        renderBaselineMergeAttributes (some rendered) input = .ok rendered) ∧
    ∀ other : ManagedAttributes, input.block.ProperRows → other.block.Proper →
      Strangers input.block other.block → SingleReturns (attributeLines text) →
      Apart input.block other.block (attributeLines text) →
      ¬ Unterminated input.block (attributeLines text) →
      ¬ Unterminated other.block (attributeLines text) →
      ∃ forward backward, Installed text input other forward ∧ Installed text other input backward ∧
        (∀ rendered ∈ [forward, backward],
          renderBaselineMergeAttributes (some rendered) input = .ok rendered ∧
            renderBaselineMergeAttributes (some rendered) other = .ok rendered) ∧
        ∀ block ∈ [input.block, other.block], ∀ rows,
          (BlockIn block (attributeLines forward) rows ↔ rows = block.rows) ∧
            (BlockIn block (attributeLines backward) rows ↔ rows = block.rows) := by
  refine ⟨renderBaselineMergeAttributes_error hmarkers text, fun rendered => loose_rendered hmarkers,
    fun hrows hreturns rendered => render_again ⟨hmarkers, hrows⟩ hreturns,
    fun other hrows hother hs hreturns hapart hterminated hterminated' => ?_⟩
  have hproper : input.block.Proper := ⟨hmarkers, hrows⟩
  obtain ⟨lines, hinstalled, ⟨_, _, hsettled⟩, ⟨_, _, hsettled'⟩⟩ :=
    installed_settled hproper hother hs hreturns hapart hterminated hterminated'
  obtain ⟨lines', hinstalled', ⟨_, _, hback'⟩, ⟨_, _, hback⟩⟩ :=
    installed_settled hother hproper hs.symm hreturns hapart.symm hterminated' hterminated
  refine ⟨fileText lines, fileText lines', hinstalled, hinstalled', ?_, ?_⟩
  · refine List.forall_mem_cons.2 ⟨⟨hsettled.render hproper, hsettled'.render hother⟩,
      List.forall_mem_singleton.2 ⟨hback.render hproper, hback'.render hother⟩⟩
  · rw [attributeLines_fileText (hsettled.oneLine hproper),
      attributeLines_fileText (hback.oneLine hproper)]
    refine List.forall_mem_cons.2 ⟨fun rows => ⟨hsettled.blockIn_iff hproper, hback.blockIn_iff hproper⟩,
      List.forall_mem_singleton.2 fun rows => ⟨hsettled'.blockIn_iff hother, hback'.blockIn_iff hother⟩⟩

end

/-! ## Two runs -/

section Runs

instance decidableKeeps (block : ManagedBlock) (line : JsString) : Decidable (block.Keeps line) :=
  decidable_of_iff (lineFeed ∉ line ∧ stripCr line = line ∧ line ∉ legacyMarkers ∧
      line ≠ block.beginLine ∧ line ≠ block.endLine ∧ firstToken line ∉ block.paths)
    ⟨fun ⟨h₁, h₂, h₃, h₄, h₅, h₆⟩ => ⟨h₁, h₂, h₃, h₄, h₅, h₆⟩,
      fun ⟨h₁, h₂, h₃, h₄, h₅, h₆⟩ => ⟨h₁, h₂, h₃, h₄, h₅, h₆⟩⟩

instance decidableMarks (block : ManagedBlock) (line : JsString) : Decidable (block.Marks line) :=
  inferInstanceAs (Decidable (line = block.beginLine ∨ line = block.endLine))

theorem apart_of_take {block other : ManagedBlock} {lines : List JsString}
    (h : ∀ i, (hi : i < lines.length) →
      (block.Marks (stripCr (lines.get ⟨i, hi⟩)) → other.openAfter (lines.take i) = false) ∧
        (other.Marks (stripCr (lines.get ⟨i, hi⟩)) → block.openAfter (lines.take i) = false)) :
    Apart block other lines := by
  rintro before line after rfl
  have hi := h before.length (by simp)
  have htake : (before ++ line :: after).take before.length = before := by simp
  have hget : (before ++ line :: after).get ⟨before.length, by simp⟩ = line := by simp
  rwa [htake, hget] at hi

def ratchetDriver : ManagedAttributes where
  managedBegin := js "# BEGIN ratchet"
  managedEnd := js "# END ratchet"
  managedAttributes := js "/ratchet.json merge=ratchet"

def knipDriver : ManagedAttributes where
  managedBegin := js "# BEGIN knip"
  managedEnd := js "# END knip"
  managedAttributes := js "/knip.json merge=knip"

theorem properMarker_of {line : JsString} (h : line ≠ [] ∧ lineFeed ∉ line ∧ stripCr line = line ∧
    line ∉ legacyMarkers) : ManagedBlock.ProperMarker line := ⟨h.1, h.2.1, h.2.2.1, h.2.2.2⟩

theorem ratchetDriver_proper : ratchetDriver.block.Proper where
  beginMarker := properMarker_of (by decide +kernel)
  endMarker := properMarker_of (by decide +kernel)
  distinct := by decide +kernel
  rows := by decide +kernel
  blank := by decide +kernel

theorem knipDriver_proper : knipDriver.block.Proper where
  beginMarker := properMarker_of (by decide +kernel)
  endMarker := properMarker_of (by decide +kernel)
  distinct := by decide +kernel
  rows := by decide +kernel
  blank := by decide +kernel

/-- A foreign line, a stale block and a loose row of the driver. -/
def staleAttributes : JsString :=
  js "*.md text\r\n# BEGIN ratchet\r\n/old.json -merge\n# END ratchet\nratchet.json -merge\n\n"

theorem renderBaselineMergeAttributes_managed_stale :
    (∀ rendered, renderBaselineMergeAttributes (some staleAttributes) ratchetDriver = .ok rendered →
      renderBaselineMergeAttributes (some rendered) ratchetDriver = .ok rendered) ∧
    ∃ rendered, Installed staleAttributes ratchetDriver knipDriver rendered ∧
      renderBaselineMergeAttributes (some rendered) ratchetDriver = .ok rendered ∧
      renderBaselineMergeAttributes (some rendered) knipDriver = .ok rendered := by
  have hreturns : SingleReturns (attributeLines staleAttributes) := by
    unfold SingleReturns
    decide +kernel
  obtain ⟨-, -, hagain, htwo⟩ := renderBaselineMergeAttributes_managed
    ratchetDriver_proper.toProperMarkers staleAttributes
  obtain ⟨forward, backward, hforward, -, hstable, -⟩ := htwo knipDriver
    ratchetDriver_proper.toProperRows knipDriver_proper ⟨by decide +kernel, by decide +kernel⟩ hreturns
    (apart_of_take (by decide +kernel))
    (not_unterminated_iff.2 (by decide +kernel)) (not_unterminated_iff.2 (by decide +kernel))
  exact ⟨hagain ratchetDriver_proper.toProperRows hreturns, forward, hforward,
    hstable forward List.mem_cons_self⟩

def renderTwice (text : JsString) (first second : ManagedAttributes) : Option JsString :=
  (renderBaselineMergeAttributes (some text) first).toOption.bind fun rendered =>
    (renderBaselineMergeAttributes (some rendered) second).toOption

def renderOnce (text : JsString) (input : ManagedAttributes) : Option JsString :=
  (renderBaselineMergeAttributes (some text) input).toOption

def holdsLine (line : String) (rendered : Option JsString) : Option Bool :=
  rendered.map fun text => js line ∈ attributeLines text

/-- The two drivers with other rows. -/
def ratchetRows (rows : String) : ManagedAttributes :=
  { ratchetDriver with managedAttributes := js rows }

def knipRows (rows : String) : ManagedAttributes :=
  { knipDriver with managedAttributes := js rows }

def nestedAttributes : JsString :=
  js "# BEGIN ratchet\n# BEGIN knip\n# END knip\n# END ratchet\n"

/-- A line with two carriage returns; a row with the path `/`; a row that is a legacy marker or the
end marker of its own block; one marker line for both ends. Then of two drivers: nested blocks, a row
with a carriage return, a row that is a marker of the other, a row whose path claims the other's
markers. -/
theorem renderBaselineMergeAttributes_managed_fails :
    renderTwice (js "a\r\r\n") ratchetDriver ratchetDriver ≠
      renderOnce (js "a\r\r\n") ratchetDriver ∧
    renderTwice (js "a\n") (ratchetRows "/ text") (ratchetRows "/ text") ≠
      renderOnce (js "a\n") (ratchetRows "/ text") ∧
    renderTwice (js "a\n") (ratchetRows "# BEGIN musi baseline merge attributes")
        (ratchetRows "# BEGIN musi baseline merge attributes") ≠
      renderOnce (js "a\n") (ratchetRows "# BEGIN musi baseline merge attributes") ∧
    renderTwice (js "# BEGIN ratchet\n# END ratchet\na\n") (ratchetRows "# END ratchet\n")
        (ratchetRows "# END ratchet\n") ≠
      renderOnce (js "# BEGIN ratchet\n# END ratchet\na\n") (ratchetRows "# END ratchet\n") ∧
    renderTwice (js "a\n") { ratchetDriver with managedEnd := js "# BEGIN ratchet" }
        { ratchetDriver with managedEnd := js "# BEGIN ratchet" } ≠
      renderOnce (js "a\n") { ratchetDriver with managedEnd := js "# BEGIN ratchet" } ∧
    (holdsLine "# BEGIN knip" (renderTwice nestedAttributes ratchetDriver knipDriver) = some true ∧
      holdsLine "# BEGIN knip" (renderTwice nestedAttributes knipDriver ratchetDriver) = some false) ∧
    ((renderTwice (js "a\n") (ratchetRows "/ratchet.json merge=ratchet\r") knipDriver).bind
        fun rendered => renderOnce rendered (ratchetRows "/ratchet.json merge=ratchet\r")) ≠
      renderTwice (js "a\n") (ratchetRows "/ratchet.json merge=ratchet\r") knipDriver ∧
    (renderTwice (js "a\n") (ratchetRows "# BEGIN knip") knipDriver = none ∧
      renderTwice (js "a\n") knipDriver (ratchetRows "# BEGIN knip") ≠ none) ∧
    holdsLine "# BEGIN ratchet" (renderTwice (js "a\n") ratchetDriver (knipRows "# merge=knip")) =
      some false ∧
    holdsLine "# BEGIN ratchet" (renderTwice (js "a\n") (knipRows "# merge=knip") ratchetDriver) =
      some true := by
  decide +kernel

end Runs

end Musi.LintRatchet
