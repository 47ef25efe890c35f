import Musi.DriftAi.SuppressionPaths

namespace Musi.DriftAi
open Musi.Js
set_option autoImplicit true

open SuppressionDiff

/-! ## Hunk headers -/

theorem visitedText_append {first : JsString} (h : first.getLast? ≠ some Lines.carriageReturn)
    (second : JsString) : visitedText (first ++ second) = first ++ visitedText second := by
  rw [visitedText, visitedText, Lines.dropReturn_append h, Lines.dropReturn_append h]

theorem after?_append (text line : JsString) : after? text (text ++ line) = some line := by
  have hstarts : startsWith (text ++ line) text = true := startsWith_iff.2 (List.prefix_append _ _)
  rw [after?, if_pos hstarts, List.drop_left' rfl]

theorem digits?_natText (n : Nat) {line : JsString} (h : ∀ c, line.head? = some c → isDigit c = false) :
    digits? (natText n ++ line) = some (natText n, line) := by
  obtain ⟨-, hne, hdigit, -⟩ := natText_spec n
  have htake : line.takeWhile isDigit = [] ∧ line.dropWhile isDigit = line := by
    cases line with
    | nil => exact ⟨rfl, rfl⟩
    | cons c line =>
      have hc := h c rfl
      exact ⟨List.takeWhile_cons_of_neg (by rw [hc]; exact Bool.false_ne_true),
        List.dropWhile_cons_of_neg (by rw [hc]; exact Bool.false_ne_true)⟩
  rw [digits?, List.takeWhile_append_of_pos hdigit, List.dropWhile_append_of_pos hdigit, htake.1,
    htake.2, List.append_nil, if_neg hne]

theorem digits?_range (range : HunkRange) (line : JsString) :
    ∃ rest, digits? (range.print ++ js " " ++ line) = some (natText range.start, rest) ∧
      afterCount rest = js " " ++ line := by
  have hspace : js " " = [unit ' '] := by decide
  have hcomma : js "," = [unit ','] := by decide
  have hhead {c : UInt16} {rest : JsString} (hc : isDigit c = false) (d : UInt16)
      (hd : (c :: rest).head? = some d) : isDigit d = false := by
    rw [← Option.some.inj hd]
    exact hc
  cases hcount : range.count with
  | none =>
    refine ⟨js " " ++ line, ?_, ?_⟩
    · rw [HunkRange.print, hcount, List.append_nil, List.append_assoc]
      exact digits?_natText _ (hhead (by decide))
    · have hnot : startsWith (js " " ++ line) (js ",") = false := by
        rw [hspace, hcomma]
        rfl
      rw [afterCount, after?, if_neg (by rw [hnot]; exact Bool.false_ne_true)]
  | some count =>
    refine ⟨js "," ++ (natText count ++ (js " " ++ line)), ?_, ?_⟩
    · rw [HunkRange.print, hcount, hcomma, List.append_assoc, List.append_assoc]
      simp only [List.cons_append, List.nil_append]
      exact digits?_natText _ (hhead (by decide))
    · have hdigits : digits? (natText count ++ (js " " ++ line)) =
          some (natText count, js " " ++ line) :=
        digits?_natText count (hhead (c := unit ' ') (by decide))
      rw [afterCount, after?_append]
      dsimp only
      rw [hdigits]

theorem parseHunkStart_print (hunk : DiffHunk) (heading : JsString) :
    parseHunkStart (js "@@ -" ++ (hunk.oldRange.print ++ (js " +" ++ (hunk.newRange.print ++
      (js " @@" ++ heading))))) = some hunk.newRange.start := by
  have hplus : js " +" = js " " ++ js "+" := by decide
  have hat : js " @@" = js " " ++ js "@@" := by decide
  obtain ⟨oldRest, holdDigits, holdCount⟩ := digits?_range hunk.oldRange
    (js "+" ++ (hunk.newRange.print ++ (js " @@" ++ heading)))
  obtain ⟨newRest, hnewDigits, hnewCount⟩ := digits?_range hunk.newRange (js "@@" ++ heading)
  rw [List.append_assoc, ← List.append_assoc (js " "), ← hplus] at holdDigits
  rw [← List.append_assoc (js " "), ← hplus] at holdCount
  rw [List.append_assoc, ← List.append_assoc (js " "), ← hat] at hnewDigits
  rw [← List.append_assoc (js " "), ← hat] at hnewCount
  have hvalue := (natText_spec hunk.newRange.start).1
  rw [parseHunkStart, after?_append, Option.bind_eq_bind, Option.bind_some, holdDigits]
  simp only [Option.bind_eq_bind, Option.bind_some]
  rw [holdCount, after?_append]
  simp only [Option.bind_some]
  rw [hnewDigits]
  simp only [Option.bind_some]
  rw [hnewCount, after?_append]
  simp only [Option.bind_some]
  exact congrArg some hvalue

/-! ## Kinds of lines -/

theorem startsWith_cons_ne {c d : UInt16} (h : c ≠ d) (s t : JsString) :
    startsWith (c :: s) (d :: t) = false := by
  rw [← Bool.not_eq_true, startsWith_iff, List.cons_prefix_cons]
  exact fun heq => h heq.1.symm

theorem startsWith_append (s t : JsString) : startsWith (s ++ t) s = true :=
  startsWith_iff.2 (List.prefix_append s t)

/-- A line of a hunk as it is read. -/
def HunkLine.seen (line : HunkLine) : JsString := visitedText line.print

theorem seen_cons {c : UInt16} (hc : c ≠ Lines.carriageReturn) (text : JsString) :
    visitedText (c :: text) = c :: visitedText text := by
  have hlast : ([c] : JsString).getLast? ≠ some Lines.carriageReturn := fun h =>
    hc (Option.some.inj h)
  exact visitedText_append hlast text

/-- The kind of a line of a hunk that is being read. -/
def HunkLine.kind : HunkLine → DiffLineKind
  | context _ => .context
  | blankContext => .other
  | added _ => .added
  | deleted _ => .deleted
  | noNewline _ => .metaLine

theorem classify_seen (line : HunkLine) : classifyDiffLine line.seen true = line.kind := by
  have hdiff : js "diff --git " = unit 'd' :: js "iff --git " := by decide
  have hat : js "@@ " = unit '@' :: js "@ " := by decide
  have hplus : js "+" = [unit '+'] := by decide
  have hspace : js " " = [unit ' '] := by decide
  have hminus : js "-" = [unit '-'] := by decide
  rw [classifyDiffLine, hdiff, hat, hplus, hspace, hminus]
  cases line with
  | context text =>
    rw [HunkLine.seen, HunkLine.print, seen_cons (by decide)]
    rfl
  | blankContext => rfl
  | added text =>
    rw [HunkLine.seen, HunkLine.print, seen_cons (by decide)]
    rfl
  | deleted text =>
    rw [HunkLine.seen, HunkLine.print, seen_cons (by decide)]
    rfl
  | noNewline text =>
    rw [HunkLine.seen, HunkLine.print, seen_cons (by decide)]
    rfl

/-- Outside of a hunk, a line of one is passed over. An added line may be taken for the path of a
new file. -/
theorem classify_seen_outside (line : HunkLine) :
    classifyDiffLine line.seen false = .other ∨
      line.isAdded = true ∧ classifyDiffLine line.seen false = .newFile := by
  have hdiff : js "diff --git " = unit 'd' :: js "iff --git " := by decide
  have hat : js "@@ " = unit '@' :: js "@ " := by decide
  have hnew : js "+++ " = unit '+' :: js "++ " := by decide
  rw [classifyDiffLine, hdiff, hat, hnew]
  cases line with
  | context text =>
    rw [HunkLine.seen, HunkLine.print, seen_cons (by decide)]
    exact .inl rfl
  | blankContext => exact .inl rfl
  | added text =>
    have hnoDiff : startsWith (unit '+' :: visitedText text) (unit 'd' :: js "iff --git ") = false :=
      startsWith_cons_ne (by decide) _ _
    have hnoAt : startsWith (unit '+' :: visitedText text) (unit '@' :: js "@ ") = false :=
      startsWith_cons_ne (by decide) _ _
    rw [HunkLine.seen, HunkLine.print, seen_cons (by decide), hnoDiff, hnoAt]
    simp only [Bool.false_eq_true, if_false, Bool.not_false, Bool.true_and, if_true]
    split
    · exact .inr ⟨rfl, rfl⟩
    · exact .inl rfl
  | deleted text =>
    rw [HunkLine.seen, HunkLine.print, seen_cons (by decide)]
    exact .inl rfl
  | noNewline text =>
    rw [HunkLine.seen, HunkLine.print, seen_cons (by decide)]
    exact .inl rfl

/-! ## The lines of a hunk -/

section
variable (changedPaths : List JsString)

/-- The loop over lines that are visited as they are. -/
def readLines (state : ParsedDiff SuppressionLocation) (lines : List JsString) :
    ParsedDiff SuppressionLocation :=
  lines.foldl (applyDiffLine (fun _ location => [location]) changedPaths) state

theorem readLines_append (state : ParsedDiff SuppressionLocation) (first second : List JsString) :
    readLines changedPaths state (first ++ second) =
      readLines changedPaths (readLines changedPaths state first) second := List.foldl_append

/-- Outside of a hunk nothing is visited. -/
theorem readLines_outside (lines : List HunkLine) (state : ParsedDiff SuppressionLocation)
    (h : state.inHunk = false) :
    (readLines changedPaths state (lines.map HunkLine.seen)).findings = state.findings ∧
      (lines.any HunkLine.isAdded = false →
        (readLines changedPaths state (lines.map HunkLine.seen)).currentFile = state.currentFile) := by
  induction lines generalizing state with
  | nil => exact ⟨rfl, fun _ => rfl⟩
  | cons line lines ih =>
    rw [List.map_cons, List.any_cons, Bool.or_eq_false_iff]
    have hstep {next : ParsedDiff SuppressionLocation}
        (hnext : applyDiffLine (fun _ location => [location]) changedPaths state line.seen = next) :
        readLines changedPaths state (line.seen :: lines.map HunkLine.seen) =
          readLines changedPaths next (lines.map HunkLine.seen) := by
      rw [readLines, List.foldl_cons, hnext, readLines]
    rcases classify_seen_outside line with hkind | ⟨hadded, hkind⟩
    · have hother : applyDiffLine (fun _ location => [location]) changedPaths state line.seen =
          { state with inHunk := false, scanState := initialLineScanState } := by
        rw [applyDiffLine, h, hkind]
      have hnext := ih { state with inHunk := false, scanState := initialLineScanState } rfl
      rw [hstep hother]
      exact ⟨hnext.1, fun hnone => hnext.2 hnone.2⟩
    · have hnew : applyDiffLine (fun _ location => [location]) changedPaths state line.seen =
          { state with
            currentFile := parseNewFilePath line.seen changedPaths
            files := state.files ++ (parseNewFilePath line.seen changedPaths).toList.filter
              fun file => file ∉ state.files
            scanState := initialLineScanState } := by
        rw [applyDiffLine, h, hkind]
      have hnext {next : ParsedDiff SuppressionLocation} (hn : next.inHunk = false)
          (hfindings : next.findings = state.findings) :
          (readLines changedPaths next (lines.map HunkLine.seen)).findings = state.findings :=
        (ih next hn).1.trans hfindings
      rw [hstep hnew]
      refine ⟨hnext h rfl, fun hnone => ?_⟩
      rw [hnone.1] at hadded
      cases hadded

/-- The line of the new file after a line of a hunk. -/
def HunkLine.next (line : Nat) : HunkLine → Nat
  | deleted _ => line
  | noNewline _ => line
  | _ => line + 1

/-- What is visited of a line of a hunk. -/
def HunkLine.visits (currentFile : Option JsString) (line : Nat) : HunkLine → List SuppressionLocation
  | added text => (currentFile.filter fun file => file ∈ changedPaths).toList.map fun file =>
      ⟨file, line, visitedText text⟩
  | _ => []

theorem scanAndDetect_visit (text : JsString) (currentFile : Option JsString)
    (scanState : LineScanState) (line : Nat) :
    (scanAndDetect (fun _ location => [location]) changedPaths text currentFile scanState line).2 =
      (currentFile.filter fun file => file ∈ changedPaths).toList.map fun file =>
        (⟨file, line, text⟩ : SuppressionLocation) := by
  cases currentFile with
  | none => rfl
  | some file =>
    simp only [scanAndDetect]
    by_cases hfile : file ∈ changedPaths
    · rw [Option.filter_some, decide_eq_true hfile, if_pos hfile]
      rfl
    · rw [Option.filter_some, decide_eq_false hfile, if_neg hfile]
      rfl

theorem applyDiffLine_seen {state : ParsedDiff SuppressionLocation} (h : state.inHunk = true)
    {line : HunkLine} (hline : line ≠ .blankContext)
    {next : ParsedDiff SuppressionLocation}
    (hnext : applyDiffLine (fun _ location => [location]) changedPaths state line.seen = next) :
    next.inHunk = true ∧ next.currentFile = state.currentFile ∧
      next.newLine = line.next state.newLine ∧
      next.findings = state.findings ++ line.visits changedPaths state.currentFile state.newLine := by
  subst hnext
  rw [applyDiffLine, h, classify_seen]
  cases line with
  | context text => exact ⟨rfl, rfl, rfl, (List.append_nil _).symm⟩
  | blankContext => exact absurd rfl hline
  | added text =>
    have htext : (HunkLine.added text).seen.drop 1 = visitedText text := by
      rw [HunkLine.seen, HunkLine.print, seen_cons (by decide)]
      rfl
    refine ⟨rfl, rfl, rfl, congrArg (state.findings ++ ·) ?_⟩
    rw [htext, scanAndDetect_visit, HunkLine.visits]
  | deleted text => exact ⟨h, rfl, rfl, (List.append_nil _).symm⟩
  | noNewline text => exact ⟨h, rfl, rfl, (List.append_nil _).symm⟩

end

/-! ## What a run visits -/

/-- A run visits no more lines than expected, and exactly those expected under the condition. -/
def Visits (state after : ParsedDiff SuppressionLocation) (expected : List SuppressionLocation)
    (condition : Prop) : Prop :=
  ∃ visited, after.findings = state.findings ++ visited ∧ visited.length ≤ expected.length ∧
    (visited = expected ↔ condition)

theorem Visits.nothing {state after : ParsedDiff SuppressionLocation}
    (h : after.findings = state.findings) : Visits state after [] True :=
  ⟨[], h.trans (List.append_nil _).symm, Nat.le_refl _, iff_of_true rfl trivial⟩

theorem Visits.from {state before after : ParsedDiff SuppressionLocation}
    {expected : List SuppressionLocation} {condition : Prop} (h : Visits state after expected condition)
    (hbefore : state.findings = before.findings) : Visits before after expected condition := by
  obtain ⟨visited, hfindings, hlength, hiff⟩ := h
  exact ⟨visited, hbefore ▸ hfindings, hlength, hiff⟩

theorem Visits.congr {state after : ParsedDiff SuppressionLocation}
    {expected : List SuppressionLocation} {P Q : Prop} (h : Visits state after expected P)
    (hPQ : P ↔ Q) : Visits state after expected Q := by
  obtain ⟨visited, hfindings, hlength, hiff⟩ := h
  exact ⟨visited, hfindings, hlength, hiff.trans hPQ⟩

/-- Two runs visit what is expected together exactly when each does. -/
theorem Visits.trans {state middle after : ParsedDiff SuppressionLocation}
    {first second : List SuppressionLocation} {P Q : Prop} (h : Visits state middle first P)
    (h' : Visits middle after second Q) : Visits state after (first ++ second) (P ∧ Q) := by
  obtain ⟨visited, hfindings, hlength, hiff⟩ := h
  obtain ⟨visited', hfindings', hlength', hiff'⟩ := h'
  refine ⟨visited ++ visited', ?_, ?_, ?_⟩
  · rw [hfindings', hfindings, List.append_assoc]
  · rw [List.length_append, List.length_append]
    exact Nat.add_le_add hlength hlength'
  · rw [← hiff, ← hiff']
    constructor
    · intro heq
      have hsum := congrArg List.length heq
      rw [List.length_append, List.length_append] at hsum
      exact List.append_inj heq (by omega)
    · rintro ⟨heq, heq'⟩
      rw [heq, heq']

section
variable {changedPaths : List JsString}

theorem addedLines_eq_nil {path : JsString} {lines : List HunkLine} (line : Nat) :
    addedLines path line lines = [] ↔ lines.any HunkLine.isAdded = false := by
  induction lines generalizing line with
  | nil => exact iff_of_true rfl rfl
  | cons first lines ih =>
    cases first with
    | context text => exact ih (line + 1)
    | blankContext => exact ih (line + 1)
    | added text => exact iff_of_false (List.cons_ne_nil _ _) (by intro h; cases h)
    | deleted text => exact ih line
    | noNewline text => exact ih line

theorem addedLines_cons {path : JsString} {first : HunkLine} (line : Nat) (lines : List HunkLine) :
    addedLines path line (first :: lines) =
      addedLines path line [first] ++ addedLines path (first.next line) lines := by
  cases first with
  | context text => rfl
  | blankContext => rfl
  | added text => rfl
  | deleted text => rfl
  | noNewline text => rfl

theorem isUnbroken_cons {first : HunkLine} (h : first ≠ .blankContext) (lines : List HunkLine) :
    isUnbroken (first :: lines) = isUnbroken lines := by
  cases first with
  | context text => rfl
  | blankContext => exact absurd rfl h
  | added text => rfl
  | deleted text => rfl
  | noNewline text => rfl

theorem visits_seen (path : JsString) {first : HunkLine}
    (hpath : first.isAdded = true → path ∈ changedPaths)
    {state next : ParsedDiff SuppressionLocation}
    (h : next.findings = state.findings ++ first.visits changedPaths state.currentFile state.newLine) :
    Visits state next (addedLines path state.newLine [first])
      (first.isAdded = true → state.currentFile = some path) := by
  refine ⟨_, h, ?_, ?_⟩
  · cases first with
    | added text =>
      rw [HunkLine.visits, List.length_map]
      exact Option.length_toList_le
    | context text => exact Nat.le_refl _
    | blankContext => exact Nat.le_refl _
    | deleted text => exact Nat.le_refl _
    | noNewline text => exact Nat.le_refl _
  · cases first with
    | added text =>
      have hpath := hpath rfl
      rw [HunkLine.visits]
      cases state.currentFile with
      | none =>
        refine iff_of_false (fun heq => ?_) fun heq => ?_
        · exact List.cons_ne_nil _ _ heq.symm
        · exact absurd (heq rfl) (by intro hn; cases hn)
      | some file =>
        by_cases hfile : file ∈ changedPaths
        · rw [Option.filter_some, decide_eq_true hfile]
          constructor
          · intro heq _
            exact congrArg some (congrArg SuppressionLocation.file (List.cons.inj heq).1)
          · intro heq
            rw [Option.some.inj (heq rfl)]
            rfl
        · rw [Option.filter_some, decide_eq_false hfile]
          refine iff_of_false (fun heq => ?_) fun heq => ?_
          · exact List.cons_ne_nil _ _ heq.symm
          · exact hfile (Option.some.inj (heq rfl) ▸ hpath)
    | context text => exact iff_of_true rfl (fun hadded => by cases hadded)
    | blankContext => exact iff_of_true rfl (fun hadded => by cases hadded)
    | deleted text => exact iff_of_true rfl (fun hadded => by cases hadded)
    | noNewline text => exact iff_of_true rfl (fun hadded => by cases hadded)

/-- A hunk is visited as expected when no blank line breaks it off before an added line, and the
current file is the one it belongs to. -/
theorem visits_hunkLines (path : JsString) (lines : List HunkLine)
    (hpath : lines.any HunkLine.isAdded = true → path ∈ changedPaths)
    (state : ParsedDiff SuppressionLocation) (h : state.inHunk = true) :
    Visits state (readLines changedPaths state (lines.map HunkLine.seen))
        (addedLines path state.newLine lines)
        (isUnbroken lines = true ∧
          (lines.any HunkLine.isAdded = true → state.currentFile = some path)) ∧
      (isUnbroken lines = true →
        (readLines changedPaths state (lines.map HunkLine.seen)).currentFile = state.currentFile) := by
  induction lines generalizing state with
  | nil =>
    exact ⟨(Visits.nothing rfl).congr (iff_of_true trivial ⟨rfl, fun hadded => by cases hadded⟩),
      fun _ => rfl⟩
  | cons first lines ih =>
    by_cases hfirst : first = .blankContext
    · subst hfirst
      have hother : applyDiffLine (fun _ location => [location]) changedPaths state
          HunkLine.blankContext.seen =
            { state with inHunk := false, scanState := initialLineScanState } := by
        rw [applyDiffLine, h, classify_seen]
        rfl
      obtain ⟨hfindings, hfile⟩ := readLines_outside changedPaths lines
        { state with inHunk := false, scanState := initialLineScanState } rfl
      have hrun : readLines changedPaths state ((HunkLine.blankContext :: lines).map HunkLine.seen) =
          readLines changedPaths { state with inHunk := false, scanState := initialLineScanState }
            (lines.map HunkLine.seen) := by
        rw [List.map_cons, readLines, List.foldl_cons, hother, readLines]
      have hbroken : isUnbroken (.blankContext :: lines) = !lines.any HunkLine.isAdded := rfl
      rw [hrun, hbroken, Bool.not_eq_true']
      refine ⟨⟨[], hfindings.trans (List.append_nil _).symm, Nat.zero_le _, ?_⟩, hfile⟩
      rw [eq_comm, addedLines_eq_nil]
      constructor
      · intro hnone
        refine ⟨hnone, fun hadded => ?_⟩
        rw [hnone] at hadded
        cases hadded
      · intro hcondition
        exact hcondition.1
    · obtain ⟨hinHunk, hfile, hline, hfindings⟩ := applyDiffLine_seen changedPaths h hfirst rfl
      have hstep := visits_seen path
        (fun hadded => hpath (by rw [List.any_cons, hadded, Bool.true_or])) hfindings
      obtain ⟨hvisits, hkept⟩ := ih (fun hadded => hpath (by rw [List.any_cons, hadded, Bool.or_true]))
        _ hinHunk
      rw [hline, hfile] at hvisits
      rw [addedLines_cons, isUnbroken_cons hfirst]
      refine ⟨(hstep.trans hvisits).congr ?_, fun hunbroken => (hkept hunbroken).trans hfile⟩
      rw [List.any_cons, Bool.or_eq_true]
      tauto

/-! ## Hunks and files -/

variable (changedPaths)

def DiffHunk.seen (hunk : DiffHunk) : List JsString := hunk.print.map visitedText

theorem applyDiffLine_header (state : ParsedDiff SuppressionLocation) (hunk : DiffHunk) :
    applyDiffLine (fun _ location => [location]) changedPaths state
      (visitedText (js "@@ -" ++ (hunk.oldRange.print ++ (js " +" ++ (hunk.newRange.print ++
        (js " @@" ++ hunk.heading)))))) =
      { state with
        newLine := hunk.newRange.start, inHunk := true, scanState := initialLineScanState } := by
  have hstart : ((js "@@ -" ++ (hunk.oldRange.print ++ (js " +" ++ (hunk.newRange.print ++
      js " @@")))) : JsString).getLast? ≠ some Lines.carriageReturn := by
    have hne : js " @@" ≠ [] := by decide
    rw [← List.append_assoc, ← List.append_assoc, ← List.append_assoc,
      List.getLast?_append_of_ne_nil _ hne]
    decide
  have hheader : visitedText (js "@@ -" ++ (hunk.oldRange.print ++ (js " +" ++
      (hunk.newRange.print ++ (js " @@" ++ hunk.heading))))) =
        js "@@ -" ++ (hunk.oldRange.print ++ (js " +" ++ (hunk.newRange.print ++
          (js " @@" ++ visitedText hunk.heading)))) := by
    have happend := visitedText_append hstart hunk.heading
    simp only [List.append_assoc] at happend
    exact happend
  have hkind (rest : JsString) : classifyDiffLine (js "@@ -" ++ rest) state.inHunk = .hunkHeader := by
    have hdash : js "@@ -" = js "@@ " ++ js "-" := by decide
    have hdiff : startsWith (js "@@ -" ++ rest) (js "diff --git ") = false := by
      have hd : js "diff --git " = unit 'd' :: js "iff --git " := by decide
      have ha : js "@@ -" = unit '@' :: js "@ -" := by decide
      rw [hd, ha]
      exact startsWith_cons_ne (by decide) _ _
    have hnew : startsWith (js "@@ -" ++ rest) (js "+++ ") = false := by
      have hd : js "+++ " = unit '+' :: js "++ " := by decide
      have ha : js "@@ -" = unit '@' :: js "@ -" := by decide
      rw [hd, ha]
      exact startsWith_cons_ne (by decide) _ _
    have hat : startsWith (js "@@ -" ++ rest) (js "@@ ") = true := by
      rw [hdash, List.append_assoc]
      exact startsWith_append _ _
    rw [classifyDiffLine, hdiff, hnew, hat, Bool.and_false]
    rfl
  rw [hheader, applyDiffLine, hkind, parseHunkStart_print]

theorem visits_hunks (path : JsString) (hunks : List DiffHunk)
    (hpath : (∃ hunk ∈ hunks, hunk.lines.any HunkLine.isAdded = true) → path ∈ changedPaths)
    (state : ParsedDiff SuppressionLocation) :
    Visits state (readLines changedPaths state (hunks.flatMap DiffHunk.seen))
      (hunks.flatMap (DiffHunk.addedLines path))
      ((∀ hunk ∈ hunks, isUnbroken hunk.lines = true) ∧
        ((∃ hunk ∈ hunks, hunk.lines.any HunkLine.isAdded = true) →
          state.currentFile = some path)) := by
  induction hunks generalizing state with
  | nil =>
    refine (Visits.nothing rfl).congr (iff_of_true trivial ⟨fun _ hhunk => absurd hhunk List.not_mem_nil, ?_⟩)
    rintro ⟨hunk, hhunk, -⟩
    cases hhunk
  | cons hunk hunks ih =>
    obtain ⟨hvisits, hkept⟩ := visits_hunkLines path hunk.lines
      (fun hadded => hpath ⟨hunk, List.mem_cons_self, hadded⟩)
      { state with newLine := hunk.newRange.start, inHunk := true, scanState := initialLineScanState }
      rfl
    have hrest := ih (fun ⟨later, hlater, hadded⟩ =>
      hpath ⟨later, List.mem_cons_of_mem _ hlater, hadded⟩)
      (readLines changedPaths
        { state with
          newLine := hunk.newRange.start, inHunk := true, scanState := initialLineScanState }
        (hunk.lines.map HunkLine.seen))
    have hrun : readLines changedPaths state ((hunk :: hunks).flatMap DiffHunk.seen) =
        readLines changedPaths (readLines changedPaths
          { state with
            newLine := hunk.newRange.start, inHunk := true, scanState := initialLineScanState }
          (hunk.lines.map HunkLine.seen)) (hunks.flatMap DiffHunk.seen) := by
      rw [List.flatMap_cons, readLines_append, DiffHunk.seen, DiffHunk.print, List.map_cons,
        List.map_map]
      refine congrArg (readLines changedPaths · _) ?_
      rw [readLines, List.foldl_cons, applyDiffLine_header]
      rfl
    rw [hrun, List.flatMap_cons]
    have hfirst : Visits state _ _ _ := hvisits
    refine (hfirst.trans hrest).congr ?_
    rw [List.forall_mem_cons]
    constructor
    · rintro ⟨⟨hunbroken, hfile⟩, hlater, hlaterFile⟩
      refine ⟨⟨hunbroken, hlater⟩, ?_⟩
      rintro ⟨found, hfound, hadded⟩
      rcases List.mem_cons.1 hfound with rfl | hfound
      · exact hfile hadded
      · exact (hkept hunbroken).symm.trans (hlaterFile ⟨found, hfound, hadded⟩)
    · rintro ⟨⟨hunbroken, hlater⟩, hfile⟩
      refine ⟨⟨hunbroken, fun hadded => hfile ⟨hunk, List.mem_cons_self, hadded⟩⟩, hlater, ?_⟩
      rintro ⟨found, hfound, hadded⟩
      exact (hkept hunbroken).trans (hfile ⟨found, List.mem_cons_of_mem _ hfound, hadded⟩)

theorem visitedText_isPrefix (text : JsString) : visitedText text <+: text := by
  have hdrop (text : JsString) : Lines.dropReturn text <+: text := by
    rw [Lines.dropReturn]
    split
    · exact List.dropLast_prefix text
    · exact List.prefix_rfl
  exact (hdrop _).trans (hdrop text)

/-- The header of a file is passed over. -/
theorem readLines_header {header : List JsString}
    (h : ∀ line ∈ header, ¬ js "diff --git " <+: line ∧ ¬ js "+++ " <+: line ∧ ¬ js "@@ " <+: line)
    (state : ParsedDiff SuppressionLocation) (hstate : state.inHunk = false) :
    (readLines changedPaths state (header.map visitedText)).findings = state.findings ∧
      (readLines changedPaths state (header.map visitedText)).inHunk = false := by
  induction header generalizing state with
  | nil => exact ⟨rfl, hstate⟩
  | cons line header ih =>
    rw [List.forall_mem_cons] at h
    have hnot {text : JsString} (htext : ¬ text <+: line) :
        startsWith (visitedText line) text = false := by
      rw [← Bool.not_eq_true, startsWith_iff]
      exact fun hstarts => htext (hstarts.trans (visitedText_isPrefix line))
    have hkind : classifyDiffLine (visitedText line) false = .other := by
      rw [classifyDiffLine, hnot h.1.1, hnot h.1.2.1, hnot h.1.2.2, Bool.and_false]
      rfl
    have hother : applyDiffLine (fun _ location => [location]) changedPaths state (visitedText line) =
        { state with inHunk := false, scanState := initialLineScanState } := by
      rw [applyDiffLine, hstate, hkind]
    have hrun : readLines changedPaths state ((line :: header).map visitedText) =
        readLines changedPaths { state with inHunk := false, scanState := initialLineScanState }
          (header.map visitedText) := by
      rw [List.map_cons, readLines, List.foldl_cons, hother, readLines]
    rw [hrun]
    exact ih h.2 { state with inHunk := false, scanState := initialLineScanState } rfl

theorem applyDiffLine_command (state : ParsedDiff SuppressionLocation) (command : JsString) :
    applyDiffLine (fun _ location => [location]) changedPaths state
        (visitedText (js "diff --git " ++ command)) =
      { state with currentFile := none, inHunk := false, scanState := initialLineScanState } := by
  have htext : visitedText (js "diff --git " ++ command) = js "diff --git " ++ visitedText command :=
    visitedText_append (by decide) command
  rw [htext, applyDiffLine, classifyDiffLine, if_pos (startsWith_append _ _)]

theorem applyDiffLine_target {state : ParsedDiff SuppressionLocation} (h : state.inHunk = false)
    (diffPrefix : DiffPrefix) (target : DiffTarget) :
    ∃ next, applyDiffLine (fun _ location => [location]) changedPaths state
        (visitedText (js "+++ " ++ target.print diffPrefix)) = next ∧
      next.findings = state.findings ∧
      next.currentFile = parseNewFilePath (js "+++ " ++ target.print diffPrefix) changedPaths := by
  have hreturn : Lines.carriageReturn ∉ target.print diffPrefix := by
    cases target with
    | deletedFile =>
      have hnull : Lines.carriageReturn ∉ js "/dev/null" := by decide
      exact hnull
    | newFile path =>
      intro hmem
      rcases path.print_units diffPrefix hmem with heq | hle
      · exact absurd heq (by decide)
      · exact absurd hle (by decide)
  have htext : visitedText (js "+++ " ++ target.print diffPrefix) =
      js "+++ " ++ target.print diffPrefix := by
    have hlast : (js "+++ " ++ target.print diffPrefix).getLast? ≠ some Lines.carriageReturn := by
      intro hlast
      rcases List.mem_append.1 (List.mem_of_getLast? hlast) with hmem | hmem
      · revert hmem
        decide
      · exact hreturn hmem
    rw [visitedText, Lines.dropReturn_of_ne hlast, Lines.dropReturn_of_ne hlast]
  have hkind : classifyDiffLine (js "+++ " ++ target.print diffPrefix) false = .newFile := by
    have hd : js "diff --git " = unit 'd' :: js "iff --git " := by decide
    have hp : js "+++ " = unit '+' :: js "++ " := by decide
    have hdiff : startsWith (js "+++ " ++ target.print diffPrefix) (js "diff --git ") = false := by
      rw [hd, hp]
      exact startsWith_cons_ne (by decide) _ _
    rw [classifyDiffLine, hdiff, startsWith_append]
    rfl
  refine ⟨_, rfl, ?_, ?_⟩
  · rw [htext, applyDiffLine, h, hkind]
  · rw [htext, applyDiffLine, h, hkind]

theorem visits_file (diffPrefix : DiffPrefix) {file : DiffFile}
    (hpath : ∀ path, file.path? = some path → path ∈ changedPaths)
    (state : ParsedDiff SuppressionLocation) :
    Visits state (readLines changedPaths state ((file.print diffPrefix).map visitedText))
      file.addedLines (file.Followed diffPrefix changedPaths) := by
  have hheader := readLines_header changedPaths file.heading
    { state with currentFile := none, inHunk := false, scanState := initialLineScanState } rfl
  have hrun : readLines changedPaths state ((file.print diffPrefix).map visitedText) =
      readLines changedPaths (readLines changedPaths
        { state with currentFile := none, inHunk := false, scanState := initialLineScanState }
        (file.header.map visitedText))
        (((if file.hunks.isEmpty then [] else [js "+++ " ++ file.target.print diffPrefix]) ++
          file.hunks.flatMap DiffHunk.print).map visitedText) := by
    rw [DiffFile.print, List.map_cons, List.map_append, readLines, List.foldl_cons,
      applyDiffLine_command, List.foldl_append]
    rfl
  rw [hrun]
  generalize readLines changedPaths
    { state with currentFile := none, inHunk := false, scanState := initialLineScanState }
    (file.header.map visitedText) = opened at hheader
  have hfindings : opened.findings = state.findings := hheader.1
  by_cases hhunks : file.hunks = []
  · have hnothing : file.addedLines = [] := by
      rw [DiffFile.addedLines, hhunks]
      split
      · rfl
      · rfl
    rw [hnothing, hhunks]
    refine (Visits.nothing hfindings).congr (iff_of_true trivial ⟨?_, ?_⟩)
    · intro hunk hhunk
      rw [hhunks] at hhunk
      cases hhunk
    · rintro ⟨hunk, hhunk, -⟩
      rw [hhunks] at hhunk
      cases hhunk
  · obtain ⟨next, hnext, hnextFindings, hfile⟩ :=
      applyDiffLine_target changedPaths hheader.2 diffPrefix file.target
    have hnonempty : file.hunks.isEmpty = false := by
      rw [← Bool.not_eq_true, List.isEmpty_iff]
      exact hhunks
    have hhunkLines : readLines changedPaths opened
        (((if file.hunks.isEmpty then [] else [js "+++ " ++ file.target.print diffPrefix]) ++
          file.hunks.flatMap DiffHunk.print).map visitedText) =
        readLines changedPaths next (file.hunks.flatMap DiffHunk.seen) := by
      rw [hnonempty, if_neg Bool.false_ne_true, List.singleton_append, List.map_cons, readLines,
        List.foldl_cons, hnext, List.map_flatMap]
      rfl
    rw [hhunkLines]
    have hbefore : next.findings = state.findings := hnextFindings.trans hfindings
    cases htarget : file.target with
    | deletedFile =>
      have hadded : ¬ ∃ hunk ∈ file.hunks, hunk.lines.any HunkLine.isAdded = true := by
        rintro ⟨hunk, hhunk, hany⟩
        obtain ⟨line, hline, hadded⟩ := List.any_eq_true.1 hany
        rcases file.deletion hunk hhunk line hline with ⟨path, hpath⟩ | ⟨text, rfl | rfl⟩
        · rw [htarget] at hpath
          cases hpath
        · cases hadded
        · cases hadded
      have hvisits := visits_hunks changedPaths [] file.hunks
        (fun hany => absurd hany hadded) next
      have hexpected : file.hunks.flatMap (DiffHunk.addedLines []) = file.addedLines := by
        rw [DiffFile.addedLines, DiffFile.path?, htarget, List.flatMap_eq_nil_iff]
        intro hunk hhunk
        rw [DiffHunk.addedLines, addedLines_eq_nil, ← Bool.not_eq_true]
        exact fun hany => hadded ⟨hunk, hhunk, hany⟩
      rw [hexpected] at hvisits
      refine (hvisits.from hbefore).congr ⟨fun h => ⟨h.1, fun hany => absurd hany hadded⟩, fun h => ?_⟩
      exact ⟨h.unbroken, fun hany => absurd hany hadded⟩
    | newFile path =>
      have hpath? : file.path? = some path.path := by rw [DiffFile.path?, htarget]
      have hchanged := hpath path.path hpath?
      have hvisits := visits_hunks changedPaths path.path file.hunks
        (fun _ => hchanged) next
      have hexpected : file.hunks.flatMap (DiffHunk.addedLines path.path) = file.addedLines := by
        rw [DiffFile.addedLines, hpath?]
      rw [hexpected] at hvisits
      rw [hfile, htarget] at hvisits
      refine (hvisits.from hbefore).congr ⟨fun h => ⟨h.1, fun hany found hfound => ?_⟩, fun h => ?_⟩
      · rw [htarget] at hfound
        cases hfound
        exact (path.parse_iff diffPrefix hchanged).1 (h.2 hany)
      · exact ⟨h.unbroken, fun hany =>
          (path.parse_iff diffPrefix hchanged).2 (h.recovered hany path htarget)⟩

/-- The printed files visit what is expected of each exactly where each is followed. -/
theorem visits_files (diffPrefix : DiffPrefix) (files : List DiffFile)
    (hpath : ∀ file ∈ files, ∀ path, file.path? = some path → path ∈ changedPaths)
    (state : ParsedDiff SuppressionLocation) :
    Visits state
      (readLines changedPaths state ((files.flatMap (DiffFile.print diffPrefix)).map visitedText))
      (files.flatMap DiffFile.addedLines) (∀ file ∈ files, file.Followed diffPrefix changedPaths) := by
  induction files generalizing state with
  | nil => exact (Visits.nothing rfl).congr (iff_of_true trivial (List.forall_mem_nil _))
  | cons file files ih =>
    rw [List.forall_mem_cons] at hpath
    have hfile := visits_file changedPaths diffPrefix hpath.1 state
    have hfiles := ih hpath.2
      (readLines changedPaths state ((file.print diffPrefix).map visitedText))
    rw [List.flatMap_cons, List.map_append, readLines_append, List.flatMap_cons, List.forall_mem_cons]
    exact hfile.trans hfiles

end

/-! ## The text of a diff -/

theorem lineFeed_notMem_range (range : HunkRange) : Lines.lineFeed ∉ range.print := by
  have hnat (n : Nat) : Lines.lineFeed ∉ natText n := notMem_natText (by decide) n
  rw [HunkRange.print, List.mem_append, not_or]
  refine ⟨hnat _, ?_⟩
  cases range.count with
  | none => exact List.not_mem_nil
  | some count =>
    rw [List.mem_cons, not_or]
    exact ⟨by decide, hnat count⟩

theorem lineFeed_notMem_hunk {hunk : DiffHunk} {line : JsString} (h : line ∈ hunk.print) :
    Lines.lineFeed ∉ line := by
  rw [DiffHunk.print, List.mem_cons] at h
  rcases h with rfl | h
  · simp only [List.mem_append, not_or]
    exact ⟨by decide, lineFeed_notMem_range _, by decide, lineFeed_notMem_range _, by decide,
      hunk.oneLine.1⟩
  · obtain ⟨found, hfound, rfl⟩ := List.mem_map.1 h
    exact hunk.oneLine.2 found hfound

theorem lineFeed_notMem_file {diffPrefix : DiffPrefix} {file : DiffFile} {line : JsString}
    (h : line ∈ file.print diffPrefix) : Lines.lineFeed ∉ line := by
  rw [DiffFile.print, List.mem_cons, List.mem_append, List.mem_append] at h
  rcases h with rfl | h | h | h
  · rw [List.mem_append, not_or]
    exact ⟨by decide, file.oneLine.1⟩
  · exact file.oneLine.2 line h
  · split at h
    · cases h
    · rw [List.mem_singleton.1 h, List.mem_append, not_or]
      refine ⟨by decide, ?_⟩
      cases file.target with
      | deletedFile =>
        have hnull : Lines.lineFeed ∉ js "/dev/null" := by decide
        exact hnull
      | newFile path =>
        intro hmem
        rcases path.print_units diffPrefix hmem with heq | hle
        · exact absurd heq (by decide)
        · exact absurd hle (by decide)
  · obtain ⟨hunk, -, hline⟩ := List.mem_flatMap.1 h
    exact lineFeed_notMem_hunk hline

/-- The loop reads the lines of a printed diff, and an empty one at its end. -/
theorem visitedLines_print (diffPrefix : DiffPrefix) (files : List DiffFile)
    (changedPaths : List JsString) :
    visitedLines (printDiff diffPrefix files) changedPaths =
      (readLines changedPaths startParsedDiff
        ((files.flatMap (DiffFile.print diffPrefix)).map visitedText)).findings := by
  have hlines : ∀ line ∈ files.flatMap (DiffFile.print diffPrefix), Lines.lineFeed ∉ line := by
    intro line hline
    obtain ⟨file, -, hline⟩ := List.mem_flatMap.1 hline
    exact lineFeed_notMem_file hline
  have hdropped : ∀ line ∈ (files.flatMap (DiffFile.print diffPrefix)).map Lines.dropReturn,
      Lines.lineFeed ∉ line := by
    intro line hline
    obtain ⟨printed, hprinted, rfl⟩ := List.mem_map.1 hline
    exact Lines.notMem_dropReturn (hlines printed hprinted)
  rw [visitedLines, parseSuppressionDiff, printDiff, Lines.unifyEnds_print hlines,
    Lines.splitOn_print hdropped, List.map_append, List.map_map, List.foldl_append]
  have hother (inHunk : Bool) : classifyDiffLine [] inHunk = .other := by
    cases inHunk with
    | true => rfl
    | false => rfl
  have hend (state : ParsedDiff SuppressionLocation) :
      (applyDiffLine (fun _ location => [location]) changedPaths state []).findings =
        state.findings := by
    rw [applyDiffLine, hother]
  exact hend _

/-- Every added line of a printed diff is visited once, with its text and its line, exactly where
each of the files is followed. -/
theorem visitedLines_exact (diffPrefix : DiffPrefix) (files : List DiffFile) :
    visitedLines (printDiff diffPrefix files) (changedPathsOf files) =
        files.flatMap DiffFile.addedLines ↔
      ∀ file ∈ files, file.Followed diffPrefix (changedPathsOf files) := by
  have hpath : ∀ file ∈ files, ∀ path, file.path? = some path → path ∈ changedPathsOf files :=
    fun file hfile path hpath => List.mem_filterMap.2 ⟨file, hfile, hpath⟩
  obtain ⟨visited, hfindings, -, hiff⟩ := visits_files (changedPathsOf files) diffPrefix files hpath startParsedDiff
  rw [visitedLines_print, hfindings]
  exact hiff

/-- A line is added to a file after a blank line, which is printed without its space. -/
def diffAfterBlank : DiffFile where
  command := js "a/a b/a"
  header := [js "--- a/a"]
  target := .newFile ⟨[.plain (unit 'a')], false, false, by
    intro piece hpiece
    rw [List.mem_singleton.1 hpiece]
    exact ⟨by decide, by decide, by decide⟩, fun _ piece hpiece => ⟨_, List.mem_singleton.1 hpiece⟩,
    by decide⟩
  hunks := [⟨⟨1, none⟩, ⟨1, some 2⟩, [], [.blankContext, .added (js "b")], by decide⟩]
  oneLine := by decide
  heading := by decide
  deletion := fun _ _ _ _ => .inl ⟨_, rfl⟩

/-- The added line after a blank line of context is not visited. -/
theorem visitedLines_fails : ¬ visitedLines (printDiff .standard [diffAfterBlank])
    (changedPathsOf [diffAfterBlank]) = [diffAfterBlank].flatMap DiffFile.addedLines := by
  decide +kernel

end Musi.DriftAi
