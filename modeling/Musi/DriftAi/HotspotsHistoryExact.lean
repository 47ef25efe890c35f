import Musi.DriftAi.HotspotsHistory
import Musi.DriftAi.MinhashCandidates
import Musi.Js.JsonRoundTrip

namespace Musi.DriftAi
open Musi.Js
set_option autoImplicit true

section
variable {N : Type} [JsNumber N]

/-! ## The text as lines -/

theorem getLast?_join {c d : UInt16} (hcd : c ≠ d) {parts : List JsString}
    (h : ∀ part ∈ parts, part.getLast? ≠ some d) : (join [c] parts).getLast? ≠ some d := by
  fun_induction join [c] parts with
  | case1 =>
    intro hd
    cases hd
  | case2 part => exact h part List.mem_cons_self
  | case3 part next parts ih =>
    rw [List.forall_mem_cons] at h
    rw [List.append_assoc, List.getLast?_append, List.singleton_append, List.getLast?_cons]
    cases hlast : (join [c] (next :: parts)).getLast? with
    | none =>
      intro hd
      exact hcd (Option.some.inj hd)
    | some last =>
      intro hd
      exact ih h.2 (hlast.trans hd)

/-! ## Header lines -/

def GitCommit.fields (commit : GitCommit) : List JsString :=
  [commit.hash, commit.authorName, commit.authorEmail, commit.authorDate, commit.committerDate,
    commit.subject, join [GitLog.outCoAuthor] commit.coAuthors]

theorem header_eq (commit : GitCommit) : gitLogFormat.flatMap commit.print =
    GitLog.outRecord :: join [GitLog.outField] commit.fields := by
  simp only [gitLogFormat, GitCommit.fields, List.flatMap_cons, List.flatMap_nil, GitCommit.print,
    join, List.append_assoc, List.singleton_append, List.append_nil]

theorem notMem_join {c d : UInt16} (hcd : d ≠ c) {parts : List JsString}
    (h : ∀ part ∈ parts, d ∉ part) : d ∉ join [c] parts := by
  fun_induction join [c] parts with
  | case1 => exact List.not_mem_nil
  | case2 part => exact h part List.mem_cons_self
  | case3 part next parts ih =>
    rw [List.forall_mem_cons] at h
    rw [List.mem_append, List.mem_append, List.mem_singleton, not_or, not_or]
    exact ⟨⟨h.1, hcd⟩, ih h.2⟩

theorem forall_fields {commit : GitCommit} {P : JsString → Prop}
    (h : ∀ field ∈ [commit.hash, commit.authorName, commit.authorEmail, commit.authorDate,
      commit.committerDate, commit.subject], P field)
    (hlast : P (join [GitLog.outCoAuthor] commit.coAuthors)) :
    ∀ field ∈ commit.fields, P field := by
  intro field hfield
  have hsplit : commit.fields = [commit.hash, commit.authorName, commit.authorEmail,
      commit.authorDate, commit.committerDate, commit.subject] ++
        [join [GitLog.outCoAuthor] commit.coAuthors] := rfl
  rw [hsplit, List.mem_append, List.mem_singleton] at hfield
  rcases hfield with hfield | rfl
  · exact h field hfield
  · exact hlast

theorem lineFeed_notMem_header {commit : GitCommit} (h : commit.Separated) :
    Lines.lineFeed ∉ gitLogFormat.flatMap commit.print := by
  have hlast : Lines.lineFeed ∉ join [GitLog.outCoAuthor] commit.coAuthors :=
    notMem_join (by decide) fun value hvalue => (h.coAuthors value hvalue).1
  rw [header_eq, List.mem_cons, not_or]
  exact ⟨by decide, notMem_join (by decide) (forall_fields commit.oneLine hlast)⟩

theorem header_getLast? (commit : GitCommit) :
    (gitLogFormat.flatMap commit.print).getLast? ≠ some Lines.carriageReturn := by
  have hlast : (join [GitLog.outCoAuthor] commit.coAuthors).getLast? ≠ some Lines.carriageReturn :=
    getLast?_join (by decide) commit.trimmed
  have hsplit : gitLogFormat.flatMap commit.print = (gitLogFormat.dropLast.flatMap commit.print) ++
      join [GitLog.outCoAuthor] commit.coAuthors := by
    simp only [gitLogFormat, List.dropLast, List.flatMap_cons, List.flatMap_nil, GitCommit.print,
      List.append_assoc, List.append_nil]
  have hfield : (gitLogFormat.dropLast.flatMap commit.print).getLast? = some GitLog.outField := by
    simp only [gitLogFormat, List.dropLast, List.flatMap_cons, List.flatMap_nil, GitCommit.print,
      List.append_nil]
    simp only [← List.append_assoc, List.getLast?_concat]
  rw [hsplit, List.getLast?_append, hfield]
  cases hjoin : (join [GitLog.outCoAuthor] commit.coAuthors).getLast? with
  | none =>
    intro h
    exact absurd (Option.some.inj h) (by decide)
  | some last =>
    intro h
    exact hlast (hjoin.trans h)

theorem coAuthors_read {values : List JsString} (h : ∀ value ∈ values, GitLog.outCoAuthor ∉ value) :
    (if (join [GitLog.outCoAuthor] values).length = 0 then []
      else (splitOn GitLog.outCoAuthor (join [GitLog.outCoAuthor] values)).filter
        fun value => value.length > 0) = values.filter fun value => value ≠ [] := by
  have hfilter : (fun value : JsString => decide (value.length > 0)) = fun value => decide (value ≠ []) := by
    funext value
    rw [decide_eq_decide, gt_iff_lt, List.length_pos_iff]
  rw [hfilter]
  by_cases hvalues : values = []
  · rw [hvalues]
    rfl
  · split
    · next hlength =>
      have hnil := congrArg (splitOn GitLog.outCoAuthor) (List.length_eq_zero_iff.1 hlength)
      rw [splitOn_joined hvalues h] at hnil
      rw [hnil]
      rfl
    · rw [splitOn_joined hvalues h]

omit [JsNumber N] in
theorem startRecord_header {commit : GitCommit} (h : commit.Separated) :
    (startRecord (join [GitLog.outField] commit.fields) : CommitRecord N) =
      commit.recordWith (commit.coAuthors.filter fun value => value ≠ []) [] := by
  have hlast : GitLog.outField ∉ join [GitLog.outCoAuthor] commit.coAuthors :=
    notMem_join (by decide) fun value hvalue => (h.coAuthors value hvalue).2.1
  have hsplit : splitOn GitLog.outField (join [GitLog.outField] commit.fields) = commit.fields :=
    splitOn_joined (List.cons_ne_nil _ _) (forall_fields h.fields hlast)
  rw [startRecord, hsplit, ← coAuthors_read fun value hvalue => (h.coAuthors value hvalue).2.2]
  rfl

/-! ## File rows -/

theorem splitTab_append {text : JsString} (h : GitLog.tab ∉ text) (rest : JsString) :
    splitTab (text ++ GitLog.tab :: rest) = some (text, rest) := by
  have hp : ∀ c ∈ text, decide (c ≠ GitLog.tab) = true := fun c hc =>
    decide_eq_true fun he => h (he ▸ hc)
  rw [splitTab, List.dropWhile_append_of_pos hp, List.takeWhile_append_of_pos hp,
    List.dropWhile_cons_of_neg (by decide), List.takeWhile_cons_of_neg (by decide), List.append_nil]

theorem parseInt_natText (n : Nat) : (parseInt (natText n) : Option N) = some (JsNumber.ofInt n) := by
  obtain ⟨hvalue, hne, hdigit, -⟩ := natText_spec n
  obtain ⟨c, s, hs⟩ := List.exists_cons_of_ne_nil hne
  have hc := hdigit c (hs ▸ List.mem_cons_self)
  have hspace : isWhiteSpace c ≠ true := fun hspace =>
    absurd (isDigit_numberUnit hc) (ne_true_of_eq_false (isWhiteSpace_not_numberUnit hspace))
  have hdrop : (natText n).dropWhile isWhiteSpace = natText n := by
    rw [hs, List.dropWhile_cons_of_neg hspace]
  have hhead (sign : UInt16) (hsign : isDigit sign = false) : (natText n).head? ≠ some sign := by
    intro hhead
    have hmem := hdigit sign (List.mem_of_mem_head? hhead)
    rw [hsign] at hmem
    cases hmem
  have hminus := hhead (unit '-') (by decide)
  have hplus := hhead (unit '+') (by decide)
  rw [parseInt]
  simp only [hdrop, hminus, hplus, or_self, if_false]
  rw [List.takeWhile_eq_self_iff.2 hdigit, if_neg hne, hvalue]

theorem toCount_natText {n : Nat} (h : n < 2 ^ 53) : (toCount (natText n) : N) = JsNumber.ofInt n := by
  have hsafe : (n : Int).natAbs < 2 ^ 53 := h
  have hfinite : JsNumber.isFinite (JsNumber.ofInt n : N) = true :=
    JsNumber.finite_of_toInt (JsNumber.toInt_ofInt hsafe.le)
  have hless : JsNumber.less (JsNumber.ofInt n : N) (JsNumber.ofInt 0) = false := by
    rw [JsNumber.less_ofInt hsafe]
    exact decide_eq_false (by omega)
  rw [toCount, parseInt_natText]
  simp only [hfinite, hless, Bool.not_false, Bool.and_self, if_true]

theorem tab_notMem_countTexts (change : GitChange) :
    GitLog.tab ∉ change.countTexts.1 ∧ GitLog.tab ∉ change.countTexts.2 := by
  rw [GitChange.countTexts]
  split
  · exact ⟨by decide, by decide⟩
  · exact ⟨notMem_natText (by decide) _, notMem_natText (by decide) _⟩

theorem natText_ne_minus (n : Nat) : natText n ≠ [unit '-'] := by
  intro h
  exact notMem_natText (by decide) n (h ▸ List.mem_singleton_self (unit '-'))

theorem parseNumstatRow_row (change : GitChange) :
    (parseNumstatRow (change.row true) : Option (CommitFileChange N)) =
      some (change.record true) := by
  obtain ⟨hadded, hdeleted⟩ := tab_notMem_countTexts change
  have hpath : change.path.length ≠ 0 := fun h => change.printable.1 (List.length_eq_zero_iff.1 h)
  rw [GitChange.row, if_pos rfl, parseNumstatRow, splitTab_append hadded]
  dsimp only
  rw [splitTab_append hdeleted]
  dsimp only
  rw [if_neg hpath, GitChange.countTexts, GitChange.record]
  cases hlines : change.lines with
  | none => rfl
  | some count =>
    obtain ⟨hfirst, hsecond⟩ := change.countable count hlines
    have hbinary : ¬ (natText count.1 = [unit '-'] ∨ natText count.2 = [unit '-']) :=
      not_or.2 ⟨natText_ne_minus _, natText_ne_minus _⟩
    dsimp only
    rw [if_neg hbinary, if_neg hbinary, if_pos rfl, toCount_natText hfirst, toCount_natText hsecond,
      decide_eq_false hbinary]

theorem parseRow_row (numstat : Bool) (change : GitChange) :
    (if numstat then parseNumstatRow else parseNameOnlyRow) (change.row numstat) =
      some (change.record numstat : CommitFileChange N) := by
  cases numstat with
  | true => exact parseNumstatRow_row change
  | false =>
    rw [if_neg Bool.false_ne_true, GitChange.row, if_neg Bool.false_ne_true, parseNameOnlyRow,
      GitChange.record]
    cases change.lines with
    | none => rfl
    | some count => rfl

theorem row_units {change : GitChange} {numstat : Bool} {c : UInt16} (h : c ∈ change.row numstat) :
    c = GitLog.tab ∨ 0x20 ≤ c := by
  have hpath := change.printable.2
  have hcount (n : Nat) (hc : c ∈ natText n) : 0x20 ≤ c := by
    have hdigit := (natText_spec n).2.2.1 c hc
    rw [isDigit, Bool.and_eq_true, decide_eq_true_eq] at hdigit
    exact UInt16.le_trans (by decide) hdigit.1
  have htexts : ∀ text ∈ [change.countTexts.1, change.countTexts.2], c ∈ text → 0x20 ≤ c := by
    rw [GitChange.countTexts]
    cases change.lines with
    | none =>
      intro text htext hc
      simp only [List.mem_cons, List.not_mem_nil, or_false, or_self] at htext
      subst htext
      rw [List.mem_singleton.1 hc]
      decide
    | some count =>
      intro text htext hc
      simp only [List.mem_cons, List.not_mem_nil, or_false] at htext
      rcases htext with rfl | rfl
      · exact hcount _ hc
      · exact hcount _ hc
  rw [List.forall_mem_cons, List.forall_mem_cons] at htexts
  rw [GitChange.row] at h
  split at h
  · simp only [List.mem_append, List.mem_cons] at h
    rcases h with hadded | htab | hdeleted | htab | hmem
    · exact .inr (htexts.1 hadded)
    · exact .inl htab
    · exact .inr (htexts.2.1 hdeleted)
    · exact .inl htab
    · exact .inr (hpath c hmem)
  · exact .inr (hpath c h)

theorem row_plain (change : GitChange) (numstat : Bool) {c : UInt16} (hc : c ≠ GitLog.tab)
    (hlow : ¬ 0x20 ≤ c) : c ∉ change.row numstat := by
  intro h
  rcases row_units h with htab | hunit
  · exact hc htab
  · exact hlow hunit

theorem row_ne_nil (change : GitChange) (numstat : Bool) : change.row numstat ≠ [] := by
  rw [GitChange.row]
  split
  · exact List.append_ne_nil_of_right_ne_nil _ (List.cons_ne_nil _ _)
  · exact change.printable.1

/-! ## Reading the lines of a commit -/

theorem lines_plain {commit : GitCommit} (h : commit.Separated) (numstat alwaysBlank : Bool) :
    ∀ line ∈ commit.lines numstat alwaysBlank,
      Lines.lineFeed ∉ line ∧ Lines.dropReturn line = line := by
  intro line hline
  rw [GitCommit.lines, List.mem_cons, List.mem_append] at hline
  rcases hline with rfl | hblank | hrow
  · exact ⟨lineFeed_notMem_header h, Lines.dropReturn_of_ne (header_getLast? commit)⟩
  · split at hblank
    · cases hblank
    · rw [List.mem_singleton.1 hblank]
      exact ⟨List.not_mem_nil, rfl⟩
  · obtain ⟨change, -, rfl⟩ := List.mem_map.1 hrow
    refine ⟨row_plain change numstat (by decide) (by decide), Lines.dropReturn_of_ne fun hlast => ?_⟩
    exact row_plain change numstat (by decide) (by decide) (List.mem_of_getLast? hlast)

section
variable (numstat : Bool)

/-- The parser of the rows of a log. -/
def rowParser : JsString → Option (CommitFileChange N) :=
  if numstat then parseNumstatRow else parseNameOnlyRow

theorem applyLogLine_row (records : List (CommitRecord N)) (current : CommitRecord N)
    (change : GitChange) :
    applyLogLine (rowParser numstat) ⟨records, some current⟩ (change.row numstat) =
      ⟨records, some { current with files := current.files ++ [change.record numstat] }⟩ := by
  have hrecord : (change.row numstat).head? ≠ some GitLog.outRecord := fun h =>
    row_plain change numstat (by decide) (by decide) (List.mem_of_mem_head? h)
  have hlength : (change.row numstat).length ≠ 0 := fun h =>
    row_ne_nil change numstat (List.length_eq_zero_iff.1 h)
  rw [applyLogLine, if_neg hrecord]
  dsimp only
  rw [if_neg hlength, rowParser, parseRow_row]

theorem foldl_rows (records : List (CommitRecord N)) (current : CommitRecord N)
    (changes : List GitChange) :
    (changes.map (GitChange.row numstat)).foldl (applyLogLine (rowParser numstat))
        ⟨records, some current⟩ =
      ⟨records, some { current with files := current.files ++ changes.map (GitChange.record numstat) }⟩ := by
  induction changes generalizing current with
  | nil =>
    rw [List.map_nil, List.map_nil, List.append_nil]
    rfl
  | cons change changes ih =>
    rw [List.map_cons, List.foldl_cons, applyLogLine_row, ih, List.map_cons]
    dsimp only
    rw [List.append_assoc, List.singleton_append]

theorem foldl_commit {commit : GitCommit} (h : commit.Separated) (alwaysBlank : Bool)
    (state : ParseState N) :
    (commit.lines numstat alwaysBlank).foldl (applyLogLine (rowParser numstat)) state =
      ⟨state.flush, some (commit.logged numstat)⟩ := by
  have hheader : applyLogLine (rowParser numstat) state (gitLogFormat.flatMap commit.print) =
      ⟨state.flush, some (commit.recordWith (commit.coAuthors.filter fun value => value ≠ []) [])⟩ := by
    rw [header_eq, applyLogLine, List.head?_cons, if_pos rfl, List.tail_cons, startRecord_header h]
  have hblank (current : CommitRecord N) :
      (if commit.files.isEmpty && !alwaysBlank then [] else [[]]).foldl
        (applyLogLine (rowParser numstat)) ⟨state.flush, some current⟩ =
          ⟨state.flush, some current⟩ := by
    split
    · rfl
    · rfl
  rw [GitCommit.lines, List.foldl_cons, hheader, List.foldl_append, hblank, foldl_rows]
  rfl

/-- The records read so far, the one in work included, are the commits printed so far. -/
theorem flush_commits {commits : List GitCommit} (h : ∀ commit ∈ commits, commit.Separated)
    (alwaysBlank : Bool) (state : ParseState N) :
    ((commits.flatMap (GitCommit.lines numstat alwaysBlank)).foldl
        (applyLogLine (rowParser numstat)) state).flush =
      state.flush ++ commits.map (GitCommit.logged numstat) := by
  induction commits generalizing state with
  | nil => rw [List.map_nil, List.append_nil]; rfl
  | cons commit commits ih =>
    rw [List.forall_mem_cons] at h
    rw [List.flatMap_cons, List.foldl_append, foldl_commit numstat h.1, ih h.2, List.map_cons]
    rw [ParseState.flush, Option.toList_some, List.append_assoc, List.singleton_append]

end

omit [JsNumber N] in
theorem applyLogLine_nil (parseRow : JsString → Option (CommitFileChange N)) (state : ParseState N) :
    applyLogLine parseRow state [] = state := by
  rw [applyLogLine, if_neg (by intro h; cases h)]
  cases state.current with
  | none => rfl
  | some current => rfl

/-- Reading the log that git prints gives back its commits in order, with their fields and paths.
Empty co-author values are dropped, and a log of names has no line counts. -/
theorem parseGitLog_printLog {commits : List GitCommit} (h : ∀ commit ∈ commits, commit.Separated)
    (numstat : Option Bool) (alwaysBlank : Bool) :
    (parseGitLog (printLog (numstat.getD true) alwaysBlank commits) numstat : List (CommitRecord N)) =
      commits.map (GitCommit.logged (numstat.getD true)) := by
  have hplain : ∀ line ∈ commits.flatMap (GitCommit.lines (numstat.getD true) alwaysBlank),
      Lines.lineFeed ∉ line ∧ Lines.dropReturn line = line := by
    intro line hline
    obtain ⟨commit, hcommit, hmem⟩ := List.mem_flatMap.1 hline
    exact lines_plain (h commit hcommit) _ _ line hmem
  have hmap : (commits.flatMap (GitCommit.lines (numstat.getD true) alwaysBlank)).map
      Lines.dropReturn = commits.flatMap (GitCommit.lines (numstat.getD true) alwaysBlank) :=
    (List.map_congr_left fun line hline => (hplain line hline).2).trans (List.map_id _)
  rw [parseGitLog, printLog, Lines.splitOn_print fun line hline => (hplain line hline).1,
    List.map_append, hmap, List.foldl_append]
  change (applyLogLine (rowParser (numstat.getD true)) _ []).flush = _
  rw [applyLogLine_nil]
  exact flush_commits (numstat.getD true) h alwaysBlank ⟨[], none⟩

end

theorem printable_path : ∀ c ∈ js "src/a.ts", 0x20 ≤ c := by
  have hall : (js "src/a.ts").all (fun c => decide (0x20 ≤ c)) = true := by decide
  exact fun c hc => of_decide_eq_true (List.all_eq_true.1 hall c hc)

/-- One file changed, under a subject and with a list of co-authors. -/
def singleCommit (subject : JsString) (coAuthors : List JsString)
    (hsubject : Lines.lineFeed ∉ subject)
    (htrimmed : ∀ value ∈ coAuthors, value.getLast? ≠ some Lines.carriageReturn) : GitCommit where
  hash := js "5c1a"
  authorName := js "Ada"
  authorEmail := js "ada@example.test"
  authorDate := js "2026-05-29T09:46:48-07:00"
  committerDate := js "2026-05-29T10:00:00-07:00"
  subject := subject
  coAuthors := coAuthors
  files := [⟨js "src/a.ts", some (1, 2), ⟨by decide, printable_path⟩, by decide⟩]
  oneLine := by
    rw [List.forall_mem_cons, List.forall_mem_cons, List.forall_mem_cons, List.forall_mem_cons,
      List.forall_mem_cons, List.forall_mem_singleton]
    exact ⟨by decide, by decide, by decide, by decide, by decide, hsubject⟩
  trimmed := htrimmed

theorem parseGitLog_printLog_single :
    (parseGitLog (printLog true false [singleCommit (js "fix") [js "Eve <eve@example.test>"]
      (by decide) (by decide)]) none : List (CommitRecord Numeral)) =
        [(singleCommit (js "fix") [js "Eve <eve@example.test>"] (by decide) (by decide)).logged
          true] := by
  refine parseGitLog_printLog (List.forall_mem_singleton.2 ⟨?_, ?_⟩) none false
  · decide
  · decide

/-- A log of names tells nothing of line counts, an empty co-author value is dropped, and the unit
that separates the fields may stand in a subject. -/
theorem parseGitLog_fails :
    (∃ commit : GitCommit, (parseGitLog (printLog false false [commit]) (some false) :
      List (CommitRecord Numeral)) ≠ [commit.history]) ∧
    (∃ commit : GitCommit, (parseGitLog (printLog true false [commit]) (some true) :
      List (CommitRecord Numeral)) ≠ [commit.history] ∧ [] ∈ commit.coAuthors) ∧
    ∃ commit : GitCommit, (parseGitLog (printLog true false [commit]) (some true) :
      List (CommitRecord Numeral)) ≠ [commit.history] ∧ GitLog.outField ∈ commit.subject := by
  refine ⟨⟨singleCommit (js "fix") [] (by decide) (by decide), ?_⟩,
    ⟨singleCommit (js "fix") [[]] (by decide) (by decide), ?_, by decide⟩,
    ⟨singleCommit [GitLog.outField] [] (by decide) (by decide), ?_, by decide⟩⟩
  · decide +kernel
  · decide +kernel
  · decide +kernel

end Musi.DriftAi
