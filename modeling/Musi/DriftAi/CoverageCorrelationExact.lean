import Musi.DriftAi.CoverageCorrelation

namespace Musi.DriftAi
open Musi.Js Lines
set_option autoImplicit true

/-! ## What a report says -/

/-- The records of one source file in a report, each with its key, in order. -/
structure SourceRecords where
  file : JsString
  records : List (JsString × JsString)
  deriving DecidableEq

/-- A report as far as it is read. -/
structure Reading where
  closed : List SourceRecords
  current : Option SourceRecords

def Reading.all (reading : Reading) : List SourceRecords := reading.closed ++ reading.current.toList

def SourceRecords.add (s : SourceRecords) (key value : JsString) : SourceRecords :=
  ⟨s.file, s.records ++ [(key, value)]⟩

def Reading.take (reading : Reading) (line : JsString) : Reading :=
  if line = js "end_of_record" then ⟨reading.all, none⟩
  else if unit ':' ∉ line then reading
  else
    let key := line.takeWhile (· ≠ unit ':')
    let value := (line.dropWhile (· ≠ unit ':')).tail
    if key ∈ IGNORED_KEYS then reading
    else if key = js "SF" then
      let file := toPosix (trim value)
      ⟨reading.all, if file.length = 0 then none else some ⟨file, []⟩⟩
    else ⟨reading.closed, reading.current.map fun s => s.add key value⟩

def sourceRecords (content : JsString) : List SourceRecords :=
  ((((splitOn lineFeed content).map dropReturn).filter fun line => line.length ≠ 0).foldl
    Reading.take ⟨[], none⟩).all

section
variable {N : Type} [JsNumber N]

def declaration (record : JsString × JsString) : Option (FunctionDecl N) :=
  if record.1 = js "FN" then (parseFunctionDecl record.2 0).toOption else none

def functionHits (record : JsString × JsString) : Option (JsString × N) :=
  if record.1 = js "FNDA" then parseFunctionHits record.2 else none

def lineHits (record : JsString × JsString) : Option (N × N) :=
  if record.1 = js "DA" then parseLineHits record.2 else none

namespace SourceRecords

def declarations (s : SourceRecords) : List (FunctionDecl N) := s.records.filterMap declaration

/-- The hits of a function, by its last record. -/
def hitsOf (s : SourceRecords) (name : JsString) : N :=
  ((s.records.filterMap functionHits).reverse.lookup name).getD (JsNumber.ofInt 0)

/-- The hits of a line, by its last record. -/
def hitsAt (s : SourceRecords) (line : N) : Option N :=
  (s.records.filterMap lineHits).reverse.lookup line

/-- The functions that are declared at a line, or else those that the line is in. -/
def candidates (s : SourceRecords) (line : N) : List (FunctionDecl N) :=
  let declared := s.declarations.filter fun decl => decl.line = line
  if declared.isEmpty then s.declarations.filter fun decl => inRange decl.line decl.endLine line
  else declared

end SourceRecords

def compareDecls [Locale] (left right : FunctionDecl N) : Int :=
  orElse (subtract left.line right.line) (Locale.localeCompare left.name right.name)

/-- A function that no other comes before, by line and then by name. -/
structure Leads [Locale] (decls : List (FunctionDecl N)) (decl : FunctionDecl N) : Prop where
  mem : decl ∈ decls
  first : ∀ other ∈ decls, compareDecls decl other ≤ 0

/-- The record at a line has hits: that of the function it is matched with, or its own. -/
structure Executed [Locale] (s : SourceRecords) (line : N) : Prop where
  function : ∀ decl, Leads (s.candidates line) decl → isPositive (s.hitsOf (N := N) decl.name) = true
  own : s.candidates line = [] → ∃ hits, s.hitsAt line = some hits ∧ isPositive hits = true

/-! ## The parser keeps it -/

/-- The section that records make. -/
def sectionOf (s : SourceRecords) : Section N :=
  s.records.foldl (fun current record => (applyRecord current record.1 record.2 0).1)
    (newSection s.file)

/-- The line number of a record is only for notes. -/
theorem parseFunctionDecl_toOption (value : JsString) (lineNo : Nat) :
    (parseFunctionDecl (N := N) value lineNo).toOption = (parseFunctionDecl value 0).toOption := by
  simp only [parseFunctionDecl]
  repeat' split
  all_goals rfl

theorem applyFn_section (current : Section N) (value : JsString) (lineNo : Nat) :
    (applyFn current value lineNo).1 = { current with
      fnDecls := current.fnDecls ++ (parseFunctionDecl value 0).toOption.toList } := by
  rw [← parseFunctionDecl_toOption value lineNo, applyFn]
  cases parseFunctionDecl (N := N) value lineNo with
  | error note =>
    change current = { current with fnDecls := current.fnDecls ++ [] }
    rw [List.append_nil]
  | ok decl => rfl

theorem lookup_lines_cons (e : N × N) (es : List (N × N)) (line : N) :
    (e :: es).lookup line = if line = e.1 then some e.2 else es.lookup line := by
  by_cases he : line = e.1
  · rw [if_pos he, he]
    exact List.lookup_cons_self
  · rw [if_neg he, List.lookup_cons, beq_false_of_ne he]

theorem lookup_setLine (line hits other : N) (lines : List (N × N)) :
    (setLine line hits lines).lookup other = if other = line then some hits else lines.lookup other := by
  induction lines with
  | nil => rw [setLine, lookup_lines_cons]
  | cons e es ih =>
    rw [setLine, lookup_lines_cons]
    by_cases he : e.1 = line
    · rw [if_pos he, lookup_lines_cons]
      by_cases hother : other = line
      · rw [if_pos hother, if_pos hother]
      · rw [if_neg hother, if_neg hother, if_neg (he ▸ hother)]
    · rw [if_neg he, lookup_lines_cons, ih]
      by_cases hother : other = e.1
      · rw [if_pos hother, if_pos hother, if_neg (hother ▸ he)]
      · rw [if_neg hother, if_neg hother]

theorem mem_setLine {line hits other : N} {lines : List (N × N)}
    (h : other ∈ (setLine line hits lines).map Prod.fst) :
    other = line ∨ other ∈ lines.map Prod.fst := by
  induction lines with
  | nil => exact .inl (List.mem_singleton.1 h)
  | cons e es ih =>
    rw [setLine] at h
    split at h
    · rcases List.mem_cons.1 h with h | h
      · exact .inl h
      · exact .inr (List.mem_cons_of_mem _ h)
    · rcases List.mem_cons.1 h with h | h
      · exact .inr (h ▸ List.mem_cons_self)
      · exact (ih h).imp_right (List.mem_cons_of_mem _)

theorem nodup_setLine {lines : List (N × N)} (h : (lines.map Prod.fst).Nodup) (line hits : N) :
    ((setLine line hits lines).map Prod.fst).Nodup := by
  induction lines with
  | nil => exact List.nodup_singleton _
  | cons e es ih =>
    rw [List.map_cons, List.nodup_cons] at h
    rw [setLine]
    split
    · next he =>
      rw [List.map_cons, List.nodup_cons]
      exact ⟨he ▸ h.1, h.2⟩
    · next he =>
      rw [List.map_cons, List.nodup_cons]
      exact ⟨fun hmem => (mem_setLine hmem).elim he h.1, ih h.2⟩

/-- What the records of a section leave in it. -/
structure Holds (current : Section N) (records : List (JsString × JsString)) : Prop where
  decls : current.fnDecls = records.filterMap declaration
  hits : ∀ name, current.fnHits.get name = (records.filterMap functionHits).reverse.lookup name
  lines : ∀ line, current.lines.lookup line = (records.filterMap lineHits).reverse.lookup line
  nodup : (current.lines.map Prod.fst).Nodup

theorem filterMap_last_none {α β : Type} {f : α → Option β} {a : α} (h : f a = none) (l : List α) :
    (l ++ [a]).filterMap f = l.filterMap f := by
  rw [List.filterMap_append, List.filterMap_cons_none h, List.filterMap_nil, List.append_nil]

theorem filterMap_last_some {α β : Type} {f : α → Option β} {a : α} {b : β} (h : f a = some b)
    (l : List α) : (l ++ [a]).filterMap f = l.filterMap f ++ [b] := by
  rw [List.filterMap_append, List.filterMap_cons_some h, List.filterMap_nil]

theorem declaration_none {record : JsString × JsString} (h : record.1 ≠ js "FN") :
    declaration (N := N) record = none := if_neg h

theorem functionHits_none {record : JsString × JsString} (h : record.1 ≠ js "FNDA") :
    functionHits (N := N) record = none := if_neg h

theorem lineHits_none {record : JsString × JsString} (h : record.1 ≠ js "DA") :
    lineHits (N := N) record = none := if_neg h

/-- Records of other kinds leave these alone. -/
theorem Holds.other {current next : Section N} {records : List (JsString × JsString)}
    (h : Holds current records) {record : JsString × JsString} (hfn : record.1 ≠ js "FN")
    (hfnda : record.1 ≠ js "FNDA") (hda : record.1 ≠ js "DA") (hdecls : next.fnDecls = current.fnDecls)
    (hhits : next.fnHits = current.fnHits) (hlines : next.lines = current.lines) :
    Holds next (records ++ [record]) := by
  constructor
  · rw [filterMap_last_none (declaration_none hfn), hdecls, h.decls]
  · rw [filterMap_last_none (functionHits_none hfnda), hhits]
    exact h.hits
  · rw [filterMap_last_none (lineHits_none hda), hlines]
    exact h.lines
  · rw [hlines]
    exact h.nodup

theorem Holds.addFn {current : Section N} {records : List (JsString × JsString)}
    (h : Holds current records) (value : JsString) (lineNo : Nat) :
    Holds (applyFn current value lineNo).1 (records ++ [(js "FN", value)]) := by
  rw [applyFn_section]
  have hfnda : js "FN" ≠ js "FNDA" := by decide
  have hda : js "FN" ≠ js "DA" := by decide
  constructor
  · have hdeclaration : declaration (N := N) (js "FN", value) = (parseFunctionDecl value 0).toOption :=
      if_pos rfl
    simp only [h.decls]
    cases hparsed : (parseFunctionDecl (N := N) value 0).toOption with
    | none =>
      rw [filterMap_last_none (hdeclaration.trans hparsed)]
      exact List.append_nil _
    | some decl =>
      rw [filterMap_last_some (hdeclaration.trans hparsed)]
      rfl
  · rw [filterMap_last_none (functionHits_none hfnda)]
    exact h.hits
  · rw [filterMap_last_none (lineHits_none hda)]
    exact h.lines
  · exact h.nodup

theorem Holds.addFnda {current : Section N} {records : List (JsString × JsString)}
    (h : Holds current records) (value : JsString) (lineNo : Nat) :
    Holds (applyFnda current value lineNo).1 (records ++ [(js "FNDA", value)]) := by
  have hfn : js "FNDA" ≠ js "FN" := by decide
  have hda : js "FNDA" ≠ js "DA" := by decide
  have hparse : functionHits (N := N) (js "FNDA", value) = parseFunctionHits value := if_pos rfl
  rw [applyFnda]
  cases hparsed : parseFunctionHits (N := N) value with
  | none =>
    constructor
    · rw [filterMap_last_none (declaration_none hfn)]
      exact h.decls
    · rw [filterMap_last_none (hparse.trans hparsed)]
      exact h.hits
    · rw [filterMap_last_none (lineHits_none hda)]
      exact h.lines
    · exact h.nodup
  | some entry =>
    constructor
    · rw [filterMap_last_none (declaration_none hfn)]
      exact h.decls
    · intro name
      rw [filterMap_last_some (hparse.trans hparsed), List.reverse_append, List.reverse_singleton,
        List.singleton_append, Entries.lookup_cons]
      exact (JsMap.get_set _ _ _ _).trans (if_congr Iff.rfl rfl (h.hits name))
    · rw [filterMap_last_none (lineHits_none hda)]
      exact h.lines
    · exact h.nodup

theorem Holds.addDa {current : Section N} {records : List (JsString × JsString)}
    (h : Holds current records) (value : JsString) (lineNo : Nat) :
    Holds (applyDa current value lineNo).1 (records ++ [(js "DA", value)]) := by
  have hfn : js "DA" ≠ js "FN" := by decide
  have hfnda : js "DA" ≠ js "FNDA" := by decide
  have hparse : lineHits (N := N) (js "DA", value) = parseLineHits value := if_pos rfl
  rw [applyDa]
  cases hparsed : parseLineHits (N := N) value with
  | none =>
    constructor
    · rw [filterMap_last_none (declaration_none hfn)]
      exact h.decls
    · rw [filterMap_last_none (functionHits_none hfnda)]
      exact h.hits
    · rw [filterMap_last_none (hparse.trans hparsed)]
      exact h.lines
    · exact h.nodup
  | some entry =>
    constructor
    · rw [filterMap_last_none (declaration_none hfn)]
      exact h.decls
    · rw [filterMap_last_none (functionHits_none hfnda)]
      exact h.hits
    · intro line
      have hlast := lookup_setLine entry.1 entry.2 line current.lines
      rw [filterMap_last_some (hparse.trans hparsed), List.reverse_append, List.reverse_singleton,
        List.singleton_append, lookup_lines_cons, ← h.lines]
      exact hlast
    · exact nodup_setLine h.nodup entry.1 entry.2

theorem Holds.add {current : Section N} {records : List (JsString × JsString)}
    (h : Holds current records) (record : JsString × JsString) (lineNo : Nat) :
    Holds (applyRecord current record.1 record.2 lineNo).1 (records ++ [record]) := by
  obtain ⟨key, value⟩ := record
  by_cases hfn : key = js "FN"
  · subst hfn
    exact h.addFn value lineNo
  by_cases hfnda : key = js "FNDA"
  · subst hfnda
    exact h.addFnda value lineNo
  by_cases hda : key = js "DA"
  · subst hda
    exact h.addDa value lineNo
  rw [applyRecord, if_neg hfn, if_neg hfnda, if_neg hda]
  have hcount : ∃ next, (if key ∈ COUNT_KEYS then applyCount current key value lineNo
      else (current, [malformed (some lineNo) (js "unrecognized lcov record '" ++ key ++ js "'")])).1 =
        next ∧ next.fnDecls = current.fnDecls ∧ next.fnHits = current.fnHits ∧
          next.lines = current.lines := by
    refine ⟨_, rfl, ?_⟩
    split
    · rw [applyCount]
      repeat' split
      all_goals exact ⟨rfl, rfl, rfl⟩
    · exact ⟨rfl, rfl, rfl⟩
  obtain ⟨next, hnext, hdecls, hhits, hlines⟩ := hcount
  rw [hnext]
  exact h.other hfn hfnda hda hdecls hhits hlines

theorem sectionOf_holds (s : SourceRecords) : Holds (sectionOf (N := N) s) s.records := by
  rw [sectionOf]
  induction s.records using List.reverseRecOn with
  | nil => exact ⟨rfl, fun _ => rfl, fun _ => rfl, List.nodup_nil⟩
  | append_singleton records record ih =>
    rw [List.foldl_append]
    exact ih.add record 0

theorem applyRecord_section (current : Section N) (key value : JsString) (lineNo : Nat) :
    (applyRecord current key value lineNo).1 = (applyRecord current key value 0).1 := by
  rw [applyRecord, applyRecord]
  split
  · rw [applyFn_section, applyFn_section]
  · split
    · rw [applyFnda, applyFnda]
      split <;> rfl
    · split
      · rw [applyDa, applyDa]
        split <;> rfl
      · split
        · rw [applyCount, applyCount]
          split <;> rfl
        · rfl

theorem sectionOf_add (s : SourceRecords) (key value : JsString) :
    sectionOf (s.add key value) = (applyRecord (sectionOf (N := N) s) key value 0).1 :=
  List.foldl_append

section
variable [Locale]

/-- The evidence of the records of one source file. -/
def fileEvidence (s : SourceRecords) : CoverageFileEvidence N := (finalizeSection (sectionOf s)).1

/-- The parser and the report, as far as both are read. -/
structure Tracks (state : LcovParseState N) (reading : Reading) : Prop where
  files : state.files = reading.closed.map fileEvidence
  current : state.open_ = reading.current.map sectionOf

/-- What the parser does with the open section where the report closes it. -/
theorem Tracks.close {state : LcovParseState N} {reading : Reading} (h : Tracks state reading)
    {s : SourceRecords} (hs : reading.current = some s) (notes : List CoverageParseNote) :
    (closeSection state notes (sectionOf s)).files = reading.all.map fileEvidence := by
  rw [Reading.all, hs, List.map_append, ← h.files]
  rfl

theorem Tracks.unopened {state : LcovParseState N} {reading : Reading} (h : Tracks state reading)
    (hs : reading.current = none) : state.open_ = none ∧ state.files = reading.all.map fileEvidence := by
  rw [h.current, h.files, Reading.all, hs, Option.toList_none, List.append_nil]
  exact ⟨rfl, rfl⟩

theorem Tracks.opened {state : LcovParseState N} {reading : Reading} (h : Tracks state reading)
    {s : SourceRecords} (hs : reading.current = some s) : state.open_ = some (sectionOf s) := by
  rw [h.current, hs]
  rfl

theorem Tracks.endOfRecord {state : LcovParseState N} {reading : Reading} (h : Tracks state reading)
    (lineNo : Nat) : Tracks (handleEndOfRecord state lineNo) ⟨reading.all, none⟩ := by
  rw [handleEndOfRecord]
  cases hs : reading.current with
  | none =>
    obtain ⟨hopen, hfiles⟩ := h.unopened hs
    rw [hopen]
    exact ⟨hfiles, rfl⟩
  | some s =>
    rw [h.opened hs]
    exact ⟨h.close hs [], rfl⟩

theorem Tracks.sourceFile {state : LcovParseState N} {reading : Reading} (h : Tracks state reading)
    (value : JsString) (lineNo : Nat) : Tracks (handleSf state value lineNo)
      ⟨reading.all, if (toPosix (trim value)).length = 0 then none
        else some ⟨toPosix (trim value), []⟩⟩ := by
  rw [handleSf]
  cases hs : reading.current with
  | none =>
    obtain ⟨hopen, hfiles⟩ := h.unopened hs
    rw [hopen]
    simp only
    split
    · exact ⟨hfiles, rfl⟩
    · exact ⟨hfiles, rfl⟩
  | some s =>
    rw [h.opened hs]
    simp only
    split
    · exact ⟨h.close hs [missingEor (sectionOf (N := N) s).file], rfl⟩
    · exact ⟨h.close hs [missingEor (sectionOf (N := N) s).file], rfl⟩

theorem Tracks.take {state : LcovParseState N} {reading : Reading} (h : Tracks state reading)
    (line : JsString) (lineNo : Nat) :
    Tracks (handleLine state line lineNo) (reading.take line) := by
  rw [handleLine, Reading.take]
  split
  · exact h.endOfRecord lineNo
  · split
    · exact ⟨h.files, h.current⟩
    · simp only
      split
      · exact h
      · split
        · exact h.sourceFile _ lineNo
        · cases hs : reading.current with
          | none =>
            rw [(h.unopened hs).1]
            exact ⟨h.files, rfl⟩
          | some s =>
            rw [h.opened hs]
            refine ⟨h.files, congrArg some ?_⟩
            rw [applyRecord_section, sectionOf_add]

theorem parseLines_follows (entries : List (JsString × Nat)) {state : LcovParseState N} {reading : Reading}
    (h : Tracks state reading) : Tracks (entries.foldl parseLine state)
      ((((entries.map Prod.fst).map dropReturn).filter fun line => line.length ≠ 0).foldl
        Reading.take reading) := by
  induction entries generalizing state reading with
  | nil => exact h
  | cons entry entries ih =>
    rw [List.foldl_cons, List.map_cons, List.map_cons, List.filter_cons, parseLine]
    split
    · next hempty =>
      rw [if_neg (by rw [hempty]; decide)]
      exact ih h
    · next hline =>
      rw [if_pos (decide_eq_true hline), List.foldl_cons]
      exact ih (h.take _ _)

/-- The parser has the evidence of every source file of the report. -/
theorem parseLcov_files (content : JsString) : (parseLcov (N := N) content).files =
    sortBy (fun left right => Locale.localeCompare left.file right.file)
      ((sourceRecords content).map fileEvidence) := by
  have hstart : Tracks (⟨[], [], none⟩ : LcovParseState N) ⟨[], none⟩ := ⟨rfl, rfl⟩
  have hfollows := parseLines_follows (splitOn lineFeed content).zipIdx hstart
  rw [List.zipIdx_map_fst] at hfollows
  obtain ⟨state, hstate⟩ : ∃ state : LcovParseState N,
      (splitOn lineFeed content).zipIdx.foldl parseLine ⟨[], [], none⟩ = state := ⟨_, rfl⟩
  rw [hstate] at hfollows
  simp only [parseLcov, sourceRecords, hstate]
  generalize List.foldl Reading.take _ _ = reading at hfollows ⊢
  congr 1
  cases hs : reading.current with
  | none =>
    obtain ⟨hopen, hfiles⟩ := hfollows.unopened hs
    rw [hopen]
    exact hfiles
  | some s =>
    rw [hfollows.opened hs]
    exact hfollows.close hs _

/-! ## The record at a line -/

omit [Locale] in
theorem subtract_le {a b : N} : subtract a b ≤ 0 ↔ JsNumber.less b a = false := by
  rw [subtract]
  by_cases hab : JsNumber.less a b = true
  · rw [if_pos hab]
    refine iff_of_true (by decide) (eq_false_of_ne_true fun hba => ?_)
    have habsurd := JsNumber.less_trans hab hba
    rw [JsNumber.less_irrefl] at habsurd
    cases habsurd
  · rw [if_neg hab]
    cases JsNumber.less b a with
    | true => exact iff_of_false (by decide) (by decide)
    | false => exact iff_of_true (by decide) rfl

omit [Locale] in
theorem subtract_consistent : ConsistentComparator (subtract : N → N → Int) where
  swap a b := by
    rw [subtract_le, subtract]
    by_cases hba : JsNumber.less b a = true
    · rw [if_pos hba, hba]
      exact iff_of_false (by decide) (by decide)
    · rw [if_neg hba]
      refine iff_of_true (eq_false_of_ne_true hba) ?_
      split <;> decide
  trans {a b c} hab hbc := by
    rw [subtract_le] at hab hbc ⊢
    rcases JsNumber.less_total b c with h | rfl | h
    · refine eq_false_of_ne_true fun hca => ?_
      rw [JsNumber.less_trans h hca] at hab
      cases hab
    · exact hab
    · rw [h] at hbc
      cases hbc

theorem compareFunctions_consistent :
    ConsistentComparator (compareFunctions : CoverageFunctionEvidence N → _ → Int) :=
  (subtract_consistent.comap CoverageFunctionEvidence.line).orElse
    (Locale.localeCompare_consistent.comap CoverageFunctionEvidence.name)

omit [Locale] in
/-- What is found first in a sorted list comes before the others. -/
theorem find?_sortBy_first {α : Type} {cmp : α → α → Int} (h : ConsistentComparator cmp) {l : List α}
    {p : α → Bool} {a : α} (hfound : (sortBy cmp l).find? p = some a) :
    (a ∈ l ∧ p a = true) ∧ ∀ b ∈ l, p b = true → cmp a b ≤ 0 := by
  obtain ⟨hp, before, after, hsplit, hbefore⟩ := List.find?_eq_some_iff_append.1 hfound
  have hmem : a ∈ sortBy cmp l := List.mem_of_find?_eq_some hfound
  refine ⟨⟨mem_sortBy.1 hmem, hp⟩, fun b hb hpb => ?_⟩
  have hsorted := sortBy_sorted h l
  rw [hsplit, List.pairwise_append, List.pairwise_cons] at hsorted
  rw [← @mem_sortBy _ cmp, hsplit, List.mem_append, List.mem_cons] at hb
  rcases hb with hb | rfl | hb
  · have hnot := hbefore b hb
    rw [hpb] at hnot
    cases hnot
  · exact (h.self b).le
  · exact hsorted.2.1.1 b hb

theorem fileEvidence_functions (s : SourceRecords) : (fileEvidence (N := N) s).functions =
    sortBy compareFunctions (s.declarations.map (functionEvidence (sectionOf s))) := by
  rw [SourceRecords.declarations, ← (sectionOf_holds s).decls]
  rfl

omit [Locale] in
theorem functionEvidence_hits (s : SourceRecords) (decl : FunctionDecl N) :
    (functionEvidence (sectionOf s) decl).hits = s.hitsOf decl.name := by
  rw [functionEvidence, SourceRecords.hitsOf, (sectionOf_holds s).hits]

/-- A function found by its line or its range, of which none comes before it. -/
theorem functions_found {s : SourceRecords} (test : N → Option N → Bool)
    {fn : CoverageFunctionEvidence N}
    (h : ((fileEvidence s).functions.find? fun fn => test fn.line fn.endLine) = some fn) :
    ∃ decl, Leads (s.declarations.filter fun decl => test decl.line decl.endLine) decl ∧
      fn.hits = s.hitsOf decl.name := by
  rw [fileEvidence_functions] at h
  obtain ⟨⟨hmem, htest⟩, hfirst⟩ := find?_sortBy_first compareFunctions_consistent h
  obtain ⟨decl, hdecl, rfl⟩ := List.mem_map.1 hmem
  refine ⟨decl, ⟨List.mem_filter.2 ⟨hdecl, htest⟩, fun other hother => ?_⟩,
    functionEvidence_hits s decl⟩
  obtain ⟨hother, hother_test⟩ := List.mem_filter.1 hother
  exact hfirst _ (List.mem_map_of_mem hother) hother_test

theorem functions_missing {s : SourceRecords} (test : N → Option N → Bool)
    (h : ((fileEvidence s).functions.find? fun fn => test fn.line fn.endLine) = none) :
    (s.declarations.filter fun decl => test decl.line decl.endLine) = [] := by
  rw [fileEvidence_functions, List.find?_eq_none] at h
  refine List.filter_eq_nil_iff.2 fun decl hdecl => ?_
  exact h _ (mem_sortBy.2 (List.mem_map_of_mem hdecl))

omit [Locale] in
theorem mem_of_lookup {line hits : N} {lines : List (N × N)} (h : lines.lookup line = some hits) :
    (line, hits) ∈ lines := by
  induction lines with
  | nil => cases h
  | cons e es ih =>
    rw [lookup_lines_cons] at h
    split at h
    · next he =>
      cases h
      rw [he]
      exact List.mem_cons_self
    · exact List.mem_cons_of_mem _ (ih h)

theorem lines_found {s : SourceRecords} {line hits : N} (h : s.hitsAt line = some hits) :
    ∃ entry, ((fileEvidence s).lines.find? fun entry => entry.line = line) = some entry ∧
      entry.hits = hits := by
  rw [SourceRecords.hitsAt, ← (sectionOf_holds s).lines] at h
  have hmem := mem_of_lookup h
  have hlines : (fileEvidence s).lines = sortBy (fun left right => subtract left.line right.line)
      ((sectionOf s).lines.map fun e => (⟨e.1, e.2⟩ : CoverageLineEvidence N)) := rfl
  cases hfound : (fileEvidence s).lines.find? fun entry => entry.line = line with
  | none =>
    rw [hlines, List.find?_eq_none] at hfound
    exact absurd (decide_eq_true rfl) (hfound _ (mem_sortBy.2 (List.mem_map_of_mem hmem)))
  | some entry =>
    refine ⟨entry, rfl, ?_⟩
    have hline : entry.line = line := by simpa using List.find?_some hfound
    have hentry := List.mem_of_find?_eq_some hfound
    rw [hlines, mem_sortBy] at hentry
    obtain ⟨e, he, rfl⟩ := List.mem_map.1 hentry
    exact congrArg Prod.snd (List.inj_on_of_nodup_map (sectionOf_holds s).nodup he hmem hline)

theorem matchInFile_executed {s : SourceRecords} {line : N} (h : Executed s line) :
    ∃ within, matchInFile (fileEvidence s) line = some within ∧ isPositive within.hits = true := by
  have hmatched {fn : CoverageFunctionEvidence N} {decls : List (FunctionDecl N)}
      (hcandidates : s.candidates line = decls)
      (hfn : ∃ decl, Leads decls decl ∧ fn.hits = s.hitsOf decl.name) :
      isPositive (functionMatch fn).hits = true := by
    obtain ⟨decl, hleads, hhits⟩ := hfn
    rw [functionMatch, hhits]
    exact h.function decl (hcandidates ▸ hleads)
  rw [matchInFile]
  cases hdeclared : (fileEvidence s).functions.find? fun fn => fn.line = line with
  | some fn =>
    have hfn := functions_found (fun start _ => start = line) hdeclared
    refine ⟨_, rfl, hmatched (if_neg ?_) hfn⟩
    obtain ⟨decl, hleads, -⟩ := hfn
    exact fun hempty => List.ne_nil_of_mem hleads.mem (List.isEmpty_iff.1 hempty)
  | none =>
    have hcandidates : s.candidates line =
        s.declarations.filter fun decl => inRange decl.line decl.endLine line :=
      if_pos (List.isEmpty_iff.2 (functions_missing (fun start _ => start = line) hdeclared))
    simp only
    cases hrange : (fileEvidence s).functions.find? fun fn => inRange fn.line fn.endLine line with
    | some fn =>
      have hfn := functions_found (fun start endLine => inRange start endLine line) hrange
      exact ⟨_, rfl, hmatched hcandidates hfn⟩
    | none =>
      have hmissing := functions_missing (fun start endLine => inRange start endLine line) hrange
      obtain ⟨hits, hhits, hpositive⟩ := h.own (hcandidates.trans hmissing)
      obtain ⟨entry, hentry, rfl⟩ := lines_found hhits
      simp only [hentry]
      exact ⟨_, rfl, hpositive⟩

/-! ## The sources of a path -/

omit [Locale] in
theorem sectionOf_file (s : SourceRecords) : (sectionOf (N := N) s).file = s.file := by
  have hkept (current : Section N) (key value : JsString) :
      (applyRecord current key value 0).1.file = current.file := by
    simp only [applyRecord, applyFn, applyFnda, applyDa, applyCount]
    repeat' split
    all_goals rfl
  rw [sectionOf]
  induction s.records using List.reverseRecOn with
  | nil => rfl
  | append_singleton records record ih =>
    rw [List.foldl_append]
    exact (hkept _ _ _).trans ih

/-- The sources with just this path. -/
def exactSources (content path : JsString) : List SourceRecords :=
  (sourceRecords content).filter fun s => toPosix s.file = path

/-- The sources that speak for a path: its own, or else those whose paths align with it. -/
def sourcesFor (content path : JsString) : List SourceRecords :=
  if (exactSources content path).isEmpty then
    (sourceRecords content).filter fun s => pathsAlign (toPosix s.file) path
  else exactSources content path

section
variable {content path : JsString} {artifact : CoverageArtifactEvidence N}

theorem mem_index (h : artifact.files = (parseLcov content).files)
    {entry : JsString × CoverageFileEvidence N} :
    entry ∈ (buildArtifactIndex artifact).entries ↔
      ∃ s ∈ sourceRecords content, entry = (toPosix s.file, fileEvidence s) := by
  have hfile (s : SourceRecords) : (fileEvidence (N := N) s).file = s.file := sectionOf_file s
  rw [buildArtifactIndex, h, parseLcov_files, List.mem_map]
  constructor
  · rintro ⟨file, hmem, rfl⟩
    obtain ⟨s, hs, rfl⟩ := List.mem_map.1 (mem_sortBy.1 hmem)
    exact ⟨s, hs, by rw [hfile]⟩
  · rintro ⟨s, hs, rfl⟩
    exact ⟨fileEvidence s, mem_sortBy.2 (List.mem_map_of_mem hs), by rw [hfile]⟩

/-- The evidence found for a path is that of a source that speaks for it, when it names no two. -/
theorem matchFile_source (h : artifact.files = (parseLcov content).files)
    (honce : (exactSources content path).length ≤ 1) {s : SourceRecords}
    (hs : s ∈ sourcesFor content path) {file : CoverageFileEvidence N} {pathMatch : PathMatchKind}
    (hmatch : matchFile (buildArtifactIndex artifact) path = some (file, pathMatch)) :
    file = fileEvidence s := by
  have hexact {found : CoverageFileEvidence N}
      (hfound : (buildArtifactIndex artifact).byFile.get path = some found) :
      ∃ t ∈ exactSources content path, found = fileEvidence t := by
    obtain ⟨t, ht, hentry⟩ := (mem_index h).1 (JsMap.mem_of_get_ofList hfound)
    obtain ⟨hpath, hevidence⟩ := Prod.mk.inj hentry
    exact ⟨t, List.mem_filter.2 ⟨ht, decide_eq_true hpath.symm⟩, hevidence⟩
  rw [matchFile] at hmatch
  by_cases hempty : (exactSources content path).isEmpty = true
  · rw [sourcesFor, if_pos hempty, List.mem_filter] at hs
    cases hget : (buildArtifactIndex artifact).byFile.get path with
    | some found =>
      obtain ⟨t, ht, -⟩ := hexact hget
      rw [List.isEmpty_iff.1 hempty] at ht
      exact absurd ht List.not_mem_nil
    | none =>
      rw [hget] at hmatch
      simp only at hmatch
      split at hmatch
      · next entry hfilter =>
        cases hmatch
        have hentry : (toPosix s.file, fileEvidence s) ∈
            (buildArtifactIndex artifact).entries.filter fun entry => pathsAlign entry.1 path :=
          List.mem_filter.2 ⟨(mem_index h).2 ⟨s, hs.1, rfl⟩, hs.2⟩
        rw [hfilter, List.mem_singleton] at hentry
        rw [← hentry]
      · cases hmatch
  · rw [sourcesFor, if_neg hempty] at hs
    obtain ⟨hmem, hpath⟩ := List.mem_filter.1 hs
    cases hget : (buildArtifactIndex artifact).byFile.get path with
    | some found =>
      rw [hget] at hmatch
      cases hmatch
      obtain ⟨t, ht, rfl⟩ := hexact hget
      obtain ⟨u, hu⟩ := List.length_eq_one_iff.1
        (le_antisymm honce (List.length_pos_of_mem hs))
      rw [hu, List.mem_singleton] at hs ht
      rw [hs, ht]
    | none =>
      have hentry := (mem_index h).2 ⟨s, hmem, rfl⟩
      rw [of_decide_eq_true hpath] at hentry
      rw [buildArtifactIndex, JsMap.get_ofList, Entries.lookup_none] at hget
      exact absurd (Entries.mem_keys.2 ⟨_, List.mem_reverse.2 hentry⟩) hget

theorem agreementFor_executed (h : artifact.files = (parseLcov content).files)
    (honce : (exactSources content path).length ≤ 1) {s : SourceRecords}
    (hs : s ∈ sourcesFor content path) {symbol : UnusedExportSymbol N} {line : N}
    (hfile : toPosix symbol.file = path) (hline : symbol.line = some line) (hexec : Executed s line) :
    agreementFor [resultForArtifact symbol (buildArtifactIndex artifact)] ≠ .uncoveredAndUnused := by
  have hstate : (resultForArtifact symbol (buildArtifactIndex artifact)).state ≠ .uncovered := by
    simp only [resultForArtifact, hline, hfile]
    cases hmatch : matchFile (buildArtifactIndex artifact) path with
    | none =>
      intro heq
      cases heq
    | some found =>
      obtain ⟨within, hwithin, hpositive⟩ := matchInFile_executed hexec
      rw [← matchFile_source h honce hs hmatch] at hwithin
      simp only [resultFromFile, hwithin, hpositive]
      intro heq
      cases heq
  generalize resultForArtifact symbol (buildArtifactIndex artifact) = result at hstate
  rw [agreementFor]
  cases hresult : result.state with
  | covered =>
    simp [hresult]
  | uncovered => exact absurd hresult hstate
  | unavailable =>
    simp [hresult]

end

/-! ## Executed code -/

omit [JsNumber N] [Locale] in
/-- A report that names a source is not blank. -/
theorem trim_of_source {content : JsString} {s : SourceRecords} (h : s ∈ sourceRecords content) :
    trim content ≠ [] := by
  intro hblank
  have hcolon : unit ':' ∉ content := by
    intro hmem
    exact absurd (isWhiteSpace_of_trim hblank _ hmem) (by decide)
  have hlines (lines : List JsString) (h : ∀ line ∈ lines, unit ':' ∉ line) :
      (lines.foldl Reading.take ⟨[], none⟩).all = [] := by
    induction lines with
    | nil => rfl
    | cons line lines ih =>
      rw [List.forall_mem_cons] at h
      have hline : Reading.take ⟨[], none⟩ line = ⟨[], none⟩ := by
        rw [Reading.take]
        split
        · rfl
        · rw [if_pos h.1]
      rw [List.foldl_cons, hline]
      exact ih h.2
  have hnone : sourceRecords content = [] := by
    refine hlines _ fun line hline hmem => ?_
    obtain ⟨raw, hraw, rfl⟩ := List.mem_map.1 (List.mem_filter.1 hline).1
    have hraw_colon : unit ':' ∈ raw := by
      by_contra hnot
      exact notMem_dropReturn hnot hmem
    exact hcolon (mem_splitOn hraw hraw_colon)
  rw [hnone] at h
  exact List.not_mem_nil h

/-- The last record of a line or a function is kept, so a section that ends with hits at a line keeps
the line from being called uncovered; two sections of one path are left out. -/
theorem correlateCoverageUnusedExports_executed {input : BuildCoverageArtifactEvidenceInput}
    {path : JsString} {line : N} {s : SourceRecords} (hformat : input.format = some .lcov)
    (honce : (exactSources input.content path).length ≤ 1)
    (hs : s ∈ sourcesFor input.content path) (hexec : Executed s line)
    (symbols : List (UnusedExportSymbol N))
    (caveatLabeler : Option (UnusedExportSymbol N → List JsString)) :
    ∀ row ∈ (correlateCoverageUnusedExports symbols [buildCoverageArtifactEvidence input]
      caveatLabeler).rows, row.2.file = path → row.2.line = some line →
        row.2.agreement ≠ .uncoveredAndUnused := by
  intro row hrow hfile hline
  have hsource : s ∈ sourceRecords input.content := by
    rw [sourcesFor] at hs
    split at hs
    · exact (List.mem_filter.1 hs).1
    · exact (List.mem_filter.1 hs).1
  have hfiles : (buildCoverageArtifactEvidence (N := N) input).files =
      (parseLcov input.content).files := by
    rw [buildCoverageArtifactEvidence, hformat]
    simp only
    rw [if_neg (List.length_eq_zero_iff.not.2 (trim_of_source hsource))]
  obtain ⟨entry, hentry, rfl⟩ := List.mem_map.1 hrow
  obtain ⟨symbol, -, hsymbol⟩ := List.mem_map.1 (mem_sortBy.1 (List.fst_mem_of_mem_zipIdx hentry))
  simp only [← hsymbol] at hfile hline ⊢
  exact agreementFor_executed hfiles honce hs hfile hline hexec

end

end

def reportInput (content : JsString) : BuildCoverageArtifactEvidenceInput :=
  ⟨js "lcov.info", js "unit", content, some .lcov, none⟩

def runSymbol : UnusedExportSymbol Numeral :=
  ⟨.exports, js "src/a.ts", js "run", some (.int 3), some (.int 1), none⟩

def rerunReport : JsString := js "SF:src/a.ts\nDA:3,0\nDA:3,2\nend_of_record\n"

theorem correlateCoverageUnusedExports_executed_rerun :
    ∃ row ∈ (correlateCoverageUnusedExports [runSymbol]
      [buildCoverageArtifactEvidence (reportInput rerunReport)] none).rows,
        row.2.file = js "src/a.ts" ∧ row.2.line = some (.int 3) ∧
          row.2.agreement ≠ .uncoveredAndUnused := by
  have hrow : ∃ row ∈ (correlateCoverageUnusedExports [runSymbol]
      [buildCoverageArtifactEvidence (reportInput rerunReport)] none).rows,
        row.2.file = js "src/a.ts" ∧ row.2.line = some (.int 3) := by decide +kernel
  obtain ⟨row, hmem, hfile, hline⟩ := hrow
  have hs : (⟨js "src/a.ts", [(js "DA", js "3,0"), (js "DA", js "3,2")]⟩ : SourceRecords) ∈
      sourcesFor (reportInput rerunReport).content (js "src/a.ts") := by decide +kernel
  refine ⟨row, hmem, hfile, hline, ?_⟩
  refine correlateCoverageUnusedExports_executed rfl (by decide +kernel) hs ⟨fun decl hleads => ?_,
    fun _ => ⟨.int 2, by decide +kernel, by decide +kernel⟩⟩ _ _ row hmem hfile hline
  exact absurd hleads.mem List.not_mem_nil

/-- A later record without hits replaces an earlier one with hits. -/
theorem correlateCoverageUnusedExports_replaced :
    let content := js "SF:src/a.ts\nDA:3,2\nDA:3,0\nend_of_record\n"
    (∃ s ∈ sourceRecords content, s.file = js "src/a.ts" ∧
      (s.declarations (N := Numeral)).isEmpty = true ∧
        ∃ record ∈ s.records, lineHits record = some (Numeral.int 3, Numeral.int 2)) ∧
      (correlateCoverageUnusedExports [runSymbol] [buildCoverageArtifactEvidence (reportInput content)]
        none).rows.map (fun row => (row.2.symbol, row.2.agreement)) =
          [(js "run", .uncoveredAndUnused)] := by
  decide +kernel

end Musi.DriftAi
