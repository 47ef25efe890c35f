import Musi.Js.Joined
import Musi.Js.PosixPath
import Musi.LintRatchet.Governance.EditCheckSweep

namespace Musi.LintRatchet
open Musi.Js Musi.Js.Lines Musi.System
set_option autoImplicit true

section
variable {N : Type}

/-! ## The wire protocol -/

def tab : UInt16 := 0x09

/-- The separator that the hook puts in place of the tabs of a result row. -/
def unitSeparator : UInt16 := 0x1F

def formatEditCheckTarget (target : EditCheckTarget) : JsString :=
  join [tab] [js "target", target.path, target.testId, target.ruleId, target.cacheIdentity.getD []]

def parseEditCheckTargetLine (line : JsString) : Option EditCheckTarget :=
  match splitOn tab line with
  | [kind, path, testId, ruleId, cacheIdentity] =>
    if kind ≠ js "target" then none
    else if path = [] ∨ testId = [] ∨ ruleId = [] then none
    else some { path, testId, ruleId, cacheIdentity := (some cacheIdentity).filter fun s => s ≠ [] }
  | _ => none

def parseTargetsFile (text : JsString) : List EditCheckTarget :=
  ((splitOn Lines.lineFeed text).filter fun line => line ≠ []).filterMap parseEditCheckTargetLine

def formatEditCheckChecked (path : JsString) : JsString := join [tab] [js "checked", path]

def isProtocolSeparator (c : UInt16) : Bool := c = tab || c = Lines.carriageReturn || c = Lines.lineFeed

/-- `value.replace(/[\t\r\n]+/gu, " ")` -/
def collapseSeparators : JsString → JsString
  | [] => []
  | c :: s =>
    if isProtocolSeparator c then
      if s.head?.any isProtocolSeparator then collapseSeparators s
      else unit ' ' :: collapseSeparators s
    else c :: collapseSeparators s

def sanitizeRepairCommand (value : JsString) : JsString :=
  if value.any isProtocolSeparator then collapseSeparators value else value

section Rows
variable [JsNumber N]

def formatEditCheckRegression (regression : EditCheckRegression N) : JsString :=
  join [tab] [js "regression", regression.path, regression.testId, regression.ruleId,
    regression.reason.text, (regression.line.map JsNumber.toText).getD [],
    numberText N regression.baselineCount, numberText N regression.currentCount,
    (regression.repairCommand.map sanitizeRepairCommand).getD []]

/-- What the targets mode prints. -/
def editCheckTargetsOutput (targets : List EditCheckTarget) : JsString :=
  print (targets.map formatEditCheckTarget)

/-- The repair commands of the rule docs, when they can be loaded. -/
def withEditCheckRepairCommands (docs : Option (JsString → Option JsString))
    (regressions : List (EditCheckRegression N)) : List (EditCheckRegression N) :=
  docs.elim regressions fun repairCommandFor => regressions.map fun regression =>
    (repairCommandFor regression.ruleId).elim regression fun repairCommand =>
      { regression with repairCommand := some repairCommand }

/-- What the check mode prints. -/
def editCheckOutput (docs : Option (JsString → Option JsString)) (result : EditCheckResult N) :
    JsString :=
  print (result.checked.map formatEditCheckChecked ++
    (withEditCheckRepairCommands docs result.regressions).map formatEditCheckRegression)

end Rows

/-! ## The targets file -/

/-- The fields of a target fit on its row. -/
structure Carried (target : EditCheckTarget) : Prop where
  fields : ∀ field ∈ [target.path, target.testId, target.ruleId, target.cacheIdentity.getD []],
    tab ∉ field ∧ Lines.lineFeed ∉ field
  path : target.path ≠ []
  testId : target.testId ≠ []
  ruleId : target.ruleId ≠ []

/-- An empty identity is written as none is. -/
def withoutEmptyIdentity (target : EditCheckTarget) : EditCheckTarget :=
  { target with cacheIdentity := target.cacheIdentity.filter fun s => s ≠ [] }

theorem identity_filter (identity : Option JsString) :
    (some (identity.getD [])).filter (fun s => s ≠ []) = identity.filter fun s => s ≠ [] := by
  cases identity with
  | none => rfl
  | some s => rfl

theorem splitOn_target {target : EditCheckTarget} (h : Carried target) :
    splitOn tab (formatEditCheckTarget target) = [js "target", target.path, target.testId,
      target.ruleId, target.cacheIdentity.getD []] := by
  refine splitOn_joined (List.cons_ne_nil _ _) fun field hfield => ?_
  rcases List.mem_cons.1 hfield with rfl | hfield
  · decide
  · exact (h.fields field hfield).1

theorem parseEditCheckTargetLine_format {target : EditCheckTarget} (h : Carried target) :
    parseEditCheckTargetLine (formatEditCheckTarget target) = some (withoutEmptyIdentity target) := by
  rw [parseEditCheckTargetLine, splitOn_target h]
  dsimp only
  have hfull : ¬ (target.path = [] ∨ target.testId = [] ∨ target.ruleId = []) := by
    rintro (hp | ht | hr)
    · exact h.path hp
    · exact h.testId ht
    · exact h.ruleId hr
  rw [if_neg (not_not.2 rfl), if_neg hfull, identity_filter]
  rfl

theorem lineFeed_notMem_target {target : EditCheckTarget} (h : Carried target) :
    Lines.lineFeed ∉ formatEditCheckTarget target := by
  intro hmem
  rcases mem_join hmem with hmem | ⟨field, hfield, hmem⟩
  · exact absurd hmem (by decide)
  · rcases List.mem_cons.1 hfield with rfl | hfield
    · exact absurd hmem (by decide)
    · exact (h.fields field hfield).2 hmem

/-- What a line without a line feed parses to fits on a row. -/
theorem carried_of_parse {line : JsString} {target : EditCheckTarget} (hline : Lines.lineFeed ∉ line)
    (h : parseEditCheckTargetLine line = some target) : Carried target := by
  have hpart (part : JsString) (hpart : part ∈ splitOn tab line) :
      tab ∉ part ∧ Lines.lineFeed ∉ part := by
    refine ⟨notMem_splitOn hpart, fun hmem => hline ?_⟩
    rw [← join_splitOn tab line]
    clear h hline
    revert hpart
    generalize splitOn tab line = parts
    intro hpart
    fun_induction join [tab] parts with
    | case1 => cases hpart
    | case2 l =>
      rw [List.mem_singleton.1 hpart] at hmem
      exact hmem
    | case3 l l' ls ih =>
      rcases List.mem_cons.1 hpart with rfl | hpart
      · exact List.mem_append_left _ (List.mem_append_left _ hmem)
      · exact List.mem_append_right _ (ih hpart)
  unfold parseEditCheckTargetLine at h
  split at h
  · next kind path testId ruleId cacheIdentity hsplit =>
    rw [hsplit] at hpart
    split at h
    · cases h
    · split at h
      · cases h
      · next hfull =>
        cases h
        rw [not_or, not_or] at hfull
        refine ⟨?_, hfull.1, hfull.2.1, hfull.2.2⟩
        simp only [List.forall_mem_cons] at hpart ⊢
        refine ⟨hpart.2.1, hpart.2.2.1, hpart.2.2.2.1, ?_, fun _ h => by cases h⟩
        rw [Option.filter_some]
        split
        · exact hpart.2.2.2.2.1
        · exact ⟨List.not_mem_nil, List.not_mem_nil⟩
  · cases h

theorem splitOn_lines {lines : List JsString} (h : ∀ line ∈ lines, Lines.lineFeed ∉ line ∧ line ≠ []) :
    ((splitOn Lines.lineFeed (print lines)).filter fun line => line ≠ []) = lines := by
  rw [splitOn_print fun line hline => (h line hline).1, List.filter_append]
  have hkeep : (lines.filter fun line => line ≠ []) = lines :=
    List.filter_eq_self.2 fun line hline => by simpa using (h line hline).2
  rw [hkeep]
  exact List.append_nil _

theorem target_ne_nil (target : EditCheckTarget) : formatEditCheckTarget target ≠ [] := by
  unfold formatEditCheckTarget
  rw [join, List.append_assoc]
  exact List.append_ne_nil_of_left_ne_nil (by decide) _

theorem parseTargetsFile_carried {targets : List EditCheckTarget} (h : ∀ t ∈ targets, Carried t) :
    parseTargetsFile (print (targets.map formatEditCheckTarget)) =
      targets.map withoutEmptyIdentity := by
  rw [parseTargetsFile, splitOn_lines, List.filterMap_map]
  · induction targets with
    | nil => rfl
    | cons target targets ih =>
      rw [List.forall_mem_cons] at h
      have htail := ih h.2
      simp only [Function.comp_def] at htail ⊢
      simp only [List.filterMap_cons, parseEditCheckTargetLine_format h.1, htail, List.map_cons]
  · intro line hline
    obtain ⟨target, htarget, rfl⟩ := List.mem_map.1 hline
    exact ⟨lineFeed_notMem_target (h target htarget), target_ne_nil target⟩

/-- Targets come back from the rows they are written to exactly when their fields fit. -/
theorem parseTargetsFile_rows (targets : List EditCheckTarget) :
    parseTargetsFile (print (targets.map formatEditCheckTarget)) =
        targets.map withoutEmptyIdentity ↔ ∀ target ∈ targets, Carried target := by
  refine ⟨fun hparse target htarget => ?_, parseTargetsFile_carried⟩
  have hmem : withoutEmptyIdentity target ∈
      parseTargetsFile (print (targets.map formatEditCheckTarget)) := by
    rw [hparse]
    exact List.mem_map_of_mem htarget
  obtain ⟨line, hline, hread⟩ := List.mem_filterMap.1 hmem
  have hcarried := carried_of_parse (notMem_splitOn (List.mem_filter.1 hline).1) hread
  refine ⟨fun field hfield => ?_, hcarried.path, hcarried.testId, hcarried.ruleId⟩
  have hfields := hcarried.fields
  simp only [List.forall_mem_cons, withoutEmptyIdentity] at hfields
  simp only [List.mem_cons, List.not_mem_nil, or_false] at hfield
  rcases hfield with rfl | rfl | rfl | rfl
  · exact hfields.1
  · exact hfields.2.1
  · exact hfields.2.2.1
  · cases hidentity : target.cacheIdentity with
    | none => exact ⟨List.not_mem_nil, List.not_mem_nil⟩
    | some identity =>
      by_cases hempty : identity = []
      · subst hempty
        exact ⟨List.not_mem_nil, List.not_mem_nil⟩
      · rw [hidentity, Option.filter_some, if_pos (by simpa using hempty)] at hfields
        exact hfields.2.2.2.1

/-! ## The hook -/

/-- The non-empty lines of a text that the hook reads. -/
def shellLines (text : JsString) : List JsString :=
  (splitOn Lines.lineFeed text).filter fun line => line ≠ []

/-- `IFS=$'\t' read -r` into some variables: tabs that follow each other are one separator, and the
last variable takes what is left. -/
def readFields : Nat → JsString → List JsString
  | 0, _ => []
  | 1, s => [(s.dropWhile fun c => c = tab).rdropWhile fun c => c = tab]
  | more + 2, s =>
    let s := s.dropWhile fun c => c = tab
    (s.takeWhile fun c => c ≠ tab) :: readFields (more + 1) (s.dropWhile fun c => c ≠ tab)

structure TargetRow where
  kind : JsString
  path : JsString
  testId : JsString
  ruleId : JsString
  cacheIdentity : JsString
  deriving DecidableEq

def editCheckReadTargetRow (row : JsString) : TargetRow :=
  let fields := readFields 5 row
  { kind := fields.getD 0 [], path := fields.getD 1 [], testId := fields.getD 2 [],
    ruleId := fields.getD 3 [], cacheIdentity := fields.getD 4 [] }

/-- A variable of edit_check_read_result_row before the last: the row is split at every tab. -/
def resultField (row : JsString) (index : Nat) : JsString :=
  (splitOn unitSeparator (row.map fun c => if c = tab then unitSeparator else c)).getD index []

/-- `matched[$relpath]` -/
def matchedCount (rows : List JsString) (relpath : JsString) : Nat :=
  (rows.filter fun row => (editCheckReadTargetRow row).kind = js "target" &&
    (editCheckReadTargetRow row).path = relpath).length

/-- `checked_count[$relpath]` -/
def checkedCount (rows : List JsString) (relpath : JsString) : Nat :=
  (rows.filter fun row =>
    resultField row 0 = js "checked" && resultField row 1 = relpath).length

/-- The lines that go into the identity set of a path. -/
def identityLines (relpath : JsString) (rows : List JsString) : List JsString :=
  (rows.filter fun row => (editCheckReadTargetRow row).path = relpath).map fun row =>
    let target := editCheckReadTargetRow row
    if target.cacheIdentity ≠ [] then target.cacheIdentity else js "legacy:" ++ target.testId

/-- What a run of the hook finds outside of the rows: the cap, the token of a path and its identity
lines, the token that was cached for a path, and which of the rows the throttle lets through. -/
structure EditHook where
  maxTargets : Nat
  contentToken : JsString → List JsString → JsString
  cachedToken : JsString → Option JsString
  due : Nat → Bool

/-- The variables of the selection loop. A path whose token is cached has none here. -/
structure Selection where
  freshToken : JsMap (Option JsString) := .empty
  lintRows : List JsString := []
  lintFile : List JsString := []

def Selection.add (s : Selection) (relpath row : JsString) : Selection :=
  { s with
    lintRows := s.lintRows ++ [row]
    lintFile := if relpath ∈ s.lintFile then s.lintFile else s.lintFile ++ [relpath] }

/-- `fresh_token` once a row of a path has been looked at. -/
def EditHook.fresh (hook : EditHook) (all : List JsString) (s : Selection) (relpath : JsString) :
    JsMap (Option JsString) :=
  match s.freshToken.get relpath with
  | some _ => s.freshToken
  | none =>
    let token := hook.contentToken relpath (identityLines relpath all)
    s.freshToken.set relpath (if hook.cachedToken relpath = some token then none else some token)

/-- One pass of the selection loop. -/
def EditHook.select (hook : EditHook) (all : List JsString) (s : Selection) (x : JsString × Nat) :
    Selection :=
  let target := editCheckReadTargetRow x.1
  if target.kind ≠ js "target" then s
  else
    let s := { s with freshToken := hook.fresh all s target.path }
    if s.freshToken.get target.path = some none then s
    else if hook.due x.2 then s.add target.path x.1
    else s

/-- The rows that are linted, of those under the cap. -/
def EditHook.selection (hook : EditHook) (all : List JsString) : Selection :=
  (all.take hook.maxTargets).zipIdx.foldl (hook.select all) {}

/-- The tokens that the hook writes once the lint has ended. -/
def EditHook.writes (hook : EditHook) (all output : List JsString) : List (JsString × JsString) :=
  (hook.selection all).lintFile.filterMap fun relpath =>
    if 0 < checkedCount output relpath ∧
        matchedCount all relpath = checkedCount output relpath then
      (((hook.selection all).freshToken.get relpath).join).map fun token => (relpath, token)
    else none

/-! ## Rows as the hook reads them -/

/-- A field that no reader takes for two. -/
structure Plain (s : JsString) : Prop where
  ne_nil : s ≠ []
  tab : tab ∉ s
  lineFeed : Lines.lineFeed ∉ s
  unitSeparator : unitSeparator ∉ s

theorem takeWhile_field {s rest : JsString} (h : tab ∉ s) :
    ((s ++ tab :: rest).takeWhile fun c => c ≠ tab) = s ∧
      ((s ++ tab :: rest).dropWhile fun c => c ≠ tab) = tab :: rest := by
  have hfield : ∀ c ∈ s, decide (c ≠ tab) = true :=
    fun c hc => decide_eq_true fun htab => h (htab ▸ hc)
  rw [List.takeWhile_append_of_pos hfield, List.dropWhile_append_of_pos hfield]
  simp

theorem dropWhile_tab {s : JsString} (hne : s ≠ []) (h : tab ∉ s) (rest : JsString) :
    ((s ++ rest).dropWhile fun c => c = tab) = s ++ rest := by
  cases s with
  | nil => exact absurd rfl hne
  | cons c s =>
    rw [List.mem_cons, not_or] at h
    exact List.dropWhile_cons_of_neg (by simpa using Ne.symm h.1)

/-- Non-empty fields without a tab are read one a variable. -/
theorem readFields_join (fields : List JsString) (h : ∀ field ∈ fields, field ≠ [] ∧ tab ∉ field)
    (hne : fields ≠ []) (more : JsString) (hmore : more = [] ∨ more = [tab]) :
    readFields fields.length (more ++ join [tab] fields) = fields := by
  have hskip (s : JsString) : ((more ++ s).dropWhile fun c => c = tab) =
      s.dropWhile fun c => c = tab := by
    rcases hmore with rfl | rfl
    · rfl
    · exact List.dropWhile_cons_of_pos (by simp)
  induction fields generalizing more with
  | nil => exact absurd rfl hne
  | cons field fields ih =>
    rw [List.forall_mem_cons] at h
    cases fields with
    | nil =>
      rw [List.length_singleton, join, readFields, hskip]
      have hdrop := dropWhile_tab h.1.1 h.1.2 []
      rw [List.append_nil] at hdrop
      have hlast : (field.rdropWhile fun c => c = tab) = field := by
        refine List.rdropWhile_eq_self_iff.2 fun hl htab => h.1.2 ?_
        rw [← of_decide_eq_true htab]
        exact List.getLast_mem hl
      rw [hdrop, hlast]
    | cons field' fields =>
      rw [List.length_cons, List.length_cons, readFields, join, hskip, List.append_assoc,
        dropWhile_tab h.1.1 h.1.2, List.singleton_append, (takeWhile_field h.1.2).1,
        (takeWhile_field h.1.2).2]
      have htail := ih h.2 (List.cons_ne_nil _ _) [tab] (.inr rfl)
        fun s => List.dropWhile_cons_of_pos (by simp)
      rw [List.length_cons, List.singleton_append] at htail
      rw [htail]

theorem editCheckReadTargetRow_format {target : EditCheckTarget} {identity : JsString}
    (hpath : Plain target.path) (htestId : Plain target.testId) (hruleId : Plain target.ruleId)
    (hidentity : target.cacheIdentity = some identity) (hplain : Plain identity) :
    editCheckReadTargetRow (formatEditCheckTarget target) =
      ⟨js "target", target.path, target.testId, target.ruleId, identity⟩ := by
  have hfields := readFields_join [js "target", target.path, target.testId, target.ruleId, identity]
    (by
      simp only [List.forall_mem_cons]
      exact ⟨⟨by decide, by decide⟩, ⟨hpath.ne_nil, hpath.tab⟩, ⟨htestId.ne_nil, htestId.tab⟩,
        ⟨hruleId.ne_nil, hruleId.tab⟩, ⟨hplain.ne_nil, hplain.tab⟩, fun _ h => by cases h⟩)
    (List.cons_ne_nil _ _) [] (.inl rfl)
  rw [editCheckReadTargetRow, formatEditCheckTarget, hidentity]
  exact congrArg (fun fields : List JsString => TargetRow.mk (fields.getD 0 []) (fields.getD 1 [])
    (fields.getD 2 []) (fields.getD 3 []) (fields.getD 4 [])) hfields

theorem map_tab {s : JsString} (h : tab ∉ s) :
    (s.map fun c => if c = tab then unitSeparator else c) = s := by
  have hfield : ∀ c ∈ s, (if c = tab then unitSeparator else c) = c :=
    fun c hc => if_neg (by rintro rfl; exact h hc)
  rw [List.map_congr_left hfield, List.map_id']

/-- The first fields of a result row. -/
theorem resultField_cons {kind : JsString} (hkind : tab ∉ kind ∧ unitSeparator ∉ kind)
    {path : JsString} (hpath : Plain path) (rest : JsString) (hrest : rest = [] ∨ rest.head? = some tab) :
    resultField (kind ++ tab :: (path ++ rest)) 0 = kind ∧
      resultField (kind ++ tab :: (path ++ rest)) 1 = path := by
  have hsplit : ∃ more, splitOn unitSeparator ((kind ++ tab :: (path ++ rest)).map fun c =>
      if c = tab then unitSeparator else c) = kind :: path :: more := by
    rw [List.map_append, List.map_cons, List.map_append, map_tab hkind.1, map_tab hpath.tab,
      if_pos rfl, splitOn_append hkind.2]
    rcases hrest with rfl | hrest
    · exact ⟨[], by rw [List.map_nil, List.append_nil, splitOn_of_notMem hpath.unitSeparator]⟩
    · cases rest with
      | nil => cases hrest
      | cons c rest =>
        obtain rfl := Option.some.inj hrest
        rw [List.map_cons, if_pos rfl, splitOn_append hpath.unitSeparator]
        exact ⟨_, rfl⟩
  obtain ⟨more, hsplit⟩ := hsplit
  rw [resultField, resultField, hsplit]
  exact ⟨rfl, rfl⟩

/-! ## What the check prints -/

theorem isProtocolSeparator_lineFeed : isProtocolSeparator Lines.lineFeed = true := by decide

theorem lineFeed_notMem_collapse (s : JsString) : Lines.lineFeed ∉ collapseSeparators s := by
  fun_induction collapseSeparators s with
  | case1 => exact List.not_mem_nil
  | case2 c s hc hnext ih => exact ih
  | case3 c s hc hnext ih =>
    rw [List.mem_cons, not_or]
    exact ⟨by decide, ih⟩
  | case4 c s hc ih =>
    rw [List.mem_cons, not_or]
    refine ⟨?_, ih⟩
    rintro rfl
    exact hc isProtocolSeparator_lineFeed

theorem lineFeed_notMem_sanitize (value : JsString) : Lines.lineFeed ∉ sanitizeRepairCommand value := by
  rw [sanitizeRepairCommand]
  split
  · exact lineFeed_notMem_collapse value
  · next h =>
    intro hmem
    exact h (List.any_eq_true.2 ⟨_, hmem, isProtocolSeparator_lineFeed⟩)

theorem checked_row {path : JsString} (h : Plain path) :
    Lines.lineFeed ∉ formatEditCheckChecked path ∧
      resultField (formatEditCheckChecked path) 0 = js "checked" ∧
      resultField (formatEditCheckChecked path) 1 = path := by
  have heq : formatEditCheckChecked path = js "checked" ++ tab :: (path ++ []) := by
    rw [List.append_nil]
    exact List.append_assoc _ _ _
  refine ⟨fun hrow => ?_, ?_⟩
  · rcases mem_join hrow with hmem | ⟨field, hfield, hmem⟩
    · exact absurd hmem (by decide)
    · simp only [List.mem_cons, List.not_mem_nil, or_false] at hfield
      rcases hfield with hfield | hfield
      · exact absurd (hfield ▸ hmem) (by decide)
      · exact h.lineFeed (hfield ▸ hmem)
  · rw [heq]
    exact resultField_cons (by decide) h [] (.inl rfl)

theorem lineFeed_notMem_reason (reason : RegressionReason) : Lines.lineFeed ∉ reason.text := by
  cases reason <;> decide

theorem regression_row [JsNumber N] (hnumbers : ∀ n : N, Lines.lineFeed ∉ JsNumber.toText n)
    {r : EditCheckRegression N} (hpath : Plain r.path) (htestId : Plain r.testId)
    (hruleId : Plain r.ruleId) : Lines.lineFeed ∉ formatEditCheckRegression r ∧
      resultField (formatEditCheckRegression r) 0 = js "regression" := by
  constructor
  · intro hmem
    rcases mem_join hmem with hmem | ⟨field, hfield, hmem⟩
    · exact absurd hmem (by decide)
    · simp only [List.mem_cons, List.not_mem_nil, or_false] at hfield
      rcases hfield with rfl | rfl | rfl | rfl | rfl | rfl | rfl | rfl | rfl
      · exact absurd hmem (by decide)
      · exact hpath.lineFeed hmem
      · exact htestId.lineFeed hmem
      · exact hruleId.lineFeed hmem
      · exact lineFeed_notMem_reason _ hmem
      · cases hline : r.line with
        | none =>
          rw [hline] at hmem
          cases hmem
        | some line =>
          rw [hline] at hmem
          exact hnumbers line hmem
      · exact hnumbers _ hmem
      · exact hnumbers _ hmem
      · cases hrepair : r.repairCommand with
        | none =>
          rw [hrepair] at hmem
          cases hmem
        | some repair =>
          rw [hrepair] at hmem
          exact lineFeed_notMem_sanitize repair hmem
  · rw [formatEditCheckRegression, join, join, List.append_assoc, List.singleton_append,
      List.append_assoc]
    exact (resultField_cons (by decide) hpath _ (.inr rfl)).1

/-- The hook counts the rows of the files that the check has linted. -/
theorem checkedCount_output [JsNumber N] (hnumbers : ∀ n : N, Lines.lineFeed ∉ JsNumber.toText n)
    (docs : Option (JsString → Option JsString)) {result : EditCheckResult N}
    (hchecked : ∀ path ∈ result.checked, Plain path)
    (hregressions : ∀ r ∈ result.regressions, Plain r.path ∧ Plain r.testId ∧ Plain r.ruleId)
    (relpath : JsString) :
    checkedCount (shellLines (editCheckOutput docs result)) relpath =
      result.checked.count relpath := by
  have hrepairs : ∀ r ∈ withEditCheckRepairCommands docs result.regressions,
      Plain r.path ∧ Plain r.testId ∧ Plain r.ruleId := by
    intro r hr
    cases docs with
    | none => exact hregressions r hr
    | some repairCommandFor =>
      obtain ⟨r, hmem, rfl⟩ := List.mem_map.1 hr
      cases repairCommandFor r.ruleId with
      | none => exact hregressions r hmem
      | some repair => exact hregressions r hmem
  have hrow (r : EditCheckRegression N)
      (hr : r ∈ withEditCheckRepairCommands docs result.regressions) :=
    regression_row hnumbers (hrepairs r hr).1 (hrepairs r hr).2.1 (hrepairs r hr).2.2
  have hlines : shellLines (editCheckOutput docs result) =
      result.checked.map formatEditCheckChecked ++
        (withEditCheckRepairCommands docs result.regressions).map formatEditCheckRegression := by
    refine splitOn_lines fun line hline => ?_
    rcases List.mem_append.1 hline with hline | hline
    · obtain ⟨path, hpath, rfl⟩ := List.mem_map.1 hline
      refine ⟨(checked_row (hchecked path hpath)).1, ?_⟩
      rw [formatEditCheckChecked, join, List.append_assoc]
      exact List.append_ne_nil_of_left_ne_nil (by decide) _
    · obtain ⟨r, hr, rfl⟩ := List.mem_map.1 hline
      refine ⟨(hrow r hr).1, ?_⟩
      rw [formatEditCheckRegression, join, List.append_assoc]
      exact List.append_ne_nil_of_left_ne_nil (by decide) _
  rw [checkedCount, hlines, List.filter_append, List.length_append]
  have hnone : ((withEditCheckRepairCommands docs result.regressions).map
      formatEditCheckRegression).filter (fun row =>
        resultField row 0 = js "checked" && resultField row 1 = relpath) = [] := by
    refine List.filter_eq_nil_iff.2 fun row hmem => ?_
    obtain ⟨r, hr, rfl⟩ := List.mem_map.1 hmem
    rw [(hrow r hr).2]
    have hkinds : js "regression" ≠ js "checked" := by decide
    simp [hkinds]
  rw [hnone, List.length_nil, Nat.add_zero]
  rw [List.filter_map, List.length_map, List.count_eq_length_filter]
  refine congrArg List.length (List.filter_congr fun path hpath => ?_)
  obtain ⟨-, hkind, hpath⟩ := checked_row (hchecked path hpath)
  simp only [Function.comp_apply, hkind, hpath, decide_true, Bool.true_and, beq_eq_decide]

/-! ## The rows of a discovery -/

section Rows
variable {engine : LintRatchetEditCheckEngine N} {paths : List JsString}
  {discovered : List EditCheckTarget} [JsNumber N] [Host]

/-- What the rows rely on: no path, id or number takes up two fields or two rows. -/
structure PlainRows (engine : LintRatchetEditCheckEngine N) (paths : List JsString) : Prop where
  paths : ∀ path ∈ paths, Plain (relativeToRepoRoot engine.repoRoot path)
  ids : ∀ ratchet ∈ engine.registry, Plain ratchet.id ∧ Plain ratchet.ruleId
  numbers : ∀ n : N, Lines.lineFeed ∉ JsNumber.toText n

theorem plain_identity (text : JsString) : Plain (js "sha256:" ++ Host.sha256 text) := by
  have hmem {c : UInt16} (hlead : c ∉ js "sha256:")
      (hhex : ¬ (isDigit c || (0x61 ≤ c && c ≤ 0x66)) = true) :
      c ∉ js "sha256:" ++ Host.sha256 text := fun hc =>
    (List.mem_append.1 hc).elim hlead fun hc => hhex (Host.sha256_hex text c hc)
  exact ⟨List.append_ne_nil_of_left_ne_nil (by decide) _, hmem (by decide) (by decide),
    hmem (by decide) (by decide), hmem (by decide) (by decide)⟩

theorem discovered_plain (hrows : PlainRows engine paths)
    (h : discoverEditCheckTargets engine paths = some discovered) {target : EditCheckTarget}
    (htarget : target ∈ discovered) :
    Plain target.path ∧ Plain target.testId ∧ Plain target.ruleId := by
  obtain ⟨⟨rawPath, hraw, ratchet, hd⟩, -, -⟩ := discovered_spec h htarget
  rw [hd.path, hd.testId, hd.ruleId]
  exact ⟨hrows.paths rawPath hraw, hrows.ids ratchet hd.registered⟩

theorem discovered_row (hrows : PlainRows engine paths)
    (h : discoverEditCheckTargets engine paths = some discovered) {target : EditCheckTarget}
    (htarget : target ∈ discovered) :
    Carried target ∧ withoutEmptyIdentity target = target ∧
      (editCheckReadTargetRow (formatEditCheckTarget target)).kind = js "target" ∧
      (editCheckReadTargetRow (formatEditCheckTarget target)).path = target.path := by
  obtain ⟨-, ⟨text, hidentity⟩, -⟩ := discovered_spec h htarget
  obtain ⟨hpath, htestId, hruleId⟩ := discovered_plain hrows h htarget
  have hplain := plain_identity text
  refine ⟨⟨fun field hfield => ?_, hpath.ne_nil, htestId.ne_nil, hruleId.ne_nil⟩, ?_, ?_⟩
  · simp only [List.mem_cons, List.not_mem_nil, or_false, hidentity, Option.getD_some] at hfield
    rcases hfield with rfl | rfl | rfl | rfl
    · exact ⟨hpath.tab, hpath.lineFeed⟩
    · exact ⟨htestId.tab, htestId.lineFeed⟩
    · exact ⟨hruleId.tab, hruleId.lineFeed⟩
    · exact ⟨hplain.tab, hplain.lineFeed⟩
  · rw [withoutEmptyIdentity, hidentity, Option.filter_some,
      if_pos (decide_eq_true hplain.ne_nil), ← hidentity]
  · rw [editCheckReadTargetRow_format hpath htestId hruleId hidentity hplain]
    exact ⟨rfl, rfl⟩

theorem shellLines_targets (hrows : PlainRows engine paths)
    (h : discoverEditCheckTargets engine paths = some discovered) :
    shellLines (editCheckTargetsOutput discovered) = discovered.map formatEditCheckTarget := by
  refine splitOn_lines fun line hline => ?_
  obtain ⟨target, htarget, rfl⟩ := List.mem_map.1 hline
  exact ⟨lineFeed_notMem_target (discovered_row hrows h htarget).1, target_ne_nil target⟩

theorem matchedCount_targets (hrows : PlainRows engine paths)
    (h : discoverEditCheckTargets engine paths = some discovered) (relpath : JsString) :
    matchedCount (shellLines (editCheckTargetsOutput discovered)) relpath =
      (discovered.filter fun target => target.path = relpath).length := by
  rw [matchedCount, shellLines_targets hrows h, List.filter_map, List.length_map]
  refine congrArg List.length (List.filter_congr fun target htarget => ?_)
  obtain ⟨-, -, hkind, hpath⟩ := discovered_row hrows h htarget
  simp [hkind, hpath]

end Rows

/-! ## The selection -/

section Selections
variable {hook : EditHook} {all : List JsString}

/-- What the selection loop keeps. -/
structure Selection.Sound (hook : EditHook) (all : List JsString) (s : Selection) : Prop where
  rows : s.lintRows ⊆ all
  tokens : ∀ relpath token, s.freshToken.get relpath = some (some token) →
    token = hook.contentToken relpath (identityLines relpath all)

theorem Selection.Sound.fresh {s : Selection} (h : s.Sound hook all) (path relpath token : JsString)
    (htoken : (hook.fresh all s path).get relpath = some (some token)) :
    token = hook.contentToken relpath (identityLines relpath all) := by
  unfold EditHook.fresh at htoken
  split at htoken
  · exact h.tokens relpath token htoken
  · rw [JsMap.get_set] at htoken
    split at htoken
    · next hpath =>
      subst hpath
      split at htoken
      · cases htoken
      · exact (Option.some.inj (Option.some.inj htoken)).symm
    · exact h.tokens relpath token htoken

theorem Selection.Sound.select {s : Selection} (h : s.Sound hook all) {x : JsString × Nat}
    (hx : x.1 ∈ all) : (hook.select all s x).Sound hook all := by
  unfold EditHook.select
  dsimp only
  split
  · exact h
  · split
    · exact ⟨h.rows, h.fresh _⟩
    · split
      · exact ⟨List.append_subset.2 ⟨h.rows, List.cons_subset.2 ⟨hx, List.nil_subset _⟩⟩, h.fresh _⟩
      · exact ⟨h.rows, h.fresh _⟩

theorem selection_sound (hook : EditHook) (all : List JsString) :
    (hook.selection all).Sound hook all := by
  have hstart : ({} : Selection).Sound hook all :=
    ⟨List.nil_subset _, fun relpath token h => by cases h⟩
  refine List.foldlRecOn _ _ hstart fun s hs x hx => hs.select ?_
  exact List.mem_of_mem_take (List.fst_mem_of_mem_zipIdx hx)

end Selections

/-! ## What is cached is checked -/

section Cached
variable {engine : LintRatchetEditCheckEngine N} {trackedFiles paths : List JsString}
  {lint : LintRatchetConfig N → JsString → List (ESLintFileResult N)}
  {discovered : List EditCheckTarget} {baseline : LintRatchetBaseline N}
  {currentById : LintRatchetCurrentById N} {comparison : LintRatchetComparison N} [JsNumber N]
  [Host]

/-- The targets that the hook runs the check on. -/
def EditHook.targets (hook : EditHook) (discovered : List EditCheckTarget) : List EditCheckTarget :=
  parseTargetsFile
    (print (hook.selection (shellLines (editCheckTargetsOutput discovered))).lintRows)

theorem EditHook.targets_subset (hook : EditHook) (hrows : PlainRows engine paths)
    (h : discoverEditCheckTargets engine paths = some discovered) :
    hook.targets discovered ⊆ discovered := by
  have hsound := (selection_sound hook (shellLines (editCheckTargetsOutput discovered))).rows
  rw [EditHook.targets]
  revert hsound
  generalize (hook.selection (shellLines (editCheckTargetsOutput discovered))).lintRows = rows
  rw [shellLines_targets hrows h]
  intro hsound
  have hsub : ∃ sub, sub ⊆ discovered ∧ rows = sub.map formatEditCheckTarget := by
    induction rows with
    | nil => exact ⟨[], List.nil_subset _, rfl⟩
    | cons row rows ih =>
      obtain ⟨hrow, htail⟩ := List.cons_subset.1 hsound
      obtain ⟨target, htarget, rfl⟩ := List.mem_map.1 hrow
      obtain ⟨sub, hsub, rfl⟩ := ih htail
      exact ⟨target :: sub, List.cons_subset.2 ⟨htarget, hsub⟩, rfl⟩
  obtain ⟨sub, hsub, rfl⟩ := hsub
  rw [parseTargetsFile_carried fun target htarget => (discovered_row hrows h (hsub htarget)).1]
  intro target htarget
  obtain ⟨target, hmem, rfl⟩ := List.mem_map.1 htarget
  rw [(discovered_row hrows h (hsub hmem)).2.1]
  exact hsub hmem

omit [JsNumber N] [Host] in
/-- Without a tab in them, a path and an id can be told from what the loop has seen. -/
theorem seenKey_inj {path path' id id' : JsString} (hpaths : tab ∉ path ∧ tab ∉ path')
    (hids : tab ∉ id ∧ tab ∉ id') (h : path ++ js "\t" ++ id = path' ++ js "\t" ++ id') :
    path = path' ∧ id = id' := by
  have hsplit {path id : JsString} (hpath : tab ∉ path) (hid : tab ∉ id) :
      splitOn tab (path ++ js "\t" ++ id) = [path, id] := by
    rw [List.append_assoc]
    change splitOn tab (path ++ tab :: id) = _
    rw [splitOn_append hpath, splitOn_of_notMem hid]
  have heq := congrArg (splitOn tab) h
  rw [hsplit hpaths.1 hids.1, hsplit hpaths.2 hids.2] at heq
  cases heq
  exact ⟨rfl, rfl⟩

/-- Where as many targets are checked as were discovered, all of them are checked. -/
theorem Outcome.all_checked {targets : List EditCheckTarget} {groups : List (EditCheckGroup N)}
    {result : EditCheckResult N} (h : Outcome engine baseline targets comparison groups result)
    (htargets : targets ⊆ discovered) {relpath : JsString}
    (hcount : (discovered.filter fun target => target.path = relpath).length =
      result.checked.count relpath) {target : EditCheckTarget} (htarget : target ∈ discovered)
    (hpath : target.path = relpath) :
    ∃ checked ∈ targets, checked.testId = target.testId ∧ checked.path = relpath ∧
      (checkOf engine baseline checked).isSome := by
  have hids : (groups.filter fun g => g.files.contains relpath).length =
      (discovered.filter fun target => target.path = relpath).length := by
    rw [hcount, h.checked.count_eq]
    have hfiles := h.grouping.files
    clear hcount h htarget htargets
    induction groups with
    | nil => rfl
    | cons g groups ih =>
      rw [List.forall_mem_cons] at hfiles
      rw [List.flatMap_cons, List.count_append, ← ih hfiles.2]
      by_cases hg : relpath ∈ g.files
      · rw [List.filter_cons_of_pos (by simpa using hg), List.length_cons,
          List.count_eq_one_of_mem hfiles.1 hg, Nat.add_comm]
      · rw [List.filter_cons_of_neg (by simpa using hg), List.count_eq_zero.2 hg, Nat.zero_add]
  have hnodup : (((groups.filter fun g => g.files.contains relpath).map
      fun g => g.ratchet.id)).Nodup :=
    h.grouping.ids.sublist (List.filter_sublist.map _)
  have hsubset : ((groups.filter fun g => g.files.contains relpath).map fun g => g.ratchet.id) ⊆
      (discovered.filter fun target => target.path = relpath).map fun target => target.testId := by
    intro id hid
    obtain ⟨g, hg, rfl⟩ := List.mem_map.1 hid
    obtain ⟨hg, hfile⟩ := List.mem_filter.1 hg
    obtain ⟨t, ht, htestId, hpath, -⟩ := (h.grouping.checked g.ratchet.id relpath).1
      ⟨g, hg, rfl, by simpa using hfile⟩
    exact List.mem_map.2 ⟨t, List.mem_filter.2 ⟨htargets ht, by simpa using hpath⟩, htestId⟩
  have hperm := (hnodup.subperm hsubset).perm_of_length_le (by
    rw [List.length_map, List.length_map, hids])
  have hmem := hperm.mem_iff.2 (List.mem_map.2
    ⟨target, List.mem_filter.2 ⟨htarget, by simpa using hpath⟩, rfl⟩)
  obtain ⟨g, hg, hid⟩ := List.mem_map.1 hmem
  obtain ⟨hg, hfile⟩ := List.mem_filter.1 hg
  exact (h.grouping.checked target.testId relpath).1 ⟨g, hg, hid, by simpa using hfile⟩

/-- A token is written only for a path whose regressions are all reported: those of the full sweep,
of every ratchet that the check runs, whatever the cap, the cache and the throttle left out. -/
theorem EditHook.writes_checked (hook : EditHook) (h : EditCheckHost engine trackedFiles lint)
    (hpaths : ∀ path ∈ paths, relativeToRepoRoot engine.repoRoot path ∈ trackedFiles)
    (hrows : PlainRows engine paths)
    (hdiscovered : discoverEditCheckTargets engine paths = some discovered)
    (hbaseline : engine.structuralBaseline = some baseline)
    (hsweep : collectCurrentById engine trackedFiles = .ok currentById)
    (hcompare : compareCurrentToBaseline baseline engine.registry currentById
      engine.workflowVocabulary = some comparison)
    (docs : Option (JsString → Option JsString)) {concurrency : Int} {result : EditCheckResult N}
    (hrun : RunEditCheckRegressions engine (hook.targets discovered) concurrency result)
    {relpath token : JsString}
    (hwrite : (relpath, token) ∈ hook.writes (shellLines (editCheckTargetsOutput discovered))
      (shellLines (editCheckOutput docs result))) :
    token = hook.contentToken relpath
        (identityLines relpath (shellLines (editCheckTargetsOutput discovered))) ∧
      ∀ r ∈ comparison.regressions, r.path = relpath →
        (∀ ratchet ∈ engine.registry, ratchet.id = r.testId →
          isEligibleEditCheckRatchet ratchet = true) →
        editCheckRegression r ∈ result.regressions := by
  have htargets := hook.targets_subset hrows hdiscovered
  obtain ⟨groups, houtcome⟩ :=
    h.outcome hpaths hdiscovered htargets hbaseline hsweep hcompare hrun
  obtain ⟨merged, hmerged, hsorted⟩ := houtcome.regressions
  have hregressions : result.regressions.Perm
      ((targetedRegressions engine baseline (hook.targets discovered) comparison).map
        editCheckRegression) := by
    rw [hsorted]
    exact (sortBy_perm _ _).trans hmerged
  obtain ⟨path, hpath, hwrite⟩ := List.mem_filterMap.1 hwrite
  split at hwrite
  · next hcounts =>
    obtain ⟨token, htoken, he⟩ := Option.map_eq_some_iff.1 hwrite
    cases he
    refine ⟨(selection_sound hook _).tokens relpath token (Option.join_eq_some_iff.1 htoken), ?_⟩
    have hcheckedPlain : ∀ path ∈ result.checked, Plain path := by
      intro path hpath
      obtain ⟨g, hg, hfile⟩ := List.mem_flatMap.1 (houtcome.checked.mem_iff.1 hpath)
      obtain ⟨t, ht, -, rfl, -⟩ :=
        (houtcome.grouping.checked g.ratchet.id path).1 ⟨g, hg, rfl, hfile⟩
      exact (discovered_plain hrows hdiscovered (htargets ht)).1
    have hregressionPlain : ∀ r ∈ result.regressions,
        Plain r.path ∧ Plain r.testId ∧ Plain r.ruleId := by
      intro reported hreported
      obtain ⟨r, htargeted, rfl⟩ := List.mem_map.1 (hregressions.mem_iff.1 hreported)
      obtain ⟨hr, hany⟩ := List.mem_filter.1 htargeted
      obtain ⟨t, ht, hat⟩ := List.any_eq_true.1 hany
      simp only [Bool.and_eq_true, decide_eq_true_eq] at hat
      obtain ⟨ratchet, hratchet, hid, hrule, -⟩ := h.regression_spec hsweep hcompare hr
      obtain ⟨hplainId, hplainRule⟩ := hrows.ids ratchet hratchet
      have hplainPath := (discovered_plain hrows hdiscovered (htargets ht)).1
      rw [hat.1.2] at hplainPath
      rw [hid] at hplainId
      rw [hrule] at hplainRule
      exact ⟨hplainPath, hplainId, hplainRule⟩
    rw [checkedCount_output hrows.numbers docs hcheckedPlain hregressionPlain,
      matchedCount_targets hrows hdiscovered] at hcounts
    intro r hr hat heligible
    obtain ⟨ratchet, hratchet, hid, -, hglobs⟩ := h.regression_spec hsweep hcompare hr
    obtain ⟨seen, hseen, hseenPath⟩ : ∃ t ∈ discovered, t.path = relpath := by
      obtain ⟨g, hg, hfile⟩ := List.mem_flatMap.1
        (houtcome.checked.mem_iff.1 (List.count_pos_iff.1 hcounts.1))
      obtain ⟨t, ht, -, hp, -⟩ :=
        (houtcome.grouping.checked g.ratchet.id relpath).1 ⟨g, hg, rfl, hfile⟩
      exact ⟨t, htargets ht, hp⟩
    obtain ⟨⟨rawPath, hraw, _, hd⟩, -, -⟩ := discovered_spec hdiscovered hseen
    have hrelative : relativeToRepoRoot engine.repoRoot rawPath = relpath :=
      hd.path.symm.trans hseenPath
    have hkey := seen_discovery hraw hratchet (heligible ratchet hratchet hid)
      (by rw [hrelative, ← hat]; exact hglobs)
    obtain ⟨target, htarget, hsame⟩ := List.mem_map.1 ((discovered_keys hdiscovered).mem_iff.2 hkey)
    obtain ⟨htargetPath, htargetId⟩ := seenKey_inj
      ⟨(discovered_plain hrows hdiscovered htarget).1.tab, (hrows.paths rawPath hraw).tab⟩
      ⟨(discovered_plain hrows hdiscovered htarget).2.1.tab, (hrows.ids ratchet hratchet).1.tab⟩
      hsame
    obtain ⟨checked, hchecked, htestId, hcheckedPath, hsome⟩ := houtcome.all_checked htargets
      hcounts.2 htarget (htargetPath.trans hrelative)
    refine hregressions.mem_iff.2 (List.mem_map_of_mem (List.mem_filter.2 ⟨hr, ?_⟩))
    refine List.any_eq_true.2 ⟨checked, hchecked, ?_⟩
    rw [htestId, htargetId, hid, hcheckedPath, hat, hsome]
    simp
  · cases hwrite

end Cached

end

/-! ## A finding whose file is cached -/

def oneHook : EditHook where
  maxTargets := 12
  contentToken _ _ := zeroHash
  cachedToken _ := none
  due _ := true

def editGroup : EditCheckGroup Numeral where
  ratchet := oneFileRatchet .messageCount
  ruleSourceHash := zeroHash
  files := [onePath]

theorem plainRows_one : PlainRows editEngine [onePath] where
  paths path hpath := by
    obtain rfl := List.mem_singleton.1 hpath
    exact ⟨by decide +kernel, by decide +kernel, by decide +kernel, by decide +kernel⟩
  ids ratchet hratchet := by
    obtain rfl := List.mem_singleton.1 hratchet
    constructor
    · exact ⟨by decide +kernel, by decide +kernel, by decide +kernel, by decide +kernel⟩
    · exact ⟨by decide +kernel, by decide +kernel, by decide +kernel, by decide +kernel⟩
  numbers n hmem := by
    have hunits := (isNumeral_numberUnits (JsNumber.toText_numeral (n := n) rfl)).2
    exact absurd (List.all_eq_true.1 hunits Lines.lineFeed hmem) (by decide)

theorem groupRun_one {r : GroupResult Numeral}
    (h : regressionsForGroup editEngine (gatedFile 1) editGroup = some r) :
    RunGroupsWithConcurrency editEngine [editGroup] 4 (gatedFile 1) r := by
  have hstart : GroupRun.Reachable editEngine (gatedFile 1) [editGroup] 1
      { Pool.start 1 1 with } := .start
  exact ⟨_, hstart.settle (List.mem_singleton.2 rfl) rfl h, rfl, rfl⟩

/-- The one new finding is reported before the token of its file is written. -/
theorem EditHook.writes_checked_one :
    ∃ result, RunEditCheckRegressions editEngine (oneHook.targets [editTarget]) 4 result ∧
      (onePath, zeroHash) ∈ oneHook.writes (shellLines (editCheckTargetsOutput [editTarget]))
        (shellLines (editCheckOutput none result)) ∧ result.regressions ≠ [] := by
  have hresult : ((regressionsForGroup editEngine (gatedFile 1) editGroup).map fun r =>
      decide ((onePath, zeroHash) ∈
        oneHook.writes (shellLines (editCheckTargetsOutput [editTarget]))
          (shellLines (editCheckOutput none
            { regressions := sortRegressions r.regressions, checked := r.checked })))) =
      some true := by
    decide +kernel
  obtain ⟨r, hr, hwrite⟩ := Option.map_eq_some_iff.1 hresult
  have hwrite := of_decide_eq_true hwrite
  have htargets : oneHook.targets [editTarget] = [editTarget] := by decide +kernel
  have hrun : RunEditCheckRegressions editEngine (oneHook.targets [editTarget]) 4
      { regressions := sortRegressions r.regressions, checked := r.checked } := by
    rw [htargets]
    exact .merged (List.cons_ne_nil _ _) (by decide +kernel) (by decide +kernel) (groupRun_one hr)
  obtain ⟨currentById, comparison, hsweep, hcompare, hcounts⟩ := sweep_one
  obtain ⟨-, hreported⟩ := oneHook.writes_checked editCheckHost_one paths_one plainRows_one
    discovered_one baseline_one hsweep hcompare none hrun hwrite
  have hne : targetedRegressions editEngine (gatedFile 1) [editTarget] comparison ≠ [] := by
    intro hempty
    rw [hempty] at hcounts
    cases hcounts
  obtain ⟨regression, hregression⟩ := List.exists_mem_of_ne_nil _ hne
  obtain ⟨hmem, hany⟩ := List.mem_filter.1 hregression
  obtain ⟨target, htarget, hat⟩ := List.any_eq_true.1 hany
  obtain rfl := List.mem_singleton.1 htarget
  simp only [Bool.and_eq_true, decide_eq_true_eq] at hat
  refine ⟨_, hrun, hwrite, List.ne_nil_of_mem (hreported regression hmem hat.1.2.symm ?_)⟩
  intro ratchet hratchet _
  obtain rfl := List.mem_singleton.1 hratchet
  rfl

end Musi.LintRatchet
