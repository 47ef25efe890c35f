import Musi.Js.Joined
import Musi.Js.Throw
import Musi.Bash.Run
import Musi.Harness.CommandPolicy

namespace Musi.Harness
open Musi.Js Musi.Bash
set_option autoImplicit true

/-! ## What the fragment declares -/

theorem shellSingleQuote_eq (value : JsString) : shellSingleQuote value = singleQuoted value := by
  have hquote : js "'" = [apostrophe] := rfl
  rw [shellSingleQuote, hquote, replaceAllFrom_unit]
  rfl

def RULE_IDS : JsString := js "AI_POLICY_RULE_IDS"

def RULES_COMPLETE : JsString := js "AI_POLICY_RULES_COMPLETE"

/-- The variables of the fragment but for the message constants. -/
def policyNames : List JsString := RULE_IDS :: RULES_COMPLETE :: policyArrays.map Prod.fst

def messageConstant (rule : CommandPolicyRule) : Option (JsString × JsString) :=
  match rule.message with
  | .constant constant text => some (constant, text)
  | .fromPredicate => none

def messageConstants (rules : List CommandPolicyRule) : Entries JsString :=
  rules.filterMap messageConstant

def arrayEntry (valueOf : CommandPolicyRule → Option JsString) (rule : CommandPolicyRule) :
    Option (JsString × JsString) := (valueOf rule).map fun value => (rule.id, value)

def arrayBlock (rules : List CommandPolicyRule)
    (array : JsString × (CommandPolicyRule → Option JsString)) : JsString × Entries JsString :=
  (array.1, rules.filterMap (arrayEntry array.2))

/-- The assignments that the rules call for. -/
def declaredCommands (rules : List CommandPolicyRule) : List Command :=
  (messageConstants rules).map scalarCommand ++
    (.indexed RULE_IDS ((rules.map CommandPolicyRule.id).map lits) ::
      (policyArrays.map (arrayBlock rules)).flatMap blockCommands ++
      [scalarCommand (RULES_COMPLETE, natText rules.length)])

theorem reads_constant {rule : CommandPolicyRule}
    (h : ∀ e ∈ messageConstant rule, isName e.1 = true) :
    ReadLines (renderMessageConstant rule).toList ((messageConstant rule).map scalarCommand).toList := by
  rw [messageConstant] at h ⊢
  rw [renderMessageConstant]
  cases hmessage : rule.message with
  | constant constant text =>
    rw [hmessage] at h
    simp only [shellSingleQuote_eq]
    exact ReadLines.command (reads_scalar (h _ rfl) (wordText_singleQuoted text))
  | fromPredicate => exact ReadLines.nil

theorem reads_block {rules : List CommandPolicyRule} {name : JsString}
    {valueOf : CommandPolicyRule → Option JsString} (hname : isName name = true)
    (hd : name.head? ≠ some (unit 'd')) :
    ReadLines (renderAssociativeEntries name rules valueOf)
      (blockCommands (arrayBlock rules (name, valueOf))) := by
  have helements : ReadLines (rules.filterMap fun rule => (valueOf rule).map fun value =>
      name ++ (js "[" ++ (shellSingleQuote rule.id ++ (js "]=" ++ shellSingleQuote value))))
      ((rules.filterMap (arrayEntry valueOf)).map fun e => .element name (lits e.1) (lits e.2)) := by
    rw [List.map_filterMap, List.filterMap_eq_flatMap_toList, List.filterMap_eq_flatMap_toList]
    refine ReadLines.flatMap fun rule _ => ?_
    rw [arrayEntry]
    cases valueOf rule with
    | none => exact ReadLines.nil
    | some value =>
      refine ReadLines.command ?_
      simp only [shellSingleQuote_eq]
      exact reads_element hname hd (wordText_singleQuoted _) (wordText_singleQuoted _)
  have hblank : ReadLines [[]] [] := ReadLines.skipped (List.forall_mem_singleton.2 reads_blank)
  have hall := ((ReadLines.command (reads_assoc hname)).append helements).append hblank
  rwa [List.append_nil] at hall

/-- The comments of the fragment, and its blank lines. -/
theorem reads_comments {lines : List JsString} (h : (lines.all fun line => line = [] ||
    line.head? = some (unit '#') && newline ∉ line) = true) : ReadLines lines [] := by
  refine ReadLines.skipped fun line hline => ?_
  have hcomment := List.all_eq_true.1 h line hline
  cases line with
  | nil => exact reads_blank
  | cons c text =>
    rw [Bool.or_eq_true, Bool.and_eq_true, decide_eq_true_eq, decide_eq_true_eq,
      decide_eq_true_eq] at hcomment
    obtain ⟨hhead, htext⟩ := hcomment.resolve_left (List.cons_ne_nil _ _)
    cases hhead
    exact reads_comment fun hmem => htext (List.mem_cons_of_mem _ hmem)

theorem reads_header : ReadLines fragmentHeader [] := by
  refine reads_comments ?_
  rw [fragmentHeader]
  repeat rw [js_ofList]
  decide +kernel

theorem reads_footer : ReadLines fragmentFooter [] := by
  refine reads_comments ?_
  rw [fragmentFooter]
  repeat rw [js_ofList]
  decide +kernel

theorem isPlain_natText (n : Nat) : (natText n).all isPlain = true := by
  rw [List.all_eq_true]
  intro c hc
  have hdigit : isDigit c = true := by
    by_contra hnot
    exact notMem_natText (eq_false_of_ne_true hnot) n hc
  rw [isPlain, isNameUnit, hdigit, Bool.or_true]
  rfl

theorem reads_fragment {rules : List CommandPolicyRule}
    (h : ∀ e ∈ messageConstants rules, isName e.1 = true) :
    readScript (renderCommandPolicyFragment rules) = some (declaredCommands rules) := by
  have hblank : ReadLines [[]] [] := ReadLines.skipped (List.forall_mem_singleton.2 reads_blank)
  have hconstants : ReadLines (rules.filterMap renderMessageConstant)
      ((messageConstants rules).map scalarCommand) := by
    rw [messageConstants, List.map_filterMap, List.filterMap_eq_flatMap_toList,
      List.filterMap_eq_flatMap_toList]
    exact ReadLines.flatMap fun rule hrule => reads_constant fun e he =>
      h e (List.mem_filterMap.2 ⟨rule, hrule, he⟩)
  have hids : Reads (js "declare -ga AI_POLICY_RULE_IDS=(" ++
      join (js " ") (rules.map fun rule => shellSingleQuote rule.id) ++ js ")")
      (some (.indexed RULE_IDS ((rules.map CommandPolicyRule.id).map lits))) := by
    have hname : isName RULE_IDS = true := by decide
    have hstart : js "declare -ga AI_POLICY_RULE_IDS=(" = js "declare -ga " ++ (RULE_IDS ++ js "=(") := by
      decide
    have hlisted : ∀ text ∈ rules.map fun rule => (singleQuoted rule.id, lits rule.id),
        ListedText text.1 text.2 :=
      List.forall_mem_map.2 fun rule _ => listedText_singleQuoted rule.id
    have hindexed := reads_indexed hname hlisted
    rw [List.map_map, List.map_map, listText] at hindexed
    rw [List.map_map, hstart, List.append_assoc, List.append_assoc, List.append_assoc]
    simp only [shellSingleQuote_eq]
    exact hindexed
  have harrays : ReadLines
      (policyArrays.flatMap fun array => renderAssociativeEntries array.1 rules array.2)
      ((policyArrays.map (arrayBlock rules)).flatMap blockCommands) := by
    rw [List.flatMap_map]
    have hnames : policyArrays.all (fun array => isName array.1 && array.1.head? ≠ some (unit 'd')) =
        true := by decide
    refine ReadLines.flatMap fun array harray => ?_
    have hname := List.all_eq_true.1 hnames array harray
    rw [Bool.and_eq_true, decide_eq_true_eq] at hname
    exact reads_block hname.1 hname.2
  have hcomplete : Reads (js "declare -g AI_POLICY_RULES_COMPLETE=" ++ natText rules.length)
      (some (scalarCommand (RULES_COMPLETE, natText rules.length))) := by
    have hname : isName RULES_COMPLETE = true := by decide
    have hstart : js "declare -g AI_POLICY_RULES_COMPLETE=" =
        js "declare -g " ++ (RULES_COMPLETE ++ js "=") := by
      decide
    rw [hstart, List.append_assoc, List.append_assoc]
    exact reads_scalar hname (wordText_plain (isPlain_natText rules.length))
  have hlines : ReadLines (fragmentLines rules) (declaredCommands rules) := by
    have hall := ((((((reads_header.append hconstants).append hblank).append
      ((ReadLines.command hids).append hblank)).append harrays).append reads_footer).append
      (ReadLines.command hcomplete))
    have hcommands : declaredCommands rules = [] ++ (messageConstants rules).map scalarCommand ++ [] ++
        ([.indexed RULE_IDS ((rules.map CommandPolicyRule.id).map lits)] ++ []) ++
        (policyArrays.map (arrayBlock rules)).flatMap blockCommands ++ [] ++
        [scalarCommand (RULES_COMPLETE, natText rules.length)] := by
      rw [declaredCommands, List.nil_append, List.append_nil, List.append_nil, List.append_nil,
        List.append_assoc, List.append_assoc]
      rfl
    rw [hcommands]
    exact hall
  have hdrop : (fragmentLines rules).rdropWhile (· = []) = fragmentLines rules := by
    rw [fragmentLines, List.rdropWhile_concat_neg]
    rw [decide_eq_true_eq]
    exact List.append_ne_nil_of_left_ne_nil (by decide) _
  have hne : fragmentLines rules ≠ [] := List.append_ne_nil_of_right_ne_nil _ (List.cons_ne_nil _ _)
  rw [renderCommandPolicyFragment, hdrop, join_flatMap hne, hlines.readScript]

/-! ## What accepted rules hold -/

theorem collectFrom_ids {index : Nat} {seenIds : List JsString} {matcherOwners : JsMap JsString}
    {rules : List CommandPolicyRule} (h : collectFrom index seenIds matcherOwners rules = []) :
    (rules.map CommandPolicyRule.id).Nodup ∧ ∀ id ∈ rules.map CommandPolicyRule.id, id ∉ seenIds := by
  induction rules generalizing index seenIds matcherOwners with
  | nil => exact ⟨List.nodup_nil, fun _ hid => (List.not_mem_nil hid).elim⟩
  | cons rule rules ih =>
    rw [collectFrom, List.append_eq_nil_iff, List.append_eq_nil_iff, List.append_eq_nil_iff,
      List.append_eq_nil_iff] at h
    obtain ⟨⟨⟨⟨-, hseen⟩, -⟩, -⟩, hrest⟩ := h
    have hnot : rule.id ∉ seenIds := by
      intro hmem
      rw [if_pos hmem] at hseen
      cases hseen
    obtain ⟨hnodup, hlater⟩ := ih hrest
    refine ⟨List.nodup_cons.2 ⟨fun hmem => ?_, hnodup⟩, List.forall_mem_cons.2 ⟨hnot, fun id hid hmem => ?_⟩⟩
    · exact hlater _ hmem (List.mem_append_right _ (List.mem_singleton_self _))
    · exact hlater id hid (List.mem_append_left _ hmem)

theorem notMem_matcherValue {s : JsString} (h : isMatcherValue s = true) : newline ∉ s := by
  rw [isMatcherValue, Bool.and_eq_true, List.all_eq_true] at h
  intro hmem
  exact absurd (h.2 newline hmem) (by decide)

theorem notMem_shellFunction {s : JsString} (h : isShellFunction s = true) : newline ∉ s := by
  cases s with
  | nil => exact List.not_mem_nil
  | cons c s =>
    rw [isShellFunction, Bool.and_eq_true, List.all_eq_true] at h
    rintro (_ | ⟨_, hmem⟩)
    · exact absurd h.1 (by decide)
    · exact absurd (h.2 newline hmem) (by decide)

theorem notMem_matcherLine {matcher : CommandPolicyMatcher} (h : acceptsMatcher matcher = true) :
    newline ∉ matcherLine matcher := by
  have hvalue : newline ∉ matcherValue matcher := by
    cases matcher with
    | pattern pattern => exact notMem_matcherValue h
    | literal literal => exact notMem_matcherValue h
    | predicate predicate => exact notMem_shellFunction h
  have hkind : newline ∉ matcher.kind := by
    cases matcher with
    | pattern pattern => exact (by decide : newline ∉ js "pattern")
    | literal literal => exact (by decide : newline ∉ js "literal")
    | predicate predicate => exact (by decide : newline ∉ js "predicate")
  rw [matcherLine, List.mem_append, List.mem_append, not_or, not_or]
  exact ⟨⟨hkind, by decide⟩, hvalue⟩

theorem get_arrayEntry {rules : List CommandPolicyRule} {rule : CommandPolicyRule}
    (hids : (rules.map CommandPolicyRule.id).Nodup) (hrule : rule ∈ rules)
    (valueOf : CommandPolicyRule → Option JsString) :
    (JsMap.ofList (rules.filterMap (arrayEntry valueOf))).get rule.id = valueOf rule := by
  have hkeys : (Entries.keys (rules.filterMap (arrayEntry valueOf))).Sublist
      (rules.map CommandPolicyRule.id) := by
    clear hids hrule
    induction rules with
    | nil => exact List.Sublist.slnil
    | cons first rules ih =>
      rw [List.map_cons, List.filterMap_cons, arrayEntry]
      cases valueOf first with
      | none => exact ih.cons _
      | some value => exact ih.cons_cons _
  refine Option.ext fun value => ?_
  rw [JsMap.get_ofList_of_nodup (hkeys.nodup hids), ← Entries.mem_iff_lookup (hkeys.nodup hids),
    List.mem_filterMap]
  constructor
  · rintro ⟨other, hother, heq⟩
    obtain ⟨found, hfound, hpair⟩ := Option.map_eq_some_iff.1 heq
    obtain ⟨hid, rfl⟩ := Prod.mk.inj hpair
    rw [← List.inj_on_of_nodup_map hids hother hrule hid, hfound]
  · intro hvalue
    exact ⟨rule, hrule, Option.map_eq_some_iff.2 ⟨value, hvalue, rfl⟩⟩

/-! ## Reading the rules back -/

/-- What the fragment keeps of a rule. -/
structure PolicyRow where
  id : JsString
  ruleClass : JsString
  scope : JsString
  message : Option JsString
  haystackTransform : Option JsString
  matchers : List (JsString × JsString)
  nativeMatchers : Option (List JsString)
  nativeExclusion : Option JsString
  deriving DecidableEq

def policyRow (rule : CommandPolicyRule) : PolicyRow where
  id := rule.id
  ruleClass := rule.ruleClass.text
  scope := rule.scope.text
  message := messageText rule
  haystackTransform := rule.haystackTransform
  matchers := rule.matchers.map fun matcher => (matcher.kind, matcherValue matcher)
  nativeMatchers := nativeMatchers rule
  nativeExclusion := nativeExclusion rule

def readArray (state : State) (name id : JsString) : Option JsString :=
  match state name with
  | some (.assoc entries) => entries.get id
  | _ => none

/-- A line of a matcher block, at its first tab. -/
def splitMatcher (line : JsString) : JsString × JsString :=
  (line.takeWhile (· ≠ tab), (line.dropWhile (· ≠ tab)).tail)

def readRow (state : State) (id : JsString) : Option PolicyRow := do
  let ruleClass ← readArray state (js "AI_POLICY_RULE_CLASS") id
  let scope ← readArray state (js "AI_POLICY_RULE_SCOPE") id
  let matchers ← readArray state (js "AI_POLICY_RULE_MATCHERS") id
  return {
    id, ruleClass, scope
    message := readArray state (js "AI_POLICY_RULE_MESSAGE") id
    haystackTransform := readArray state (js "AI_POLICY_RULE_HAYSTACK_TRANSFORM") id
    matchers := (splitOn newline matchers).map splitMatcher
    nativeMatchers :=
      (readArray state (js "AI_POLICY_RULE_NATIVE_MATCHERS") id).map (splitOn newline)
    nativeExclusion := readArray state (js "AI_POLICY_RULE_NATIVE_EXCLUSION") id }

def readRules (state : State) : Option (List PolicyRow) :=
  match state RULE_IDS with
  | some (.indexed ids) => ids.mapM (readRow state)
  | _ => none

theorem splitMatcher_matcherLine (matcher : CommandPolicyMatcher) :
    splitMatcher (matcherLine matcher) = (matcher.kind, matcherValue matcher) := by
  have hkind : ∀ c ∈ matcher.kind, decide (c ≠ tab) = true := by
    cases matcher with
    | pattern pattern => exact List.all_eq_true.1 (by decide : (js "pattern").all (· ≠ tab) = true)
    | literal literal => exact List.all_eq_true.1 (by decide : (js "literal").all (· ≠ tab) = true)
    | predicate predicate =>
      exact List.all_eq_true.1 (by decide : (js "predicate").all (· ≠ tab) = true)
  rw [splitMatcher, matcherLine, List.append_assoc, List.takeWhile_append_of_pos hkind,
    List.dropWhile_append_of_pos hkind]
  exact Prod.ext (List.append_nil _) rfl

theorem readRow_rule {state : State} {rules : List CommandPolicyRule} {rule : CommandPolicyRule}
    (hids : (rules.map CommandPolicyRule.id).Nodup) (hrule : rule ∈ rules)
    (haccepts : acceptsRule rule = true)
    (hstate : ∀ array ∈ policyArrays,
      state array.1 = some (.assoc (JsMap.ofList (rules.filterMap (arrayEntry array.2))))) :
    readRow state rule.id = some (policyRow rule) := by
  have hread (array : JsString × (CommandPolicyRule → Option JsString)) (h : array ∈ policyArrays) :
      readArray state array.1 rule.id = array.2 rule := by
    rw [readArray, hstate array h]
    exact get_arrayEntry hids hrule array.2
  simp only [policyArrays, List.forall_mem_cons, List.not_mem_nil, false_imp_iff, implies_true,
    and_true] at hread
  obtain ⟨hclass, hscope, hmessage, htransform, hmatchers, hnative, hexclusion⟩ := hread
  simp only [acceptsRule, Bool.and_eq_true, decide_eq_true_eq] at haccepts
  obtain ⟨⟨⟨-, hne⟩, haccepted⟩, hpermissions⟩ := haccepts
  have hblock : (splitOn newline (join [newline] (rule.matchers.map matcherLine))).map splitMatcher =
      rule.matchers.map fun matcher => (matcher.kind, matcherValue matcher) := by
    rw [splitOn_joined (List.map_eq_nil_iff.not.2 hne), List.map_map]
    · exact List.map_congr_left fun matcher _ => splitMatcher_matcherLine matcher
    · rw [List.forall_mem_map]
      exact fun matcher hmatcher =>
        notMem_matcherLine (List.all_eq_true.1 haccepted matcher hmatcher)
  have hnatives : ((nativeMatchers rule).map (join [newline])).map (splitOn newline) =
      nativeMatchers rule := by
    rw [nativeMatchers]
    cases hcase : rule.nativePermissions with
    | excluded reason => rfl
    | projected matchers partialReason =>
      rw [hcase] at hpermissions
      simp only [acceptsNativePermissions, Bool.and_eq_true, decide_eq_true_eq] at hpermissions
      have hsplit := splitOn_joined hpermissions.1.1 fun matcher hmatcher =>
        notMem_matcherValue (List.all_eq_true.1 hpermissions.1.2 matcher hmatcher)
      exact congrArg some hsplit
  rw [readRow, hclass, hscope, hmatchers, hmessage, htransform, hnative, hexclusion]
  simp only [Option.bind_eq_bind, Option.bind_some, hblock, hnatives]
  rfl

theorem policyNames_nodup : policyNames.Nodup := by decide

/-- No variable of the fragment is an array of another kind already. -/
def Sourceable (state : State) : Prop :=
  (∀ array ∈ policyArrays, ∀ values, state array.1 ≠ some (.indexed values)) ∧
    ∀ entries, state RULE_IDS ≠ some (.assoc entries)

/-- Sourcing the fragment makes the assignments that the rules call for and nothing else, and the
variables then hold the rules. -/
def FragmentReads (special : JsString → Bool) (rules : List CommandPolicyRule) : Prop :=
  ∀ state, Sourceable state → ∃ final,
    readScript (renderCommandPolicyFragment rules) = some (declaredCommands rules) ∧
      runAll special state (declaredCommands rules) = some final ∧
      readRules final = some (rules.map policyRow) ∧
      ∀ array ∈ policyArrays, ∃ entries, final array.1 = some (.assoc entries) ∧
        entries.keys ⊆ rules.map CommandPolicyRule.id

theorem messageConstants_of_fragmentReads {special : JsString → Bool} {rules : List CommandPolicyRule}
    (h : FragmentReads special rules) :
    ∀ e ∈ messageConstants rules, isName e.1 = true ∧ special e.1 = false := by
  obtain ⟨final, hread, hrun, -⟩ := h (fun _ => none)
    ⟨fun _ _ _ => Option.some_ne_none _ ∘ Eq.symm, fun _ => Option.some_ne_none _ ∘ Eq.symm⟩
  intro e he
  have hcommand : scalarCommand e ∈ declaredCommands rules :=
    List.mem_append_left _ (List.mem_map_of_mem he)
  exact ⟨readScript_name hread _ hcommand, (runAll_special hrun _ hcommand).1⟩

theorem fragmentReads_of_messageConstants {special : JsString → Bool} {rules : List CommandPolicyRule}
    (hspecial : ∀ name ∈ policyNames, special name = false) (h : acceptsCommandPolicy rules = true)
    (hconstants : ∀ e ∈ messageConstants rules, isName e.1 = true ∧ special e.1 = false) :
    FragmentReads special rules := by
  rintro state ⟨hindexed, hassoc⟩
  simp only [acceptsCommandPolicy, Bool.and_eq_true, decide_eq_true_eq, List.all_eq_true] at h
  obtain ⟨⟨-, haccepts⟩, hfailures⟩ := h
  have hids := (collectFrom_ids hfailures).1
  rw [policyNames, List.forall_mem_cons, List.forall_mem_cons, List.forall_mem_map] at hspecial
  obtain ⟨hids_special, hcomplete_special, harrays_special⟩ := hspecial
  have hnames := policyNames_nodup
  rw [policyNames, List.nodup_cons, List.nodup_cons, List.mem_cons, not_or] at hnames
  obtain ⟨⟨hids_complete, hids_arrays⟩, hcomplete_arrays, harrays_nodup⟩ := hnames
  have hblocks : (policyArrays.map (arrayBlock rules)).map Prod.fst = policyArrays.map Prod.fst := by
    rw [List.map_map]
    rfl
  obtain ⟨first, hfirst, hfirst_indexed, hfirst_assoc⟩ :=
    @runAll_scalars special state _ fun e he => (hconstants e he).2
  have hindex := run_indexed hids_special (hfirst_assoc RULE_IDS hassoc)
    (rules.map CommandPolicyRule.id)
  obtain ⟨next, hnext⟩ : ∃ next, first.assign RULE_IDS (.indexed (rules.map CommandPolicyRule.id)) =
      next := ⟨_, rfl⟩
  have hkinds : ∀ block ∈ policyArrays.map (arrayBlock rules), ∀ values,
      next block.1 ≠ some (.indexed values) := by
    rw [List.forall_mem_map]
    intro array harray values
    have hne : array.1 ≠ RULE_IDS := ne_of_mem_of_not_mem (List.mem_map_of_mem harray) hids_arrays
    rw [← hnext, arrayBlock, assign_other hne]
    exact hfirst_indexed array.1 (hindexed array harray) values
  obtain ⟨filled, hfilled, hfilled_arrays, hfilled_rest⟩ :=
    runAll_blocks (hblocks.symm ▸ harrays_nodup) (List.forall_mem_map.2 harrays_special) hkinds
  rw [List.forall_mem_map] at hfilled_arrays
  have hlast := @run_scalar special filled _ hcomplete_special (natText rules.length)
  have hfinal (array : JsString × (CommandPolicyRule → Option JsString)) (h : array ∈ policyArrays) :
      filled.assign RULES_COMPLETE (assignText (natText rules.length) (filled RULES_COMPLETE)) array.1 =
        some (.assoc (JsMap.ofList (rules.filterMap (arrayEntry array.2)))) := by
    have hne : array.1 ≠ RULES_COMPLETE := ne_of_mem_of_not_mem (List.mem_map_of_mem h) hcomplete_arrays
    rw [assign_other hne]
    exact hfilled_arrays array h
  refine ⟨_, reads_fragment fun e he => (hconstants e he).1, ?_, ?_, fun array harray =>
    ⟨_, hfinal array harray, fun id hid => ?_⟩⟩
  · rw [declaredCommands, runAll_append, hfirst, Option.bind_some, List.cons_append, runAll_cons,
      hindex, hnext, Option.bind_some, runAll_append, hfilled, Option.bind_some, runAll_cons, scalarCommand,
      hlast]
    rfl
  · have hread_ids : filled.assign RULES_COMPLETE
        (assignText (natText rules.length) (filled RULES_COMPLETE)) RULE_IDS =
          some (.indexed (rules.map CommandPolicyRule.id)) := by
      rw [assign_other hids_complete, hfilled_rest _ (hblocks.symm ▸ hids_arrays), ← hnext, assign_same]
    rw [readRules, hread_ids]
    simp only [List.mapM_map]
    exact mapM_eq_map fun rule hrule => readRow_rule hids hrule (haccepts rule hrule) hfinal
  · obtain ⟨value, hvalue⟩ := JsMap.mem_keys.1 hid
    obtain ⟨rule, hrule, hentry⟩ := List.mem_filterMap.1 (JsMap.mem_of_get_ofList hvalue)
    obtain ⟨found, -, hpair⟩ := Option.map_eq_some_iff.1 hentry
    rw [← (Prod.mk.inj hpair).1]
    exact List.mem_map_of_mem hrule

/-- The names of the message constants are not checked, nor quoted in the fragment. -/
theorem renderCommandPolicyFragment_exact {special : JsString → Bool} {rules : List CommandPolicyRule}
    (hspecial : ∀ name ∈ policyNames, special name = false)
    (h : acceptsCommandPolicy rules = true) :
    FragmentReads special rules ↔
      ∀ e ∈ messageConstants rules, isName e.1 = true ∧ special e.1 = false :=
  ⟨messageConstants_of_fragmentReads, fragmentReads_of_messageConstants hspecial h⟩

/-- Variables that the shell sets or reads itself. -/
def ownVariables : List JsString :=
  [js "BASHOPTS", js "BASHPID", js "BASH_VERSINFO", js "EUID", js "GROUPS", js "IFS", js "LINENO",
    js "PATH", js "PPID", js "RANDOM", js "SECONDS", js "SHELLOPTS", js "UID"]

def stashRule (constant : JsString) : CommandPolicyRule where
  id := js "git-stash"
  order := 1
  ruleClass := .hard
  scope := .command
  message := .constant constant (js "Don't stash.")
  haystackTransform := none
  matchers := [.literal (js "git stash")]
  nativePermissions := .projected [js "Bash(git stash:*)"] none

theorem renderCommandPolicyFragment_exact_stash :
    FragmentReads (fun name => name ∈ ownVariables) [stashRule (js "AI_POLICY_STASH_MSG")] :=
  (renderCommandPolicyFragment_exact (by decide +kernel) (by decide +kernel)).2 (by decide +kernel)

/-- A constant that is no name ends the assignment and starts a command. -/
theorem fragmentReads_command :
    acceptsCommandPolicy [stashRule (js "X; rm -rf ~; Y")] = true ∧
      ¬FragmentReads (fun name => name ∈ ownVariables) [stashRule (js "X; rm -rf ~; Y")] := by
  refine ⟨by decide +kernel, fun h => ?_⟩
  have hname := (messageConstants_of_fragmentReads h _ List.mem_cons_self).1
  exact absurd hname (by decide +kernel)

end Musi.Harness
