import Musi.Bash.Script

namespace Musi.Bash
open Musi.Js
set_option autoImplicit true

/-! ## Running a script of assignments -/

inductive Value where
  | scalar (text : JsString)
  | indexed (values : List JsString)
  | assoc (entries : JsMap JsString)

/-- `$name`, which of an array reads one element. -/
def Value.read : Value → JsString
  | scalar text => text
  | indexed values => values.head?.getD []
  | assoc entries => (entries.get (js "0")).getD []

abbrev State := JsString → Option Value

def reading (state : State) (name : JsString) : JsString := ((state name).map Value.read).getD []

def expandPiece (state : State) : Piece → JsString
  | .lit c => [c]
  | .param name => reading state name

def expand (state : State) (word : Word) : JsString := word.flatMap (expandPiece state)

def State.assign (state : State) (name : JsString) (value : Value) : State :=
  fun other => if other = name then some value else state other

/-- The value of a variable that is assigned a text. -/
def assignText (text : JsString) : Option Value → Value
  | some (.indexed values) => .indexed (text :: values.tail)
  | some (.assoc entries) => .assoc (entries.set (js "0") text)
  | _ => .scalar text

theorem assignText_indexed {text : JsString} {old : Option Value} {values : List JsString}
    (h : assignText text old = .indexed values) : ∃ before, old = some (.indexed before) := by
  match old, h with
  | some (.indexed before), _ => exact ⟨before, rfl⟩

theorem assignText_assoc {text : JsString} {old : Option Value} {entries : JsMap JsString}
    (h : assignText text old = .assoc entries) : ∃ before, old = some (.assoc before) := by
  match old, h with
  | some (.assoc before), _ => exact ⟨before, rfl⟩

def Piece.reads : Piece → Option JsString
  | .lit _ => none
  | .param name => some name

def Command.reads (command : Command) : List JsString :=
  command.words.flatMap fun word => word.filterMap Piece.reads

/-- An array keeps its kind. -/
def perform (state : State) : Command → Option State
  | .demand name _ => if reading state name = [] then none else some state
  | .scalar name value => some (state.assign name (assignText (expand state value) (state name)))
  | .indexed name values =>
    match state name with
    | some (.assoc _) => none
    | _ => some (state.assign name (.indexed (values.map (expand state))))
  | .assoc name =>
    match state name with
    | some (.indexed _) => none
    | _ => some (state.assign name (.assoc JsMap.empty))
  | .element name key value =>
    match state name with
    | some (.assoc entries) =>
      some (state.assign name (.assoc (entries.set (expand state key) (expand state value))))
    | _ => none

/-- Some variables are the shell's own: assigning or reading those is more than that. -/
def run (special : JsString → Bool) (state : State) (command : Command) : Option State :=
  if special command.name || command.reads.any special then none else perform state command

def runAll (special : JsString → Bool) (state : State) (commands : List Command) : Option State :=
  commands.foldlM (run special) state

section
variable {special : JsString → Bool} {state : State} {name : JsString}

theorem runAll_append (commands later : List Command) : runAll special state (commands ++ later) =
    (runAll special state commands).bind fun state => runAll special state later := by
  rw [runAll, List.foldlM_append]
  rfl

theorem runAll_cons (command : Command) (later : List Command) :
    runAll special state (command :: later) =
      (run special state command).bind fun state => runAll special state later := rfl

@[simp] theorem assign_same (value : Value) : state.assign name value name = some value := if_pos rfl

theorem assign_other {other : JsString} (h : other ≠ name) (value : Value) :
    state.assign name value other = state other := if_neg h

theorem assign_assign (value value' : Value) :
    (state.assign name value).assign name value' = state.assign name value' := by
  funext other
  rw [State.assign, State.assign, State.assign]
  split
  · rfl
  · rfl

@[simp] theorem expand_lits (s : JsString) : expand state (lits s) = s := by
  induction s with
  | nil => rfl
  | cons c s ih =>
    rw [expand, lits, List.map_cons, List.flatMap_cons]
    exact congrArg (c :: ·) ih

@[simp] theorem reads_lits (s : JsString) : (lits s).filterMap Piece.reads = [] := by
  rw [lits, List.filterMap_map]
  exact List.filterMap_eq_nil_iff.2 fun _ _ => rfl

/-- A command that reads nothing. -/
theorem run_plain {command : Command} (hspecial : special command.name = false)
    (hreads : command.reads = []) : run special state command = perform state command := by
  rw [run, hreads, hspecial]
  rfl

theorem run_scalar (hspecial : special name = false) (s : JsString) :
    run special state (.scalar name (lits s)) =
      some (state.assign name (assignText s (state name))) := by
  have hreads : (Command.scalar name (lits s)).reads = [] := by
    simp only [Command.reads, Command.words, List.flatMap_cons, reads_lits]
    rfl
  rw [run_plain hspecial hreads, perform, expand_lits]

theorem run_indexed (hspecial : special name = false)
    (hkind : ∀ entries, state name ≠ some (.assoc entries)) (values : List JsString) :
    run special state (.indexed name (values.map lits)) = some (state.assign name (.indexed values)) := by
  have hreads : (Command.indexed name (values.map lits)).reads = [] := by
    simp only [Command.reads, Command.words, List.flatMap_map, reads_lits, List.flatMap_eq_nil_iff,
      implies_true]
  have hvalues : (values.map lits).map (expand state) = values := by
    rw [List.map_map]
    exact (List.map_congr_left fun s _ => expand_lits s).trans (List.map_id _)
  rw [run_plain hspecial hreads, perform, hvalues]
  split
  · next entries h => exact absurd h (hkind entries)
  · rfl

/-- An associative array that is declared and filled. -/
theorem runAll_entries (hspecial : special name = false)
    (hkind : ∀ values, state name ≠ some (.indexed values)) (entries : Entries JsString) :
    runAll special state (.assoc name ::
        entries.map fun e => .element name (lits e.1) (lits e.2)) =
      some (state.assign name (.assoc (JsMap.ofList entries))) := by
  have hfill (es : Entries JsString) (before : JsMap JsString) (state : State) :
      runAll special (state.assign name (.assoc before))
          (es.map fun e => .element name (lits e.1) (lits e.2)) =
        some (state.assign name (.assoc ⟨setAll before.entries es, nodup_setAll before.nodup es⟩)) := by
    induction es generalizing before with
    | nil => rfl
    | cons e es ih =>
      have hreads : (Command.element name (lits e.1) (lits e.2)).reads = [] := by
        simp only [Command.reads, Command.words, List.flatMap_cons, reads_lits]
        rfl
      rw [List.map_cons, runAll_cons, run_plain hspecial hreads, perform]
      simp only [assign_same, expand_lits, Option.bind_some, assign_assign]
      exact ih (before.set e.1 e.2)
  have hdeclare : run special state (.assoc name) =
      some (state.assign name (.assoc JsMap.empty)) := by
    have hreads : (Command.assoc name).reads = [] := rfl
    rw [run_plain hspecial hreads, perform]
    split
    · next values h => exact absurd h (hkind values)
    · rfl
  rw [runAll_cons, hdeclare, Option.bind_some, hfill]
  rfl

/-! ## Blocks of assignments -/

def scalarCommand (e : JsString × JsString) : Command := .scalar e.1 (lits e.2)

/-- Texts are assigned to variables of any kind, which they keep. -/
theorem runAll_scalars {texts : Entries JsString} (hspecial : ∀ e ∈ texts, special e.1 = false) :
    ∃ final, runAll special state (texts.map scalarCommand) = some final ∧
      (∀ other, (∀ values, state other ≠ some (.indexed values)) →
        ∀ values, final other ≠ some (.indexed values)) ∧
      (∀ other, (∀ entries, state other ≠ some (.assoc entries)) →
        ∀ entries, final other ≠ some (.assoc entries)) := by
  induction texts generalizing state with
  | nil => exact ⟨state, rfl, fun _ h => h, fun _ h => h⟩
  | cons e texts ih =>
    rw [List.forall_mem_cons] at hspecial
    obtain ⟨next, hnext⟩ : ∃ next, state.assign e.1 (assignText e.2 (state e.1)) = next := ⟨_, rfl⟩
    obtain ⟨final, hfinal, hindexed, hassoc⟩ := @ih next hspecial.2
    refine ⟨final, ?_, fun other h => hindexed other fun values heq => ?_,
      fun other h => hassoc other fun entries heq => ?_⟩
    · rw [List.map_cons, runAll_cons, scalarCommand, run_scalar hspecial.1, hnext]
      exact hfinal
    · by_cases hother : other = e.1
      · rw [hother, ← hnext, assign_same] at heq
        obtain ⟨before, hbefore⟩ := assignText_indexed (Option.some.inj heq)
        exact h before (hother ▸ hbefore)
      · rw [← hnext, assign_other hother] at heq
        exact h values heq
    · by_cases hother : other = e.1
      · rw [hother, ← hnext, assign_same] at heq
        obtain ⟨before, hbefore⟩ := assignText_assoc (Option.some.inj heq)
        exact h before (hother ▸ hbefore)
      · rw [← hnext, assign_other hother] at heq
        exact h entries heq

def blockCommands (block : JsString × Entries JsString) : List Command :=
  .assoc block.1 :: block.2.map fun e => .element block.1 (lits e.1) (lits e.2)

theorem runAll_blocks {blocks : List (JsString × Entries JsString)}
    (hnodup : (blocks.map Prod.fst).Nodup) (hspecial : ∀ block ∈ blocks, special block.1 = false)
    (hkind : ∀ block ∈ blocks, ∀ values, state block.1 ≠ some (.indexed values)) :
    ∃ final, runAll special state (blocks.flatMap blockCommands) = some final ∧
      (∀ block ∈ blocks, final block.1 = some (.assoc (JsMap.ofList block.2))) ∧
      ∀ other ∉ blocks.map Prod.fst, final other = state other := by
  induction blocks generalizing state with
  | nil => exact ⟨state, rfl, fun _ h => (List.not_mem_nil h).elim, fun _ _ => rfl⟩
  | cons block blocks ih =>
    rw [List.forall_mem_cons] at hspecial hkind
    rw [List.map_cons, List.nodup_cons] at hnodup
    obtain ⟨next, hnext⟩ : ∃ next, state.assign block.1 (.assoc (JsMap.ofList block.2)) = next :=
      ⟨_, rfl⟩
    have hother {other : JsString} (h : other ≠ block.1) : next other = state other := by
      rw [← hnext, assign_other h]
    have hkinds : ∀ later ∈ blocks, ∀ values, next later.1 ≠ some (.indexed values) := by
      intro later hlater values
      rw [hother fun heq => hnodup.1 (heq ▸ List.mem_map_of_mem hlater)]
      exact hkind.2 later hlater values
    obtain ⟨final, hfinal, hblocks, hrest⟩ := ih hnodup.2 hspecial.2 hkinds
    refine ⟨final, ?_, List.forall_mem_cons.2 ⟨?_, hblocks⟩, fun other hnot => ?_⟩
    · rw [List.flatMap_cons, runAll_append, blockCommands, runAll_entries hspecial.1 hkind.1,
        Option.bind_some, hnext]
      exact hfinal
    · rw [hrest _ hnodup.1, ← hnext, assign_same]
    · rw [List.map_cons, List.mem_cons, not_or] at hnot
      rw [hrest other hnot.2, hother hnot.1]

/-- No command of a script that runs is about a variable of the shell's own. -/
theorem runAll_special {commands : List Command} {final : State}
    (h : runAll special state commands = some final) :
    ∀ command ∈ commands, special command.name = false ∧ ∀ name ∈ command.reads, special name = false := by
  induction commands generalizing state with
  | nil => exact fun _ hc => (List.not_mem_nil hc).elim
  | cons command commands ih =>
    rw [runAll_cons, Option.bind_eq_some_iff] at h
    obtain ⟨next, hnext, hrest⟩ := h
    rw [run] at hnext
    split at hnext
    · cases hnext
    · next hnot =>
      rw [Bool.not_eq_true, Bool.or_eq_false_iff, List.any_eq_false] at hnot
      refine List.forall_mem_cons.2 ⟨⟨hnot.1, fun name hname => ?_⟩, ih hrest⟩
      exact eq_false_of_ne_true (hnot.2 name hname)

end

/-! ## Names that a script assigns -/

theorem readCommand_name {s rest : JsString} {command : Command}
    (h : readCommand s = some (command, rest)) : isName command.name = true := by
  have hdemand {s : JsString} (h : readDemand s = some (command, rest)) :
      isName command.name = true := by
    simp only [readDemand, Option.bind_eq_bind, Option.bind_eq_some_iff] at h
    obtain ⟨⟨name, t⟩, hname, _, -, _, -, _, -, heq⟩ := h
    cases heq
    exact readName_spec hname
  have hscalar {s : JsString} (h : readScalar s = some (command, rest)) :
      isName command.name = true := by
    simp only [readScalar, Option.bind_eq_bind, Option.bind_eq_some_iff] at h
    obtain ⟨⟨name, t⟩, hname, _, -, _, -, _, -, heq⟩ := h
    cases heq
    exact readName_spec hname
  have hindexed {s : JsString} (h : readIndexed s = some (command, rest)) :
      isName command.name = true := by
    simp only [readIndexed, Option.bind_eq_bind, Option.bind_eq_some_iff] at h
    obtain ⟨⟨name, t⟩, hname, _, -, _, -, _, -, heq⟩ := h
    cases heq
    exact readName_spec hname
  have hassoc {s : JsString} (h : readAssoc s = some (command, rest)) :
      isName command.name = true := by
    simp only [readAssoc, Option.bind_eq_bind, Option.bind_eq_some_iff] at h
    obtain ⟨⟨name, t⟩, hname, _, -, _, -, heq⟩ := h
    cases heq
    exact readName_spec hname
  have helement {s : JsString} (h : readElement s = some (command, rest)) :
      isName command.name = true := by
    simp only [readElement, Option.bind_eq_bind, Option.bind_eq_some_iff] at h
    obtain ⟨⟨name, t⟩, hname, _, -, _, -, _, -, _, -, _, -, heq⟩ := h
    cases heq
    exact readName_spec hname
  rw [readCommand] at h
  split at h
  · exact hdemand h
  · split at h
    · exact hscalar h
    · split at h
      · exact hindexed h
      · split at h
        · exact hassoc h
        · cases hread : readIndexed s with
          | some read =>
            rw [hread] at h
            cases h
            exact hindexed hread
          | none =>
            rw [hread] at h
            exact helement h

theorem readLine_name {s rest : JsString} {command : Command}
    (h : readLine s = some (some command, rest)) : isName command.name = true := by
  cases s with
  | nil => cases h
  | cons c s =>
    rw [readLine] at h
    split at h
    · cases h
    · split at h
      · obtain ⟨t, -, ht⟩ := Option.map_eq_some_iff.1 h
        cases ht
      · obtain ⟨read, hread, heq⟩ := Option.map_eq_some_iff.1 h
        cases heq
        exact readCommand_name hread

theorem readScript_name {s : JsString} {commands : List Command} (h : readScript s = some commands) :
    ∀ command ∈ commands, isName command.name = true := by
  induction s using readScript.induct generalizing commands with
  | case1 =>
    rw [readScript, if_pos rfl] at h
    cases h
    exact fun _ hc => (List.not_mem_nil hc).elim
  | case2 s hne hline =>
    rw [readScript, if_neg hne, hline] at h
    cases h
  | case3 s hne command rest hline hlength ih =>
    rw [readScript, if_neg hne, hline] at h
    simp only [if_pos hlength, Option.map_eq_some_iff] at h
    obtain ⟨later, hlater, rfl⟩ := h
    intro c hc
    rcases List.mem_append.1 hc with hc | hc
    · rw [Option.mem_toList.1 hc] at hline
      exact readLine_name hline
    · exact ih hlater c hc
  | case4 s hne command rest hline hlength =>
    rw [readScript, if_neg hne, hline] at h
    simp only [if_neg hlength] at h
    cases h

end Musi.Bash
