import Musi.Bash.Run

namespace Musi.Bash
open Musi.Js
set_option autoImplicit true

/-! ## Scripts of arrays -/

/-- The variable that a command assigns. -/
def Command.assigns : Command → Option JsString
  | demand _ _ => none
  | scalar name _ => some name
  | indexed name _ => some name
  | assoc name => some name
  | element name _ _ => some name

section
variable {special : JsString → Bool} {state next final : State} {name : JsString}

/-- A command changes no variable but its own. -/
theorem run_unassigned {command : Command} (h : run special state command = some next)
    (hname : name ∉ command.assigns) : next name = state name := by
  have hother {target : JsString} {value : Value} (hne : target ≠ name) :
      state.assign target value name = state name := assign_other (Ne.symm hne) value
  rw [run] at h
  split at h
  · cases h
  · cases command with
    | demand target message =>
      rw [perform] at h
      split at h
      · cases h
      · cases h
        rfl
    | scalar target value =>
      cases h
      exact hother fun heq => hname (congrArg some heq)
    | indexed target values =>
      rw [perform] at h
      split at h
      · cases h
      · cases h
        exact hother fun heq => hname (congrArg some heq)
    | assoc target =>
      rw [perform] at h
      split at h
      · cases h
      · cases h
        exact hother fun heq => hname (congrArg some heq)
    | element target key value =>
      rw [perform] at h
      split at h
      · cases h
        exact hother fun heq => hname (congrArg some heq)
      · cases h

theorem runAll_unassigned {commands : List Command}
    (h : runAll special state commands = some final)
    (hname : ∀ command ∈ commands, name ∉ command.assigns) : final name = state name := by
  induction commands generalizing state with
  | nil =>
    cases h
    rfl
  | cons command commands ih =>
    rw [List.forall_mem_cons] at hname
    rw [runAll_cons, Option.bind_eq_some_iff] at h
    obtain ⟨between, hfirst, hrest⟩ := h
    exact (ih hrest hname.2).trans (run_unassigned hfirst hname.1)

/-- Demands leave the state as it is. -/
theorem runAll_demands {demands : List (JsString × JsString)}
    (hspecial : ∀ e ∈ demands, special e.1 = false) (hset : ∀ e ∈ demands, reading state e.1 ≠ []) :
    runAll special state (demands.map fun e => .demand e.1 e.2) = some state := by
  induction demands with
  | nil => rfl
  | cons e demands ih =>
    rw [List.forall_mem_cons] at hspecial hset
    have hreads : (Command.demand e.1 e.2).reads = [] := rfl
    rw [List.map_cons, runAll_cons, run_plain hspecial.1 hreads, perform, if_neg hset.1,
      Option.bind_some]
    exact ih hspecial.2 hset.2

/-! ## Kinds of variables -/

/-- A script that declares its associative arrays, the names that `isMap` tells, before it fills
them, and assigns whole indexed arrays. -/
def Ordered (isMap : JsString → Bool) : List JsString → List Command → Prop
  | _, [] => True
  | declared, .indexed name _ :: commands => isMap name = false ∧ Ordered isMap declared commands
  | declared, .assoc name :: commands => isMap name = true ∧ Ordered isMap (name :: declared) commands
  | declared, .element name _ _ :: commands =>
    (name ∈ declared ∧ isMap name = true) ∧ Ordered isMap declared commands
  | _, .demand _ _ :: _ => False
  | _, .scalar _ _ :: _ => False

/-- The names of a script are not arrays of the other kind. -/
structure Suited (isMap : JsString → Bool) (commands : List Command) (state : State) : Prop where
  indexed : ∀ command ∈ commands, isMap command.name = false →
    ∀ entries, state command.name ≠ some (.assoc entries)
  assoc : ∀ command ∈ commands, isMap command.name = true →
    ∀ values, state command.name ≠ some (.indexed values)

variable {isMap : JsString → Bool}

theorem Suited.assign_indexed {command : Command} {commands : List Command} {values : List JsString}
    (h : Suited isMap (command :: commands) state) (hmap : isMap command.name = false) :
    Suited isMap commands (state.assign command.name (.indexed values)) := by
  constructor
  · intro later hlater hlater_map entries heq
    by_cases hsame : later.name = command.name
    · rw [hsame, assign_same] at heq
      cases heq
    · rw [assign_other hsame] at heq
      exact h.indexed later (List.mem_cons_of_mem _ hlater) hlater_map entries heq
  · intro later hlater hlater_map others heq
    by_cases hsame : later.name = command.name
    · rw [hsame, hmap] at hlater_map
      cases hlater_map
    · rw [assign_other hsame] at heq
      exact h.assoc later (List.mem_cons_of_mem _ hlater) hlater_map others heq

theorem Suited.assign_assoc {command : Command} {commands : List Command} {entries : JsMap JsString}
    (h : Suited isMap (command :: commands) state) (hmap : isMap command.name = true) :
    Suited isMap commands (state.assign command.name (.assoc entries)) := by
  constructor
  · intro later hlater hlater_map others heq
    by_cases hsame : later.name = command.name
    · rw [hsame, hmap] at hlater_map
      cases hlater_map
    · rw [assign_other hsame] at heq
      exact h.indexed later (List.mem_cons_of_mem _ hlater) hlater_map others heq
  · intro later hlater hlater_map values heq
    by_cases hsame : later.name = command.name
    · rw [hsame, assign_same] at heq
      cases heq
    · rw [assign_other hsame] at heq
      exact h.assoc later (List.mem_cons_of_mem _ hlater) hlater_map values heq

/-- A script of arrays runs to its end in a state that suits it. -/
theorem runAll_ordered {declared : List JsString} {commands : List Command}
    (hordered : Ordered isMap declared commands) (hsuited : Suited isMap commands state)
    (hdeclared : ∀ name ∈ declared, isMap name = true ∧ ∃ entries, state name = some (.assoc entries))
    (hspecial : ∀ command ∈ commands, special command.name = false ∧
      ∀ name ∈ command.reads, special name = false) :
    ∃ final, runAll special state commands = some final := by
  induction commands generalizing declared state with
  | nil => exact ⟨state, rfl⟩
  | cons command commands ih =>
    rw [List.forall_mem_cons] at hspecial
    have hrun : run special state command = perform state command := by
      have hreads : command.reads.any special = false := by
        rw [List.any_eq_false]
        exact fun name hname => by rw [hspecial.1.2 name hname]; exact Bool.false_ne_true
      rw [run, hspecial.1.1, hreads]
      rfl
    rw [runAll_cons, hrun]
    cases command with
    | demand name message => exact hordered.elim
    | scalar name value => exact hordered.elim
    | indexed name values =>
      have hkind := hsuited.indexed _ List.mem_cons_self hordered.1
      have hperform : perform state (.indexed name values) =
          some (state.assign name (.indexed (values.map (expand state)))) := by
        rw [perform]
        split
        · next entries heq => exact absurd heq (hkind entries)
        · rfl
      rw [hperform]
      refine ih hordered.2 (hsuited.assign_indexed hordered.1) (fun other hother => ?_) hspecial.2
      obtain ⟨hmap, entries, hentries⟩ := hdeclared other hother
      have hne : other ≠ name := by
        rintro rfl
        rw [hordered.1] at hmap
        cases hmap
      exact ⟨hmap, entries, (assign_other hne _).trans hentries⟩
    | assoc name =>
      have hkind := hsuited.assoc _ List.mem_cons_self hordered.1
      have hperform : perform state (.assoc name) = some (state.assign name (.assoc JsMap.empty)) := by
        rw [perform]
        split
        · next values heq => exact absurd heq (hkind values)
        · rfl
      rw [hperform]
      refine ih hordered.2 (hsuited.assign_assoc hordered.1) (fun other hother => ?_) hspecial.2
      by_cases hsame : other = name
      · subst hsame
        exact ⟨hordered.1, _, assign_same _⟩
      · obtain ⟨hmap, entries, hentries⟩ := hdeclared other (List.mem_of_ne_of_mem hsame hother)
        exact ⟨hmap, entries, (assign_other hsame _).trans hentries⟩
    | element name key value =>
      obtain ⟨-, entries, hentries⟩ := hdeclared name hordered.1.1
      have hperform : perform state (.element name key value) = some (state.assign name
          (.assoc (entries.set (expand state key) (expand state value)))) := by
        rw [perform, hentries]
      rw [hperform]
      refine ih hordered.2 (hsuited.assign_assoc hordered.1.2) (fun other hother => ?_) hspecial.2
      by_cases hsame : other = name
      · subst hsame
        exact ⟨hordered.1.2, _, assign_same _⟩
      · obtain ⟨hmap, entries, hentries⟩ := hdeclared other hother
        exact ⟨hmap, entries, (assign_other hsame _).trans hentries⟩

/-- An indexed array keeps what it is assigned, when nothing later assigns it. -/
theorem runAll_indexed {before after : List Command} {words : List Word}
    (h : runAll special state (before ++ .indexed name words :: after) = some final)
    (hafter : ∀ command ∈ after, name ∉ command.assigns) :
    ∃ between, runAll special state before = some between ∧
      final name = some (.indexed (words.map (expand between))) := by
  rw [runAll_append, Option.bind_eq_some_iff] at h
  obtain ⟨between, hbefore, h⟩ := h
  rw [runAll_cons, Option.bind_eq_some_iff] at h
  obtain ⟨assigned, hassigned, hrest⟩ := h
  refine ⟨between, hbefore, ?_⟩
  rw [runAll_unassigned hrest hafter]
  rw [run] at hassigned
  split at hassigned
  · cases hassigned
  · rw [perform] at hassigned
    split at hassigned
    · cases hassigned
    · cases hassigned
      exact assign_same _

/-- After the declarations, every command assigns a whole array or an element. -/
theorem ordered_filling {declared : List JsString} {commands : List Command}
    (h : ∀ command ∈ commands, (∃ name words, command = .indexed name words ∧ isMap name = false) ∨
      ∃ name key value, command = .element name key value ∧ name ∈ declared ∧ isMap name = true) :
    Ordered isMap declared commands := by
  induction commands with
  | nil => trivial
  | cons command commands ih =>
    rw [List.forall_mem_cons] at h
    rcases h.1 with ⟨name, words, rfl, hmap⟩ | ⟨name, key, value, rfl, hmem, hmap⟩
    · exact ⟨hmap, ih h.2⟩
    · exact ⟨⟨hmem, hmap⟩, ih h.2⟩

theorem ordered_indexed {declared : List JsString} {commands later : List Command}
    (h : ∀ command ∈ commands, ∃ name words, command = .indexed name words ∧ isMap name = false)
    (hlater : Ordered isMap declared later) : Ordered isMap declared (commands ++ later) := by
  induction commands with
  | nil => exact hlater
  | cons command commands ih =>
    rw [List.forall_mem_cons] at h
    obtain ⟨name, words, rfl, hmap⟩ := h.1
    exact ⟨hmap, ih h.2⟩

theorem ordered_assoc {declared names : List JsString} {later : List Command}
    (h : ∀ name ∈ names, isMap name = true)
    (hlater : Ordered isMap (names.reverse ++ declared) later) :
    Ordered isMap declared (names.map .assoc ++ later) := by
  induction names generalizing declared with
  | nil => exact hlater
  | cons name names ih =>
    rw [List.forall_mem_cons] at h
    rw [List.reverse_cons, List.append_assoc, List.singleton_append] at hlater
    exact ⟨h.1, ih h.2 hlater⟩

/-! ## What an array reads as -/

/-- A variable reads without `c` after a command that assigns it. -/
def Command.Quiet (c : UInt16) : Command → Prop
  | demand _ _ => True
  | scalar _ _ => False
  | indexed _ words => ∀ word ∈ words.head?, ∃ text, word = lits text ∧ c ∉ text
  | assoc _ => True
  | element _ key _ => ∃ text, key = lits text ∧ text ≠ js "0"

/-- The associative arrays read without `c`, and so do the variables of a list. -/
structure QuietState (c : UInt16) (done : List JsString) (state : State) : Prop where
  maps : ∀ name entries, state name = some (.assoc entries) → c ∉ (Value.assoc entries).read
  done : ∀ name ∈ done, c ∉ reading state name

theorem QuietState.assign {c : UInt16} {done : List JsString} {target : JsString} {value : Value}
    (h : QuietState c done state) (hvalue : c ∉ value.read) :
    QuietState c (target :: done) (state.assign target value) := by
  constructor
  · intro name entries hentries
    by_cases hsame : name = target
    · rw [hsame, assign_same] at hentries
      cases hentries
      exact hvalue
    · rw [assign_other hsame] at hentries
      exact h.maps name entries hentries
  · intro name hname
    by_cases hsame : name = target
    · rw [hsame, reading, assign_same]
      exact hvalue
    · rw [reading, assign_other hsame]
      exact h.done name (List.mem_of_ne_of_mem hsame hname)

theorem run_quiet {c : UInt16} {done : List JsString} {command : Command}
    (hquiet : command.Quiet c) (hstate : QuietState c done state)
    (h : run special state command = some next) :
    QuietState c (command.assigns.toList ++ done) next := by
  rw [run] at h
  split at h
  · cases h
  · cases command with
    | demand target message =>
      rw [perform] at h
      split at h
      · cases h
      · cases h
        exact hstate
    | scalar target value => exact hquiet.elim
    | indexed target words =>
      rw [perform] at h
      split at h
      · cases h
      · cases h
        refine hstate.assign ?_
        cases words with
        | nil => exact List.not_mem_nil
        | cons word words =>
          obtain ⟨text, rfl, htext⟩ := hquiet word rfl
          rw [Value.read, List.map_cons, List.head?_cons, Option.getD_some, expand_lits]
          exact htext
    | assoc target =>
      rw [perform] at h
      split at h
      · cases h
      · cases h
        exact hstate.assign List.not_mem_nil
    | element target key value =>
      rw [perform] at h
      split at h
      · next entries hentries =>
        cases h
        obtain ⟨text, rfl, htext⟩ := hquiet
        refine hstate.assign ?_
        rw [Value.read, expand_lits, JsMap.get_set, if_neg (Ne.symm htext)]
        exact hstate.maps target entries hentries
      · cases h

theorem runAll_quiet {c : UInt16} {done : List JsString} {commands : List Command}
    (hquiet : ∀ command ∈ commands, command.Quiet c) (hstate : QuietState c done state)
    (h : runAll special state commands = some final) :
    QuietState c ((commands.filterMap Command.assigns).reverse ++ done) final := by
  induction commands generalizing state done with
  | nil =>
    cases h
    exact hstate
  | cons command commands ih =>
    rw [List.forall_mem_cons] at hquiet
    rw [runAll_cons, Option.bind_eq_some_iff] at h
    obtain ⟨between, hfirst, hrest⟩ := h
    have hlater := ih hquiet.2 (run_quiet hquiet.1 hstate hfirst) hrest
    cases hassigns : command.assigns with
    | none =>
      rw [hassigns] at hlater
      rw [List.filterMap_cons_none hassigns]
      exact hlater
    | some target =>
      rw [hassigns] at hlater
      rw [List.filterMap_cons_some hassigns, List.reverse_cons, List.append_assoc]
      exact hlater

/-! ## What a word stands for -/

theorem expand_congr {word : Word} {state' : State}
    (h : ∀ name, .param name ∈ word → reading state name = reading state' name) :
    expand state word = expand state' word := by
  refine List.flatMap_congr fun piece hpiece => ?_
  cases piece with
  | lit c => rfl
  | param name => exact h name hpiece

/-- A word that refers to a variable tells two of its values apart, when no other variable makes up
for the difference. -/
theorem expand_ne {c : UInt16} {word : Word} {state' : State}
    (hle : ∀ name, (reading state name).count c ≤ (reading state' name).count c)
    (hname : .param name ∈ word)
    (hlt : (reading state name).count c < (reading state' name).count c) :
    expand state word ≠ expand state' word := by
  have hpiece (piece : Piece) :
      (expandPiece state piece).count c ≤ (expandPiece state' piece).count c := by
    cases piece with
    | lit d => exact Nat.le_refl _
    | param name => exact hle name
  have hall (word : Word) : (expand state word).count c ≤ (expand state' word).count c := by
    induction word with
    | nil => exact Nat.le_refl _
    | cons piece word ih =>
      rw [expand, expand, List.flatMap_cons, List.flatMap_cons, List.count_append, List.count_append]
      exact Nat.add_le_add (hpiece piece) ih
  obtain ⟨before, after, rfl⟩ := List.append_of_mem hname
  intro heq
  have hcount := congrArg (List.count c) heq
  have hbefore := hall before
  have hafter := hall after
  rw [expand, expand] at hbefore hafter
  rw [expand, expand, List.flatMap_append, List.flatMap_append, List.flatMap_cons, List.flatMap_cons,
    List.count_append, List.count_append, List.count_append, List.count_append] at hcount
  have hread : (expandPiece state (.param name)).count c < (expandPiece state' (.param name)).count c :=
    hlt
  omega

/-! ## Guards -/

/-- Every variable that is read was demanded before. -/
def Guarded : List JsString → List Command → Prop
  | _, [] => True
  | guards, .demand name _ :: commands => Guarded (name :: guards) commands
  | guards, command :: commands => command.reads ⊆ guards ∧ Guarded guards commands

theorem guarded_of_reads {guards : List JsString} {commands : List Command}
    (h : ∀ command ∈ commands, command.reads ⊆ guards) : Guarded guards commands := by
  induction commands generalizing guards with
  | nil => trivial
  | cons command commands ih =>
    rw [List.forall_mem_cons] at h
    have hrest : Guarded guards commands := ih h.2
    cases command with
    | demand name message =>
      exact ih fun later hlater => List.Subset.trans (h.2 later hlater) (List.subset_cons_self _ _)
    | scalar name value => exact ⟨h.1, hrest⟩
    | indexed name values => exact ⟨h.1, hrest⟩
    | assoc name => exact ⟨h.1, hrest⟩
    | element name key value => exact ⟨h.1, hrest⟩

theorem guarded_demands {guards : List JsString} {demands : List (JsString × JsString)}
    {commands : List Command} (h : ∀ command ∈ commands, command.reads ⊆ demands.map Prod.fst) :
    Guarded guards ((demands.map fun e => .demand e.1 e.2) ++ commands) := by
  have hcollect (guards : List JsString)
      (h : ∀ command ∈ commands, ∀ name ∈ command.reads, name ∈ demands.map Prod.fst ∨ name ∈ guards) :
      Guarded guards ((demands.map fun e => .demand e.1 e.2) ++ commands) := by
    clear * - h
    induction demands generalizing guards with
    | nil =>
      exact guarded_of_reads fun command hcommand name hname =>
        (h command hcommand name hname).resolve_left List.not_mem_nil
    | cons e demands ih =>
      refine ih (e.1 :: guards) fun command hcommand name hname => ?_
      rcases h command hcommand name hname with hmem | hmem
      · rcases List.mem_cons.1 hmem with rfl | hmem
        · exact .inr List.mem_cons_self
        · exact .inl hmem
      · exact .inr (List.mem_cons_of_mem _ hmem)
  exact hcollect guards fun command hcommand name hname => .inl (h command hcommand hname)

/-- Nothing that a script assigns is an array of another kind already, and what it demands is set. -/
structure Fits (commands : List Command) (state : State) : Prop where
  demanded : ∀ name message, .demand name message ∈ commands → reading state name ≠ []
  indexed : ∀ name words, .indexed name words ∈ commands → ∀ entries, state name ≠ some (.assoc entries)
  assoc : ∀ name, .assoc name ∈ commands → ∀ values, state name ≠ some (.indexed values)

end

end Musi.Bash
