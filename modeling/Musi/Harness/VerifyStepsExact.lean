import Musi.Js.Throw
import Musi.Harness.CommandPolicyExact
import Musi.Harness.VerifySteps

namespace Musi.Harness
open Musi.Js Musi.Bash
set_option autoImplicit true

/-! ## Quoting -/

theorem dollar_mem_withoutReferences {value : JsString} :
    dollar ∈ withoutReferences value ↔ .lit dollar ∈ references 0 value := by
  rw [withoutReferences, List.mem_filterMap]
  constructor
  · rintro ⟨piece, hpiece, heq⟩
    cases piece with
    | lit c =>
      cases heq
      exact hpiece
    | param name => cases heq
  · intro h
    exact ⟨_, h, rfl⟩

theorem replaceAll_quotes (value : JsString) :
    replaceAllFrom (js "`") (js "\\`") 0 (replaceAllFrom (js "\"") (js "\\\"") 0 value) =
      value.flatMap escapeQuotation := by
  have hquotation : js "\"" = [quotation] := rfl
  have hbacktick : js "`" = [backtick] := rfl
  rw [hquotation, hbacktick, replaceAllFrom_unit, replaceAllFrom_unit, List.flatMap_assoc]
  refine List.flatMap_congr fun c _ => ?_
  rw [escapeQuotation]
  by_cases hc : c = quotation
  · subst hc
    rfl
  · by_cases hb : c = backtick
    · subst hb
      rfl
    · rw [if_neg hc, if_neg (not_or.2 ⟨hc, hb⟩), List.flatMap_singleton, if_neg hb]

theorem listedText_shellQuote {value text : JsString} (h : shellQuote value = .ok text) :
    ListedText text (references 0 value) := by
  rw [shellQuote] at h
  split at h
  · rw [shellDoubleQuote] at h
    split at h
    · cases h
    · next hbackslash =>
      split at h
      · cases h
      · next hdollar =>
        cases h
        rw [replaceAll_quotes]
        exact listedText_doubleQuoted hbackslash fun hmem =>
          hdollar (dollar_mem_withoutReferences.2 hmem)
  · next hdollar =>
    cases h
    rw [shellSingleQuote_eq, references_lits hdollar]
    exact listedText_singleQuoted value

theorem shellArray_spec {values : List JsString} {array : JsString}
    (h : shellArray values = .ok array) : ∃ texts : List (JsString × Word),
      (∀ text ∈ texts, ListedText text.1 text.2) ∧ texts.map Prod.snd = values.map (references 0) ∧
        array = js "(" ++ listText (texts.map Prod.fst) := by
  rw [shellArray, bind_ok] at h
  obtain ⟨quoted, hquoted, heq⟩ := h
  cases heq
  rw [mapM_ok] at hquoted
  have hwords : ∃ texts : List (JsString × Word), (∀ text ∈ texts, ListedText text.1 text.2) ∧
      texts.map Prod.snd = values.map (references 0) ∧ texts.map Prod.fst = quoted := by
    induction hquoted with
    | nil => exact ⟨[], fun _ h => (List.not_mem_nil h).elim, rfl, rfl⟩
    | cons hquote _ ih =>
      obtain ⟨texts, htexts, hwords, hquoted⟩ := ih
      refine ⟨(_, _) :: texts, List.forall_mem_cons.2 ⟨listedText_shellQuote hquote, htexts⟩, ?_, ?_⟩
      · rw [List.map_cons, hwords, List.map_cons]
      · rw [List.map_cons, hquoted]
  obtain ⟨texts, htexts, hwords, rfl⟩ := hwords
  exact ⟨texts, htexts, hwords, rfl⟩

/-! ## What the lines declare -/

def demandCommand (variableName : JsString) : Command :=
  .demand variableName (guardMessage variableName)

def arrayCommand (name : JsString) (values : List JsString) : Command :=
  .indexed name (values.map (references 0))

def entryCommand (array key value : JsString) : Command :=
  .element array (references 0 key) (references 0 value)

theorem reads_renderArray {name line : JsString} {values : List JsString} (hname : isName name = true)
    (h : renderArray name values = .ok line) : Reads line (some (arrayCommand name values)) := by
  rw [renderArray, bind_ok] at h
  obtain ⟨array, harray, heq⟩ := h
  cases heq
  obtain ⟨texts, htexts, hwords, rfl⟩ := shellArray_spec harray
  rw [arrayCommand, ← hwords]
  exact reads_indexed hname htexts

theorem reads_assignedArray {name array : JsString} {values : List JsString} (hname : isName name = true)
    (hd : name.head? ≠ some (unit 'd')) (h : shellArray values = .ok array) :
    Reads (name ++ (js "=" ++ array)) (some (arrayCommand name values)) := by
  obtain ⟨texts, htexts, hwords, rfl⟩ := shellArray_spec h
  rw [arrayCommand, ← hwords]
  exact reads_assigned hname hd htexts

theorem reads_renderEntry {array key value line : JsString} (hname : isName array = true)
    (hd : array.head? ≠ some (unit 'd')) (h : renderEntry array key value = .ok line) :
    Reads line (some (entryCommand array key value)) := by
  rw [renderEntry, bind_ok] at h
  obtain ⟨quotedKey, hkey, h⟩ := h
  rw [bind_ok] at h
  obtain ⟨quotedValue, hvalue, heq⟩ := h
  cases heq
  exact reads_element hname hd (listedText_shellQuote hkey).reads (listedText_shellQuote hvalue).reads

theorem reads_mapM {α : Type} {f : α → Except JsString JsString} {g : α → Command} {l : List α}
    {lines : List JsString} (h : l.mapM f = .ok lines)
    (hreads : ∀ a ∈ l, ∀ line, f a = .ok line → Reads line (some (g a))) :
    ReadLines lines (l.map g) := by
  rw [mapM_ok] at h
  induction h with
  | nil => exact ReadLines.nil
  | cons hline _ ih =>
    rw [List.forall_mem_cons] at hreads
    exact (ReadLines.command (hreads.1 _ hline)).append (ih hreads.2)

theorem readLines_dropBlanks {lines : List JsString} {commands : List Command}
    (h : ReadLines lines commands) : ReadLines (lines.rdropWhile (· = [])) commands := by
  obtain ⟨pairs, hreads, rfl, rfl⟩ := h
  induction pairs using List.reverseRecOn with
  | nil => exact ReadLines.nil
  | append_singleton pairs pair ih =>
    have hbefore : ∀ before ∈ pairs, Reads before.1 before.2 :=
      fun before hmem => hreads before (List.mem_append_left _ hmem)
    have hlast : Reads pair.1 pair.2 := hreads pair (List.mem_append_right _ List.mem_cons_self)
    rw [List.map_append, List.map_singleton, List.rdropWhile_concat]
    split
    · next hblank =>
      have hnone : pair.2 = none := by
        have hread := hlast []
        rw [of_decide_eq_true hblank, reads_blank []] at hread
        exact (congrArg Prod.fst (Option.some.inj hread)).symm
      rw [List.filterMap_append, List.filterMap_cons_none hnone, List.filterMap_nil, List.append_nil]
      exact ih hbefore
    · exact ⟨pairs ++ [pair], hreads, List.map_append, rfl⟩

/-! ## Names of variables -/

def reservedArrays : List JsString :=
  js "MUSI_VERIFY_CONSUMERS" :: CONSUMERS.map ConsumerSpec.stepsArray ++
    [js "MUSI_FAST_COMMIT_SKIP_SLOTS"]

def isMap (name : JsString) : Bool := name ∈ SLOT_MAPS

/-- A fixed name: one of a variable that a line may start with, and not that of a slot. -/
def isFixedName (name : JsString) : Bool :=
  isName name && name.head? ≠ some (unit 'd') && startsWith name (js "MUSI_") &&
    !endsWith name (js "_CMD")

theorem fixedNames : (reservedArrays ++ SLOT_MAPS).all isFixedName = true := by decide +kernel

theorem reservedArrays_plain : reservedArrays.all (fun name => !isMap name) = true := by
  decide +kernel

theorem isName_append {name units : JsString} (h : isName name = true)
    (hunits : units.all isNameUnit = true) : isName (name ++ units) = true := by
  obtain ⟨c, s, rfl, hc, hs⟩ := isName_iff.1 h
  exact isName_iff.2 ⟨c, s ++ units, rfl, hc, by rw [List.all_append, hs, hunits]; rfl⟩

theorem asciiLower_upper {c : UInt16} (h : isLowerAlpha c = true) :
    asciiLower (asciiUpper c) = c := by
  have hbounds := h
  simp only [isLowerAlpha, Bool.and_eq_true, decide_eq_true_eq, UInt16.le_iff_toNat_le] at hbounds
  change 97 ≤ c.toNat ∧ c.toNat ≤ 122 at hbounds
  have hle : (0x20 : UInt16) ≤ c := by
    rw [UInt16.le_iff_toNat_le]
    change 32 ≤ c.toNat
    omega
  have hsub : (c - 0x20).toNat = c.toNat - 32 := UInt16.toNat_sub_of_le _ _ hle
  have hupper : (0x41 ≤ c - 0x20 && c - 0x20 ≤ 0x5A) = true := by
    simp only [Bool.and_eq_true, decide_eq_true_eq, UInt16.le_iff_toNat_le, hsub]
    change 65 ≤ c.toNat - 32 ∧ c.toNat - 32 ≤ 90
    omega
  rw [asciiUpper, if_pos h, asciiLower, if_pos hupper, UInt16.sub_add_cancel]

theorem isNameUnit_upper {c : UInt16} (h : isNameUnit c = true) :
    isNameUnit (asciiUpper c) = true := by
  by_cases hlower : isLowerAlpha c = true
  · rw [isNameUnit, isNameStart, asciiLower_upper hlower, hlower]
    rfl
  · rwa [asciiUpper, if_neg hlower]

theorem shellVariableSuffix_units (value : JsString) :
    (shellVariableSuffix value).all isNameUnit = true := by
  have hcollapse (inRun : Bool) (s : JsString) : (collapseRuns inRun s).all isNameUnit = true := by
    induction s generalizing inRun with
    | nil => rfl
    | cons c s ih =>
      rw [collapseRuns]
      split
      · next hc =>
        have hunit : isNameUnit c = true := by
          rw [isAlphanumeric, Bool.or_eq_true] at hc
          rw [isNameUnit, isNameStart, Bool.or_eq_true, Bool.or_eq_true]
          exact hc.imp_left .inl
        rw [List.all_cons, hunit]
        exact ih false
      · split
        · exact ih true
        · rw [List.all_cons, ih true]
          decide
  rw [shellVariableSuffix, List.all_map, List.all_eq_true]
  intro c hc
  have hdropped := (List.rdropWhile_prefix _ _).subset hc
  exact isNameUnit_upper (List.all_eq_true.1 (hcollapse false value) c
    ((List.dropWhile_sublist _).subset hdropped))

def isPrefixName (variablePrefix : JsString) : Bool :=
  isName variablePrefix && variablePrefix.head? ≠ some (unit 'd') &&
    startsWith variablePrefix (js "MUSI_")

theorem consumerPrefixes : (CONSUMERS.map ConsumerSpec.variablePrefix).all isPrefixName = true := by
  decide +kernel

theorem startsWith_append {name start : JsString} (h : startsWith name start = true) (t : JsString) :
    startsWith (name ++ t) start = true :=
  List.isPrefixOf_iff_prefix.2 ((List.isPrefixOf_iff_prefix.1 h).trans (List.prefix_append _ _))

section
variable {consumer : Consumer}

theorem isName_slotVariableName (h : consumer.spec ∈ CONSUMERS) (slot : VerifyStepSlot) :
    isName (slotVariableName consumer slot) = true ∧
      (slotVariableName consumer slot).head? ≠ some (unit 'd') ∧
      startsWith (slotVariableName consumer slot) (js "MUSI_") = true := by
  have hprefix := List.all_eq_true.1 consumerPrefixes _ (List.mem_map_of_mem h)
  rw [isPrefixName, Bool.and_eq_true, Bool.and_eq_true, decide_eq_true_eq] at hprefix
  obtain ⟨⟨hname, hd⟩, hstart⟩ := hprefix
  rw [slotVariableName, List.append_assoc, List.append_assoc]
  refine ⟨isName_append hname ?_, ?_, startsWith_append hstart _⟩
  · rw [List.all_append, List.all_append, shellVariableSuffix_units]
    decide
  · obtain ⟨c, s, heq, -⟩ := isName_iff.1 hname
    rw [heq] at hd ⊢
    exact hd

/-- No fixed name is that of a slot. -/
theorem slotVariableName_fresh (slot : VerifyStepSlot) :
    slotVariableName consumer slot ∉ reservedArrays ++ SLOT_MAPS := by
  intro hmem
  have hfixed := List.all_eq_true.1 fixedNames _ hmem
  have hends : endsWith (slotVariableName consumer slot) (js "_CMD") = true :=
    List.isSuffixOf_iff_suffix.2 (List.suffix_append _ _)
  rw [isFixedName, hends] at hfixed
  exact absurd hfixed (by rw [Bool.not_true, Bool.and_false]; exact Bool.false_ne_true)

end

/-! ## What the script declares -/

def skipSlots (consumers : List Consumer) : List JsString :=
  ((consumerSlots consumers).filter fun e => e.2.fastCommitSkip = some true).map fun e => e.2.name

def plainCommands (consumers : List Consumer) : List Command :=
  arrayCommand (js "MUSI_VERIFY_CONSUMERS") (consumers.map fun consumer => consumer.spec.name) ::
    consumers.map (fun consumer =>
      arrayCommand consumer.spec.stepsArray (consumer.slots.map VerifyStepSlot.name)) ++
    [arrayCommand (js "MUSI_FAST_COMMIT_SKIP_SLOTS") (skipSlots consumers)]

def slotCommands (e : Consumer × VerifyStepSlot) : List Command :=
  arrayCommand (slotVariableName e.1 e.2) (verifyStepCommandTokens e.2) ::
    (slotEntries e.1 e.2).map fun entry => entryCommand entry.1 (slotKey e.1 e.2) entry.2

def bindingCommands (consumers : List Consumer) : List Command :=
  VERIFY_STEP_DYNAMIC_RESOLVER_BINDINGS.map (fun binding =>
    entryCommand (js "MUSI_VERIFY_DYNAMIC_RESOLVER_FUNC") binding.1 binding.2) ++
  ((referencedBindings consumers).flatMap fun binding =>
    (bindingEntries binding).map fun e => (binding.id, e)).map fun e => entryCommand e.2.1 e.1 e.2.2

/-- The assignments of the script. -/
def assignedCommands (consumers : List Consumer) : List Command :=
  plainCommands consumers ++ (SLOT_MAPS.map .assoc ++
    ((consumerSlots consumers).flatMap slotCommands ++ bindingCommands consumers))

def declaredSteps (consumers : List Consumer) : List Command :=
  (runtimeVariables consumers).map demandCommand ++ assignedCommands consumers

/-- The consumer that a manifest declares for one specification. -/
def HarnessManifest.consumerOf (manifest : HarnessManifest) (spec : ConsumerSpec) :
    Except JsString Consumer :=
  match (JsMap.ofList (manifest.controls.map fun control => (control.id, control))).get spec.id with
  | none => .error (js "missing verify step control: " ++ spec.id)
  | some control => (parseConsumerSlots control spec).map fun slots => ⟨spec, slots⟩

theorem collectConsumers_eq (manifest : HarnessManifest) :
    collectConsumers manifest = CONSUMERS.mapM manifest.consumerOf := rfl

theorem collectConsumers_spec {manifest : HarnessManifest} {consumers : List Consumer}
    (h : collectConsumers manifest = .ok consumers) :
    consumers.map Consumer.spec = CONSUMERS ∧ ∀ consumer ∈ consumers,
      ∃ control ∈ manifest.controls, control.slots = some consumer.slots := by
  have hspec {spec : ConsumerSpec} {consumer : Consumer}
      (h : manifest.consumerOf spec = .ok consumer) : consumer.spec = spec ∧
            ∃ control ∈ manifest.controls, control.slots = some consumer.slots := by
    rw [HarnessManifest.consumerOf] at h
    cases hcontrol : (JsMap.ofList (manifest.controls.map fun control => (control.id, control))).get
        spec.id with
    | none =>
      rw [hcontrol] at h
      cases h
    | some control =>
      rw [hcontrol] at h
      simp only [parseConsumerSlots] at h
      cases hslots : control.slots with
      | none =>
        rw [hslots] at h
        cases h
      | some slots =>
        rw [hslots] at h
        cases h
        obtain ⟨found, hfound, heq⟩ := List.mem_map.1 (JsMap.mem_of_get_ofList hcontrol)
        obtain ⟨-, rfl⟩ := Prod.mk.inj heq
        exact ⟨rfl, found, hfound, hslots⟩
  rw [collectConsumers_eq] at h
  obtain ⟨hspecs, hall⟩ := (mapM_ok_keyed fun spec consumer h => (hspec h).1).1 h
  exact ⟨hspecs, fun consumer hconsumer => (hspec (hall consumer hconsumer)).2⟩

/-- The consumers of a manifest are the fixed ones, with slots as the schema has them. -/
structure Materialized (consumers : List Consumer) : Prop where
  specs : consumers.map Consumer.spec = CONSUMERS
  slots : ∀ consumer ∈ consumers, consumer.slots.all acceptsSlot = true

section
variable {consumers : List Consumer} {e : Consumer × VerifyStepSlot}

theorem mem_consumerSlots :
    e ∈ consumerSlots consumers ↔ e.1 ∈ consumers ∧ e.2 ∈ e.1.slots := by
  rw [consumerSlots, List.mem_flatMap]
  constructor
  · rintro ⟨consumer, hconsumer, hmem⟩
    obtain ⟨slot, hslot, rfl⟩ := List.mem_map.1 hmem
    exact ⟨hconsumer, hslot⟩
  · rintro ⟨hconsumer, hslot⟩
    exact ⟨e.1, hconsumer, List.mem_map_of_mem hslot⟩

theorem Materialized.spec (h : Materialized consumers) {consumer : Consumer}
    (hconsumer : consumer ∈ consumers) : consumer.spec ∈ CONSUMERS :=
  h.specs ▸ List.mem_map_of_mem hconsumer

theorem Materialized.slot (h : Materialized consumers) (he : e ∈ consumerSlots consumers) :
    e.1.spec ∈ CONSUMERS ∧ acceptsSlot e.2 = true := by
  obtain ⟨hconsumer, hslot⟩ := mem_consumerSlots.1 he
  exact ⟨h.spec hconsumer, List.all_eq_true.1 (h.slots _ hconsumer) _ hslot⟩

end

theorem fixedName {name : JsString} (h : name ∈ reservedArrays ++ SLOT_MAPS) :
    isName name = true ∧ name.head? ≠ some (unit 'd') ∧ startsWith name (js "MUSI_") = true := by
  have hfixed := List.all_eq_true.1 fixedNames name h
  rw [isFixedName, Bool.and_eq_true, Bool.and_eq_true, Bool.and_eq_true, decide_eq_true_eq] at hfixed
  exact ⟨hfixed.1.1.1, hfixed.1.1.2, hfixed.1.2⟩

theorem slotEntries_maps {e : JsString × JsString} {consumer : Consumer} {slot : VerifyStepSlot}
    (h : e ∈ slotEntries consumer slot) : e.1 ∈ SLOT_MAPS := by
  simp only [slotEntries, List.cons_append, List.mem_cons, List.mem_append, List.mem_map] at h
  simp only [SLOT_MAPS, List.mem_cons]
  rcases h with rfl | (⟨id, -, rfl⟩ | ⟨id, -, rfl⟩) | ⟨id, -, rfl⟩
  · exact .inl rfl
  · exact .inr (.inl rfl)
  · exact .inr (.inr (.inl rfl))
  · exact .inr (.inr (.inr (.inl rfl)))

theorem reads_entries {α : Type} {l : List α} {f : α → JsString × JsString × JsString}
    {lines : List JsString} (hmaps : ∀ a ∈ l, (f a).1 ∈ SLOT_MAPS)
    (h : l.mapM (fun a => renderEntry (f a).1 (f a).2.1 (f a).2.2) = .ok lines) :
    ReadLines lines (l.map fun a => entryCommand (f a).1 (f a).2.1 (f a).2.2) :=
  reads_mapM h fun a ha line hline => by
    obtain ⟨hname, hd, -⟩ := fixedName (List.mem_append_right _ (hmaps a ha))
    exact reads_renderEntry hname hd hline

theorem reads_blankLine : ReadLines [[]] [] :=
  ReadLines.skipped (List.forall_mem_singleton.2 reads_blank)

theorem reads_slotMetadata {e : Consumer × VerifyStepSlot} {lines : List JsString}
    (hspec : e.1.spec ∈ CONSUMERS) (h : renderSlotMetadata e.1 e.2 = .ok lines) :
    ReadLines lines (slotCommands e) := by
  rw [renderSlotMetadata, bind_ok] at h
  obtain ⟨array, harray, h⟩ := h
  rw [bind_ok] at h
  obtain ⟨entries, hentries, heq⟩ := h
  cases heq
  obtain ⟨hname, hd, -⟩ := isName_slotVariableName hspec e.2
  have hfirst := ReadLines.command (reads_assignedArray hname hd harray)
  have hrest := reads_entries (f := fun entry => (entry.1, slotKey e.1 e.2, entry.2))
    (fun entry hentry => slotEntries_maps hentry) hentries
  have hall := (hfirst.append hrest).append reads_blankLine
  rwa [List.append_nil] at hall

/-- Every slot has a variable of its own. -/
theorem reads_slots {consumers : List Consumer} {lines : List JsString} (hm : Materialized consumers)
    (h : renderSlots consumers = .ok lines) :
    ReadLines lines (SLOT_MAPS.map .assoc ++ (consumerSlots consumers).flatMap slotCommands) ∧
      ((consumerSlots consumers).map fun e => slotVariableName e.1 e.2).Nodup := by
  rw [renderSlots, bind_ok] at h
  obtain ⟨state, hstate, heq⟩ := h
  cases heq
  have hmaps : ReadLines (SLOT_MAPS.map (fun name => js "declare -gA " ++ (name ++ js "=()")) ++ [[]])
      (SLOT_MAPS.map .assoc) := by
    have hdeclared : ReadLines (SLOT_MAPS.map fun name => js "declare -gA " ++ (name ++ js "=()"))
        (SLOT_MAPS.map .assoc) :=
      ReadLines.map fun name hname => reads_assoc (fixedName (List.mem_append_right _ hname)).1
    have hall := hdeclared.append reads_blankLine
    rwa [List.append_nil] at hall
  have hinvariant := foldlM_ok
    (P := fun state done =>
      ((∀ e ∈ done, e.1.spec ∈ CONSUMERS) →
        ReadLines state.2 (SLOT_MAPS.map .assoc ++ done.flatMap slotCommands)) ∧
      (done.map fun e => slotVariableName e.1 e.2).Nodup ∧
      ∀ name, state.1.get name = none ↔ name ∉ done.map fun e => slotVariableName e.1 e.2)
    (fun state e done next ⟨hreads, hnodup, howners⟩ hnext => by
      rw [addSlot] at hnext
      cases howner : state.1.get (slotVariableName e.1 e.2) with
      | some owner =>
        simp only [howner] at hnext
        cases hnext
      | none =>
        simp only [howner, bind_ok] at hnext
        obtain ⟨lines, hlines, heq⟩ := hnext
        cases heq
        have hnew := (howners _).1 howner
        refine ⟨fun hspecs => ?_, ?_, fun name => ?_⟩
        · rw [List.flatMap_append, List.flatMap_singleton, ← List.append_assoc]
          exact (hreads fun before hbefore => hspecs before (List.mem_append_left _ hbefore)).append
            (reads_slotMetadata (hspecs e (List.mem_append_right _ List.mem_cons_self)) hlines)
        · rw [List.map_append, List.map_singleton, List.nodup_append]
          refine ⟨hnodup, List.nodup_singleton _, fun a ha b hb heq => ?_⟩
          rw [List.mem_singleton.1 hb] at heq
          exact hnew (heq ▸ ha)
        · rw [JsMap.get_set, List.map_append, List.map_singleton, List.mem_append,
            List.mem_singleton, not_or, ← howners name]
          split
          · next heq =>
            exact iff_of_false (Option.some_ne_none _) fun h => h.2 heq
          · next hne => exact (and_iff_left hne).symm)
    hstate [] ⟨fun _ => by rwa [List.flatMap_nil, List.append_nil], List.nodup_nil,
      fun name => iff_of_true rfl List.not_mem_nil⟩
  rw [List.nil_append] at hinvariant
  exact ⟨hinvariant.1 fun e he => (hm.slot he).1, hinvariant.2.1⟩

theorem isName_runtimeVariables {consumers : List Consumer} {variableName : JsString}
    (h : variableName ∈ runtimeVariables consumers) : isName variableName = true := by
  rw [runtimeVariables, mem_sortBy, List.mem_eraseDups, List.mem_flatMap] at h
  obtain ⟨e, -, hslot⟩ := h
  obtain ⟨token, -, htoken⟩ := List.mem_flatMap.1 hslot
  obtain ⟨piece, hpiece, heq⟩ := List.mem_filterMap.1 htoken
  cases piece with
  | lit c => cases heq
  | param name =>
    cases heq
    exact isName_of_mem_references hpiece

theorem isMessage_guardMessage {variableName : JsString} (h : isName variableName = true) :
    (guardMessage variableName).all isMessage = true := by
  have hunits : variableName.all isMessage = true := by
    rw [List.all_eq_true]
    intro c hc
    rw [isMessage, isPlain, List.all_eq_true.1 (isName_units h) c hc]
    rfl
  have htext : (js "scripts/verify/steps.generated.sh requires ").all isMessage = true := by
    rw [js_ofList]
    decide +kernel
  rw [guardMessage, List.all_append, htext, hunits]
  rfl

theorem reads_verifyHeader (consumers : List Consumer) :
    ReadLines (renderHeader consumers) ((runtimeVariables consumers).map demandCommand) := by
  have hcomments : ReadLines headerComments [] := by
    refine reads_comments ?_
    rw [headerComments]
    repeat rw [js_ofList]
    decide +kernel
  have hguards : ReadLines ((runtimeVariables consumers).map fun variableName =>
      js ": \"$\x7b" ++ (variableName ++ (js ":?" ++ (guardMessage variableName ++ js "\x7d\""))))
      ((runtimeVariables consumers).map demandCommand) :=
    ReadLines.map fun variableName hmem => by
      have hname := isName_runtimeVariables hmem
      exact reads_demand hname (isMessage_guardMessage hname)
  have hall := (hcomments.append hguards).append reads_blankLine
  rwa [List.append_nil] at hall

theorem reads_metadata {consumers : List Consumer} {metadata skips : List JsString}
    (hm : Materialized consumers) (hmetadata : renderConsumerMetadata consumers = .ok metadata)
    (hskips : renderFastCommitSkipSlots consumers = .ok skips) :
    ReadLines (metadata ++ skips) (plainCommands consumers) := by
  have hfixed (name : JsString) (h : name ∈ reservedArrays) : isName name = true :=
    (fixedName (List.mem_append_left _ h)).1
  rw [renderConsumerMetadata, bind_ok] at hmetadata
  obtain ⟨names, hnames, hmetadata⟩ := hmetadata
  rw [bind_ok] at hmetadata
  obtain ⟨steps, hsteps, heq⟩ := hmetadata
  cases heq
  rw [renderFastCommitSkipSlots, bind_ok] at hskips
  obtain ⟨-, -, hskips⟩ := hskips
  rw [bind_ok] at hskips
  obtain ⟨array, harray, heq⟩ := hskips
  cases heq
  have hfirst := ReadLines.command
    (reads_renderArray (hfixed (js "MUSI_VERIFY_CONSUMERS") List.mem_cons_self) hnames)
  have hmiddle := reads_mapM hsteps (g := fun consumer =>
    arrayCommand consumer.spec.stepsArray (consumer.slots.map VerifyStepSlot.name))
    fun consumer hconsumer line hline => by
      have hmem : consumer.spec.stepsArray ∈ reservedArrays :=
        List.mem_append_left _ (List.mem_cons_of_mem _ (List.mem_map_of_mem (hm.spec hconsumer)))
      exact reads_renderArray (hfixed _ hmem) hline
  have hlast := ReadLines.command (reads_renderArray
    (hfixed (js "MUSI_FAST_COMMIT_SKIP_SLOTS")
      (List.mem_append_right _ List.mem_cons_self)) harray)
  have hall := ((hfirst.append hmiddle).append reads_blankLine).append (hlast.append reads_blankLine)
  rwa [List.append_nil, List.append_nil] at hall

theorem bindingEntries_maps : [js "MUSI_VERIFY_ARTIFACT_PROBE_FUNC",
    js "MUSI_VERIFY_ARTIFACT_SUMMARY"] ⊆ SLOT_MAPS := by decide +kernel

theorem reads_bindings {consumers : List Consumer} {dispatch bindings : List JsString}
    (hdispatch : renderDynamicResolverDispatch = .ok dispatch)
    (hbindings : renderVerifyArtifactBindings consumers = .ok bindings) :
    ReadLines (dispatch ++ bindings) (bindingCommands consumers) := by
  rw [renderDynamicResolverDispatch, bind_ok] at hdispatch
  obtain ⟨lines, hlines, heq⟩ := hdispatch
  cases heq
  have hfirst := reads_mapM hlines (g := fun binding =>
    entryCommand (js "MUSI_VERIFY_DYNAMIC_RESOLVER_FUNC") binding.1 binding.2)
    fun binding _ line hline => by
      split at hline
      · have hmem : js "MUSI_VERIFY_DYNAMIC_RESOLVER_FUNC" ∈ reservedArrays ++ SLOT_MAPS :=
          List.mem_append_right _ (by decide +kernel)
        obtain ⟨hname, hd, -⟩ := fixedName hmem
        exact reads_renderEntry hname hd hline
      · cases hline
  have hmaps : ∀ e ∈ (referencedBindings consumers).flatMap fun binding =>
      (bindingEntries binding).map fun e => (binding.id, e), e.2.1 ∈ SLOT_MAPS := by
    intro e he
    obtain ⟨binding, -, he⟩ := List.mem_flatMap.1 he
    obtain ⟨entry, hentry, rfl⟩ := List.mem_map.1 he
    have hnames : ∀ name ∈ (bindingEntries binding).map Prod.fst, name ∈ SLOT_MAPS :=
      bindingEntries_maps
    exact hnames _ (List.mem_map_of_mem hentry)
  have hrest := reads_entries (f := fun e : JsString × JsString × JsString => (e.2.1, e.1, e.2.2))
    hmaps hbindings
  have hall := (hfirst.append reads_blankLine).append hrest
  rwa [List.append_nil] at hall

/-- What the rendered script declares, when it is rendered at all. -/
theorem reads_verifySteps {manifest : HarnessManifest} {knownScripts : Option (List JsString)}
    {text : JsString} (hslots : ∀ control ∈ manifest.controls, ∀ slots, control.slots = some slots →
      slots.all acceptsSlot = true)
    (h : renderVerifyStepsShellFromManifest manifest knownScripts = .ok text) :
    ∃ consumers, collectConsumers manifest = .ok consumers ∧ Materialized consumers ∧
      readScript text = some (declaredSteps consumers) ∧
      ((consumerSlots consumers).map fun e => slotVariableName e.1 e.2).Nodup := by
  rw [renderVerifyStepsShellFromManifest, bind_ok] at h
  obtain ⟨consumers, hconsumers, h⟩ := h
  obtain ⟨hspecs, hcontrols⟩ := collectConsumers_spec hconsumers
  have hm : Materialized consumers := ⟨hspecs, fun consumer hconsumer => by
    obtain ⟨control, hcontrol, heq⟩ := hcontrols consumer hconsumer
    exact hslots control hcontrol _ heq⟩
  refine ⟨consumers, hconsumers, hm, ?_⟩
  have hrendered : ∃ metadata skips slots dispatch bindings,
      renderConsumerMetadata consumers = .ok metadata ∧
      renderFastCommitSkipSlots consumers = .ok skips ∧ renderSlots consumers = .ok slots ∧
      renderDynamicResolverDispatch = .ok dispatch ∧
      renderVerifyArtifactBindings consumers = .ok bindings ∧
      text = join [newline] ((renderHeader consumers ++ metadata ++ skips ++ slots ++ dispatch ++
        bindings).rdropWhile (· = [])) ++ [newline] := by
    rw [bind_ok] at h
    obtain ⟨-, -, h⟩ := h
    rw [bind_ok] at h
    obtain ⟨-, -, h⟩ := h
    have hlines (h : (do
        let metadata ← renderConsumerMetadata consumers
        let skips ← renderFastCommitSkipSlots consumers
        let slots ← renderSlots consumers
        let dispatch ← renderDynamicResolverDispatch
        let bindings ← renderVerifyArtifactBindings consumers
        let lines := renderHeader consumers ++ metadata ++ skips ++ slots ++ dispatch ++ bindings
        return join [newline] (lines.rdropWhile (· = [])) ++ [newline]) = Except.ok text) :
        ∃ metadata skips slots dispatch bindings,
          renderConsumerMetadata consumers = .ok metadata ∧
          renderFastCommitSkipSlots consumers = .ok skips ∧ renderSlots consumers = .ok slots ∧
          renderDynamicResolverDispatch = .ok dispatch ∧
          renderVerifyArtifactBindings consumers = .ok bindings ∧
          text = join [newline] ((renderHeader consumers ++ metadata ++ skips ++ slots ++ dispatch ++
            bindings).rdropWhile (· = [])) ++ [newline] := by
      rw [bind_ok] at h
      obtain ⟨metadata, hmetadata, h⟩ := h
      rw [bind_ok] at h
      obtain ⟨skips, hskips, h⟩ := h
      rw [bind_ok] at h
      obtain ⟨slots, hslots, h⟩ := h
      rw [bind_ok] at h
      obtain ⟨dispatch, hdispatch, h⟩ := h
      rw [bind_ok] at h
      obtain ⟨bindings, hbindings, h⟩ := h
      exact ⟨metadata, skips, slots, dispatch, bindings, hmetadata, hskips, hslots, hdispatch,
        hbindings, (Except.ok.inj h).symm⟩
    cases knownScripts with
    | none => exact hlines h
    | some scripts =>
      simp only at h
      rw [bind_ok] at h
      obtain ⟨-, -, h⟩ := h
      exact hlines h
  obtain ⟨metadata, skips, slots, dispatch, bindings, hmetadata, hskips, hslots, hdispatch, hbindings,
    rfl⟩ := hrendered
  obtain ⟨hslotLines, hnodup⟩ := reads_slots hm hslots
  refine ⟨?_, hnodup⟩
  have hlines := (((reads_verifyHeader consumers).append
    (reads_metadata hm hmetadata hskips)).append hslotLines).append (reads_bindings hdispatch hbindings)
  have hread := (readLines_dropBlanks hlines).readScript
  have hfirst : (renderHeader consumers ++ (metadata ++ skips) ++ slots ++
      (dispatch ++ bindings)).rdropWhile (· = []) ≠ [] := by
    intro hnil
    rw [List.rdropWhile_eq_nil_iff] at hnil
    have hmem : js "# shellcheck shell=bash" ∈ renderHeader consumers ++ (metadata ++ skips) ++ slots ++
        (dispatch ++ bindings) := by
      rw [List.append_assoc, List.append_assoc, renderHeader, List.append_assoc, List.append_assoc]
      exact List.mem_append_left _ List.mem_cons_self
    have hblank := of_decide_eq_true (hnil _ hmem)
    rw [js_ofList] at hblank
    exact absurd hblank (by decide +kernel)
  rw [← join_flatMap hfirst] at hread
  simp only [List.append_assoc] at hread ⊢
  rw [hread, declaredSteps, assignedCommands]

/-! ## What the commands read -/

theorem mem_reads_arrayCommand {name variableName : JsString} {values : List JsString} :
    variableName ∈ (arrayCommand name values).reads ↔
      ∃ value ∈ values, .param variableName ∈ references 0 value := by
  rw [Command.reads, arrayCommand, Command.words, List.flatMap_map, List.mem_flatMap]
  constructor
  · rintro ⟨value, hvalue, hread⟩
    obtain ⟨piece, hpiece, heq⟩ := List.mem_filterMap.1 hread
    cases piece with
    | lit c => cases heq
    | param found =>
      cases heq
      exact ⟨value, hvalue, hpiece⟩
  · rintro ⟨value, hvalue, hmem⟩
    exact ⟨value, hvalue, List.mem_filterMap.2 ⟨_, hmem, rfl⟩⟩

theorem mem_slotVariables {slot : VerifyStepSlot} {variableName : JsString} :
    variableName ∈ slotVariables slot ↔
      ∃ token ∈ runtimeTokens slot, .param variableName ∈ references 0 token := by
  rw [slotVariables, List.mem_flatMap]
  constructor
  · rintro ⟨token, htoken, hread⟩
    obtain ⟨piece, hpiece, heq⟩ := List.mem_filterMap.1 hread
    cases piece with
    | lit c => cases heq
    | param found =>
      cases heq
      exact ⟨token, htoken, hpiece⟩
  · rintro ⟨token, htoken, hmem⟩
    exact ⟨token, htoken, List.mem_filterMap.2 ⟨_, hmem, rfl⟩⟩

theorem param_notMem_lits {name s : JsString} : Piece.param name ∉ lits s := by
  intro h
  obtain ⟨c, -, heq⟩ := List.mem_map.1 h
  cases heq

theorem param_notMem_references {name value : JsString} (h : dollar ∉ value) :
    Piece.param name ∉ references 0 value := by
  rw [references_lits h]
  exact param_notMem_lits

theorem dollar_notMem_name {name : JsString} (h : isName name = true) : dollar ∉ name := by
  intro hmem
  have hunit := List.all_eq_true.1 (isName_units h) _ hmem
  exact absurd hunit (by decide)

/-- The command of a slot reads what its values refer to. -/
theorem reads_commandTokens {slot : VerifyStepSlot} {name variableName : JsString}
    (h : acceptsSlot slot = true) :
    variableName ∈ (arrayCommand name (verifyStepCommandTokens slot)).reads ↔
      variableName ∈ slotVariables slot := by
  simp only [acceptsSlot, Bool.and_eq_true] at h
  obtain ⟨⟨⟨⟨⟨⟨⟨-, hscript⟩, -⟩, henv⟩, -⟩, -⟩, -⟩, -⟩ := h
  rw [isSlotScript, Bool.and_eq_true, decide_eq_true_eq] at hscript
  have hnames : ∀ e ∈ slot.env.getD [], isName e.1 = true := by
    cases hcase : slot.env with
    | none => exact fun _ he => (List.not_mem_nil he).elim
    | some env =>
      rw [hcase] at henv
      intro e he
      have hentry := List.all_eq_true.1 henv e he
      rw [Bool.and_eq_true] at hentry
      exact hentry.1
  have henvToken {e : JsString × JsString} (he : e ∈ slot.env.getD []) :
      Piece.param variableName ∈ references 0 (e.1 ++ js "=" ++ e.2) ↔
        Piece.param variableName ∈ references 0 e.2 := by
    have hplain : dollar ∉ e.1 ++ js "=" := by
      rw [List.mem_append, not_or]
      exact ⟨dollar_notMem_name (hnames e he), by decide⟩
    rw [references_plain hplain, List.mem_append, or_iff_right param_notMem_lits]
  rw [mem_reads_arrayCommand, mem_slotVariables]
  constructor
  · rintro ⟨token, htoken, hmem⟩
    rw [verifyStepCommandTokens, List.mem_append, List.mem_append] at htoken
    rcases htoken with (htoken | htoken) | htoken
    · split at htoken
      · exact (List.not_mem_nil htoken).elim
      · rcases List.mem_cons.1 htoken with rfl | htoken
        · exact (param_notMem_references (by decide) hmem).elim
        · obtain ⟨e, he, rfl⟩ := List.mem_map.1 htoken
          exact ⟨e.2, List.mem_append_left _ (List.mem_map_of_mem he), (henvToken he).1 hmem⟩
    · have hdollar : dollar ∉ token := by
        rcases List.mem_cons.1 htoken with rfl | htoken
        · decide
        · rcases List.mem_cons.1 htoken with rfl | htoken
          · decide
          · exact List.mem_singleton.1 htoken ▸ hscript.2
      exact (param_notMem_references hdollar hmem).elim
    · exact ⟨token, List.mem_append_right _ htoken, hmem⟩
  · rintro ⟨token, htoken, hmem⟩
    rw [runtimeTokens, List.mem_append] at htoken
    rcases htoken with htoken | htoken
    · obtain ⟨e, he, rfl⟩ := List.mem_map.1 htoken
      have hmapped : e.1 ++ js "=" ++ e.2 ∈ envTokens slot := List.mem_map_of_mem he
      refine ⟨_, List.mem_append_left _ (List.mem_append_left _ ?_), (henvToken he).2 hmem⟩
      rw [if_neg (List.ne_nil_of_mem hmapped)]
      exact List.mem_cons_of_mem _ hmapped
    · exact ⟨token, List.mem_append_right _ htoken, hmem⟩

/-- Without dollar signs and exclamation marks. -/
def isQuiet (text : JsString) : Bool := text.all fun c => c ≠ dollar && c ≠ unit '!'

theorem isQuiet_append (s t : JsString) : isQuiet (s ++ t) = (isQuiet s && isQuiet t) :=
  List.all_append

theorem isQuiet_dollar {text : JsString} (h : isQuiet text = true) : dollar ∉ text := by
  intro hmem
  have hunit := List.all_eq_true.1 h _ hmem
  exact absurd hunit (by decide)

theorem isQuiet_mark {text : JsString} (h : isQuiet text = true) : unit '!' ∉ text := by
  intro hmem
  have hunit := List.all_eq_true.1 h _ hmem
  exact absurd hunit (by decide)

theorem isQuiet_name {name : JsString} (h : isName name = true) : isQuiet name = true := by
  rw [isQuiet, List.all_eq_true]
  intro c hc
  have hunit := List.all_eq_true.1 (isName_units h) c hc
  have hne {d : UInt16} (hd : isNameUnit d = false) : c ≠ d := by
    rintro rfl
    rw [hd] at hunit
    cases hunit
  rw [Bool.and_eq_true, decide_eq_true_eq, decide_eq_true_eq]
  exact ⟨hne (by decide), hne (by decide)⟩

theorem isQuiet_slotName {name : JsString} (h : isSlotName name = true) : isQuiet name = true := by
  have hall : ∀ c ∈ name, (isNameUnit c || c = unit '-') = true := by
    cases name with
    | nil => exact fun _ hc => (List.not_mem_nil hc).elim
    | cons c s =>
      rw [isSlotName, Bool.and_eq_true, Bool.or_eq_true] at h
      refine List.forall_mem_cons.2 ⟨?_, List.all_eq_true.1 h.2⟩
      have hunit : isNameUnit c = true := by
        rw [isNameUnit, isNameStart, Bool.or_eq_true, Bool.or_eq_true]
        exact h.1.imp_left .inl
      rw [hunit]
      rfl
  rw [isQuiet, List.all_eq_true]
  intro c hc
  have hunit := hall c hc
  have hne {d : UInt16} (hd : (isNameUnit d || d = unit '-') = false) : c ≠ d := by
    rintro rfl
    rw [hd] at hunit
    cases hunit
  rw [Bool.and_eq_true, decide_eq_true_eq, decide_eq_true_eq]
  exact ⟨hne (by decide), hne (by decide)⟩

/-- The commands that assign no array of a slot. -/
inductive FixedCommand : Command → Prop where
  | array {name : JsString} {values : List JsString} (hname : name ∈ reservedArrays)
      (hvalues : ∀ value ∈ values, isQuiet value = true) : FixedCommand (arrayCommand name values)
  | map {name : JsString} (hname : name ∈ SLOT_MAPS) : FixedCommand (.assoc name)
  | entry {name key value : JsString} (hname : name ∈ SLOT_MAPS) (hkey : isQuiet key = true)
      (hzero : key ≠ js "0") (hvalue : isQuiet value = true) :
      FixedCommand (entryCommand name key value)

namespace FixedCommand
variable {command : Command}

theorem name_mem (h : FixedCommand command) : command.name ∈ reservedArrays ++ SLOT_MAPS := by
  cases h with
  | array hname _ => exact List.mem_append_left _ hname
  | map hname => exact List.mem_append_right _ hname
  | entry hname _ _ _ => exact List.mem_append_right _ hname

theorem assigns_mem (h : FixedCommand command) : ∀ name ∈ command.assigns,
    name ∈ reservedArrays ++ SLOT_MAPS := by
  intro name hname
  cases h with
  | array hmem _ =>
    cases hname
    exact List.mem_append_left _ hmem
  | map hmem =>
    cases hname
    exact List.mem_append_right _ hmem
  | entry hmem _ _ _ =>
    cases hname
    exact List.mem_append_right _ hmem

theorem reads_nil (h : FixedCommand command) : command.reads = [] := by
  cases h with
  | array _ hvalues =>
    refine List.eq_nil_iff_forall_not_mem.2 fun name hname => ?_
    obtain ⟨value, hvalue, hmem⟩ := mem_reads_arrayCommand.1 hname
    exact param_notMem_references (isQuiet_dollar (hvalues value hvalue)) hmem
  | map _ => rfl
  | entry _ hkey _ hvalue =>
    rw [entryCommand, references_lits (isQuiet_dollar hkey), references_lits (isQuiet_dollar hvalue)]
    simp only [Command.reads, Command.words, List.flatMap_cons, reads_lits]
    rfl

theorem quiet (h : FixedCommand command) : command.Quiet (unit '!') := by
  cases h with
  | array _ hvalues =>
    intro word hword
    rw [List.head?_map] at hword
    obtain ⟨value, hvalue, rfl⟩ := Option.map_eq_some_iff.1 hword
    have hquiet := hvalues value (List.mem_of_head? hvalue)
    exact ⟨value, references_lits (isQuiet_dollar hquiet), isQuiet_mark hquiet⟩
  | map _ => trivial
  | entry _ hkey hzero _ => exact ⟨_, references_lits (isQuiet_dollar hkey), hzero⟩

end FixedCommand

section
variable {consumers : List Consumer} {e : Consumer × VerifyStepSlot}

theorem consumerNames : (CONSUMERS.map ConsumerSpec.name).all isQuiet = true := by decide +kernel

theorem resolverIds : VERIFY_STEP_DYNAMIC_RESOLVER_BINDINGS.all (fun binding =>
    isQuiet binding.1 && isQuiet binding.2 && binding.1 ≠ js "0") = true := by decide +kernel

theorem artifactIds : VERIFY_STEP_ARTIFACT_BINDINGS.all (fun binding => isQuiet binding.id &&
    binding.id ≠ js "0" && isQuiet binding.probeFunctionName && isQuiet binding.summary) = true := by
  rw [VERIFY_STEP_ARTIFACT_BINDINGS]
  repeat rw [js_ofList]
  decide +kernel

theorem isQuiet_slot (h : acceptsSlot e.2 = true) : isQuiet e.2.name = true := by
  simp only [acceptsSlot, Bool.and_eq_true] at h
  exact isQuiet_slotName h.1.1.1.1.1.1.1

/-- The values of the maps of a slot. -/
theorem isQuiet_slotEntries (hspec : e.1.spec ∈ CONSUMERS) (h : acceptsSlot e.2 = true) :
    ∀ entry ∈ slotEntries e.1 e.2, isQuiet entry.2 = true := by
  simp only [acceptsSlot, Bool.and_eq_true] at h
  obtain ⟨⟨⟨⟨-, hdynamic⟩, hproduces⟩, hrequires⟩, -⟩ := h
  have hartifact {id : JsString}
      (hmem : id ∈ VERIFY_STEP_ARTIFACT_BINDINGS.map VerifyArtifactBinding.id) :
      isQuiet id = true := by
    obtain ⟨binding, hbinding, rfl⟩ := List.mem_map.1 hmem
    have hall := List.all_eq_true.1 artifactIds binding hbinding
    simp only [Bool.and_eq_true] at hall
    exact hall.1.1.1
  intro entry hentry
  simp only [slotEntries, List.cons_append, List.mem_cons, List.mem_append, List.mem_map,
    Option.mem_toList] at hentry
  rcases hentry with rfl | (⟨id, hid, rfl⟩ | ⟨id, hid, rfl⟩) | ⟨id, hid, rfl⟩
  · exact isQuiet_name (isName_slotVariableName hspec e.2).1
  · rw [Option.mem_def.1 hid, Option.all_some, decide_eq_true_eq] at hdynamic
    obtain ⟨binding, hbinding, rfl⟩ := List.mem_map.1 hdynamic
    have hall := List.all_eq_true.1 resolverIds binding hbinding
    simp only [Bool.and_eq_true] at hall
    exact hall.1.1
  · rw [Option.mem_def.1 hid, Option.all_some, decide_eq_true_eq] at hproduces
    exact hartifact hproduces
  · rw [Option.mem_def.1 hid, Option.all_some, decide_eq_true_eq] at hrequires
    exact hartifact hrequires

theorem fixed_plain (hm : Materialized consumers) :
    ∀ command ∈ plainCommands consumers, ∃ name values, command = arrayCommand name values ∧
      name ∈ reservedArrays ∧ ∀ value ∈ values, isQuiet value = true := by
  intro command hcommand
  rw [plainCommands, List.cons_append, List.mem_cons, List.mem_append, List.mem_map,
    List.mem_singleton] at hcommand
  rcases hcommand with rfl | ⟨consumer, hconsumer, rfl⟩ | rfl
  · refine ⟨_, _, rfl, List.mem_cons_self, List.forall_mem_map.2 fun consumer hconsumer => ?_⟩
    exact List.all_eq_true.1 consumerNames _ (List.mem_map_of_mem (hm.spec hconsumer))
  · refine ⟨_, _, rfl, List.mem_append_left _ (List.mem_cons_of_mem _
      (List.mem_map_of_mem (hm.spec hconsumer))), List.forall_mem_map.2 fun slot hslot => ?_⟩
    exact @isQuiet_slot (consumer, slot) (hm.slot (mem_consumerSlots.2 ⟨hconsumer, hslot⟩)).2
  · refine ⟨_, _, rfl, List.mem_append_right _ List.mem_cons_self,
      List.forall_mem_map.2 fun e he => ?_⟩
    exact isQuiet_slot (hm.slot (List.mem_of_mem_filter he)).2

theorem fixed_slotEntry (hspec : e.1.spec ∈ CONSUMERS) (h : acceptsSlot e.2 = true) :
    ∀ command ∈ (slotCommands e).tail, FixedCommand command := by
  intro command hcommand
  obtain ⟨entry, hentry, rfl⟩ := List.mem_map.1 hcommand
  have hconsumer : isQuiet e.1.spec.name = true :=
    List.all_eq_true.1 consumerNames _ (List.mem_map_of_mem hspec)
  refine .entry (slotEntries_maps hentry) ?_ ?_ (isQuiet_slotEntries hspec h entry hentry)
  · rw [slotKey, isQuiet_append, isQuiet_append, hconsumer, isQuiet_slot h]
    rfl
  · intro heq
    have hcolon : unit ':' ∈ slotKey e.1 e.2 :=
      List.mem_append_left _ (List.mem_append_right _ List.mem_cons_self)
    rw [heq] at hcolon
    exact absurd hcolon (by decide)

theorem fixed_bindings : ∀ command ∈ bindingCommands consumers, FixedCommand command := by
  intro command hcommand
  rw [bindingCommands, List.mem_append] at hcommand
  rcases hcommand with hcommand | hcommand
  · obtain ⟨binding, hbinding, rfl⟩ := List.mem_map.1 hcommand
    have hall := List.all_eq_true.1 resolverIds binding hbinding
    rw [Bool.and_eq_true, Bool.and_eq_true, decide_eq_true_eq] at hall
    exact .entry (by decide +kernel) hall.1.1 hall.2 hall.1.2
  · obtain ⟨entry, hentry, rfl⟩ := List.mem_map.1 hcommand
    obtain ⟨binding, hbinding, hentry⟩ := List.mem_flatMap.1 hentry
    obtain ⟨value, hvalue, rfl⟩ := List.mem_map.1 hentry
    rw [referencedBindings] at hbinding
    have hall := List.all_eq_true.1 artifactIds binding (List.mem_filter.1 hbinding).1
    rw [Bool.and_eq_true, Bool.and_eq_true, Bool.and_eq_true, decide_eq_true_eq] at hall
    obtain ⟨⟨⟨hid, hzero⟩, hprobe⟩, hsummary⟩ := hall
    have hmaps : ∀ name ∈ (bindingEntries binding).map Prod.fst, name ∈ SLOT_MAPS :=
      bindingEntries_maps
    refine .entry (hmaps _ (List.mem_map_of_mem hvalue)) hid hzero ?_
    rcases List.mem_cons.1 hvalue with rfl | hvalue
    · exact hprobe
    · obtain rfl := List.mem_singleton.1 hvalue
      exact hsummary

theorem slotCommands_cases (hm : Materialized consumers) (he : e ∈ consumerSlots consumers) :
    ∀ command ∈ slotCommands e,
      command = arrayCommand (slotVariableName e.1 e.2) (verifyStepCommandTokens e.2) ∨
        FixedCommand command := by
  intro command hcommand
  rcases List.mem_cons.1 hcommand with rfl | hcommand
  · exact .inl rfl
  · exact .inr (fixed_slotEntry (hm.slot he).1 (hm.slot he).2 command hcommand)

/-- What comes before the array of a slot, after the guards. -/
def commandsBefore (consumers : List Consumer) (earlier : List (Consumer × VerifyStepSlot)) :
    List Command :=
  plainCommands consumers ++ (SLOT_MAPS.map .assoc ++ earlier.flatMap slotCommands)

def commandsAfter (consumers : List Consumer) (e : Consumer × VerifyStepSlot)
    (later : List (Consumer × VerifyStepSlot)) : List Command :=
  (slotCommands e).tail ++ (later.flatMap slotCommands ++ bindingCommands consumers)

theorem assignedCommands_split {earlier later : List (Consumer × VerifyStepSlot)}
    (h : consumerSlots consumers = earlier ++ e :: later) :
    assignedCommands consumers = commandsBefore consumers earlier ++
      arrayCommand (slotVariableName e.1 e.2) (verifyStepCommandTokens e.2) ::
        commandsAfter consumers e later := by
  rw [assignedCommands, h, List.flatMap_append, List.flatMap_cons, slotCommands, commandsBefore,
    commandsAfter, slotCommands, List.tail_cons]
  simp only [List.append_assoc, List.cons_append]

theorem before_cases (hm : Materialized consumers) {earlier : List (Consumer × VerifyStepSlot)}
    (hearlier : earlier ⊆ consumerSlots consumers) :
    ∀ command ∈ commandsBefore consumers earlier,
      (∃ e ∈ earlier, command = arrayCommand (slotVariableName e.1 e.2) (verifyStepCommandTokens e.2)) ∨
        FixedCommand command := by
  intro command hcommand
  rw [commandsBefore, List.mem_append, List.mem_append, List.mem_map, List.mem_flatMap] at hcommand
  rcases hcommand with hcommand | ⟨name, hname, rfl⟩ | ⟨e, he, hcommand⟩
  · obtain ⟨name, values, rfl, hname, hvalues⟩ := fixed_plain hm command hcommand
    exact .inr (.array hname hvalues)
  · exact .inr (.map hname)
  · rcases slotCommands_cases hm (hearlier he) command hcommand with rfl | hfixed
    · exact .inl ⟨e, he, rfl⟩
    · exact .inr hfixed

theorem after_cases (hm : Materialized consumers) {later : List (Consumer × VerifyStepSlot)}
    (he : e ∈ consumerSlots consumers) (hlater : later ⊆ consumerSlots consumers) :
    ∀ command ∈ commandsAfter consumers e later,
      (∃ e ∈ later, command = arrayCommand (slotVariableName e.1 e.2) (verifyStepCommandTokens e.2)) ∨
        FixedCommand command := by
  intro command hcommand
  rw [commandsAfter, List.mem_append, List.mem_append, List.mem_flatMap] at hcommand
  rcases hcommand with hcommand | ⟨next, hnext, hcommand⟩ | hcommand
  · exact .inr (fixed_slotEntry (hm.slot he).1 (hm.slot he).2 command hcommand)
  · rcases slotCommands_cases hm (hlater hnext) command hcommand with rfl | hfixed
    · exact .inl ⟨next, hnext, rfl⟩
    · exact .inr hfixed
  · exact .inr (fixed_bindings command hcommand)

theorem assigned_cases (hm : Materialized consumers) : ∀ command ∈ assignedCommands consumers,
    (∃ e ∈ consumerSlots consumers,
      command = arrayCommand (slotVariableName e.1 e.2) (verifyStepCommandTokens e.2)) ∨
        FixedCommand command := by
  intro command hcommand
  rw [assignedCommands, ← List.append_assoc, ← List.append_assoc, List.append_assoc (plainCommands _),
    List.mem_append] at hcommand
  rcases hcommand with hcommand | hcommand
  · exact before_cases hm (List.Subset.refl _) command hcommand
  · exact .inr (fixed_bindings command hcommand)

/-- The names of the variables that are assigned before a slot's. -/
theorem before_assigns (hm : Materialized consumers) {earlier : List (Consumer × VerifyStepSlot)}
    (hearlier : earlier ⊆ consumerSlots consumers) {command : Command} {name : JsString}
    (hcommand : command ∈ commandsBefore consumers earlier) (hname : name ∈ command.assigns) :
    name ∈ reservedArrays ++ SLOT_MAPS ∨ name ∈ earlier.map fun e => slotVariableName e.1 e.2 := by
  rcases before_cases hm hearlier command hcommand with ⟨e, he, rfl⟩ | hfixed
  · cases hname
    exact .inr (List.mem_map_of_mem he)
  · exact .inl (hfixed.assigns_mem name hname)

theorem mem_before_assigns {earlier : List (Consumer × VerifyStepSlot)} (hm : Materialized consumers)
    {name : JsString} (hname : name ∈ reservedArrays ++ SLOT_MAPS ∨
      name ∈ earlier.map fun e => slotVariableName e.1 e.2) :
    name ∈ (commandsBefore consumers earlier).filterMap Command.assigns := by
  rw [List.mem_filterMap]
  rw [List.mem_append] at hname
  rcases hname with (hname | hname) | hname
  · have hplain : ∃ command ∈ plainCommands consumers, command.assigns = some name := by
      rw [reservedArrays, List.cons_append, List.mem_cons, List.mem_append, List.mem_singleton,
        ← hm.specs, List.map_map, List.mem_map] at hname
      rcases hname with rfl | ⟨consumer, hconsumer, rfl⟩ | rfl
      · exact ⟨_, List.mem_cons_self, rfl⟩
      · exact ⟨_, List.mem_append_left _ (List.mem_cons_of_mem _ (List.mem_map_of_mem hconsumer)), rfl⟩
      · exact ⟨_, List.mem_append_right _ List.mem_cons_self, rfl⟩
    obtain ⟨command, hcommand, hassigns⟩ := hplain
    exact ⟨command, List.mem_append_left _ hcommand, hassigns⟩
  · exact ⟨.assoc name, List.mem_append_right _ (List.mem_append_left _ (List.mem_map_of_mem hname)),
      rfl⟩
  · obtain ⟨e, he, rfl⟩ := List.mem_map.1 hname
    refine ⟨_, List.mem_append_right _ (List.mem_append_right _
      (List.mem_flatMap.2 ⟨e, he, List.mem_cons_self⟩)), rfl⟩

/-! ## What the script leaves -/

/-- The command of a slot, its references replaced by the values of the variables. -/
def expandedTokens (state : State) (slot : VerifyStepSlot) : List JsString :=
  (verifyStepCommandTokens slot).map fun token => expand state (references 0 token)

/-- The script only assigns variables, reads none that it has not demanded before, and leaves the
command of every slot in a variable of its own, whatever variables it starts from. -/
def StepsFaithful (special : JsString → Bool) (consumers : List Consumer) (text : JsString) : Prop :=
  ∃ commands, readScript text = some commands ∧ Guarded [] commands ∧
    (∀ state, Fits commands state → ∃ final, runAll special state commands = some final ∧
      ∀ e ∈ consumerSlots consumers,
        final (slotVariableName e.1 e.2) = some (.indexed (expandedTokens state e.2))) ∧
    ((consumerSlots consumers).map fun e => slotVariableName e.1 e.2).Nodup

/-- What a slot refers to is neither a variable that the shell changes by itself nor one that the
script has assigned by then. -/
def RefersOutside (special : JsString → Bool) (consumers : List Consumer) : Prop :=
  ∀ earlier e later, consumerSlots consumers = earlier ++ e :: later →
    ∀ name ∈ slotVariables e.2, special name = false ∧ name ∉ reservedArrays ++ SLOT_MAPS ∧
      name ∉ earlier.map fun before => slotVariableName before.1 before.2

theorem mem_runtimeVariables {name : JsString} :
    name ∈ runtimeVariables consumers ↔ ∃ e ∈ consumerSlots consumers, name ∈ slotVariables e.2 := by
  rw [runtimeVariables, mem_sortBy, List.mem_eraseDups, List.mem_flatMap]

theorem assigned_reads (hm : Materialized consumers) : ∀ command ∈ assignedCommands consumers,
    command.reads ⊆ runtimeVariables consumers := by
  intro command hcommand name hname
  rcases assigned_cases hm command hcommand with ⟨e, he, rfl⟩ | hfixed
  · exact mem_runtimeVariables.2 ⟨e, he, (reads_commandTokens (hm.slot he).2).1 hname⟩
  · rw [hfixed.reads_nil] at hname
    exact (List.not_mem_nil hname).elim

theorem guarded_declaredSteps (hm : Materialized consumers) : Guarded [] (declaredSteps consumers) := by
  have hguards : ((runtimeVariables consumers).map fun name => (name, guardMessage name)).map Prod.fst =
      runtimeVariables consumers := by
    rw [List.map_map]
    exact List.map_id _
  have hguarded := @guarded_demands [] ((runtimeVariables consumers).map fun name =>
    (name, guardMessage name)) (assignedCommands consumers) (hguards.symm ▸ assigned_reads hm)
  rwa [List.map_map] at hguarded

theorem ordered_assigned (hm : Materialized consumers) :
    Ordered isMap [] (assignedCommands consumers) := by
  have hnotMap {name : JsString} (h : name ∈ reservedArrays) : isMap name = false := by
    have hplain := List.all_eq_true.1 reservedArrays_plain name h
    rwa [Bool.not_eq_true'] at hplain
  have hmap {name : JsString} (h : name ∈ SLOT_MAPS) : isMap name = true := decide_eq_true h
  rw [assignedCommands]
  refine ordered_indexed (fun command hcommand => ?_) (ordered_assoc (fun name => hmap)
    (ordered_filling fun command hcommand => ?_))
  · obtain ⟨name, values, rfl, hname, -⟩ := fixed_plain hm command hcommand
    exact ⟨_, _, rfl, hnotMap hname⟩
  · have hmem : command ∈ assignedCommands consumers :=
      List.mem_append_right _ (List.mem_append_right _ hcommand)
    have hcases := assigned_cases hm command hmem
    have hdeclares : ∀ name, command ≠ .assoc name := by
      rintro name rfl
      rw [List.mem_append, List.mem_flatMap] at hcommand
      rcases hcommand with ⟨e, -, hmem⟩ | hmem
      · rcases List.mem_cons.1 hmem with heq | hmem
        · cases heq
        · obtain ⟨entry, -, heq⟩ := List.mem_map.1 hmem
          cases heq
      · rw [bindingCommands, List.mem_append] at hmem
        rcases hmem with hmem | hmem
        · obtain ⟨binding, -, heq⟩ := List.mem_map.1 hmem
          cases heq
        · obtain ⟨entry, -, heq⟩ := List.mem_map.1 hmem
          cases heq
    rcases hcases with ⟨e, he, rfl⟩ | hfixed
    · have hfresh := @slotVariableName_fresh e.1 e.2
      rw [List.mem_append, not_or] at hfresh
      exact .inl ⟨_, _, rfl, decide_eq_false hfresh.2⟩
    · cases hfixed with
      | array hname _ => exact .inl ⟨_, _, rfl, hnotMap hname⟩
      | map _ => exact absurd rfl (hdeclares _)
      | entry hname _ _ _ =>
        exact .inr ⟨_, _, _, rfl, List.mem_append_left _ (List.mem_reverse.2 hname), hmap hname⟩

theorem suited_of_fits (hm : Materialized consumers) {state : State}
    (h : Fits (declaredSteps consumers) state) : Suited isMap (assignedCommands consumers) state := by
  have hmem {command : Command} (hcommand : command ∈ assignedCommands consumers) :
      command ∈ declaredSteps consumers := List.mem_append_right _ hcommand
  constructor
  · intro command hcommand hmap entries
    rcases assigned_cases hm command hcommand with ⟨e, he, rfl⟩ | hfixed
    · exact h.indexed _ _ (hmem hcommand) entries
    · cases hfixed with
      | array _ _ => exact h.indexed _ _ (hmem hcommand) entries
      | map hname => exact absurd hname (of_decide_eq_false hmap)
      | entry hname _ _ _ => exact absurd hname (of_decide_eq_false hmap)
  · intro command hcommand hmap values
    have hdeclared : .assoc command.name ∈ assignedCommands consumers :=
      List.mem_append_right _ (List.mem_append_left _ (List.mem_map_of_mem (of_decide_eq_true hmap)))
    exact h.assoc _ (hmem hdeclared) values

variable {special : JsString → Bool}

theorem special_assigned (hspecial : ∀ name, startsWith name (js "MUSI_") = true → special name = false)
    (hm : Materialized consumers) : ∀ command ∈ assignedCommands consumers,
      special command.name = false := by
  intro command hcommand
  rcases assigned_cases hm command hcommand with ⟨e, he, rfl⟩ | hfixed
  · exact hspecial _ (isName_slotVariableName (hm.slot he).1 e.2).2.2
  · exact hspecial _ (fixedName hfixed.name_mem).2.2

theorem run_guards {state : State}
    (hspecial : ∀ name ∈ runtimeVariables consumers, special name = false)
    (hset : ∀ name ∈ runtimeVariables consumers, reading state name ≠ []) :
    runAll special state ((runtimeVariables consumers).map demandCommand) = some state := by
  have hdemands := @runAll_demands special state
    ((runtimeVariables consumers).map fun name => (name, guardMessage name))
    (List.forall_mem_map.2 hspecial) (List.forall_mem_map.2 hset)
  rwa [List.map_map] at hdemands

/-- The variable of a slot holds its command as the state before its assignment has it. -/
theorem slot_array (hm : Materialized consumers)
    (hnodup : ((consumerSlots consumers).map fun e => slotVariableName e.1 e.2).Nodup)
    {earlier later : List (Consumer × VerifyStepSlot)}
    (hsplit : consumerSlots consumers = earlier ++ e :: later) {state final : State}
    (h : runAll special state (assignedCommands consumers) = some final) :
    ∃ between, runAll special state (commandsBefore consumers earlier) = some between ∧
      final (slotVariableName e.1 e.2) = some (.indexed (expandedTokens between e.2)) := by
  have he : e ∈ consumerSlots consumers := by
    rw [hsplit]
    exact List.mem_append_right _ List.mem_cons_self
  have hlater : later ⊆ consumerSlots consumers := by
    rw [hsplit]
    exact fun next hnext => List.mem_append_right _ (List.mem_cons_of_mem _ hnext)
  rw [hsplit, List.map_append, List.map_cons, List.nodup_append, List.nodup_cons] at hnodup
  rw [assignedCommands_split hsplit] at h
  obtain ⟨between, hbefore, hfinal⟩ := runAll_indexed h fun command hcommand hassigns => by
    rcases after_cases hm he hlater command hcommand with ⟨next, hnext, rfl⟩ | hfixed
    · have heq : slotVariableName next.1 next.2 = slotVariableName e.1 e.2 :=
        Option.some.inj hassigns
      exact hnodup.2.1.1 (heq ▸ List.mem_map_of_mem hnext)
    · exact slotVariableName_fresh e.2 (hfixed.assigns_mem _ hassigns)
  refine ⟨between, hbefore, ?_⟩
  rw [hfinal, List.map_map]
  rfl

theorem earlier_subset {earlier later : List (Consumer × VerifyStepSlot)}
    (hsplit : consumerSlots consumers = earlier ++ e :: later) :
    earlier ⊆ consumerSlots consumers := by
  rw [hsplit]
  exact List.subset_append_left _ _

theorem stepsFaithful_of_refersOutside {text : JsString}
    (hspecial : ∀ name, startsWith name (js "MUSI_") = true → special name = false)
    (hm : Materialized consumers) (hread : readScript text = some (declaredSteps consumers))
    (hnodup : ((consumerSlots consumers).map fun e => slotVariableName e.1 e.2).Nodup)
    (h : RefersOutside special consumers) : StepsFaithful special consumers text := by
  refine ⟨_, hread, guarded_declaredSteps hm, fun state hfits => ?_, hnodup⟩
  have hruntime : ∀ name ∈ runtimeVariables consumers, special name = false := by
    intro name hname
    obtain ⟨e, he, hmem⟩ := mem_runtimeVariables.1 hname
    obtain ⟨earlier, later, hsplit⟩ := List.append_of_mem he
    exact (h earlier e later hsplit name hmem).1
  have hguards := run_guards hruntime fun name hname => hfits.demanded name (guardMessage name)
    (List.mem_append_left _ (List.mem_map_of_mem hname))
  obtain ⟨final, hfinal⟩ := runAll_ordered (ordered_assigned hm) (suited_of_fits hm hfits)
    (fun name hname => (List.not_mem_nil hname).elim) fun command hcommand =>
      ⟨special_assigned hspecial hm command hcommand, fun name hname =>
        hruntime name (assigned_reads hm command hcommand hname)⟩
  refine ⟨final, ?_, fun e he => ?_⟩
  · rw [declaredSteps, runAll_append, hguards]
    exact hfinal
  · obtain ⟨earlier, later, hsplit⟩ := List.append_of_mem he
    obtain ⟨between, hbefore, harray⟩ := slot_array hm hnodup hsplit hfinal
    have htokens : expandedTokens between e.2 = expandedTokens state e.2 := by
      refine List.map_congr_left fun token htoken => expand_congr fun name hname => ?_
      have hvariable : name ∈ slotVariables e.2 :=
        (@reads_commandTokens e.2 [] name (hm.slot he).2).1
          (mem_reads_arrayCommand.2 ⟨token, htoken, hname⟩)
      obtain ⟨-, hfixed, hslots⟩ := h earlier e later hsplit name hvariable
      have hunassigned := runAll_unassigned hbefore fun command hcommand hassigns =>
        (before_assigns hm (earlier_subset hsplit) hcommand hassigns).elim hfixed hslots
      rw [reading, reading, hunassigned]
    rw [harray, htokens]

/-- Before the array of a slot nothing is assigned that reads with an exclamation mark. -/
theorem quiet_before (hm : Materialized consumers) {earlier : List (Consumer × VerifyStepSlot)}
    (hearlier : earlier ⊆ consumerSlots consumers) :
    ∀ command ∈ commandsBefore consumers earlier, command.Quiet (unit '!') := by
  intro command hcommand
  rcases before_cases hm hearlier command hcommand with ⟨e, -, rfl⟩ | hfixed
  · intro word hword
    have hhead : (verifyStepCommandTokens e.2).head? = some (js "env") ∨
        (verifyStepCommandTokens e.2).head? = some (js "bun") := by
      rw [verifyStepCommandTokens]
      split
      · exact .inr rfl
      · exact .inl rfl
    rw [List.head?_map] at hword
    rcases hhead with hhead | hhead
    · rw [hhead] at hword
      cases hword
      exact ⟨js "env", references_lits (by decide), by decide⟩
    · rw [hhead] at hword
      cases hword
      exact ⟨js "bun", references_lits (by decide), by decide⟩
  · exact hfixed.quiet

/-- A state in which every variable is an exclamation mark. -/
def marked : State := fun _ => some (.scalar [unit '!'])

theorem refersOutside_of_stepsFaithful {text : JsString} (hm : Materialized consumers)
    (hread : readScript text = some (declaredSteps consumers))
    (h : StepsFaithful special consumers text) : RefersOutside special consumers := by
  obtain ⟨commands, hcommands, -, hruns, hnodup⟩ := h
  obtain rfl := Option.some.inj (hread.symm.trans hcommands)
  have hfits : Fits (declaredSteps consumers) marked :=
    ⟨fun _ _ _ => List.cons_ne_nil _ _, fun _ _ _ _ heq => (by cases heq),
      fun _ _ _ heq => (by cases heq)⟩
  obtain ⟨final, hrun, hfinal⟩ := hruns marked hfits
  intro earlier e later hsplit name hname
  have he : e ∈ consumerSlots consumers := by
    rw [hsplit]
    exact List.mem_append_right _ List.mem_cons_self
  have hplain := runAll_special hrun
  have hreads : name ∈ (arrayCommand (slotVariableName e.1 e.2) (verifyStepCommandTokens e.2)).reads :=
    (reads_commandTokens (hm.slot he).2).2 hname
  have hmem : arrayCommand (slotVariableName e.1 e.2) (verifyStepCommandTokens e.2) ∈
      declaredSteps consumers := by
    rw [declaredSteps, assignedCommands_split hsplit]
    exact List.mem_append_right _ (List.mem_append_right _ List.mem_cons_self)
  refine ⟨(hplain _ hmem).2 name hreads, ?_⟩
  rw [← not_or]
  intro hassigned
  have hguards := @run_guards consumers special marked
    (fun other hother => (hplain _ (List.mem_append_left _ (List.mem_map_of_mem hother))).1)
    fun _ _ => List.cons_ne_nil _ _
  rw [declaredSteps, runAll_append, hguards, Option.bind_some] at hrun
  obtain ⟨between, hbefore, harray⟩ := slot_array hm hnodup hsplit hrun
  have hmarked : QuietState (unit '!') [] marked :=
    ⟨fun _ _ heq => (by cases heq), fun _ hmem => (List.not_mem_nil hmem).elim⟩
  have hquiet := runAll_quiet (quiet_before hm (earlier_subset hsplit)) hmarked hbefore
  have hsilent {other : JsString}
      (hother : other ∈ (commandsBefore consumers earlier).filterMap Command.assigns) :
      (reading between other).count (unit '!') = 0 :=
    List.count_eq_zero.2 (hquiet.done other (List.mem_append_left _ (List.mem_reverse.2 hother)))
  obtain ⟨token, htoken, hparam⟩ := mem_reads_arrayCommand.1 hreads
  rw [hfinal e he, Option.some.injEq, Value.indexed.injEq] at harray
  have htokens := List.map_inj_left.1 harray token htoken
  refine expand_ne (c := unit '!') (fun other => ?_) hparam ?_ htokens.symm
  · by_cases hother : other ∈ (commandsBefore consumers earlier).filterMap Command.assigns
    · rw [hsilent hother]
      exact Nat.zero_le _
    · have hunassigned := runAll_unassigned hbefore fun command hcommand hassigns =>
        hother (List.mem_filterMap.2 ⟨command, hcommand, hassigns⟩)
      rw [reading, hunassigned]
      exact Nat.le_refl _
  · rw [hsilent (mem_before_assigns hm hassigned)]
    exact Nat.one_pos

end

/-- The variables of the script itself are not kept from the slots. -/
theorem renderVerifyStepsShellFromManifest_exact {special : JsString → Bool}
    {manifest : HarnessManifest} {knownScripts : Option (List JsString)} {text : JsString}
    (hspecial : ∀ name, startsWith name (js "MUSI_") = true → special name = false)
    (hslots : ∀ control ∈ manifest.controls, ∀ slots, control.slots = some slots →
      slots.all acceptsSlot = true)
    (h : renderVerifyStepsShellFromManifest manifest knownScripts = .ok text) :
    ∃ consumers, collectConsumers manifest = .ok consumers ∧
      (StepsFaithful special consumers text ↔ RefersOutside special consumers) := by
  obtain ⟨consumers, hconsumers, hm, hread, hnodup⟩ := reads_verifySteps hslots h
  exact ⟨consumers, hconsumers, refersOutside_of_stepsFaithful hm hread,
    stepsFaithful_of_refersOutside hspecial hm hread hnodup⟩

/-- Variables that change as the shell runs commands. -/
def changingVariables : List JsString :=
  [js "_", js "BASHPID", js "BASH_COMMAND", js "EPOCHREALTIME", js "EPOCHSECONDS", js "FUNCNAME",
    js "LINENO", js "RANDOM", js "SECONDS", js "SRANDOM"]

theorem changingVariables_outside (name : JsString) (h : startsWith name (js "MUSI_") = true) :
    decide (name ∈ changingVariables) = false := by
  have hnone : changingVariables.all (fun name => !startsWith name (js "MUSI_")) = true := by
    decide +kernel
  refine decide_eq_false fun hmem => ?_
  have hname := List.all_eq_true.1 hnone name hmem
  rw [h] at hname
  cases hname

def guardSlot (arg : JsString) : VerifyStepSlot where
  name := js "guard"
  script := js "lint"
  args := some [arg]
  env := none
  dynamic := none
  produces := none
  requiresArtifact := none
  fastCommitSkip := none

/-- Every consumer runs one slot. -/
def guardManifest (arg : JsString) : HarnessManifest where
  controls := CONSUMERS.map fun spec => ⟨spec.id, some [guardSlot arg]⟩
  verifyStepBridgeDivergenceReasons := []

theorem acceptsSlot_guardSlot {arg : JsString} (h : isNonBlank arg = true) :
    acceptsSlot (guardSlot arg) = true := by
  have hnamed : isSlotName (js "guard") = true ∧ isSlotScript (js "lint") = true := by decide
  rw [acceptsSlot, guardSlot]
  simp only [Option.all_some, List.all_cons, List.all_nil, h, hnamed]
  rfl

theorem acceptsSlot_guard {arg : JsString} (h : isNonBlank arg = true) :
    ∀ control ∈ (guardManifest arg).controls, ∀ slots, control.slots = some slots →
      slots.all acceptsSlot = true := by
  intro control hcontrol slots hslots
  obtain ⟨spec, -, rfl⟩ := List.mem_map.1 hcontrol
  cases hslots
  rw [List.all_cons, acceptsSlot_guardSlot h]
  rfl

theorem rendered_of_isOk {manifest : HarnessManifest}
    (h : (renderVerifyStepsShellFromManifest manifest none).isOk = true) :
    ∃ text, renderVerifyStepsShellFromManifest manifest none = .ok text := by
  cases hrendered : renderVerifyStepsShellFromManifest manifest none with
  | ok text => exact ⟨text, rfl⟩
  | error message =>
    rw [hrendered] at h
    cases h

def guardConsumers (arg : JsString) : List Consumer :=
  CONSUMERS.map fun spec => ⟨spec, [guardSlot arg]⟩

theorem renderVerifyStepsShellFromManifest_exact_base :
    ∃ text, renderVerifyStepsShellFromManifest (guardManifest (js "$BASE")) none = .ok text ∧
      StepsFaithful (fun name => name ∈ changingVariables) (guardConsumers (js "$BASE")) text := by
  obtain ⟨text, hrendered⟩ := @rendered_of_isOk (guardManifest (js "$BASE")) (by decide +kernel)
  obtain ⟨consumers, hconsumers, hexact⟩ := renderVerifyStepsShellFromManifest_exact
    changingVariables_outside (acceptsSlot_guard (by decide)) hrendered
  obtain rfl : guardConsumers (js "$BASE") = consumers :=
    Except.ok.inj ((rfl : collectConsumers (guardManifest (js "$BASE")) = _).symm.trans hconsumers)
  refine ⟨text, hrendered, hexact.2 fun earlier e later hsplit name hname => ?_⟩
  have hslot : ∀ e ∈ consumerSlots (guardConsumers (js "$BASE")), slotVariables e.2 = [js "BASE"] := by
    decide +kernel
  have he : e ∈ consumerSlots (guardConsumers (js "$BASE")) := by
    rw [hsplit]
    exact List.mem_append_right _ List.mem_cons_self
  rw [hslot e he, List.mem_singleton] at hname
  subst hname
  refine ⟨by decide, by decide +kernel, fun hmem => ?_⟩
  have hnames : js "BASE" ∉
      (consumerSlots (guardConsumers (js "$BASE"))).map fun e => slotVariableName e.1 e.2 := by
    decide +kernel
  rw [hsplit, List.map_append] at hnames
  exact hnames (List.mem_append_left _ hmem)

/-- A slot that refers to an array of the script gets what the script has put there. -/
theorem stepsFaithful_clobbered :
    acceptsSlot (guardSlot (js "$MUSI_VERIFY_CONSUMERS")) = true ∧ ∃ text,
      renderVerifyStepsShellFromManifest (guardManifest (js "$MUSI_VERIFY_CONSUMERS")) none = .ok text ∧
        ¬StepsFaithful (fun name => name ∈ changingVariables)
          (guardConsumers (js "$MUSI_VERIFY_CONSUMERS")) text := by
  obtain ⟨text, hrendered⟩ :=
    @rendered_of_isOk (guardManifest (js "$MUSI_VERIFY_CONSUMERS")) (by decide +kernel)
  obtain ⟨consumers, hconsumers, hm, hread, -⟩ :=
    reads_verifySteps (acceptsSlot_guard (by decide)) hrendered
  obtain rfl : guardConsumers (js "$MUSI_VERIFY_CONSUMERS") = consumers :=
    Except.ok.inj ((rfl : collectConsumers (guardManifest (js "$MUSI_VERIFY_CONSUMERS")) = _).symm.trans
      hconsumers)
  refine ⟨acceptsSlot_guardSlot (by decide), text, hrendered, fun hfaithful => ?_⟩
  have hrefers := refersOutside_of_stepsFaithful hm hread hfaithful
  have hname : js "MUSI_VERIFY_CONSUMERS" ∈
      slotVariables (guardSlot (js "$MUSI_VERIFY_CONSUMERS")) := by
    decide +kernel
  have hassigned := (hrefers [] _ _ rfl _ hname).2.1
  exact hassigned (List.mem_append_left _ List.mem_cons_self)

end Musi.Harness
