import Musi.Js.JsonSyntax

namespace Musi.Harness
open Musi.Js
set_option autoImplicit true

/-! ## Where the hooks value is -/

/-- How many units the rest of an open string literal has, with its closing quote. -/
def findJsonStringEnd (escaped : Bool) : JsString → Option Nat
  | [] => none
  | c :: s =>
    if escaped then (findJsonStringEnd false s).map (· + 1)
    else if c = unit '\\' then (findJsonStringEnd true s).map (· + 1)
    else if c = unit '"' then some 1
    else (findJsonStringEnd false s).map (· + 1)

section
variable (N : Type) [JsNumber N]

/-- The value of the literal that a quote has opened, and the length of its rest. A blank one is an
error. -/
def parseJsonStringAt (s : JsString) : Option (JsString × Nat) :=
  match findJsonStringEnd false s with
  | none => none
  | some length =>
    match parseJson (unit '"' :: s.take length) with
    | some (.str value : Json N) => if trim value = [] then none else some (value, length)
    | _ => none

end

/-- The text behind a value. The first argument counts the units left of a string literal. -/
def findJsonValueEnd (skip : Nat) (depth : Int) : JsString → Option JsString
  | [] => none
  | c :: s =>
    if 0 < skip then findJsonValueEnd (skip - 1) depth s
    else if c = unit '"' then
      match findJsonStringEnd false s with
      | none => none
      | some length => findJsonValueEnd length depth s
    else if c = unit '{' ∨ c = unit '[' then findJsonValueEnd 0 (depth + 1) s
    else if c = unit '}' ∨ c = unit ']' then
      if depth - 1 = 0 then some s else findJsonValueEnd 0 (depth - 1) s
    else findJsonValueEnd 0 depth s

/-- The text from the value on, for the text behind the key. -/
def findHooksValueStart (s : JsString) : Option JsString :=
  match s.dropWhile isWhiteSpace with
  | [] => none
  | c :: s => if c = unit ':' then some (s.dropWhile isWhiteSpace) else none

/-- Whether a string starts where a key does, for the text before it, last unit first. -/
def isJsonObjectKeyPosition (seen : JsString) : Bool :=
  (seen.dropWhile isWhiteSpace).head? = some (unit '{') ||
    (seen.dropWhile isWhiteSpace).head? = some (unit ',')

/-- What the line of the key has before it, when that is blank. -/
def keyIndent (seen : JsString) : JsString :=
  let before := (seen.takeWhile fun c => c ≠ unit '\n').reverse
  if before.all fun c => c = unit ' ' || c = unit '\t' then before else []

/-- The texts on both sides of the value. -/
structure HooksRange where
  front : JsString
  back : JsString
  indent : JsString

/-- The range for a key at the front of the text, of which `length` units follow its first quote. -/
def hooksRange (seen text : JsString) (length : Nat) : Option HooksRange :=
  match findHooksValueStart (text.drop (length + 1)) with
  | none => none
  | some value =>
    (findJsonValueEnd 0 0 value).map fun back =>
      ⟨seen.reverse ++ text.take (text.length - value.length), back, keyIndent seen⟩

section
variable (N : Type) [JsNumber N]

def locateHooks (skip : Nat) (depth : Int) (seen : JsString) : JsString → Option HooksRange
  | [] => none
  | c :: s =>
    if 0 < skip then locateHooks (skip - 1) depth (c :: seen) s
    else if c = unit '"' then
      match parseJsonStringAt N s with
      | none => none
      | some (value, length) =>
        if depth = 1 ∧ value = js "hooks" ∧ isJsonObjectKeyPosition seen then
          hooksRange seen (c :: s) length
        else locateHooks length depth (c :: seen) s
    else if c = unit '{' then locateHooks 0 (depth + 1) (c :: seen) s
    else if c = unit '}' then locateHooks 0 (depth - 1) (c :: seen) s
    else locateHooks 0 depth (c :: seen) s

def findClaudeHooksRange (settingsText : JsString) : Option HooksRange :=
  match (parseJson settingsText : Option (Json N)) with
  | none => none
  | some _ => locateHooks N 0 0 [] settingsText

end

/-! ## The splice -/

def indentJsonValue (json baseIndent : JsString) : JsString :=
  match splitOn (unit '\n') json with
  | [] => []
  | first :: lines => join [unit '\n'] (first :: lines.map (baseIndent ++ ·))

def replaceClaudeHooksInSettings [JsNumber N] (settingsText : JsString) (hooks : Json N) :
    Option JsString :=
  match findClaudeHooksRange N settingsText with
  | none => none
  | some range =>
    let next := range.front ++ indentJsonValue (stringifyIndented hooks) range.indent ++ range.back
    match (parseJson next : Option (Json N)) with
    | none => none
    | some _ => some next

/-! ## Strings -/

theorem hexValue_plain {c : UInt16} {n : Nat} (h : hexValue c = some n) :
    c ≠ unit '\\' ∧ c ≠ unit '"' := by
  constructor
  · rintro rfl
    have hnone : hexValue (unit '\\') = none := by decide
    rw [hnone] at h
    cases h
  · rintro rfl
    have hnone : hexValue (unit '"') = none := by decide
    rw [hnone] at h
    cases h

theorem findJsonStringEnd_plain {c : UInt16} (hbackslash : c ≠ unit '\\') (hquote : c ≠ unit '"')
    (s : JsString) :
    findJsonStringEnd false (c :: s) = (findJsonStringEnd false s).map (· + 1) := by
  rw [findJsonStringEnd, if_neg Bool.false_ne_true, if_neg hbackslash, if_neg hquote]

theorem findJsonStringEnd_escape (c : UInt16) (s : JsString) :
    findJsonStringEnd false (unit '\\' :: c :: s) = (findJsonStringEnd false s).map (· + 2) := by
  rw [findJsonStringEnd, if_neg Bool.false_ne_true, if_pos rfl, findJsonStringEnd, if_pos rfl,
    Option.map_map]
  rfl

theorem findJsonStringEnd_body {body value : JsString} (h : StringBody body value) (rest : JsString) :
    findJsonStringEnd false (body ++ unit '"' :: rest) = some (body.length + 1) := by
  induction h with
  | nil => rfl
  | raw hquote hbackslash _ _ ih =>
    rw [List.cons_append, findJsonStringEnd_plain hbackslash hquote, ih]
    rfl
  | simple _ _ _ ih =>
    rw [List.cons_append, List.cons_append, findJsonStringEnd_escape, ih]
    rfl
  | unicode h₁ h₂ h₃ h₄ _ ih =>
    simp only [List.cons_append]
    rw [findJsonStringEnd_escape, findJsonStringEnd_plain (hexValue_plain h₁).1 (hexValue_plain h₁).2,
      findJsonStringEnd_plain (hexValue_plain h₂).1 (hexValue_plain h₂).2,
      findJsonStringEnd_plain (hexValue_plain h₃).1 (hexValue_plain h₃).2,
      findJsonStringEnd_plain (hexValue_plain h₄).1 (hexValue_plain h₄).2, ih]
    rfl

theorem length_print (text : StringText) : text.print.length = text.body.length + 2 := by
  rw [StringText.print, List.length_cons, List.length_append]
  rfl

variable {N : Type} [JsNumber N]

theorem parseJsonStringAt_body (text : StringText) (rest : JsString) :
    parseJsonStringAt N (text.body ++ unit '"' :: rest) =
      if trim text.value = [] then none else some (text.value, text.body.length + 1) := by
  have htake : (text.body ++ unit '"' :: rest).take (text.body.length + 1) =
      text.body ++ [unit '"'] := by
    have hrest : text.body ++ unit '"' :: rest = (text.body ++ [unit '"']) ++ rest := by
      rw [List.append_assoc]
      rfl
    rw [hrest]
    exact List.take_left' List.length_append
  have hparse : (parseJson (unit '"' :: (text.body ++ [unit '"'])) : Option (Json N)) =
      some (.str text.value) := by
    have h := JsonText.parseJson_print (N := N) (.str text) ⟨[], rfl⟩ ⟨[], rfl⟩
    rw [List.nil_append, List.append_nil, JsonText.print, StringText.print] at h
    exact h
  rw [parseJsonStringAt, findJsonStringEnd_body text.valid]
  simp only [htake, hparse]

/-! ## Scanning up to the key -/

section
variable {d : Int} {seen : JsString}

theorem locateHooks_skip (u s : JsString) (skip : Nat) (h : u.length = skip) :
    locateHooks N skip d seen (u ++ s) = locateHooks N 0 d (u.reverse ++ seen) s := by
  induction u generalizing skip seen with
  | nil =>
    cases h
    rfl
  | cons c u ih =>
    rw [List.length_cons] at h
    rw [List.cons_append, locateHooks, if_pos (by omega), ih (skip - 1) (by omega), List.reverse_cons,
      List.append_assoc]
    rfl

/-- Units that change neither the depth nor begin a string. -/
def isNeutral (c : UInt16) : Bool := c ≠ unit '"' && c ≠ unit '{' && c ≠ unit '}'

theorem locateHooks_plain {u : JsString} (h : u.all isNeutral = true) (s : JsString) :
    locateHooks N 0 d seen (u ++ s) = locateHooks N 0 d (u.reverse ++ seen) s := by
  induction u generalizing seen with
  | nil => rfl
  | cons c u ih =>
    rw [List.all_cons, Bool.and_eq_true, isNeutral, Bool.and_eq_true, Bool.and_eq_true, decide_eq_true_eq,
      decide_eq_true_eq, decide_eq_true_eq] at h
    obtain ⟨⟨⟨hquote, hopen⟩, hclose⟩, hrest⟩ := h
    rw [List.cons_append, locateHooks, if_neg (Nat.lt_irrefl 0), if_neg hquote, if_neg hopen,
      if_neg hclose, ih hrest, List.reverse_cons, List.append_assoc]
    rfl

theorem blank_plain (blank : Blank) : blank.text.all isNeutral = true := by
  rw [List.all_eq_true]
  intro c hc
  have hspace := List.all_eq_true.1 blank.space c hc
  simp only [isJsonSpace, Bool.or_eq_true, decide_eq_true_eq] at hspace
  rcases hspace with ((rfl | rfl) | rfl) | rfl
  · decide
  · decide
  · decide
  · decide

theorem locateHooks_string (text : StringText) (rest : JsString) :
    locateHooks N 0 d seen (text.print ++ rest) =
      if trim text.value = [] then none
      else if d = 1 ∧ text.value = js "hooks" ∧ isJsonObjectKeyPosition seen = true then
        hooksRange seen (text.print ++ rest) (text.body.length + 1)
      else locateHooks N 0 d (text.print.reverse ++ seen) rest := by
  have hprint : text.print ++ rest = unit '"' :: (text.body ++ unit '"' :: rest) := by
    rw [StringText.print, List.cons_append, List.append_assoc]
    rfl
  have hrest : text.body ++ unit '"' :: rest = (text.body ++ [unit '"']) ++ rest := by
    rw [List.append_assoc]
    rfl
  rw [hprint, locateHooks, if_neg (Nat.lt_irrefl 0), if_pos rfl, parseJsonStringAt_body]
  by_cases hblank : trim text.value = []
  · rw [if_pos hblank, if_pos hblank]
  · rw [if_neg hblank, if_neg hblank]
    dsimp only
    split
    · rfl
    · rw [hrest, locateHooks_skip (text.body ++ [unit '"']) rest (text.body.length + 1)
        List.length_append, StringText.print, List.reverse_cons,
        List.append_assoc]
      rfl

end

/-! ## Values that the scan gets through -/

def isHooks : JsonText → Bool
  | .str text => text.value = js "hooks"
  | _ => false

mutual

/-- No string in the value is blank and, where the depth counts as that of the settings, no item
but the first of an array is the string `hooks`. -/
def scans (top : Bool) : JsonText → Bool
  | .scalar _ => true
  | .str text => trim text.value ≠ []
  | .arr _ items => scansItems top true items
  | .obj _ members => scansMembers members
termination_by structural t => t

def scansItems (top first : Bool) : List (ItemText JsonText) → Bool
  | [] => true
  | item :: items => scansItem top first item && scansItems top false items
termination_by structural t => t

def scansItem (top first : Bool) : ItemText JsonText → Bool
  | ⟨_, value, _⟩ => scans top value && !(top && !first && isHooks value)
termination_by structural t => t

def scansMembers : List (MemberText JsonText) → Bool
  | [] => true
  | member :: members => scansMember false member && scansMembers members
termination_by structural t => t

def scansMember (top : Bool) : MemberText JsonText → Bool
  | ⟨_, key, _, _, value, _⟩ => trim key.value ≠ [] && scans top value
termination_by structural t => t

end

section
variable {d : Int} {seen rest : JsString}

theorem isWhiteSpace_of_isJsonSpace {c : UInt16} (h : isJsonSpace c = true) : isWhiteSpace c = true := by
  simp only [isJsonSpace, Bool.or_eq_true, decide_eq_true_eq] at h
  rcases h with ((rfl | rfl) | rfl) | rfl
  · decide
  · decide
  · decide
  · decide

theorem dropWhile_blank (blank : Blank) (s : JsString) :
    (blank.text ++ s).dropWhile isWhiteSpace = s.dropWhile isWhiteSpace :=
  List.dropWhile_append_of_pos fun c hc =>
    isWhiteSpace_of_isJsonSpace (List.all_eq_true.1 blank.space c hc)

theorem dropWhile_blank_reverse (blank : Blank) (s : JsString) :
    (blank.text.reverse ++ s).dropWhile isWhiteSpace = s.dropWhile isWhiteSpace :=
  List.dropWhile_append_of_pos fun c hc =>
    isWhiteSpace_of_isJsonSpace (List.all_eq_true.1 blank.space c (List.mem_reverse.1 hc))

/-- Only the unit before the blank counts. -/
theorem isJsonObjectKeyPosition_blank (blank : Blank) {c : UInt16} (hc : isWhiteSpace c = false) :
    isJsonObjectKeyPosition (blank.text.reverse ++ c :: seen) = (c = unit '{' || c = unit ',') := by
  rw [isJsonObjectKeyPosition, dropWhile_blank_reverse, List.dropWhile_cons_of_neg (by rw [hc]; decide),
    List.head?_cons]
  simp only [Option.some.injEq]

/-- A string that is no key has something else than a colon behind it. -/
theorem hooksRange_none (text : StringText) (blank : Blank) {c : UInt16} (hspace : isWhiteSpace c = false)
    (hcolon : c ≠ unit ':') :
    hooksRange seen (text.print ++ (blank.text ++ c :: rest)) (text.body.length + 1) = none := by
  have hdrop : (text.print ++ (blank.text ++ c :: rest)).drop (text.body.length + 1 + 1) =
      blank.text ++ c :: rest := List.drop_left' (length_print text)
  have hstart : findHooksValueStart (blank.text ++ c :: rest) = none := by
    rw [findHooksValueStart, dropWhile_blank, List.dropWhile_cons_of_neg (by rw [hspace]; decide)]
    exact if_neg hcolon
  rw [hooksRange, hdrop, hstart]

/-- The scan goes on behind the text when it gets through it, and fails when not. -/
def Scanned (N : Type) [JsNumber N] (d : Int) (seen text rest : JsString) (through : Bool) : Prop :=
  locateHooks N 0 d seen (text ++ rest) =
    if through = true then locateHooks N 0 d (text.reverse ++ seen) rest else none

theorem Scanned.plain {text : JsString} (h : text.all isNeutral = true) :
    Scanned N d seen text rest true := by
  rw [Scanned, if_pos rfl, locateHooks_plain h]

theorem Scanned.append {first second : JsString} {through through' : Bool}
    (hfirst : Scanned N d seen first (second ++ rest) through)
    (hsecond : Scanned N d (first.reverse ++ seen) second rest through') :
    Scanned N d seen (first ++ second) rest (through && through') := by
  rw [Scanned] at hfirst hsecond ⊢
  rw [List.append_assoc, hfirst]
  cases through with
  | false => rfl
  | true =>
    rw [if_pos rfl, hsecond, List.reverse_append, List.append_assoc]
    rfl

theorem Scanned.string (text : StringText)
    (h : trim text.value ≠ [] → d = 1 → text.value = js "hooks" → isJsonObjectKeyPosition seen = false) :
    Scanned N d seen text.print rest (trim text.value ≠ []) := by
  rw [Scanned, locateHooks_string]
  by_cases hblank : trim text.value = []
  · rw [if_pos hblank, if_neg (by rw [decide_eq_true_eq, not_not]; exact hblank)]
  · rw [if_neg hblank, if_pos (decide_eq_true hblank), if_neg]
    rintro ⟨hd, hvalue, hposition⟩
    rw [h hblank hd hvalue] at hposition
    cases hposition

theorem Scanned.congr {text : JsString} {through through' : Bool}
    (h : Scanned N d seen text rest through) (heq : through = through') :
    Scanned N d seen text rest through' := heq ▸ h

theorem scalar_plain (text : ScalarText) : text.text.all isNeutral = true := by
  obtain ⟨s, rfl | rfl | rfl | hs⟩ := text
  · decide
  · decide
  · decide
  · rw [List.all_eq_true]
    intro c hc
    have hunit := List.all_eq_true.1 (isNumeral_numberUnits hs).2 c hc
    rw [isNeutral, Bool.and_eq_true, Bool.and_eq_true, decide_eq_true_eq, decide_eq_true_eq,
      decide_eq_true_eq]
    refine ⟨⟨?_, ?_⟩, ?_⟩
    · rintro rfl
      exact absurd hunit (by decide)
    · rintro rfl
      exact absurd hunit (by decide)
    · rintro rfl
      exact absurd hunit (by decide)

/-- What the scan does with a value, wherever the value may stand. -/
def GetsThrough (N : Type) [JsNumber N] (value : JsonText) : Prop :=
  ∀ {d : Int} {seen rest : JsString}, 1 ≤ d →
    (d = 1 → isHooks value = true → isJsonObjectKeyPosition seen = false) →
      Scanned N d seen value.print rest (scans (d = 1) value)

theorem scanned_member {member : MemberText JsonText} (hvalue : GetsThrough N member.value)
    (hd : 1 ≤ d) (hkey : d = 1 → member.key.value ≠ js "hooks") :
    Scanned N d seen (JsonText.printMember member) rest (scansMember (d = 1) member) := by
  obtain ⟨before, key, beforeColon, beforeValue, value, after⟩ := member
  have hbehind : JsonText.printMember ⟨before, key, beforeColon, beforeValue, value, after⟩ =
      before.text ++ (key.print ++ ((beforeColon.text ++ [unit ':']) ++ (beforeValue.text ++
        (value.print ++ after.text)))) := by
    rw [JsonText.printMember, List.append_assoc]
    rfl
  have hcolon : (beforeColon.text ++ [unit ':']).all isNeutral = true := by
    rw [List.all_append, blank_plain]
    rfl
  rw [hbehind]
  have hposition (more : JsString) : isJsonObjectKeyPosition
      (beforeValue.text.reverse ++ ((beforeColon.text ++ [unit ':']).reverse ++ more)) = false := by
    rw [List.reverse_append, List.append_assoc]
    exact isJsonObjectKeyPosition_blank beforeValue (by decide)
  refine (Scanned.plain (blank_plain before)).append (((Scanned.string key fun _ htop hhooks =>
    absurd hhooks (hkey htop)).append ((Scanned.plain hcolon).append ((Scanned.plain
      (blank_plain beforeValue)).append ((hvalue hd fun _ _ => hposition _).append
        (Scanned.plain (blank_plain after))))))) |>.congr ?_
  rw [scansMember, Bool.true_and, Bool.true_and, Bool.true_and, Bool.and_true]

theorem scanned_members {members : List (MemberText JsonText)}
    (hvalues : ∀ member ∈ members, GetsThrough N member.value) (hd : 1 < d) :
    Scanned N d seen (members.flatMap fun member => unit ',' :: JsonText.printMember member) rest
      (scansMembers members) := by
  induction members generalizing seen with
  | nil => exact Scanned.plain rfl
  | cons member members ih =>
    rw [List.forall_mem_cons] at hvalues
    have hcomma : ([unit ','] : JsString).all isNeutral = true := rfl
    have hmember : Scanned N d (unit ',' :: seen) (JsonText.printMember member)
        (members.flatMap (fun member => unit ',' :: JsonText.printMember member) ++ rest)
        (scansMember (d = 1) member) :=
      scanned_member hvalues.1 hd.le fun heq => absurd heq hd.ne'
    refine (((Scanned.plain hcomma).append hmember).append (ih hvalues.2)).congr ?_
    rw [scansMembers, Bool.true_and, decide_eq_false hd.ne']

/-- An item does not look like a key: it is the first one, or no colon is behind it. -/
theorem scanned_item {item : ItemText JsonText} {first : Bool} (hvalue : GetsThrough N item.value)
    (hd : 1 ≤ d) {c : UInt16} (hspace : isWhiteSpace c = false) (hcolon : c ≠ unit ':')
    (hseen : seen.head? = some (if first = true then unit '[' else unit ',')) :
    Scanned N d seen (JsonText.printItem item) (c :: rest) (scansItem (d = 1) first item) := by
  obtain ⟨before, value, after⟩ := item
  obtain ⟨seen, rfl⟩ := List.head?_eq_some_iff.1 hseen
  have hbefore : Scanned N d ((if first = true then unit '[' else unit ',') :: seen) before.text
      (value.print ++ after.text ++ c :: rest) true := Scanned.plain (blank_plain before)
  rw [JsonText.printItem]
  by_cases hkey : d = 1 ∧ first = false ∧ isHooks value = true
  · obtain ⟨hd, rfl, hhooks⟩ := hkey
    cases value with
    | str text =>
      have htext : text.value = js "hooks" := of_decide_eq_true hhooks
      have hblank : trim text.value ≠ [] := by
        rw [htext]
        decide
      have hposition : isJsonObjectKeyPosition (before.text.reverse ++ unit ',' :: seen) = true := by
        rw [isJsonObjectKeyPosition_blank before (by decide)]
        rfl
      have hstring : Scanned N d (before.text.reverse ++ unit ',' :: seen)
          (text.print ++ after.text) (c :: rest) false := by
        rw [Scanned, List.append_assoc, locateHooks_string, if_neg hblank, if_pos ⟨hd, htext, hposition⟩,
          hooksRange_none text after hspace hcolon]
        rfl
      refine (hbefore.append hstring).congr ?_
      rw [scansItem, decide_eq_true hd, hhooks]
      exact (Bool.and_false _).symm
    | _ => cases hhooks
  · have hposition : d = 1 → isHooks value = true → isJsonObjectKeyPosition (before.text.reverse ++
        (if first = true then unit '[' else unit ',') :: seen) = false := by
      intro hd hhooks
      have hfirst : first = true := by
        rw [← Bool.not_eq_false]
        exact fun hfirst => hkey ⟨hd, hfirst, hhooks⟩
      rw [if_pos hfirst, isJsonObjectKeyPosition_blank before (by decide)]
      rfl
    refine (hbefore.append ((hvalue hd hposition).append (Scanned.plain (blank_plain after)))).congr ?_
    rw [scansItem, Bool.true_and, Bool.and_true]
    have hnot : ((decide (d = 1) && !first) && isHooks value) = false := by
      rw [Bool.eq_false_iff]
      intro h
      rw [Bool.and_eq_true, Bool.and_eq_true, decide_eq_true_eq, Bool.not_eq_true'] at h
      exact hkey ⟨h.1.1, h.1.2, h.2⟩
    rw [hnot]
    exact (Bool.and_true _).symm

theorem scanned_laterItems {items : List (ItemText JsonText)}
    (hvalues : ∀ item ∈ items, GetsThrough N item.value) (hd : 1 ≤ d) :
    Scanned N d seen (items.flatMap fun item => unit ',' :: JsonText.printItem item)
      (unit ']' :: rest) (scansItems (d = 1) false items) := by
  induction items generalizing seen with
  | nil => exact Scanned.plain rfl
  | cons item items ih =>
    rw [List.forall_mem_cons] at hvalues
    have hcomma : ([unit ','] : JsString).all isNeutral = true := rfl
    have hitem : Scanned N d (unit ',' :: seen) (JsonText.printItem item)
        (items.flatMap (fun item => unit ',' :: JsonText.printItem item) ++ unit ']' :: rest)
        (scansItem (d = 1) false item) := by
      cases items with
      | nil => exact scanned_item hvalues.1 hd (by decide) (by decide) rfl
      | cons next items => exact scanned_item hvalues.1 hd (by decide) (by decide) rfl
    exact (((Scanned.plain hcomma).append hitem).append (ih hvalues.2)).congr rfl

theorem listed_cons (blank : Blank) (text : JsString) (texts : List JsString) :
    listed blank (text :: texts) = text ++ texts.flatMap (unit ',' :: ·) := by
  rw [listed, if_neg (List.cons_ne_nil _ _)]
  induction texts generalizing text with
  | nil => exact (List.append_nil text).symm
  | cons next texts ih =>
    rw [join, ih, List.flatMap_cons, List.append_assoc]
    rfl

theorem listed_items (blank : Blank) (item : ItemText JsonText) (items : List (ItemText JsonText)) :
    listed blank (JsonText.printItems (item :: items)) =
      JsonText.printItem item ++ items.flatMap fun item => unit ',' :: JsonText.printItem item := by
  rw [JsonText.printItems_eq, List.map_cons, listed_cons, List.flatMap_map]

theorem listed_members (blank : Blank) (member : MemberText JsonText)
    (members : List (MemberText JsonText)) :
    listed blank (JsonText.printMembers (member :: members)) = JsonText.printMember member ++
      members.flatMap fun member => unit ',' :: JsonText.printMember member := by
  rw [JsonText.printMembers_eq, List.map_cons, listed_cons, List.flatMap_map]

theorem scanned_braces {inner : JsString} {through : Bool}
    (h : Scanned N (d + 1) (unit '{' :: seen) inner (unit '}' :: rest) through) :
    Scanned N d seen (unit '{' :: (inner ++ [unit '}'])) rest through := by
  have hopen (s : JsString) :
      locateHooks N 0 d seen (unit '{' :: s) = locateHooks N 0 (d + 1) (unit '{' :: seen) s := by
    rw [locateHooks, if_neg (Nat.lt_irrefl 0), if_neg (by decide), if_pos rfl]
  have hclose (seen : JsString) : locateHooks N 0 (d + 1) seen (unit '}' :: rest) =
      locateHooks N 0 d (unit '}' :: seen) rest := by
    rw [locateHooks, if_neg (Nat.lt_irrefl 0), if_neg (by decide), if_neg (by decide), if_pos rfl,
      add_sub_cancel_right]
  rw [Scanned] at h ⊢
  rw [List.cons_append, hopen, List.append_assoc]
  refine h.trans ?_
  rw [hclose, List.reverse_cons, List.reverse_append, List.append_assoc, List.append_assoc]
  rfl

theorem getsThrough (value : JsonText) : GetsThrough N value := by
  intro d seen rest hd hposition
  induction value using JsonText.induct generalizing d seen rest with
  | scalar text => exact Scanned.plain (scalar_plain text)
  | str text =>
    exact Scanned.string text fun _ hd hhooks => hposition hd (decide_eq_true hhooks)
  | arr blank items ih =>
    have hopen : ([unit '['] : JsString).all isNeutral = true := rfl
    have hclose : ([unit ']'] : JsString).all isNeutral = true := rfl
    have hinside : Scanned N d (unit '[' :: seen) (listed blank (JsonText.printItems items))
        (unit ']' :: rest) (scansItems (d = 1) true items) := by
      cases items with
      | nil => exact Scanned.plain (blank_plain blank)
      | cons item items =>
        have hvalues : ∀ item ∈ items, GetsThrough N item.value := fun item hitem =>
          fun hd hposition => ih item (List.mem_cons_of_mem _ hitem) hd hposition
        have hfirst : GetsThrough N item.value := fun hd hposition =>
          ih item List.mem_cons_self hd hposition
        rw [listed_items]
        have hitem : Scanned N d (unit '[' :: seen) (JsonText.printItem item)
            (items.flatMap (fun item => unit ',' :: JsonText.printItem item) ++ unit ']' :: rest)
            (scansItem (d = 1) true item) := by
          cases items with
          | nil => exact scanned_item hfirst hd (by decide) (by decide) rfl
          | cons next items => exact scanned_item hfirst hd (by decide) (by decide) rfl
        exact hitem.append (scanned_laterItems hvalues hd)
    refine ((Scanned.plain hopen).append (hinside.append (Scanned.plain hclose))).congr ?_
    rw [scans, Bool.true_and, Bool.and_true]
  | obj blank members ih =>
    rw [JsonText.print, scans]
    apply scanned_braces
    cases members with
    | nil => exact Scanned.plain (blank_plain blank)
    | cons member members =>
      have hvalues : ∀ member ∈ members, GetsThrough N member.value := fun member hmember =>
        fun hd hposition => ih member (List.mem_cons_of_mem _ hmember) hd hposition
      have hfirst : GetsThrough N member.value := fun hd hposition =>
        ih member List.mem_cons_self hd hposition
      have hinner : d + 1 ≠ 1 := by omega
      rw [listed_members, scansMembers]
      have hmember : Scanned N (d + 1) (unit '{' :: seen) (JsonText.printMember member)
          (members.flatMap (fun member => unit ',' :: JsonText.printMember member) ++ unit '}' :: rest)
          (scansMember (d + 1 = 1) member) :=
        scanned_member hfirst (by omega) fun heq => absurd heq hinner
      rw [decide_eq_false hinner] at hmember
      exact hmember.append (scanned_members hvalues (by omega))

end

end Musi.Harness
