import Musi.Harness.HookSettings
import Musi.Js.JsonLines

namespace Musi.Harness
open Musi.Js
set_option autoImplicit true

/-! ## The end of a value -/

section
variable {d : Int} {rest : JsString}

theorem findJsonValueEnd_skip (u s : JsString) (skip : Nat) (h : u.length = skip) :
    findJsonValueEnd skip d (u ++ s) = findJsonValueEnd 0 d s := by
  induction u generalizing skip with
  | nil =>
    cases h
    rfl
  | cons c u ih =>
    rw [List.length_cons] at h
    rw [List.cons_append, findJsonValueEnd, if_pos (by omega), ih (skip - 1) (by omega)]

/-- The scan for the end goes through the text at this depth. -/
def Passes (d : Int) (text : JsString) : Prop :=
  ∀ rest, findJsonValueEnd 0 d (text ++ rest) = findJsonValueEnd 0 d rest

theorem Passes.append {first second : JsString} (hfirst : Passes d first) (hsecond : Passes d second) :
    Passes d (first ++ second) := by
  intro rest
  rw [List.append_assoc, hfirst, hsecond]

theorem Passes.flatMap {f : α → JsString} {l : List α} (h : ∀ a ∈ l, Passes d (f a)) :
    Passes d (l.flatMap f) := by
  induction l with
  | nil => exact fun _ => rfl
  | cons a l ih =>
    rw [List.forall_mem_cons] at h
    exact h.1.append (ih h.2)

def isUnbracketed (c : UInt16) : Bool :=
  c ≠ unit '"' && c ≠ unit '{' && c ≠ unit '[' && c ≠ unit '}' && c ≠ unit ']'

theorem Passes.plain {text : JsString} (h : text.all isUnbracketed = true) : Passes d text := by
  intro rest
  induction text with
  | nil => rfl
  | cons c text ih =>
    rw [List.all_cons, Bool.and_eq_true] at h
    obtain ⟨hc, htext⟩ := h
    simp only [isUnbracketed, Bool.and_eq_true, decide_eq_true_eq] at hc
    obtain ⟨⟨⟨⟨hquote, hbrace⟩, hbracket⟩, hbrace'⟩, hbracket'⟩ := hc
    rw [List.cons_append, findJsonValueEnd, if_neg (Nat.lt_irrefl 0), if_neg hquote,
      if_neg (not_or.2 ⟨hbrace, hbracket⟩), if_neg (not_or.2 ⟨hbrace', hbracket'⟩), ih htext]

theorem Passes.string (text : StringText) : Passes d text.print := by
  intro rest
  have hprint : text.print ++ rest = unit '"' :: (text.body ++ unit '"' :: rest) := by
    rw [StringText.print, List.cons_append, List.append_assoc]
    rfl
  have hrest : text.body ++ unit '"' :: rest = (text.body ++ [unit '"']) ++ rest := by
    rw [List.append_assoc]
    rfl
  rw [hprint, findJsonValueEnd, if_neg (Nat.lt_irrefl 0), if_pos rfl, findJsonStringEnd_body text.valid]
  dsimp only
  rw [hrest]
  exact findJsonValueEnd_skip (text.body ++ [unit '"']) rest (text.body.length + 1) List.length_append

theorem Passes.blank (blank : Blank) : Passes d blank.text := by
  apply Passes.plain
  rw [List.all_eq_true]
  intro c hc
  have hspace := List.all_eq_true.1 blank.space c hc
  simp only [isJsonSpace, Bool.or_eq_true, decide_eq_true_eq] at hspace
  rcases hspace with ((rfl | rfl) | rfl) | rfl
  · decide
  · decide
  · decide
  · decide

theorem Passes.scalar (text : ScalarText) : Passes d text.text := by
  apply Passes.plain
  obtain ⟨s, rfl | rfl | rfl | hs⟩ := text
  · decide
  · decide
  · decide
  · rw [List.all_eq_true]
    intro c hc
    have hunit := List.all_eq_true.1 (isNumeral_numberUnits hs).2 c hc
    have hne {x : UInt16} (hx : isNumberUnit x = false) : c ≠ x := by
      rintro rfl
      rw [hx] at hunit
      cases hunit
    simp only [isUnbracketed, Bool.and_eq_true, decide_eq_true_eq]
    exact ⟨⟨⟨⟨hne (by decide), hne (by decide)⟩, hne (by decide)⟩, hne (by decide)⟩, hne (by decide)⟩

/-- The two pairs of brackets. -/
def IsBrackets (opening closing : UInt16) : Prop :=
  opening = unit '{' ∧ closing = unit '}' ∨ opening = unit '[' ∧ closing = unit ']'

/-- The scan goes from an opening bracket to the closing one, and ends there at depth zero. -/
theorem findJsonValueEnd_brackets {opening closing : UInt16} (h : IsBrackets opening closing)
    {inner : JsString} (hinner : Passes (d + 1) inner) :
    findJsonValueEnd 0 d (opening :: (inner ++ [closing]) ++ rest) =
      if d = 0 then some rest else findJsonValueEnd 0 d rest := by
  have hopen (s : JsString) : findJsonValueEnd 0 d (opening :: s) = findJsonValueEnd 0 (d + 1) s := by
    have hopening : opening = unit '{' ∨ opening = unit '[' := h.imp And.left And.left
    have hquote : opening ≠ unit '"' := by
      rcases hopening with rfl | rfl
      · decide
      · decide
    rw [findJsonValueEnd, if_neg (Nat.lt_irrefl 0), if_neg hquote, if_pos hopening]
  have hclose (s : JsString) : findJsonValueEnd 0 (d + 1) (closing :: s) =
      if d = 0 then some s else findJsonValueEnd 0 d s := by
    have hclosing : closing = unit '}' ∨ closing = unit ']' := h.imp And.right And.right
    have hnot : closing ≠ unit '"' ∧ ¬(closing = unit '{' ∨ closing = unit '[') := by
      rcases hclosing with rfl | rfl
      · decide
      · decide
    rw [findJsonValueEnd, if_neg (Nat.lt_irrefl 0), if_neg hnot.1, if_neg hnot.2, if_pos hclosing,
      add_sub_cancel_right]
  rw [List.cons_append, hopen, List.append_assoc, hinner]
  exact hclose rest

end

def isBracketed : JsonText → Bool
  | .arr _ _ => true
  | .obj _ _ => true
  | _ => false

section
variable {d : Int}

theorem Passes.item {item : ItemText JsonText} (h : Passes d item.value.print) :
    Passes d (JsonText.printItem item) := by
  obtain ⟨before, value, after⟩ := item
  exact (Passes.blank before).append (h.append (Passes.blank after))

theorem Passes.member {member : MemberText JsonText} (h : Passes d member.value.print) :
    Passes d (JsonText.printMember member) := by
  obtain ⟨before, key, beforeColon, beforeValue, value, after⟩ := member
  have hcolon : Passes d [unit ':'] := Passes.plain (by decide)
  exact (Passes.blank before).append ((Passes.string key).append ((Passes.blank beforeColon).append
    (hcolon.append ((Passes.blank beforeValue).append (h.append (Passes.blank after))))))

theorem Passes.commas {f : α → JsString} {l : List α} (h : ∀ a ∈ l, Passes d (f a)) :
    Passes d (l.flatMap fun a => unit ',' :: f a) := by
  have hcomma : Passes d [unit ','] := Passes.plain (by decide)
  exact Passes.flatMap fun a ha => hcomma.append (h a ha)

theorem Passes.items {blank : Blank} {items : List (ItemText JsonText)}
    (h : ∀ item ∈ items, Passes d item.value.print) :
    Passes d (listed blank (JsonText.printItems items)) := by
  cases items with
  | nil => exact Passes.blank blank
  | cons item items =>
    rw [List.forall_mem_cons] at h
    rw [listed_items]
    exact h.1.item.append (Passes.commas fun item hitem => (h.2 item hitem).item)

theorem Passes.members {blank : Blank} {members : List (MemberText JsonText)}
    (h : ∀ member ∈ members, Passes d member.value.print) :
    Passes d (listed blank (JsonText.printMembers members)) := by
  cases members with
  | nil => exact Passes.blank blank
  | cons member members =>
    rw [List.forall_mem_cons] at h
    rw [listed_members]
    exact h.1.member.append (Passes.commas fun member hmember => (h.2 member hmember).member)

theorem Passes.value (value : JsonText) (hd : 0 < d) : Passes d value.print := by
  induction value using JsonText.induct generalizing d with
  | scalar text => exact Passes.scalar text
  | str text => exact Passes.string text
  | arr blank items ih =>
    intro rest
    have hitems : Passes (d + 1) (listed blank (JsonText.printItems items)) :=
      Passes.items fun item hitem => ih item hitem (by omega)
    rw [JsonText.print, findJsonValueEnd_brackets (.inr ⟨rfl, rfl⟩) hitems, if_neg hd.ne']
  | obj blank members ih =>
    intro rest
    have hmembers : Passes (d + 1) (listed blank (JsonText.printMembers members)) :=
      Passes.members fun member hmember => ih member hmember (by omega)
    rw [JsonText.print, findJsonValueEnd_brackets (.inl ⟨rfl, rfl⟩) hmembers, if_neg hd.ne']

/-- From its start the end of an array or an object is found, and that of any other value is not. -/
theorem findJsonValueEnd_value (value : JsonText) (rest : JsString) :
    findJsonValueEnd 0 0 (value.print ++ rest) =
      if isBracketed value = true then some rest else findJsonValueEnd 0 0 rest := by
  cases value with
  | scalar text => exact Passes.scalar text rest
  | str text => exact Passes.string text rest
  | arr blank items =>
    have hitems : Passes (0 + 1) (listed blank (JsonText.printItems items)) :=
      Passes.items fun item _ => Passes.value item.value (by omega)
    rw [JsonText.print, findJsonValueEnd_brackets (.inr ⟨rfl, rfl⟩) hitems]
    rfl
  | obj blank members =>
    have hmembers : Passes (0 + 1) (listed blank (JsonText.printMembers members)) :=
      Passes.members fun member _ => Passes.value member.value (by omega)
    rw [JsonText.print, findJsonValueEnd_brackets (.inl ⟨rfl, rfl⟩) hmembers]
    rfl

end

theorem findJsonValueEnd_length {skip : Nat} {d : Int} {s rest : JsString}
    (h : findJsonValueEnd skip d s = some rest) : rest.length < s.length := by
  induction s generalizing skip d with
  | nil => cases h
  | cons c s ih =>
    rw [findJsonValueEnd] at h
    split at h
    · exact (ih h).trans (Nat.lt_succ_self _)
    · split at h
      · split at h
        · cases h
        · exact (ih h).trans (Nat.lt_succ_self _)
      · split at h
        · exact (ih h).trans (Nat.lt_succ_self _)
        · split at h
          · split at h
            · cases h
              exact Nat.lt_succ_self _
            · exact (ih h).trans (Nat.lt_succ_self _)
          · exact (ih h).trans (Nat.lt_succ_self _)

/-! ## Laying out a value under an indentation -/

/-- Every line but the first gets the indentation. -/
def reindent (baseIndent s : JsString) : JsString :=
  s.flatMap fun c => if c = unit '\n' then unit '\n' :: baseIndent else [c]

theorem reindent_cons (baseIndent : JsString) (c : UInt16) (s : JsString) :
    reindent baseIndent (c :: s) =
      (if c = unit '\n' then unit '\n' :: baseIndent else [c]) ++ reindent baseIndent s :=
  List.flatMap_cons

theorem reindent_append (baseIndent s t : JsString) :
    reindent baseIndent (s ++ t) = reindent baseIndent s ++ reindent baseIndent t :=
  List.flatMap_append

theorem reindent_plain (baseIndent : JsString) {s : JsString} (h : unit '\n' ∉ s) :
    reindent baseIndent s = s := by
  induction s with
  | nil => rfl
  | cons c s ih =>
    rw [List.mem_cons, not_or] at h
    rw [reindent_cons, if_neg (Ne.symm h.1), ih h.2]
    rfl

theorem join_append_head (s t : JsString) (ts : List JsString) :
    join [unit '\n'] ((s ++ t) :: ts) = s ++ join [unit '\n'] (t :: ts) := by
  cases ts with
  | nil => rfl
  | cons next ts => rw [join, join, List.append_assoc, List.append_assoc, List.append_assoc]

theorem indentJsonValue_eq (json baseIndent : JsString) :
    indentJsonValue json baseIndent = reindent baseIndent json := by
  induction json with
  | nil => rfl
  | cons c json ih =>
    rw [indentJsonValue] at ih ⊢
    rw [splitOn, reindent_cons]
    have hne := splitOn_ne_nil (unit '\n') json
    cases hsplit : splitOn (unit '\n') json with
    | nil => exact absurd hsplit hne
    | cons first lines =>
      rw [hsplit] at ih
      dsimp only at ih
      by_cases hc : c = unit '\n'
      · rw [if_pos hc, if_pos hc, ← ih]
        dsimp only
        rw [List.map_cons, join, join_append_head]
        rfl
      · rw [if_neg hc, if_neg hc, ← ih]
        exact join_append_head [c] first (lines.map (baseIndent ++ ·))

theorem reindent_join (baseIndent sep : JsString) (texts : List JsString) :
    reindent baseIndent (join sep texts) =
      join (reindent baseIndent sep) (texts.map (reindent baseIndent)) := by
  induction texts with
  | nil => rfl
  | cons text texts ih =>
    cases texts with
    | nil => rfl
    | cons next texts =>
      rw [join, reindent_append, reindent_append, ih]
      rfl

theorem reindent_lineBreak {gap indent : JsString} (hindent : unit '\n' ∉ indent) (baseIndent : JsString) :
    reindent baseIndent (lineBreak gap indent) = lineBreak gap (baseIndent ++ indent) := by
  rw [lineBreak, lineBreak]
  by_cases hgap : gap = []
  · rw [if_pos hgap, if_pos hgap]
    rfl
  · rw [if_neg hgap, if_neg hgap, reindent_cons, if_pos rfl, reindent_plain baseIndent hindent]
    rfl

theorem reindent_bracketed {opening closing : UInt16} (hopening : opening ≠ unit '\n')
    (hclosing : closing ≠ unit '\n') {gap indent : JsString} (hindent : unit '\n' ∉ indent)
    (hgap : unit '\n' ∉ gap) (baseIndent : JsString) (members : List JsString) :
    reindent baseIndent (bracketed opening closing gap indent members) =
      bracketed opening closing gap (baseIndent ++ indent) (members.map (reindent baseIndent)) := by
  have hinner : unit '\n' ∉ indent ++ gap := by
    rw [List.mem_append, not_or]
    exact ⟨hindent, hgap⟩
  rw [bracketed, bracketed]
  by_cases hmembers : members = []
  · rw [if_pos hmembers, if_pos (List.map_eq_nil_iff.2 hmembers)]
    apply reindent_plain
    rw [List.mem_cons, List.mem_singleton, not_or]
    exact ⟨Ne.symm hopening, Ne.symm hclosing⟩
  · rw [if_neg hmembers, if_neg (fun h => hmembers (List.map_eq_nil_iff.1 h)), reindent_cons,
      if_neg hopening, reindent_append, reindent_append, reindent_append, reindent_join, reindent_cons,
      if_neg (by decide), reindent_lineBreak hinner, reindent_lineBreak hindent,
      reindent_plain baseIndent (s := [closing]) (by rw [List.mem_singleton]; exact Ne.symm hclosing),
      List.append_assoc baseIndent]
    rfl

theorem newline_notMem_quote (s : JsString) : unit '\n' ∉ quote s := by
  intro hmem
  exact absurd (quote_printable s (unit '\n') hmem) (by decide)

/-- A laid-out value under an indentation is the value laid out from that indentation on. -/
theorem reindent_render {N : Type} [JsNumber N] {gap : JsString} (hgap : unit '\n' ∉ gap)
    (baseIndent : JsString) (v : Json N) {indent : JsString} (hindent : unit '\n' ∉ indent) :
    reindent baseIndent (render gap indent v) = render gap (baseIndent ++ indent) v := by
  induction v using Json.induct generalizing indent with
  | null =>
    have hplain : unit '\n' ∉ js "null" := by decide
    exact reindent_plain baseIndent hplain
  | bool b =>
    have hplain : unit '\n' ∉ (if b then js "true" else js "false") := by
      cases b with
      | false => decide
      | true => decide
    exact reindent_plain baseIndent hplain
  | num n =>
    have hplain : unit '\n' ∉ numberJson n := by
      rw [numberJson]
      split
      · next hfinite =>
        intro hmem
        have hunits := (isNumeral_numberUnits (JsNumber.toText_numeral hfinite)).2
        exact absurd (List.all_eq_true.1 hunits _ hmem) (by decide)
      · decide
    exact reindent_plain baseIndent hplain
  | str s => exact reindent_plain baseIndent (newline_notMem_quote s)
  | arr vs ih =>
    have hinner : unit '\n' ∉ indent ++ gap := by
      rw [List.mem_append, not_or]
      exact ⟨hindent, hgap⟩
    rw [render, render, reindent_bracketed (by decide) (by decide) hindent hgap, renderList_eq,
      renderList_eq, List.map_map]
    congr 1
    apply List.map_congr_left
    intro v hv
    rw [Function.comp_apply, ih v hv hinner, List.append_assoc]
  | obj es ih =>
    have hinner : unit '\n' ∉ indent ++ gap := by
      rw [List.mem_append, not_or]
      exact ⟨hindent, hgap⟩
    rw [render, render, reindent_bracketed (by decide) (by decide) hindent hgap, renderFields_eq,
      renderFields_eq, List.map_map]
    congr 1
    apply List.map_congr_left
    intro e he
    obtain ⟨k, v⟩ := e
    have hspace : unit '\n' ∉ (if gap = [] then ([] : JsString) else [unit ' ']) := by
      split
      · exact List.not_mem_nil
      · decide
    rw [Function.comp_apply, renderField, renderField, reindent_append,
      reindent_plain baseIndent (newline_notMem_quote k), reindent_cons, if_neg (by decide),
      reindent_append, reindent_plain baseIndent hspace, ih (k, v) he hinner, List.append_assoc]
    rfl

/-! ## The settings -/

/-- The text of an object in which one member is called `hooks`. -/
structure SettingsText where
  before : Blank
  earlier : List (MemberText JsonText)
  hooks : MemberText JsonText
  later : List (MemberText JsonText)
  after : Blank
  named : hooks.key.value = js "hooks"
  others : ∀ member ∈ earlier ++ later, member.key.value ≠ js "hooks"

namespace SettingsText
variable {N : Type} [JsNumber N]

def members (settings : SettingsText) : List (MemberText JsonText) :=
  settings.earlier ++ settings.hooks :: settings.later

def object (settings : SettingsText) : JsonText := .obj ⟨[], rfl⟩ settings.members

def print (settings : SettingsText) : JsString :=
  settings.before.text ++ (settings.object.print ++ settings.after.text)

/-- The text before the key. -/
def keyFront (settings : SettingsText) : JsString :=
  settings.before.text ++ unit '{' ::
    ((settings.earlier.flatMap fun member => JsonText.printMember member ++ [unit ',']) ++
      settings.hooks.before.text)

/-- The text from the key to the value. -/
def keyText (settings : SettingsText) : JsString :=
  settings.hooks.key.print ++ (settings.hooks.beforeColon.text ++ unit ':' ::
    settings.hooks.beforeValue.text)

def front (settings : SettingsText) : JsString := settings.keyFront ++ settings.keyText

/-- The text behind the value. -/
def back (settings : SettingsText) : JsString :=
  settings.hooks.after.text ++ ((settings.later.flatMap fun member =>
    unit ',' :: JsonText.printMember member) ++ unit '}' :: settings.after.text)

/-- The settings with another value for `hooks`. -/
def withHooks (settings : SettingsText) (value : JsonText) : SettingsText :=
  { settings with hooks := { settings.hooks with value := value } }

theorem listed_split (blank : Blank) (earlier : List (MemberText JsonText)) (member : MemberText JsonText)
    (later : List (MemberText JsonText)) :
    listed blank (JsonText.printMembers (earlier ++ member :: later)) =
      (earlier.flatMap fun member => JsonText.printMember member ++ [unit ',']) ++
        (JsonText.printMember member ++ later.flatMap fun member =>
          unit ',' :: JsonText.printMember member) := by
  induction earlier with
  | nil => exact listed_members blank member later
  | cons first earlier ih =>
    have hrest : (earlier ++ member :: later).flatMap (fun member =>
        unit ',' :: JsonText.printMember member) =
          unit ',' :: listed blank (JsonText.printMembers (earlier ++ member :: later)) := by
      cases earlier with
      | nil =>
        rw [List.nil_append, listed_members]
        rfl
      | cons next earlier =>
        rw [List.cons_append, listed_members]
        rfl
    rw [List.cons_append, listed_members, hrest, ih, List.flatMap_cons, List.append_assoc,
      List.append_assoc]
    rfl

theorem print_eq (settings : SettingsText) :
    settings.print = settings.front ++ (settings.hooks.value.print ++ settings.back) := by
  obtain ⟨before, earlier, ⟨hooksBefore, key, beforeColon, beforeValue, value, hooksAfter⟩, later, after,
    named, others⟩ := settings
  rw [print, object, members, JsonText.print, listed_split, front, keyFront, keyText, back,
    JsonText.printMember]
  simp only [List.append_assoc, List.cons_append, List.nil_append]

theorem parseJson_print (settings : SettingsText) :
    parseJson settings.print = some (settings.object.read : Json N) :=
  JsonText.parseJson_print settings.object settings.before settings.after

end SettingsText

/-! ## The scan of settings -/

section
variable {N : Type} [JsNumber N]

theorem isWhiteSpace_of_startsValue {c : UInt16} (h : startsValue c = true) : isWhiteSpace c = false := by
  by_cases hunit : isNumberUnit c = true
  · rw [Bool.eq_false_iff]
    intro hspace
    rw [isWhiteSpace_not_numberUnit hspace] at hunit
    cases hunit
  · simp only [startsValue, Bool.or_eq_true, decide_eq_true_eq] at h
    simp only [isNumberUnit, Bool.or_eq_true, decide_eq_true_eq, not_or] at hunit
    rcases h with ((((((rfl | rfl) | rfl) | rfl) | rfl) | rfl) | rfl) | h
    · decide
    · decide
    · decide
    · decide
    · decide
    · decide
    · exact absurd rfl hunit.1.1.1.1.2
    · exact absurd h hunit.1.1.1.1.1

theorem scanned_earlier {d : Int} {seen rest : JsString} {members : List (MemberText JsonText)}
    (hd : d = 1) (hothers : ∀ member ∈ members, member.key.value ≠ js "hooks") :
    Scanned N d seen (members.flatMap fun member => JsonText.printMember member ++ [unit ',']) rest
      (members.all (scansMember true)) := by
  induction members generalizing seen with
  | nil => exact Scanned.plain rfl
  | cons member members ih =>
    rw [List.forall_mem_cons] at hothers
    have hcomma : ([unit ','] : JsString).all isNeutral = true := rfl
    have hmember : Scanned N d seen (JsonText.printMember member) ([unit ','] ++
        (members.flatMap (fun member => JsonText.printMember member ++ [unit ',']) ++ rest))
        (scansMember (d = 1) member) := scanned_member (getsThrough member.value) hd.ge fun _ => hothers.1
    refine ((hmember.append (Scanned.plain hcomma)).append (ih hothers.2)).congr ?_
    rw [List.all_cons, decide_eq_true hd, Bool.and_true]

/-- The key is a key where it stands. -/
theorem isJsonObjectKeyPosition_keyFront (settings : SettingsText) :
    isJsonObjectKeyPosition settings.keyFront.reverse = true := by
  have hseen : ∃ c seen, settings.keyFront.reverse = settings.hooks.before.text.reverse ++ c :: seen ∧
      (c = unit '{' ∨ c = unit ',') := by
    rw [SettingsText.keyFront, List.reverse_append, List.reverse_cons, List.reverse_append]
    cases settings.earlier using List.reverseRecOn with
    | nil => exact ⟨unit '{', settings.before.text.reverse, by simp, .inl rfl⟩
    | append_singleton earlier member =>
      rw [List.flatMap_append, List.flatMap_cons, List.flatMap_nil, List.append_nil]
      simp only [List.reverse_append, List.append_assoc]
      exact ⟨unit ',', _, rfl, .inr rfl⟩
  obtain ⟨c, seen, hseen, hc⟩ := hseen
  rw [hseen, isJsonObjectKeyPosition_blank settings.hooks.before (by
    rcases hc with rfl | rfl
    · decide
    · decide)]
  rcases hc with rfl | rfl
  · rfl
  · rfl

/-- From the key on the range ends where the end of the value is found. -/
theorem hooksRange_key (settings : SettingsText) :
    hooksRange settings.keyFront.reverse
        (settings.keyText ++ (settings.hooks.value.print ++ settings.back))
        (settings.hooks.key.body.length + 1) =
      (findJsonValueEnd 0 0 (settings.hooks.value.print ++ settings.back)).map fun back =>
        ⟨settings.front, back, keyIndent settings.keyFront.reverse⟩ := by
  have hdrop : (settings.keyText ++ (settings.hooks.value.print ++ settings.back)).drop
      (settings.hooks.key.body.length + 1 + 1) = settings.hooks.beforeColon.text ++ unit ':' ::
        (settings.hooks.beforeValue.text ++ (settings.hooks.value.print ++ settings.back)) := by
    rw [SettingsText.keyText, List.append_assoc, List.drop_left' (length_print _), List.append_assoc]
    rfl
  have hstart : findHooksValueStart (settings.hooks.beforeColon.text ++ unit ':' ::
      (settings.hooks.beforeValue.text ++ (settings.hooks.value.print ++ settings.back))) =
        some (settings.hooks.value.print ++ settings.back) := by
    obtain ⟨c, more, hprint, hc⟩ := settings.hooks.value.front
    have hspace := isWhiteSpace_of_startsValue hc
    rw [findHooksValueStart, dropWhile_blank, List.dropWhile_cons_of_neg (by decide)]
    dsimp only
    rw [if_pos rfl, dropWhile_blank, hprint, List.cons_append,
      List.dropWhile_cons_of_neg (by rw [hspace]; decide)]
  have htake : (settings.keyText ++ (settings.hooks.value.print ++ settings.back)).take
      ((settings.keyText ++ (settings.hooks.value.print ++ settings.back)).length -
        (settings.hooks.value.print ++ settings.back).length) = settings.keyText := by
    rw [List.length_append, Nat.add_sub_cancel]
    exact List.take_left
  rw [hooksRange, hdrop, hstart]
  dsimp only
  rw [htake, List.reverse_reverse]
  rfl

theorem findClaudeHooksRange_print (settings : SettingsText) :
    findClaudeHooksRange N settings.print =
      if settings.earlier.all (scansMember true) = true then
        (findJsonValueEnd 0 0 (settings.hooks.value.print ++ settings.back)).map fun back =>
          ⟨settings.front, back, keyIndent settings.keyFront.reverse⟩
      else none := by
  have hopen (seen s : JsString) :
      locateHooks N 0 0 seen (unit '{' :: s) = locateHooks N 0 1 (unit '{' :: seen) s := by
    rw [locateHooks, if_neg (Nat.lt_irrefl 0), if_neg (by decide), if_pos rfl]
    rfl
  have htext : settings.print = settings.before.text ++ (unit '{' ::
      ((settings.earlier.flatMap fun member => JsonText.printMember member ++ [unit ',']) ++
        (settings.hooks.before.text ++ (settings.keyText ++
          (settings.hooks.value.print ++ settings.back))))) := by
    rw [settings.print_eq, SettingsText.front, SettingsText.keyFront]
    simp only [List.append_assoc, List.cons_append]
  have hearlier : Scanned N 1 (unit '{' :: (settings.before.text.reverse ++ []))
      (settings.earlier.flatMap fun member => JsonText.printMember member ++ [unit ','])
      (settings.hooks.before.text ++ (settings.keyText ++
        (settings.hooks.value.print ++ settings.back)))
      (settings.earlier.all (scansMember true)) :=
    scanned_earlier rfl fun member hmember => settings.others member (List.mem_append_left _ hmember)
  rw [findClaudeHooksRange, settings.parseJson_print]
  dsimp only
  rw [htext, locateHooks_plain (blank_plain settings.before), hopen]
  rw [Scanned] at hearlier
  rw [hearlier]
  by_cases hscans : settings.earlier.all (scansMember true) = true
  · have hseen : settings.hooks.before.text.reverse ++ ((settings.earlier.flatMap fun member =>
        JsonText.printMember member ++ [unit ',']).reverse ++ unit '{' ::
          (settings.before.text.reverse ++ [])) = settings.keyFront.reverse := by
      rw [SettingsText.keyFront]
      simp only [List.reverse_append, List.reverse_cons, List.append_assoc, List.append_nil]
      rfl
    have hblank : trim settings.hooks.key.value ≠ [] := by
      rw [settings.named]
      decide
    have hkey : settings.keyText ++ (settings.hooks.value.print ++ settings.back) =
        settings.hooks.key.print ++ ((settings.hooks.beforeColon.text ++ unit ':' ::
          settings.hooks.beforeValue.text) ++ (settings.hooks.value.print ++ settings.back)) := by
      rw [SettingsText.keyText, List.append_assoc]
    rw [if_pos hscans, if_pos hscans, locateHooks_plain (blank_plain settings.hooks.before), hseen, hkey,
      locateHooks_string, if_neg hblank,
      if_pos ⟨rfl, settings.named, isJsonObjectKeyPosition_keyFront settings⟩, ← hkey,
      hooksRange_key]
  · rw [if_neg hscans, if_neg hscans]

end

/-! ## What the splice does -/

section
variable {N : Type} [JsNumber N]

/-- The settings text with the rendered hooks in place of the old value. -/
def SettingsText.replaced (settings : SettingsText) (hooks : Json N) : JsString :=
  settings.front ++ indentJsonValue (stringifyIndented hooks) (keyIndent settings.keyFront.reverse) ++
    settings.back

/-- Nothing but the value of `hooks` changes, as text and as an object, and a second time nothing. -/
structure SpliceExact (settings : SettingsText) (hooks : Json N) : Prop where
  returns : replaceClaudeHooksInSettings settings.print hooks = some (settings.replaced hooks)
  parses : ∃ record : Record (Json N), parseJson settings.print = some (.obj record.entries) ∧
    parseJson (settings.replaced hooks) =
      some (.obj (record.map fun key value => if key = js "hooks" then hooks else value).entries)
  settled : replaceClaudeHooksInSettings (settings.replaced hooks) hooks =
    some (settings.replaced hooks)

/-- What the scan needs: an array or an object to replace, and members before it to get through. -/
def SettingsText.Scannable (settings : SettingsText) : Prop :=
  isBracketed settings.hooks.value = true ∧ settings.earlier.all (scansMember true) = true

theorem keyIndent_space (seen : JsString) : (keyIndent seen).all isJsonSpace = true := by
  rw [keyIndent]
  split
  · next hblank =>
    rw [List.all_eq_true] at hblank ⊢
    intro c hc
    have hblank := hblank c hc
    simp only [Bool.or_eq_true, decide_eq_true_eq] at hblank
    rcases hblank with rfl | rfl
    · decide
    · decide
  · rfl

/-- The rendered hooks are the text of a value that is an object. -/
theorem exists_rendered {es : Entries (Json N)} (h : Canonical (.obj es : Json N)) {indent : JsString}
    (hindent : indent.all isJsonSpace = true) :
    ∃ text : JsonText, indentJsonValue (stringifyIndented (.obj es : Json N)) indent = text.print ∧
      text.read = (.obj es : Json N) ∧ isBracketed text = true := by
  have hrender : indentJsonValue (stringifyIndented (.obj es : Json N)) indent =
      render (js "  ") indent (.obj es) := by
    rw [indentJsonValue_eq, stringifyIndented, reindent_render (by decide) indent _ List.not_mem_nil,
      List.append_nil]
  have hgap : (js "  ").all isJsonSpace = true := by decide
  have hends : EndsNumeral [] := fun _ hc => by cases hc
  obtain ⟨before, text, hread, htext⟩ :=
    JsonText.exists_value (parseValue_render hgap h hindent (Nat.le_refl _) hends)
  rw [List.append_nil, List.append_nil] at htext
  have hhead : (render (js "  ") indent (.obj es : Json N)).head? = some (unit '{') := by
    rw [render, bracketed]
    split
    · rfl
    · rfl
  have hbefore : before.text = [] := by
    cases hblank : before.text with
    | nil => rfl
    | cons c more =>
      rw [htext, hblank] at hhead
      have hc : c = unit '{' := Option.some.inj hhead
      have hspace := before.space
      rw [hblank, hc] at hspace
      exact absurd (Bool.and_eq_true _ _ ▸ hspace).1 (by decide)
  rw [hbefore, List.nil_append] at htext
  refine ⟨text, hrender.trans htext, hread, ?_⟩
  rw [htext] at hhead
  cases text with
  | scalar text =>
    obtain ⟨c, more, htext, -, -, -, hbrace⟩ := text.front
    rw [JsonText.print, htext] at hhead
    exact absurd (Option.some.inj hhead) hbrace
  | str text => exact absurd (Option.some.inj hhead) (by decide)
  | arr blank items => rfl
  | obj blank members => rfl

theorem replaced_eq {settings : SettingsText} {hooks : Json N} {text : JsonText}
    (h : indentJsonValue (stringifyIndented hooks) (keyIndent settings.keyFront.reverse) = text.print) :
    settings.replaced hooks = (settings.withHooks text).print := by
  rw [SettingsText.replaced, h, (settings.withHooks text).print_eq, List.append_assoc]
  rfl

theorem replaceClaudeHooksInSettings_print {settings : SettingsText} (hscan : settings.Scannable)
    {es : Entries (Json N)} (h : Canonical (.obj es : Json N)) :
    replaceClaudeHooksInSettings settings.print (.obj es : Json N) =
      some (settings.replaced (.obj es : Json N)) := by
  obtain ⟨text, htext, -, -⟩ := exists_rendered h (keyIndent_space settings.keyFront.reverse)
  have hparse : parseJson (settings.replaced (.obj es : Json N)) =
      some ((settings.withHooks text).object.read : Json N) := by
    rw [replaced_eq htext, SettingsText.parseJson_print]
  rw [replaceClaudeHooksInSettings, findClaudeHooksRange_print, if_pos hscan.2, findJsonValueEnd_value,
    if_pos hscan.1]
  dsimp only [Option.map_some]
  rw [SettingsText.replaced] at hparse
  rw [hparse]
  rfl

theorem readMember_eq (member : MemberText JsonText) :
    (JsonText.readMember member : JsString × Json N) = (member.key.value, member.value.read) := by
  cases member
  rfl

/-- The settings with the new value denote the same object but for `hooks`. -/
theorem read_withHooks (settings : SettingsText) (text : JsonText) :
    ∃ record : Record (Json N), settings.object.read = Json.obj record.entries ∧
      (settings.withHooks text).object.read =
        Json.obj (record.map fun key value => if key = js "hooks" then text.read else value).entries := by
  have hmembers : ((settings.withHooks text).members.map JsonText.readMember : Entries (Json N)) =
      (settings.members.map JsonText.readMember).map fun e =>
        (e.1, if e.1 = js "hooks" then text.read else e.2) := by
    have hsame {members : List (MemberText JsonText)}
        (hothers : ∀ member ∈ members, member.key.value ≠ js "hooks") :
        (members.map JsonText.readMember : Entries (Json N)) =
          (members.map JsonText.readMember).map fun e =>
            (e.1, if e.1 = js "hooks" then text.read else e.2) := by
      rw [List.map_map]
      apply List.map_congr_left
      intro member hmember
      rw [Function.comp_apply, readMember_eq, if_neg (hothers member hmember)]
    have hearlier := hsame fun member hmember => settings.others member (List.mem_append_left _ hmember)
    have hlater := hsame fun member hmember => settings.others member (List.mem_append_right _ hmember)
    have hhooks : (JsonText.readMember { settings.hooks with value := text } : JsString × Json N) =
        ((JsonText.readMember settings.hooks : JsString × Json N).1,
          if (JsonText.readMember settings.hooks : JsString × Json N).1 = js "hooks" then text.read
          else (JsonText.readMember settings.hooks : JsString × Json N).2) := by
      rw [readMember_eq, readMember_eq, if_pos settings.named]
    rw [SettingsText.members, SettingsText.members, List.map_append, List.map_append, List.map_cons,
      List.map_cons, List.map_append, List.map_cons]
    exact congrArg₂ _ hearlier (congrArg₂ _ hhooks hlater)
  refine ⟨Record.fromEntries (settings.members.map JsonText.readMember), ?_, ?_⟩
  · rw [SettingsText.object, JsonText.read, JsonText.readMembers_eq, objectOf]
  · rw [SettingsText.object, JsonText.read, JsonText.readMembers_eq, objectOf, hmembers,
      Record.fromEntries_map fun key value => if key = js "hooks" then text.read else value]

theorem replaceClaudeHooksInSettings_exact (settings : SettingsText) {es : Entries (Json N)}
    (h : Canonical (.obj es : Json N)) :
    SpliceExact settings (.obj es : Json N) ↔ settings.Scannable := by
  constructor
  · rintro ⟨hreturns, -, -⟩
    rw [replaceClaudeHooksInSettings, findClaudeHooksRange_print] at hreturns
    by_cases hscans : settings.earlier.all (scansMember true) = true
    · refine ⟨?_, hscans⟩
      rw [if_pos hscans, findJsonValueEnd_value] at hreturns
      by_contra hvalue
      rw [if_neg hvalue] at hreturns
      cases hend : findJsonValueEnd 0 0 settings.back with
      | none =>
        rw [hend] at hreturns
        cases hreturns
      | some rest =>
        rw [hend] at hreturns
        dsimp only [Option.map_some] at hreturns
        split at hreturns
        · cases hreturns
        · -- the rest is shorter than what has to stay behind the value
          have hlength := congrArg List.length (Option.some.inj hreturns)
          rw [SettingsText.replaced] at hlength
          simp only [List.length_append] at hlength
          have hshorter := findJsonValueEnd_length hend
          omega
    · rw [if_neg hscans] at hreturns
      cases hreturns
  · intro hscan
    obtain ⟨text, htext, hread, hbracketed⟩ :=
      exists_rendered h (keyIndent_space settings.keyFront.reverse)
    have hreplaced := replaced_eq htext
    have hagain : (settings.withHooks text).Scannable := ⟨hbracketed, hscan.2⟩
    refine ⟨replaceClaudeHooksInSettings_print hscan h, ?_, ?_⟩
    · obtain ⟨record, hsettings, hnew⟩ := read_withHooks (N := N) settings text
      refine ⟨record, ?_, ?_⟩
      · rw [settings.parseJson_print, hsettings]
      · rw [hreplaced, SettingsText.parseJson_print, hnew, hread]
    · have hsecond := replaceClaudeHooksInSettings_print hagain h
      rw [← hreplaced] at hsecond
      exact hsecond

end

theorem stringBody_plain {s : JsString}
    (h : s.all (fun c => c ≠ unit '"' && c ≠ unit '\\' && !decide (c < 0x20)) = true) :
    StringBody s s := by
  induction s with
  | nil => exact .nil
  | cons c s ih =>
    rw [List.all_cons, Bool.and_eq_true] at h
    obtain ⟨hc, hs⟩ := h
    simp only [Bool.and_eq_true, decide_eq_true_eq, Bool.not_eq_true', decide_eq_false_iff_not] at hc
    exact .raw hc.1.1 hc.1.2 hc.2 (ih hs)

def noBlank : Blank := ⟨[], rfl⟩

def hooksKey : StringText := ⟨js "hooks", js "hooks", stringBody_plain (by decide)⟩

def envKey : StringText := ⟨js "env", js "env", stringBody_plain (by decide)⟩

/-- `{"hooks":[]}` -/
def emptyHooks : SettingsText where
  before := noBlank
  earlier := []
  hooks := ⟨noBlank, hooksKey, noBlank, noBlank, .arr noBlank [], noBlank⟩
  later := []
  after := noBlank
  named := rfl
  others := List.forall_mem_nil _

theorem replaceClaudeHooksInSettings_exact_empty :
    SpliceExact emptyHooks (.obj [(js "Stop", .arr [])] : Json Numeral) := by
  have hcanonical : Canonical (.obj [(js "Stop", .arr [])] : Json Numeral) := by
    refine .obj (by decide) (by decide) ?_
    rw [List.forall_mem_singleton]
    exact .arr (List.forall_mem_nil _)
  exact (replaceClaudeHooksInSettings_exact emptyHooks hcanonical).2 ⟨rfl, rfl⟩

/-- `{"hooks":null,"env":{}}` -/
def nullHooks : SettingsText where
  before := noBlank
  earlier := []
  hooks := ⟨noBlank, hooksKey, noBlank, noBlank, .scalar ⟨js "null", .inl rfl⟩, noBlank⟩
  later := [⟨noBlank, envKey, noBlank, noBlank, .obj noBlank [], noBlank⟩]
  after := noBlank
  named := rfl
  others := by decide

/-- The environment is deleted with the value. -/
theorem replaceClaudeHooksInSettings_deletes :
    ¬ ∀ (settings : SettingsText) (es : Entries (Json Numeral)), Canonical (.obj es : Json Numeral) →
      SpliceExact settings (.obj es : Json Numeral) := by
  intro h
  have hcanonical : Canonical (.obj [] : Json Numeral) :=
    .obj List.nodup_nil rfl (List.forall_mem_nil _)
  have hdeleted : replaceClaudeHooksInSettings nullHooks.print (.obj [] : Json Numeral) =
      some (js "\x7b\"hooks\":\x7b\x7d\x7d") := by decide +kernel
  have hreturns := (h nullHooks [] hcanonical).returns
  rw [hdeleted] at hreturns
  exact absurd hreturns (by decide +kernel)

/-! ## Every settings text -/

/-- The text of an object with one member `hooks` is a settings text. -/
theorem exists_settings (before after blank : Blank) {members : List (MemberText JsonText)}
    (h : (members.filter fun member => member.key.value = js "hooks").length = 1) :
    ∃ settings : SettingsText,
      settings.print = before.text ++ ((JsonText.obj blank members).print ++ after.text) := by
  obtain ⟨hooks, hfilter⟩ := List.length_eq_one_iff.1 h
  have hmem : hooks ∈ members.filter fun member => member.key.value = js "hooks" := by
    rw [hfilter]
    exact List.mem_cons_self
  obtain ⟨hmem, hnamed⟩ := List.mem_filter.1 hmem
  obtain ⟨earlier, later, rfl⟩ := List.append_of_mem hmem
  have hnamed : hooks.key.value = js "hooks" := of_decide_eq_true hnamed
  have hothers : ∀ member ∈ earlier ++ later, member.key.value ≠ js "hooks" := by
    have hhead : (hooks :: later).filter (fun member => member.key.value = js "hooks") =
        hooks :: later.filter fun member => member.key.value = js "hooks" :=
      List.filter_cons_of_pos (decide_eq_true hnamed)
    rw [List.filter_append, hhead, List.length_append, List.length_cons] at h
    have hnone : (earlier ++ later).filter (fun member => member.key.value = js "hooks") = [] := by
      rw [List.filter_append, ← List.length_eq_zero_iff, List.length_append]
      omega
    intro member hmember hname
    exact List.filter_eq_nil_iff.1 hnone member hmember (decide_eq_true hname)
  refine ⟨⟨before, earlier, hooks, later, after, hnamed, hothers⟩, ?_⟩
  rw [SettingsText.print, SettingsText.object, SettingsText.members, JsonText.print, JsonText.print,
    SettingsText.listed_split, SettingsText.listed_split]

end Musi.Harness
