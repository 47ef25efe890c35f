import Musi.Js.JsonRoundTrip

namespace Musi.Js
set_option autoImplicit true

/-! ## Texts of JSON values -/

structure Blank where
  text : JsString
  space : text.all isJsonSpace = true

/-- What may stand between the quotes of a string literal, and the string it denotes. -/
inductive StringBody : JsString → JsString → Prop
  | nil : StringBody [] []
  | raw (hquote : c ≠ unit '"') (hbackslash : c ≠ unit '\\') (hcontrol : ¬ c < 0x20)
      (h : StringBody body value) : StringBody (c :: body) (c :: value)
  | simple (hescape : simpleEscape e = some c) (hu : e ≠ unit 'u') (h : StringBody body value) :
      StringBody (unit '\\' :: e :: body) (c :: value)
  | unicode (h₁ : hexValue d₁ = some n₁) (h₂ : hexValue d₂ = some n₂) (h₃ : hexValue d₃ = some n₃)
      (h₄ : hexValue d₄ = some n₄) (h : StringBody body value) :
      StringBody (unit '\\' :: unit 'u' :: d₁ :: d₂ :: d₃ :: d₄ :: body)
        (UInt16.ofNat (4096 * n₁ + 256 * n₂ + 16 * n₃ + n₄) :: value)

structure StringText where
  body : JsString
  value : JsString
  valid : StringBody body value

def StringText.print (text : StringText) : JsString := unit '"' :: (text.body ++ [unit '"'])

structure ScalarText where
  text : JsString
  valid : text = js "null" ∨ text = js "true" ∨ text = js "false" ∨ isNumeral text = true

structure ItemText (α : Type) where
  before : Blank
  value : α
  after : Blank

structure MemberText (α : Type) where
  before : Blank
  key : StringText
  beforeColon : Blank
  beforeValue : Blank
  value : α
  after : Blank

/-- The text of a JSON value, with the white space inside of it. The blank of a list is what an empty
one has between its brackets. -/
inductive JsonText where
  | scalar (text : ScalarText)
  | str (text : StringText)
  | arr (blank : Blank) (items : List (ItemText JsonText))
  | obj (blank : Blank) (members : List (MemberText JsonText))

/-- The inside of a bracketed list. -/
def listed (blank : Blank) (texts : List JsString) : JsString :=
  if texts = [] then blank.text else join [unit ','] texts

namespace JsonText

mutual
def print : JsonText → JsString
  | scalar text => text.text
  | str text => text.print
  | arr blank items => unit '[' :: (listed blank (printItems items) ++ [unit ']'])
  | obj blank members => unit '{' :: (listed blank (printMembers members) ++ [unit '}'])
termination_by structural t => t

def printItems : List (ItemText JsonText) → List JsString
  | [] => []
  | item :: items => printItem item :: printItems items
termination_by structural t => t

def printItem : ItemText JsonText → JsString
  | ⟨before, value, after⟩ => before.text ++ (print value ++ after.text)
termination_by structural t => t

def printMembers : List (MemberText JsonText) → List JsString
  | [] => []
  | member :: members => printMember member :: printMembers members
termination_by structural t => t

def printMember : MemberText JsonText → JsString
  | ⟨before, key, beforeColon, beforeValue, value, after⟩ =>
    before.text ++ (key.print ++ (beforeColon.text ++ unit ':' :: (beforeValue.text ++
      (print value ++ after.text))))
termination_by structural t => t
end

end JsonText

def ScalarText.value {N : Type} [JsNumber N] (text : ScalarText) : Json N :=
  if text.text = js "null" then .null
  else if text.text = js "true" then .bool true
  else if text.text = js "false" then .bool false
  else .num (JsNumber.ofText text.text)

namespace JsonText

variable {N : Type} [JsNumber N]

mutual
/-- The value that a text denotes. -/
def read : JsonText → Json N
  | scalar text => text.value
  | str text => .str text.value
  | arr _ items => .arr (readItems items)
  | obj _ members => objectOf (readMembers members)
termination_by structural t => t

def readItems : List (ItemText JsonText) → List (Json N)
  | [] => []
  | item :: items => readItem item :: readItems items
termination_by structural t => t

def readItem : ItemText JsonText → Json N
  | ⟨_, value, _⟩ => read value
termination_by structural t => t

def readMembers : List (MemberText JsonText) → List (JsString × Json N)
  | [] => []
  | member :: members => readMember member :: readMembers members
termination_by structural t => t

def readMember : MemberText JsonText → JsString × Json N
  | ⟨_, key, _, _, value, _⟩ => (key.value, read value)
termination_by structural t => t
end

/-- Induction over a text, with the hypothesis for every item and member. -/
theorem induct {motive : JsonText → Prop} (scalar : ∀ text, motive (.scalar text))
    (str : ∀ text, motive (.str text))
    (arr : ∀ blank items, (∀ item ∈ items, motive item.value) → motive (.arr blank items))
    (obj : ∀ blank members, (∀ member ∈ members, motive member.value) →
      motive (.obj blank members)) (text : JsonText) : motive text :=
  @JsonText.rec motive (fun items => ∀ item ∈ items, motive item.value)
    (fun members => ∀ member ∈ members, motive member.value) (fun item => motive item.value)
    (fun member => motive member.value) scalar str arr obj (List.forall_mem_nil _)
    (fun _ _ hitem hitems => List.forall_mem_cons.2 ⟨hitem, hitems⟩) (List.forall_mem_nil _)
    (fun _ _ hmember hmembers => List.forall_mem_cons.2 ⟨hmember, hmembers⟩)
    (fun _ _ _ h => h) (fun _ _ _ _ _ _ h => h) text

theorem printItems_eq (items : List (ItemText JsonText)) : printItems items = items.map printItem := by
  induction items with
  | nil => rfl
  | cons item items ih => rw [printItems, ih, List.map_cons]

theorem printMembers_eq (members : List (MemberText JsonText)) :
    printMembers members = members.map printMember := by
  induction members with
  | nil => rfl
  | cons member members ih => rw [printMembers, ih, List.map_cons]

theorem readItems_eq (items : List (ItemText JsonText)) :
    (readItems items : List (Json N)) = items.map readItem := by
  induction items with
  | nil => rfl
  | cons item items ih => rw [readItems, ih, List.map_cons]

theorem readMembers_eq (members : List (MemberText JsonText)) :
    (readMembers members : List (JsString × Json N)) = members.map readMember := by
  induction members with
  | nil => rfl
  | cons member members ih => rw [readMembers, ih, List.map_cons]

end JsonText

/-! ## Strings -/

theorem StringBody.parse {body value : JsString} (h : StringBody body value) (rest : JsString) :
    parseStringBody (body ++ unit '"' :: rest) = some (value, rest) := by
  induction h with
  | nil => exact parseStringBody_close rest
  | raw hquote hbackslash hcontrol _ ih =>
    rw [List.cons_append, parseStringBody_raw _ _ hquote hbackslash hcontrol, ih]
    rfl
  | simple hescape hu _ ih =>
    rw [List.cons_append, List.cons_append, parseStringBody_simple _ _ _ hescape hu, ih]
    rfl
  | unicode h₁ h₂ h₃ h₄ _ ih =>
    have hquote : unit '\\' ≠ unit '"' := by decide
    simp only [List.cons_append]
    rw [parseStringBody.eq_def]
    simp only [if_neg hquote, if_true, h₁, h₂, h₃, h₄]
    rw [ih]
    rfl

theorem exists_stringBody {s value rest : JsString} (h : parseStringBody s = some (value, rest)) :
    ∃ body, StringBody body value ∧ s = body ++ unit '"' :: rest := by
  fun_induction parseStringBody s generalizing value rest with
  | case1 => cases h
  | case2 s =>
    cases h
    exact ⟨[], .nil, rfl⟩
  | case3 => cases h
  | case4 d₁ d₂ d₃ d₄ s n₁ n₂ n₃ n₄ h₄ h₃ h₂ h₁ _ ih =>
    obtain ⟨p, hp, heq⟩ := Option.map_eq_some_iff.1 h
    cases heq
    obtain ⟨body, hbody, rfl⟩ := ih hp
    exact ⟨_, .unicode h₁ h₂ h₃ h₄ hbody, rfl⟩
  | case5 => cases h
  | case6 => cases h
  | case7 e s hu d hescape _ ih =>
    obtain ⟨p, hp, heq⟩ := Option.map_eq_some_iff.1 h
    cases heq
    obtain ⟨body, hbody, rfl⟩ := ih hp
    exact ⟨_, .simple hescape hu hbody, rfl⟩
  | case8 => cases h
  | case9 => cases h
  | case10 c s hquote hbackslash hcontrol ih =>
    obtain ⟨p, hp, heq⟩ := Option.map_eq_some_iff.1 h
    cases heq
    obtain ⟨body, hbody, rfl⟩ := ih hp
    exact ⟨_, .raw hquote hbackslash hcontrol hbody, rfl⟩

/-! ## Blanks -/

theorem exists_blank (s : JsString) : ∃ blank : Blank, s = blank.text ++ skipSpace s := by
  refine ⟨⟨s.takeWhile isJsonSpace, ?_⟩, (List.takeWhile_append_dropWhile).symm⟩
  exact List.all_eq_true.2 fun c hc => List.mem_takeWhile_imp hc

theorem Blank.skip (blank : Blank) (s : JsString) : skipSpace (blank.text ++ s) = skipSpace s :=
  skipSpace_append blank.space s

theorem Blank.endsNumeral (blank : Blank) {s : JsString} (h : EndsNumeral s) :
    EndsNumeral (blank.text ++ s) := by
  intro c hc
  cases htext : blank.text with
  | nil =>
    rw [htext] at hc
    exact h c hc
  | cons d text =>
    have hspace := blank.space
    rw [htext] at hc hspace
    cases hc
    rw [List.all_cons, Bool.and_eq_true] at hspace
    have hd := hspace.1
    simp only [isJsonSpace, Bool.or_eq_true, decide_eq_true_eq] at hd
    rcases hd with ((rfl | rfl) | rfl) | rfl
    · decide
    · decide
    · decide
    · decide

/-! ## Bracketed lists -/

section
variable {α β : Type} {item : JsString → Option (α × JsString)} {closing : UInt16}
  {read : β → α} {text : β → JsString} {after : β → Blank}

/-- A separated list of texts is read where each of them is read up to the blank that ends it. -/
theorem parseSequence_listed (hclosing : isJsonSpace closing = false) (hcomma : closing ≠ unit ',')
    {entries : List β} (hne : entries ≠ [])
    (hitem : ∀ entry ∈ entries, ∀ c rest, c = unit ',' ∨ c = closing →
      item (text entry ++ c :: rest) = some (read entry, (after entry).text ++ c :: rest))
    {rounds : Nat} (hrounds : entries.length ≤ rounds) (rest : JsString) :
    parseSequence item closing rounds (join [unit ','] (entries.map text) ++ closing :: rest) =
      some (entries.map read, rest) := by
  induction entries generalizing rounds with
  | nil => exact absurd rfl hne
  | cons entry entries ih =>
    rw [List.forall_mem_cons] at hitem
    obtain ⟨rounds, rfl⟩ : ∃ n, rounds = n + 1 := Nat.exists_eq_add_of_lt (Nat.zero_lt_of_lt hrounds)
      |>.imp fun n hn => by omega
    cases entries with
    | nil =>
      rw [parseSequence, List.map_cons, List.map_nil, join, hitem.1 _ _ (.inr rfl)]
      simp only [Blank.skip, skipSpace_cons hclosing, if_true]
      rfl
    | cons next entries =>
      have hjoin : join [unit ','] ((entry :: next :: entries).map text) =
          text entry ++ [unit ','] ++ join [unit ','] ((next :: entries).map text) := rfl
      have htext : join [unit ','] ((entry :: next :: entries).map text) ++ closing :: rest =
          text entry ++ unit ',' :: (join [unit ','] ((next :: entries).map text) ++
            closing :: rest) := by
        rw [hjoin, List.append_assoc, List.append_assoc]
        rfl
      have hlength : (next :: entries).length ≤ rounds := by
        rw [List.length_cons] at hrounds
        exact Nat.le_of_succ_le_succ hrounds
      rw [htext, parseSequence, hitem.1 _ _ (.inl rfl)]
      simp only [Blank.skip, skipSpace_cons (by decide : isJsonSpace (unit ',') = false),
        if_neg hcomma.symm, if_true]
      rw [ih (List.cons_ne_nil _ _) hitem.2 hlength]
      rfl

theorem parseBracketed_listed (hclosing : isJsonSpace closing = false) (hcomma : closing ≠ unit ',')
    (blank : Blank) {entries : List β}
    (hfront : ∀ entry ∈ entries, ∃ (before : Blank) (c : UInt16) (rest : JsString),
      text entry = before.text ++ c :: rest ∧ isJsonSpace c = false ∧ c ≠ closing)
    (hitem : ∀ entry ∈ entries, ∀ c rest, c = unit ',' ∨ c = closing →
      item (text entry ++ c :: rest) = some (read entry, (after entry).text ++ c :: rest))
    (rest : JsString) :
    parseBracketed item closing (listed blank (entries.map text) ++ closing :: rest) =
      some (entries.map read, rest) := by
  cases entries with
  | nil =>
    rw [listed, List.map_nil, if_pos rfl, parseBracketed, Blank.skip, skipSpace_cons hclosing,
      List.head?_cons, if_pos rfl]
    rfl
  | cons entry entries =>
    obtain ⟨before, c, front, hfirst, hspace, hne⟩ := hfront entry List.mem_cons_self
    have hlisted : listed blank ((entry :: entries).map text) =
        join [unit ','] ((entry :: entries).map text) := if_neg (List.cons_ne_nil _ _)
    have hhead : (skipSpace (join [unit ','] ((entry :: entries).map text) ++
        closing :: rest)).head? = some c := by
      have hstart : ∃ more, join [unit ','] ((entry :: entries).map text) =
          before.text ++ c :: more := by
        cases entries with
        | nil => exact ⟨front, hfirst⟩
        | cons next entries =>
          rw [List.map_cons, List.map_cons, join, hfirst, List.append_assoc, List.append_assoc]
          exact ⟨_, rfl⟩
      obtain ⟨more, hmore⟩ := hstart
      rw [hmore, List.append_assoc, Blank.skip, List.cons_append, skipSpace_cons hspace]
      rfl
    have hlength := length_le_join [unit ','] (List.cons_ne_nil _ _) ((entry :: entries).map text)
    rw [List.length_map] at hlength
    rw [hlisted, parseBracketed, hhead, if_neg fun heq => hne (Option.some.inj heq)]
    refine parseSequence_listed hclosing hcomma (List.cons_ne_nil _ _) hitem ?_ rest
    rw [List.length_append]
    exact hlength.trans (Nat.add_le_add_left (Nat.le_add_left 1 rest.length) _)

/-- A list that is read is one of texts that are read, each with the blank after it. -/
theorem exists_sequence
    (hitem : ∀ s v rest (blank : Blank) more, item s = some (v, rest) → rest = blank.text ++ more →
      ∃ entry, read entry = v ∧ s = text entry ++ more)
    {rounds : Nat} {s rest : JsString} {values : List α}
    (h : parseSequence item closing rounds s = some (values, rest)) :
    ∃ entries : List β, entries ≠ [] ∧ entries.map read = values ∧
      s = join [unit ','] (entries.map text) ++ closing :: rest := by
  induction rounds generalizing s values rest with
  | zero => cases h
  | succ rounds ih =>
    rw [parseSequence] at h
    split at h
    · cases h
    · next v front hfront =>
      obtain ⟨blank, hblank⟩ := exists_blank front
      split at h
      · cases h
      · next c more hmore =>
        rw [hmore] at hblank
        obtain ⟨entry, hread, htext⟩ := hitem s v front blank (c :: more) hfront hblank
        split at h
        · next hc =>
          cases h
          rw [htext, hc]
          exact ⟨[entry], List.cons_ne_nil _ _, congrArg ([·]) hread, rfl⟩
        · split at h
          · next hc =>
            obtain ⟨p, hp, heq⟩ := Option.map_eq_some_iff.1 h
            cases heq
            obtain ⟨entries, hne, hvalues, hrest⟩ := ih hp
            refine ⟨entry :: entries, List.cons_ne_nil _ _, ?_, ?_⟩
            · rw [List.map_cons, hread, hvalues]
            · obtain ⟨next, entries, rfl⟩ := List.exists_cons_of_ne_nil hne
              have hjoin : join [unit ','] ((entry :: next :: entries).map text) =
                  text entry ++ [unit ','] ++ join [unit ','] ((next :: entries).map text) := rfl
              rw [htext, hc, hrest, hjoin, List.append_assoc, List.append_assoc]
              rfl
          · cases h

theorem exists_bracketed
    (hitem : ∀ s v rest (blank : Blank) more, item s = some (v, rest) → rest = blank.text ++ more →
      ∃ entry, read entry = v ∧ s = text entry ++ more)
    {s rest : JsString} {values : List α} (h : parseBracketed item closing s = some (values, rest)) :
    ∃ (blank : Blank) (entries : List β), entries.map read = values ∧
      s = listed blank (entries.map text) ++ closing :: rest := by
  rw [parseBracketed] at h
  split at h
  · next hhead =>
    cases h
    obtain ⟨blank, hblank⟩ := exists_blank s
    obtain ⟨rest, hrest⟩ := List.head?_eq_some_iff.1 hhead
    refine ⟨blank, [], rfl, ?_⟩
    rw [hrest] at hblank ⊢
    exact hblank
  · obtain ⟨entries, hne, hvalues, hrest⟩ := exists_sequence hitem h
    refine ⟨⟨[], rfl⟩, entries, hvalues, ?_⟩
    rw [hrest, listed, if_neg fun heq => hne (List.map_eq_nil_iff.1 heq)]

end

/-! ## Values -/

variable {N : Type} [JsNumber N]

theorem ScalarText.parse (text : ScalarText) {rest : JsString} (h : EndsNumeral rest) :
    parseScalar (text.text ++ rest) = some ((text.value : Json N), rest) := by
  obtain ⟨s, hs⟩ := text
  rw [ScalarText.value]
  by_cases hnull : s = js "null"
  · subst hnull
    rfl
  by_cases htrue : s = js "true"
  · subst htrue
    rfl
  by_cases hfalse : s = js "false"
  · subst hfalse
    rfl
  have hnumeral : isNumeral s = true := by
    rcases hs with hs | hs | hs | hs
    · exact absurd hs hnull
    · exact absurd hs htrue
    · exact absurd hs hfalse
    · exact hs
  rw [parseScalar_numeral hnumeral h]
  simp only [if_neg hnull, if_neg htrue, if_neg hfalse]

theorem exists_scalar {s : JsString} {v : Json N} {rest : JsString}
    (h : parseScalar s = some (v, rest)) :
    ∃ text : ScalarText, text.value = v ∧ s = text.text ++ rest := by
  have hword {word rest : JsString} (hword : afterWord word s = some rest) : s = word ++ rest := by
    rw [afterWord] at hword
    split at hword
    · next hstarts =>
      cases hword
      obtain ⟨more, rfl⟩ := startsWith_iff.1 hstarts
      rw [List.drop_left' rfl]
    · cases hword
  rw [parseScalar] at h
  split at h
  · next hnull =>
    cases h
    exact ⟨⟨js "null", .inl rfl⟩, rfl, hword hnull⟩
  · next htrue _ =>
    cases h
    exact ⟨⟨js "true", .inr (.inl rfl)⟩, rfl, hword htrue⟩
  · next hfalse _ _ =>
    cases h
    exact ⟨⟨js "false", .inr (.inr (.inl rfl))⟩, rfl, hword hfalse⟩
  · dsimp only at h
    split at h
    · next hnumeral =>
      cases h
      have hne (word : JsString) (hw : isNumeral word = false) : s.takeWhile isNumberUnit ≠ word := by
        rintro heq
        rw [heq, hw] at hnumeral
        cases hnumeral
      refine ⟨⟨s.takeWhile isNumberUnit, .inr (.inr (.inr hnumeral))⟩, ?_,
        (List.takeWhile_append_dropWhile).symm⟩
      rw [ScalarText.value]
      simp only [if_neg (hne (js "null") (by decide)), if_neg (hne (js "true") (by decide)),
        if_neg (hne (js "false") (by decide))]
    · cases h

theorem ScalarText.front (text : ScalarText) :
    ∃ c rest, text.text = c :: rest ∧ startsValue c = true ∧ c ≠ unit '"' ∧ c ≠ unit '[' ∧
      c ≠ unit '{' := by
  obtain ⟨s, rfl | rfl | rfl | hs⟩ := text
  · exact ⟨unit 'n', js "ull", rfl, by decide⟩
  · exact ⟨unit 't', js "rue", rfl, by decide⟩
  · exact ⟨unit 'f', js "alse", rfl, by decide⟩
  · obtain ⟨c, rest, heq, hc⟩ := isNumeral_head hs
    rcases hc with rfl | hc
    · exact ⟨unit '-', rest, heq, by decide⟩
    · obtain ⟨-, hquote, hbracket, hbrace⟩ := isDigit_plain hc
      refine ⟨c, rest, heq, ?_, hquote, hbracket, hbrace⟩
      rw [startsValue, hc, Bool.or_true]

namespace JsonText

theorem front (text : JsonText) : ∃ c rest, text.print = c :: rest ∧ startsValue c = true := by
  cases text with
  | scalar text =>
    obtain ⟨c, rest, heq, hc, -⟩ := text.front
    exact ⟨c, rest, heq, hc⟩
  | str text => exact ⟨unit '"', _, rfl, by decide⟩
  | arr blank items => exact ⟨unit '[', _, rfl, by decide⟩
  | obj blank members => exact ⟨unit '{', _, rfl, by decide⟩

theorem length_listed (blank : Blank) {texts : List JsString} {text : JsString} (h : text ∈ texts) :
    text.length ≤ (listed blank texts).length := by
  rw [listed, if_neg (List.ne_nil_of_mem h)]
  exact mem_length_le_join _ h

theorem endsNumeral_separator {c : UInt16} (h : c = unit ',' ∨ c = unit ']' ∨ c = unit '}')
    (rest : JsString) : EndsNumeral (c :: rest) := by
  intro d hd
  cases hd
  rcases h with rfl | rfl | rfl
  · decide
  · decide
  · decide

/-- JSON.parse reads the value of a text, white space before it skipped. -/
theorem parseValue_print (text : JsonText) (before : Blank) {depth : Nat}
    (hdepth : text.print.length ≤ depth) {rest : JsString} (hrest : EndsNumeral rest) :
    parseValue depth (before.text ++ (text.print ++ rest)) = some ((text.read : Json N), rest) := by
  rw [parseValue_space before.space]
  induction text using JsonText.induct generalizing before depth rest with
  | scalar text =>
    obtain ⟨c, front, heq, hc, hquote, hbracket, hbrace⟩ := text.front
    have hspace := (startsValue_plain hc).1
    have hparse := text.parse (N := N) hrest
    rw [print] at hdepth ⊢
    rw [heq] at hdepth hparse ⊢
    obtain ⟨depth, rfl⟩ : ∃ n, depth = n + 1 := Nat.exists_eq_add_one_of_ne_zero (by
      rw [List.length_cons] at hdepth
      omega)
    exact parseValue_scalar front rest depth hspace hquote hbracket hbrace hparse
  | str text =>
    obtain ⟨depth, rfl⟩ : ∃ n, depth = n + 1 := Nat.exists_eq_add_one_of_ne_zero (by
      rw [print, StringText.print, List.length_cons] at hdepth
      omega)
    have htext : (str text).print ++ rest = unit '"' :: (text.body ++ unit '"' :: rest) := by
      rw [print, StringText.print, List.cons_append, List.append_assoc]
      rfl
    rw [htext, parseValue, skipSpace_cons (by decide)]
    simp only [if_true, text.valid.parse]
    rfl
  | arr blank items ih =>
    obtain ⟨depth, rfl⟩ : ∃ n, depth = n + 1 := Nat.exists_eq_add_one_of_ne_zero (by
      rw [print, List.length_cons] at hdepth
      omega)
    have htext : (arr blank items).print ++ rest =
        unit '[' :: (listed blank (items.map printItem) ++ unit ']' :: rest) := by
      rw [print, printItems_eq, List.cons_append, List.append_assoc]
      rfl
    have hfront : ∀ item ∈ items, ∃ (before : Blank) (c : UInt16) (rest : JsString),
        printItem item = before.text ++ c :: rest ∧ isJsonSpace c = false ∧ c ≠ unit ']' := by
      intro item _
      obtain ⟨c, more, heq, hc⟩ := item.value.front
      refine ⟨item.before, c, more ++ item.after.text, ?_, (startsValue_plain hc).1,
        (startsValue_plain hc).2.1⟩
      rw [printItem, heq, List.cons_append]
    have hitem : ∀ item ∈ items, ∀ c more, c = unit ',' ∨ c = unit ']' →
        parseValue depth (printItem item ++ c :: more) =
          some ((readItem item : Json N), item.after.text ++ c :: more) := by
      intro item hitem c more hc
      have hends : EndsNumeral (item.after.text ++ c :: more) :=
        item.after.endsNumeral (endsNumeral_separator (hc.imp_right .inl) more)
      have hlength := length_listed blank (List.mem_map_of_mem (f := printItem) hitem)
      rw [print, printItems_eq, List.length_cons, List.length_append] at hdepth
      rw [printItem, List.length_append, List.length_append] at hlength
      rw [printItem, readItem, List.append_assoc, List.append_assoc,
        parseValue_space item.before.space]
      exact ih item hitem item.before (by omega) hends
    have hbracketed := parseBracketed_listed (by decide) (by decide) blank hfront hitem rest
    rw [htext, parseValue, skipSpace_cons (by decide)]
    simp only [if_neg (by decide : unit '[' ≠ unit '"'), if_true]
    rw [hbracketed, read, readItems_eq]
    rfl
  | obj blank members ih =>
    obtain ⟨depth, rfl⟩ : ∃ n, depth = n + 1 := Nat.exists_eq_add_one_of_ne_zero (by
      rw [print, List.length_cons] at hdepth
      omega)
    have htext : (obj blank members).print ++ rest =
        unit '{' :: (listed blank (members.map printMember) ++ unit '}' :: rest) := by
      rw [print, printMembers_eq, List.cons_append, List.append_assoc]
      rfl
    have hfront : ∀ member ∈ members, ∃ (before : Blank) (c : UInt16) (rest : JsString),
        printMember member = before.text ++ c :: rest ∧ isJsonSpace c = false ∧ c ≠ unit '}' := by
      intro member _
      refine ⟨member.before, unit '"', (member.key.body ++ [unit '"']) ++ (member.beforeColon.text ++
        unit ':' :: (member.beforeValue.text ++ (print member.value ++ member.after.text))), ?_,
        by decide, by decide⟩
      rw [printMember, StringText.print, List.cons_append]
    have hmember : ∀ member ∈ members, ∀ c more, c = unit ',' ∨ c = unit '}' →
        parseMember (parseValue depth) (printMember member ++ c :: more) =
          some ((readMember member : JsString × Json N), member.after.text ++ c :: more) := by
      intro member hmember c more hc
      have hends : EndsNumeral (member.after.text ++ c :: more) :=
        member.after.endsNumeral (endsNumeral_separator (hc.imp_right .inr) more)
      have hlength := length_listed blank (List.mem_map_of_mem (f := printMember) hmember)
      rw [print, printMembers_eq, List.length_cons, List.length_append] at hdepth
      rw [printMember] at hlength
      simp only [List.length_append, List.length_cons] at hlength
      have hvalue : parseValue depth (member.value.print ++ (member.after.text ++ c :: more)) =
          some ((member.value.read : Json N), member.after.text ++ c :: more) :=
        ih member hmember member.beforeValue (by omega) hends
      have hprint : printMember member ++ c :: more = member.before.text ++ (unit '"' ::
          (member.key.body ++ unit '"' :: (member.beforeColon.text ++ unit ':' ::
            (member.beforeValue.text ++ (member.value.print ++ (member.after.text ++
              c :: more)))))) := by
        rw [printMember, StringText.print]
        simp only [List.append_assoc, List.cons_append, List.nil_append]
      rw [hprint, parseMember_space member.before.space, parseMember, skipSpace_cons (by decide)]
      simp only [if_true, member.key.valid.parse, Blank.skip,
        skipSpace_cons (by decide : isJsonSpace (unit ':') = false)]
      rw [parseValue_space member.beforeValue.space, hvalue, readMember]
      rfl
    have hbracketed := parseBracketed_listed (by decide) (by decide) blank hfront hmember rest
    rw [htext, parseValue, skipSpace_cons (by decide)]
    simp only [if_neg (by decide : unit '{' ≠ unit '"'), if_neg (by decide : unit '{' ≠ unit '['),
      if_true]
    rw [hbracketed, read, readMembers_eq]
    rfl

/-- The text of a value with white space around it is read as the value. -/
theorem parseJson_print (text : JsonText) (before after : Blank) :
    parseJson (before.text ++ (text.print ++ after.text)) = some (text.read : Json N) := by
  have hends : EndsNumeral after.text := by
    have hblank := after.endsNumeral (s := []) (fun _ h => by cases h)
    rwa [List.append_nil] at hblank
  have hskip : skipSpace after.text = [] := by
    have hblank := after.skip []
    rwa [List.append_nil] at hblank
  have hlength : text.print.length ≤ (before.text ++ (text.print ++ after.text)).length := by
    rw [List.length_append, List.length_append]
    omega
  rw [parseJson, parseValue_print text before hlength hends]
  exact if_pos hskip

section
variable {value : JsString → Option (Json N × JsString)}

theorem exists_item
    (hvalue : ∀ s v rest, value s = some (v, rest) → ∃ (before : Blank) (text : JsonText),
      text.read = v ∧ s = before.text ++ (text.print ++ rest))
    (s : JsString) (v : Json N) (rest : JsString) (blank : Blank) (more : JsString)
    (h : value s = some (v, rest)) (hrest : rest = blank.text ++ more) :
    ∃ item : ItemText JsonText, readItem item = v ∧ s = printItem item ++ more := by
  obtain ⟨before, text, hread, rfl⟩ := hvalue s v rest h
  refine ⟨⟨before, text, blank⟩, hread, ?_⟩
  rw [printItem, hrest, List.append_assoc, List.append_assoc]

theorem exists_member
    (hvalue : ∀ s v rest, value s = some (v, rest) → ∃ (before : Blank) (text : JsonText),
      text.read = v ∧ s = before.text ++ (text.print ++ rest))
    (s : JsString) (field : JsString × Json N) (rest : JsString) (blank : Blank) (more : JsString)
    (h : parseMember value s = some (field, rest)) (hrest : rest = blank.text ++ more) :
    ∃ member : MemberText JsonText, readMember member = field ∧ s = printMember member ++ more := by
  obtain ⟨before, hbefore⟩ := exists_blank s
  rw [parseMember] at h
  split at h
  · cases h
  · next c front hfront =>
    rw [hfront] at hbefore
    split at h
    · next hquote =>
      split at h
      · cases h
      · next key behind hkey =>
        obtain ⟨body, hvalid, rfl⟩ := exists_stringBody hkey
        obtain ⟨beforeColon, hcolon⟩ := exists_blank behind
        split at h
        · cases h
        · next c inside hinside =>
          rw [hinside] at hcolon
          split at h
          · next hcolonUnit =>
            obtain ⟨p, hp, heq⟩ := Option.map_eq_some_iff.1 h
            cases heq
            obtain ⟨beforeValue, text, hread, rfl⟩ := hvalue _ _ _ hp
            refine ⟨⟨before, ⟨body, key, hvalid⟩, beforeColon, beforeValue, text, blank⟩, ?_, ?_⟩
            · rw [readMember, hread]
            · rw [hbefore, hquote, hcolon, hcolonUnit, hrest, printMember, StringText.print]
              simp only [List.append_assoc, List.cons_append, List.nil_append]
          · cases h
    · cases h

end

/-- What is read as a value is the text of the value. -/
theorem exists_value {depth : Nat} {s rest : JsString} {v : Json N}
    (h : parseValue depth s = some (v, rest)) :
    ∃ (before : Blank) (text : JsonText), text.read = v ∧ s = before.text ++ (text.print ++ rest) := by
  induction depth generalizing s rest v with
  | zero => cases h
  | succ depth ih =>
    obtain ⟨before, hbefore⟩ := exists_blank s
    rw [parseValue] at h
    split at h
    · cases h
    · next c more hmore =>
      rw [hmore] at hbefore
      split at h
      · next hquote =>
        obtain ⟨p, hp, heq⟩ := Option.map_eq_some_iff.1 h
        cases heq
        obtain ⟨body, hvalid, rfl⟩ := exists_stringBody hp
        refine ⟨before, .str ⟨body, p.1, hvalid⟩, rfl, ?_⟩
        rw [hbefore, hquote, print, StringText.print, List.cons_append, List.append_assoc]
        rfl
      · split at h
        · next hbracket =>
          obtain ⟨p, hp, heq⟩ := Option.map_eq_some_iff.1 h
          cases heq
          obtain ⟨blank, items, hread, htext⟩ :=
            exists_bracketed (exists_item fun _ _ _ hvalue => ih hvalue) hp
          refine ⟨before, .arr blank items, ?_, ?_⟩
          · rw [read, readItems_eq, hread]
          · rw [hbefore, hbracket, htext, print, printItems_eq, List.cons_append, List.append_assoc]
            rfl
        · split at h
          · next hbrace =>
            obtain ⟨p, hp, heq⟩ := Option.map_eq_some_iff.1 h
            cases heq
            obtain ⟨blank, members, hread, htext⟩ :=
              exists_bracketed (exists_member fun _ _ _ hvalue => ih hvalue) hp
            refine ⟨before, .obj blank members, ?_, ?_⟩
            · rw [read, readMembers_eq, hread]
            · rw [hbefore, hbrace, htext, print, printMembers_eq, List.cons_append,
                List.append_assoc]
              rfl
          · obtain ⟨text, hvalue, hscalar⟩ := exists_scalar h
            refine ⟨before, .scalar text, hvalue, ?_⟩
            rw [hbefore, hscalar, print]

/-- Every text that JSON.parse accepts is the text of a value with white space around it. -/
theorem exists_text {s : JsString} {v : Json N} (h : parseJson s = some v) :
    ∃ (before after : Blank) (text : JsonText), text.read = v ∧
      s = before.text ++ (text.print ++ after.text) := by
  rw [parseJson] at h
  split at h
  · next value rest hvalue =>
    split at h
    · next hskip =>
      cases h
      obtain ⟨before, text, hread, htext⟩ := exists_value hvalue
      obtain ⟨after, hafter⟩ := exists_blank rest
      rw [hskip, List.append_nil] at hafter
      exact ⟨before, after, text, hread, by rw [htext, hafter]⟩
    · cases h
  · cases h

end JsonText

end Musi.Js
