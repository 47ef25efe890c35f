import Musi.Js.Json

namespace Musi.Js
set_option autoImplicit true

theorem hexValue_hexDigit : ∀ n < 16, hexValue (hexDigit n) = some n := by decide

theorem parseStringBody_unicodeEscape (c : UInt16) (t : JsString) :
    parseStringBody (unicodeEscape c ++ t) = (parseStringBody t).map fun p => (c :: p.1, p.2) := by
  have hc := c.toNat_lt
  have h1 := hexValue_hexDigit (c.toNat / 4096) (by omega)
  have h2 := hexValue_hexDigit (c.toNat / 256 % 16) (by omega)
  have h3 := hexValue_hexDigit (c.toNat / 16 % 16) (by omega)
  have h4 := hexValue_hexDigit (c.toNat % 16) (by omega)
  have hn : 4096 * (c.toNat / 4096) + 256 * (c.toNat / 256 % 16) + 16 * (c.toNat / 16 % 16) +
      c.toNat % 16 = c.toNat := by omega
  have hq : unit '\\' ≠ unit '"' := by decide
  simp only [unicodeEscape, List.cons_append, List.nil_append]
  rw [parseStringBody.eq_def]
  simp only [if_neg hq, if_true, h1, h2, h3, h4, hn, UInt16.ofNat_toNat]

theorem parseStringBody_simple (e c : UInt16) (t : JsString) (he : simpleEscape e = some c)
    (hu : e ≠ unit 'u') : parseStringBody (unit '\\' :: e :: t) =
      (parseStringBody t).map fun p => (c :: p.1, p.2) := by
  have hq : unit '\\' ≠ unit '"' := by decide
  rw [parseStringBody.eq_def]
  simp only [if_neg hq, if_true, if_neg hu, he]

theorem parseStringBody_raw (c : UInt16) (t : JsString) (hq : c ≠ unit '"') (hb : c ≠ unit '\\')
    (hc : ¬ c < 0x20) :
    parseStringBody (c :: t) = (parseStringBody t).map fun p => (c :: p.1, p.2) := by
  rw [parseStringBody.eq_def]
  simp only [if_neg hq, if_neg hb, if_neg hc]

theorem parseStringBody_close (t : JsString) :
    parseStringBody (unit '"' :: t) = some ([], t) := by
  rw [parseStringBody.eq_def]
  simp only [if_true]

/-- Reading back what QuoteJSONString wrote for one code unit. -/
theorem parseStringBody_quoteUnit (c : UInt16) (t : JsString) :
    parseStringBody (quoteUnit c ++ t) = (parseStringBody t).map fun p => (c :: p.1, p.2) := by
  unfold quoteUnit
  split
  · next h => subst h; exact parseStringBody_simple (unit 'b') _ t (by decide) (by decide)
  split
  · next h => subst h; exact parseStringBody_simple (unit 't') _ t (by decide) (by decide)
  split
  · next h => subst h; exact parseStringBody_simple (unit 'n') _ t (by decide) (by decide)
  split
  · next h => subst h; exact parseStringBody_simple (unit 'f') _ t (by decide) (by decide)
  split
  · next h => subst h; exact parseStringBody_simple (unit 'r') _ t (by decide) (by decide)
  split
  · next h => subst h; exact parseStringBody_simple (unit '"') _ t (by decide) (by decide)
  split
  · next h => subst h; exact parseStringBody_simple (unit '\\') _ t (by decide) (by decide)
  split
  · exact parseStringBody_unicodeEscape c t
  · next hq hb hc =>
    simp only [Bool.or_eq_true, decide_eq_true_eq, not_or] at hc
    exact parseStringBody_raw c t hq hb hc.1.1

theorem isSurrogate_raw (h : isHighSurrogate c = true ∨ isLowSurrogate c = true) :
    c ≠ unit '"' ∧ c ≠ unit '\\' ∧ ¬ c < 0x20 := by
  simp only [isHighSurrogate, isLowSurrogate, Bool.and_eq_true, decide_eq_true_eq,
    UInt16.le_iff_toNat_le] at h
  have hc : 0xD800 ≤ c.toNat := by
    rcases h with h | h
    · exact h.1
    · exact le_trans (by decide) h.1
  refine ⟨?_, ?_, ?_⟩
  · rintro rfl
    exact absurd hc (by decide)
  · rintro rfl
    exact absurd hc (by decide)
  · rw [UInt16.lt_iff_toNat_lt]
    have : (0x20 : UInt16).toNat = 32 := rfl
    omega

/-- A quoted string reads back as the string. -/
theorem parseStringBody_quoteUnits (s rest : JsString) :
    parseStringBody (quoteUnits s ++ unit '"' :: rest) = some (s, rest) := by
  induction s using quoteUnits.induct with
  | case1 => exact parseStringBody_close rest
  | case2 a =>
    rw [quoteUnits, parseStringBody_quoteUnit, parseStringBody_close]
    rfl
  | case3 a b s hp ih =>
    rw [Bool.and_eq_true] at hp
    obtain ⟨ha1, ha2, ha3⟩ := isSurrogate_raw (.inl hp.1)
    obtain ⟨hb1, hb2, hb3⟩ := isSurrogate_raw (.inr hp.2)
    rw [quoteUnits, if_pos (by simp [hp])]
    simp only [List.cons_append]
    rw [parseStringBody_raw a _ ha1 ha2 ha3, parseStringBody_raw b _ hb1 hb2 hb3, ih]
    rfl
  | case4 a b s hp ih =>
    rw [quoteUnits, if_neg hp, List.append_assoc, parseStringBody_quoteUnit, ih]
    rfl

theorem skipSpace_append {ws : JsString} (h : ws.all isJsonSpace = true) (s : JsString) :
    skipSpace (ws ++ s) = skipSpace s := by
  induction ws with
  | nil => rfl
  | cons c ws ih =>
    rw [List.all_cons, Bool.and_eq_true] at h
    rw [← ih h.2]
    simp [skipSpace, h.1]

theorem skipSpace_cons (h : isJsonSpace c = false) (s : JsString) :
    skipSpace (c :: s) = c :: s := by
  simp [skipSpace, h]

variable {N : Type} [JsNumber N]

theorem parseValue_space {ws : JsString} (h : ws.all isJsonSpace = true) (depth : Nat)
    (s : JsString) : (parseValue depth (ws ++ s) : Option (Json N × JsString)) =
      parseValue depth s := by
  cases depth with
  | zero => rfl
  | succ depth => rw [parseValue, parseValue, skipSpace_append h]

omit [JsNumber N] in
theorem parseMember_space {ws : JsString} (h : ws.all isJsonSpace = true)
    (value : JsString → Option (Json N × JsString)) (s : JsString) :
    parseMember value (ws ++ s) = parseMember value s := by
  rw [parseMember, parseMember, skipSpace_append h]

/-- A text whose first code unit cannot continue a numeral. -/
def EndsNumeral (s : JsString) : Prop := ∀ c ∈ s.head?, isNumberUnit c = false

/-- The texts of a JSON value that JSON.stringify can have written: finite numbers only, and
objects with distinct names in key order. -/
inductive Canonical : Json N → Prop
  | null : Canonical .null
  | bool (b : Bool) : Canonical (.bool b)
  | num (h : JsNumber.isFinite n = true) : Canonical (.num n)
  | str (s : JsString) : Canonical (.str s)
  | arr (h : ∀ v ∈ vs, Canonical v) : Canonical (.arr vs)
  | obj (nodup : (Entries.keys es).Nodup) (ordered : ownKeyOrder es = es)
      (h : ∀ e ∈ es, Canonical e.2) : Canonical (.obj es)

theorem renderList_eq (gap indent : JsString) (vs : List (Json N)) :
    renderList gap indent vs = vs.map (render gap indent) := by
  induction vs with
  | nil => rfl
  | cons v vs ih => rw [renderList, ih, List.map_cons]

theorem renderFields_eq (gap indent : JsString) (es : List (JsString × Json N)) :
    renderFields gap indent es = es.map (renderField gap indent) := by
  induction es with
  | nil => rfl
  | cons e es ih => rw [renderFields, ih, List.map_cons]

theorem parseScalar_numeral {s rest : JsString} (h : isNumeral s = true) (hr : EndsNumeral rest) :
    parseScalar (s ++ rest) = some (.num (JsNumber.ofText s : N), rest) := by
  obtain ⟨hne, hall⟩ := isNumeral_numberUnits h
  have hword (w : JsString) (hw : w ≠ []) (hw' : isNumberUnit (w.headD 0) = false) :
      afterWord w (s ++ rest) = none := by
    rw [afterWord, if_neg]
    rw [startsWith_iff]
    intro hp
    cases s with
    | nil => exact hne rfl
    | cons c s =>
      cases w with
      | nil => exact hw rfl
      | cons d w =>
        obtain ⟨rfl, -⟩ := List.cons_prefix_cons.1 hp
        rw [List.all_cons, Bool.and_eq_true] at hall
        simp [hall.1] at hw'
  have htake : (s ++ rest).takeWhile isNumberUnit = s := by
    rw [List.takeWhile_append_of_pos (List.all_eq_true.1 hall)]
    cases rest with
    | nil => simp
    | cons c rest => simp [hr c rfl]
  have hdrop : (s ++ rest).dropWhile isNumberUnit = rest := by
    rw [List.dropWhile_append_of_pos (List.all_eq_true.1 hall)]
    cases rest with
    | nil => simp
    | cons c rest => simp [hr c rfl]
  rw [parseScalar, hword (js "null") (by decide) (by decide),
    hword (js "true") (by decide) (by decide), hword (js "false") (by decide) (by decide)]
  simp only [htake, hdrop, h, if_true]

section Brackets

variable {α : Type} {item : JsString → Option (α × JsString)} {closing : UInt16}

/-- Reading a separated list of texts that the item parser reads one at a time. -/
theorem parseSequence_join {before after rest : JsString} (hafter : after.all isJsonSpace = true)
    (hspace : isJsonSpace closing = false) (hend : EndsNumeral (after ++ closing :: rest))
    (hcomma : closing ≠ unit ',') {items : List (α × JsString)} (hne : items ≠ [])
    (hitem : ∀ i ∈ items, ∀ t, EndsNumeral t → item (before ++ i.2 ++ t) = some (i.1, t))
    {rounds : Nat} (hr : items.length ≤ rounds) :
    parseSequence item closing rounds (before ++ join (unit ',' :: before) (items.map Prod.snd) ++
      (after ++ closing :: rest)) = some (items.map Prod.fst, rest) := by
  induction items generalizing rounds with
  | nil => exact absurd rfl hne
  | cons i is ih =>
    obtain ⟨rounds, rfl⟩ : ∃ n, rounds = n + 1 := ⟨rounds - 1, by simp at hr; omega⟩
    cases is with
    | nil =>
      rw [parseSequence, List.map_cons, List.map_nil, join, hitem i (by simp) _ hend]
      simp only [skipSpace_append hafter, skipSpace_cons hspace, if_true]
      rfl
    | cons j is =>
      have hc : EndsNumeral (unit ',' :: (before ++ join (unit ',' :: before)
          ((j :: is).map Prod.snd) ++ (after ++ closing :: rest))) := by
        rintro c hc
        cases hc
        rfl
      have htext : before ++ join (unit ',' :: before) ((i :: j :: is).map Prod.snd) ++
          (after ++ closing :: rest) = before ++ i.2 ++ unit ',' :: (before ++
          join (unit ',' :: before) ((j :: is).map Prod.snd) ++ (after ++ closing :: rest)) := by
        simp [join]
      rw [htext, parseSequence, hitem i (by simp) _ hc]
      have hrest := ih (by simp) (fun i hi => hitem i (List.mem_cons_of_mem _ hi))
        (show (j :: is).length ≤ rounds by simpa using hr)
      simp only [skipSpace_cons (by decide : isJsonSpace (unit ',') = false), if_neg hcomma.symm,
        if_true, hrest]
      rfl

theorem length_le_join (sep : JsString) (h : sep ≠ []) (ts : List JsString) :
    ts.length ≤ (join sep ts).length + 1 := by
  induction ts with
  | nil => simp
  | cons t ts ih =>
    cases ts with
    | nil => simp [join]
    | cons u us =>
      have := List.length_pos_iff.2 h
      simp only [join, List.length_append, List.length_cons] at ih ⊢
      omega

theorem bracketed_eq (opening closing : UInt16) (gap indent : JsString) (members : List JsString) :
    bracketed opening closing gap indent members =
      opening :: (bracketed opening closing gap indent members).tail := by
  unfold bracketed; split <;> rfl

theorem lineBreak_space (gap : JsString) {indent : JsString} (hi : indent.all isJsonSpace = true) :
    (lineBreak gap indent).all isJsonSpace = true := by
  unfold lineBreak
  split
  · rfl
  · rw [List.all_cons, hi]; rfl

/-- Reading back a bracketed list laid out with any gap of white space. -/
theorem parseBracketed_bracketed (item : JsString → Option (α × JsString))
    (opening closing : UInt16) {gap indent : JsString} (items : List (α × JsString))
    (hg : gap.all isJsonSpace = true) (hi : indent.all isJsonSpace = true)
    (hspace : isJsonSpace closing = false) (hnum : isNumberUnit closing = false)
    (hcomma : closing ≠ unit ',')
    (hhead : ∀ i ∈ items, ∃ c t, i.2 = c :: t ∧ isJsonSpace c = false ∧ c ≠ closing)
    (hitem : ∀ i ∈ items, ∀ ws t, ws.all isJsonSpace = true → EndsNumeral t →
      item (ws ++ i.2 ++ t) = some (i.1, t)) (rest : JsString) :
    parseBracketed item closing
      ((bracketed opening closing gap indent (items.map Prod.snd)).tail ++ rest) =
        some (items.map Prod.fst, rest) := by
  cases hitems : items with
  | nil => simp [bracketed, parseBracketed, skipSpace_cons hspace]
  | cons i is =>
    have hin := lineBreak_space gap (show (indent ++ gap).all isJsonSpace = true by
      rw [List.all_append, hi, hg]; rfl)
    have hout := lineBreak_space gap hi
    set before := lineBreak gap (indent ++ gap) with hbefore
    set after := lineBreak gap indent with hafter
    have htext : (bracketed opening closing gap indent (items.map Prod.snd)).tail ++ rest =
        before ++ join (unit ',' :: before) (items.map Prod.snd) ++ (after ++ closing :: rest) := by
      rw [bracketed, if_neg (by simp [hitems]), ← hbefore, ← hafter]
      simp
    have hend : EndsNumeral (after ++ closing :: rest) := by
      intro c hc
      rw [hafter, lineBreak] at hc
      split at hc <;> cases hc
      · exact hnum
      · rfl
    obtain ⟨c, t, hct, hcs, hcc⟩ := hhead i (by simp [hitems])
    have hfront : ∃ t', join (unit ',' :: before) (items.map Prod.snd) = c :: t' := by
      cases is <;> simp [hitems, join, hct]
    obtain ⟨t', ht'⟩ := hfront
    have hskip : (skipSpace (before ++ join (unit ',' :: before) (items.map Prod.snd) ++
        (after ++ closing :: rest))).head? = some c := by
      rw [List.append_assoc, skipSpace_append hin, ht', List.cons_append, skipSpace_cons hcs]
      rfl
    rw [← hitems, htext, parseBracketed, hskip, if_neg (by simpa using hcc)]
    refine parseSequence_join hout hspace hend hcomma (by simp [hitems])
      (fun i hi t ht => hitem i hi before t hin ht) ?_
    have hlen := length_le_join (unit ',' :: before) (by simp) (items.map Prod.snd)
    simp only [List.length_map, List.length_append, List.length_cons] at hlen ⊢
    omega

end Brackets

/-- The code units that the text of a value can start with. -/
def startsValue (c : UInt16) : Bool :=
  c = unit 'n' || c = unit 't' || c = unit 'f' || c = unit '"' || c = unit '[' || c = unit '{' ||
    c = unit '-' || isDigit c

theorem startsValue_plain (h : startsValue c = true) :
    isJsonSpace c = false ∧ c ≠ unit ']' ∧ c ≠ unit '}' := by
  simp only [startsValue, isDigit, Bool.or_eq_true, Bool.and_eq_true, decide_eq_true_eq,
    UInt16.le_iff_toNat_le] at h
  rcases h with ((((((rfl | rfl) | rfl) | rfl) | rfl) | rfl) | rfl) | h
  all_goals try decide
  have h1 : 48 ≤ c.toNat := h.1
  have h2 : c.toNat ≤ 57 := h.2
  refine ⟨?_, ?_, ?_⟩
  · rw [Bool.eq_false_iff]
    intro hs
    simp only [isJsonSpace, Bool.or_eq_true, decide_eq_true_eq] at hs
    rcases hs with ((rfl | rfl) | rfl) | rfl <;> exact absurd h1 (by decide)
  · rintro rfl
    exact absurd h2 (by decide)
  · rintro rfl
    exact absurd h2 (by decide)

theorem isNumeral_head (h : isNumeral s = true) :
    ∃ c t, s = c :: t ∧ (c = unit '-' ∨ isDigit c = true) := by
  cases s with
  | nil => simp [isNumeral, isIntegerPart, isDigits] at h
  | cons c t =>
    refine ⟨c, t, rfl, ?_⟩
    by_cases hc : c = unit '-'
    · exact .inl hc
    · refine .inr ?_
      by_contra hd
      simp [isNumeral, hc, hd, isIntegerPart, isDigits] at h

theorem render_head (gap indent : JsString) {v : Json N} (h : Canonical v) :
    ∃ c t, render gap indent v = c :: t ∧ startsValue c = true := by
  cases h with
  | null => exact ⟨unit 'n', js "ull", rfl, rfl⟩
  | bool b =>
    cases b
    · exact ⟨unit 'f', js "alse", rfl, rfl⟩
    · exact ⟨unit 't', js "rue", rfl, rfl⟩
  | @num n h =>
    obtain ⟨c, t, hc, hd⟩ := isNumeral_head (JsNumber.toText_numeral h)
    refine ⟨c, t, by rw [render, numberJson, if_pos h, hc], ?_⟩
    rcases hd with rfl | hd
    · rfl
    · simp [startsValue, hd]
  | str s => exact ⟨unit '"', _, rfl, rfl⟩
  | arr => exact ⟨unit '[', _, by rw [render, bracketed_eq], rfl⟩
  | obj => exact ⟨unit '{', _, by rw [render, bracketed_eq], rfl⟩

theorem parseValue_scalar {v : Json N} {c : UInt16} (t rest : JsString) (depth : Nat)
    (hs : isJsonSpace c = false) (hq : c ≠ unit '"') (ha : c ≠ unit '[') (ho : c ≠ unit '{')
    (h : parseScalar (c :: t ++ rest) = some (v, rest)) :
    parseValue (depth + 1) (c :: t ++ rest) = some (v, rest) := by
  rw [List.cons_append] at h ⊢
  rw [parseValue, skipSpace_cons hs]
  simp only [if_neg hq, if_neg ha, if_neg ho, h]

theorem isDigit_plain (h : isDigit c = true) :
    isJsonSpace c = false ∧ c ≠ unit '"' ∧ c ≠ unit '[' ∧ c ≠ unit '{' := by
  refine ⟨(startsValue_plain (by simp [startsValue, h])).1, ?_, ?_, ?_⟩ <;>
    (rintro rfl; exact absurd h (by decide))

theorem mem_length_le_join (sep : JsString) {t : JsString} {ts : List JsString} (h : t ∈ ts) :
    t.length ≤ (join sep ts).length := by
  induction ts with
  | nil => simp at h
  | cons u us ih =>
    cases us with
    | nil => rw [List.mem_singleton.1 h]; rfl
    | cons w ws =>
      rcases List.mem_cons.1 h with rfl | h
      · simp [join]
      · have := ih h
        simp only [join, List.length_append]
        omega

theorem mem_length_lt_bracketed (opening closing : UInt16) (gap indent : JsString) {t : JsString}
    {ts : List JsString} (h : t ∈ ts) :
    t.length + 1 < (bracketed opening closing gap indent ts).length := by
  have := mem_length_le_join (unit ',' :: lineBreak gap (indent ++ gap)) h
  rw [bracketed, if_neg (List.ne_nil_of_mem h)]
  simp only [List.length_append, List.length_cons]
  omega

theorem parseMember_renderField {gap indent : JsString} (k : JsString) {v : Json N}
    {value : JsString → Option (Json N × JsString)}
    {t : JsString} (hvalue : ∀ ws, ws.all isJsonSpace = true →
      value (ws ++ (render gap indent v ++ t)) = some (v, t)) :
    parseMember value (renderField gap indent (k, v) ++ t) = some ((k, v), t) := by
  have hsp : (if gap = [] then [] else [unit ' ']).all isJsonSpace = true := by split <;> rfl
  have htext : renderField gap indent (k, v) ++ t = unit '"' :: (quoteUnits k ++ unit '"' ::
      unit ':' :: ((if gap = [] then [] else [unit ' ']) ++ (render gap indent v ++ t))) := by
    simp [renderField, quote]
  rw [htext, parseMember, skipSpace_cons (by decide)]
  simp only [if_true, parseStringBody_quoteUnits,
    skipSpace_cons (by decide : isJsonSpace (unit ':') = false), hvalue _ hsp]
  rfl

theorem depth_succ {gap indent : JsString} {v : Json N} (h : Canonical v) {depth : Nat}
    (hd : (render gap indent v).length ≤ depth) : ∃ n, depth = n + 1 := by
  obtain ⟨c, t, hc, -⟩ := render_head gap indent h
  rw [hc, List.length_cons] at hd
  exact ⟨depth - 1, by omega⟩

/-- JSON.parse reads back what JSON.stringify wrote, whatever the gap. -/
theorem parseValue_render {gap : JsString} (hg : gap.all isJsonSpace = true) {v : Json N}
    (h : Canonical v) {indent : JsString} (hi : indent.all isJsonSpace = true) {depth : Nat}
    (hd : (render gap indent v).length ≤ depth) {rest : JsString} (hr : EndsNumeral rest) :
    parseValue depth (render gap indent v ++ rest) = some (v, rest) := by
  induction h generalizing indent depth rest with
  | null =>
    obtain ⟨depth, rfl⟩ := depth_succ .null hd
    exact parseValue_scalar (js "ull") rest depth (by decide) (by decide) (by decide) (by decide)
      rfl
  | bool b =>
    obtain ⟨depth, rfl⟩ := depth_succ (.bool b) hd
    cases b
    · exact parseValue_scalar (js "alse") rest depth (by decide) (by decide) (by decide)
        (by decide) rfl
    · exact parseValue_scalar (js "rue") rest depth (by decide) (by decide) (by decide)
        (by decide) rfl
  | @num n h =>
    obtain ⟨depth, rfl⟩ := depth_succ (.num h) hd
    have hs := parseScalar_numeral (N := N) (JsNumber.toText_numeral h) hr
    rw [JsNumber.ofText_toText h] at hs
    obtain ⟨c, t, hc, hcd⟩ := isNumeral_head (JsNumber.toText_numeral h)
    rw [render, numberJson, if_pos h]
    rw [hc] at hs ⊢
    rcases hcd with rfl | hcd
    · exact parseValue_scalar t rest depth (by decide) (by decide) (by decide) (by decide) hs
    · obtain ⟨h1, h2, h3, h4⟩ := isDigit_plain hcd
      exact parseValue_scalar t rest depth h1 h2 h3 h4 hs
  | str s =>
    obtain ⟨depth, rfl⟩ := depth_succ (.str s) hd
    have htext : render gap indent (.str s : Json N) ++ rest =
        unit '"' :: (quoteUnits s ++ unit '"' :: rest) := by simp [render, quote]
    rw [htext, parseValue, skipSpace_cons (by decide)]
    simp only [if_true, parseStringBody_quoteUnits, Option.map_some]
  | @arr vs h ih =>
    obtain ⟨depth, rfl⟩ := depth_succ (.arr h) hd
    have hin : (indent ++ gap).all isJsonSpace = true := by rw [List.all_append, hi, hg]; rfl
    set items := vs.map fun v => (v, render gap (indent ++ gap) v) with hitems
    have hsnd : renderList gap (indent ++ gap) vs = items.map Prod.snd := by
      simp [renderList_eq, hitems]
    have hfst : items.map Prod.fst = vs := by rw [hitems, List.map_map]; exact List.map_id vs
    rw [render, hsnd] at hd ⊢
    have hb := parseBracketed_bracketed (parseValue (N := N) depth) (unit '[') (unit ']') items
      hg hi (by decide) (by decide) (by decide) (fun i hm => by
        obtain ⟨v, hv, rfl⟩ := List.mem_map.1 hm
        obtain ⟨c, t, hc, hs⟩ := render_head gap (indent ++ gap) (h v hv)
        exact ⟨c, t, hc, (startsValue_plain hs).1, (startsValue_plain hs).2.1⟩)
      (fun i hm ws t hws ht => by
        have hlen := mem_length_lt_bracketed (unit '[') (unit ']') gap indent
          (List.mem_map_of_mem (f := Prod.snd) hm)
        obtain ⟨v, hv, rfl⟩ := List.mem_map.1 hm
        rw [List.append_assoc, parseValue_space hws]
        exact ih v hv hin (by simp only at hlen; omega) ht) rest
    rw [bracketed_eq, List.cons_append, parseValue, skipSpace_cons (by decide)]
    simp only [if_neg (by decide : unit '[' ≠ unit '"'), if_true, hb, hfst, Option.map_some]
  | @obj es nodup ordered h ih =>
    obtain ⟨depth, rfl⟩ := depth_succ (.obj nodup ordered h) hd
    have hin : (indent ++ gap).all isJsonSpace = true := by rw [List.all_append, hi, hg]; rfl
    set items := es.map fun e => (e, renderField gap (indent ++ gap) e) with hitems
    have hsnd : renderFields gap (indent ++ gap) es = items.map Prod.snd := by
      simp [renderFields_eq, hitems]
    have hfst : items.map Prod.fst = es := by rw [hitems, List.map_map]; exact List.map_id es
    rw [render, hsnd] at hd ⊢
    have hb := parseBracketed_bracketed (parseMember (parseValue (N := N) depth)) (unit '{')
      (unit '}') items hg hi (by decide) (by decide) (by decide)
      (fun i hm => by
        obtain ⟨⟨k, v⟩, he, rfl⟩ := List.mem_map.1 hm
        exact ⟨unit '"', _, by simp only [renderField, quote, List.cons_append]; rfl,
          by decide, by decide⟩)
      (fun i hm ws t hws ht => by
        have hlen := mem_length_lt_bracketed (unit '{') (unit '}') gap indent
          (List.mem_map_of_mem (f := Prod.snd) hm)
        obtain ⟨⟨k, v⟩, he, rfl⟩ := List.mem_map.1 hm
        rw [List.append_assoc, parseMember_space hws]
        refine parseMember_renderField k fun ws hws => ?_
        rw [parseValue_space hws]
        refine ih (k, v) he hin ?_ ht
        simp only [renderField, List.length_append, List.length_cons] at hlen ⊢
        omega) rest
    have hobj : (objectOf es : Json N) = .obj es := by
      rw [objectOf, Record.fromEntries_entries nodup, ordered]
    rw [bracketed_eq, List.cons_append, parseValue, skipSpace_cons (by decide)]
    simp only [if_neg (by decide : unit '{' ≠ unit '"'), if_neg (by decide : unit '{' ≠ unit '['),
      if_true, hb, hfst, Option.map_some, hobj]

/-- White space after the value of a text changes nothing. -/
theorem parseJson_render {gap : JsString} (hg : gap.all isJsonSpace = true) {v : Json N}
    (h : Canonical v) {after : JsString} (ha : after.all isJsonSpace = true) :
    parseJson (render gap [] v ++ after) = some v := by
  have hend : EndsNumeral after := by
    intro c hc
    cases after with
    | nil => cases hc
    | cons d after =>
      cases hc
      rw [List.all_cons, Bool.and_eq_true] at ha
      have hs := ha.1
      simp only [isJsonSpace, Bool.or_eq_true, decide_eq_true_eq] at hs
      rcases hs with ((rfl | rfl) | rfl) | rfl <;> decide
  have hs : skipSpace after = [] := List.dropWhile_eq_nil_iff.2 (List.all_eq_true.1 ha)
  rw [parseJson, parseValue_render hg h rfl (by simp) hend]
  simp only [hs, if_true]

theorem parseJson_stringify {v : Json N} (h : Canonical v) : parseJson (stringify v) = some v := by
  have hg : ([] : JsString).all isJsonSpace = true := rfl
  simpa [stringify] using parseJson_render hg h hg

/-- JSON.stringify tells canonical values apart. -/
theorem stringify_injective {v w : Json N} (hv : Canonical v) (hw : Canonical w)
    (h : stringify v = stringify w) : v = w := by
  have h' := parseJson_stringify hw
  rw [← h, parseJson_stringify hv] at h'
  exact Option.some.inj h'

/-! ## White space -/

theorem isWhiteSpace_not_numberUnit (h : isWhiteSpace c = true) : isNumberUnit c = false := by
  have hm : (unit '-').toNat = 45 := rfl
  have hp : (unit '+').toNat = 43 := rfl
  have hd : (unit '.').toNat = 46 := rfl
  have he : (unit 'e').toNat = 101 := rfl
  have hE : (unit 'E').toNat = 69 := rfl
  rw [Bool.eq_false_iff]
  intro hn
  simp only [isWhiteSpace, isNumberUnit, isDigit, Bool.or_eq_true, Bool.and_eq_true,
    decide_eq_true_eq, ← UInt16.toNat_inj, UInt16.le_iff_toNat_le, UInt16.reduceToNat, hm, hp, hd,
    he, hE] at h hn
  omega

/-- White space is no JSON text. -/
theorem parseJson_blank (h : trim s = []) : parseJson (N := N) s = none := by
  have hspace := isWhiteSpace_of_trim h
  have hvalue (depth : Nat) : parseValue (N := N) depth s = none := by
    cases depth with
    | zero => rfl
    | succ depth =>
      unfold parseValue
      split
      · rfl
      · next c rest hc =>
        have hmem : c ∈ s := (List.dropWhile_sublist _).subset (hc ▸ List.mem_cons_self)
        have hc := hspace c hmem
        have hne (x : UInt16) (hx : isWhiteSpace x = false) : c ≠ x := fun h => by
          rw [h, hx] at hc
          cases hc
        have hword (x : UInt16) (word : JsString) (hx : isWhiteSpace x = false) :
            afterWord (x :: word) (c :: rest) = none := if_neg fun h => by
          rw [startsWith_iff, List.cons_prefix_cons] at h
          exact hne x hx h.1.symm
        have hnumeral : (c :: rest).takeWhile isNumberUnit = [] :=
          List.takeWhile_cons_of_neg (by rw [isWhiteSpace_not_numberUnit hc]; exact Bool.false_ne_true)
        rw [if_neg (hne _ (by decide)), if_neg (hne _ (by decide)), if_neg (hne _ (by decide)),
          parseScalar]
        have hnull : afterWord (js "null") (c :: rest) = none := hword _ _ (by decide)
        have htrue : afterWord (js "true") (c :: rest) = none := hword _ _ (by decide)
        have hfalse : afterWord (js "false") (c :: rest) = none := hword _ _ (by decide)
        simp only [hnull, htrue, hfalse, hnumeral]
        rfl
  rw [parseJson, hvalue]

end Musi.Js
