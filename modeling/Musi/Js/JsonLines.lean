import Musi.Js.JsonRoundTrip

namespace Musi.Js
set_option autoImplicit true

variable {N : Type} [JsNumber N]

/-! ## What is written without a gap is one line -/

/-- A code unit that no line break is made of. -/
def Printable (c : UInt16) : Prop := 0x20 ≤ c.toNat

instance : DecidablePred Printable := fun c => inferInstanceAs (Decidable (0x20 ≤ c.toNat))

-- before the instance that runs over all code units
instance (priority := high) (s : JsString) : Decidable (∀ c ∈ s, Printable c) :=
  List.decidableBAll Printable s

theorem quoteUnit_printable (a : UInt16) : ∀ c ∈ quoteUnit a, Printable c := by
  have hhex : ∀ n < 16, Printable (hexDigit n) := by decide
  unfold quoteUnit
  split_ifs with h1 h2 h3 h4 h5 h6 h7 h8
  · decide
  · decide
  · decide
  · decide
  · decide
  · decide
  · decide
  · have ha := a.toNat_lt
    simp only [unicodeEscape, List.forall_mem_cons]
    exact ⟨by decide, by decide, hhex _ (by omega), hhex _ (by omega), hhex _ (by omega),
      hhex _ (by omega), by simp⟩
  · simp only [Bool.or_eq_true, decide_eq_true_eq, not_or] at h8
    simpa [Printable, UInt16.lt_iff_toNat_lt] using h8.1.1

theorem quoteUnits_printable (s : JsString) : ∀ c ∈ quoteUnits s, Printable c := by
  fun_induction quoteUnits s with
  | case1 => simp
  | case2 a => exact quoteUnit_printable a
  | case3 a b s hpair ih =>
    obtain ⟨ha, hb⟩ := (Bool.and_eq_true _ _).mp hpair
    have hraw {c : UInt16} (h : isHighSurrogate c = true ∨ isLowSurrogate c = true) :
        Printable c := by
      simp only [isHighSurrogate, isLowSurrogate, Bool.and_eq_true, decide_eq_true_eq] at h
      simp only [Printable, UInt16.le_iff_toNat_le] at h ⊢
      have : (0xD800 : UInt16).toNat = 0xD800 := rfl
      have : (0xDC00 : UInt16).toNat = 0xDC00 := rfl
      omega
    exact List.forall_mem_cons.2 ⟨hraw (.inl ha), List.forall_mem_cons.2 ⟨hraw (.inr hb), ih⟩⟩
  | case4 a b s hpair ih => exact List.forall_mem_append.2 ⟨quoteUnit_printable a, ih⟩

theorem quote_printable (s : JsString) : ∀ c ∈ quote s, Printable c := by
  rw [quote, List.forall_mem_cons, List.forall_mem_append]
  exact ⟨by decide, quoteUnits_printable s, by decide⟩

theorem join_printable {sep : JsString} {ts : List JsString} (hs : ∀ c ∈ sep, Printable c)
    (ht : ∀ t ∈ ts, ∀ c ∈ t, Printable c) : ∀ c ∈ join sep ts, Printable c := by
  fun_induction join sep ts with
  | case1 => simp
  | case2 t => exact ht t (by simp)
  | case3 t u ts ih =>
    rw [List.forall_mem_cons] at ht
    exact List.forall_mem_append.2 ⟨List.forall_mem_append.2 ⟨ht.1, hs⟩, ih ht.2⟩

theorem bracketed_printable {opening closing : UInt16} {members : List JsString}
    (ho : Printable opening) (hc : Printable closing) (hm : ∀ t ∈ members, ∀ c ∈ t, Printable c) :
    ∀ c ∈ bracketed opening closing [] [] members, Printable c := by
  unfold bracketed
  split
  · simpa using ⟨ho, hc⟩
  · simp only [lineBreak, if_true, List.nil_append, List.append_nil, List.forall_mem_cons,
      List.forall_mem_append]
    exact ⟨ho, join_printable (by decide) hm, hc, by simp⟩

theorem isNumberUnit_printable {c : UInt16} (h : isNumberUnit c = true) : Printable c := by
  simp only [isNumberUnit, isDigit, Bool.or_eq_true, Bool.and_eq_true, decide_eq_true_eq] at h
  rcases h with ((((h | rfl) | rfl) | rfl) | rfl) | rfl
  · exact Nat.le_trans (show 0x20 ≤ (0x30 : UInt16).toNat by decide) (UInt16.le_iff_toNat_le.1 h.1)
  all_goals decide

/-- JSON.stringify writes no control character. -/
theorem stringify_printable (v : Json N) : ∀ c ∈ stringify v, Printable c := by
  unfold stringify
  induction v using Json.induct with
  | null => exact show ∀ c ∈ js "null", Printable c by decide
  | bool b =>
    cases b
    · exact show ∀ c ∈ js "false", Printable c by decide
    · exact show ∀ c ∈ js "true", Printable c by decide
  | num n =>
    rw [render, numberJson]
    split
    · next h =>
      have hunits := (isNumeral_numberUnits (JsNumber.toText_numeral h)).2
      exact fun c hc => isNumberUnit_printable (List.all_eq_true.1 hunits c hc)
    · decide
  | str s => exact quote_printable s
  | arr vs ih =>
    rw [render, renderList_eq]
    refine bracketed_printable (by decide) (by decide) fun t ht => ?_
    obtain ⟨v, hv, rfl⟩ := List.mem_map.1 ht
    exact ih v hv
  | obj es ih =>
    rw [render, renderFields_eq]
    refine bracketed_printable (by decide) (by decide) fun t ht => ?_
    obtain ⟨e, he, rfl⟩ := List.mem_map.1 ht
    rw [renderField, List.forall_mem_append, List.forall_mem_cons]
    exact ⟨quote_printable _, by decide, ih e he⟩

/-- The text of an object ends with its closing brace. -/
theorem stringify_obj_getLast (es : Entries (Json N)) :
    (stringify (.obj es)).getLast? = some (unit '}') := by
  rw [stringify, render, bracketed]
  split
  · rfl
  · rw [List.getLast?_cons, List.getLast?_append]
    rfl

/-! ## Lines -/

/-- Splitting terminated lines gives them back, and the empty part after the last one. -/
theorem splitOn_join {c : UInt16} {ls : List JsString} (hne : ls ≠ []) (h : ∀ l ∈ ls, c ∉ l) :
    splitOn c (join [c] ls ++ [c]) = ls ++ [[]] := by
  fun_induction join [c] ls with
  | case1 => exact absurd rfl hne
  | case2 l => rw [splitOn_append (h l (by simp))]; rfl
  | case3 l l' ls ih =>
    rw [List.forall_mem_cons] at h
    rw [List.append_assoc, List.append_assoc, List.singleton_append, splitOn_append h.1,
      ih (by simp) h.2]
    rfl

end Musi.Js
