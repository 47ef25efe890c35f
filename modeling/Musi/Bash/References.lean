import Musi.Bash.Script

namespace Musi.Bash
open Musi.Js
set_option autoImplicit true

/-! ## Texts with references to variables -/

/-- A reference after its dollar sign, `NAME` or `{NAME}`: the variable, and the text after it. -/
def readReference : JsString → Option (JsString × JsString)
  | [] => none
  | c :: s =>
    if isNameStart c then some (c :: s.takeWhile isNameUnit, s.dropWhile isNameUnit)
    else if c = openBrace then
      let name := s.takeWhile isNameUnit
      match s.dropWhile isNameUnit with
      | [] => none
      | d :: rest => if isName name = true ∧ d = closeBrace then some (name, rest) else none
    else none

/-- A text as a word, its references read as such; the number counts the code units that are still
part of a reference. -/
def references : Nat → JsString → Word
  | _, [] => []
  | skipped + 1, _ :: s => references skipped s
  | 0, c :: s =>
    if c = dollar then
      match readReference s with
      | some (name, rest) => .param name :: references (s.length - rest.length) s
      | none => .lit c :: references 0 s
    else .lit c :: references 0 s

theorem references_skip (skipped : Nat) (s : JsString) :
    references skipped s = references 0 (s.drop skipped) := by
  induction skipped generalizing s with
  | zero => rfl
  | succ skipped ih =>
    cases s with
    | nil => rfl
    | cons c s => exact ih s

/-- The two forms of a reference. -/
theorem readReference_eq {s name rest : JsString} (h : readReference s = some (name, rest)) :
    isName name = true ∧
      (s = name ++ rest ∧ (∀ c ∈ rest.head?, isNameUnit c = false) ∨
        s = openBrace :: (name ++ closeBrace :: rest)) := by
  cases s with
  | nil => cases h
  | cons c s =>
    rw [readReference] at h
    split at h
    · next hstart =>
      cases h
      have hunits : (s.takeWhile isNameUnit).all isNameUnit = true := by
        rw [List.all_eq_true]
        exact fun d hd => List.mem_takeWhile_imp hd
      refine ⟨isName_iff.2 ⟨c, _, rfl, hstart, hunits⟩, .inl ⟨?_, fun d hd => ?_⟩⟩
      · rw [List.cons_append, List.takeWhile_append_dropWhile]
      · exact eq_false_of_ne_true (List.head?_dropWhile_not isNameUnit s |> fun h => by
          rw [Option.mem_def.1 hd] at h
          simpa using h)
    · split at h
      · next hopen =>
        subst hopen
        simp only at h
        split at h
        · cases h
        · next d t hdrop =>
          split at h
          · next hname =>
            cases h
            refine ⟨hname.1, .inr ?_⟩
            rw [← hname.2, ← hdrop, List.takeWhile_append_dropWhile]
          · cases h
      · cases h

theorem isName_of_mem_references {skipped : Nat} {s name : JsString}
    (h : .param name ∈ references skipped s) : isName name = true := by
  induction s generalizing skipped with
  | nil => cases h
  | cons c s ih =>
    cases skipped with
    | succ skipped => exact ih h
    | zero =>
      rw [references] at h
      split at h
      · cases hread : readReference s with
        | none =>
          rw [hread] at h
          exact ih (List.mem_of_ne_of_mem (by intro heq; cases heq) h)
        | some read =>
          rw [hread] at h
          rcases List.mem_cons.1 h with heq | h
          · cases heq
            exact (readReference_eq hread).1
          · exact ih h
      · exact ih (List.mem_of_ne_of_mem (by intro heq; cases heq) h)

theorem references_param {s name rest : JsString} (h : readReference s = some (name, rest)) :
    references 0 (dollar :: s) = .param name :: references 0 rest := by
  have hdrop : s.drop (s.length - rest.length) = rest := by
    rcases (readReference_eq h).2 with ⟨rfl, -⟩ | rfl
    · rw [List.length_append, Nat.add_sub_cancel, List.drop_left]
    · have hsplit : openBrace :: (name ++ closeBrace :: rest) =
          (openBrace :: (name ++ [closeBrace])) ++ rest := by
        rw [List.cons_append, List.append_assoc]
        rfl
      rw [hsplit, List.length_append, Nat.add_sub_cancel, List.drop_left]
  rw [references, if_pos rfl, h]
  simp only
  rw [references_skip, hdrop]

theorem references_lit {c : UInt16} (h : c ≠ dollar) (s : JsString) :
    references 0 (c :: s) = .lit c :: references 0 s := by
  rw [references, if_neg h]

/-- A text without dollar signs refers to nothing. -/
theorem references_plain {s : JsString} (h : dollar ∉ s) (rest : JsString) :
    references 0 (s ++ rest) = lits s ++ references 0 rest := by
  induction s with
  | nil => rfl
  | cons c s ih =>
    rw [List.mem_cons, not_or] at h
    rw [List.cons_append, references_lit (Ne.symm h.1), ih h.2]
    rfl

theorem references_lits {s : JsString} (h : dollar ∉ s) : references 0 s = lits s := by
  have hplain := references_plain h []
  rwa [List.append_nil, references, List.append_nil] at hplain

/-! ## Double quotes -/

def escapeQuotation (c : UInt16) : JsString :=
  if c = quotation ∨ c = backtick then [backslash, c] else [c]

/-- A text between double quotes, its own quotes and backticks escaped. -/
def doubleQuoted (s : JsString) : JsString :=
  quotation :: (s.flatMap escapeQuotation ++ [quotation])

theorem escapeQuotation_name {s : JsString} (h : s.all isNameUnit = true) :
    s.flatMap escapeQuotation = s := by
  induction s with
  | nil => rfl
  | cons c s ih =>
    rw [List.all_cons, Bool.and_eq_true] at h
    have hne {d : UInt16} (hd : isNameUnit d = false) : c ≠ d := by
      rintro rfl
      rw [hd] at h
      exact Bool.false_ne_true h.1
    have hplain : ¬(c = quotation ∨ c = backtick) :=
      not_or.2 ⟨hne (by decide), hne (by decide)⟩
    rw [List.flatMap_cons, escapeQuotation, if_neg hplain, ih h.2]
    rfl

theorem scan_name {units : JsString} (h : units.all isNameUnit = true) (n : JsString) (w : Word)
    (t : JsString) : scan (.name n) w (units ++ t) = scan (.name (n ++ units)) w t := by
  induction units generalizing n with
  | nil => rw [List.append_nil]; rfl
  | cons c units ih =>
    rw [List.all_cons, Bool.and_eq_true] at h
    have hstep : step (.name n) w c = .more (.name (n ++ [c])) w := if_pos h.1
    rw [List.cons_append, scan_more hstep, ih h.2, List.append_assoc]
    rfl

theorem scan_brace {units : JsString} (h : units.all isNameUnit = true) (n : JsString) (w : Word)
    (t : JsString) : scan (.brace n) w (units ++ t) = scan (.brace (n ++ units)) w t := by
  induction units generalizing n with
  | nil => rw [List.append_nil]; rfl
  | cons c units ih =>
    rw [List.all_cons, Bool.and_eq_true] at h
    have hclose : c ≠ closeBrace := by
      rintro rfl
      exact absurd h.1 (by decide)
    have hstep : step (.brace n) w c = .more (.brace (n ++ [c])) w := by
      rw [step, if_neg hclose, if_pos h.1]
    rw [List.cons_append, scan_more hstep, ih h.2, List.append_assoc]
    rfl

/-- A name ends before what cannot go on it. -/
theorem scan_name_end {t : JsString} (hne : t ≠ []) (h : ∀ c ∈ t.head?, isNameUnit c = false)
    (n : JsString) (w : Word) : scan (.name n) w t = scan .double (w ++ [.param n]) t := by
  cases t with
  | nil => exact absurd rfl hne
  | cons c t =>
    have hstep : step (.name n) w c = step .double (w ++ [.param n]) c :=
      if_neg (by rw [h c rfl]; exact Bool.false_ne_true)
    have hstop : step .double (w ++ [.param n]) c ≠ .stop := by
      rw [step, doubleStep]
      repeat' split
      all_goals intro heq; cases heq
    rw [scan, scan, hstep]
    cases hresult : step .double (w ++ [.param n]) c with
    | more mode word => rfl
    | stop => exact absurd hresult hstop
    | fail => rfl

theorem scan_reference {name : JsString} (h : isName name = true) (w : Word) {t : JsString}
    (hne : t ≠ []) (hend : ∀ c ∈ t.head?, isNameUnit c = false) :
    scan .double w (dollar :: (name ++ t)) = scan .double (w ++ [.param name]) t := by
  obtain ⟨c, s, rfl, hc, hs⟩ := isName_iff.1 h
  have hdollar : step .double w dollar = .more .parameter w := rfl
  have hstart : step .parameter w c = .more (.name [c]) w := if_pos hc
  rw [scan_more hdollar, List.cons_append, scan_more hstart, scan_name hs,
    scan_name_end hne hend]
  rfl

theorem scan_bracedReference {name : JsString} (h : isName name = true) (w : Word) (t : JsString) :
    scan .double w (dollar :: openBrace :: (name ++ closeBrace :: t)) =
      scan .double (w ++ [.param name]) t := by
  have hdollar : step .double w dollar = .more .parameter w := rfl
  have hopen : step .parameter w openBrace = .more (.brace []) w := by
    rw [step, if_neg (by decide), if_pos rfl]
  have hclose : step (.brace name) w closeBrace = .more .double (w ++ [.param name]) := by
    rw [step, if_pos rfl, if_pos h]
  rw [scan_more hdollar, scan_more hopen, scan_brace (isName_units h), List.nil_append,
    scan_more hclose]

/-- An escaped text goes on with a character that no name does, when the text does. -/
theorem head?_escaped {s : JsString} (h : ∀ c ∈ s.head?, isNameUnit c = false) (t : JsString) :
    ∀ c ∈ (s.flatMap escapeQuotation ++ quotation :: t).head?, isNameUnit c = false := by
  intro c hc
  cases s with
  | nil =>
    cases hc
    rfl
  | cons d s =>
    rw [List.flatMap_cons, escapeQuotation] at hc
    split at hc
    · cases hc
      rfl
    · have heq : d = c := Option.some.inj hc
      exact heq ▸ h d rfl

/-- Double quotes keep a text whose only dollar signs are references, and no backslash. -/
theorem wordText_doubleQuoted {s : JsString} (hbackslash : backslash ∉ s)
    (hdollar : .lit dollar ∉ references 0 s) : WordText (doubleQuoted s) (references 0 s) := by
  have hbody (n : Nat) (s : JsString) (hn : s.length ≤ n) (hbackslash : backslash ∉ s)
      (hdollar : .lit dollar ∉ references 0 s) (w : Word) (rest : JsString) :
      scan .double w (s.flatMap escapeQuotation ++ quotation :: rest) =
        scan .plain (w ++ references 0 s) rest := by
    induction n generalizing s w with
    | zero =>
      obtain rfl := List.length_eq_zero_iff.1 (Nat.le_zero.1 hn)
      rw [references, List.append_nil]
      rfl
    | succ n ih =>
      cases s with
      | nil =>
        rw [references, List.append_nil]
        rfl
      | cons c s =>
        rw [List.length_cons, Nat.succ_le_succ_iff] at hn
        rw [List.mem_cons, not_or] at hbackslash
        by_cases hc : c = dollar
        · subst hc
          cases hread : readReference s with
          | none =>
            rw [references, if_pos rfl, hread] at hdollar
            exact absurd List.mem_cons_self hdollar
          | some read =>
            obtain ⟨name, after⟩ := read
            have hparam := references_param hread
            rw [hparam, List.mem_cons, not_or] at hdollar
            have hescape : escapeQuotation dollar = [dollar] := rfl
            obtain ⟨hname, ⟨rfl, hend⟩ | rfl⟩ := readReference_eq hread
            · rw [List.length_append] at hn
              have hafter : backslash ∉ after := fun h => hbackslash.2 (List.mem_append_right _ h)
              rw [hparam, List.flatMap_cons, hescape, List.flatMap_append,
                escapeQuotation_name (isName_units hname), List.append_assoc, List.append_assoc,
                List.singleton_append,
                scan_reference hname w (List.append_ne_nil_of_right_ne_nil _ (List.cons_ne_nil _ _))
                  (head?_escaped hend rest),
                ih after (by omega) hafter hdollar.2, List.append_assoc]
              rfl
            · rw [List.length_cons, List.length_append, List.length_cons] at hn
              have hafter : backslash ∉ after := fun h =>
                hbackslash.2 (List.mem_cons_of_mem _ (List.mem_append_right _ (List.mem_cons_of_mem _ h)))
              have hopen : escapeQuotation openBrace = [openBrace] := rfl
              have hclose : escapeQuotation closeBrace = [closeBrace] := rfl
              have hbraced := scan_bracedReference hname w
                (after.flatMap escapeQuotation ++ quotation :: rest)
              rw [hparam, List.flatMap_cons, List.flatMap_cons, List.flatMap_append,
                List.flatMap_cons, escapeQuotation_name (isName_units hname), hescape, hopen, hclose]
              simp only [List.append_assoc, List.cons_append, List.nil_append]
              rw [hbraced, ih after (by omega) hafter hdollar.2, List.append_assoc]
              rfl
        · rw [references_lit hc, List.mem_cons, not_or] at hdollar
          rw [references_lit hc, List.flatMap_cons, List.append_assoc]
          have hstep : scan .double w (escapeQuotation c ++
              (s.flatMap escapeQuotation ++ quotation :: rest)) =
                scan .double (w ++ [.lit c]) (s.flatMap escapeQuotation ++ quotation :: rest) := by
            rw [escapeQuotation]
            split
            · next hquote =>
              have hopen : step .double w backslash = .more .doubleEscape w := rfl
              have hescaped : step .doubleEscape w c = .more .double (w ++ [.lit c]) := by
                rcases hquote with rfl | rfl
                · rfl
                · rfl
              rw [List.cons_append, scan_more hopen, List.singleton_append, scan_more hescaped]
            · next hquote =>
              rw [not_or] at hquote
              have hplain : step .double w c = .more .double (w ++ [.lit c]) := by
                rw [step, doubleStep, if_neg hquote.1, if_neg (Ne.symm hbackslash.1),
                  if_neg hquote.2, if_neg hc]
              rw [List.singleton_append, scan_more hplain]
          rw [hstep, ih s hn hbackslash.2 hdollar.2, List.append_assoc]
          rfl
  intro w rest
  have hopen : step .plain w quotation = .more .double w := rfl
  rw [doubleQuoted, List.cons_append, List.append_assoc, List.singleton_append, scan_more hopen]
  exact hbody s.length s (Nat.le_refl _) hbackslash hdollar w rest

theorem listedText_doubleQuoted {s : JsString} (hbackslash : backslash ∉ s)
    (hdollar : .lit dollar ∉ references 0 s) : ListedText (doubleQuoted s) (references 0 s) :=
  ⟨wordText_doubleQuoted hbackslash hdollar, quotation, _, rfl, by decide, by decide⟩

end Musi.Bash
