import Musi.Js.Joined
import Musi.MigrationSafety.SqlPatterns

namespace Musi.MigrationSafety
open Musi.Js
set_option autoImplicit true

variable {line out rest blankedText : JsString} {c : UInt16}

/-! ## Columns -/

/-- A unit put out is a blank or stands at its column. -/
def KeepsColumns (line out : JsString) : Prop :=
  ∀ (i : Nat) (c : UInt16), out[i]? = some c → c = blank ∨ (line)[i]? = some c

theorem KeepsColumns.cons {d : UInt16} (h : KeepsColumns line out) (hd : d = blank ∨ d = c) :
    KeepsColumns (c :: line) (d :: out) := by
  intro i e he
  cases i with
  | zero =>
    cases he
    exact hd.imp_right fun heq => congrArg some heq.symm
  | succ i => exact h i e he

theorem KeepsColumns.blanks {masked taken : JsString} (h : KeepsColumns line out)
    (hblank : ∀ c ∈ masked, c = blank) (hlength : masked.length = taken.length) :
    KeepsColumns (taken ++ line) (masked ++ out) := by
  induction masked generalizing taken with
  | nil =>
    cases taken with
    | nil => exact h
    | cons _ _ => cases hlength
  | cons d masked ih =>
    cases taken with
    | nil => cases hlength
    | cons c taken =>
      rw [List.forall_mem_cons] at hblank
      exact (ih hblank.2 (Nat.succ.inj hlength)).cons (.inl hblank.1)

/-- The mask of a span is as long as what it takes of the line. -/
theorem maskQuotedSpan_taken (quote : UInt16) (line : JsString) : ∃ taken,
    line = taken ++ (maskQuotedSpan quote line).2 ∧
      (maskQuotedSpan quote line).1.length = taken.length ∧
      ∀ c ∈ (maskQuotedSpan quote line).1, c = blank := by
  induction line using maskQuotedSpan.induct quote with
  | case1 => exact ⟨[], rfl, rfl, by simp [maskQuotedSpan]⟩
  | case2 c => exact ⟨[c], rfl, rfl, by simp [maskQuotedSpan]⟩
  | case3 c next line hc ih =>
    obtain ⟨taken, hline, hlength, hblank⟩ := ih
    rw [maskQuotedSpan, if_pos hc]
    refine ⟨c :: taken, congrArg (c :: ·) hline, congrArg Nat.succ hlength, ?_⟩
    exact List.forall_mem_cons.2 ⟨rfl, hblank⟩
  | case4 c line hc ih =>
    obtain ⟨taken, hline, hlength, hblank⟩ := ih
    rw [maskQuotedSpan, if_neg hc, if_pos rfl]
    refine ⟨c :: quote :: taken, congrArg (c :: quote :: ·) hline,
      congrArg (Nat.succ ∘ Nat.succ) hlength, ?_⟩
    exact List.forall_mem_cons.2 ⟨rfl, List.forall_mem_cons.2 ⟨rfl, hblank⟩⟩
  | case5 c next line hc hnext =>
    rw [maskQuotedSpan, if_neg hc, if_neg hnext]
    exact ⟨[c], rfl, rfl, by simp⟩

theorem sanitizeFrom_columns (fuel : Nat) (line : JsString) (inBlockComment : Bool) :
    KeepsColumns line (sanitizeFrom fuel line inBlockComment).1 := by
  have hnil (line : JsString) : KeepsColumns line [] := fun i c hc => by simp at hc
  have htail (line : JsString) (d : UInt16) (hd : line.head? = some d) : line = d :: line.tail := by
    obtain ⟨rest, rfl⟩ := List.head?_eq_some_iff.1 hd
    rfl
  induction fuel generalizing line inBlockComment with
  | zero => exact hnil line
  | succ fuel ih =>
    cases line with
    | nil => exact hnil []
    | cons c line =>
      rw [sanitizeFrom]
      split
      · split
        · next hclose =>
          rw [htail line _ hclose.2]
          exact ((ih _ _).cons (.inl rfl)).cons (.inl rfl)
        · exact (ih _ _).cons (.inl rfl)
      · split
        · next hopen =>
          rw [htail line _ hopen.2]
          exact ((ih _ _).cons (.inl rfl)).cons (.inl rfl)
        · split
          · exact hnil _
          · split
            · obtain ⟨taken, hline, hlength, hblank⟩ := maskQuotedSpan_taken c line
              have hspan := (ih (maskQuotedSpan c line).2 false).blanks hblank hlength
              rw [← hline] at hspan
              exact hspan.cons (.inl rfl)
            · exact (ih _ _).cons (.inr rfl)

theorem KeepsColumns.mem (h : KeepsColumns line out) (hc : c ∈ out) : c = blank ∨ c ∈ line := by
  obtain ⟨i, hi⟩ := List.mem_iff_getElem?.1 hc
  exact (h i c hi).imp_right fun hline => List.mem_iff_getElem?.2 ⟨i, hline⟩

/-! ## Sanitizing again -/

/-- No delimiter opens anything. -/
def NothingOpens : JsString → Prop
  | [] => True
  | c :: line => ¬ (c = unit '/' ∧ line.head? = some (unit '*')) ∧
      ¬ (c = unit '-' ∧ line.head? = some (unit '-')) ∧ ¬ (c = singleQuote ∨ c = doubleQuote) ∧
      NothingOpens line

theorem sanitizeFrom_of_nothingOpens (fuel : Nat) (hfuel : line.length ≤ fuel)
    (h : NothingOpens line) : sanitizeFrom fuel line false = (line, false) := by
  induction fuel generalizing line with
  | zero =>
    rw [List.length_eq_zero_iff.1 (Nat.le_zero.1 hfuel)]
    rfl
  | succ fuel ih =>
    cases line with
    | nil => rfl
    | cons c line =>
      obtain ⟨hopen, hdash, hquote, hrest⟩ := h
      rw [sanitizeFrom, if_neg Bool.false_ne_true, if_neg hopen, if_neg hdash, if_neg hquote,
        ih (Nat.le_of_succ_le_succ hfuel) hrest]
      rfl

theorem NothingOpens.blank_cons (h : NothingOpens line) : NothingOpens (blank :: line) :=
  ⟨fun hc => absurd hc.1 (by decide), fun hc => absurd hc.1 (by decide), by decide, h⟩

theorem NothingOpens.blanks {masked : JsString} (hblank : ∀ c ∈ masked, c = blank)
    (h : NothingOpens line) : NothingOpens (masked ++ line) := by
  induction masked with
  | nil => exact h
  | cons c masked ih =>
    rw [List.forall_mem_cons] at hblank
    rw [hblank.1, List.cons_append]
    exact (ih hblank.2).blank_cons

theorem head?_sanitizeFrom {fuel : Nat} {inBlockComment : Bool} {d : UInt16}
    (h : (sanitizeFrom fuel line inBlockComment).1.head? = some d) (hd : d ≠ blank) :
    line.head? = some d := by
  rw [List.head?_eq_getElem?] at h ⊢
  exact (sanitizeFrom_columns fuel line inBlockComment 0 d h).resolve_left hd

theorem nothingOpens_sanitizeFrom (fuel : Nat) (line : JsString) (inBlockComment : Bool) :
    NothingOpens (sanitizeFrom fuel line inBlockComment).1 := by
  induction fuel generalizing line inBlockComment with
  | zero => trivial
  | succ fuel ih =>
    cases line with
    | nil => trivial
    | cons c line =>
      rw [sanitizeFrom]
      split
      · split
        · exact (ih _ _).blank_cons.blank_cons
        · exact (ih _ _).blank_cons
      · split
        · exact (ih _ _).blank_cons.blank_cons
        · next hopen =>
          split
          · trivial
          · next hdash =>
            split
            · obtain ⟨taken, -, -, hblank⟩ := maskQuotedSpan_taken c line
              exact ((ih _ _).blanks hblank).blank_cons
            · next hquote =>
              exact ⟨fun hc => hopen ⟨hc.1, head?_sanitizeFrom hc.2 (by decide)⟩,
                fun hc => hdash ⟨hc.1, head?_sanitizeFrom hc.2 (by decide)⟩, hquote, ih _ _⟩

theorem sanitizeSqlLine_idempotent (line : JsString) (inBlockComment : Bool) :
    sanitizeSqlLine (sanitizeSqlLine line inBlockComment).1 false =
      ((sanitizeSqlLine line inBlockComment).1, false) :=
  sanitizeFrom_of_nothingOpens _ le_rfl (nothingOpens_sanitizeFrom _ line inBlockComment)

/-! ## The records of a text -/

theorem dropCarriageReturn_cases (record : JsString) :
    record = dropCarriageReturn record ∨ record = dropCarriageReturn record ++ [0x0D] := by
  rw [dropCarriageReturn]
  split
  · next hlast =>
    obtain ⟨before, hbefore⟩ := List.getLast?_eq_some_iff.1 hlast
    exact .inr (by rw [hbefore, List.dropLast_concat])
  · exact .inl rfl

/-- What the scanner puts out for a record is what the lexer does, up to spaces at its end. -/
theorem sanitizeSqlLine_scans (record rest : JsString) (inBlockComment : Bool)
    (hrecord : newline ∉ record) (hrest : ∀ d ∈ rest.head?, d = newline)
    (h : (openMode inBlockComment).blanked (record ++ rest) = some blankedText) :
    ∃ spaces after mode, Spaces spaces ∧
      newline ∉ (sanitizeSqlLine (dropCarriageReturn record) inBlockComment).1 ++ spaces ∧
      blankedText = (sanitizeSqlLine (dropCarriageReturn record) inBlockComment).1 ++ spaces ++ after ∧
      SqlMode.blanked mode rest = some after ∧
      EndsLine (sanitizeSqlLine (dropCarriageReturn record) inBlockComment).2 mode := by
  have hnoDelimiter (d : UInt16) (hd : d = newline ∨ d = 0x0D) : NoDelimiter d := by
    rcases hd with rfl | rfl
    · exact ⟨by decide, by decide, by decide, by decide, by decide⟩
    · exact ⟨by decide, by decide, by decide, by decide, by decide⟩
  have hblanks (blanks : JsString) (hb : ∀ c ∈ blanks, c = blank) : Spaces blanks := by
    intro c hc
    rw [hb c hc]
    rfl
  have hout (blanks : JsString) (hb : ∀ c ∈ blanks, c = blank)
      (hraw : newline ∉ dropCarriageReturn record) :
      newline ∉ (sanitizeSqlLine (dropCarriageReturn record) inBlockComment).1 ++ blanks := by
    intro hm
    rcases List.mem_append.1 hm with hm | hm
    · rcases (sanitizeFrom_columns _ _ _).mem hm with hm | hm
      · cases hm
      · exact hraw hm
    · cases hb _ hm
  rcases dropCarriageReturn_cases record with hraw | hraw
  · rw [← hraw] at hout ⊢
    obtain ⟨blanks, mode, after, heq, hb, -, hafter, hends⟩ := sanitizeFrom_scans _ record
      inBlockComment le_rfl hrecord (fun d hd => hnoDelimiter d (.inl (hrest d hd))) h
    exact ⟨blanks, after, mode, hblanks blanks hb, hout blanks hb hrecord, heq, hafter, hends⟩
  · have hnewline : newline ∉ dropCarriageReturn record := by
      intro hm
      rw [hraw] at hrecord
      exact hrecord (List.mem_append_left _ hm)
    have hsplit : record ++ rest = dropCarriageReturn record ++ (0x0D :: rest) := by
      conv_lhs => rw [hraw]
      rw [List.append_assoc]
      rfl
    rw [hsplit] at h
    have hreturn : ∀ d ∈ ((0x0D : UInt16) :: rest).head?, NoDelimiter d := by
      intro d hd
      rw [List.head?_cons, Option.mem_some_iff] at hd
      exact hnoDelimiter d (.inr hd.symm)
    obtain ⟨blanks, mode, after, rfl, hb, -, hafter, hends⟩ := sanitizeFrom_scans _ _
      inBlockComment le_rfl hnewline hreturn h
    obtain ⟨d, tail, rfl, hd, htail⟩ := hends.carriageReturn hafter
    refine ⟨blanks ++ [d], tail, mode, ?_, ?_, ?_, htail, hends⟩
    · intro c hc
      rcases List.mem_append.1 hc with hc | hc
      · exact hblanks blanks hb c hc
      · rw [List.mem_singleton.1 hc]
        rcases hd with rfl | rfl <;> rfl
    · rw [← List.append_assoc, List.mem_append, not_or]
      refine ⟨hout blanks hb hnewline, fun hm => ?_⟩
      rw [List.mem_singleton] at hm
      rcases hd with rfl | rfl <;> cases hm
    · simp only [List.append_assoc, List.singleton_append]
      rfl

/-- The rules that match lines, with the numbers of the lines. -/
def ruleLines : Nat → List JsString → List (Nat × MigrationRule)
  | _, [] => []
  | index, content :: contents =>
    (matchedRules (asciiUpperCase content)).map (fun rule => (index + 1, rule)) ++
      ruleLines (index + 1) contents

def SqlRuleMatch.place (found : SqlRuleMatch) : Nat × MigrationRule := (found.line, found.rule)

theorem scanRecords_place (records : List JsString) (index : Nat) (inBlockComment : Bool)
    (hne : records ≠ []) (hrecords : ∀ record ∈ records, newline ∉ record)
    (h : (openMode inBlockComment).blanked (join [newline] records) = some blankedText) :
    (scanRecords index inBlockComment records).map SqlRuleMatch.place =
      ruleLines index (splitOn newline blankedText) := by
  have hrules (index : Nat) (out spaces snippet : JsString) (hspaces : Spaces spaces) :
      ((matchedRules (asciiUpperCase out)).map fun rule =>
        SqlRuleMatch.mk (index + 1) rule snippet).map SqlRuleMatch.place =
        (matchedRules (asciiUpperCase (out ++ spaces))).map fun rule => (index + 1, rule) := by
    rw [matchedRules_upper_append hspaces, List.map_map]
    rfl
  induction records generalizing index inBlockComment blankedText with
  | nil => exact (hne rfl).elim
  | cons record records ih =>
    obtain ⟨hrecord, hrecords⟩ := List.forall_mem_cons.1 hrecords
    cases records with
    | nil =>
      rw [join, ← List.append_nil record] at h
      obtain ⟨spaces, after, mode, hspaces, hnewline, rfl, hafter, -⟩ :=
        sanitizeSqlLine_scans record [] inBlockComment hrecord (by simp) h
      cases hafter
      rw [List.append_nil, splitOn_of_notMem hnewline, scanRecords, scanRecords, List.append_nil,
        ruleLines, ruleLines, List.append_nil]
      exact hrules _ _ _ _ hspaces
    | cons next records =>
      have hjoin : join [newline] (record :: next :: records) =
          record ++ (newline :: join [newline] (next :: records)) := by
        rw [join, List.append_assoc]
        rfl
      rw [hjoin] at h
      have hhead : ∀ d ∈ (newline :: join [newline] (next :: records)).head?, d = newline := by
        intro d hd
        rw [List.head?_cons, Option.mem_some_iff] at hd
        exact hd.symm
      obtain ⟨spaces, after, mode, hspaces, hnewline, rfl, hafter, hends⟩ :=
        sanitizeSqlLine_scans record _ inBlockComment hrecord hhead h
      obtain ⟨tail, rfl, htail⟩ := hends.newline hafter
      rw [splitOn_append hnewline, scanRecords, ruleLines, List.map_append]
      exact congrArg₂ _ (hrules _ _ _ _ hspaces)
        (ih (index + 1) _ (List.cons_ne_nil _ _) hrecords htail)

/-- A final empty record matches nothing. -/
theorem scanRecords_concat_nil (records : List JsString) (index : Nat) (inBlockComment : Bool) :
    scanRecords index inBlockComment (records ++ [[]]) = scanRecords index inBlockComment records := by
  induction records generalizing index inBlockComment with
  | nil =>
    have hnone : matchedRules (asciiUpperCase (sanitizeSqlLine (dropCarriageReturn []) inBlockComment).1) =
        [] := by cases inBlockComment <;> decide +kernel
    have hsingle : scanRecords index inBlockComment [[]] = (matchedRules (asciiUpperCase
        (sanitizeSqlLine (dropCarriageReturn []) inBlockComment).1)).map
          (fun rule => ⟨index + 1, rule, trimSpace (dropCarriageReturn [])⟩) ++ [] := rfl
    rw [List.nil_append, hsingle, hnone]
    rfl
  | cons record records ih =>
    rw [List.cons_append, scanRecords, scanRecords, ih]

theorem scanSqlText_eq (text : JsString) :
    scanSqlText text = scanRecords 0 false (splitOn newline text) := by
  rw [scanSqlText, toRecords]
  split
  · next hnil =>
    rw [hnil]
    exact (scanRecords_concat_nil [] 0 false).symm
  · dsimp only
    split
    · next hlast =>
      obtain ⟨before, hbefore⟩ := List.getLast?_eq_some_iff.1 hlast
      rw [hbefore, List.dropLast_concat, scanRecords_concat_nil]
    · rfl

/-! ## What is reported -/

/-- The pattern of a rule. -/
def MigrationRule.matches (rule : MigrationRule) (upper : JsString) : Bool :=
  match rule with
  | dropTable => dropTablePattern upper
  | dropColumn => dropColumnPattern upper
  | alterColumnType => alterColumnTypePattern upper
  | addColumnNotNull => addColumnPattern upper && notNullPattern upper && !defaultClausePattern upper

theorem mem_matchedRules {rule : MigrationRule} {upper : JsString} :
    rule ∈ matchedRules upper ↔ rule.matches upper = true := by
  have hif (p : Bool) (other : MigrationRule) :
      rule ∈ (if p then [other] else []) ↔ rule = other ∧ p = true := by
    cases p <;> simp
  simp only [matchedRules, List.mem_append, hif]
  cases rule <;> simp [MigrationRule.matches]

theorem mem_ruleLines {line index : Nat} {rule : MigrationRule} {contents : List JsString} :
    (line, rule) ∈ ruleLines index contents ↔ ∃ i content, contents[i]? = some content ∧
      line = index + i + 1 ∧ rule.matches (asciiUpperCase content) = true := by
  induction contents generalizing index with
  | nil => simp [ruleLines]
  | cons first contents ih =>
    rw [ruleLines, List.mem_append, ih, List.mem_map]
    constructor
    · rintro (⟨found, hfound, heq⟩ | ⟨i, content, hcontent, hline, hmatch⟩)
      · cases heq
        exact ⟨0, first, rfl, rfl, mem_matchedRules.1 hfound⟩
      · exact ⟨i + 1, content, hcontent, by omega, hmatch⟩
    · rintro ⟨i, content, hcontent, hline, hmatch⟩
      cases i with
      | zero =>
        cases hcontent
        exact .inl ⟨rule, mem_matchedRules.2 hmatch, by rw [hline, Nat.add_zero]⟩
      | succ i => exact .inr ⟨i, content, hcontent, by omega, hmatch⟩

/-- A rule is reported on a line exactly when it matches the line with its comments and quoted spans
blanked, as the lexer of the whole text finds them. -/
theorem scanSqlText_exact (text blankedText : JsString) (h : blankSql text = some blankedText) :
    (∀ line rule, (∃ found ∈ scanSqlText text, found.line = line ∧ found.rule = rule) ↔
      ∃ i content, (splitOn newline blankedText)[i]? = some content ∧ line = i + 1 ∧
        rule.matches (asciiUpperCase content) = true) ∧
    (∀ record inBlockComment, newline ∉ record → ∃ blankedLine spaces,
      (openMode inBlockComment).blanked record = some blankedLine ∧
        blankedLine = (sanitizeSqlLine record inBlockComment).1 ++ spaces ∧
        (∀ c ∈ spaces, c = blank) ∧ List.Forall₂ (fun c d => d = c ∨ d = blank) record blankedLine) ∧
    ∀ record inBlockComment, sanitizeSqlLine (sanitizeSqlLine record inBlockComment).1 false =
      ((sanitizeSqlLine record inBlockComment).1, false) := by
  refine ⟨fun line rule => ?_, fun record inBlockComment hrecord => ?_, sanitizeSqlLine_idempotent⟩
  · have hplace := scanRecords_place (splitOn newline text) 0 false (splitOn_ne_nil _ _)
      (fun record hrecord => notMem_splitOn hrecord) (by rw [join_splitOn]; exact h)
    rw [← scanSqlText_eq] at hplace
    have hmem : (∃ found ∈ scanSqlText text, found.line = line ∧ found.rule = rule) ↔
        (line, rule) ∈ (scanSqlText text).map SqlRuleMatch.place := by
      rw [List.mem_map]
      refine exists_congr fun found => and_congr_right fun _ => ?_
      rw [SqlRuleMatch.place, Prod.mk.injEq]
    rw [hmem, hplace, mem_ruleLines]
    simp only [Nat.zero_add]
  · obtain ⟨blankedLine, hblanked⟩ := (openMode inBlockComment).exists_blanked hrecord
    have hblanked' : (openMode inBlockComment).blanked (record ++ []) = some blankedLine := by
      rwa [List.append_nil]
    obtain ⟨spaces, mode, after, heq, hspaces, -, hafter, -⟩ := sanitizeFrom_scans _ record
      inBlockComment le_rfl hrecord (by simp) hblanked'
    cases hafter
    rw [List.append_nil] at heq
    exact ⟨blankedLine, spaces, hblanked, heq, hspaces, SqlMode.blanked_aligned hblanked⟩

theorem scanSqlText_exact_comment : ∃ found ∈ scanSqlText (js "-- a\nDROP TABLE x"),
    found.line = 2 ∧ found.rule = .dropTable := by
  have hblanked : blankSql (js "-- a\nDROP TABLE x") = some (js "    \nDROP TABLE x") := by
    decide +kernel
  exact ((scanSqlText_exact _ _ hblanked).1 2 .dropTable).2
    ⟨1, js "DROP TABLE x", by decide +kernel, rfl, by decide +kernel⟩

end Musi.MigrationSafety
