import Musi.DriftAi.DolosCsv

namespace Musi.DriftAi
open Musi.Js
set_option autoImplicit true

variable {state : CsvState} {rows : List (List JsString)} {row : List JsString}
  {field text rest : JsString} {c : UInt16}

/-! ## Steps of the loop -/

theorem parseCsvLoop_cons {state' : CsvState} (h : consumeChar state rest.head? c = (state', 0)) :
    parseCsvLoop state (c :: rest) = parseCsvLoop state' rest := by
  cases rest with
  | nil => rw [parseCsvLoop, parseCsvLoop, ← List.head?_nil, h]
  | cons next rest =>
    rw [List.head?_cons] at h
    rw [parseCsvLoop, h]
    rfl

theorem parseCsvLoop_skip {state' : CsvState} {next : UInt16}
    (h : consumeChar state (some next) c = (state', 1)) :
    parseCsvLoop state (c :: next :: rest) = parseCsvLoop state' rest := by
  rw [parseCsvLoop, h]
  rfl

/-- A state between cells, or inside a bare one. -/
def outside (rows : List (List JsString)) (row : List JsString) (field : JsString) : CsvState :=
  ⟨rows, row, field, false, true⟩

def inside (rows : List (List JsString)) (row : List JsString) (field : JsString) : CsvState :=
  ⟨rows, row, field, true, true⟩

theorem isCsvSpecial_false : isCsvSpecial c = false ↔
    c ≠ Csv.comma ∧ c ≠ Csv.quote ∧ c ≠ Csv.carriageReturn ∧ c ≠ Csv.lineFeed := by
  simp [isCsvSpecial, and_assoc]

theorem parseCsvLoop_bare (h : ∀ c ∈ text, isCsvSpecial c = false) :
    parseCsvLoop (outside rows row field) (text ++ rest) =
      parseCsvLoop (outside rows row (field ++ text)) rest := by
  induction text generalizing field with
  | nil => rw [List.append_nil, List.nil_append]
  | cons c text ih =>
    obtain ⟨hc, htext⟩ := List.forall_mem_cons.1 h
    obtain ⟨hcomma, hquote, hcr, hlf⟩ := isCsvSpecial_false.1 hc
    have hstep : consumeChar (outside rows row field) (text ++ rest).head? c =
        (outside rows row (field ++ [c]), 0) := by
      simp [consumeChar, consumeUnquoted, outside, hcomma, hquote, hcr, hlf]
    rw [List.cons_append, parseCsvLoop_cons hstep, ih htext, List.append_assoc]
    rfl

theorem parseCsvLoop_quoted (h : rest.head? ≠ some Csv.quote) :
    parseCsvLoop (inside rows row field) (doubleQuotes text ++ Csv.quote :: rest) =
      parseCsvLoop (outside rows row (field ++ text)) rest := by
  induction text generalizing field with
  | nil =>
    have hstep : consumeChar (inside rows row field) rest.head? Csv.quote =
        (outside rows row field, 0) := by
      simp [consumeChar, consumeQuoted, outside, inside, h]
    rw [doubleQuotes, List.flatMap_nil, List.nil_append, parseCsvLoop_cons hstep, List.append_nil]
  | cons c text ih =>
    rw [doubleQuotes, List.flatMap_cons, ← doubleQuotes, List.append_assoc]
    by_cases hc : c = Csv.quote
    · have hstep : consumeChar (inside rows row field) (some Csv.quote) Csv.quote =
          (inside rows row (field ++ [Csv.quote]), 1) := by
        simp [consumeChar, consumeQuoted, inside]
      rw [if_pos hc, List.cons_append, List.singleton_append, parseCsvLoop_skip hstep, ih,
        List.append_assoc, hc]
      rfl
    · have hstep : consumeChar (inside rows row field)
          (doubleQuotes text ++ Csv.quote :: rest).head? c = (inside rows row (field ++ [c]), 0) := by
        simp [consumeChar, consumeQuoted, inside, hc]
      rw [if_neg hc, List.singleton_append, parseCsvLoop_cons hstep, ih, List.append_assoc]
      rfl

/-- A cell is read as its text. -/
theorem parseCsvLoop_cell (cell : CsvCell) (h : rest.head? ≠ some Csv.quote) :
    parseCsvLoop (outside rows row []) (cell.encode ++ rest) =
      parseCsvLoop (outside rows row cell.text) rest := by
  rw [CsvCell.encode]
  by_cases hquoted : cell.quoted
  · have hstep : consumeChar (outside rows row [])
        (doubleQuotes cell.text ++ Csv.quote :: rest).head? Csv.quote = (inside rows row [], 0) := by
      simp [consumeChar, consumeUnquoted, outside, inside]
    rw [if_pos hquoted, List.append_assoc, List.cons_append, List.singleton_append,
      parseCsvLoop_cons hstep, parseCsvLoop_quoted h, List.nil_append]
  · rw [if_neg hquoted, parseCsvLoop_bare (cell.bare (Bool.eq_false_iff.2 hquoted)),
      List.nil_append]

/-- The row that a line is read as: a blank one holds one empty field. -/
def CsvLine.fields (line : CsvLine) : List JsString :=
  match line with
  | [] => [[]]
  | cells => cells.map CsvCell.text

/-- A line is read up to the end of its last field. -/
theorem parseCsvLoop_line (rows : List (List JsString)) (row : List JsString) (line : CsvLine)
    (rest : JsString) (h : rest.head? ≠ some Csv.quote) : ∃ before last,
    before ++ [last] = row ++ line.fields ∧
      parseCsvLoop (outside rows row []) (line.encode ++ rest) =
        parseCsvLoop (outside rows before last) rest := by
  induction line generalizing row with
  | nil => exact ⟨row, [], rfl, rfl⟩
  | cons cell cells ih =>
    cases cells with
    | nil => exact ⟨row, cell.text, rfl, parseCsvLoop_cell cell h⟩
    | cons cell' cells =>
      obtain ⟨before, last, hfields, hloop⟩ := ih (row ++ [cell.text])
      refine ⟨before, last, hfields.trans (List.append_assoc ..), ?_⟩
      have hencode : CsvLine.encode (cell :: cell' :: cells) ++ rest =
          cell.encode ++ Csv.comma :: (CsvLine.encode (cell' :: cells) ++ rest) := by
        simp [CsvLine.encode, join]
      have hstep : consumeChar (outside rows row cell.text)
          (CsvLine.encode (cell' :: cells) ++ rest).head? Csv.comma =
            (outside rows (row ++ [cell.text]) [], 0) := by
        simp [consumeChar, consumeUnquoted, outside, endField, Csv.comma, Csv.quote]
      rw [hencode, parseCsvLoop_cell cell (by simp [Csv.comma, Csv.quote]), parseCsvLoop_cons hstep,
        hloop]

/-! ## The ends of lines -/

theorem consumeChar_lineEnd (next : Option UInt16) (hc : c = Csv.lineFeed ∨ c = Csv.carriageReturn) :
    consumeChar (outside rows row field) next c = (outside (rows ++ [row ++ [field]]) [] [],
      if c = Csv.carriageReturn ∧ next = some Csv.lineFeed then 1 else 0) := by
  have hquote : c ≠ Csv.quote := by rcases hc with rfl | rfl <;> decide
  have hcomma : c ≠ Csv.comma := by rcases hc with rfl | rfl <;> decide
  simp [consumeChar, consumeUnquoted, outside, endRecord, endField, hquote, hcomma, hc]

/-- The text without the line feed that it may start with. -/
def dropLineFeed (text : JsString) : JsString :=
  match text with
  | [] => []
  | c :: rest => if c = Csv.lineFeed then rest else c :: rest

def LineEnd.after : LineEnd → JsString → JsString
  | cr, rest => dropLineFeed rest
  | _, rest => rest

theorem parseCsvLoop_lineEnd (ending : LineEnd) :
    parseCsvLoop (outside rows row field) (ending.encode ++ rest) =
      parseCsvLoop (outside (rows ++ [row ++ [field]]) [] []) (ending.after rest) := by
  cases ending with
  | lf => exact parseCsvLoop_cons (consumeChar_lineEnd rest.head? (.inl rfl))
  | crlf => exact parseCsvLoop_skip (consumeChar_lineEnd (some Csv.lineFeed) (.inr rfl))
  | cr =>
    have hstep (next : Option UInt16) : consumeChar (outside rows row field) next
        Csv.carriageReturn = (outside (rows ++ [row ++ [field]]) [] [],
          if Csv.carriageReturn = Csv.carriageReturn ∧ next = some Csv.lineFeed then 1 else 0) :=
      consumeChar_lineEnd next (.inr rfl)
    cases rest with
    | nil => exact parseCsvLoop_cons (hstep none)
    | cons next rest =>
      rw [LineEnd.after, dropLineFeed]
      by_cases hnext : next = Csv.lineFeed
      · subst hnext
        rw [if_pos rfl]
        exact parseCsvLoop_skip (hstep (some Csv.lineFeed))
      · rw [if_neg hnext]
        refine parseCsvLoop_cons ((hstep (some next)).trans ?_)
        rw [if_neg (by simp [hnext])]

theorem LineEnd.encode_head (ending : LineEnd) : (ending.encode ++ rest).head? ≠ some Csv.quote := by
  cases ending <;> simp [LineEnd.encode, Csv.quote, Csv.lineFeed, Csv.carriageReturn]

theorem CsvCell.encode_head (cell : CsvCell) : cell.encode = [] ∧ cell.text = [] ∨
    ∃ c rest, cell.encode = c :: rest ∧ c ≠ Csv.lineFeed := by
  rw [CsvCell.encode]
  by_cases hquoted : cell.quoted
  · rw [if_pos hquoted]
    exact .inr ⟨Csv.quote, _, rfl, by decide⟩
  · rw [if_neg hquoted]
    cases htext : cell.text with
    | nil => exact .inl ⟨rfl, rfl⟩
    | cons c rest =>
      have hc := cell.bare (Bool.eq_false_iff.2 hquoted) c (htext ▸ List.mem_cons_self)
      exact .inr ⟨c, rest, rfl, (isCsvSpecial_false.1 hc).2.2.2⟩

/-- A line starts with no line feed, and holds no field if it holds no unit. -/
theorem CsvLine.encode_head (line : CsvLine) : line.encode = [] ∧ isFilledRow line.fields = false ∨
    ∃ c rest, line.encode = c :: rest ∧ c ≠ Csv.lineFeed := by
  cases line with
  | nil => exact .inl ⟨rfl, rfl⟩
  | cons cell cells =>
    have hencode : CsvLine.encode (cell :: cells) = cell.encode ++
        match cells with
        | [] => []
        | _ :: _ => Csv.comma :: CsvLine.encode cells := by
      cases cells with
      | nil => exact (List.append_nil _).symm
      | cons cell' cells => simp [CsvLine.encode, join]
    rw [hencode]
    rcases cell.encode_head with ⟨hempty, htext⟩ | ⟨c, rest, hcons, hc⟩
    · rw [hempty]
      cases cells with
      | nil => exact .inl ⟨rfl, by simp [CsvLine.fields, isFilledRow, htext]⟩
      | cons cell' cells => exact .inr ⟨Csv.comma, _, rfl, by decide⟩
    · rw [hcons]
      exact .inr ⟨c, _, rfl, hc⟩

/-- The line feed after a carriage return belongs to it, or ends a line that holds nothing. -/
theorem dropLineFeed_encodeLines (lines : List (CsvLine × LineEnd)) (last : CsvLine) :
    dropLineFeed (encodeLines lines ++ last.encode) = encodeLines lines ++ last.encode ∨
    ∃ line lines', lines = (line, .lf) :: lines' ∧ isFilledRow line.fields = false ∧
      dropLineFeed (encodeLines lines ++ last.encode) = encodeLines lines' ++ last.encode := by
  cases lines with
  | nil =>
    rcases last.encode_head with ⟨hempty, -⟩ | ⟨c, rest, hcons, hc⟩
    · exact .inl (by rw [hempty]; rfl)
    · exact .inl (by rw [hcons]; exact if_neg hc)
  | cons first lines =>
    obtain ⟨line, ending⟩ := first
    have hencode : encodeLines ((line, ending) :: lines) = line.encode ++ (ending.encode ++
        encodeLines lines) := by simp [encodeLines]
    rw [hencode]
    rcases line.encode_head with ⟨hempty, hblank⟩ | ⟨c, rest, hcons, hc⟩
    · rw [hempty, List.nil_append]
      cases ending with
      | lf => exact .inr ⟨line, lines, rfl, hblank, rfl⟩
      | crlf => exact .inl rfl
      | cr => exact .inl rfl
    · exact .inl (by rw [hcons]; exact if_neg hc)

/-! ## Whole texts -/

theorem finishCsv_outside (csv : JsString) (before : List JsString) (last : JsString) :
    ∃ added, (finishCsv (outside rows before last) csv).rows = rows ++ added ∧
      added.filter isFilledRow = [before ++ [last]].filter isFilledRow := by
  have hsaw : (!(outside rows before last).sawCell) ≠ true := Bool.false_ne_true
  rw [finishCsv, if_neg hsaw]
  split
  · next hend =>
    have hlast : last = [] := List.length_eq_zero_iff.1 hend.1
    have hbefore : before = [] := List.length_eq_zero_iff.1 hend.2.1
    exact ⟨[], (List.append_nil rows).symm, by rw [hlast, hbefore]; rfl⟩
  · exact ⟨[before ++ [last]], rfl, rfl⟩

theorem parseCsvLoop_lines (rows : List (List JsString)) (csv : JsString) (last : CsvLine) (lines : List (CsvLine × LineEnd)) :
    ∃ added, (finishCsv (parseCsvLoop (outside rows [] []) (encodeLines lines ++ last.encode))
        csv).rows = rows ++ added ∧
      added.filter isFilledRow =
        ((lines.map Prod.fst ++ [last]).map CsvLine.fields).filter isFilledRow := by
  induction hlength : lines.length using Nat.strong_induction_on generalizing lines rows with
  | _ n ih =>
    cases lines with
    | nil =>
      obtain ⟨before, field, hfields, hloop⟩ := parseCsvLoop_line rows [] last
        [] (by simp)
      rw [List.append_nil] at hloop
      rw [encodeLines, List.flatMap_nil, List.nil_append, hloop, parseCsvLoop]
      obtain ⟨added, hrows, hadded⟩ := finishCsv_outside csv before field
      exact ⟨added, hrows, by rw [hadded, hfields]; rfl⟩
    | cons first lines =>
      obtain ⟨line, ending⟩ := first
      obtain ⟨before, field, hfields, hloop⟩ := parseCsvLoop_line rows [] line
        (ending.encode ++ (encodeLines lines ++ last.encode)) ending.encode_head
      have hencode : encodeLines ((line, ending) :: lines) ++ last.encode =
          line.encode ++ (ending.encode ++ (encodeLines lines ++ last.encode)) := by
        simp [encodeLines]
      have hlines : ∃ lines', lines'.length ≤ lines.length ∧
          ending.after (encodeLines lines ++ last.encode) = encodeLines lines' ++ last.encode ∧
          ((lines'.map Prod.fst ++ [last]).map CsvLine.fields).filter isFilledRow =
            ((lines.map Prod.fst ++ [last]).map CsvLine.fields).filter isFilledRow := by
        cases ending with
        | lf => exact ⟨lines, le_rfl, rfl, rfl⟩
        | crlf => exact ⟨lines, le_rfl, rfl, rfl⟩
        | cr =>
          rcases dropLineFeed_encodeLines lines last with hsame | ⟨blank, lines', rfl, hblank, hdrop⟩
          · exact ⟨lines, le_rfl, hsame, rfl⟩
          · refine ⟨lines', Nat.le_succ _, hdrop, ?_⟩
            rw [List.map_cons, List.cons_append, List.map_cons,
              List.filter_cons_of_neg (Bool.eq_false_iff.1 hblank)]
      obtain ⟨lines', hle, hafter, hsame⟩ := hlines
      obtain ⟨added, hrows, hadded⟩ := ih lines'.length (by
        rw [← hlength, List.length_cons]
        omega) (rows ++ [line.fields]) lines' rfl
      refine ⟨line.fields :: added, ?_, ?_⟩
      · rw [hencode, hloop, parseCsvLoop_lineEnd, hfields, hafter, List.nil_append, hrows,
          List.append_assoc]
        rfl
      · rw [List.map_cons, List.cons_append, List.map_cons, List.filter_cons, List.filter_cons,
          hadded, hsame]

theorem parseCsvLoop_start (text : JsString) (h : text ≠ []) :
    parseCsvLoop startCsv text = parseCsvLoop (outside [] [] []) text := by
  have hstep (next : Option UInt16) (c : UInt16) :
      consumeChar startCsv next c = consumeChar (outside [] [] []) next c := rfl
  cases text with
  | nil => exact (h rfl).elim
  | cons c rest =>
    cases rest with
    | nil => rw [parseCsvLoop, parseCsvLoop, hstep]
    | cons next rest => rw [parseCsvLoop, parseCsvLoop, hstep]

/-- The rows that hold something are the lines that do. -/
theorem parseCsvRows_encode (text : CsvText) : (parseCsvRows text.encode).filter isFilledRow =
    ((text.lines.map Prod.fst ++ [text.last]).map CsvLine.fields).filter isFilledRow := by
  obtain ⟨added, hrows, hadded⟩ := parseCsvLoop_lines [] text.encode text.last text.lines
  rw [← CsvText.encode, List.nil_append] at hrows
  by_cases htext : text.encode = []
  · rw [htext] at hrows ⊢
    rw [← hadded, ← hrows]
    rfl
  · rw [parseCsvRows, parseCsvLoop_start _ htext, hrows, hadded]

theorem filter_fields (lines : List CsvLine) :
    (lines.map CsvLine.fields).filter isFilledRow =
      ((lines.filter fun line => line.length ≠ 0).map (List.map CsvCell.text)).filter isFilledRow := by
  induction lines with
  | nil => rfl
  | cons line lines ih =>
    cases line with
    | nil => exact ih
    | cons cell cells =>
      have hkept : ((cell :: cells) :: lines).filter (fun line => line.length ≠ 0) =
          (cell :: cells) :: lines.filter fun line => line.length ≠ 0 :=
        List.filter_cons_of_pos (decide_eq_true (Nat.succ_ne_zero _))
      rw [hkept, List.map_cons, List.map_cons, List.filter_cons, List.filter_cons, ih]
      rfl

/-! ## Objects -/

section
variable {header : List JsString}

theorem keys_rowFields (header row : List JsString) : Entries.keys (rowFields header row) = header := by
  rw [rowFields, Entries.keys, List.map_map]
  exact List.zipIdx_map_fst 0 header

theorem own_csvObject (hnonempty : ∀ key ∈ header, key ≠ []) (hdistinct : header.Nodup)
    (row : List JsString) (key : JsString) : (csvObject header row).own key =
      ((rowFields header row).lookup key).filter fun _ => key ≠ js "__proto__" := by
  have hkeys : (Entries.keys (rowFields header row)).Nodup := (keys_rowFields header row).symm ▸ hdistinct
  have hfields : (header.zipIdx.filter fun key => key.1.length ≠ 0) = header.zipIdx := by
    refine List.filter_eq_self.2 fun entry hentry => ?_
    have hmem : entry.1 ∈ header := (List.mem_zipIdx' hentry).2 ▸ List.getElem_mem _
    simpa using hnonempty entry.1 hmem
  rw [csvObject, hfields, ← rowFields, Record.assignAll, Record.own_fromEntries_of_nodup
    (hkeys.sublist (List.filter_sublist.map _))]
  exact Entries.lookup_filter hkeys _ key

theorem lookup_rowFields_isSome (header row : List JsString) (key : JsString) :
    ((rowFields header row).lookup key).isSome ↔ key ∈ header := by
  rw [← not_iff_not, Bool.not_eq_true, Option.isSome_eq_false_iff, Option.isNone_iff_eq_none,
    Entries.lookup_none, keys_rowFields]

/-- The rows of a table decode unless a header sets the prototype. -/
theorem decodes_iff (hnonempty : ∀ key ∈ header, key ≠ []) (hdistinct : header.Nodup)
    (rows : List (List JsString)) :
    List.Forall₂ (fun row (object : Record JsString) => ∀ key, object.own key =
        (rowFields header row).lookup key) rows (rows.map (csvObject header)) ↔
      js "__proto__" ∉ header ∨ rows = [] := by
  have hrow (row : List JsString) : (∀ key, (csvObject header row).own key =
      (rowFields header row).lookup key) ↔ js "__proto__" ∉ header := by
    constructor
    · intro h hproto
      have hown := h (js "__proto__")
      rw [own_csvObject hnonempty hdistinct] at hown
      obtain ⟨value, hvalue⟩ := Option.isSome_iff_exists.1
        ((lookup_rowFields_isSome header row _).2 hproto)
      rw [hvalue] at hown
      simp at hown
    · intro hproto key
      rw [own_csvObject hnonempty hdistinct]
      cases hvalue : (rowFields header row).lookup key with
      | none => rfl
      | some value =>
        have hmem := (lookup_rowFields_isSome header row key).1 (by rw [hvalue]; rfl)
        have hne : key ≠ js "__proto__" := fun heq => hproto (heq ▸ hmem)
        simp [hne]
  induction rows with
  | nil => simp
  | cons row rows ih =>
    constructor
    · intro h
      cases h with
      | cons hhead _ => exact .inl ((hrow row).1 hhead)
    · intro h
      have hproto := h.resolve_right (List.cons_ne_nil _ _)
      exact .cons ((hrow row).2 hproto) (ih.2 (.inl hproto))

end

theorem isFilledRow_iff {row : List JsString} : isFilledRow row = true ↔ ∃ field ∈ row, field ≠ [] := by
  rw [isFilledRow, List.any_eq_true]
  simp only [decide_eq_true_eq, gt_iff_lt, List.length_pos_iff]

/-- The rows of the text of a table are its header and its rows, if it has any column. -/
theorem EncodedTable.filledRows (table : EncodedTable) :
    (parseCsvRows table.text.encode).filter isFilledRow =
      (table.header :: table.rows).filter fun record => record.length ≠ 0 := by
  rw [parseCsvRows_encode, filter_fields, ← CsvText.records, table.records]
  refine List.filter_eq_self.2 fun record hrecord => ?_
  obtain ⟨hmem, hlength⟩ := List.mem_filter.1 hrecord
  rcases List.mem_cons.1 hmem with rfl | hmem
  · obtain ⟨key, hkey⟩ := List.exists_mem_of_ne_nil table.header
      (List.length_eq_zero_iff.not.1 (of_decide_eq_true hlength))
    exact isFilledRow_iff.2 ⟨key, hkey, table.nonempty key hkey⟩
  · exact isFilledRow_iff.2 (table.filled record hmem)

theorem EncodedTable.parseCsvObjects_eq (table : EncodedTable) :
    parseCsvObjects table.text.encode = table.rows.map (csvObject table.header) := by
  have hrows (row : List JsString) (hrow : row ∈ table.rows) : row.length ≠ 0 := by
    obtain ⟨field, hfield, -⟩ := table.filled row hrow
    exact (List.length_pos_of_mem hfield).ne'
  have hkept : table.rows.filter (fun record => record.length ≠ 0) = table.rows :=
    List.filter_eq_self.2 fun row hrow => decide_eq_true (hrows row hrow)
  rw [parseCsvObjects, table.filledRows]
  by_cases hheader : table.header.length = 0
  · have hnone : table.rows = [] := by
      refine List.eq_nil_iff_forall_not_mem.2 fun row hrow => hrows row hrow ?_
      have hle := table.bounded row hrow
      omega
    rw [List.filter_cons_of_neg (by simpa using hheader), hkept, hnone]
    rfl
  · rw [List.filter_cons_of_pos (by simpa using hheader), hkept]

/-- The text of a table decodes to its rows exactly when no header is the name that objects read
their prototype by, or there is no row. -/
theorem parseCsvObjects_exact (table : EncodedTable) :
    table.Decodes (parseCsvObjects table.text.encode) ↔
      js "__proto__" ∉ table.header ∨ table.rows = [] := by
  rw [EncodedTable.Decodes, table.parseCsvObjects_eq]
  exact decodes_iff table.nonempty table.distinct table.rows

def protoCell : CsvCell := ⟨js "__proto__", false, by
  have hplain : (js "__proto__").all (fun c => !isCsvSpecial c) = true := by decide
  exact fun _ c hc => by simpa using List.all_eq_true.1 hplain c hc⟩

def valueCell : CsvCell := ⟨js "x", true, by intro h; cases h⟩

/-- A column named `__proto__` with one value. -/
def protoTable : EncodedTable where
  header := [js "__proto__"]
  rows := [[js "x"]]
  nonempty := by decide +kernel
  distinct := List.nodup_singleton _
  bounded := by decide +kernel
  filled := by decide +kernel
  text := ⟨[([protoCell], .lf), ([valueCell], .lf)], []⟩
  records := by decide +kernel

theorem parseCsvObjects_exact_fails :
    ¬ ∀ table : EncodedTable, table.Decodes (parseCsvObjects table.text.encode) := by
  intro h
  have hdecodes := h protoTable
  rw [EncodedTable.Decodes, protoTable.parseCsvObjects_eq] at hdecodes
  have hproto := (decodes_iff protoTable.nonempty protoTable.distinct protoTable.rows).1 hdecodes
  revert hproto
  decide +kernel

end Musi.DriftAi
