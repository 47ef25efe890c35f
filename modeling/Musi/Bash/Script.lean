import Musi.Js.Table
import Musi.Bash.Words

namespace Musi.Bash
open Musi.Js
set_option autoImplicit true

/-! ## Scripts of assignments

The commands that only assign or check variables, each on a line of its own. A text with anything
else in it is not read. -/

inductive Command where
  | demand (name message : JsString)
  | scalar (name : JsString) (value : Word)
  | indexed (name : JsString) (values : List Word)
  | assoc (name : JsString)
  | element (name : JsString) (key value : Word)
  deriving DecidableEq

namespace Command

def name : Command → JsString
  | demand name _ => name
  | scalar name _ => name
  | indexed name _ => name
  | assoc name => name
  | element name _ _ => name

def words : Command → List Word
  | demand _ _ => []
  | scalar _ value => [value]
  | indexed _ values => values
  | assoc _ => []
  | element _ key value => [key, value]

end Command

def stripPrefix (start s : JsString) : Option JsString :=
  if start.isPrefixOf s then some (s.drop start.length) else none

def endOfLine : JsString → Option JsString
  | [] => some []
  | c :: s => if c = newline then some s else none

def readName (s : JsString) : Option (JsString × JsString) :=
  let name := s.takeWhile isNameUnit
  if isName name then some (name, s.dropWhile isNameUnit) else none

/-- The words up to a closing parenthesis. -/
def readWords : Nat → JsString → Option (List Word × JsString)
  | 0, _ => none
  | _ + 1, [] => none
  | fuel + 1, c :: s =>
    if c = unit ')' then some ([], s)
    else if c = space then readWords fuel s
    else do
      let (word, rest) ← scan .plain [] (c :: s)
      if rest.length = (c :: s).length then none
      let (words, rest) ← readWords fuel rest
      return (word :: words, rest)

/-- What the message of a demand may hold. -/
def isMessage (c : UInt16) : Bool := isPlain c || c = space

/-- `"${name:?message}"` after its opening brace. -/
def readDemand (s : JsString) : Option (Command × JsString) := do
  let (name, s) ← readName s
  let s ← stripPrefix (js ":?") s
  let message := s.takeWhile isMessage
  let s ← stripPrefix [closeBrace, quotation] (s.dropWhile isMessage)
  let s ← endOfLine s
  return (.demand name message, s)

def readScalar (s : JsString) : Option (Command × JsString) := do
  let (name, s) ← readName s
  let s ← stripPrefix (js "=") s
  let (value, s) ← scan .plain [] s
  let s ← endOfLine s
  return (.scalar name value, s)

def readIndexed (s : JsString) : Option (Command × JsString) := do
  let (name, s) ← readName s
  let s ← stripPrefix (js "=(") s
  let (values, s) ← readWords s.length s
  let s ← endOfLine s
  return (.indexed name values, s)

def readAssoc (s : JsString) : Option (Command × JsString) := do
  let (name, s) ← readName s
  let s ← stripPrefix (js "=()") s
  let s ← endOfLine s
  return (.assoc name, s)

def readElement (s : JsString) : Option (Command × JsString) := do
  let (name, s) ← readName s
  let s ← stripPrefix (js "[") s
  let (key, s) ← scan .plain [] s
  let s ← stripPrefix (js "]=") s
  let (value, s) ← scan .plain [] s
  let s ← endOfLine s
  return (.element name key value, s)

def demandStart : JsString := js ": " ++ [quotation, dollar, openBrace]

def readCommand (s : JsString) : Option (Command × JsString) :=
  match stripPrefix demandStart s with
  | some s => readDemand s
  | none =>
    match stripPrefix (js "declare -g ") s with
    | some s => readScalar s
    | none =>
      match stripPrefix (js "declare -ga ") s with
      | some s => readIndexed s
      | none =>
        match stripPrefix (js "declare -gA ") s with
        | some s => readAssoc s
        | none => (readIndexed s).orElse fun _ => readElement s

/-- One line: nothing, a comment, or a command, which may go on over line breaks in quotes. -/
def readLine (s : JsString) : Option (Option Command × JsString) :=
  match s with
  | [] => none
  | c :: rest =>
    if c = newline then some (none, rest)
    else if c = unit '#' then (endOfLine (rest.dropWhile (· ≠ newline))).map fun s => (none, s)
    else (readCommand s).map fun read => (some read.1, read.2)

def readScript (s : JsString) : Option (List Command) :=
  if s = [] then some []
  else match readLine s with
    | none => none
    | some (command, rest) =>
      if rest.length < s.length then (readScript rest).map (command.toList ++ ·) else none
termination_by s.length

/-! ## What is read -/

theorem stripPrefix_append (start s : JsString) : stripPrefix start (start ++ s) = some s := by
  rw [stripPrefix, if_pos (List.isPrefixOf_iff_prefix.2 (List.prefix_append _ _)), List.drop_left]

theorem isName_iff {name : JsString} :
    isName name = true ↔ ∃ c s, name = c :: s ∧ isNameStart c = true ∧ s.all isNameUnit = true := by
  cases name with
  | nil =>
    refine iff_of_false Bool.false_ne_true ?_
    rintro ⟨c, s, h, -⟩
    cases h
  | cons c s =>
    rw [isName, Bool.and_eq_true]
    constructor
    · intro h
      exact ⟨c, s, rfl, h⟩
    · rintro ⟨d, t, heq, h⟩
      cases heq
      exact h

theorem isName_units {name : JsString} (h : isName name = true) : name.all isNameUnit = true := by
  obtain ⟨c, s, rfl, hc, hs⟩ := isName_iff.1 h
  rw [List.all_cons, hs, isNameUnit, hc]
  rfl

theorem readName_append {name rest : JsString} (h : isName name = true)
    (hrest : ∀ c ∈ rest.head?, isNameUnit c = false) :
    readName (name ++ rest) = some (name, rest) := by
  have hunits := List.all_eq_true.1 (isName_units h)
  have htake : rest.takeWhile isNameUnit = [] ∧ rest.dropWhile isNameUnit = rest := by
    cases rest with
    | nil => exact ⟨rfl, rfl⟩
    | cons c rest =>
      have hc := hrest c rfl
      exact ⟨List.takeWhile_cons_of_neg (by rw [hc]; exact Bool.false_ne_true),
        List.dropWhile_cons_of_neg (by rw [hc]; exact Bool.false_ne_true)⟩
  rw [readName, List.takeWhile_append_of_pos hunits, List.dropWhile_append_of_pos hunits, htake.1,
    htake.2, List.append_nil]
  exact if_pos h

theorem readName_spec {s name rest : JsString} (h : readName s = some (name, rest)) :
    isName name = true := by
  rw [readName] at h
  split at h
  · next hname =>
    cases h
    exact hname
  · cases h

/-- A line that reads as a command, whatever comes after its line break. -/
def Reads (line : JsString) (command : Option Command) : Prop :=
  ∀ rest, readLine (line ++ newline :: rest) = some (command, rest)

theorem readScript_lines {lines : List (JsString × Option Command)}
    (h : ∀ line ∈ lines, Reads line.1 line.2) :
    readScript (lines.flatMap fun line => line.1 ++ [newline]) =
      some (lines.filterMap Prod.snd) := by
  induction lines with
  | nil => rw [List.flatMap_nil, readScript]; rfl
  | cons line lines ih =>
    rw [List.forall_mem_cons] at h
    rw [List.flatMap_cons, List.append_assoc, List.singleton_append, readScript, if_neg, h.1]
    · simp only [ih h.2]
      rw [if_pos]
      · cases hcommand : line.2 with
        | none => rw [List.filterMap_cons_none hcommand]; rfl
        | some command => rw [List.filterMap_cons_some hcommand]; rfl
      · rw [List.length_append, List.length_cons]
        omega
    · exact List.append_ne_nil_of_right_ne_nil _ (List.cons_ne_nil _ _)

/-- Lines that read as commands, each line as one or none. -/
def ReadLines (lines : List JsString) (commands : List Command) : Prop :=
  ∃ pairs : List (JsString × Option Command), (∀ pair ∈ pairs, Reads pair.1 pair.2) ∧
    pairs.map Prod.fst = lines ∧ pairs.filterMap Prod.snd = commands

theorem ReadLines.nil : ReadLines [] [] := ⟨[], fun _ h => (List.not_mem_nil h).elim, rfl, rfl⟩

theorem ReadLines.append {lines lines' : List JsString} {commands commands' : List Command}
    (h : ReadLines lines commands) (h' : ReadLines lines' commands') :
    ReadLines (lines ++ lines') (commands ++ commands') := by
  obtain ⟨pairs, hreads, rfl, rfl⟩ := h
  obtain ⟨pairs', hreads', rfl, rfl⟩ := h'
  refine ⟨pairs ++ pairs', fun pair hpair => ?_, List.map_append, List.filterMap_append⟩
  rcases List.mem_append.1 hpair with hpair | hpair
  · exact hreads pair hpair
  · exact hreads' pair hpair

theorem ReadLines.command {line : JsString} {command : Command} (h : Reads line (some command)) :
    ReadLines [line] [command] :=
  ⟨[(line, some command)], fun _ hpair => List.mem_singleton.1 hpair ▸ h, rfl, rfl⟩

theorem ReadLines.skipped {lines : List JsString} (h : ∀ line ∈ lines, Reads line none) :
    ReadLines lines [] := by
  refine ⟨lines.map fun line => (line, none), fun pair hpair => ?_, ?_, ?_⟩
  · obtain ⟨line, hline, rfl⟩ := List.mem_map.1 hpair
    exact h line hline
  · rw [List.map_map]
    exact List.map_id _
  · rw [List.filterMap_map]
    exact List.filterMap_eq_nil_iff.2 fun _ _ => rfl

theorem ReadLines.flatMap {α : Type} {f : α → List JsString} {g : α → List Command} {l : List α}
    (h : ∀ a ∈ l, ReadLines (f a) (g a)) : ReadLines (l.flatMap f) (l.flatMap g) := by
  induction l with
  | nil => exact ReadLines.nil
  | cons a l ih =>
    rw [List.forall_mem_cons] at h
    rw [List.flatMap_cons, List.flatMap_cons]
    exact h.1.append (ih h.2)

theorem ReadLines.map {α : Type} {f : α → JsString} {g : α → Command} {l : List α}
    (h : ∀ a ∈ l, Reads (f a) (some (g a))) : ReadLines (l.map f) (l.map g) := by
  rw [List.map_eq_flatMap, List.map_eq_flatMap]
  exact ReadLines.flatMap fun a ha => ReadLines.command (h a ha)

theorem ReadLines.readScript {lines : List JsString} {commands : List Command}
    (h : ReadLines lines commands) :
    Musi.Bash.readScript (lines.flatMap fun line => line ++ [newline]) = some commands := by
  obtain ⟨pairs, hreads, rfl, rfl⟩ := h
  rw [List.flatMap_map]
  exact readScript_lines hreads

theorem reads_blank : Reads [] none := fun _ => rfl

theorem reads_comment {text : JsString} (h : newline ∉ text) : Reads (unit '#' :: text) none := by
  intro rest
  have hdrop : (text ++ newline :: rest).dropWhile (· ≠ newline) = newline :: rest := by
    rw [List.dropWhile_append_of_pos fun c hc => decide_eq_true (ne_of_mem_of_not_mem hc h)]
    exact List.dropWhile_cons_of_neg (by decide)
  rw [List.cons_append, readLine, if_neg (by decide), if_pos rfl, hdrop]
  rfl

theorem readLine_command {line rest : JsString} {command : Command} {c : UInt16}
    (hhead : line.head? = some c) (hnewline : c ≠ newline) (hcomment : c ≠ unit '#')
    (h : readCommand (line ++ newline :: rest) = some (command, rest)) :
    readLine (line ++ newline :: rest) = some (some command, rest) := by
  cases line with
  | nil => cases hhead
  | cons d line =>
    cases hhead
    rw [List.cons_append] at h ⊢
    rw [readLine, if_neg hnewline, if_neg hcomment, h]
    rfl

theorem readCommand_demand (s : JsString) : readCommand (demandStart ++ s) = readDemand s := by
  rw [readCommand, stripPrefix_append]

theorem readCommand_scalar (s : JsString) :
    readCommand (js "declare -g " ++ s) = readScalar s := by
  have hdemand : stripPrefix demandStart (js "declare -g " ++ s) = none := rfl
  rw [readCommand, hdemand]
  simp only [stripPrefix_append]

theorem readCommand_indexed (s : JsString) :
    readCommand (js "declare -ga " ++ s) = readIndexed s := by
  have hdemand : stripPrefix demandStart (js "declare -ga " ++ s) = none := rfl
  have hscalar : stripPrefix (js "declare -g ") (js "declare -ga " ++ s) = none := rfl
  rw [readCommand, hdemand]
  simp only [hscalar, stripPrefix_append]

theorem readCommand_assoc (s : JsString) :
    readCommand (js "declare -gA " ++ s) = readAssoc s := by
  have hdemand : stripPrefix demandStart (js "declare -gA " ++ s) = none := rfl
  have hscalar : stripPrefix (js "declare -g ") (js "declare -gA " ++ s) = none := rfl
  have hindexed : stripPrefix (js "declare -ga ") (js "declare -gA " ++ s) = none := rfl
  rw [readCommand, hdemand]
  simp only [hscalar, hindexed, stripPrefix_append]

/-- A line that starts with neither a colon nor a small letter assigns. -/
theorem readCommand_assign {c : UInt16} {s : JsString} (hcolon : c ≠ unit ':') (hd : c ≠ unit 'd') :
    readCommand (c :: s) = (readIndexed (c :: s)).orElse fun _ => readElement (c :: s) := by
  have hstrip {d : UInt16} {start : JsString} (hne : c ≠ d) :
      stripPrefix (d :: start) (c :: s) = none := by
    rw [stripPrefix, if_neg]
    intro h
    obtain ⟨t, ht⟩ := List.isPrefixOf_iff_prefix.1 h
    exact hne (List.cons.inj ht).1.symm
  have hdemand : stripPrefix demandStart (c :: s) = none := hstrip hcolon
  have hscalar : stripPrefix (js "declare -g ") (c :: s) = none := hstrip hd
  have hindexed : stripPrefix (js "declare -ga ") (c :: s) = none := hstrip hd
  have hassoc : stripPrefix (js "declare -gA ") (c :: s) = none := hstrip hd
  rw [readCommand, hdemand]
  simp only [hscalar, hindexed, hassoc]

/-- Text that reads as one word. -/
def WordText (text : JsString) (word : Word) : Prop :=
  ∀ w rest, scan .plain w (text ++ rest) = scan .plain (w ++ word) rest

theorem wordText_singleQuoted (s : JsString) : WordText (singleQuoted s) (lits s) :=
  fun w _ => scan_singleQuoted s w

theorem wordText_plain {s : JsString} (h : s.all isPlain = true) : WordText s (lits s) :=
  fun w _ => scan_plain h w

theorem WordText.scan {text : JsString} {word : Word} (h : WordText text word) {rest : JsString}
    (hrest : EndsWord rest) : Musi.Bash.scan .plain [] (text ++ rest) = some (word, rest) := by
  rw [h, List.nil_append, scan_end hrest]

theorem endsWord_cons {c : UInt16} (h : endsWord c = true) (rest : JsString) :
    EndsWord (c :: rest) := by
  intro d hd
  cases hd
  exact h

theorem reads_scalar {name text : JsString} {value : Word} (hname : isName name = true)
    (htext : WordText text value) :
    Reads (js "declare -g " ++ (name ++ (js "=" ++ text))) (some (.scalar name value)) := by
  intro rest
  refine readLine_command rfl (by decide) (by decide) ?_
  rw [List.append_assoc, List.append_assoc, List.append_assoc, readCommand_scalar, readScalar,
    readName_append hname (by intro c hc; cases hc; rfl)]
  simp only [Option.bind_eq_bind, Option.bind_some, stripPrefix_append,
    htext.scan (endsWord_cons (c := newline) rfl rest)]
  rfl

theorem reads_assoc {name : JsString} (hname : isName name = true) :
    Reads (js "declare -gA " ++ (name ++ js "=()")) (some (.assoc name)) := by
  intro rest
  refine readLine_command rfl (by decide) (by decide) ?_
  rw [List.append_assoc, List.append_assoc, readCommand_assoc, readAssoc,
    readName_append hname (by intro c hc; cases hc; rfl)]
  simp only [Option.bind_eq_bind, Option.bind_some, stripPrefix_append]
  rfl

/-! ## Lists of words -/

/-- Text of a word that does not start like the end of a list or the space before it. -/
structure ListedText (text : JsString) (word : Word) : Prop where
  reads : WordText text word
  starts : ∃ c s, text = c :: s ∧ c ≠ unit ')' ∧ c ≠ space

theorem listedText_singleQuoted (s : JsString) : ListedText (singleQuoted s) (lits s) :=
  ⟨wordText_singleQuoted s, apostrophe, _, rfl, by decide, by decide⟩

theorem readWords_text {text rest : JsString} {word : Word} (h : ListedText text word)
    (hrest : EndsWord rest) (fuel : Nat) : readWords (fuel + 1) (text ++ rest) =
      (readWords fuel rest).map fun read => (word :: read.1, read.2) := by
  obtain ⟨c, s, rfl, hclose, hspace⟩ := h.starts
  have hscan := h.reads.scan hrest
  rw [List.cons_append] at hscan ⊢
  have hlength : rest.length ≠ (c :: (s ++ rest)).length := by
    rw [List.length_cons, List.length_append]
    omega
  rw [readWords, if_neg hclose, if_neg hspace, hscan]
  simp only [Option.bind_eq_bind, Option.bind_some, if_neg hlength]
  cases readWords fuel rest with
  | none => rfl
  | some read => rfl

theorem readWords_join {texts : List (JsString × Word)}
    (h : ∀ text ∈ texts, ListedText text.1 text.2) {rest : JsString} {fuel : Nat}
    (hfuel : 2 * texts.length < fuel) :
    readWords fuel (join [space] (texts.map Prod.fst) ++ unit ')' :: rest) =
      some (texts.map Prod.snd, rest) := by
  induction texts generalizing fuel with
  | nil =>
    obtain ⟨fuel, rfl⟩ := Nat.exists_eq_succ_of_ne_zero (Nat.ne_of_gt hfuel)
    rfl
  | cons text texts ih =>
    rw [List.forall_mem_cons] at h
    rw [List.length_cons] at hfuel
    cases texts with
    | nil =>
      obtain ⟨fuel, rfl⟩ := Nat.exists_eq_add_of_lt hfuel
      have hclose : EndsWord (unit ')' :: rest) := endsWord_cons rfl rest
      change readWords (2 * 1 + fuel + 1) (text.1 ++ unit ')' :: rest) = _
      rw [readWords_text h.1 hclose, show 2 * 1 + fuel = fuel + 1 + 1 by omega, readWords, if_pos rfl]
      rfl
    | cons next texts =>
      obtain ⟨fuel, rfl⟩ : ∃ more, fuel = more + 1 + 1 := ⟨fuel - 2, by omega⟩
      have hspace (t : JsString) : EndsWord (space :: t) := endsWord_cons rfl t
      have hsplit : join [space] ((text :: next :: texts).map Prod.fst) =
          text.1 ++ space :: join [space] ((next :: texts).map Prod.fst) := by
        rw [List.map_cons, List.map_cons, join, List.append_assoc, List.singleton_append]
      have hskip (t : JsString) : readWords (fuel + 1) (space :: t) = readWords fuel t := by
        rw [readWords, if_neg (by decide), if_pos rfl]
      rw [hsplit, List.append_assoc, List.cons_append, readWords_text h.1 (hspace _), hskip,
        ih h.2 (by omega)]
      rfl

theorem length_join {texts : List (JsString × Word)}
    (h : ∀ text ∈ texts, ListedText text.1 text.2) :
    2 * texts.length ≤ (join [space] (texts.map Prod.fst)).length + 1 := by
  induction texts with
  | nil => exact Nat.zero_le _
  | cons text texts ih =>
    rw [List.forall_mem_cons] at h
    obtain ⟨c, s, htext, -⟩ := h.1.starts
    have hlength : 1 ≤ text.1.length := by
      rw [htext, List.length_cons]
      omega
    cases texts with
    | nil =>
      change 2 * 1 ≤ text.1.length + 1
      omega
    | cons next texts =>
      have hrest := ih h.2
      rw [List.map_cons, List.map_cons, join, List.length_append, List.length_append,
        List.length_singleton, ← List.map_cons]
      rw [List.length_cons]
      omega

theorem readIndexed_join {name rest : JsString} {texts : List (JsString × Word)}
    (hname : isName name = true) (h : ∀ text ∈ texts, ListedText text.1 text.2) :
    readIndexed (name ++ (js "=(" ++ (join [space] (texts.map Prod.fst) ++
      unit ')' :: newline :: rest))) = some (.indexed name (texts.map Prod.snd), rest) := by
  have hfuel : 2 * texts.length < (join [space] (texts.map Prod.fst) ++
      unit ')' :: newline :: rest).length := by
    have hjoin := length_join h
    rw [List.length_append, List.length_cons, List.length_cons]
    omega
  rw [readIndexed, readName_append hname (by intro c hc; cases hc; rfl)]
  simp only [Option.bind_eq_bind, Option.bind_some, stripPrefix_append, readWords_join h hfuel]
  rfl

/-- The parenthesised list of some texts. -/
def listText (texts : List JsString) : JsString := join [space] texts ++ [unit ')']

theorem reads_indexed {name : JsString} {texts : List (JsString × Word)}
    (hname : isName name = true) (h : ∀ text ∈ texts, ListedText text.1 text.2) :
    Reads (js "declare -ga " ++ (name ++ (js "=(" ++ listText (texts.map Prod.fst))))
      (some (.indexed name (texts.map Prod.snd))) := by
  intro rest
  refine readLine_command rfl (by decide) (by decide) ?_
  rw [listText, List.append_assoc, List.append_assoc, List.append_assoc, List.append_assoc,
    readCommand_indexed, List.singleton_append, readIndexed_join hname h]

/-- A name that a line may start with. -/
theorem readLine_assign {name line rest : JsString} {command : Command} (hname : isName name = true)
    (hd : name.head? ≠ some (unit 'd')) (h : ((readIndexed (name ++ (line ++ newline :: rest))).orElse
      fun _ => readElement (name ++ (line ++ newline :: rest))) = some (command, rest)) :
    readLine (name ++ line ++ newline :: rest) = some (some command, rest) := by
  obtain ⟨c, s, rfl, hc, -⟩ := isName_iff.1 hname
  have hne {d : UInt16} (hnot : isNameStart d = false) : c ≠ d := by
    rintro rfl
    rw [hnot] at hc
    cases hc
  have hd' : c ≠ unit 'd' := fun heq => hd (congrArg some heq)
  refine readLine_command rfl (hne (by decide)) (hne (by decide)) ?_
  rw [List.append_assoc, List.cons_append, readCommand_assign (hne (by decide)) hd']
  exact h

theorem reads_assigned {name : JsString} {texts : List (JsString × Word)}
    (hname : isName name = true) (hd : name.head? ≠ some (unit 'd'))
    (h : ∀ text ∈ texts, ListedText text.1 text.2) :
    Reads (name ++ (js "=(" ++ listText (texts.map Prod.fst)))
      (some (.indexed name (texts.map Prod.snd))) := by
  intro rest
  refine readLine_assign hname hd ?_
  rw [listText, List.append_assoc, List.append_assoc, List.singleton_append,
    readIndexed_join hname h]
  rfl

theorem reads_element {name key value : JsString} {keyWord valueWord : Word}
    (hname : isName name = true) (hd : name.head? ≠ some (unit 'd')) (hkey : WordText key keyWord)
    (hvalue : WordText value valueWord) :
    Reads (name ++ (js "[" ++ (key ++ (js "]=" ++ value))))
      (some (.element name keyWord valueWord)) := by
  intro rest
  refine readLine_assign hname hd ?_
  have hread : readName (name ++ (js "[" ++ (key ++ (js "]=" ++ value)) ++ newline :: rest)) =
      some (name, js "[" ++ (key ++ (js "]=" ++ value)) ++ newline :: rest) :=
    readName_append hname (by intro c hc; cases hc; rfl)
  have hindexed : readIndexed (name ++ (js "[" ++ (key ++ (js "]=" ++ value)) ++
      newline :: rest)) = none := by
    rw [readIndexed, hread]
    rfl
  have hclose : EndsWord (js "]=" ++ (value ++ newline :: rest)) :=
    endsWord_cons (c := unit ']') rfl _
  rw [hindexed, readElement, hread, List.append_assoc, List.append_assoc, List.append_assoc]
  simp only [Option.orElse, Option.bind_eq_bind, Option.bind_some, stripPrefix_append,
    hkey.scan hclose, hvalue.scan (endsWord_cons (c := newline) rfl rest)]
  rfl

theorem reads_demand {name message : JsString} (hname : isName name = true)
    (hmessage : message.all isMessage = true) :
    Reads (demandStart ++ (name ++ (js ":?" ++ (message ++ [closeBrace, quotation]))))
      (some (.demand name message)) := by
  intro rest
  refine readLine_command rfl (by decide) (by decide) ?_
  have hunits := List.all_eq_true.1 hmessage
  have htake : (message ++ ([closeBrace, quotation] ++ newline :: rest)).takeWhile isMessage =
      message := by
    rw [List.takeWhile_append_of_pos hunits]
    exact List.append_nil _
  have hdrop : (message ++ ([closeBrace, quotation] ++ newline :: rest)).dropWhile isMessage =
      [closeBrace, quotation] ++ newline :: rest := by
    rw [List.dropWhile_append_of_pos hunits]
    rfl
  rw [List.append_assoc, List.append_assoc, List.append_assoc, List.append_assoc,
    readCommand_demand, readDemand, readName_append hname (by intro c hc; cases hc; rfl)]
  simp only [Option.bind_eq_bind, Option.bind_some, stripPrefix_append, htake, hdrop]
  rfl

end Musi.Bash
