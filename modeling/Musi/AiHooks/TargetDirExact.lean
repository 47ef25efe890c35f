import Mathlib.Data.List.Induction
import Musi.AiHooks.TargetDir

namespace Musi.AiHooks
open Musi.Shell
set_option autoImplicit true

/-! ## Words -/

/-- A character that stands for itself in a word: no white space, operator, quote or escape. -/
def isLiteralChar (c : Char) : Bool :=
  !isSpace c && !isSeparator c && !isQuote c && c != '\\' && c ∉ sh "()<>"

/-- A parameter, command, pathname, tilde or brace expansion. -/
def expands (text : Text) : Bool :=
  text.any (· ∈ sh "$`*?[") || text.head? = some '~' ||
    (text.any (· = '{') && (text.any (· = ',') || text.tails.any (sh "..").isPrefixOf))

structure Word where
  text : Text
  literal : text.all isLiteralChar = true
  unexpanded : expands text = false
  nonempty : text ≠ []
  uncommented : text.head? ≠ some '#'

def isBlank (c : Char) : Bool := c = ' ' || c = '\t'

/-- The blanks between two words. -/
structure Gap where
  text : Text
  blank : text.all isBlank = true
  nonempty : text ≠ []

/-- White space around commands. -/
structure Layout where
  text : Text
  white : text.all (fun c => isBlank c || c = '\n') = true

/-- A name in quotes, without an expansion or a further quote in it. -/
structure Quotation where
  mark : Char
  body : Text
  isMark : isQuote mark = true
  closed : body.all (fun c => !isQuote c && c ∉ sh "$`\\") = true

/-- A directory is a word, or quoted as a whole. -/
inductive Operand
  | word (word : Word)
  | quoted (quotation : Quotation)

def Operand.text : Operand → Text
  | .word w => w.text
  | .quoted q => q.mark :: (q.body ++ [q.mark])

/-- What the shell hands over. -/
def Operand.path : Operand → Text
  | .word w => w.text
  | .quoted q => q.body

/-! ## Commands -/

/-- An operand with the blanks before it. -/
structure Field where
  gap : Gap
  operand : Operand

def Field.text (field : Field) : Text := field.gap.text ++ field.operand.text

def fieldsText (fields : List Field) : Text := fields.flatMap Field.text

/-- `cd` with its directory and the separator; a dash alone names the directory before. -/
structure ChangeDir where
  lead : Layout
  target : Field
  blanks : Text
  conjunction : Bool
  blank : blanks.all isBlank = true
  unsigned : target.operand.path.head? = some '-' → target.operand.path = sh "-"

def ChangeDir.separator (change : ChangeDir) : Text := if change.conjunction then sh "&&" else sh ";"

def ChangeDir.text (change : ChangeDir) : Text :=
  change.lead.text ++ sh "cd" ++ change.target.text ++ change.blanks ++ change.separator

/-- An assignment before a command; the value may be empty. -/
structure Assignment where
  name : Text
  value : Text
  isName : name.head?.any isNameStart = true
  named : name.all isNameChar = true
  literal : value.all isLiteralChar = true
  unexpanded : expands value = false

inductive Wrapper
  | command
  | builtin
  | env
  | assign (assignment : Assignment)

def Wrapper.text : Wrapper → Text
  | .command => sh "command"
  | .builtin => sh "builtin"
  | .env => sh "env"
  | .assign a => a.name ++ '=' :: a.value

/-- An option of one word, or one whose value is the next word. -/
structure Flag where
  name : Word
  value : Option (Gap × Word)
  dashed : name.text.head? = some '-'
  other : name.text ≠ sh "-C" ∧ name.text ≠ sh "-c"

inductive GlobalOption
  | dir (target : Field)
  | config (gap : Gap) (setting : Word)
  | flag (flag : Flag)

structure GitCommand where
  cds : List ChangeDir
  lead : Layout
  wrappers : List (Wrapper × Gap)
  options : List (Gap × GlobalOption)
  subcommand : Gap × Word
  arguments : List (Gap × Word)
  trail : Layout
  undashed : subcommand.2.text.head? ≠ some '-'

def dashC : Word := ⟨sh "-C", by decide, by decide, by decide, by decide⟩

def dashConfig : Word := ⟨sh "-c", by decide, by decide, by decide, by decide⟩

def GlobalOption.fields (gap : Gap) : GlobalOption → List Field
  | .dir target => [⟨gap, .word dashC⟩, target]
  | .config inner setting => [⟨gap, .word dashConfig⟩, ⟨inner, .word setting⟩]
  | .flag f => ⟨gap, .word f.name⟩ :: f.value.toList.map fun v => ⟨v.1, .word v.2⟩

/-- The words behind `git`. -/
def GitCommand.fields (command : GitCommand) : List Field :=
  command.options.flatMap (fun option => option.2.fields option.1) ++
    ((command.subcommand :: command.arguments).map fun word => ⟨word.1, .word word.2⟩)

def cdsText (cds : List ChangeDir) : Text := cds.flatMap ChangeDir.text

def wrappersText (wrappers : List (Wrapper × Gap)) : Text :=
  wrappers.flatMap fun wrapper => wrapper.1.text ++ wrapper.2.text

/-- A call of git behind its wrappers. -/
def segmentText (lead : Text) (wrappers : List (Wrapper × Gap)) (fields : List Field)
    (trail : Text) : Text :=
  lead ++ (wrappersText wrappers ++ (sh "git" ++ (fieldsText fields ++ trail)))

def GitCommand.text (command : GitCommand) : Text :=
  cdsText command.cds ++
    segmentText command.lead.text command.wrappers command.fields command.trail.text

/-! ## The directory that git runs in -/

def components (path : Text) : List Text := path.splitOn '/'

/-- A component from a directory that is the list of its components. -/
def enterComponent (dir : List Text) (component : Text) : List Text :=
  if component = [] ∨ component = sh "." then dir
  else if component = sh ".." then dir.dropLast
  else dir ++ [component]

/-- The directory that a path denotes from another one. -/
def enter (dir : List Text) (path : Text) : List Text :=
  (components path).foldl enterComponent (if path.head? = some '/' then [] else dir)

/-- The working directory and the one before it. -/
structure ShellDirs where
  working : List Text
  previous : List Text

def ShellDirs.cd (dirs : ShellDirs) (path : Text) : ShellDirs :=
  if path = sh "-" then ⟨dirs.previous, dirs.working⟩ else ⟨enter dirs.working path, dirs.working⟩

def GlobalOption.enter (dir : List Text) : GlobalOption → List Text
  | .dir target => AiHooks.enter dir target.operand.path
  | _ => dir

/-- Every cd succeeds, then git composes its own options in order. -/
def GitCommand.directory (command : GitCommand) (start : ShellDirs) : List Text :=
  (command.options.map Prod.snd).foldl GlobalOption.enter
    (command.cds.foldl (fun dirs change => dirs.cd change.target.operand.path) start).working

/-! ## What the resolver reads -/

/-- The words before the first word `commit` that is no value of an option `-C` or `-c`, and the
blanks before it. -/
def beforeCommit (value : Bool) : List Field → Option (List Field × Gap)
  | [] => none
  | field :: fields =>
    if value then (beforeCommit false fields).map fun (before, gap) => (field :: before, gap)
    else if field.operand.path = sh "commit" then some ([], field.gap)
    else (beforeCommit (field.operand.path = sh "-C" || field.operand.path = sh "-c") fields).map
      fun (before, gap) => (field :: before, gap)

/-- The words that are read, and the blanks behind them. -/
def GitCommand.region (command : GitCommand) : List Field × Text :=
  match beforeCommit false command.fields with
  | some (before, gap) => (before, gap.text)
  | none => (command.fields, command.trail.text)

/-- The word behind the first word `-C`, whatever those words are to git. -/
def firstDir : List Field → Option Text
  | [] => none
  | field :: fields =>
    if field.operand.text = sh "-C" then fields.head?.map fun value => value.operand.path
    else firstDir fields

/-- An assignment that the resolver does not look through. -/
def Wrapper.isEmptyAssignment : Wrapper → Bool
  | .assign a => a.value = []
  | _ => false

def Wrapper.isAssignment : Wrapper → Bool
  | .assign _ => true
  | _ => false

/-- The segment of the git command, as far as it is read. -/
def GitCommand.segment (command : GitCommand) : Text :=
  segmentText command.lead.text command.wrappers command.region.1 command.region.2

def GitCommand.targets (command : GitCommand) : List Text :=
  command.cds.map fun change => change.target.operand.path

/-- An assignment without a value hides the call from the resolver. -/
def GitCommand.lost (command : GitCommand) : Bool :=
  command.wrappers.any fun wrapper => wrapper.1.isEmptyAssignment

/-- The directories that the resolver composes; none where it declines. -/
def GitCommand.readDirs (command : GitCommand) : Option (List Text) :=
  if hasSubstitution (cdsText command.cds ++ command.segment) then none
  else
    match if command.lost then none else firstDir command.region.1 with
    | some dir => some (command.targets ++ [dir])
    | none =>
      if command.targets.all (· = []) ∨
          (command.lost ∧ command.wrappers.head?.all fun wrapper => wrapper.1.isAssignment)
      then none
      else some command.targets

/-! ## Texts of one kind of character -/

def White (s : Text) : Prop := ∀ c ∈ s, isSpace c = true

def Solid (s : Text) : Prop := ∀ c ∈ s, isSpace c = false

/-- A word ends here. -/
def Stops (s : Text) : Prop := ∀ c ∈ s.head?, isSpace c = true ∨ isSeparator c = true

/-- White space has ended here. -/
def Starts (s : Text) : Prop := ∀ c ∈ s.head?, isSpace c = false

theorem isSpace_of_isBlank (h : isBlank c = true) : isSpace c = true := by
  rw [isBlank, Bool.or_eq_true, decide_eq_true_eq, decide_eq_true_eq] at h
  rcases h with rfl | rfl <;> decide

theorem white_of_blank {s : Text} (h : s.all isBlank = true) : White s := fun c hc =>
  isSpace_of_isBlank (List.all_eq_true.1 h c hc)

theorem Gap.isWhite (gap : Gap) : White gap.text := white_of_blank gap.blank

theorem Layout.isWhite (layout : Layout) : White layout.text := by
  intro c hc
  have h := List.all_eq_true.1 layout.white c hc
  rw [Bool.or_eq_true, decide_eq_true_eq] at h
  rcases h with h | rfl
  · exact isSpace_of_isBlank h
  · decide

structure LiteralChar (c : Char) : Prop where
  solid : isSpace c = false
  inside : isSeparator c = false
  unquoted : isQuote c = false
  unescaped : c ≠ '\\'

theorem literalChar (h : isLiteralChar c = true) : LiteralChar c := by
  simp only [isLiteralChar, Bool.and_eq_true, Bool.not_eq_true', bne_iff_ne] at h
  exact ⟨h.1.1.1.1, h.1.1.1.2, h.1.1.2, h.1.2⟩

theorem literalChar_of_all {s : Text} (h : s.all isLiteralChar = true) (hc : c ∈ s) : LiteralChar c :=
  literalChar (List.all_eq_true.1 h c hc)

theorem Word.literalChar (word : Word) (h : c ∈ word.text) : LiteralChar c :=
  literalChar_of_all word.literal h

theorem Word.solid (word : Word) : Solid word.text := fun _ h => (word.literalChar h).solid

theorem mem_of_head_append {s : Text} (hne : s ≠ []) (h : c ∈ (s ++ t).head?) : c ∈ s := by
  cases s with
  | nil => exact absurd rfl hne
  | cons d s => exact List.mem_cons.2 (.inl (Option.some.inj h).symm)

theorem Gap.spaced (gap : Gap) (s : Text) (h : c ∈ (gap.text ++ s).head?) : isSpace c = true :=
  gap.isWhite c (mem_of_head_append gap.nonempty h)

/-- Behind a word comes white space, or the text ends. -/
theorem spaced_fields (fields : List Field) (h : White trail) :
    ∀ c ∈ (fieldsText fields ++ trail).head?, isSpace c = true := by
  cases fields with
  | nil => exact fun c hc => h c (List.mem_of_mem_head? hc)
  | cons field fields =>
    rw [fieldsText, List.flatMap_cons, Field.text, List.append_assoc, List.append_assoc]
    exact fun c hc => field.gap.spaced _ hc

/-! ## White space and words at the front -/

theorem skipSpaces_white (h : White s) (t : Text) : skipSpaces (s ++ t) = skipSpaces t :=
  List.dropWhile_append_of_pos h

theorem skipSpaces_starts (h : Starts s) : skipSpaces s = s := by
  cases s with
  | nil => rfl
  | cons c s =>
    rw [skipSpaces, List.dropWhile_cons, h c rfl]
    rfl

theorem starts_skipSpaces (s : Text) : Starts (skipSpaces s) := by
  intro c hc
  have h := List.head?_dropWhile_not isSpace s
  rw [skipSpaces] at hc
  rw [hc] at h
  simpa using h

theorem skipSpaces_idem (s : Text) : skipSpaces (skipSpaces s) = skipSpaces s :=
  skipSpaces_starts (starts_skipSpaces s)

/-- White space is all that can stand before the rest. -/
theorem exists_white (s : Text) : ∃ white, White white ∧ s = white ++ skipSpaces s :=
  ⟨s.takeWhile isSpace, fun _ h => List.mem_takeWhile_imp h, List.takeWhile_append_dropWhile.symm⟩

theorem starts_append (hw : Solid w) (hne : w ≠ []) (rest : Text) : Starts (w ++ rest) := by
  intro c hc
  exact hw c (mem_of_head_append hne hc)

/-- The word at the front is the one that is looked for. -/
theorem afterWord_self (hrest : ∀ c ∈ rest.head?, isSpace c = true) :
    afterWord word (word ++ rest) = if rest = [] then none else some (skipSpaces rest) := by
  rw [afterWord, List.drop_left]
  have hp : word.isPrefixOf (word ++ rest) = true :=
    List.isPrefixOf_iff_prefix.2 (List.prefix_append _ _)
  cases rest with
  | nil => rw [if_neg (by simp), if_pos rfl]
  | cons c rest =>
    have hc : isSpace c = true := hrest c rfl
    rw [if_pos ⟨hp, by simpa using hc⟩, if_neg (List.cons_ne_nil _ _)]

/-- Another word is at the front. -/
theorem afterWord_other (hword : Solid word) (hw : Solid w) (hne : w ≠ word)
    (hrest : ∀ c ∈ rest.head?, isSpace c = true) : afterWord word (w ++ rest) = none := by
  rw [afterWord, if_neg]
  rintro ⟨hp, hspace⟩
  obtain ⟨t, ht⟩ := List.isPrefixOf_iff_prefix.1 hp
  rw [← ht, List.drop_left] at hspace
  rcases List.append_eq_append_iff.1 ht with ⟨u, hu, rfl⟩ | ⟨v, hv, hr⟩
  · -- The word goes on behind the one that is looked for.
    cases u with
    | nil => exact hne (by rw [hu, List.append_nil])
    | cons c u =>
      have hc := hw c (by rw [hu]; simp)
      simp [hc] at hspace
  · -- The word ends before the one that is looked for.
    cases v with
    | nil => exact hne (by rw [hv, List.append_nil])
    | cons c v =>
      have hc := hword c (by rw [hv]; simp)
      rw [hrest c (by rw [hr]; rfl)] at hc
      cases hc

/-- No word starts with white space. -/
theorem afterWord_space (hword : Solid word) (hne : word ≠ []) (hc : isSpace c = true) (s : Text) :
    afterWord word (c :: s) = none := by
  rw [afterWord, if_neg]
  rintro ⟨hp, -⟩
  cases word with
  | nil => exact hne rfl
  | cons d word =>
    obtain ⟨rfl, -⟩ := List.cons_prefix_cons.1 (List.isPrefixOf_iff_prefix.1 hp)
    rw [hword d List.mem_cons_self] at hc
    cases hc

/-! ## The lexer over words -/

theorem LexState.push_push (state : LexState) (i j : Nat) (a b : Text) :
    (state.push i a).push j b = state.push i (a ++ b) := by
  simp only [LexState.push, Option.getD_some, List.append_assoc]

theorem lexCommit_char {state : LexState} (hquote : state.quote = none) (hc : LiteralChar c)
    (i : Nat) (s : Text) : lexCommit state i (c :: s) = lexCommit (state.push i [c]) (i + 1) s := by
  rw [lexCommit.eq_def]
  simp only [hquote, hc.unquoted, hc.unescaped, hc.solid, hc.inside, Bool.or_false, Bool.false_eq_true,
    if_false]

theorem lexCommit_chars {state : LexState} (hquote : state.quote = none) {w : Text}
    (hw : ∀ c ∈ w, LiteralChar c) (i j : Nat) (a rest : Text) :
    lexCommit (state.push i a) j (w ++ rest) =
      lexCommit (state.push i (a ++ w)) (j + w.length) rest := by
  induction w generalizing j a with
  | nil => rw [List.append_nil, List.nil_append, List.length_nil, Nat.add_zero]
  | cons c w ih =>
    have hpush : (state.push i a).quote = none := hquote
    rw [List.cons_append, lexCommit_char hpush (hw c List.mem_cons_self), LexState.push_push,
      ih fun d hd => hw d (List.mem_cons_of_mem _ hd)]
    rw [List.append_assoc, List.singleton_append, List.length_cons]
    congr 1
    omega

theorem lexCommit_plain {state : LexState} (hquote : state.quote = none) {w : Text}
    (hw : ∀ c ∈ w, LiteralChar c) (hne : w ≠ []) (i : Nat) (rest : Text) :
    lexCommit state i (w ++ rest) = lexCommit (state.push i w) (i + w.length) rest := by
  cases w with
  | nil => exact absurd rfl hne
  | cons c w =>
    rw [List.cons_append, lexCommit_char hquote (hw c List.mem_cons_self),
      lexCommit_chars hquote fun d hd => hw d (List.mem_cons_of_mem _ hd)]
    rw [List.singleton_append, List.length_cons]
    congr 1
    omega

theorem lexCommit_body {state : LexState} (hquote : state.quote = some mark) {body : Text}
    (hbody : ∀ c ∈ body, c ≠ mark ∧ c ≠ '\\') (i : Nat) (rest : Text) :
    lexCommit state i (body ++ mark :: rest) =
      lexCommit { state with token := state.token ++ body, quote := none } (i + body.length + 1) rest := by
  induction body generalizing state i with
  | nil =>
    rw [List.nil_append, lexCommit.eq_def]
    simp only [hquote, if_true, List.append_nil, List.length_nil, Nat.add_zero]
  | cons c body ih =>
    obtain ⟨hmark, hescape⟩ := hbody c List.mem_cons_self
    rw [List.cons_append, lexCommit.eq_def]
    simp only [hquote, hmark, hescape, and_false, if_false]
    rw [ih rfl fun d hd => hbody d (List.mem_cons_of_mem _ hd)]
    simp only [List.append_assoc, List.singleton_append, List.length_cons]
    congr 1
    omega

theorem Quotation.inside (q : Quotation) (h : c ∈ q.body) : isQuote c = false ∧ c ≠ '\\' := by
  have hc := List.all_eq_true.1 q.closed c h
  rw [Bool.and_eq_true, Bool.not_eq_true', decide_eq_true_eq] at hc
  refine ⟨hc.1, ?_⟩
  rintro rfl
  exact hc.2 (by decide)

theorem Quotation.ne_mark (q : Quotation) (h : c ∈ q.body) : c ≠ q.mark := by
  rintro rfl
  exact Bool.false_ne_true ((q.inside h).1.symm.trans q.isMark)

/-- A word as written is one token of what the shell hands over. -/
theorem lexCommit_operand {state : LexState} (hquote : state.quote = none) (operand : Operand)
    (i : Nat) (rest : Text) : lexCommit state i (operand.text ++ rest) =
      lexCommit (state.push i operand.path) (i + operand.text.length) rest := by
  cases operand with
  | word w => exact lexCommit_plain hquote (fun _ h => w.literalChar h) w.nonempty i rest
  | quoted q =>
    rw [Operand.text, List.cons_append, List.append_assoc, List.singleton_append, lexCommit.eq_def]
    simp only [hquote, q.isMark, if_true]
    rw [lexCommit_body rfl fun c hc => ⟨q.ne_mark hc, (q.inside hc).2⟩]
    simp only [LexState.push, List.append_nil, Operand.path, List.length_cons, List.length_append,
      List.length_nil, hquote]
    congr 1
    omega

theorem lexCommit_delimiter {state : LexState} (hquote : state.quote = none)
    (hc : isSpace c = true ∨ isSeparator c = true) (i : Nat) (s : Text) :
    lexCommit state i (c :: s) =
      state.endToken.elim some fun next => lexCommit (next.separate i c) (i + 1) s := by
  have hplain : isQuote c = false ∧ c ≠ '\\' := by
    rcases hc with hc | hc
    · simp only [isSpace, Bool.or_eq_true, decide_eq_true_eq] at hc
      rcases hc with ((((rfl | rfl) | rfl) | rfl) | rfl) | rfl <;> decide
    · simp only [isSeparator, Bool.or_eq_true, decide_eq_true_eq] at hc
      rcases hc with (rfl | rfl) | rfl <;> decide
  rw [lexCommit.eq_def]
  simp only [hquote, hplain.1, hplain.2, Bool.or_eq_true, hc, Bool.false_eq_true, if_false, if_true]
  cases state.endToken <;> rfl

theorem LexState.endToken_idle {state : LexState} (hidle : state.tokenStart = none) :
    state.endToken = .inr state := by
  rw [LexState.endToken, hidle]

theorem LexState.idle_of_endToken {state next : LexState} (h : state.endToken = .inr next) :
    next.tokenStart = none ∧ next.quote = state.quote := by
  rw [LexState.endToken] at h
  cases hstart : state.tokenStart with
  | none =>
    rw [hstart] at h
    cases h
    exact ⟨hstart, rfl⟩
  | some start =>
    rw [hstart] at h
    dsimp only at h
    split_ifs at h <;> cases h <;> exact ⟨rfl, rfl⟩

theorem isSeparator_of_isSpace (h : isSpace c = true) : isSeparator c = false := by
  simp only [isSpace, Bool.or_eq_true, decide_eq_true_eq] at h
  rcases h with ((((rfl | rfl) | rfl) | rfl) | rfl) | rfl <;> decide

theorem lexCommit_white {state : LexState} (hquote : state.quote = none)
    (hidle : state.tokenStart = none) (hs : White s) (i : Nat) (rest : Text) :
    lexCommit state i (s ++ rest) = lexCommit state (i + s.length) rest := by
  induction s generalizing i with
  | nil => rfl
  | cons c s ih =>
    have hc := hs c List.mem_cons_self
    rw [List.cons_append, lexCommit_delimiter hquote (.inl hc), LexState.endToken_idle hidle]
    rw [Sum.elim_inr, LexState.separate, isSeparator_of_isSpace hc, if_neg Bool.false_ne_true,
      ih fun d hd => hs d (List.mem_cons_of_mem _ hd), List.length_cons]
    congr 1
    omega

/-- A token is over where the word stops. -/
theorem lexCommit_stops {state : LexState} (hquote : state.quote = none) (hrest : Stops rest) (i : Nat) :
    lexCommit state i rest = state.endToken.elim some fun next => lexCommit next i rest := by
  cases hend : state.endToken with
  | inl found =>
    cases rest with
    | nil =>
      rw [lexCommit.eq_def]
      simp only [hquote, if_true, hend, Sum.getLeft?_inl, Sum.elim_inl]
    | cons c rest => rw [lexCommit_delimiter hquote (hrest c rfl), hend, Sum.elim_inl, Sum.elim_inl]
  | inr next =>
    obtain ⟨hidle, hkept⟩ := LexState.idle_of_endToken hend
    rw [hquote] at hkept
    cases rest with
    | nil =>
      rw [lexCommit.eq_def, Sum.elim_inr, lexCommit.eq_def next]
      simp only [hquote, hkept, if_true, hend, LexState.endToken_idle hidle, Sum.getLeft?_inr]
    | cons c rest =>
      rw [lexCommit_delimiter hquote (hrest c rfl), hend, Sum.elim_inr, Sum.elim_inr,
        lexCommit_delimiter hkept (hrest c rfl), LexState.endToken_idle hidle, Sum.elim_inr]

/-! ## The lexer over a command -/

/-- At the front of a segment. -/
def seeking (start : Nat) : LexState := { segmentStart := start }

/-- Behind `git`. -/
def insideGit (start : Nat) (value : Bool) : LexState :=
  { segmentStart := start, segmentFirst := false, segmentIsGit := true, gitOptionValue := value }

/-- Behind another program. -/
def elsewhere (start : Nat) : LexState := { segmentStart := start, segmentFirst := false }

theorem lexCommit_word {state : LexState} (hquote : state.quote = none) {w : Text}
    (hw : ∀ c ∈ w, LiteralChar c) (hne : w ≠ []) (hrest : Stops rest) (i : Nat) :
    lexCommit state i (w ++ rest) = (state.push i w).endToken.elim some fun next =>
      lexCommit next (i + w.length) rest := by
  have hpush : (state.push i w).quote = none := hquote
  rw [lexCommit_plain hquote hw hne, lexCommit_stops hpush hrest]

theorem lexCommit_field {state : LexState} (hquote : state.quote = none)
    (hidle : state.tokenStart = none) (field : Field) (hrest : Stops rest) (i : Nat) :
    lexCommit state i (field.text ++ rest) =
      (state.push (i + field.gap.text.length) field.operand.path).endToken.elim some fun next =>
        lexCommit next (i + field.text.length) rest := by
  have hpush : (state.push (i + field.gap.text.length) field.operand.path).quote = none := hquote
  rw [Field.text, List.append_assoc, lexCommit_white hquote hidle field.gap.isWhite,
    lexCommit_operand hquote, lexCommit_stops hpush hrest, List.length_append, Nat.add_assoc]

theorem literalChar_of_isNameChar (h : isNameChar c = true) : LiteralChar c := by
  have hne {d : Char} (hd : isNameChar d = false) : c ≠ d := by
    rintro rfl
    rw [h] at hd
    cases hd
  refine ⟨?_, ?_, ?_, hne (by decide)⟩
  · simp only [isSpace, Bool.or_eq_false_iff, decide_eq_false_iff_not]
    exact ⟨⟨⟨⟨⟨hne (by decide), hne (by decide)⟩, hne (by decide)⟩, hne (by decide)⟩,
      hne (by decide)⟩, hne (by decide)⟩
  · simp only [isSeparator, Bool.or_eq_false_iff, decide_eq_false_iff_not]
    exact ⟨⟨hne (by decide), hne (by decide)⟩, hne (by decide)⟩
  · simp only [isQuote, Bool.or_eq_false_iff, decide_eq_false_iff_not]
    exact ⟨hne (by decide), hne (by decide)⟩

theorem literalChar_sh {s : String} (h : (sh s).all isLiteralChar = true) :
    ∀ c ∈ sh s, LiteralChar c := fun _ hc => literalChar_of_all h hc

theorem Wrapper.literalChar (wrapper : Wrapper) : ∀ c ∈ wrapper.text, LiteralChar c := by
  cases wrapper with
  | command => exact literalChar_sh (by decide)
  | builtin => exact literalChar_sh (by decide)
  | env => exact literalChar_sh (by decide)
  | assign a =>
    intro c hc
    rcases List.mem_append.1 hc with hname | hvalue
    · exact literalChar_of_isNameChar (List.all_eq_true.1 a.named c hname)
    · rcases List.mem_cons.1 hvalue with rfl | hvalue
      · exact AiHooks.literalChar (by decide)
      · exact literalChar_of_all a.literal hvalue

theorem Wrapper.nonempty (wrapper : Wrapper) : wrapper.text ≠ [] := by
  cases wrapper with
  | assign a => exact fun h => List.cons_ne_nil _ _ (List.append_eq_nil_iff.1 h).2
  | _ => exact List.cons_ne_nil _ _

theorem endToken_wrapper (start i : Nat) (wrapper : Wrapper) :
    ((seeking start).push i wrapper.text).endToken = .inr (seeking start) := by
  cases wrapper with
  | assign a =>
    have hassign : (Wrapper.assign a).text.head?.any isNameStart ∧ '=' ∈ (Wrapper.assign a).text := by
      refine ⟨?_, by simp [Wrapper.text]⟩
      have h := a.isName
      cases hname : a.name with
      | nil =>
        rw [hname] at h
        cases h
      | cons c name =>
        rw [hname] at h
        rw [Wrapper.text, hname]
        exact h
    rw [LexState.endToken, LexState.push]
    simp only [seeking, List.nil_append, hassign, and_self, or_true, if_true]
  | _ => rfl

theorem endToken_git (start i : Nat) :
    ((seeking start).push i (sh "git")).endToken = .inr (insideGit start false) := rfl

theorem endToken_cd (start i : Nat) :
    ((seeking start).push i (sh "cd")).endToken = .inr (elsewhere start) := rfl

theorem endToken_elsewhere (start i : Nat) (path : Text) :
    ((elsewhere start).push i path).endToken = .inr (elsewhere start) := rfl

theorem endToken_insideGit (start i : Nat) (value : Bool) (path : Text) :
    ((insideGit start value).push i path).endToken =
      if value then .inr (insideGit start false)
      else if path = sh "commit" then .inl (i, start)
      else .inr (insideGit start (path = sh "-C" || path = sh "-c")) := by
  cases value with
  | true => rfl
  | false =>
    by_cases hverb : path = sh "commit"
    · subst hverb
      rfl
    · by_cases hoption : path = sh "-C" ∨ path = sh "-c"
      · rcases hoption with rfl | rfl <;> rfl
      · obtain ⟨hdir, hconfig⟩ := not_or.1 hoption
        simp only [LexState.endToken, LexState.push, insideGit, List.nil_append, Option.getD_none, hverb,
          hdir, hconfig, or_self, if_false, if_true, Bool.false_eq_true, decide_false, Bool.or_self]

theorem lexCommit_wrappers (start i : Nat) (wrappers : List (Wrapper × Gap)) (rest : Text) :
    lexCommit (seeking start) i (wrappersText wrappers ++ rest) =
      lexCommit (seeking start) (i + (wrappersText wrappers).length) rest := by
  induction wrappers generalizing i with
  | nil => rfl
  | cons wrapper wrappers ih =>
    have hstops : Stops (wrapper.2.text ++ (wrappersText wrappers ++ rest)) := fun c hc =>
      .inl (wrapper.2.spaced _ hc)
    rw [wrappersText, List.flatMap_cons, ← wrappersText, List.append_assoc, List.append_assoc,
      lexCommit_word rfl wrapper.1.literalChar wrapper.1.nonempty hstops, endToken_wrapper, Sum.elim_inr,
      lexCommit_white rfl rfl wrapper.2.isWhite, ih]
    simp only [List.length_append, Nat.add_assoc]

theorem lexCommit_fields (start i : Nat) (value : Bool) (fields : List Field) (htrail : White trail) :
    lexCommit (insideGit start value) i (fieldsText fields ++ trail) =
      (beforeCommit value fields).map fun found =>
        (i + (fieldsText found.1 ++ found.2.text).length, start) := by
  induction fields generalizing i value with
  | nil =>
    rw [fieldsText, List.flatMap_nil, List.nil_append, ← List.append_nil trail,
      lexCommit_white rfl rfl htrail]
    rfl
  | cons field fields ih =>
    have hstops : Stops (fieldsText fields ++ trail) := fun c hc => .inl (spaced_fields fields htrail c hc)
    have hshift (found : Option (List Field × Gap)) :
        (found.map fun found => (i + field.text.length + (fieldsText found.1 ++ found.2.text).length, start)) =
          (found.map fun found => (field :: found.1, found.2)).map fun found =>
            (i + (fieldsText found.1 ++ found.2.text).length, start) := by
      rw [Option.map_map]
      congr 1
      funext found
      simp only [Function.comp_apply, fieldsText, List.flatMap_cons, List.length_append, Nat.add_assoc]
    rw [fieldsText, List.flatMap_cons, ← fieldsText, List.append_assoc,
      lexCommit_field rfl rfl field hstops, endToken_insideGit, beforeCommit]
    cases value with
    | true => rw [if_pos rfl, if_pos rfl, Sum.elim_inr, ih, hshift]
    | false =>
      rw [if_neg Bool.false_ne_true, if_neg Bool.false_ne_true]
      by_cases hverb : field.operand.path = sh "commit"
      · rw [if_pos hverb, if_pos hverb]
        rfl
      · rw [if_neg hverb, if_neg hverb, Sum.elim_inr, ih, hshift]

theorem lexCommit_segment (start i : Nat) (hlead : White lead) (wrappers : List (Wrapper × Gap))
    (fields : List Field) (htrail : White trail) :
    lexCommit (seeking start) i (segmentText lead wrappers fields trail) =
      (beforeCommit false fields).map fun found =>
        (i + (segmentText lead wrappers found.1 found.2.text).length, start) := by
  have hstops : Stops (fieldsText fields ++ trail) := fun c hc => .inl (spaced_fields fields htrail c hc)
  rw [segmentText, lexCommit_white rfl rfl hlead, lexCommit_wrappers,
    lexCommit_word rfl (literalChar_sh (by decide)) (by decide) hstops, endToken_git, Sum.elim_inr,
    lexCommit_fields _ _ _ _ htrail]
  congr 1
  funext found
  simp only [segmentText, List.length_append, Nat.add_assoc]

theorem lexCommit_separator (change : ChangeDir) (start i : Nat) (rest : Text) :
    lexCommit (elsewhere start) i (change.separator ++ rest) =
      lexCommit (seeking (i + change.separator.length)) (i + change.separator.length) rest := by
  have hand : lexCommit (elsewhere start) i (sh "&&" ++ rest) = lexCommit (seeking (i + 2)) (i + 2) rest := by
    change lexCommit (elsewhere start) i ('&' :: '&' :: rest) = _
    rw [lexCommit_delimiter rfl (.inr (by decide)), LexState.endToken_idle rfl, Sum.elim_inr,
      lexCommit_delimiter rfl (.inr (by decide)), LexState.endToken_idle rfl, Sum.elim_inr]
    rfl
  have hthen : lexCommit (elsewhere start) i (sh ";" ++ rest) = lexCommit (seeking (i + 1)) (i + 1) rest := by
    change lexCommit (elsewhere start) i (';' :: rest) = _
    rw [lexCommit_delimiter rfl (.inr (by decide)), LexState.endToken_idle rfl, Sum.elim_inr]
    rfl
  rw [ChangeDir.separator]
  split
  · exact hand
  · exact hthen

theorem ChangeDir.stops (change : ChangeDir) (rest : Text) :
    Stops (change.blanks ++ (change.separator ++ rest)) := by
  intro c hc
  cases hblanks : change.blanks with
  | nil =>
    rw [hblanks, List.nil_append, ChangeDir.separator] at hc
    right
    split at hc <;> cases hc <;> decide
  | cons d blanks =>
    rw [hblanks] at hc
    cases hc
    have hd := white_of_blank change.blank
    rw [hblanks] at hd
    exact .inl (hd c List.mem_cons_self)

theorem ChangeDir.text_append (change : ChangeDir) (rest : Text) : change.text ++ rest =
    change.lead.text ++ (sh "cd" ++ (change.target.text ++
      (change.blanks ++ (change.separator ++ rest)))) := by
  rw [ChangeDir.text]
  simp only [List.append_assoc]

theorem lexCommit_cd (change : ChangeDir) (start : Nat) (rest : Text) :
    lexCommit (seeking start) start (change.text ++ rest) =
      lexCommit (seeking (start + change.text.length)) (start + change.text.length) rest := by
  have hstops : Stops (change.target.text ++ (change.blanks ++ (change.separator ++ rest))) := by
    intro c hc
    rw [Field.text, List.append_assoc] at hc
    exact .inl (change.target.gap.spaced _ hc)
  have hlength : change.text.length = change.lead.text.length + (sh "cd").length +
      change.target.text.length + change.blanks.length + change.separator.length := by
    rw [ChangeDir.text]
    simp only [List.length_append]
  rw [ChangeDir.text_append, lexCommit_white rfl rfl change.lead.isWhite,
    lexCommit_word rfl (literalChar_sh (by decide)) (by decide) hstops, endToken_cd, Sum.elim_inr,
    lexCommit_field rfl rfl change.target (change.stops rest), endToken_elsewhere, Sum.elim_inr,
    lexCommit_white rfl rfl (white_of_blank change.blank), lexCommit_separator, hlength]
  simp only [Nat.add_assoc]

theorem lexCommit_cds (cds : List ChangeDir) (start : Nat) (rest : Text) :
    lexCommit (seeking start) start (cdsText cds ++ rest) =
      lexCommit (seeking (start + (cdsText cds).length)) (start + (cdsText cds).length) rest := by
  induction cds generalizing start with
  | nil => rfl
  | cons change cds ih =>
    rw [cdsText, List.flatMap_cons, ← cdsText, List.append_assoc, lexCommit_cd, ih, List.length_append,
      Nat.add_assoc]

/-- The words before the verb, and the verb itself with what follows. -/
theorem beforeCommit_append {found : List Field × Gap} (h : beforeCommit value fields = some found) :
    ∃ verb after, fields = found.1 ++ ⟨found.2, verb⟩ :: after := by
  have hcons {field : Field} {fields : List Field} {found : List Field × Gap}
      {next : Option (List Field × Gap)}
      (ih : ∀ {found}, next = some found → ∃ verb after, fields = found.1 ++ ⟨found.2, verb⟩ :: after)
      (h : next.map (fun found => (field :: found.1, found.2)) = some found) :
      ∃ verb after, field :: fields = found.1 ++ ⟨found.2, verb⟩ :: after := by
    obtain ⟨inner, hinner, rfl⟩ := Option.map_eq_some_iff.1 h
    obtain ⟨verb, after, rfl⟩ := ih hinner
    exact ⟨verb, after, rfl⟩
  fun_induction beforeCommit value fields generalizing found with
  | case1 => cases h
  | case2 field fields ih => exact hcons ih h
  | case3 value field fields hvalue hverb =>
    cases h
    exact ⟨field.operand, fields, rfl⟩
  | case4 value field fields hvalue hverb ih => exact hcons ih h

/-- No verb stands before the first one. -/
theorem beforeCommit_before {found : List Field × Gap} (h : beforeCommit value fields = some found) :
    beforeCommit value found.1 = none := by
  fun_induction beforeCommit value fields generalizing found with
  | case1 => cases h
  | case2 field fields ih =>
    obtain ⟨inner, hinner, rfl⟩ := Option.map_eq_some_iff.1 h
    rw [beforeCommit, if_pos rfl, ih hinner, Option.map_none]
  | case3 value field fields hvalue hverb =>
    cases h
    rfl
  | case4 value field fields hvalue hverb ih =>
    obtain ⟨inner, hinner, rfl⟩ := Option.map_eq_some_iff.1 h
    rw [beforeCommit, if_neg hvalue, if_neg hverb, ih hinner, Option.map_none]

theorem aiGitCommitPrefixes_segment (hlead : White lead) (wrappers : List (Wrapper × Gap))
    (htrail : White trail) (hfields : beforeCommit false fields = none) :
    aiGitCommitPrefixes (segmentText lead wrappers fields trail) = none := by
  rw [aiGitCommitPrefixes]
  change Option.map _ (lexCommit (seeking 0) 0 _) = none
  rw [lexCommit_segment 0 0 hlead wrappers fields htrail, hfields]
  rfl

theorem GitCommand.region_none (command : GitCommand) : beforeCommit false command.region.1 = none := by
  rw [GitCommand.region]
  cases h : beforeCommit false command.fields with
  | none => exact h
  | some found => exact beforeCommit_before h

theorem GitCommand.region_white (command : GitCommand) : White command.region.2 := by
  rw [GitCommand.region]
  cases beforeCommit false command.fields with
  | none => exact command.trail.isWhite
  | some found => exact found.2.isWhite

/-- What the lexer gives for the command: the text before the verb, from the start and from the
start of its segment. -/
theorem aiGitCommitPrefixes_text (command : GitCommand) : aiGitCommitPrefixes command.text =
    (beforeCommit false command.fields).map fun _ =>
      ⟨cdsText command.cds ++ command.segment, command.segment⟩ := by
  rw [aiGitCommitPrefixes, GitCommand.text]
  change Option.map _ (lexCommit (seeking 0) 0 _) = _
  rw [lexCommit_cds, lexCommit_segment _ _ command.lead.isWhite _ _ command.trail.isWhite, Option.map_map]
  cases h : beforeCommit false command.fields with
  | none => rfl
  | some found =>
    obtain ⟨verb, after, hfields⟩ := beforeCommit_append h
    have hsegment : command.segment =
        segmentText command.lead.text command.wrappers found.1 found.2.text := by
      rw [GitCommand.segment, GitCommand.region, h]
    have htext : segmentText command.lead.text command.wrappers command.fields command.trail.text =
        command.segment ++ (verb.text ++ (fieldsText after ++ command.trail.text)) := by
      rw [hsegment, hfields]
      simp only [segmentText, fieldsText, Field.text, List.flatMap_append, List.flatMap_cons,
        List.append_assoc]
    rw [Option.map_some, Option.map_some, Function.comp_apply, htext, ← hsegment, Nat.zero_add,
      ← List.append_assoc, ← List.length_append]
    dsimp only
    rw [List.take_left, List.drop_left]

/-! ## Tokens of the patterns -/

/-- A token goes on until the word stops. -/
theorem takeWhile_stops (hrest : Stops rest) :
    (rest.takeWhile fun c => !isSpace c && !isSeparator c) = [] := by
  cases rest with
  | nil => rfl
  | cons c rest =>
    rw [List.takeWhile_cons]
    rcases hrest c rfl with h | h
    · rw [h]
      rfl
    · rw [h, Bool.not_true, Bool.and_false]
      rfl

theorem plainToken_chars {w : Text} (hw : ∀ c ∈ w, LiteralChar c) (hrest : Stops rest) :
    plainToken (w ++ rest) = if w = [] then none else some w := by
  have hplain : ∀ c ∈ w, (!isSpace c && !isSeparator c) = true := by
    intro c hc
    rw [(hw c hc).solid, (hw c hc).inside]
    rfl
  rw [plainToken, List.takeWhile_append_of_pos hplain, takeWhile_stops hrest, List.append_nil]

theorem quotedToken_quotation (q : Quotation) (rest : Text) :
    quotedToken ((Operand.quoted q).text ++ rest) = some (Operand.quoted q).text := by
  have hbody : ∀ c ∈ q.body, (decide (c ≠ q.mark)) = true := fun c hc => decide_eq_true (q.ne_mark hc)
  rw [Operand.text, List.cons_append, List.append_assoc, List.singleton_append, quotedToken,
    if_pos ⟨q.isMark, by simp⟩, List.takeWhile_append_of_pos hbody, List.takeWhile_cons]
  simp only [ne_eq, not_true_eq_false, decide_false, Bool.false_eq_true, if_false, List.append_nil]

theorem quotedToken_word (word : Word) (rest : Text) : quotedToken (word.text ++ rest) = none := by
  cases htext : word.text with
  | nil => exact absurd htext word.nonempty
  | cons c w =>
    have hc := (word.literalChar (by rw [htext]; exact List.mem_cons_self)).unquoted
    rw [List.cons_append, quotedToken, if_neg fun h => by rw [hc] at h; exact Bool.false_ne_true h.1]

theorem pathToken_operand (operand : Operand) (hrest : Stops rest) :
    pathToken (operand.text ++ rest) = some operand.text := by
  cases operand with
  | word w =>
    rw [pathToken, Operand.text, quotedToken_word, plainToken_chars (fun _ h => w.literalChar h) hrest,
      if_neg w.nonempty]
  | quoted q =>
    rw [pathToken, quotedToken_quotation]
    cases hplain : plainToken ((Operand.quoted q).text ++ rest) with
    | none => rfl
    | some plain =>
      have hle : plain.length ≤ (Operand.quoted q).text.length := by
        rw [plainToken] at hplain
        split_ifs at hplain
        obtain rfl := Option.some.inj hplain
        rw [List.takeWhile_append, takeWhile_stops hrest]
        split
        · rw [List.append_nil]
        · exact (List.takeWhile_prefix _).length_le
      dsimp only
      rw [if_pos hle]

theorem aiUnquoteToken_operand (operand : Operand) : aiUnquoteToken operand.text = operand.path := by
  cases operand with
  | word w =>
    cases htext : w.text with
    | nil => exact absurd htext w.nonempty
    | cons c s =>
      have hc := (w.literalChar (by rw [htext]; exact List.mem_cons_self)).unquoted
      rw [Operand.text, Operand.path, htext, aiUnquoteToken,
        if_neg fun h => by rw [hc] at h; exact Bool.false_ne_true h.1]
  | quoted q =>
    rw [Operand.text, Operand.path, aiUnquoteToken, if_pos ⟨q.isMark, List.getLast?_concat⟩,
      List.dropLast_concat]

theorem Operand.starts (operand : Operand) (rest : Text) : Starts (operand.text ++ rest) := by
  cases operand with
  | word w => exact starts_append w.solid w.nonempty rest
  | quoted q =>
    intro c hc
    cases hc
    have h := q.isMark
    rw [isQuote, Bool.or_eq_true, decide_eq_true_eq, decide_eq_true_eq] at h
    rcases h with h | h <;> rw [h] <;> decide

theorem skipSpaces_field (field : Field) (rest : Text) :
    skipSpaces (field.text ++ rest) = field.operand.text ++ rest := by
  rw [Field.text, List.append_assoc, skipSpaces_white field.gap.isWhite,
    skipSpaces_starts (field.operand.starts rest)]

/-! ## The chain of cds -/

theorem afterChain_separator (change : ChangeDir) (rest : Text) :
    afterChain (change.blanks ++ (change.separator ++ rest)) = some (skipSpaces rest) := by
  rw [afterChain, skipSpaces_white (white_of_blank change.blank), ChangeDir.separator]
  cases change.conjunction <;> rfl

theorem matchCd_cd (change : ChangeDir) (rest : Text) : matchCd (change.text ++ rest) =
    some (change.target.operand.text, skipSpaces rest) := by
  have hcd : skipSpaces (change.text ++ rest) = sh "cd" ++ (change.target.text ++
      (change.blanks ++ (change.separator ++ rest))) := by
    rw [ChangeDir.text_append, skipSpaces_white change.lead.isWhite]
    rfl
  have hgap : ∀ c ∈ (change.target.text ++ (change.blanks ++ (change.separator ++ rest))).head?,
      isSpace c = true := by
    intro c hc
    rw [Field.text, List.append_assoc] at hc
    exact change.target.gap.spaced _ hc
  have hne : change.target.text ++ (change.blanks ++ (change.separator ++ rest)) ≠ [] := by
    intro h
    rw [Field.text, List.append_assoc] at h
    exact change.target.gap.nonempty (List.append_eq_nil_iff.1 h).1
  have hstops := change.stops rest
  rw [matchCd, hcd, afterWord_self hgap, if_neg hne, skipSpaces_field]
  dsimp only
  cases htarget : change.target.operand with
  | word w =>
    rw [Operand.text, quotedToken_word, plainToken_chars (fun _ h => w.literalChar h) hstops,
      if_neg w.nonempty, Option.bind_none, Option.none_or, Option.bind_some, List.drop_left,
      afterChain_separator]
    rfl
  | quoted q =>
    rw [quotedToken_quotation, Option.bind_some, List.drop_left, afterChain_separator]
    rfl

theorem matchCd_congr (h : skipSpaces s = skipSpaces t) : matchCd s = matchCd t := by
  rw [matchCd, matchCd, h]

theorem cdChain_none (h : matchCd s = none) (rounds : Nat) (resolved : Text) :
    cdChain rounds resolved s = (resolved, s) := by
  cases rounds with
  | zero => rfl
  | succ rounds => rw [cdChain, h]

/-- The cds at the front are composed in order, and only white space is lost before the rest. -/
theorem cdChain_cds {cds : List ChangeDir} (rounds : Nat) (resolved : Text) (hbody : Starts body) (hstop : matchCd body = none)
    (hlead : White lead) (hrounds : cds.length ≤ rounds)
    (h : skipSpaces s = skipSpaces (cdsText cds ++ (lead ++ body))) :
    ∃ white, White white ∧ cdChain rounds resolved s =
      ((cds.map fun change => change.target.operand.path).foldl resolveCd resolved, white ++ body) := by
  induction cds generalizing rounds resolved s with
  | nil =>
    rw [cdsText, List.flatMap_nil, List.nil_append, skipSpaces_white hlead, skipSpaces_starts hbody] at h
    obtain ⟨white, hwhite, hs⟩ := exists_white s
    rw [h] at hs
    have hnone : matchCd s = none := by
      rw [← hstop]
      exact matchCd_congr (h.trans (skipSpaces_starts hbody).symm)
    exact ⟨white, hwhite, by rw [cdChain_none hnone, hs]; rfl⟩
  | cons change cds ih =>
    cases rounds with
    | zero => cases hrounds
    | succ rounds =>
      rw [cdsText, List.flatMap_cons, ← cdsText, List.append_assoc] at h
      obtain ⟨white, hwhite, hchain⟩ := ih rounds
        (resolveCd resolved change.target.operand.path) (Nat.le_of_succ_le_succ hrounds) (skipSpaces_idem _)
      refine ⟨white, hwhite, ?_⟩
      rw [cdChain, (matchCd_congr h).trans (matchCd_cd change _)]
      dsimp only
      rw [aiUnquoteToken_operand, hchain]
      rfl

/-! ## Wrappers -/

section
variable {wrappers : List (Wrapper × Gap)} {fields : List Field} {trail : Text}

theorem starts_body (wrappers : List (Wrapper × Gap)) (fields : List Field) (trail : Text) :
    Starts (segmentText [] wrappers fields trail) := by
  cases wrappers with
  | nil =>
    intro c hc
    cases hc
    decide
  | cons wrapper wrappers =>
    rw [segmentText, List.nil_append, wrappersText, List.flatMap_cons, List.append_assoc, List.append_assoc]
    exact starts_append (fun c hc => (wrapper.1.literalChar c hc).solid) wrapper.1.nonempty _

theorem skipSpaces_gap (gap : Gap) (wrappers : List (Wrapper × Gap)) (fields : List Field) (trail : Text) :
    skipSpaces (gap.text ++ segmentText [] wrappers fields trail) =
      segmentText [] wrappers fields trail := by
  rw [skipSpaces_white gap.isWhite, skipSpaces_starts (starts_body wrappers fields trail)]

theorem segmentText_cons (wrapper : Wrapper × Gap) (wrappers : List (Wrapper × Gap))
    (fields : List Field) (trail : Text) : segmentText [] (wrapper :: wrappers) fields trail =
      wrapper.1.text ++ (wrapper.2.text ++ segmentText [] wrappers fields trail) := by
  simp only [segmentText, wrappersText, List.flatMap_cons, List.nil_append, List.append_assoc]

theorem afterWord_wrapper (hword : Solid word) (wrapper : Wrapper × Gap) :
    afterWord word (segmentText [] (wrapper :: wrappers) fields trail) =
      if wrapper.1.text = word then some (segmentText [] wrappers fields trail) else none := by
  have hspaced : ∀ c ∈ (wrapper.2.text ++ segmentText [] wrappers fields trail).head?,
      isSpace c = true := fun c hc => wrapper.2.spaced _ hc
  rw [segmentText_cons]
  split
  · next h =>
    rw [← h, afterWord_self hspaced, if_neg fun hnil => wrapper.2.nonempty (List.append_eq_nil_iff.1 hnil).1,
      skipSpaces_gap]
  · next h => exact afterWord_other hword (fun c hc => (wrapper.1.literalChar c hc).solid) h hspaced

theorem afterWord_git (hword : Solid word) (hne : sh "git" ≠ word) (htrail : White trail) :
    afterWord word (segmentText [] [] fields trail) = none := by
  have hgit : ∀ c ∈ sh "git", LiteralChar c := literalChar_sh (by decide)
  change afterWord word (sh "git" ++ (fieldsText fields ++ trail)) = none
  exact afterWord_other hword (fun c hc => (hgit c hc).solid) hne (spaced_fields fields htrail)

theorem isGitSegment_git (htrail : White trail) (hne : fieldsText fields ++ trail ≠ []) :
    isGitSegment (segmentText [] [] fields trail) = true := by
  rw [isGitSegment, skipSpaces_starts (starts_body [] fields trail)]
  change (afterWord (sh "git") (sh "git" ++ (fieldsText fields ++ trail))).isSome = true
  rw [afterWord_self (spaced_fields fields htrail), if_neg hne]
  rfl

/-- A bare name is no assignment. -/
theorem afterAssignment_name {w : Text} (hw : ∀ c ∈ w, isNameChar c = true) (hne : w ≠ [])
    (hrest : ∀ c ∈ rest.head?, isSpace c = true) : afterAssignment (w ++ rest) = none := by
  cases w with
  | nil => exact absurd rfl hne
  | cons c w =>
    have hstarts : Starts (c :: (w ++ rest)) := by
      intro d hd
      cases hd
      exact (literalChar_of_isNameChar (hw c List.mem_cons_self)).solid
    rw [List.cons_append, afterAssignment, skipSpaces_starts hstarts]
    dsimp only
    rw [List.dropWhile_append_of_pos fun d hd => hw d (List.mem_cons_of_mem _ hd)]
    split_ifs
    · cases rest with
      | nil => rfl
      | cons d rest =>
        have hd := hrest d rfl
        have hname : isNameChar d = false := by
          rw [Bool.eq_false_iff]
          intro h
          rw [(literalChar_of_isNameChar h).solid] at hd
          cases hd
        rw [List.dropWhile_cons, hname, if_neg Bool.false_ne_true]
        split
        · next heq =>
          cases heq
          exact absurd hd (by decide)
        · rfl
    · rfl

theorem afterAssignment_assign (a : Assignment) (gap : Gap) :
    afterAssignment (segmentText [] ((.assign a, gap) :: wrappers) fields trail) =
      if a.value = [] then none else some (segmentText [] wrappers fields trail) := by
  have hstops : Stops (gap.text ++ segmentText [] wrappers fields trail) := fun c hc =>
    .inl (gap.spaced _ hc)
  have hvalue : ∀ c ∈ a.value, LiteralChar c := fun c hc => literalChar_of_all a.literal hc
  have hname := a.isName
  have hnamed := a.named
  rw [segmentText_cons, afterAssignment, skipSpaces_starts]
  · cases h : a.name with
    | nil =>
      rw [h] at hname
      cases hname
    | cons c name =>
      rw [h] at hname hnamed
      have hc : isNameStart c = true := hname
      have hrest : ∀ c ∈ name, isNameChar c = true := fun d hd =>
        List.all_eq_true.1 hnamed d (List.mem_cons_of_mem _ hd)
      rw [Wrapper.text, h, List.append_assoc, List.cons_append]
      dsimp only
      rw [if_pos hc, List.dropWhile_append_of_pos hrest, List.cons_append, List.dropWhile_cons,
        if_neg (by decide)]
      simp only [plainToken_chars hvalue hstops]
      by_cases hnil : a.value = []
      · rw [if_pos hnil, if_pos hnil]
      · have hbehind : (gap.text ++ segmentText [] wrappers fields trail).head?.any isSpace = true := by
          cases hgap : gap.text with
          | nil => exact absurd hgap gap.nonempty
          | cons d text => exact gap.isWhite d (by rw [hgap]; exact List.mem_cons_self)
        rw [if_neg hnil, if_neg hnil]
        dsimp only
        rw [List.drop_left, if_pos hbehind, skipSpaces_gap]
  · exact starts_append (fun c hc => ((Wrapper.assign a).literalChar c hc).solid) (Wrapper.nonempty _) _

theorem afterAssignment_other (wrapper : Wrapper × Gap) (h : wrapper.1.isAssignment = false) :
    afterAssignment (segmentText [] (wrapper :: wrappers) fields trail) = none := by
  have hname : ∀ c ∈ wrapper.1.text, isNameChar c = true := by
    intro c hc
    cases hw : wrapper.1 with
    | assign a =>
      rw [hw] at h
      cases h
    | _ =>
      rw [hw] at hc
      exact List.all_eq_true.1 (by decide) c hc
  rw [segmentText_cons]
  exact afterAssignment_name hname wrapper.1.nonempty fun c hc => wrapper.2.spaced _ hc

theorem afterAssignment_git (htrail : White trail) :
    afterAssignment (segmentText [] [] fields trail) = none := by
  change afterAssignment (sh "git" ++ (fieldsText fields ++ trail)) = none
  exact afterAssignment_name (List.all_eq_true.1 (by decide)) (by decide) (spaced_fields fields htrail)

/-- Assignments with a value are looked through. -/
def Wrapper.isValued (wrapper : Wrapper) : Bool := wrapper.isAssignment && !wrapper.isEmptyAssignment

theorem skipAssignments_body (htrail : White trail) (hrounds : wrappers.length ≤ rounds) :
    skipAssignments rounds (segmentText [] wrappers fields trail) =
      segmentText [] (wrappers.dropWhile fun wrapper => wrapper.1.isValued) fields trail := by
  induction wrappers generalizing rounds with
  | nil =>
    cases rounds with
    | zero => rfl
    | succ rounds => rw [skipAssignments, afterAssignment_git htrail]; rfl
  | cons wrapper wrappers ih =>
    cases rounds with
    | zero => cases hrounds
    | succ rounds =>
      obtain ⟨w, gap⟩ := wrapper
      rw [skipAssignments, List.dropWhile_cons]
      cases hassign : w.isAssignment with
      | false =>
        have hvalued : w.isValued = false := by rw [Wrapper.isValued, hassign, Bool.false_and]
        rw [afterAssignment_other _ hassign, if_neg (by rw [hvalued]; exact Bool.false_ne_true)]
      | true =>
        cases w with
        | assign a =>
          rw [afterAssignment_assign]
          by_cases hnil : a.value = []
          · simp [hnil, Wrapper.isValued, Wrapper.isAssignment, Wrapper.isEmptyAssignment]
          · simp only [hnil, Wrapper.isValued, Wrapper.isAssignment, Wrapper.isEmptyAssignment, if_false,
              decide_false, Bool.not_false, Bool.and_self, if_true]
            exact ih (Nat.le_of_succ_le_succ hrounds)
        | _ => cases hassign

/-- Where the resolver stops looking through wrappers. -/
def unwrapped (wrappers : List (Wrapper × Gap)) : List (Wrapper × Gap) :=
  wrappers.dropWhile fun wrapper => !wrapper.1.isEmptyAssignment

theorem unwrapped_dropWhile (wrappers : List (Wrapper × Gap)) :
    unwrapped (wrappers.dropWhile fun wrapper => wrapper.1.isValued) = unwrapped wrappers := by
  induction wrappers with
  | nil => rfl
  | cons wrapper wrappers ih =>
    rw [List.dropWhile_cons]
    split
    · next h =>
      rw [Wrapper.isValued, Bool.and_eq_true] at h
      rw [ih, unwrapped, unwrapped, List.dropWhile_cons, if_pos h.2]
    · rfl

theorem length_body (wrappers : List (Wrapper × Gap)) (fields : List Field) (trail : Text) :
    wrappers.length ≤ (segmentText [] wrappers fields trail).length := by
  induction wrappers with
  | nil => exact Nat.zero_le _
  | cons wrapper wrappers ih =>
    have h := List.length_pos_iff.2 wrapper.1.nonempty
    rw [segmentText_cons, List.length_append, List.length_append, List.length_cons]
    omega

theorem solid_sh {s : String} (h : (sh s).all (fun c => !isSpace c) = true) : Solid (sh s) := by
  intro c hc
  simpa using List.all_eq_true.1 h c hc

theorem Assignment.ne_sh (a : Assignment) {s : String} (h : '=' ∉ sh s) :
    (Wrapper.assign a).text ≠ sh s := by
  intro he
  refine h ?_
  rw [← he, Wrapper.text]
  exact List.mem_append_right _ List.mem_cons_self

theorem afterAssignment_skipSpaces (s : Text) : afterAssignment (skipSpaces s) = afterAssignment s := by
  rw [afterAssignment, skipSpaces_idem, ← afterAssignment]

theorem skipWrappers_git (htrail : White trail) (rounds : Nat)
    (h : skipSpaces s = segmentText [] [] fields trail) : skipWrappers rounds s = s := by
  cases rounds with
  | zero => rfl
  | succ rounds =>
    have hassign : afterAssignment s = none := by
      rw [← afterAssignment_skipSpaces, h]
      exact afterAssignment_git htrail
    rw [skipWrappers, h, afterWord_git (solid_sh (by decide)) (by decide) htrail,
      afterWord_git (solid_sh (by decide)) (by decide) htrail,
      afterWord_git (solid_sh (by decide)) (by decide) htrail, hassign]
    rfl

/-- One round looks through one wrapper, or through an env and the assignments behind it. -/
theorem skipWrappers_wrapper (htrail : White trail) (rounds : Nat) (wrapper : Wrapper × Gap)
    (h : skipSpaces s = segmentText [] (wrapper :: wrappers) fields trail) :
    skipWrappers (rounds + 1) s =
      if wrapper.1.isEmptyAssignment then s
      else skipWrappers rounds (segmentText []
        (if wrapper.1.text = sh "env" then wrappers.dropWhile fun wrapper => wrapper.1.isValued
          else wrappers) fields trail) := by
  have hafter {word : Text} (hword : Solid word) :
      afterWord word (segmentText [] (wrapper :: wrappers) fields trail) =
        if wrapper.1.text = word then some (segmentText [] wrappers fields trail) else none :=
    afterWord_wrapper hword wrapper
  have hassign : afterAssignment s = afterAssignment (segmentText [] (wrapper :: wrappers) fields trail) := by
    rw [← afterAssignment_skipSpaces, h]
  obtain ⟨w, gap⟩ := wrapper
  rw [skipWrappers, h, hafter (solid_sh (by decide)), hafter (solid_sh (by decide)),
    hafter (solid_sh (by decide)), hassign]
  cases w with
  | command => rfl
  | builtin => rfl
  | env =>
    change skipWrappers rounds (skipAssignments _ _) = skipWrappers rounds _
    rw [skipAssignments_body htrail (length_body _ _ _)]
    rfl
  | assign a =>
    rw [if_neg (a.ne_sh (by decide)), if_neg (a.ne_sh (by decide)), if_neg (a.ne_sh (by decide)),
      if_neg (a.ne_sh (by decide)), afterAssignment_assign]
    by_cases hnil : a.value = []
    · have hempty : (Wrapper.assign a).isEmptyAssignment = true := decide_eq_true hnil
      rw [if_pos hnil, if_pos hempty]
      rfl
    · have hvalued : ¬ (Wrapper.assign a).isEmptyAssignment = true := fun h => hnil (of_decide_eq_true h)
      rw [if_neg hnil, if_neg hvalued]
      rfl

theorem skipWrappers_body (htrail : White trail) (rounds : Nat) (hrounds : wrappers.length ≤ rounds)
    (h : skipSpaces s = segmentText [] wrappers fields trail) :
    ∃ white, White white ∧
      skipWrappers rounds s = white ++ segmentText [] (unwrapped wrappers) fields trail := by
  induction rounds generalizing wrappers s with
  | zero =>
    obtain rfl := List.length_eq_zero_iff.1 (Nat.le_zero.1 hrounds)
    obtain ⟨white, hwhite, hs⟩ := exists_white s
    rw [h] at hs
    exact ⟨white, hwhite, hs⟩
  | succ rounds ih =>
    obtain ⟨white, hwhite, hs⟩ := exists_white s
    rw [h] at hs
    cases wrappers with
    | nil => exact ⟨white, hwhite, (skipWrappers_git htrail _ h).trans hs⟩
    | cons wrapper wrappers =>
      rw [skipWrappers_wrapper htrail rounds wrapper h, unwrapped, List.dropWhile_cons]
      cases hempty : wrapper.1.isEmptyAssignment with
      | true => exact ⟨white, hwhite, hs⟩
      | false =>
        rw [if_neg Bool.false_ne_true, Bool.not_false, if_pos rfl]
        have hle := Nat.le_of_succ_le_succ hrounds
        split
        · rw [← unwrapped, ← unwrapped_dropWhile wrappers]
          exact ih ((List.dropWhile_suffix _).length_le.trans hle) (skipSpaces_starts (starts_body _ _ _))
        · exact ih hle (skipSpaces_starts (starts_body _ _ _))

end
/-! ## The option that names a directory -/

/-- Up to a first word `-C` no word is quoted. -/
def PlainToDir : List Field → Prop
  | [] => True
  | field :: fields =>
    (∃ word, field.operand = .word word) ∧ (field.operand.text ≠ sh "-C" → PlainToDir fields)

theorem PlainToDir.left {a b : List Field} (h : PlainToDir (a ++ b)) : PlainToDir a := by
  induction a with
  | nil => trivial
  | cons field a ih => exact ⟨h.1, fun hne => ih (h.2 hne)⟩

theorem plainToDir_words (words : List (Gap × Word)) :
    PlainToDir (words.map fun word => ⟨word.1, .word word.2⟩) := by
  induction words with
  | nil => trivial
  | cons word words ih => exact ⟨⟨word.2, rfl⟩, fun _ => ih⟩

theorem PlainToDir.options (h : PlainToDir rest) (options : List (Gap × GlobalOption)) :
    PlainToDir (options.flatMap (fun option => option.2.fields option.1) ++ rest) := by
  induction options with
  | nil => exact h
  | cons option options ih =>
    rw [List.flatMap_cons, List.append_assoc]
    obtain ⟨gap, option⟩ := option
    cases option with
    | dir target => exact ⟨⟨dashC, rfl⟩, fun hne => absurd rfl hne⟩
    | config inner setting => exact ⟨⟨dashConfig, rfl⟩, fun _ => ⟨⟨setting, rfl⟩, fun _ => ih⟩⟩
    | flag f =>
      refine ⟨⟨f.name, rfl⟩, fun _ => ?_⟩
      cases hvalue : f.value with
      | none => exact ih
      | some value => exact ⟨⟨value.2, rfl⟩, fun _ => ih⟩

theorem GitCommand.plainToDir (command : GitCommand) : PlainToDir command.region.1 := by
  have hfields : PlainToDir command.fields := (plainToDir_words _).options command.options
  rw [GitCommand.region]
  cases h : beforeCommit false command.fields with
  | none => exact hfields
  | some found =>
    obtain ⟨verb, after, heq⟩ := beforeCommit_append h
    rw [heq] at hfields
    exact hfields.left

theorem findDirOption_solid {w : Text} (hw : Solid w) (rest : Text) :
    findDirOption false (w ++ rest) = findDirOption false rest := by
  induction w with
  | nil => rfl
  | cons c w ih =>
    rw [List.cons_append, findDirOption, if_neg Bool.false_ne_true, hw c List.mem_cons_self,
      if_neg Bool.false_ne_true, Option.none_or, Option.none_or, ih fun d hd => hw d (List.mem_cons_of_mem _ hd)]

/-- Of several white spaces only the last one stands before a word. -/
theorem findDirOption_white {white : Text} (hwhite : White white) (hne : white ≠ []) (rest : Text) :
    findDirOption false (white ++ rest) =
      ((afterWord (sh "-C") rest).bind pathToken).or (findDirOption false rest) := by
  induction white with
  | nil => exact absurd rfl hne
  | cons c white ih =>
    rw [List.cons_append, findDirOption, if_neg Bool.false_ne_true, hwhite c List.mem_cons_self, if_pos rfl,
      Option.none_or]
    cases white with
    | nil => rfl
    | cons d white =>
      rw [ih (fun e he => hwhite e (List.mem_cons_of_mem _ he)) (List.cons_ne_nil _ _), List.cons_append,
        afterWord_space (solid_sh (by decide)) (by decide) (hwhite d (by simp)), Option.bind_none,
        Option.none_or]

theorem findDirOption_trail (h : White trail) : findDirOption false trail = none := by
  cases trail with
  | nil => rfl
  | cons c trail =>
    rw [← List.append_nil (c :: trail), findDirOption_white h (List.cons_ne_nil _ _)]
    rfl

theorem findDirOption_fields (htrail : White trail) (hplain : PlainToDir fields) :
    (findDirOption false (fieldsText fields ++ trail)).map aiUnquoteToken = firstDir fields := by
  induction fields with
  | nil =>
    rw [fieldsText, List.flatMap_nil, List.nil_append, findDirOption_trail htrail]
    rfl
  | cons field fields ih =>
    obtain ⟨⟨word, hword⟩, hrest⟩ := hplain
    have hspaced := spaced_fields fields htrail
    have htext : field.operand.text = word.text := by rw [hword]; rfl
    rw [fieldsText, List.flatMap_cons, ← fieldsText, Field.text, List.append_assoc, List.append_assoc,
      findDirOption_white field.gap.isWhite field.gap.nonempty, firstDir, htext,
      findDirOption_solid word.solid]
    by_cases hdir : word.text = sh "-C"
    · rw [if_pos hdir, hdir, afterWord_self hspaced]
      cases fields with
      | nil =>
        rw [fieldsText, List.flatMap_nil, List.nil_append, findDirOption_trail htrail, Option.or_none]
        split_ifs
        · rfl
        · rw [Option.bind_some, ← List.append_nil trail, skipSpaces_white htrail]
          rfl
      | cons value fields =>
        have hstops : Stops (fieldsText fields ++ trail) := fun c hc =>
          .inl (spaced_fields fields htrail c hc)
        have htext : fieldsText (value :: fields) ++ trail =
            value.text ++ (fieldsText fields ++ trail) := by
          rw [fieldsText, List.flatMap_cons, ← fieldsText, List.append_assoc]
        have hne : value.text ++ (fieldsText fields ++ trail) ≠ [] := fun h =>
          value.gap.nonempty (List.append_eq_nil_iff.1 (List.append_eq_nil_iff.1 h).1).1
        rw [htext, if_neg hne, skipSpaces_field, Option.bind_some, pathToken_operand _ hstops,
          Option.some_or, Option.map_some, aiUnquoteToken_operand]
        rfl
    · rw [if_neg hdir, afterWord_other (solid_sh (by decide)) word.solid hdir hspaced, Option.bind_none,
        Option.none_or]
      exact ih (hrest (by rw [htext]; exact hdir))

theorem findDirOption_start (s : Text) : findDirOption true s =
    ((afterWord (sh "-C") s).bind pathToken).or (findDirOption false s) := by
  cases s with
  | nil => rfl
  | cons c s =>
    rw [findDirOption, findDirOption, if_pos rfl, if_neg Bool.false_ne_true, Option.none_or, Option.or_assoc]

theorem findDirOption_body (hwhite : White white) (htrail : White trail) (hplain : PlainToDir fields) :
    (findDirOption true (white ++ segmentText [] [] fields trail)).map aiUnquoteToken =
      firstDir fields := by
  have hgit : findDirOption false (segmentText [] [] fields trail) =
      findDirOption false (fieldsText fields ++ trail) := findDirOption_solid (solid_sh (by decide)) _
  have hnone : afterWord (sh "-C") (segmentText [] [] fields trail) = none :=
    afterWord_git (solid_sh (by decide)) (by decide) htrail
  rw [findDirOption_start, ← findDirOption_fields htrail hplain, ← hgit]
  cases white with
  | nil => rw [List.nil_append, hnone, Option.bind_none, Option.none_or]
  | cons c white =>
    rw [findDirOption_white hwhite (List.cons_ne_nil _ _), hnone, List.cons_append,
      afterWord_space (solid_sh (by decide)) (by decide) (hwhite c List.mem_cons_self), Option.bind_none,
      Option.none_or, Option.none_or]

/-! ## What is returned -/

/-- The paths as one path. -/
def joinDirs (paths : List Text) : Text := paths.foldl resolveCd []

theorem resolveCd_eq_nil (resolved target : Text) :
    resolveCd resolved target = [] ↔ resolved = [] ∧ target = [] := by
  rw [resolveCd]
  split
  · next h =>
    constructor
    · rintro rfl
      exact ⟨h.resolve_left (by simp), rfl⟩
    · exact And.right
  · next h =>
    refine ⟨fun he => absurd (List.append_eq_nil_iff.1 he).2 (List.cons_ne_nil _ _), fun he => ?_⟩
    exact absurd (.inr he.1) h

theorem foldl_resolveCd_eq_nil (paths : List Text) (resolved : Text) :
    paths.foldl resolveCd resolved = [] ↔ resolved = [] ∧ paths.all (· = []) = true := by
  induction paths generalizing resolved with
  | nil => simp
  | cons path paths ih =>
    rw [List.foldl_cons, ih, resolveCd_eq_nil, List.all_cons, Bool.and_eq_true, decide_eq_true_eq, and_assoc]

theorem isWrapped_body (hwhite : White white) (htrail : White trail) (wrappers : List (Wrapper × Gap)) :
    isWrapped (white ++ segmentText [] wrappers fields trail) =
      !(wrappers.head?.all fun wrapper => wrapper.1.isAssignment) := by
  rw [isWrapped, skipSpaces_white hwhite, skipSpaces_starts (starts_body _ _ _)]
  cases wrappers with
  | nil =>
    rw [afterWord_git (solid_sh (by decide)) (by decide) htrail,
      afterWord_git (solid_sh (by decide)) (by decide) htrail,
      afterWord_git (solid_sh (by decide)) (by decide) htrail]
    rfl
  | cons wrapper wrappers =>
    obtain ⟨w, gap⟩ := wrapper
    rw [afterWord_wrapper (solid_sh (by decide)), afterWord_wrapper (solid_sh (by decide)),
      afterWord_wrapper (solid_sh (by decide))]
    cases w with
    | assign a =>
      rw [if_neg (a.ne_sh (by decide)), if_neg (a.ne_sh (by decide)), if_neg (a.ne_sh (by decide))]
      rfl
    | _ => rfl

/-- What is left behind the wrappers is the call itself, or an empty assignment stands before it. -/
theorem unwrapped_cases (wrappers : List (Wrapper × Gap)) :
    (unwrapped wrappers = [] ∧ (wrappers.any fun wrapper => wrapper.1.isEmptyAssignment) = false) ∨
      ((wrappers.any fun wrapper => wrapper.1.isEmptyAssignment) = true ∧
        ∃ a gap rest, unwrapped wrappers = (.assign a, gap) :: rest) := by
  induction wrappers with
  | nil => exact .inl ⟨rfl, rfl⟩
  | cons wrapper wrappers ih =>
    obtain ⟨w, gap⟩ := wrapper
    rw [unwrapped, List.dropWhile_cons, List.any_cons]
    cases hempty : w.isEmptyAssignment with
    | false =>
      rw [Bool.not_false, if_pos rfl, Bool.false_or]
      exact ih
    | true =>
      cases w with
      | assign a => exact .inr ⟨rfl, a, gap, wrappers, rfl⟩
      | _ => cases hempty

theorem isGitSegment_assign (hwhite : White white) (a : Assignment) (gap : Gap)
    (rest : List (Wrapper × Gap)) (fields : List Field) (trail : Text) :
    isGitSegment (white ++ segmentText [] ((.assign a, gap) :: rest) fields trail) = false := by
  rw [isGitSegment, skipSpaces_white hwhite, skipSpaces_starts (starts_body _ _ _),
    afterWord_wrapper (solid_sh (by decide)), if_neg (a.ne_sh (by decide))]
  rfl

theorem length_cds (cds : List ChangeDir) : cds.length ≤ (cdsText cds).length := by
  induction cds with
  | nil => exact Nat.zero_le _
  | cons change cds ih =>
    have hcd : 0 < change.text.length := by
      rw [ChangeDir.text]
      simp only [List.length_append]
      have : (sh "cd").length = 2 := rfl
      omega
    rw [cdsText, List.flatMap_cons, ← cdsText, List.length_append, List.length_cons]
    omega

theorem matchCd_body (htrail : White trail) (wrappers : List (Wrapper × Gap)) :
    matchCd (segmentText [] wrappers fields trail) = none := by
  have hnone : afterWord (sh "cd") (segmentText [] wrappers fields trail) = none := by
    cases wrappers with
    | nil => exact afterWord_git (solid_sh (by decide)) (by decide) htrail
    | cons wrapper wrappers =>
      obtain ⟨w, gap⟩ := wrapper
      have hne : w.text ≠ sh "cd" := by
        cases w with
        | assign a => exact a.ne_sh (by decide)
        | _ => decide
      rw [afterWord_wrapper (solid_sh (by decide)), if_neg hne]
  rw [matchCd, skipSpaces_starts (starts_body _ _ _), hnone]

theorem GitCommand.behind_git (command : GitCommand) :
    fieldsText command.region.1 ++ command.region.2 ≠ [] := by
  intro h
  obtain ⟨hfields, htrail⟩ := List.append_eq_nil_iff.1 h
  rw [GitCommand.region] at hfields htrail
  cases hfound : beforeCommit false command.fields with
  | none =>
    rw [hfound] at hfields
    simp [GitCommand.fields, fieldsText, Field.text, command.subcommand.1.nonempty] at hfields
  | some found =>
    rw [hfound] at htrail
    exact found.2.nonempty htrail

/-- Up to the verb, the region is the command. -/
theorem GitCommand.region_text (command : GitCommand) (h : beforeCommit false command.fields = none) :
    command.text = cdsText command.cds ++ command.segment := by
  rw [GitCommand.text, GitCommand.segment, GitCommand.region, h]

/-- The segment without the white space before it. -/
def GitCommand.body (command : GitCommand) : Text :=
  segmentText [] command.wrappers command.region.1 command.region.2

theorem GitCommand.skipSpaces_body (command : GitCommand) (hwhite : White white) :
    skipSpaces (white ++ command.body) = command.body :=
  (skipSpaces_white hwhite _).trans (skipSpaces_starts (starts_body _ _ _))

theorem GitCommand.cdChain_text (command : GitCommand) : ∃ white, White white ∧
    cdChain (cdsText command.cds ++ command.segment).length [] (cdsText command.cds ++ command.segment) =
      (joinDirs command.targets, white ++ command.body) := by
  have hrounds : command.cds.length ≤ (cdsText command.cds ++ command.segment).length := by
    have hle := length_cds command.cds
    rw [List.length_append]
    omega
  have hstarts : Starts command.body := starts_body _ _ _
  exact cdChain_cds _ [] hstarts (matchCd_body command.region_white command.wrappers)
    command.lead.isWhite hrounds rfl

/-- What is searched for the option: the body behind its wrappers, up to an empty assignment. -/
theorem GitCommand.skipWrappers_text (command : GitCommand) (hwhite : White white) :
    ∃ inner, White inner ∧ skipWrappers (white ++ command.body).length (white ++ command.body) =
      segmentText inner (unwrapped command.wrappers) command.region.1 command.region.2 := by
  have hlong : command.wrappers.length ≤ (white ++ command.body).length := by
    have hle : command.wrappers.length ≤ command.body.length := length_body _ _ _
    rw [List.length_append]
    omega
  exact skipWrappers_body command.region_white _ hlong (command.skipSpaces_body hwhite)

theorem GitCommand.isGitSegment_text (command : GitCommand) (hwhite : White white) :
    isGitSegment (segmentText white (unwrapped command.wrappers) command.region.1 command.region.2) =
      !command.lost := by
  rw [GitCommand.lost]
  rcases unwrapped_cases command.wrappers with ⟨hnil, hlost⟩ | ⟨hlost, a, gap, rest, hassign⟩
  · rw [hnil, hlost]
    change isGitSegment (white ++ segmentText [] [] command.region.1 command.region.2) = true
    rw [isGitSegment, skipSpaces_white hwhite, ← isGitSegment]
    exact isGitSegment_git command.region_white command.behind_git
  · rw [hassign, hlost]
    exact isGitSegment_assign hwhite a gap rest _ _

theorem GitCommand.findDirOption_text (command : GitCommand) (hwhite : White white)
    (hlost : command.lost = false) :
    (findDirOption true (segmentText white (unwrapped command.wrappers) command.region.1
      command.region.2)).map aiUnquoteToken = firstDir command.region.1 := by
  rcases unwrapped_cases command.wrappers with ⟨hnil, -⟩ | ⟨h, -⟩
  · rw [hnil]
    exact findDirOption_body hwhite command.region_white command.plainToDir
  · rw [GitCommand.lost, h] at hlost
    cases hlost

theorem aiTargetDirFromCmd_text (command : GitCommand) :
    aiTargetDirFromCmd command.text = command.readDirs.map joinDirs := by
  have hbefore : ((aiGitCommitPrefixes command.text).map CommitPrefixes.beforeVerb).getD command.text =
      cdsText command.cds ++ command.segment := by
    rw [aiGitCommitPrefixes_text]
    cases h : beforeCommit false command.fields with
    | none => exact command.region_text h
    | some found => rfl
  obtain ⟨white, hwhite, hchain⟩ := command.cdChain_text
  -- The segment is the body behind some white space, with a verb and without one.
  obtain ⟨lead, hlead, hsegment⟩ : ∃ lead, White lead ∧
      ((aiGitCommitPrefixes command.text).map CommitPrefixes.segment).getD (white ++ command.body) =
        lead ++ command.body := by
    rw [aiGitCommitPrefixes_text]
    cases h : beforeCommit false command.fields with
    | none => exact ⟨white, hwhite, rfl⟩
    | some found => exact ⟨command.lead.text, command.lead.isWhite, rfl⟩
  obtain ⟨inner, hinner, hskip⟩ := command.skipWrappers_text hlead
  have hlexed := aiGitCommitPrefixes_segment hinner (unwrapped command.wrappers) command.region_white
    command.region_none
  have hwrapped : isWrapped (white ++ command.body) =
      !(command.wrappers.head?.all fun wrapper => wrapper.1.isAssignment) :=
    isWrapped_body hwhite command.region_white command.wrappers
  have hempty : joinDirs command.targets = [] ↔ command.targets.all (· = []) = true := by
    rw [joinDirs, foldl_resolveCd_eq_nil]
    exact and_iff_right rfl
  rw [aiTargetDirFromCmd, GitCommand.readDirs]
  dsimp only
  rw [hbefore]
  cases hmarks : hasSubstitution (cdsText command.cds ++ command.segment) with
  | true => rfl
  | false =>
    rw [if_neg Bool.false_ne_true, if_neg Bool.false_ne_true, hchain]
    dsimp only
    rw [hsegment, hskip, hlexed, Option.map_none, Option.getD_none, command.isGitSegment_text hinner,
      hwrapped]
    cases hlost : command.lost with
    | true =>
      simp only [Bool.not_true, Bool.false_eq_true, if_false, Bool.false_or, if_true, true_and,
        Bool.not_eq_true', ne_eq, hempty]
      by_cases hall : command.targets.all (· = []) = true
      · rw [if_neg fun h => h.1 hall, if_pos (.inl hall)]
        rfl
      · cases hhead : command.wrappers.head?.all fun wrapper => wrapper.1.isAssignment with
        | true =>
          rw [if_neg fun h => Bool.false_ne_true h.2.symm, if_pos (.inr rfl)]
          rfl
        | false =>
          rw [if_pos ⟨hall, rfl⟩, if_neg (not_or.2 ⟨hall, Bool.false_ne_true⟩)]
          rfl
    | false =>
      rw [← command.findDirOption_text hinner hlost]
      simp only [Bool.not_false, if_true, Bool.true_or, and_true, Bool.false_eq_true, if_false, false_and,
        or_false, ne_eq, hempty]
      cases findDirOption true (segmentText inner (unwrapped command.wrappers) command.region.1
        command.region.2) with
      | none =>
        by_cases hall : command.targets.all (· = []) = true
        · rw [if_neg fun h => h hall, Option.map_none]
          dsimp only
          rw [if_pos hall]
          rfl
        · rw [if_pos hall, Option.map_none]
          dsimp only
          rw [if_neg hall]
          rfl
      | some target =>
        simp only [Option.map_some, joinDirs, List.foldl_append, List.foldl_cons, List.foldl_nil]

/-! ## Exactness -/

theorem enter_nil (dir : List Text) : enter dir [] = dir := rfl

/-- A path that is joined to a path denotes what it denotes from there. -/
theorem enter_resolveCd (dir : List Text) (resolved target : Text) :
    enter dir (resolveCd resolved target) = enter (enter dir resolved) target := by
  rw [resolveCd]
  split
  · next h =>
    rcases h with h | rfl
    · rw [enter, enter, if_pos h, if_pos h]
    · rw [enter_nil]
  · next h =>
    obtain ⟨htarget, hne⟩ := not_or.1 h
    have hroot {r : Text} (hhead : (r ++ '/' :: target).head? = resolved.head?)
        (hcomponents : (components r).foldl enterComponent (if resolved.head? = some '/' then [] else dir) =
          enter dir resolved) : enter dir (r ++ '/' :: target) = enter (enter dir resolved) target := by
      rw [enter, hhead, components, List.splitOn_append_cons_self, List.foldl_append]
      rw [enter.eq_def (enter dir resolved), if_neg htarget]
      exact congrArg (fun d => (components target).foldl enterComponent d) hcomponents
    cases resolved using List.reverseRecOn with
    | nil => exact absurd rfl hne
    | append_singleton r c =>
      rw [List.getLast?_concat, List.dropLast_concat]
      split
      · next hslash =>
        obtain rfl := Option.some.inj hslash
        refine hroot ?_ ?_
        · cases r <;> rfl
        · rw [enter, components, components, List.splitOn_append_cons_self, List.foldl_append]
          rfl
      · refine hroot ?_ rfl
        cases r <;> rfl

theorem enter_joinDirs (dir : List Text) (paths : List Text) :
    enter dir (joinDirs paths) = paths.foldl enter dir := by
  have hfold (resolved : Text) :
      enter dir (paths.foldl resolveCd resolved) = paths.foldl enter (enter dir resolved) := by
    induction paths generalizing resolved with
    | nil => rfl
    | cons path paths ih => rw [List.foldl_cons, ih, enter_resolveCd, List.foldl_cons]
  exact hfold []

def space : Gap := ⟨sh " ", by decide, by decide⟩

/-- `git -C a -C b status` -/
def repeatedDir : GitCommand where
  cds := []
  lead := ⟨[], rfl⟩
  wrappers := []
  options := [(space, .dir ⟨space, .word ⟨sh "a", by decide, by decide, by decide, by decide⟩⟩),
    (space, .dir ⟨space, .word ⟨sh "b", by decide, by decide, by decide, by decide⟩⟩)]
  subcommand := (space, ⟨sh "status", by decide, by decide, by decide, by decide⟩)
  arguments := []
  trail := ⟨[], rfl⟩
  undashed := by decide

example : repeatedDir.text = sh "git -C a -C b status" := by decide

end Musi.AiHooks
