import Mathlib.Data.List.Defs
import Musi.Shell.Text

namespace Musi.AiHooks
open Musi.Shell
set_option autoImplicit true

/-! ## Characters and tokens -/

/-- `[[:space:]]` -/
def isSpace (c : Char) : Bool :=
  c = ' ' || c = '\t' || c = '\n' || c = Char.ofNat 11 || c = Char.ofNat 12 || c = '\r'

/-- `[;|&]` -/
def isSeparator (c : Char) : Bool := c = ';' || c = '|' || c = '&'

def isQuote (c : Char) : Bool := c = '\'' || c = '"'

def isNameStart (c : Char) : Bool := c.isAlpha || c = '_'

def isNameChar (c : Char) : Bool := c.isAlphanum || c = '_'

def skipSpaces (s : Text) : Text := s.dropWhile isSpace

/-- One layer of surrounding quotes. -/
def aiUnquoteToken (token : Text) : Text :=
  match token with
  | [] => []
  | c :: rest => if isQuote c ∧ rest.getLast? = some c then rest.dropLast else token

/-- The text behind a word at the front and the white space behind it. -/
def afterWord (word s : Text) : Option Text :=
  if word.isPrefixOf s ∧ (s.drop word.length).head?.any isSpace then
    some (skipSpaces (s.drop word.length))
  else none

/-! ## The lexer for the verb -/

structure LexState where
  token : Text := []
  quote : Option Char := none
  tokenStart : Option Nat := none
  segmentStart : Nat := 0
  segmentFirst : Bool := true
  segmentIsGit : Bool := false
  gitOptionValue : Bool := false

/-- A token is over: the offsets of the verb and of its segment when it is the verb. -/
def LexState.endToken (state : LexState) : (Nat × Nat) ⊕ LexState :=
  match state.tokenStart with
  | none => .inr state
  | some start =>
    if state.segmentFirst then
      if state.token = sh "command" ∨ state.token = sh "builtin" ∨ state.token = sh "env" ∨
          (state.token.head?.any isNameStart ∧ '=' ∈ state.token) then
        .inr { state with token := [], tokenStart := none }
      else
        .inr { state with token := [], tokenStart := none, segmentFirst := false
                          segmentIsGit := state.segmentIsGit || state.token = sh "git" }
    else if state.segmentIsGit then
      if state.gitOptionValue then
        .inr { state with token := [], tokenStart := none, gitOptionValue := false }
      else if state.token = sh "-C" ∨ state.token = sh "-c" then
        .inr { state with token := [], tokenStart := none, gitOptionValue := true }
      else if state.token = sh "commit" then .inl (start, state.segmentStart)
      else .inr { state with token := [], tokenStart := none }
    else .inr { state with token := [], tokenStart := none }

/-- A separator starts a segment behind it. -/
def LexState.separate (state : LexState) (i : Nat) (c : Char) : LexState :=
  if isSeparator c then
    { state with segmentStart := i + 1, segmentFirst := true, segmentIsGit := false
                 gitOptionValue := false }
  else state

/-- A character of a token. -/
def LexState.push (state : LexState) (i : Nat) (text : Text) : LexState :=
  { state with token := state.token ++ text, tokenStart := some (state.tokenStart.getD i) }

/-- The offsets of the verb and of its segment; the end of the text counts as a semicolon. -/
def lexCommit (state : LexState) (i : Nat) : Text → Option (Nat × Nat)
  | [] => if state.quote = none then state.endToken.getLeft? else none
  | c :: s =>
    match state.quote with
    | some quote =>
      if c = quote then lexCommit { state with quote := none } (i + 1) s
      else if quote = '"' ∧ c = '\\' then
        match s with
        | [] => none
        | d :: rest => lexCommit { state with token := state.token ++ [d] } (i + 2) rest
      else lexCommit { state with token := state.token ++ [c] } (i + 1) s
    | none =>
      if isQuote c then lexCommit { state.push i [] with quote := some c } (i + 1) s
      else if c = '\\' then
        match s with
        | [] => lexCommit (state.push i []) (i + 1) []
        | d :: rest => lexCommit (state.push i [d]) (i + 2) rest
      else if isSpace c || isSeparator c then
        match state.endToken with
        | .inl found => some found
        | .inr state => lexCommit (state.separate i c) (i + 1) s
      else lexCommit (state.push i [c]) (i + 1) s

structure CommitPrefixes where
  beforeVerb : Text
  segment : Text

def aiGitCommitPrefixes (cmd : Text) : Option CommitPrefixes :=
  (lexCommit {} 0 cmd).map fun (tokenStart, segmentStart) =>
    ⟨cmd.take tokenStart, (cmd.take tokenStart).drop segmentStart⟩

/-! ## The patterns -/

/-- A closed quotation at the front, quotes included. -/
def quotedToken (s : Text) : Option Text :=
  match s with
  | [] => none
  | c :: rest =>
    if isQuote c ∧ c ∈ rest then some (c :: (rest.takeWhile (· ≠ c) ++ [c])) else none

/-- The longest `[^[:space:];|&]+` at the front. -/
def plainToken (s : Text) : Option Text :=
  let token := s.takeWhile fun c => !isSpace c && !isSeparator c
  if token = [] then none else some token

/-- What follows `[[:space:]]*(&&|;)[[:space:]]*`. -/
def afterChain (s : Text) : Option Text :=
  match skipSpaces s with
  | '&' :: '&' :: rest => some (skipSpaces rest)
  | ';' :: rest => some (skipSpaces rest)
  | _ => none

/-- A `cd` with its target and what follows its separator. Where both kinds of token match, the
quoted one is the longer. -/
def matchCd (s : Text) : Option (Text × Text) :=
  match afterWord (sh "cd") (skipSpaces s) with
  | none => none
  | some operand =>
    let behind (token : Text) := (afterChain (operand.drop token.length)).map fun rest => (token, rest)
    ((quotedToken operand).bind behind).or ((plainToken operand).bind behind)

/-- The longest path token at the front. -/
def pathToken (s : Text) : Option Text :=
  match quotedToken s, plainToken s with
  | some quoted, some plain => some (if plain.length ≤ quoted.length then quoted else plain)
  | some quoted, none => some quoted
  | none, plain => plain

/-- `(^|[[:space:]])-C[[:space:]]+` with a path token, at its first place. -/
def findDirOption (atStart : Bool) : Text → Option Text
  | [] => none
  | c :: s =>
    let here := (if atStart then (afterWord (sh "-C") (c :: s)).bind pathToken else none).or
      (if isSpace c then (afterWord (sh "-C") s).bind pathToken else none)
    here.or (findDirOption false s)

/-- What follows an assignment with a value, `^[[:space:]]*[A-Za-z_][A-Za-z0-9_]*=…`. -/
def afterAssignment (s : Text) : Option Text :=
  match skipSpaces s with
  | [] => none
  | c :: rest =>
    if isNameStart c then
      match rest.dropWhile isNameChar with
      | '=' :: value =>
        match plainToken value with
        | none => none
        | some token =>
          let behind := value.drop token.length
          if behind.head?.any isSpace then some (skipSpaces behind) else none
      | _ => none
    else none

/-! ## The resolver -/

/-- The cds in order, each relative to the one before. -/
def resolveCd (resolved target : Text) : Text :=
  if target.head? = some '/' ∨ resolved = [] then target
  else (if resolved.getLast? = some '/' then resolved.dropLast else resolved) ++ '/' :: target

/-- Each round takes text away, so the length bounds the rounds. -/
def cdChain : Nat → Text → Text → Text × Text
  | 0, resolved, remaining => (resolved, remaining)
  | rounds + 1, resolved, remaining =>
    match matchCd remaining with
    | none => (resolved, remaining)
    | some (target, rest) => cdChain rounds (resolveCd resolved (aiUnquoteToken target)) rest

def skipAssignments : Nat → Text → Text
  | 0, s => s
  | rounds + 1, s =>
    match afterAssignment s with
    | none => s
    | some rest => skipAssignments rounds rest

def skipWrappers : Nat → Text → Text
  | 0, s => s
  | rounds + 1, s =>
    match (afterWord (sh "command") (skipSpaces s)).or (afterWord (sh "builtin") (skipSpaces s)) with
    | some rest => skipWrappers rounds rest
    | none =>
      match afterWord (sh "env") (skipSpaces s) with
      | some rest => skipWrappers rounds (skipAssignments rest.length rest)
      | none =>
        match afterAssignment s with
        | some rest => skipWrappers rounds rest
        | none => s

def isGitSegment (s : Text) : Bool := (afterWord (sh "git") (skipSpaces s)).isSome

def isWrapped (s : Text) : Bool :=
  (afterWord (sh "command") (skipSpaces s)).isSome || (afterWord (sh "builtin") (skipSpaces s)).isSome ||
    (afterWord (sh "env") (skipSpaces s)).isSome

def hasSubstitution (s : Text) : Bool :=
  s.tails.any fun rest =>
    (sh "$(").isPrefixOf rest || (sh "`").isPrefixOf rest || (sh "<(").isPrefixOf rest

/-- The directory; none where the function returns 1. -/
def aiTargetDirFromCmd (cmd : Text) : Option Text :=
  let commit := aiGitCommitPrefixes cmd
  let beforeVerb := (commit.map CommitPrefixes.beforeVerb).getD cmd
  if hasSubstitution beforeVerb then none
  else
    let (resolvedCd, remaining) := cdChain beforeVerb.length [] beforeVerb
    let segment := (commit.map CommitPrefixes.segment).getD remaining
    let unwrapped := skipWrappers segment.length segment
    let gitSegment := ((aiGitCommitPrefixes unwrapped).map CommitPrefixes.segment).getD unwrapped
    let named := if isGitSegment gitSegment then findDirOption true gitSegment else none
    match named with
    | some target => some (resolveCd resolvedCd (aiUnquoteToken target))
    | none =>
      if resolvedCd ≠ [] ∧ (isGitSegment gitSegment || isWrapped remaining) then some resolvedCd
      else none

end Musi.AiHooks
