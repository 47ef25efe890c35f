import Musi.Js.Joined
import Musi.Js.Number

namespace Musi.DriftAi
open Musi.Js
set_option autoImplicit true

/-! ## The log that git prints -/

namespace GitLog

/-- The units that the escapes of the format stand for. -/
def outRecord : UInt16 := 0x00
def outField : UInt16 := 0x1F
def outCoAuthor : UInt16 := 0x1D

def tab : UInt16 := 0x09

end GitLog

/-- The lines added to and deleted from a changed file, which a binary one does not have. -/
structure GitChange where
  path : JsString
  lines : Option (Nat × Nat)
  /-- Git prints a path with a control character between quotes. -/
  printable : path ≠ [] ∧ ∀ c ∈ path, 0x20 ≤ c
  countable : ∀ count ∈ lines, count.1 < 2 ^ 53 ∧ count.2 < 2 ^ 53

structure GitCommit where
  hash : JsString
  authorName : JsString
  authorEmail : JsString
  authorDate : JsString
  committerDate : JsString
  subject : JsString
  coAuthors : List JsString
  files : List GitChange
  oneLine : ∀ field ∈ [hash, authorName, authorEmail, authorDate, committerDate, subject],
    Lines.lineFeed ∉ field
  /-- Git trims the value of a trailer. -/
  trimmed : ∀ value ∈ coAuthors, value.getLast? ≠ some Lines.carriageReturn

inductive FormatItem where
  | byte (c : UInt16)
  | hash
  | authorName
  | authorEmail
  | authorDate
  | committerDate
  | subject
  | coAuthors (separator : UInt16)

def gitLogFormat : List FormatItem :=
  [.byte GitLog.outRecord, .hash, .byte GitLog.outField, .authorName, .byte GitLog.outField,
    .authorEmail, .byte GitLog.outField, .authorDate, .byte GitLog.outField, .committerDate,
    .byte GitLog.outField, .subject, .byte GitLog.outField, .coAuthors GitLog.outCoAuthor]

def GitCommit.print (commit : GitCommit) : FormatItem → JsString
  | .byte c => [c]
  | .hash => commit.hash
  | .authorName => commit.authorName
  | .authorEmail => commit.authorEmail
  | .authorDate => commit.authorDate
  | .committerDate => commit.committerDate
  | .subject => commit.subject
  | .coAuthors separator => join [separator] commit.coAuthors

def GitChange.countTexts (change : GitChange) : JsString × JsString :=
  match change.lines with
  | none => ([unit '-'], [unit '-'])
  | some count => (natText count.1, natText count.2)

def GitChange.row (numstat : Bool) (change : GitChange) : JsString :=
  if numstat then
    change.countTexts.1 ++ GitLog.tab :: (change.countTexts.2 ++ GitLog.tab :: change.path)
  else change.path

/-- The lines of a commit. A commit in which no file changed may go without the blank line. -/
def GitCommit.lines (numstat alwaysBlank : Bool) (commit : GitCommit) : List JsString :=
  gitLogFormat.flatMap commit.print ::
    ((if commit.files.isEmpty && !alwaysBlank then [] else [[]]) ++
      commit.files.map (GitChange.row numstat))

def printLog (numstat alwaysBlank : Bool) (commits : List GitCommit) : JsString :=
  Lines.print (commits.flatMap (GitCommit.lines numstat alwaysBlank))

/-! ## Reading it -/

structure CommitFileChange (N : Type) where
  path : JsString
  added : N
  deleted : N
  binary : Bool
  deriving DecidableEq

structure CommitRecord (N : Type) where
  hash : JsString
  authorName : JsString
  authorEmail : JsString
  authorDate : JsString
  committerDate : JsString
  subject : JsString
  coAuthors : List JsString
  files : List (CommitFileChange N)
  deriving DecidableEq

structure ParseState (N : Type) where
  records : List (CommitRecord N)
  current : Option (CommitRecord N)

section
variable {N : Type} [JsNumber N]

/-- Number.parseInt in base ten, without a result where it is NaN. -/
def parseInt (value : JsString) : Option N :=
  let text := value.dropWhile isWhiteSpace
  let signed := text.head? = some (unit '-') ∨ text.head? = some (unit '+')
  let digits := (if signed then text.tail else text).takeWhile isDigit
  if digits = [] then none
  else if text.head? = some (unit '-') then some (JsNumber.ofInt (-(digitsValue digits : Int)))
  else some (JsNumber.ofInt (digitsValue digits))

def toCount (value : JsString) : N :=
  match parseInt value with
  | none => JsNumber.ofInt 0
  | some parsed =>
    if JsNumber.isFinite parsed && !JsNumber.less parsed (JsNumber.ofInt 0) then parsed
    else JsNumber.ofInt 0

def startRecord (metaText : JsString) : CommitRecord N :=
  let fields := splitOn GitLog.outField metaText
  let coAuthorField := (fields[6]?).getD []
  { hash := (fields[0]?).getD []
    authorName := (fields[1]?).getD []
    authorEmail := (fields[2]?).getD []
    authorDate := (fields[3]?).getD []
    committerDate := (fields[4]?).getD []
    subject := (fields[5]?).getD []
    coAuthors :=
      if coAuthorField.length = 0 then []
      else (splitOn GitLog.outCoAuthor coAuthorField).filter fun value => value.length > 0
    files := [] }

def parseNameOnlyRow (line : JsString) : Option (CommitFileChange N) :=
  some ⟨line, JsNumber.ofInt 0, JsNumber.ofInt 0, false⟩

/-- The texts before and after the first tab. -/
def splitTab (line : JsString) : Option (JsString × JsString) :=
  match line.dropWhile fun c => c ≠ GitLog.tab with
  | [] => none
  | _ :: rest => some (line.takeWhile fun c => c ≠ GitLog.tab, rest)

def parseNumstatRow (line : JsString) : Option (CommitFileChange N) :=
  match splitTab line with
  | none => none
  | some (addedRaw, rest) =>
    match splitTab rest with
    | none => none
    | some (deletedRaw, filePath) =>
      if filePath.length = 0 then none
      else
        let binary := addedRaw = [unit '-'] ∨ deletedRaw = [unit '-']
        some {
          path := filePath
          added := if binary then JsNumber.ofInt 0 else toCount addedRaw
          deleted := if binary then JsNumber.ofInt 0 else toCount deletedRaw
          binary := binary }

def ParseState.flush (state : ParseState N) : List (CommitRecord N) :=
  state.records ++ state.current.toList

def applyLogLine (parseRow : JsString → Option (CommitFileChange N)) (state : ParseState N)
    (line : JsString) : ParseState N :=
  if line.head? = some GitLog.outRecord then ⟨state.flush, some (startRecord line.tail)⟩
  else
    match state.current with
    | none => state
    | some current =>
      if line.length = 0 then state
      else
        match parseRow line with
        | none => state
        | some change => { state with current := some { current with files := current.files ++ [change] } }

def parseGitLog (output : JsString) (numstat : Option Bool) : List (CommitRecord N) :=
  let parseRow := if numstat.getD true then parseNumstatRow else parseNameOnlyRow
  (((splitOn Lines.lineFeed output).map Lines.dropReturn).foldl (applyLogLine parseRow)
    ⟨[], none⟩).flush

/-! ## What is to be read -/

/-- The change that a row tells of: without line counts where only names are listed. -/
def GitChange.record (numstat : Bool) (change : GitChange) : CommitFileChange N :=
  match change.lines with
  | some count =>
    if numstat then
      ⟨change.path, JsNumber.ofInt count.1, JsNumber.ofInt count.2, false⟩
    else ⟨change.path, JsNumber.ofInt 0, JsNumber.ofInt 0, false⟩
  | none => ⟨change.path, JsNumber.ofInt 0, JsNumber.ofInt 0, numstat⟩

/-- A commit with the given co-authors and changes. -/
def GitCommit.recordWith (commit : GitCommit) (coAuthors : List JsString)
    (files : List (CommitFileChange N)) : CommitRecord N :=
  ⟨commit.hash, commit.authorName, commit.authorEmail, commit.authorDate, commit.committerDate,
    commit.subject, coAuthors, files⟩

/-- The commit as the history has it. -/
def GitCommit.history (commit : GitCommit) : CommitRecord N :=
  commit.recordWith commit.coAuthors (commit.files.map (GitChange.record true))

/-- The commit as the log has it: without empty co-author values, and without line counts where
only names are listed. -/
def GitCommit.logged (numstat : Bool) (commit : GitCommit) : CommitRecord N :=
  commit.recordWith (commit.coAuthors.filter fun value => value ≠ [])
    (commit.files.map (GitChange.record numstat))

end

/-- No field holds a separator of the format. -/
structure GitCommit.Separated (commit : GitCommit) : Prop where
  fields : ∀ field ∈ [commit.hash, commit.authorName, commit.authorEmail, commit.authorDate,
    commit.committerDate, commit.subject], GitLog.outField ∉ field
  coAuthors : ∀ value ∈ commit.coAuthors,
    Lines.lineFeed ∉ value ∧ GitLog.outField ∉ value ∧ GitLog.outCoAuthor ∉ value

end Musi.DriftAi
