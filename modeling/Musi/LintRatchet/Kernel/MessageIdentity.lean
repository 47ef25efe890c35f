import Musi.Js.Text
import Musi.LintRatchet.Kernel.Types

namespace Musi.LintRatchet
open Musi.Js
set_option autoImplicit true

variable {N : Type} [JsNumber N]

/-! ## The identity of a message -/

def normalizeRepoRoot (value repoRootPath : JsString) : JsString :=
  if repoRootPath = [] then value else replaceAllFrom repoRootPath (js "<repo-root>") 0 value

/-- `p+` at the start of a string: what is left after the longest match. -/
def skipSome (p : UInt16 → Bool) (s : JsString) : Option JsString :=
  if s.takeWhile p = [] then none else some (s.dropWhile p)

def startsWithUnit (c : Char) (s : JsString) : Bool := s.head? = some (unit c)

/-- `^\s+\d+\s+\|` -/
def isCodeFrameSourceLine (line : JsString) : Bool :=
  (((skipSome isWhiteSpace line).bind (skipSome isDigit)).bind (skipSome isWhiteSpace)).any
    (startsWithUnit '|')

/-- `^>\s+\d+\s+\|` -/
def isCodeFrameTargetLine (line : JsString) : Bool :=
  startsWithUnit '>' line && isCodeFrameSourceLine line.tail

/-- `^\s+\|\s+\^` -/
def isCodeFramePointerLine (line : JsString) : Bool :=
  (skipSome isWhiteSpace line).any fun rest =>
    startsWithUnit '|' rest && (skipSome isWhiteSpace rest.tail).any (startsWithUnit '^')

/-- No line is of two kinds, so the order of the tests does not matter. -/
def isCodeFrame (lines : List JsString) : Bool :=
  lines.all (fun line => isCodeFrameSourceLine line || isCodeFrameTargetLine line ||
    isCodeFramePointerLine line) &&
  lines.any isCodeFrameSourceLine && lines.any isCodeFrameTargetLine &&
  lines.any isCodeFramePointerLine

/-- Array.prototype.lastIndexOf. -/
def lastIndexOf (value : JsString) : List JsString → Option Nat
  | [] => none
  | line :: lines =>
    match lastIndexOf value lines with
    | some index => some (index + 1)
    | none => if line = value then some 0 else none

structure MessageIdentityLocation (N : Type) where
  filePath : JsString
  line : Option N
  column : Option N

def normalizedMessageForIdentity (message : JsString) (location : MessageIdentityLocation N)
    (repoRootPath : JsString) : JsString :=
  let normalizedMessage := normalizeRepoRoot message repoRootPath
  match location.line, location.column with
  | some line, some column =>
    let locationLine := normalizeRepoRoot location.filePath repoRootPath ++ js ":" ++
      JsNumber.toText line ++ js ":" ++ JsNumber.toText column
    let lines := splitOn 0x0A normalizedMessage
    match lastIndexOf locationLine lines with
    | some index =>
      if isCodeFrame (lines.drop (index + 1)) then
        let semanticLines := lines.take index
        join [0x0A]
          (if semanticLines.getLast? = some [] then semanticLines.dropLast else semanticLines)
      else normalizedMessage
    | none => normalizedMessage
  | _, _ => normalizedMessage

/-- The message id alone where there is one, else the message without what depends on the place. -/
def messageIdentityForFinding (message messageId : Option JsString)
    (location : MessageIdentityLocation N) (repoRootPath : JsString) : Option JsString :=
  match messageId, message with
  | some messageId, _ => some (stringify (.obj [(js "messageId", .str messageId)] : Json N))
  | none, some message => some (stringify (.obj [(js "message",
      .str (normalizedMessageForIdentity message location repoRootPath))] : Json N))
  | none, none => none

end Musi.LintRatchet
