import Musi.Js.Order
import Musi.Js.PosixPath

namespace Musi.DriftAi
open Musi.Js
set_option autoImplicit true

/-- What the language leaves to the locale: `localeCompare(…, "en")`. -/
class Locale where
  localeCompare : JsString → JsString → Int
  localeCompare_consistent : ConsistentComparator localeCompare

/-- Locale order as code unit order. -/
instance unitLocale : Locale where
  localeCompare := compareCodeUnits
  localeCompare_consistent := compareCodeUnits_strict.toConsistentComparator

/-! ## Paths of a repository -/

/-- The path without its leading `./`, however often it repeats. -/
def dropDotSlash : JsString → JsString
  | a :: b :: s => if a = unit '.' ∧ b = slash then dropDotSlash s else a :: b :: s
  | s => s

/-- The path without the slashes at its end, except where it is one slash. -/
def dropTrailingSlashes (path : JsString) : JsString :=
  match path with
  | [] => []
  | first :: body =>
    let kept := body.rdropWhile (· = slash)
    if kept = [] ∧ first = slash ∧ body ≠ [] then js "/" else first :: kept

def toPosix (value : JsString) : JsString :=
  dropTrailingSlashes (dropDotSlash (trim (value.map fun c => if c = unit '\\' then slash else c)))

example : toPosix (js " ././src\\a.ts/ ") = js "src/a.ts" := by decide +kernel

def normalizeRepoPath (value : JsString) : JsString := toPosix value

def uniqSorted [Locale] (values : List JsString) : List JsString :=
  sortBy Locale.localeCompare values.eraseDups

/-! ## Globs -/

/-- One piece of the expression that a glob is compiled to. -/
inductive GlobPart where
  | directories
  | anything
  | segment
  | one
  | literal (c : UInt16)

/-- globToRegExp -/
def globParts : JsString → List GlobPart
  | [] => []
  | [c] => [if c = unit '*' then .segment else if c = unit '?' then .one else .literal c]
  | c :: d :: rest =>
    if c = unit '*' ∧ d = unit '*' then
      match rest with
      | [] => [.anything]
      | e :: rest => if e = slash then .directories :: globParts rest else .anything :: globParts (e :: rest)
    else (if c = unit '*' then .segment else if c = unit '?' then .one else .literal c) ::
      globParts (d :: rest)

/-- What `.` does not match. -/
def isLineTerminator (c : UInt16) : Bool := c = 0x0A || c = 0x0D || c = 0x2028 || c = 0x2029

/-- Whether the compiled glob matches a whole path. -/
def globMatches : List GlobPart → JsString → Bool
  | [], s => s.isEmpty
  | .literal c :: parts, s =>
    match s with
    | [] => false
    | d :: s => d = c && globMatches parts s
  | .one :: parts, s =>
    match s with
    | [] => false
    | [d] => d ≠ slash && globMatches parts []
    | d :: e :: s =>
      if isHighSurrogate d && isLowSurrogate e then globMatches parts s
      else d ≠ slash && globMatches parts (e :: s)
  | .segment :: parts, s =>
    (List.range ((s.takeWhile (· ≠ slash)).length + 1)).any fun i => globMatches parts (s.drop i)
  | .anything :: parts, s =>
    (List.range ((s.takeWhile fun c => !isLineTerminator c).length + 1)).any fun i =>
      globMatches parts (s.drop i)
  | .directories :: parts, s =>
    globMatches parts s ||
      (List.range (s.takeWhile fun c => !isLineTerminator c).length).any fun i =>
        (s.drop i).head? = some slash && globMatches parts (s.drop (i + 1))

def matchesAnyGlob (filePath : JsString) (globs : List JsString) : Bool :=
  globs.any fun glob => globMatches (globParts glob) (normalizeRepoPath filePath)

example : matchesAnyGlob (js "scripts/lib/a.test.ts") [js "**/*.test.*"] ∧
    ¬ matchesAnyGlob (js "scripts/lib/test.ts") [js "**/*.test.*"] := by decide +kernel

end Musi.DriftAi
