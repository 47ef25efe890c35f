import Musi.Js.Number
import Musi.Js.PosixPath
import Musi.Js.Table
import Musi.LintRatchet.Kernel.PosixHost

namespace Musi.LintRatchet
open Musi.Js
set_option autoImplicit true

abbrev Bytes := List UInt8

structure LocalRuleSourceFileSystem where
  pathExists : JsString → Bool
  /-- `none` where the read throws, as it does on a directory. -/
  readFile : JsString → Option Bytes
  isDirectory : JsString → Bool

/-! ## What the TypeScript package is asked -/

/-- The nodes that the closure looks at. A declaration has the text of its module specifier where
that is a string literal; every other node is its children. -/
inductive SyntaxNode where
  | importKeyword
  | identifier (text : JsString)
  | callExpression (expression : SyntaxNode) (arguments : List SyntaxNode)
  | importDeclaration (moduleSpecifier : Option JsString) (children : List SyntaxNode)
  | exportDeclaration (moduleSpecifier : Option JsString) (children : List SyntaxNode)
  | other (children : List SyntaxNode)

structure Diagnostic where
  start : Option Nat
  messageText : JsString

inductive ScriptKind where
  | js
  | jsx
  deriving DecidableEq

structure TypeScript where
  /-- The statements that ts.createSourceFile makes of a file and its bytes read as UTF-8. -/
  createSourceFile : JsString → Bytes → ScriptKind → List SyntaxNode
  /-- The first diagnostic that ts.transpileModule reports under a file name. -/
  transpileModule : Bytes → JsString → Option Diagnostic
  /-- The zero-based line and character of a position. -/
  getLineAndCharacterOfPosition : Bytes → Nat → Nat × Nat

/-- The texts of ConfigError; the last is what a failing read throws, which no code words. -/
inductive ClosureError where
  | notFound (path : JsString)
  | malformed (path : JsString) (location messageText : JsString)
  | dynamicLoading (path : JsString)
  | directoryWithoutIndex (specifier importerPath : JsString)
  | unreadable (path : JsString)
  deriving DecidableEq

def ClosureError.message : ClosureError → Option JsString
  | .notFound path => some (js "local rule source not found at " ++ path)
  | .malformed path location messageText =>
    some (js "local rule source " ++ path ++ location ++ js " contains malformed JavaScript: " ++
      messageText)
  | .dynamicLoading path =>
    some (js "local rule source " ++ path ++
      js " uses dynamic import()/require(); rule-source closures must be static ES modules so " ++
      js "every dependency is captured in the identity hash")
  | .directoryWithoutIndex specifier importerPath =>
    some (js "local rule import \"" ++ specifier ++ js "\" from " ++ importerPath ++
      js " resolves to a directory with no index.js")
  | .unreadable _ => none

/-! ## One file -/

/-- The package that a bare specifier names: its scope and name, or its first segment. -/
def bareSpecifierPackageRoot (specifier : JsString) : Option JsString :=
  if specifier = [] ∨ unit ':' ∈ specifier then none
  else
    let segments := splitOn slash specifier
    if startsWith specifier (js "@") then
      match segments with
      | scope :: name :: _ => if name = [] then none else some (scope ++ js "/" ++ name)
      | _ => none
    else segments.head?

def javaScriptKindForPath (path : JsString) : Option ScriptKind :=
  if extname path ∈ [[], js ".js", js ".mjs", js ".cjs"] then some .js
  else if extname path = js ".jsx" then some .jsx
  else none

def parseJavaScriptSource (ts : TypeScript) (path : JsString) (source : Bytes)
    (scriptKind : ScriptKind) : Except ClosureError (List SyntaxNode) :=
  let diagnosticFileName := if extname path = [] then path ++ js ".js" else path
  match ts.transpileModule source diagnosticFileName with
  | some diagnostic =>
    let location := match diagnostic.start with
      | some start =>
        let (line, character) := ts.getLineAndCharacterOfPosition source start
        js ":" ++ natText (line + 1) ++ js ":" ++ natText (character + 1)
      | none => []
    .error (.malformed path location diagnostic.messageText)
  | none => .ok (ts.createSourceFile path source scriptKind)

def staticModuleSpecifiers (statements : List SyntaxNode) : List JsString :=
  statements.filterMap fun
    | .importDeclaration moduleSpecifier _ => moduleSpecifier
    | .exportDeclaration moduleSpecifier _ => moduleSpecifier
    | _ => none

mutual
/-- A call of `import` or of the name `require`, at any depth. -/
def loadsDynamically : SyntaxNode → Bool
  | .importKeyword | .identifier _ => false
  | .callExpression expression arguments =>
    (match expression with
      | .importKeyword => true
      | .identifier text => text = js "require"
      | _ => false) || loadsDynamically expression || anyLoadsDynamically arguments
  | .importDeclaration _ children => anyLoadsDynamically children
  | .exportDeclaration _ children => anyLoadsDynamically children
  | .other children => anyLoadsDynamically children
termination_by structural node => node

def anyLoadsDynamically : List SyntaxNode → Bool
  | [] => false
  | node :: nodes => loadsDynamically node || anyLoadsDynamically nodes
termination_by structural nodes => nodes
end

def assertStaticModuleLoading (path : JsString) (statements : List SyntaxNode) :
    Except ClosureError Unit :=
  if anyLoadsDynamically statements then .error (.dynamicLoading path) else .ok ()

def resolveLocalRuleImport (cwd importerPath specifier : JsString)
    (fileSystem : LocalRuleSourceFileSystem) : Except ClosureError JsString :=
  let resolved := resolveFrom cwd (dirname importerPath) specifier
  if extname resolved ≠ [] then .ok resolved
  else if !fileSystem.pathExists resolved then .ok (resolved ++ js ".js")
  else if !fileSystem.isDirectory resolved then .ok resolved
  else
    let indexPath := joinPath resolved (js "index.js")
    if fileSystem.pathExists indexPath then .ok indexPath
    else .error (.directoryWithoutIndex specifier importerPath)

/-! ## The closure -/

/-- The working directory, the file system and the compiler of a run. -/
structure ClosureHost where
  cwd : JsString
  fileSystem : LocalRuleSourceFileSystem
  ts : TypeScript

structure ClosureState where
  filesByPath : JsMap Bytes := .empty
  bareRoots : List JsString := []

def addRoot (root : JsString) (bareRoots : List JsString) : List JsString :=
  if root ∈ bareRoots then bareRoots else bareRoots ++ [root]

/-- What a run returns or throws; `none` where it was cut off at a depth. -/
abbrev ClosureRun (α : Type) := Option (Except ClosureError α)

/-- The loop over the specifiers of a file; `collect` is the recursive call. -/
def collectSpecifiers (host : ClosureHost) (collect : JsString → ClosureState → ClosureRun ClosureState)
    (path : JsString) : List JsString → ClosureState → ClosureRun ClosureState
  | [], st => some (.ok st)
  | specifier :: specifiers, st =>
    if !startsWith specifier (js ".") then
      match bareSpecifierPackageRoot specifier with
      | some root =>
        collectSpecifiers host collect path specifiers { st with bareRoots := addRoot root st.bareRoots }
      | none => collectSpecifiers host collect path specifiers st
    else
      match resolveLocalRuleImport host.cwd path specifier host.fileSystem with
      | .error e => some (.error e)
      | .ok target =>
        match collect target st with
        | some (.ok st) => collectSpecifiers host collect path specifiers st
        | stopped => stopped

/-- The recursion, cut off below the given depth. -/
def collectLocalRuleSourceClosure (host : ClosureHost) :
    Nat → JsString → ClosureState → ClosureRun ClosureState
  | 0, _, _ => none
  | depth + 1, path, st =>
    if st.filesByPath.has path then some (.ok st)
    else if !host.fileSystem.pathExists path then some (.error (.notFound path))
    else
      match host.fileSystem.readFile path with
      | none => some (.error (.unreadable path))
      | some source =>
        let st := { st with filesByPath := st.filesByPath.set path source }
        match javaScriptKindForPath path with
        | none => some (.ok st)
        | some scriptKind =>
          match parseJavaScriptSource host.ts path source scriptKind with
          | .error e => some (.error e)
          | .ok sourceFile =>
            match assertStaticModuleLoading path sourceFile with
            | .error e => some (.error e)
            | .ok () =>
              collectSpecifiers host (collectLocalRuleSourceClosure host depth) path
                (staticModuleSpecifiers sourceFile) st

structure LocalRuleSourceFile where
  path : JsString
  source : Bytes
  deriving DecidableEq

structure LocalRuleClosure where
  sortedFiles : List LocalRuleSourceFile
  bareSpecifierRoots : List JsString
  deriving DecidableEq

def closureOf (st : ClosureState) : LocalRuleClosure where
  sortedFiles := sortBy (fun left right => compareCodeUnits left.path right.path)
    (st.filesByPath.entries.map fun e => { path := e.1, source := e.2 })
  bareSpecifierRoots := sortBy compareCodeUnits st.bareRoots

def collectLocalRuleClosure (host : ClosureHost) (depth : Nat) (entryPath : JsString) :
    ClosureRun LocalRuleClosure :=
  (collectLocalRuleSourceClosure host depth entryPath {}).map fun
    | .ok st => .ok (closureOf st)
    | .error e => .error e

/-! ## The identity hash -/

/-- The UTF-8 bytes that a hash update takes of a string. -/
def utf8Bytes (s : JsString) : Bytes := (codePoints s).flatMap utf8

/-- `relative(repoRootPath, path).replaceAll("\\", "/")` -/
def repoRelativePath (cwd repoRootPath path : JsString) : JsString :=
  (relativePath cwd repoRootPath path).map fun c => if c = unit '\\' then slash else c

/-- What hashLocalRuleClosureFiles passes to the hash, one update after the other. -/
def closureHashInput (cwd repoRootPath : JsString) (sortedFiles : List LocalRuleSourceFile) : Bytes :=
  match sortedFiles with
  | [file] => file.source
  | files => files.flatMap fun file =>
      utf8Bytes (repoRelativePath cwd repoRootPath file.path) ++ [0] ++ file.source ++ [0]

def hashLocalRuleClosureFiles (sha256 : Bytes → JsString) (cwd repoRootPath : JsString)
    (sortedFiles : List LocalRuleSourceFile) : JsString :=
  js "sha256:" ++ sha256 (closureHashInput cwd repoRootPath sortedFiles)

def computeLocalRuleSourceClosureHash (sha256 : Bytes → JsString) (host : ClosureHost) (depth : Nat)
    (entryPath repoRootPath : JsString) : ClosureRun JsString :=
  (collectLocalRuleClosure host depth entryPath).map fun
    | .ok closure => .ok (hashLocalRuleClosureFiles sha256 host.cwd repoRootPath closure.sortedFiles)
    | .error e => .error e

end Musi.LintRatchet
