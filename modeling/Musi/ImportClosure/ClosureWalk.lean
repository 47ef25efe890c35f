import Musi.Js.Order
import Musi.Js.PosixPath
import Musi.Js.Throw
import Musi.Js.Table
import Musi.ImportClosure.RuntimeImports

namespace Musi.ImportClosure
open Musi.Js
set_option autoImplicit true

structure ClosureOptions extends RuntimeSourceOptions where
  root : JsString
  entry : JsString
  allowedRoots : List JsString
  allowedFiles : List JsString
  externalPackages : List JsString := []
  repositoryPackageImports : List (JsString × JsString) := []
  terminalFiles : List JsString := []

structure ClosureValidation where
  files : List JsString
  violations : List JsString
  deriving DecidableEq

/-- What `import.meta.resolve` makes of a specifier. -/
inductive ResolvedUrl where
  | builtin
  | file (path : JsString)
  | unsupported (url : JsString)

/-- The file system, the module resolution of the host, and the analysis of the files that the walk
reads. -/
structure ClosureHost where
  cwd : JsString
  isFile : JsString → Bool
  realpathSync : JsString → Except JsString JsString
  importMetaResolve : JsString → JsString → Option ResolvedUrl
  analysisOf : JsString → RuntimeSourceOptions → Except JsString (List JsString)

/-! ## Traversal and resolution -/

def sourceResolutionExtensions : List JsString :=
  [js ".ts", js ".tsx", js ".js", js ".mjs", js ".json"]

def terminalExtensions : List JsString := [js ".json"]

def runtimeFileShouldBeTraversed (ext : JsString) (consumerTerminal alreadyTraversed : Bool) :
    Bool := !consumerTerminal && !alreadyTraversed && ext ∉ terminalExtensions

section
variable (host : ClosureHost)

def runtimeResolutionCandidates (base : JsString) : List JsString :=
  if extname base = js ".js" then
    let stem := base.take (base.length - (js ".js").length)
    [base, stem ++ js ".ts", stem ++ js ".tsx"]
  else if extname base ≠ [] then [base]
  else
    (sourceResolutionExtensions.map fun candidate => base ++ candidate) ++
      sourceResolutionExtensions.map fun candidate =>
        resolveFrom host.cwd base (js "index" ++ candidate)

def isAbsolute (path : JsString) : Bool := startsWith path (js "/")

def isWithin (parent child : JsString) : Bool :=
  let pathFromParent := relativePath host.cwd parent child
  pathFromParent = [] || (!startsWith pathFromParent (js "..") && !isAbsolute pathFromParent)

def specifierMatchesPackage (specifier packageName : JsString) : Bool :=
  specifier = packageName || startsWith specifier (packageName ++ js "/")

def localImportBase (root importer specifier : JsString) : Except JsString (Option JsString) :=
  let resolve (directory path : JsString) := resolveFrom host.cwd directory path
  if startsWith specifier (js ".") then .ok (some (resolve (dirname importer) specifier))
  else if specifier = js "@musi/shared" then
    .ok (some (resolve root (js "packages/shared/src/index")))
  else if startsWith specifier (js "@musi/shared/") then
    .ok (some (resolve (resolve root (js "packages/shared/src"))
      (specifier.drop (js "@musi/shared/").length)))
  else if specifier = js "@musi/server" then
    .ok (some (resolve root (js "packages/server/src/index")))
  else if startsWith specifier (js "@musi/server/") then
    .ok (some (resolve (resolve root (js "packages/server/src"))
      (specifier.drop (js "@musi/server/").length)))
  else if startsWith specifier (js "@musi/") then
    .error (js "unsupported repository-local package import " ++ specifier)
  else .ok none

def validateResolvedLocalImport (root specifier importer candidate : JsString) :
    Except JsString JsString := do
  let resolved ← host.realpathSync candidate
  if !isWithin host root resolved then
    .error (js "repository-local import escapes root: " ++ specifier ++ js " from " ++
      relativePath host.cwd root importer)
  else if extname resolved ∉ sourceResolutionExtensions then
    .error (js "repository-local runtime import has unsupported extension: " ++
      relativePath host.cwd root resolved)
  else .ok resolved

def pathUsesNodeModules (path : JsString) : Bool :=
  js "node_modules" ∈ splitOn slash (resolvePath host.cwd path)

def resolveUnmappedRuntimeImport (root importer specifier : JsString) :
    Except JsString (Option JsString) :=
  if specifier = js "bun" then .ok none
  else match host.importMetaResolve specifier importer with
    | none =>
      .error (js "cannot classify runtime import " ++ specifier ++ js " from " ++
        relativePath host.cwd root importer ++
        js "; install the package if it is external, declare it through the consumer's " ++
        js "externalPackages policy in a synthetic tree, or use a supported " ++
        js "repository-local relative/package mapping")
    | some .builtin => .ok none
    | some (.unsupported url) =>
      .error (js "runtime import resolves to unsupported URL " ++ url ++ js " from " ++
        relativePath host.cwd root importer)
    | some (.file resolved) =>
      if pathUsesNodeModules host resolved then .ok none
      else if !host.isFile resolved then
        .error (js "resolved runtime import is not a regular file: " ++ specifier ++ js " from " ++
          relativePath host.cwd root importer)
      else (validateResolvedLocalImport host root specifier importer resolved).map some

structure ImportResolutionContext where
  externalPackages : List JsString
  repositoryPackageImports : JsMap JsString
  root : JsString

def resolveLocalImport (context : ImportResolutionContext) (importer specifier : JsString) :
    Except JsString (Option JsString) :=
  match context.repositoryPackageImports.get specifier with
  | some repositoryPackageImport =>
    if !host.isFile repositoryPackageImport then
      .error (js "repository package import does not resolve to a file: " ++ specifier)
    else (validateResolvedLocalImport host context.root specifier importer
      repositoryPackageImport).map some
  | none =>
    if context.externalPackages.any fun name => specifierMatchesPackage specifier name then .ok none
    else do
      match ← localImportBase host context.root importer specifier with
      | none => resolveUnmappedRuntimeImport host context.root importer specifier
      | some base =>
        match (runtimeResolutionCandidates host base).find? host.isFile with
        | none =>
          .error (js "cannot resolve repository-local import " ++ specifier ++ js " from " ++
            relativePath host.cwd context.root importer)
        | some candidate =>
          (validateResolvedLocalImport host context.root specifier importer candidate).map some

def resolveTerminalFiles (root : JsString) (terminalFiles : List JsString) :
    Except JsString (List JsString) :=
  ((terminalFiles.map fun path => resolveFrom host.cwd root path).filter host.isFile).mapM
    host.realpathSync

/-! ## The walk -/

/-- What the walk was asked for, its paths resolved. -/
structure ClosureContext where
  root : JsString
  entry : JsString
  resolution : ImportResolutionContext
  allowedRoots : List JsString
  allowedFiles : List JsString
  terminalFiles : List JsString
  options : RuntimeSourceOptions

def closureContext (options : ClosureOptions) : Except JsString ClosureContext := do
  let root ← host.realpathSync options.root
  let entry ← host.realpathSync (resolveFrom host.cwd root options.entry)
  let allowedFiles ← options.allowedFiles.mapM fun path =>
    host.realpathSync (resolveFrom host.cwd root path)
  let terminalFiles ← resolveTerminalFiles host root options.terminalFiles
  .ok {
    root, entry, terminalFiles
    resolution :=
      { root
        externalPackages := options.externalPackages
        repositoryPackageImports := JsMap.ofList (options.repositoryPackageImports.map
          fun (specifier, path) => (specifier, resolveFrom host.cwd root path)) }
    allowedRoots := options.allowedRoots.map fun path => resolveFrom host.cwd root path
    allowedFiles := entry :: allowedFiles
    options := options.toRuntimeSourceOptions }

/-- The pending paths come with the next one first. -/
structure WalkState where
  pending : List JsString
  visited : List JsString
  traversed : List JsString
  violations : List JsString

variable (context : ClosureContext)

def isAllowed (imported : JsString) : Bool :=
  imported ∈ context.allowedFiles ||
    context.allowedRoots.any fun allowedRoot => isWithin host allowedRoot imported

def violationText (importer imported : JsString) : JsString :=
  relativePath host.cwd context.root imported ++ js " imported by " ++
    relativePath host.cwd context.root importer

def followImport (importer : JsString) (state : WalkState) (specifier : JsString) :
    Except JsString WalkState := do
  match ← resolveLocalImport host context.resolution importer specifier with
  | none => .ok state
  | some imported =>
    .ok { state with
      violations := if isAllowed host context imported then state.violations
        else state.violations ++ [violationText host context importer imported]
      pending := imported :: state.pending }

/-- One pass of the loop, for the path that was pending last. -/
def walkStep (importer : JsString) (state : WalkState) : Except JsString WalkState :=
  let state := { state with
    visited := if importer ∈ state.visited then state.visited else state.visited ++ [importer] }
  if !runtimeFileShouldBeTraversed (extname importer) (importer ∈ context.terminalFiles)
      (importer ∈ state.traversed) then .ok state
  else do
    let specifiers ← host.analysisOf importer context.options
    specifiers.foldlM (followImport host context importer)
      { state with traversed := state.traversed ++ [importer] }

/-- The loop, by at most as many passes. -/
def walk : Nat → WalkState → Option (Except JsString WalkState)
  | 0, state => if state.pending = [] then some (.ok state) else none
  | fuel + 1, state =>
    match state.pending with
    | [] => some (.ok state)
    | importer :: pending =>
      match walkStep host context importer { state with pending } with
      | .error e => some (.error e)
      | .ok state => walk fuel state

def closureValidation (state : WalkState) : ClosureValidation where
  files := sortStrings (state.visited.map fun path => relativePath host.cwd context.root path)
  violations := sortStrings state.violations

/-- The walk, if it ends in as many passes. -/
def validateSeedImportClosure (options : ClosureOptions) (fuel : Nat) :
    Option (Except JsString ClosureValidation) :=
  match closureContext host options with
  | .error e => some (.error e)
  | .ok context =>
    (walk host context fuel ⟨[context.entry], [], [], []⟩).map fun result =>
      result.map (closureValidation host context)

end

end Musi.ImportClosure
