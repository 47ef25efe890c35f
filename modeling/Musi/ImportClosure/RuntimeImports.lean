import Musi.Js.Text
import Musi.Js.Throw

namespace Musi.ImportClosure
open Musi.Js
set_option autoImplicit true

/-! ## Syntax trees -/

/-- The name that an import or export specifier renames. -/
inductive ModuleExportName where
  | identifier (text : JsString)
  | stringLiteral (text : JsString)
  deriving DecidableEq

structure Specifier where
  isTypeOnly : Bool
  propertyName : Option ModuleExportName
  name : ModuleExportName
  deriving DecidableEq

inductive NamedImportBindings where
  | namespaceImport (name : JsString)
  | namedImports (elements : List Specifier)
  deriving DecidableEq

/-- `isType` is the phase modifier `type`. -/
structure ImportClause where
  isType : Bool
  name : Option JsString
  namedBindings : Option NamedImportBindings
  deriving DecidableEq

inductive NamedExportBindings where
  | namespaceExport (name : ModuleExportName)
  | namedExports (elements : List Specifier)
  deriving DecidableEq

/-- A node of a syntax tree; a kind that the policy does not look at is `other`, and the tokens are
left out. -/
inductive Node where
  | identifier (text : JsString)
  /-- `#name` -/
  | privateIdentifier (name : JsString)
  | stringLiteralLike (text : JsString)
  | importKeyword
  | propertyAccess (expression name : Node)
  | elementAccess (expression argumentExpression : Node)
  | metaProperty (isImport : Bool) (name : JsString)
  | importDeclaration (modifiers : List Node) (importClause : Option ImportClause)
      (moduleSpecifier : Node) (attributes : Option Node)
  | exportDeclaration (modifiers : List Node) (isTypeOnly : Bool)
      (exportClause : Option NamedExportBindings) (moduleSpecifier attributes : Option Node)
  | importEqualsDeclaration (children : List Node)
  /-- `isWith` tells the keyword `with` from the legacy `assert`. -/
  | importAttributes (isWith : Bool) (elements : List Node)
  | importAttribute (name : ModuleExportName) (value : Node)
  | importType (argument : Node) (rest : List Node)
  | literalType (literal : Node)
  | callExpression (expression : Node) (typeArguments arguments : List Node)
  | other (children : List Node)

structure SourceFile where
  fileName : JsString
  statements : List Node

/-- Member name of a `a.b` / `a["b"]` access. -/
def staticMemberName : Node → Option JsString
  | .propertyAccess _ (.identifier text) => some text
  | .propertyAccess _ (.privateIdentifier name) => some (unit '#' :: name)
  | .elementAccess _ (.stringLiteralLike text) => some text
  | _ => none

def stringLiteralText : Node → Option JsString
  | .stringLiteralLike text => some text
  | _ => none

/-! ## The nodes of a tree -/

/-- What the policy asks of the ancestors of a node. -/
inductive Position where
  /-- The expression of a property or element access, which has this static member name. -/
  | receiver (memberName : Option JsString)
  /-- The name of a namespace import, which loads this module. -/
  | namespaceBinding (moduleSpecifier : Option JsString)
  | elsewhere
  deriving DecidableEq

def ModuleExportName.toNode : ModuleExportName → Node
  | identifier text => .identifier text
  | stringLiteral text => .stringLiteralLike text

def ModuleExportName.text : ModuleExportName → JsString
  | identifier text => text
  | stringLiteral text => text

def Specifier.nodes (specifier : Specifier) : List (Position × Node) :=
  (specifier.propertyName.toList ++ [specifier.name]).map fun name => (.elsewhere, name.toNode)

def ImportClause.nodes (moduleSpecifier : Node) (clause : ImportClause) : List (Position × Node) :=
  (clause.name.toList.map fun name => (.elsewhere, .identifier name)) ++
    match clause.namedBindings with
    | none => []
    | some (.namespaceImport name) =>
      [(.namespaceBinding (stringLiteralText moduleSpecifier), .identifier name)]
    | some (.namedImports elements) => elements.flatMap (·.nodes)

def NamedExportBindings.nodes : NamedExportBindings → List (Position × Node)
  | namespaceExport name => [(.elsewhere, name.toNode)]
  | namedExports elements => elements.flatMap (·.nodes)

mutual

/-- A node and the nodes below it, in the order of `ts.forEachChild`. -/
def Node.occurrences (position : Position) : Node → List (Position × Node)
  | .identifier text => [(position, .identifier text)]
  | .privateIdentifier name => [(position, .privateIdentifier name)]
  | .stringLiteralLike text => [(position, .stringLiteralLike text)]
  | .importKeyword => [(position, .importKeyword)]
  | .propertyAccess expression name =>
    (position, .propertyAccess expression name) ::
      (expression.occurrences (.receiver (staticMemberName (.propertyAccess expression name))) ++
        name.occurrences .elsewhere)
  | .elementAccess expression argument =>
    (position, .elementAccess expression argument) ::
      (expression.occurrences (.receiver (staticMemberName (.elementAccess expression argument))) ++
        argument.occurrences .elsewhere)
  | .metaProperty isImport name =>
    [(position, .metaProperty isImport name), (.elsewhere, .identifier name)]
  | .importDeclaration modifiers importClause moduleSpecifier attributes =>
    (position, .importDeclaration modifiers importClause moduleSpecifier attributes) ::
      (occurrencesAll modifiers ++ importClause.toList.flatMap (·.nodes moduleSpecifier) ++
        moduleSpecifier.occurrences .elsewhere ++ occurrencesOptional attributes)
  | .exportDeclaration modifiers isTypeOnly exportClause moduleSpecifier attributes =>
    (position, .exportDeclaration modifiers isTypeOnly exportClause moduleSpecifier attributes) ::
      (occurrencesAll modifiers ++ exportClause.toList.flatMap (·.nodes) ++
        occurrencesOptional moduleSpecifier ++ occurrencesOptional attributes)
  | .importEqualsDeclaration children =>
    (position, .importEqualsDeclaration children) :: occurrencesAll children
  | .importAttributes isWith elements =>
    (position, .importAttributes isWith elements) :: occurrencesAll elements
  | .importAttribute name value =>
    (position, .importAttribute name value) ::
      (.elsewhere, name.toNode) :: value.occurrences .elsewhere
  | .importType argument rest =>
    (position, .importType argument rest) :: (argument.occurrences .elsewhere ++ occurrencesAll rest)
  | .literalType literal => (position, .literalType literal) :: literal.occurrences .elsewhere
  | .callExpression expression typeArguments arguments =>
    (position, .callExpression expression typeArguments arguments) ::
      (expression.occurrences .elsewhere ++ occurrencesAll typeArguments ++
        occurrencesAll arguments)
  | .other children => (position, .other children) :: occurrencesAll children

def occurrencesAll : List Node → List (Position × Node)
  | [] => []
  | node :: nodes => node.occurrences .elsewhere ++ occurrencesAll nodes

def occurrencesOptional : Option Node → List (Position × Node)
  | none => []
  | some node => node.occurrences .elsewhere

end

def SourceFile.occurrences (sourceFile : SourceFile) : List (Position × Node) :=
  occurrencesAll sourceFile.statements

inductive NonStaticSpecifiers where
  | throw
  | skip
  deriving DecidableEq

inductive TypeOnlyImports where
  | skip
  | included
  deriving DecidableEq

structure RuntimeSourceOptions where
  allowedEnvironmentVariables : Option (List JsString) := none
  nonStaticSpecifiers : Option NonStaticSpecifiers := none
  typeOnlyImports : Option TypeOnlyImports := none
  deriving DecidableEq

def commonJsIdentifiers : List JsString := [js "createRequire", js "require"]

def commonJsModuleSpecifiers : List JsString := [js "module", js "node:module"]

def commonJsFileExtensions : List JsString := [js ".cjs", js ".cts"]

def environmentGlobals : List JsString := [js "Bun", js "globalThis", js "process"]

def processModuleSpecifiers : List JsString := [js "process", js "node:process"]

def processNamespaceBinding : JsString := js "process"

def importMetaProperties : List JsString :=
  [js "dir", js "dirname", js "env", js "filename", js "main", js "resolve", js "url"]

/-! ## Messages -/

def commonJsError (fileName detail : JsString) : JsString :=
  fileName ++ js ": CommonJS runtime loading is not supported — " ++ detail ++ js ". " ++
    js "Use a static ESM import so the seed import closure can follow the dependency; " ++
    js "fix the seed code rather than teaching the analyzer."

def policyError (fileName detail : JsString) : JsString :=
  fileName ++ js ": " ++ detail ++ js ". The seed import closure is deliberately coarse and " ++
    js "resolves no aliases; fix the seed code rather than teaching the analyzer."

def quoted (text : JsString) : JsString := js "`" ++ text ++ js "`"

def hasCommonJsExtension (path : JsString) : Bool :=
  commonJsFileExtensions.any fun ext => endsWith path ext

/-! ## Runtime edges -/

def importDeclarationIsRuntime (importClause : Option ImportClause) : Bool :=
  match importClause with
  | none => true
  | some clause =>
    if clause.isType then false
    else if clause.name.isSome then true
    else match clause.namedBindings with
      | none => true
      | some (.namespaceImport _) => true
      | some (.namedImports elements) =>
        elements.length = 0 || elements.any fun element => !element.isTypeOnly

def exportDeclarationIsRuntime (isTypeOnly : Bool) (exportClause : Option NamedExportBindings) :
    Bool :=
  if isTypeOnly then false
  else match exportClause with
    | none => true
    | some (.namespaceExport _) => true
    | some (.namedExports elements) =>
      elements.length = 0 || elements.any fun element => !element.isTypeOnly

def isJsonSpecifier (specifier : Option Node) : Bool :=
  match specifier with
  | some (.stringLiteralLike text) => endsWith text (js ".json")
  | _ => false

section
variable (fileName : JsString)

def supportedAttributes (attributes : Node) (specifier : Option Node) : Bool :=
  match attributes with
  | .importAttributes isWith [.importAttribute name (.stringLiteralLike text)] =>
    isWith && name.text = js "type" && text = js "json" && isJsonSpecifier specifier
  | _ => false

def checkImportAttributes (attributes : Option Node) (specifier : Option Node) :
    Except JsString Unit :=
  match attributes with
  | none => .ok ()
  | some attributes =>
    if supportedAttributes attributes specifier then .ok ()
    else .error (policyError fileName
      (js "the only supported import attribute is `with \x7b type: \"json\" \x7d` on a `.json` specifier"))

/-! ## The edges of a node -/

variable (nonStaticSpecifiers : NonStaticSpecifiers) (typeOnlyImports : TypeOnlyImports)

def recordImport (specifier : Option Node) : Except JsString (List JsString) :=
  match specifier with
  | none => .ok []
  | some specifier =>
    match stringLiteralText specifier with
    | none =>
      if nonStaticSpecifiers = .skip then .ok []
      else .error (policyError fileName
        (js "a runtime import must use a static string specifier so the closure can follow it"))
    | some text =>
      if text ∈ commonJsModuleSpecifiers then
        .error (commonJsError fileName (quoted text ++ js " is imported in value space"))
      else if hasCommonJsExtension text then
        .error (commonJsError fileName (quoted text ++ js " names a CommonJS module"))
      else .ok [text]

def rejectNonStaticTypeSpecifier : Except JsString (List JsString) :=
  if nonStaticSpecifiers = .skip then .ok []
  else .error (policyError fileName
    (js "an import type node must name a static string specifier so the closure can follow it"))

def recordTypeImport (specifier : Option Node) : Except JsString (List JsString) :=
  if typeOnlyImports = .skip then .ok []
  else match specifier with
    | none => .ok []
    | some specifier =>
      match stringLiteralText specifier with
      | some text => .ok [text]
      | none => rejectNonStaticTypeSpecifier fileName nonStaticSpecifiers

def recordImportTypeNode (argument : Node) : Except JsString (List JsString) :=
  if typeOnlyImports = .skip then .ok []
  else match argument with
    | .literalType literal =>
      recordTypeImport fileName nonStaticSpecifiers typeOnlyImports (some literal)
    | _ => rejectNonStaticTypeSpecifier fileName nonStaticSpecifiers

def collectImports (node : Node) : Except JsString (List JsString) :=
  match node with
  | .importDeclaration _ importClause moduleSpecifier attributes =>
    if importDeclarationIsRuntime importClause then do
      checkImportAttributes fileName attributes (some moduleSpecifier)
      recordImport fileName nonStaticSpecifiers (some moduleSpecifier)
    else recordTypeImport fileName nonStaticSpecifiers typeOnlyImports (some moduleSpecifier)
  | .exportDeclaration _ isTypeOnly exportClause moduleSpecifier attributes =>
    if exportDeclarationIsRuntime isTypeOnly exportClause then do
      checkImportAttributes fileName attributes moduleSpecifier
      recordImport fileName nonStaticSpecifiers moduleSpecifier
    else recordTypeImport fileName nonStaticSpecifiers typeOnlyImports moduleSpecifier
  | .importType argument _ =>
    recordImportTypeNode fileName nonStaticSpecifiers typeOnlyImports argument
  | .callExpression .importKeyword _ arguments =>
    match arguments with
    | [argument] => recordImport fileName nonStaticSpecifiers (some argument)
    | _ => .error (policyError fileName
        (js "a dynamic import must pass exactly one static specifier and no import attributes; " ++
          js "use a static import when the load needs an attribute"))
  | _ => .ok []

end

/-! ## The policy -/

/-- The static member that is read of the node. -/
def Position.memberName : Position → Option JsString
  | receiver memberName => memberName
  | _ => none

def isStaticMemberReceiver (position : Position) : Bool := position.memberName.isSome

def isImportMeta : Node → Bool
  | .metaProperty isImport _ => isImport
  | _ => false

def isEnvironmentGlobal : Node → Bool
  | .identifier text => text ∈ environmentGlobals
  | _ => false

/-- The object whose member an access reads. -/
def accessedExpression : Node → Option Node
  | .propertyAccess expression _ => some expression
  | .elementAccess expression _ => some expression
  | _ => none

def isEnvironmentAccess (node : Node) : Bool :=
  match accessedExpression node with
  | none => false
  | some root =>
    staticMemberName node = some (js "env") &&
      (isEnvironmentGlobal root || ((staticMemberName root).getD []) ∈ environmentGlobals ||
        isImportMeta root)

def isProcessNamespaceBinding (position : Position) (text : JsString) : Bool :=
  match position with
  | .namespaceBinding (some moduleSpecifier) =>
    text = processNamespaceBinding && moduleSpecifier ∈ processModuleSpecifiers
  | _ => false

section
variable (fileName : JsString)

def checkImportMeta (position : Position) : Except JsString Unit :=
  match position.memberName with
  | some property =>
    if property ∈ commonJsIdentifiers then
      .error (commonJsError fileName
        (js "`import.meta." ++ property ++ js "` is a CommonJS loader"))
    else if property ∈ importMetaProperties then .ok ()
    else rejected
  | none => rejected
where
  rejected : Except JsString Unit :=
    .error (policyError fileName (js "import.meta must be read as a direct member from the allowlist " ++
      js "(" ++ join (js ", ") importMetaProperties ++ js ")"))

def checkEnvironmentKey (position : Position) (allowed : List JsString) : Except JsString Unit :=
  match position.memberName with
  | none =>
    .error (policyError fileName
      (js "the environment must be read through a direct static key (process.env.DATABASE_URL); " ++
        js "it cannot be aliased, destructured, spread, or read with a computed key"))
  | some key =>
    if key ∈ allowed then .ok ()
    else .error (js "environment key " ++ key ++ js " in " ++ fileName ++
      js " is not allowlisted for template seeding")

def checkEnvironmentToken (position : Position) (text : JsString) : Except JsString Unit :=
  if text ∉ environmentGlobals then .ok ()
  else if isStaticMemberReceiver position || isProcessNamespaceBinding position text then .ok ()
  else .error (policyError fileName (quoted text ++
    js " must be read as a direct static member (process.env.DATABASE_URL); " ++
    js "it cannot be aliased, passed, bound to another name, or reached through another object"))

/-- `binding` is the name of a namespace import. -/
def checkProcessModuleLoad (specifier : Option Node) (binding : Option JsString) :
    Except JsString Unit :=
  match specifier.bind stringLiteralText with
  | none => .ok ()
  | some text =>
    if text ∉ processModuleSpecifiers then .ok ()
    else if binding = some processNamespaceBinding then .ok ()
    else .error (policyError fileName
      (js "the process module may only be loaded as `import * as process from \"node:process\"`, " ++
        js "so its environment reads keep the shape the scan understands"))

def namespaceBindingOf (importClause : Option ImportClause) : Option JsString :=
  match importClause.bind (·.namedBindings) with
  | some (.namespaceImport name) => some name
  | _ => none

def checkEnvironmentPolicy (position : Position) (node : Node) (allowed : List JsString) :
    Except JsString Unit :=
  match node with
  | .identifier text => checkEnvironmentToken fileName position text
  | .importDeclaration _ importClause moduleSpecifier _ =>
    if importDeclarationIsRuntime importClause then
      checkProcessModuleLoad fileName (some moduleSpecifier) (namespaceBindingOf importClause)
    else .ok ()
  | .exportDeclaration _ isTypeOnly exportClause moduleSpecifier _ =>
    if exportDeclarationIsRuntime isTypeOnly exportClause then
      checkProcessModuleLoad fileName moduleSpecifier none
    else .ok ()
  | node => if isEnvironmentAccess node then checkEnvironmentKey fileName position allowed else .ok ()

/-- The checks that do not depend on the environment policy. -/
def checkModulePolicy (position : Position) (node : Node) : Except JsString Unit :=
  match node with
  | .identifier text =>
    if text ∈ commonJsIdentifiers then
      .error (commonJsError fileName
        (js "the identifier " ++ quoted text ++ js " appears in value space"))
    else .ok ()
  | .importEqualsDeclaration _ =>
    .error (commonJsError fileName (js "an import-equals declaration loads a CommonJS module"))
  | .metaProperty isImport _ => if isImport then checkImportMeta fileName position else .ok ()
  | _ => .ok ()

def checkPolicy (allowedEnvironmentVariables : Option (List JsString)) (position : Position)
    (node : Node) : Except JsString Unit := do
  checkModulePolicy fileName position node
  match allowedEnvironmentVariables with
  | none => .ok ()
  | some allowed => checkEnvironmentPolicy fileName position node allowed

end

/-- One node, as `visit` looks at it before its children. -/
def visitNode (fileName : JsString) (options : RuntimeSourceOptions) (imports : List JsString)
    (occurrence : Position × Node) : Except JsString (List JsString) := do
  checkPolicy fileName options.allowedEnvironmentVariables occurrence.1 occurrence.2
  let found ← collectImports fileName (options.nonStaticSpecifiers.getD .throw)
    (options.typeOnlyImports.getD .skip) occurrence.2
  .ok (imports ++ found)

/-- The static import specifiers of a file, or what the policy refuses. -/
def analyzeRuntimeSource (sourceFile : SourceFile) (options : RuntimeSourceOptions) :
    Except JsString (List JsString) :=
  if hasCommonJsExtension sourceFile.fileName then
    .error (commonJsError sourceFile.fileName (js "the file extension declares a CommonJS module"))
  else sourceFile.occurrences.foldlM (visitNode sourceFile.fileName options) []

/-! ## Accepted files -/

theorem checkPolicy_ok {fileName : JsString} {allowed : Option (List JsString)}
    {position : Position} {node : Node} : checkPolicy fileName allowed position node = .ok () ↔
      checkModulePolicy fileName position node = .ok () ∧
      ∀ list, allowed = some list → checkEnvironmentPolicy fileName position node list = .ok () := by
  unfold checkPolicy
  rw [bind_ok]
  constructor
  · rintro ⟨⟨⟩, hmodule, henvironment⟩
    refine ⟨hmodule, fun list hlist => ?_⟩
    rw [hlist] at henvironment
    exact henvironment
  · rintro ⟨hmodule, henvironment⟩
    refine ⟨(), hmodule, ?_⟩
    cases allowed with
    | none => rfl
    | some list => exact henvironment list rfl

/-- Every node of an accepted file passes the policy. -/
theorem checkPolicy_of_ok {sourceFile : SourceFile} {options : RuntimeSourceOptions}
    {imports : List JsString} (h : analyzeRuntimeSource sourceFile options = .ok imports)
    {e : Position × Node} (he : e ∈ sourceFile.occurrences) :
    checkPolicy sourceFile.fileName options.allowedEnvironmentVariables e.1 e.2 = .ok () := by
  rw [analyzeRuntimeSource] at h
  split at h
  · cases h
  · have hall := foldlM_ok (fun _ done => ∀ e ∈ done,
        checkPolicy sourceFile.fileName options.allowedEnvironmentVariables e.1 e.2 = .ok ())
      (fun found a done found' hdone hstep => ?_) h [] (by simp)
    · exact hall e he
    · intro e he
      rcases List.mem_append.1 he with he | he
      · exact hdone e he
      · obtain rfl := List.mem_singleton.1 he
        rw [visitNode, bind_ok] at hstep
        obtain ⟨_, hpolicy, -⟩ := hstep
        exact hpolicy

end Musi.ImportClosure
