import Musi.Js.Table
import Musi.Js.Text

namespace Musi.EslintConfig
open Musi.Js
set_option autoImplicit true

/-- `minimatch(path, pattern, MINIMATCH_OPTIONS)` of the package. -/
class Minimatch where
  minimatch (path pattern : JsString) : Bool

export Minimatch (minimatch)

/-! ## Declarations -/

structure RestrictedSyntaxSelector where
  selector : JsString
  message : JsString
  deriving DecidableEq

abbrev RestrictedSyntaxSelectorRegistry := JsMap RestrictedSyntaxSelector

structure RestrictedSyntaxPolicyNode where
  id : JsString
  within : Option JsString := none
  files : List JsString
  ignores : List JsString := []
  selectors : List JsString
  deriving DecidableEq

structure RestrictedSyntaxExceptionNode where
  id : JsString
  within : JsString
  files : List JsString
  ignores : List JsString := []
  remove : List JsString
  global : Bool := false
  deriving DecidableEq

inductive RestrictedSyntaxNode where
  | policy (node : RestrictedSyntaxPolicyNode)
  | exception (node : RestrictedSyntaxExceptionNode)
  deriving DecidableEq

namespace RestrictedSyntaxNode

def id : RestrictedSyntaxNode → JsString
  | policy node => node.id
  | exception node => node.id

def within : RestrictedSyntaxNode → Option JsString
  | policy node => node.within
  | exception node => some node.within

def files : RestrictedSyntaxNode → List JsString
  | policy node => node.files
  | exception node => node.files

def ignores : RestrictedSyntaxNode → List JsString
  | policy node => node.ignores
  | exception node => node.ignores

def isException : RestrictedSyntaxNode → Bool
  | policy _ => false
  | exception _ => true

end RestrictedSyntaxNode

def fail (message : JsString) : Except JsString α :=
  .error (js "restricted-syntax builder: " ++ message)

def quoted (s : JsString) : JsString := js "\"" ++ s ++ js "\""

def assertPositivePatterns (kind id field : JsString) (patterns : List JsString) :
    Except JsString Unit :=
  patterns.forM fun pattern =>
    if startsWith pattern (js "!") then
      fail (kind ++ js " " ++ quoted id ++ js " declares negated pattern " ++ quoted pattern ++
        js " in `" ++ field ++ js "`; this builder proves families disjoint under the assumption " ++
        js "that every pattern is positive, and ESLint re-includes files after a negated ignore. " ++
        js "Narrow the positive patterns (or split the family) instead.")
    else .ok ()

/-- The entries of the input; their selectors are strings by type. -/
def defineRestrictedSyntaxSelectors (input : Entries RestrictedSyntaxSelector) :
    Except JsString RestrictedSyntaxSelectorRegistry :=
  input.foldlM (fun registry (id, selector) =>
    if id = [] then fail (js "every selector needs a non-empty id")
    else if registry.has id then
      fail (js "selector id " ++ quoted id ++ js " is declared twice")
    else .ok (registry.set id selector)) JsMap.empty

def restrictedSyntaxPolicy (declaration : RestrictedSyntaxPolicyNode) :
    Except JsString RestrictedSyntaxPolicyNode := do
  if declaration.files = [] then
    fail (js "policy " ++ quoted declaration.id ++ js " must declare at least one file pattern")
  if declaration.selectors = [] then
    fail (js "policy " ++ quoted declaration.id ++ js " must declare at least one selector id")
  assertPositivePatterns (js "policy") declaration.id (js "files") declaration.files
  assertPositivePatterns (js "policy") declaration.id (js "ignores") declaration.ignores
  return declaration

def restrictedSyntaxException (declaration : RestrictedSyntaxExceptionNode) :
    Except JsString RestrictedSyntaxExceptionNode := do
  if declaration.files = [] then
    fail (js "exception " ++ quoted declaration.id ++ js " must declare at least one file pattern")
  if declaration.remove = [] then
    fail (js "exception " ++ quoted declaration.id ++ js " must remove at least one selector id")
  assertPositivePatterns (js "exception") declaration.id (js "files") declaration.files
  assertPositivePatterns (js "exception") declaration.id (js "ignores") declaration.ignores
  return declaration

/-! ## Families -/

/-- GLOB_MAGIC_CHARACTER: `*`, `?`, brackets, braces, `!`, `+`, `@` and parentheses. -/
def globMagicCharacters : List UInt16 :=
  [0x2A, 0x3F, 0x5B, 0x5D, 0x7B, 0x7D, 0x21, 0x2B, 0x40, 0x28, 0x29]

def isGlobMagic (c : UInt16) : Bool := globMagicCharacters.contains c

def staticPrefix (pattern : JsString) : JsString := pattern.takeWhile fun c => !isGlobMagic c

def isLiteralPath (pattern : JsString) : Bool := pattern.all fun c => !isGlobMagic c

/-- Root first, ending at the node itself. -/
abbrev Chain := { chain : List RestrictedSyntaxNode // chain ≠ [] }

structure ResolvedFamily where
  node : RestrictedSyntaxNode
  depth : Nat
  chain : List RestrictedSyntaxNode
  fileGroups : List (List JsString)
  ignores : List JsString
  selectorIds : List JsString
  deriving DecidableEq

/-- Two nodes of one id are refused, so equal nodes are one object. -/
def indexNodes (nodes : List RestrictedSyntaxNode) : Except JsString (JsMap RestrictedSyntaxNode) :=
  nodes.foldlM (fun byId node =>
    if byId.has node.id then
      fail (js "policy or exception id " ++ quoted node.id ++ js " is declared twice")
    else .ok (byId.set node.id node)) JsMap.empty

def withinCycle (node : RestrictedSyntaxNode) : Except JsString α :=
  fail (quoted node.id ++ js " sits in a `within` cycle")

def exceptionParent (current parent : RestrictedSyntaxNode) : Except JsString α :=
  fail (quoted current.id ++ js " declares exception " ++ quoted parent.id ++
    js " as its parent; exceptions are terminal, so a family can only ever lose selectors below " ++
    js "one. To add selectors inside that family, re-express " ++ quoted parent.id ++
    js " as a policy node covering the same files (with the selectors it keeps) and demote its " ++
    js "removal to an exception nested under it, then nest " ++ quoted current.id ++
    js " under that new policy.")

/-- The loop of `chainOf` with the chain so far. A chain has no more nodes than the index, so the
loop is over before the fuel is. -/
def chainFrom (node : RestrictedSyntaxNode) (byId : JsMap RestrictedSyntaxNode) :
    Nat → RestrictedSyntaxNode → List RestrictedSyntaxNode → Except JsString Chain
  | 0, _, _ => withinCycle node
  | fuel + 1, current, chain =>
    if current ∈ chain then withinCycle node
    else match current.within with
      | none => .ok ⟨current :: chain, List.cons_ne_nil _ _⟩
      | some parentId =>
        match byId.get parentId with
        | none => fail (quoted current.id ++ js " declares unknown parent " ++ quoted parentId)
        | some parent =>
          if parent.isException then exceptionParent current parent
          else chainFrom node byId fuel parent (current :: chain)

def chainOf (node : RestrictedSyntaxNode) (byId : JsMap RestrictedSyntaxNode) :
    Except JsString Chain := chainFrom node byId (byId.entries.length + 1) node []

def applySelector (selectors : RestrictedSyntaxSelectorRegistry) (node : RestrictedSyntaxPolicyNode)
    (applied : List JsString) (id : JsString) : Except JsString (List JsString) :=
  if !selectors.has id then
    fail (js "policy " ++ quoted node.id ++ js " references unknown selector id " ++ quoted id)
  else if id ∈ applied then
    fail (js "policy " ++ quoted node.id ++ js " re-adds selector id " ++ quoted id ++
      js " already applied to its family")
  else .ok (applied ++ [id])

def removeSelector (selectors : RestrictedSyntaxSelectorRegistry)
    (node : RestrictedSyntaxExceptionNode) (applied : List JsString) (id : JsString) :
    Except JsString (List JsString) :=
  if !selectors.has id then
    fail (js "exception " ++ quoted node.id ++ js " removes unknown selector id " ++ quoted id)
  else if id ∈ applied then .ok (applied.erase id)
  else fail (js "exception " ++ quoted node.id ++ js " removes selector id " ++ quoted id ++
    js ", which its family never applies")

def composeNode (selectors : RestrictedSyntaxSelectorRegistry) (applied : List JsString) :
    RestrictedSyntaxNode → Except JsString (List JsString)
  | .policy node => node.selectors.foldlM (applySelector selectors node) applied
  | .exception node => node.remove.foldlM (removeSelector selectors node) applied

def composeSelectorIds (chain : List RestrictedSyntaxNode)
    (selectors : RestrictedSyntaxSelectorRegistry) : Except JsString (List JsString) :=
  chain.foldlM (composeNode selectors) []

def resolveFamily (chain : Chain) (selectors : RestrictedSyntaxSelectorRegistry) :
    Except JsString ResolvedFamily := do
  let selectorIds ← composeSelectorIds chain.1 selectors
  return {
    node := chain.1.getLast chain.2
    depth := chain.1.length - 1
    chain := chain.1
    fileGroups := chain.1.map (·.files)
    ignores := (chain.1.flatMap (·.ignores)).eraseDups
    selectorIds }

/-! ## Checks -/

variable [Minimatch]

def familyMatches (family : ResolvedFamily) (path : JsString) : Bool :=
  if family.ignores.any (minimatch path ·) then false
  else family.fileGroups.all fun group => group.any (minimatch path ·)

def excludedByIgnores (x y : ResolvedFamily) : Bool :=
  x.node.files.all (y.ignores.contains ·)

def excludedByLiteralPaths (x y : ResolvedFamily) : Bool :=
  x.node.files.all isLiteralPath && x.node.files.all fun path => !familyMatches y path

def excludedByPrefix (a b : ResolvedFamily) : Bool :=
  a.node.files.all fun left => b.node.files.all fun right =>
    !startsWith (staticPrefix left) (staticPrefix right) &&
      !startsWith (staticPrefix right) (staticPrefix left)

def provablyDisjoint (a b : ResolvedFamily) : Bool :=
  excludedByIgnores a b || excludedByIgnores b a || excludedByLiteralPaths a b ||
    excludedByLiteralPaths b a || excludedByPrefix a b

def assertNarrowsParent (family parent : ResolvedFamily) : Except JsString Unit :=
  match family.node with
  | .policy _ => .ok ()
  | .exception node =>
    if node.global then .ok ()
    else if node.files.all isLiteralPath && node.files.all (familyMatches parent ·) then .ok ()
    else fail (js "exception " ++ quoted node.id ++ js " is not provably narrower than policy " ++
      quoted parent.node.id ++
      js "; list literal paths inside that family or mark it `global: true`")

def assertUnambiguous (left right : ResolvedFamily) : Except JsString Unit :=
  if right.node ∈ left.chain ∨ left.node ∈ right.chain then .ok ()
  else if provablyDisjoint left right then .ok ()
  else fail (js "families " ++ quoted left.node.id ++ js " and " ++ quoted right.node.id ++
    js " are neither nested nor provably disjoint, so a file matching both would resolve by " ++
    js "emission order. Fixes, in order of preference: narrow one family; or list one family's " ++
    js "`files` patterns in the other's `ignores` — that proof compares patterns by exact string " ++
    js "equality, so an equivalent but differently-spelled glob will not satisfy it and you must " ++
    js "copy the patterns verbatim; or, when the family you overlap is a `global: true` exception " ++
    js "(whose whole point is to cut across the tree), re-express that exception as a policy node " ++
    js "with its removal demoted to a nested exception and nest this family under it.")

def assertFamiliesAreUnambiguous : List ResolvedFamily → Except JsString Unit
  | [] => .ok ()
  | left :: rest => do
    rest.forM (assertUnambiguous left)
    assertFamiliesAreUnambiguous rest

/-- Array.prototype.indexOf. -/
def indexOf (order : List JsString) (id : JsString) : Int :=
  if id ∈ order then order.idxOf id else -1

/-- Array.prototype.lastIndexOf. -/
def lastIndexOf (order : List JsString) (id : JsString) : Int :=
  if id ∈ order then order.length - 1 - order.reverse.idxOf id else -1

def assertOrderCoversSelectors (selectors : RestrictedSyntaxSelectorRegistry)
    (order : List JsString) : Except JsString Unit := do
  order.forM fun id =>
    if !selectors.has id then fail (js "`order` lists unknown selector id " ++ quoted id)
    else if indexOf order id ≠ lastIndexOf order id then
      fail (js "`order` lists " ++ quoted id ++ js " twice")
    else .ok ()
  selectors.keys.forM fun id =>
    if id ∈ order then .ok ()
    else fail (js "selector id " ++ quoted id ++ js " is missing from `order`")

/-! ## Emitted configs -/

/-- An entry of `files`: a nested array is a conjunction. -/
inductive FilePattern where
  | one (pattern : JsString)
  | all (patterns : List JsString)
  deriving DecidableEq

inductive RuleEntry where
  | off
  | error (applied : List (Option RestrictedSyntaxSelector))
  deriving DecidableEq

/-- The only rule of an emitted config is `no-restricted-syntax`. -/
structure EmittedConfig where
  name : JsString
  files : List FilePattern
  ignores : List JsString
  rule : RuleEntry
  deriving DecidableEq

/-- A combination is the own pattern and then those of the ancestors. -/
def dropRedundantAncestorPatterns : List JsString → List JsString
  | [] => []
  | own :: ancestors =>
    if isLiteralPath own then own :: ancestors.filter fun pattern => !minimatch own pattern
    else own :: ancestors

/-- The combinations after a group: every one so far with every pattern of the group. -/
def extendCombinations (combinations : List (List JsString)) (group : List JsString) :
    List (List JsString) :=
  combinations.flatMap fun combination => group.map fun pattern => combination ++ [pattern]

def filePattern : List JsString → FilePattern
  | [pattern] => .one pattern
  | patterns => .all patterns

def intersectFileGroups (fileGroups : List (List JsString)) : List FilePattern :=
  ((fileGroups.reverse.foldl extendCombinations [[]]).map dropRedundantAncestorPatterns).map
    filePattern

def emitConfig (family : ResolvedFamily) (selectors : RestrictedSyntaxSelectorRegistry)
    (order : List JsString) : EmittedConfig :=
  let ids := sortBy (fun a b => indexOf order a - indexOf order b) family.selectorIds
  let applied := ids.map selectors.get
  { name := js "musi/restricted-syntax/" ++ family.node.id
    files := intersectFileGroups family.fileGroups
    ignores := family.ignores
    rule := if applied = [] then .off else .error applied }

structure RestrictedSyntaxDeclaration where
  selectors : RestrictedSyntaxSelectorRegistry
  policies : List RestrictedSyntaxPolicyNode
  exceptions : List RestrictedSyntaxExceptionNode
  order : List JsString

namespace RestrictedSyntaxDeclaration

def nodes (declaration : RestrictedSyntaxDeclaration) : List RestrictedSyntaxNode :=
  declaration.policies.map .policy ++ declaration.exceptions.map .exception

end RestrictedSyntaxDeclaration

def assertNarrowsNamedParent (familyById : JsMap ResolvedFamily) (family : ResolvedFamily) :
    Except JsString Unit :=
  match family.node.within with
  | none => .ok ()
  | some parentId =>
    match familyById.get parentId with
    | none => .ok ()
    | some parent => assertNarrowsParent family parent

def resolveNode (byId : JsMap RestrictedSyntaxNode) (selectors : RestrictedSyntaxSelectorRegistry)
    (node : RestrictedSyntaxNode) : Except JsString ResolvedFamily := do
  resolveFamily (← chainOf node byId) selectors

def emissionOrder (families : List ResolvedFamily) : List ResolvedFamily :=
  sortBy (fun a b => (a.depth : Int) - b.depth) families

def buildRestrictedSyntaxConfigs (declaration : RestrictedSyntaxDeclaration) :
    Except JsString (List EmittedConfig) := do
  assertOrderCoversSelectors declaration.selectors declaration.order
  let byId ← indexNodes declaration.nodes
  let families ← declaration.nodes.mapM (resolveNode byId declaration.selectors)
  let familyById := JsMap.ofList (families.map fun family => (family.node.id, family))
  families.forM (assertNarrowsNamedParent familyById)
  assertFamiliesAreUnambiguous families
  return (emissionOrder families).map fun family =>
    emitConfig family declaration.selectors declaration.order

/-! ## What flat config makes of the emitted configs -/

def FilePattern.matchesPath (path : JsString) : FilePattern → Bool
  | .one pattern => minimatch path pattern
  | .all patterns => patterns.all (minimatch path ·)

def EmittedConfig.matchesPath (config : EmittedConfig) (path : JsString) : Bool :=
  config.files.any (·.matchesPath path) && !config.ignores.any (minimatch path ·)

def matchingConfigs (configs : List EmittedConfig) (path : JsString) : List EmittedConfig :=
  configs.filter (·.matchesPath path)

structure ResolvedRule where
  severity : Nat
  options : List (Option RestrictedSyntaxSelector)
  deriving DecidableEq

/-- An entry replaces the one before it; a severity alone keeps the options. -/
def mergeRule (previous : Option ResolvedRule) : RuleEntry → ResolvedRule
  | .off => { severity := 0, options := (previous.map (·.options)).getD [] }
  | .error applied => { severity := 2, options := applied }

/-- The rule entry of a path, if any config matches it. -/
def resolvedRule (configs : List EmittedConfig) (path : JsString) : Option ResolvedRule :=
  (matchingConfigs configs path).foldl (fun previous config => some (mergeRule previous config.rule))
    none

end Musi.EslintConfig
