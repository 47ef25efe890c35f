import Musi.ImportClosure.RuntimeImports

namespace Musi.ImportClosure
open Musi.Js
set_option autoImplicit true

/-! ## Every node below a node is a node of the tree -/

/-- With a node, the list holds the nodes below it. -/
def Closed (occurrences : List (Position × Node)) : Prop :=
  ∀ e ∈ occurrences, ∀ below ∈ e.2.occurrences e.1, below ∈ occurrences

theorem closed_nil : Closed [] := by
  intro e he
  cases he

theorem Closed.append {l m : List (Position × Node)} (hl : Closed l) (hm : Closed m) :
    Closed (l ++ m) := by
  intro e he below hbelow
  rw [List.mem_append] at he ⊢
  rcases he with he | he
  · exact .inl (hl e he below hbelow)
  · exact .inr (hm e he below hbelow)

theorem Closed.node {position : Position} {node : Node} {rest : List (Position × Node)}
    (h : Closed rest) (hnode : node.occurrences position = (position, node) :: rest) :
    Closed (node.occurrences position) := by
  rw [hnode]
  intro e he below hbelow
  rcases List.mem_cons.1 he with rfl | he
  · rwa [hnode] at hbelow
  · exact List.mem_cons_of_mem _ (h e he below hbelow)

theorem closed_leaves {leaves : List (Position × Node)}
    (h : ∀ e ∈ leaves, e.2.occurrences e.1 = [e]) : Closed leaves := by
  intro e he below hbelow
  rw [h e he, List.mem_singleton] at hbelow
  rw [hbelow]
  exact he

theorem ModuleExportName.leaf (name : ModuleExportName) (position : Position) :
    name.toNode.occurrences position = [(position, name.toNode)] := by
  cases name <;> rfl

theorem ModuleExportName.closed (name : ModuleExportName) : Closed [(.elsewhere, name.toNode)] := by
  refine closed_leaves fun e he => ?_
  obtain rfl := List.mem_singleton.1 he
  exact name.leaf .elsewhere

theorem Specifier.leaf {specifier : Specifier} {e : Position × Node} (h : e ∈ specifier.nodes) :
    e.2.occurrences e.1 = [e] := by
  obtain ⟨name, -, rfl⟩ := List.mem_map.1 h
  exact name.leaf .elsewhere

theorem ImportClause.closed (moduleSpecifier : Node) (clause : ImportClause) :
    Closed (clause.nodes moduleSpecifier) := by
  refine closed_leaves fun e he => ?_
  rw [ImportClause.nodes, List.mem_append] at he
  rcases he with he | he
  · obtain ⟨name, -, rfl⟩ := List.mem_map.1 he
    rfl
  · split at he
    · cases he
    · rw [List.mem_singleton] at he
      rw [he]
      rfl
    · obtain ⟨specifier, -, he⟩ := List.mem_flatMap.1 he
      exact specifier.leaf he

theorem NamedExportBindings.closed (bindings : NamedExportBindings) : Closed bindings.nodes := by
  refine closed_leaves fun e he => ?_
  cases bindings with
  | namespaceExport name =>
    obtain rfl := List.mem_singleton.1 he
    exact name.leaf .elsewhere
  | namedExports elements =>
    obtain ⟨specifier, -, he⟩ := List.mem_flatMap.1 he
    exact specifier.leaf he

theorem closed_toList {α : Type} {nodes : α → List (Position × Node)} (h : ∀ a, Closed (nodes a))
    (o : Option α) : Closed (o.toList.flatMap nodes) := by
  cases o with
  | none => exact closed_nil
  | some a =>
    rw [Option.toList_some, List.flatMap_cons, List.flatMap_nil, List.append_nil]
    exact h a

mutual

theorem Node.closed (position : Position) : ∀ node : Node, Closed (node.occurrences position)
  | .identifier _ => closed_nil.node rfl
  | .privateIdentifier _ => closed_nil.node rfl
  | .stringLiteralLike _ => closed_nil.node rfl
  | .importKeyword => closed_nil.node rfl
  | .propertyAccess expression name =>
    ((Node.closed _ expression).append (Node.closed _ name)).node rfl
  | .elementAccess expression argument =>
    ((Node.closed _ expression).append (Node.closed _ argument)).node rfl
  | .metaProperty _ name => (Node.closed .elsewhere (.identifier name)).node rfl
  | .importDeclaration modifiers importClause moduleSpecifier attributes =>
    ((((closedAll modifiers).append (closed_toList (·.closed moduleSpecifier) importClause)).append
      (Node.closed _ moduleSpecifier)).append (closedOptional attributes)).node rfl
  | .exportDeclaration modifiers _ exportClause moduleSpecifier attributes =>
    ((((closedAll modifiers).append (closed_toList (·.closed) exportClause)).append
      (closedOptional moduleSpecifier)).append (closedOptional attributes)).node rfl
  | .importEqualsDeclaration children => (closedAll children).node rfl
  | .importAttributes _ elements => (closedAll elements).node rfl
  | .importAttribute name value =>
    (name.closed.append (Node.closed _ value)).node rfl
  | .importType argument rest => ((Node.closed _ argument).append (closedAll rest)).node rfl
  | .literalType literal => (Node.closed _ literal).node rfl
  | .callExpression expression typeArguments arguments =>
    (((Node.closed _ expression).append (closedAll typeArguments)).append
      (closedAll arguments)).node rfl
  | .other children => (closedAll children).node rfl

theorem closedAll : ∀ nodes : List Node, Closed (occurrencesAll nodes)
  | [] => closed_nil
  | node :: nodes => (Node.closed _ node).append (closedAll nodes)

theorem closedOptional : ∀ node : Option Node, Closed (occurrencesOptional node)
  | none => closed_nil
  | some node => Node.closed _ node

end

/-! ## What an accepted file does with the environment -/

/-- A global that carries the environment, or static accesses from one. -/
def startsAtGlobal : Node → Bool
  | .identifier text => text ∈ environmentGlobals
  | .propertyAccess expression name =>
    startsAtGlobal expression && (staticMemberName (.propertyAccess expression name)).isSome
  | .elementAccess expression argument =>
    startsAtGlobal expression && (staticMemberName (.elementAccess expression argument)).isSome
  | _ => false

/-- An identifier `process`, `Bun` or `globalThis`, or static accesses that end in one of them. -/
def denotesGlobal (node : Node) : Bool :=
  match accessedExpression node with
  | none => isEnvironmentGlobal node
  | some root => startsAtGlobal root && (staticMemberName node).getD [] ∈ environmentGlobals

/-- `.env` of a global or of `import.meta`. -/
def denotesEnvironment (node : Node) : Bool :=
  match accessedExpression node with
  | none => false
  | some root => staticMemberName node = some (js "env") && (denotesGlobal root || isImportMeta root)

/-- The name that a namespace import binds, which is no expression. -/
def isNamespaceBinding : Position × Node → Bool
  | (.namespaceBinding _, .identifier _) => true
  | _ => false

/-- Globals are only read from, and the environment only by an allowed key. -/
structure Confined (sourceFile : SourceFile) (allowed : List JsString) : Prop where
  globals : ∀ e ∈ sourceFile.occurrences, denotesGlobal e.2 = true →
    isStaticMemberReceiver e.1 = true ∨ isNamespaceBinding e = true
  environment : ∀ e ∈ sourceFile.occurrences, denotesEnvironment e.2 = true →
    ∃ key ∈ allowed, e.1.memberName = some key

/-- Globals that are spelled as a string in brackets are only read from. -/
def BracketsRead (sourceFile : SourceFile) : Prop :=
  ∀ position expression text,
    (position, .elementAccess expression (.stringLiteralLike text)) ∈ sourceFile.occurrences →
    startsAtGlobal expression = true → text ∈ environmentGlobals →
    isStaticMemberReceiver position = true

section
variable {sourceFile : SourceFile} {options : RuntimeSourceOptions} {allowed imports : List JsString}

/-- The environment policy is what an accepted node passes. -/
theorem checkEnvironmentPolicy_of_ok (hallowed : options.allowedEnvironmentVariables = some allowed)
    (h : analyzeRuntimeSource sourceFile options = .ok imports) {e : Position × Node}
    (he : e ∈ sourceFile.occurrences) :
    checkEnvironmentPolicy sourceFile.fileName e.1 e.2 allowed = .ok () := by
  exact (checkPolicy_ok.1 (checkPolicy_of_ok h he)).2 allowed hallowed

/-- An identifier that names a global is read from, or bound by the namespace import. -/
theorem identifier_of_ok (hallowed : options.allowedEnvironmentVariables = some allowed)
    (h : analyzeRuntimeSource sourceFile options = .ok imports) {position : Position}
    {text : JsString} (he : (position, Node.identifier text) ∈ sourceFile.occurrences)
    (htext : text ∈ environmentGlobals) :
    isStaticMemberReceiver position = true ∨ isProcessNamespaceBinding position text = true := by
  have hcheck := checkEnvironmentPolicy_of_ok hallowed h he
  dsimp only [checkEnvironmentPolicy] at hcheck
  rw [checkEnvironmentToken, if_neg (not_not.2 htext)] at hcheck
  split at hcheck
  · next hread => exact Bool.or_eq_true_iff.1 hread
  · cases hcheck

theorem isEnvironmentAccess_of_denotes {node : Node} (h : denotesEnvironment node = true) :
    isEnvironmentAccess node = true := by
  rw [denotesEnvironment] at h
  rw [isEnvironmentAccess]
  cases hroot : accessedExpression node with
  | none =>
    rw [hroot] at h
    cases h
  | some root =>
    rw [hroot] at h
    dsimp only
    obtain ⟨hname, hdenotes⟩ := Bool.and_eq_true_iff.1 h
    rw [hname, Bool.true_and, Bool.or_eq_true, Bool.or_eq_true]
    rcases Bool.or_eq_true_iff.1 hdenotes with hglobal | hmeta
    · rw [denotesGlobal] at hglobal
      split at hglobal
      · exact .inl (.inl hglobal)
      · exact .inl (.inr (Bool.and_eq_true_iff.1 hglobal).2)
    · exact .inr hmeta

theorem environment_of_ok (hallowed : options.allowedEnvironmentVariables = some allowed)
    (h : analyzeRuntimeSource sourceFile options = .ok imports) {e : Position × Node}
    (he : e ∈ sourceFile.occurrences) (henvironment : denotesEnvironment e.2 = true) :
    ∃ key ∈ allowed, e.1.memberName = some key := by
  have hcheck := checkEnvironmentPolicy_of_ok hallowed h he
  have haccess := isEnvironmentAccess_of_denotes henvironment
  have hkey : checkEnvironmentKey sourceFile.fileName e.1 allowed = .ok () := by
    obtain ⟨position, node⟩ := e
    cases node with
    | propertyAccess expression name =>
      dsimp only [checkEnvironmentPolicy] at hcheck
      rwa [if_pos haccess] at hcheck
    | elementAccess expression argument =>
      dsimp only [checkEnvironmentPolicy] at hcheck
      rwa [if_pos haccess] at hcheck
    | _ => cases haccess
  rw [checkEnvironmentKey] at hkey
  split at hkey
  · cases hkey
  · next key hname =>
    split at hkey
    · next hmem => exact ⟨key, hmem, hname⟩
    · cases hkey

/-- A dot never reaches a global: its name is an identifier that nothing is read of. -/
theorem dot_of_ok (hallowed : options.allowedEnvironmentVariables = some allowed)
    (h : analyzeRuntimeSource sourceFile options = .ok imports) {position : Position}
    {expression name : Node}
    (he : (position, Node.propertyAccess expression name) ∈ sourceFile.occurrences) :
    (staticMemberName (.propertyAccess expression name)).getD [] ∉ environmentGlobals := by
  intro hname
  cases name with
  | identifier text =>
    have hbelow : (Position.elsewhere, Node.identifier text) ∈ sourceFile.occurrences := by
      refine closedAll sourceFile.statements _ he _ ?_
      rw [Node.occurrences]
      exact List.mem_cons_of_mem _ (List.mem_append_right _ List.mem_cons_self)
    rcases identifier_of_ok hallowed h hbelow hname with hread | hbinding
    · cases hread
    · cases hbinding
  | privateIdentifier name =>
    have hhash : ∀ text ∈ environmentGlobals, text.head? ≠ some (unit '#') := by decide
    exact hhash _ hname rfl
  | _ =>
    have hnil : ([] : JsString) ∉ environmentGlobals := by decide
    exact hnil hname

/-- An accepted file confines the environment exactly when the globals in brackets are only read
from. -/
theorem analyzeRuntimeSource_confines (sourceFile : SourceFile) (options : RuntimeSourceOptions)
    (allowed imports : List JsString) (hallowed : options.allowedEnvironmentVariables = some allowed)
    (h : analyzeRuntimeSource sourceFile options = .ok imports) :
    Confined sourceFile allowed ↔ BracketsRead sourceFile := by
  constructor
  · intro hconfined position expression text he hstart htext
    have hdenotes : denotesGlobal (.elementAccess expression (.stringLiteralLike text)) = true := by
      simp only [denotesGlobal, accessedExpression, staticMemberName, hstart, Option.getD_some,
        htext, decide_true, Bool.and_self]
    rcases hconfined.globals _ he hdenotes with hread | hbinding
    · exact hread
    · cases position <;> cases hbinding
  · intro hbrackets
    refine ⟨fun e he hdenotes => ?_, fun e he => environment_of_ok hallowed h he⟩
    obtain ⟨position, node⟩ := e
    rw [denotesGlobal] at hdenotes
    cases node with
    | identifier text =>
      rcases identifier_of_ok hallowed h he (of_decide_eq_true hdenotes) with hread | hbinding
      · exact .inl hread
      · right
        cases position with
        | namespaceBinding moduleSpecifier => rfl
        | _ => cases hbinding
    | propertyAccess expression name =>
      have hname := of_decide_eq_true (Bool.and_eq_true_iff.1 hdenotes).2
      exact absurd hname (dot_of_ok hallowed h he)
    | elementAccess expression argument =>
      obtain ⟨hstart, hname⟩ := Bool.and_eq_true_iff.1 hdenotes
      have hname := of_decide_eq_true hname
      cases argument with
      | stringLiteralLike text => exact .inl (hbrackets _ _ text he hstart hname)
      | _ =>
        have hnil : ([] : JsString) ∉ environmentGlobals := by decide
        exact absurd hname hnil
    | _ => cases hdenotes

end

/-! ## The process in brackets -/

/-- `void globalThis["process"].env.DATABASE_URL` -/
def readsInBrackets : SourceFile where
  fileName := js "seed.ts"
  statements := [.other [.propertyAccess (.propertyAccess (.elementAccess
    (.identifier (js "globalThis")) (.stringLiteralLike (js "process"))) (.identifier (js "env")))
    (.identifier (js "DATABASE_URL"))]]

theorem analyzeRuntimeSource_confines_read :
    Confined readsInBrackets [js "DATABASE_URL"] := by
  refine (analyzeRuntimeSource_confines readsInBrackets
    { allowedEnvironmentVariables := some [js "DATABASE_URL"] } _ [] rfl (by rfl)).2 ?_
  intro position expression text he _ _
  simp [SourceFile.occurrences, readsInBrackets, occurrencesAll, Node.occurrences] at he
  rw [he.1]
  rfl

/-- `const runtime = globalThis["process"]` -/
def aliasesInBrackets : SourceFile where
  fileName := js "seed.ts"
  statements := [.other [.identifier (js "runtime"), .elementAccess
    (.identifier (js "globalThis")) (.stringLiteralLike (js "process"))]]

/-- The process is passed on, and the file accepted. -/
theorem analyzeRuntimeSource_confines_fails : ¬ ∀ (sourceFile : SourceFile)
    (options : RuntimeSourceOptions) (allowed imports : List JsString),
    options.allowedEnvironmentVariables = some allowed →
    analyzeRuntimeSource sourceFile options = .ok imports → Confined sourceFile allowed := by
  intro h
  have hconfined := h aliasesInBrackets { allowedEnvironmentVariables := some [] } [] [] rfl (by rfl)
  have hread := hconfined.globals (.elsewhere, .elementAccess (.identifier (js "globalThis"))
    (.stringLiteralLike (js "process"))) (by simp [SourceFile.occurrences, aliasesInBrackets,
      occurrencesAll, Node.occurrences]) (by decide)
  revert hread
  decide

end Musi.ImportClosure
