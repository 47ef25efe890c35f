import Musi.Js.Table
import Musi.Js.Values

namespace Musi.DriftAi
open Musi.Js
set_option autoImplicit true

section
variable {N : Type}

/-! ## Assumed values -/

inductive EnvDefineAssumedValue (N : Type) where
  | string (value : JsString)
  | number (value : Option N)
  | boolean (value : Bool)
  | null
  deriving DecidableEq

structure EnvDefineAssumption (N : Type) where
  value : EnvDefineAssumedValue N
  source : JsString

inductive EnvDefineProviderConfigKey where
  | processEnv
  | importMetaEnv
  | bunEnv
  | defines
  deriving DecidableEq

inductive EnvDefineReadKind where
  | processEnv
  | importMetaEnv
  | bunEnv
  | define
  deriving DecidableEq

structure EnvDefineProvider where
  configKey : EnvDefineProviderConfigKey
  readKind : EnvDefineReadKind
  sharedEnvFallback : Bool

def ENV_DEFINE_PROVIDERS : List EnvDefineProvider := [
  ⟨.processEnv, .processEnv, true⟩,
  ⟨.importMetaEnv, .importMetaEnv, true⟩,
  ⟨.bunEnv, .bunEnv, true⟩,
  ⟨.defines, .define, false⟩]

def providerFor : EnvDefineReadKind → EnvDefineProvider
  | .processEnv => ⟨.processEnv, .processEnv, true⟩
  | .importMetaEnv => ⟨.importMetaEnv, .importMetaEnv, true⟩
  | .bunEnv => ⟨.bunEnv, .bunEnv, true⟩
  | .define => ⟨.defines, .define, false⟩

/-- No kind of read lacks its provider. -/
theorem find_provider (kind : EnvDefineReadKind) :
    ENV_DEFINE_PROVIDERS.find? (fun candidate => candidate.readKind = kind) =
      some (providerFor kind) := by
  cases kind <;> rfl

structure EnvDefineMatrix (N : Type) where
  env : Option (JsMap (EnvDefineAssumption N)) := none
  processEnv : Option (JsMap (EnvDefineAssumption N)) := none
  importMetaEnv : Option (JsMap (EnvDefineAssumption N)) := none
  bunEnv : Option (JsMap (EnvDefineAssumption N)) := none
  defines : Option (JsMap (EnvDefineAssumption N)) := none

def EnvDefineMatrix.table (matrix : EnvDefineMatrix N) :
    EnvDefineProviderConfigKey → Option (JsMap (EnvDefineAssumption N))
  | .processEnv => matrix.processEnv
  | .importMetaEnv => matrix.importMetaEnv
  | .bunEnv => matrix.bunEnv
  | .defines => matrix.defines

def readAssumption (assumptions : Option (JsMap (EnvDefineAssumption N))) (key : JsString) :
    Option (EnvDefineAssumption N) := assumptions.bind fun assumptions => assumptions.get key

/-- The assumption of the provider, or the shared one where the provider takes it. -/
def readEnvAssumption (matrix : EnvDefineMatrix N) (kind : EnvDefineReadKind) (key : JsString) :
    Option (EnvDefineAssumption N) :=
  let provider := providerFor kind
  let providerAssumption := readAssumption (matrix.table provider.configKey) key
  if providerAssumption.isSome || !provider.sharedEnvFallback then providerAssumption
  else readAssumption matrix.env key

/-! ## Expressions -/

inductive PrefixUnaryOperator where
  | exclamation
  | minus
  | plus
  | other
  deriving DecidableEq

inductive BinaryOperator where
  | ampersandAmpersand
  | barBar
  | equalsEquals
  | exclamationEquals
  | equalsEqualsEquals
  | exclamationEqualsEquals
  | other
  deriving DecidableEq

/-- An expression, as far as the evaluation looks into it. An identifier says whether it stands
where it is read; numeric literals carry the text the scanner leaves of them. -/
inductive Expression where
  | identifier (text : JsString) (isRead : Bool)
  | importMeta
  | propertyAccess (expression : Expression) (name : JsString)
  | elementAccess (expression argumentExpression : Expression)
  | stringLiteral (text : JsString)
  | noSubstitutionTemplateLiteral (text : JsString)
  | numericLiteral (text : JsString)
  | trueKeyword
  | falseKeyword
  | nullKeyword
  | parenthesized (expression : Expression)
  | prefixUnary (operator : PrefixUnaryOperator) (operand : Expression)
  | binary (left : Expression) (operatorToken : BinaryOperator) (right : Expression)
  | other

def matchesEnvObjectReadKind (expression : Expression) (kind : EnvDefineReadKind) : Bool :=
  match kind with
  | .processEnv => isNamedIdentifier expression (js "process")
  | .importMetaEnv => isImportMeta expression
  | .bunEnv => isNamedIdentifier expression (js "Bun")
  | .define => false
where
  isNamedIdentifier (expression : Expression) (text : JsString) : Bool :=
    match expression with
    | .identifier name _ => name = text
    | _ => false
  isImportMeta (expression : Expression) : Bool :=
    match expression with
    | .importMeta => true
    | _ => false

def envObjectKind (expression : Expression) : Option EnvDefineReadKind :=
  match expression with
  | .propertyAccess expression name =>
    if name ≠ js "env" then none
    else (ENV_DEFINE_PROVIDERS.find? fun provider =>
      matchesEnvObjectReadKind expression provider.readKind).map (·.readKind)
  | _ => none

def stringKeyFromElementAccess (argument : Expression) : Option JsString :=
  match argument with
  | .stringLiteral text => some text
  | .noSubstitutionTemplateLiteral text => some text
  | _ => none

/-- The kind and the key of an environment read. -/
def envReadFromNode (node : Expression) : Option (EnvDefineReadKind × JsString) :=
  match node with
  | .propertyAccess expression name => (envObjectKind expression).map fun kind => (kind, name)
  | .elementAccess expression argument =>
    (envObjectKind expression).bind fun kind =>
      (stringKeyFromElementAccess argument).map fun key => (kind, key)
  | _ => none

structure EnvDefineReadRef (N : Type) where
  kind : EnvDefineReadKind
  key : JsString
  assumption : Option (EnvDefineAssumption N)

def readRefFromNode (node : Expression) (matrix : EnvDefineMatrix N) :
    Option (EnvDefineReadRef N) :=
  match envReadFromNode node with
  | some (kind, key) => some { kind, key, assumption := readEnvAssumption matrix kind key }
  | none =>
    match node with
    | .identifier text true =>
      match readEnvAssumption matrix .define text with
      | none => none
      | some assumption => some { kind := .define, key := text, assumption := some assumption }
    | _ => none

end

section
variable {N : Type} [JsNumber N]

inductive EnvDefineBranchPrediction where
  | truthy
  | falsy
  | unknown
  deriving DecidableEq

/-- Whether a value is known, and which; an unknown one is none. -/
abbrev EvaluationValue (N : Type) := Option (EnvDefineAssumedValue N)

/-- Whether the truthiness is known, and which; an unknown one is none. -/
abbrev TruthinessEvaluation := Option Bool

/-! ## Values -/

def isTruthy : EnvDefineAssumedValue N → Bool
  | .null => false
  | .boolean value => value
  | .number none => false
  | .number (some value) => !JsNumber.same value (JsNumber.ofInt 0)
  | .string value => 0 < value.length

/-- `left === right` -/
def strictEqual : EnvDefineAssumedValue N → EnvDefineAssumedValue N → Bool
  | .null, .null => true
  | .boolean left, .boolean right => left = right
  | .number left, .number right => numberEqual left right
  | .string left, .string right => left = right
  | _, _ => false

def sameTypeEqual (left right : EnvDefineAssumedValue N) : Option Bool :=
  match left, right with
  | .boolean _, .boolean _ => some (strictEqual left right)
  | .number _, .number _ => some (strictEqual left right)
  | .string _, .string _ => some (strictEqual left right)
  | _, _ => none

def normalizeBooleanOperand (left right : EnvDefineAssumedValue N) :
    Option (EnvDefineAssumedValue N × EnvDefineAssumedValue N) :=
  match left, right with
  | .boolean left, right => some (.number (booleanNumber left), right)
  | left, .boolean right => some (left, .number (booleanNumber right))
  | _, _ => none

variable [JsConversion N]

def looseEqualNumberAndString (left right : EnvDefineAssumedValue N) : Bool :=
  match left, right with
  | .number left, .string right => numberEqual left (JsConversion.number right)
  | .string left, .number right => numberEqual (JsConversion.number left) right
  | _, _ => false

/-- The booleans that normalizing has still to replace. -/
def booleans (value : EnvDefineAssumedValue N) : Nat :=
  match value with
  | .boolean _ => 1
  | _ => 0

omit [JsConversion N] in
theorem normalizeBooleanOperand_lt {left right : EnvDefineAssumedValue N}
    {normalized : EnvDefineAssumedValue N × EnvDefineAssumedValue N}
    (h : normalizeBooleanOperand left right = some normalized) :
    booleans normalized.1 + booleans normalized.2 < booleans left + booleans right := by
  rw [normalizeBooleanOperand.eq_def] at h
  split at h
  · cases h
    simp [booleans]
  · cases h
    simp [booleans]
  · cases h

def looseEqual (left right : EnvDefineAssumedValue N) : Bool :=
  if left matches .null || right matches .null then strictEqual left right
  else match sameTypeEqual left right with
    | some sameType => sameType
    | none =>
      match h : normalizeBooleanOperand left right with
      | some booleanNormalized => looseEqual booleanNormalized.1 booleanNormalized.2
      | none => looseEqualNumberAndString left right
termination_by booleans left + booleans right
decreasing_by exact normalizeBooleanOperand_lt h

def equalityResult (operator : BinaryOperator) (left right : EnvDefineAssumedValue N) : Bool :=
  if operator = .equalsEquals ∨ operator = .exclamationEquals then looseEqual left right
  else strictEqual left right

def isEqualityOperator (kind : BinaryOperator) : Bool :=
  kind = .equalsEqualsEquals || kind = .exclamationEqualsEquals || kind = .equalsEquals ||
    kind = .exclamationEquals

def isInequalityOperator (kind : BinaryOperator) : Bool :=
  kind = .exclamationEqualsEquals || kind = .exclamationEquals

/-! ## The evaluators -/

def literalValue (expression : Expression) : EvaluationValue N :=
  match expression with
  | .stringLiteral text => some (.string text)
  | .noSubstitutionTemplateLiteral text => some (.string text)
  | .numericLiteral text => some (.number (JsConversion.number text))
  | .trueKeyword => some (.boolean true)
  | .falseKeyword => some (.boolean false)
  | .nullKeyword => some .null
  | _ => none

/-- The value of a read or of a literal. -/
def evaluateSimpleValue (matrix : EnvDefineMatrix N) (expression : Expression) : EvaluationValue N :=
  match readRefFromNode expression matrix with
  | some read => read.assumption.map (·.value)
  | none => literalValue expression

def signedNumericLiteralValue (operator : PrefixUnaryOperator) (operand : Expression) :
    EvaluationValue N :=
  match operand with
  | .numericLiteral text =>
    let value : Option N := JsConversion.number text
    match operator with
    | .minus => some (.number (value.map JsConversion.negate))
    | .plus => some (.number value)
    | _ => none
  | _ => none

def evaluateEquality (operator : BinaryOperator) (left right : EvaluationValue N) :
    EvaluationValue N :=
  match left, right with
  | some left, some right =>
    let equal := equalityResult operator left right
    some (.boolean (if isInequalityOperator operator then !equal else equal))
  | _, _ => none

def evaluateAndTruthiness : TruthinessEvaluation → TruthinessEvaluation → TruthinessEvaluation
  | some false, _ => some false
  | _, some false => some false
  | some true, some true => some true
  | _, _ => none

def evaluateOrTruthiness : TruthinessEvaluation → TruthinessEvaluation → TruthinessEvaluation
  | some true, _ => some true
  | _, some true => some true
  | some false, some false => some false
  | _, _ => none

mutual

/-- Below a `!`, `&&` or `||` the truthiness is evaluated, at every other node the value. -/
def evaluateTruthiness (matrix : EnvDefineMatrix N) : Expression → TruthinessEvaluation
  | .parenthesized expression => evaluateTruthiness matrix expression
  | .prefixUnary .exclamation operand => (evaluateTruthiness matrix operand).map (!·)
  | .prefixUnary operator operand => (signedNumericLiteralValue (N := N) operator operand).map isTruthy
  | .binary left .ampersandAmpersand right =>
    evaluateAndTruthiness (evaluateTruthiness matrix left) (evaluateTruthiness matrix right)
  | .binary left .barBar right =>
    evaluateOrTruthiness (evaluateTruthiness matrix left) (evaluateTruthiness matrix right)
  | .binary left operator right =>
    if isEqualityOperator operator then
      (evaluateEquality operator (evaluateValue matrix left) (evaluateValue matrix right)).map isTruthy
    else none
  | expression => (evaluateSimpleValue matrix expression).map isTruthy

def evaluateValue (matrix : EnvDefineMatrix N) : Expression → EvaluationValue N
  | .parenthesized expression => evaluateValue matrix expression
  | .prefixUnary .exclamation operand => (evaluateTruthiness matrix operand).map fun truthy => .boolean !truthy
  | .prefixUnary operator operand => signedNumericLiteralValue operator operand
  | .binary left operator right =>
    if isEqualityOperator operator then
      evaluateEquality operator (evaluateValue matrix left) (evaluateValue matrix right)
    else none
  | expression => evaluateSimpleValue matrix expression

end

def predictedBranchFor (expression : Expression) (matrix : EnvDefineMatrix N) :
    EnvDefineBranchPrediction :=
  match evaluateTruthiness matrix expression with
  | none => .unknown
  | some truthy => if truthy then .truthy else .falsy

end

end Musi.DriftAi
