import Musi.Js.Number
import Musi.DriftAi.EnvDefineEvaluation

namespace Musi.DriftAi
open Musi.Js
set_option autoImplicit true

variable {N : Type} [JsNumber N] [JsConversion N]

/-! ## What an expression evaluates to -/

/-- The values that the reads may give. -/
structure Environment (N : Type) where
  gives : EnvDefineReadKind → JsString → JsValue N → Prop

/-- Nothing is asked of the value of such an expression. -/
def isOpaque : Expression → Bool
  | .identifier _ isRead => !isRead
  | .importMeta => true
  | .propertyAccess expression name => (envReadFromNode (.propertyAccess expression name)).isNone
  | .elementAccess expression argument => (envReadFromNode (.elementAccess expression argument)).isNone
  | .prefixUnary .exclamation _ => false
  | .prefixUnary .minus (.numericLiteral _) => false
  | .prefixUnary .plus (.numericLiteral _) => false
  | .prefixUnary _ _ => true
  | .binary _ .other _ => true
  | .other => true
  | _ => false

/-- What the two values of an equality may compare to. -/
def Compares (operator : BinaryOperator) (left right : JsValue N) (result : Bool) : Prop :=
  match operator with
  | .equalsEquals => looselyEqual left right = some result ∨ looselyEqual left right = none
  | .exclamationEquals => looselyEqual left right = some (!result) ∨ looselyEqual left right = none
  | .equalsEqualsEquals => strictlyEqual left right = some result ∨ strictlyEqual left right = none
  | .exclamationEqualsEquals =>
    strictlyEqual left right = some (!result) ∨ strictlyEqual left right = none
  | _ => False

/-- The values an expression may complete with. -/
inductive Evaluates (environment : Environment N) : Expression → JsValue N → Prop where
  | envRead : envReadFromNode expression = some (kind, key) → environment.gives kind key value →
      Evaluates environment expression value
  | defineRead : environment.gives .define text value →
      Evaluates environment (.identifier text true) value
  | anything : isOpaque expression = true → Evaluates environment expression value
  | string : Evaluates environment (.stringLiteral text) (.string text)
  | template : Evaluates environment (.noSubstitutionTemplateLiteral text) (.string text)
  | number : Evaluates environment (.numericLiteral text) (.number (JsConversion.number text))
  | isTrue : Evaluates environment .trueKeyword (.boolean true)
  | isFalse : Evaluates environment .falseKeyword (.boolean false)
  | isNull : Evaluates environment .nullKeyword .null
  | parenthesized : Evaluates environment expression value →
      Evaluates environment (.parenthesized expression) value
  | not : Evaluates environment operand value →
      Evaluates environment (.prefixUnary .exclamation operand) (.boolean !value.truthy)
  | minus : Evaluates environment (.prefixUnary .minus (.numericLiteral text))
      (.number ((JsConversion.number text).map JsConversion.negate))
  | plus : Evaluates environment (.prefixUnary .plus (.numericLiteral text))
      (.number (JsConversion.number text))
  | andLeft : Evaluates environment left value → value.truthy = false →
      Evaluates environment (.binary left .ampersandAmpersand right) value
  | andRight : Evaluates environment left value → value.truthy = true →
      Evaluates environment right value' →
      Evaluates environment (.binary left .ampersandAmpersand right) value'
  | orLeft : Evaluates environment left value → value.truthy = true →
      Evaluates environment (.binary left .barBar right) value
  | orRight : Evaluates environment left value → value.truthy = false →
      Evaluates environment right value' →
      Evaluates environment (.binary left .barBar right) value'
  | equality : Evaluates environment left value → Evaluates environment right value' →
      Compares operator value value' result →
      Evaluates environment (.binary left operator right) (.boolean result)

/-! ## Known values are the values -/

def EnvDefineAssumedValue.toValue : EnvDefineAssumedValue N → JsValue N
  | .string value => .string value
  | .number value => .number value
  | .boolean value => .boolean value
  | .null => .null

omit [JsConversion N] in
theorem isTruthy_toValue (value : EnvDefineAssumedValue N) :
    value.toValue.truthy = isTruthy value := by
  cases value with
  | string value => cases value <;> rfl
  | number value => cases value <;> rfl
  | boolean value => rfl
  | null => rfl

omit [JsConversion N] in
theorem strictEqual_toValue (left right : EnvDefineAssumedValue N) :
    strictlyEqual left.toValue right.toValue = some (strictEqual left right) := by
  cases left <;> cases right <;> rfl

/-- Replacing booleans by numbers, the comparison takes the steps of the language. -/
theorem looseEqual_toValue (left right : EnvDefineAssumedValue N) :
    looselyEqual left.toValue right.toValue = some (looseEqual left right) := by
  cases left <;> cases right <;>
    simp [looseEqual, sameTypeEqual, normalizeBooleanOperand, looseEqualNumberAndString,
      strictEqual, looselyEqual, EnvDefineAssumedValue.toValue]

theorem Compares.isEqualityOperator {operator : BinaryOperator} {left right : JsValue N}
    {result : Bool} (h : Compares operator left right result) :
    isEqualityOperator operator = true := by
  cases operator with
  | ampersandAmpersand => cases h
  | barBar => cases h
  | other => cases h
  | _ => rfl

/-- The language and the evaluator compare known values alike. -/
theorem Compares.evaluateEquality {operator : BinaryOperator}
    {left right : EnvDefineAssumedValue N} {result : Bool}
    (h : Compares operator left.toValue right.toValue result) :
    evaluateEquality operator (some left) (some right) = some (.boolean result) := by
  rw [DriftAi.evaluateEquality]
  cases operator with
  | equalsEquals =>
    rw [Compares, looseEqual_toValue] at h
    simpa [isInequalityOperator, equalityResult] using h
  | exclamationEquals =>
    rw [Compares, looseEqual_toValue] at h
    simpa [isInequalityOperator, equalityResult, Bool.eq_not_iff] using h
  | equalsEqualsEquals =>
    rw [Compares, strictEqual_toValue] at h
    simpa [isInequalityOperator, equalityResult] using h
  | exclamationEqualsEquals =>
    rw [Compares, strictEqual_toValue] at h
    simpa [isInequalityOperator, equalityResult, Bool.eq_not_iff] using h
  | ampersandAmpersand => cases h
  | barBar => cases h
  | other => cases h

/-! ## Soundness -/

variable {matrix matrix' : EnvDefineMatrix N} {environment : Environment N} {expression : Expression}

/-- The environment gives every read of the matrix its assumed value. -/
def Environment.Gives (environment : Environment N) (matrix : EnvDefineMatrix N) : Prop :=
  ∀ kind key assumption, readEnvAssumption matrix kind key = some assumption →
    ∀ value, environment.gives kind key value → value = assumption.value.toValue

theorem evaluate_envRead {kind : EnvDefineReadKind} {key : JsString}
    (h : envReadFromNode expression = some (kind, key)) :
    evaluateValue matrix expression = (readEnvAssumption matrix kind key).map (·.value) ∧
      evaluateTruthiness matrix expression = (evaluateValue matrix expression).map isTruthy := by
  have hsimple : evaluateSimpleValue matrix expression =
      (readEnvAssumption matrix kind key).map (·.value) := by
    unfold evaluateSimpleValue readRefFromNode
    simp only [h]
  cases expression with
  | propertyAccess object name => exact ⟨hsimple, rfl⟩
  | elementAccess object argument => exact ⟨hsimple, rfl⟩
  | _ => cases h

theorem evaluate_defineRead (text : JsString) :
    evaluateValue matrix (.identifier text true) =
      (readEnvAssumption matrix .define text).map (·.value) := by
  have hsimple : evaluateValue matrix (.identifier text true) =
      evaluateSimpleValue matrix (.identifier text true) := rfl
  rw [hsimple]
  unfold evaluateSimpleValue readRefFromNode
  simp only [envReadFromNode]
  cases readEnvAssumption matrix .define text with
  | none => rfl
  | some assumption => rfl

theorem evaluate_isOpaque (h : isOpaque expression = true) :
    evaluateValue matrix expression = none ∧ evaluateTruthiness matrix expression = none := by
  cases expression with
  | identifier text isRead =>
    cases isRead with
    | false => exact ⟨rfl, rfl⟩
    | true => cases h
  | importMeta => exact ⟨rfl, rfl⟩
  | propertyAccess object name =>
    have hread : evaluateSimpleValue matrix (.propertyAccess object name) = none := by
      unfold evaluateSimpleValue readRefFromNode
      rw [Option.isNone_iff_eq_none.1 h]
      rfl
    exact ⟨hread, congrArg (Option.map isTruthy) hread⟩
  | elementAccess object argument =>
    have hread : evaluateSimpleValue matrix (.elementAccess object argument) = none := by
      unfold evaluateSimpleValue readRefFromNode
      rw [Option.isNone_iff_eq_none.1 h]
      rfl
    exact ⟨hread, congrArg (Option.map isTruthy) hread⟩
  | prefixUnary operator operand =>
    have hsigned : operator ≠ .exclamation →
        (signedNumericLiteralValue operator operand : EvaluationValue N) = none := by
      intro hop
      cases operator with
      | exclamation => exact (hop rfl).elim
      | other => cases operand <;> rfl
      | minus => cases operand <;> first | rfl | cases h
      | plus => cases operand <;> first | rfl | cases h
    cases operator with
    | exclamation => cases h
    | minus => exact ⟨hsigned (by decide), congrArg (Option.map isTruthy) (hsigned (by decide))⟩
    | plus => exact ⟨hsigned (by decide), congrArg (Option.map isTruthy) (hsigned (by decide))⟩
    | other => exact ⟨hsigned (by decide), congrArg (Option.map isTruthy) (hsigned (by decide))⟩
  | binary left operator right =>
    cases operator with
    | other => exact ⟨rfl, rfl⟩
    | _ => cases h
  | other => exact ⟨rfl, rfl⟩
  | _ => cases h

/-- What is known of an expression holds of a value it completes with. -/
structure Predicts (matrix : EnvDefineMatrix N) (expression : Expression) (value : JsValue N) :
    Prop where
  known : ∀ known, evaluateValue matrix expression = some known → value = known.toValue
  truthiness : ∀ truthy, evaluateTruthiness matrix expression = some truthy →
    value.truthy = truthy

theorem Predicts.of_value {value : JsValue N}
    (htruthiness : evaluateTruthiness matrix expression =
      (evaluateValue matrix expression).map isTruthy)
    (hvalue : ∀ known, evaluateValue matrix expression = some known → value = known.toValue) :
    Predicts matrix expression value where
  known := hvalue
  truthiness := by
    intro truthy h
    rw [htruthiness, Option.map_eq_some_iff] at h
    obtain ⟨known, hknown, rfl⟩ := h
    rw [hvalue known hknown, isTruthy_toValue]

theorem Predicts.of_truthiness {value : JsValue N} (hvalue : evaluateValue matrix expression = none)
    (htruthiness : ∀ truthy, evaluateTruthiness matrix expression = some truthy →
      value.truthy = truthy) : Predicts matrix expression value where
  known := by
    intro known hknown
    rw [hvalue] at hknown
    cases hknown
  truthiness := htruthiness

theorem Predicts.of_literal {known : EnvDefineAssumedValue N}
    (hvalue : evaluateValue matrix expression = some known)
    (htruthiness : evaluateTruthiness matrix expression =
      (evaluateValue matrix expression).map isTruthy) :
    Predicts matrix expression known.toValue := by
  refine .of_value htruthiness fun known' h => ?_
  rw [hvalue] at h
  rw [Option.some.inj h]

theorem evaluateAndTruthiness_known {left right : TruthinessEvaluation} {truthy : Bool}
    (h : evaluateAndTruthiness left right = some truthy) :
    (truthy = false ∧ (left = some false ∨ right = some false)) ∨
      (truthy = true ∧ left = some true ∧ right = some true) := by
  revert h
  rcases left with _ | _ | _ <;> rcases right with _ | _ | _ <;> cases truthy <;> decide

theorem evaluateOrTruthiness_known {left right : TruthinessEvaluation} {truthy : Bool}
    (h : evaluateOrTruthiness left right = some truthy) :
    (truthy = true ∧ (left = some true ∨ right = some true)) ∨
      (truthy = false ∧ left = some false ∧ right = some false) := by
  revert h
  rcases left with _ | _ | _ <;> rcases right with _ | _ | _ <;> cases truthy <;> decide

/-- By the rules of evaluation: whatever an expression completes with is predicted. -/
theorem Evaluates.predicts (hgives : environment.Gives matrix) {value : JsValue N}
    (h : Evaluates environment expression value) : Predicts matrix expression value := by
  induction h with
  | envRead hread hgiven =>
    obtain ⟨hvalue, htruthiness⟩ : evaluateValue matrix _ = _ ∧ _ := evaluate_envRead hread
    refine .of_value htruthiness fun known hknown => ?_
    rw [hvalue, Option.map_eq_some_iff] at hknown
    obtain ⟨assumption, hassumption, rfl⟩ := hknown
    exact hgives _ _ assumption hassumption _ hgiven
  | defineRead hgiven =>
    refine .of_value rfl fun known hknown => ?_
    rw [evaluate_defineRead, Option.map_eq_some_iff] at hknown
    obtain ⟨assumption, hassumption, rfl⟩ := hknown
    exact hgives _ _ assumption hassumption _ hgiven
  | anything hnothing =>
    obtain ⟨hvalue, htruthiness⟩ : evaluateValue matrix _ = none ∧ _ := evaluate_isOpaque hnothing
    refine .of_truthiness hvalue fun truthy htruthy => ?_
    rw [htruthiness] at htruthy
    cases htruthy
  | string => exact Predicts.of_literal (show _ = some (.string _) from rfl) rfl
  | template => exact Predicts.of_literal (show _ = some (.string _) from rfl) rfl
  | number => exact Predicts.of_literal (show _ = some (.number _) from rfl) rfl
  | isTrue => exact Predicts.of_literal (show _ = some (.boolean true) from rfl) rfl
  | isFalse => exact Predicts.of_literal (show _ = some (.boolean false) from rfl) rfl
  | isNull => exact Predicts.of_literal (show _ = some .null from rfl) rfl
  | minus => exact Predicts.of_literal (show _ = some (.number _) from rfl) rfl
  | plus => exact Predicts.of_literal (show _ = some (.number _) from rfl) rfl
  | parenthesized _ ih => exact ⟨ih.known, ih.truthiness⟩
  | not _ ih =>
    constructor
    · intro known hknown
      rw [evaluateValue, Option.map_eq_some_iff] at hknown
      obtain ⟨truthy, htruthy, rfl⟩ := hknown
      rw [ih.truthiness truthy htruthy]
      rfl
    · intro truthy htruthy
      rw [evaluateTruthiness, Option.map_eq_some_iff] at htruthy
      obtain ⟨operand, hoperand, rfl⟩ := htruthy
      rw [← ih.truthiness operand hoperand]
      rfl
  | andLeft _ hfalse ih =>
    refine .of_truthiness rfl fun truthy htruthy => ?_
    rw [evaluateTruthiness] at htruthy
    rcases evaluateAndTruthiness_known htruthy with ⟨rfl, _⟩ | ⟨rfl, hleft, _⟩
    · exact hfalse
    · exact ih.truthiness true hleft
  | andRight _ htrue _ ihleft ihright =>
    refine .of_truthiness rfl fun truthy htruthy => ?_
    rw [evaluateTruthiness] at htruthy
    rcases evaluateAndTruthiness_known htruthy with ⟨rfl, hleft | hright⟩ | ⟨rfl, _, hright⟩
    · exact absurd (ihleft.truthiness false hleft) (by rw [htrue]; decide)
    · exact ihright.truthiness false hright
    · exact ihright.truthiness true hright
  | orLeft _ htrue ih =>
    refine .of_truthiness rfl fun truthy htruthy => ?_
    rw [evaluateTruthiness] at htruthy
    rcases evaluateOrTruthiness_known htruthy with ⟨rfl, _⟩ | ⟨rfl, hleft, _⟩
    · exact htrue
    · exact ih.truthiness false hleft
  | orRight _ hfalse _ ihleft ihright =>
    refine .of_truthiness rfl fun truthy htruthy => ?_
    rw [evaluateTruthiness] at htruthy
    rcases evaluateOrTruthiness_known htruthy with ⟨rfl, hleft | hright⟩ | ⟨rfl, _, hright⟩
    · exact absurd (ihleft.truthiness true hleft) (by rw [hfalse]; decide)
    · exact ihright.truthiness true hright
    · exact ihright.truthiness false hright
  | @equality left value right value' operator result _ _ hcompares ihleft ihright =>
    have hop := hcompares.isEqualityOperator
    have hvalue : evaluateValue matrix (.binary left operator right) =
        evaluateEquality operator (evaluateValue matrix left) (evaluateValue matrix right) := by
      rw [evaluateValue, if_pos hop]
    have htruthiness : evaluateTruthiness matrix (.binary left operator right) =
        (evaluateValue matrix (.binary left operator right)).map isTruthy := by
      rw [hvalue]
      cases operator with
      | ampersandAmpersand => cases hop
      | barBar => cases hop
      | other => cases hop
      | _ => rfl
    refine .of_value htruthiness fun known hknown => ?_
    rw [hvalue] at hknown
    cases hleft : evaluateValue matrix left with
    | none =>
      rw [hleft] at hknown
      cases hknown
    | some knownLeft =>
      cases hright : evaluateValue matrix right with
      | none =>
        rw [hleft, hright] at hknown
        cases hknown
      | some knownRight =>
        rw [ihleft.known knownLeft hleft, ihright.known knownRight hright] at hcompares
        rw [hleft, hright, hcompares.evaluateEquality] at hknown
        cases hknown
        rfl

omit [JsConversion N] in
theorem predicted_known [JsConversion N] {truthy : Bool} :
    predictedBranchFor expression matrix = (if truthy then .truthy else .falsy) ↔
      evaluateTruthiness matrix expression = some truthy := by
  rw [predictedBranchFor]
  split
  · next h =>
    rw [h]
    cases truthy <;> simp
  · next b h =>
    rw [h]
    cases truthy <;> cases b <;> simp

/-! ## More assumptions -/

/-- A read that has an assumed value keeps it. -/
def Keeps (matrix matrix' : EnvDefineMatrix N) : Prop :=
  ∀ kind key assumption, readEnvAssumption matrix kind key = some assumption →
    ∃ assumption', readEnvAssumption matrix' kind key = some assumption' ∧
      assumption'.value = assumption.value

omit [JsNumber N] [JsConversion N] in
theorem evaluateValue_read (h : Keeps matrix matrix') {kind : EnvDefineReadKind} {key : JsString}
    {known : EnvDefineAssumedValue N}
    (hknown : (readEnvAssumption matrix kind key).map (·.value) = some known) :
    (readEnvAssumption matrix' kind key).map (·.value) = some known := by
  obtain ⟨assumption, hassumption, rfl⟩ := Option.map_eq_some_iff.1 hknown
  obtain ⟨assumption', hassumption', hvalue⟩ := h kind key assumption hassumption
  rw [hassumption', Option.map_some, hvalue]

/-- What is known under one matrix is known under the other. -/
structure StillKnown (matrix matrix' : EnvDefineMatrix N) (expression : Expression) : Prop where
  value : ∀ known, evaluateValue matrix expression = some known →
    evaluateValue matrix' expression = some known
  truthiness : ∀ truthy, evaluateTruthiness matrix expression = some truthy →
    evaluateTruthiness matrix' expression = some truthy

theorem StillKnown.of_value
    (h : ∀ matrix : EnvDefineMatrix N, evaluateTruthiness matrix expression =
      (evaluateValue matrix expression).map isTruthy)
    (hvalue : ∀ known, evaluateValue matrix expression = some known →
      evaluateValue matrix' expression = some known) : StillKnown matrix matrix' expression where
  value := hvalue
  truthiness := by
    intro truthy htruthy
    rw [h, Option.map_eq_some_iff] at htruthy ⊢
    obtain ⟨known, hknown, rfl⟩ := htruthy
    exact ⟨known, hvalue known hknown, rfl⟩

/-- A property access is an environment read, or nothing is known of it. -/
theorem StillKnown.of_access (h : Keeps matrix matrix')
    (hnothing : envReadFromNode expression = none → isOpaque expression = true) :
    StillKnown matrix matrix' expression := by
  cases hread : envReadFromNode expression with
  | none =>
    refine .of_value (fun matrix => ?_) fun known hknown => ?_
    · obtain ⟨hvalue, htruthiness⟩ : evaluateValue matrix _ = none ∧ _ :=
        evaluate_isOpaque (hnothing hread)
      rw [hvalue, htruthiness]
      rfl
    · obtain ⟨hvalue, -⟩ : evaluateValue matrix _ = none ∧ _ := evaluate_isOpaque (hnothing hread)
      rw [hvalue] at hknown
      cases hknown
  | some read =>
    refine .of_value (fun matrix => (evaluate_envRead hread).2) fun known hknown => ?_
    rw [(evaluate_envRead hread).1] at hknown ⊢
    exact evaluateValue_read h hknown

theorem evaluateAndTruthiness_mono {left left' right right' : TruthinessEvaluation}
    (hleft : ∀ truthy, left = some truthy → left' = some truthy)
    (hright : ∀ truthy, right = some truthy → right' = some truthy) {truthy : Bool}
    (h : evaluateAndTruthiness left right = some truthy) :
    evaluateAndTruthiness left' right' = some truthy := by
  rcases evaluateAndTruthiness_known h with ⟨rfl, hfalse | hfalse⟩ | ⟨rfl, htrue, htrue'⟩
  · rw [hleft false hfalse]
    rfl
  · rw [hright false hfalse]
    rcases left' with _ | _ | _ <;> rfl
  · rw [hleft true htrue, hright true htrue']
    rfl

theorem evaluateOrTruthiness_mono {left left' right right' : TruthinessEvaluation}
    (hleft : ∀ truthy, left = some truthy → left' = some truthy)
    (hright : ∀ truthy, right = some truthy → right' = some truthy) {truthy : Bool}
    (h : evaluateOrTruthiness left right = some truthy) :
    evaluateOrTruthiness left' right' = some truthy := by
  rcases evaluateOrTruthiness_known h with ⟨rfl, htrue | htrue⟩ | ⟨rfl, hfalse, hfalse'⟩
  · rw [hleft true htrue]
    rfl
  · rw [hright true htrue]
    rcases left' with _ | _ | _ <;> rfl
  · rw [hleft false hfalse, hright false hfalse']
    rfl

theorem evaluateEquality_mono {operator : BinaryOperator} {left left' right right' : EvaluationValue N}
    (hleft : ∀ known, left = some known → left' = some known)
    (hright : ∀ known, right = some known → right' = some known)
    {known : EnvDefineAssumedValue N} (h : evaluateEquality operator left right = some known) :
    evaluateEquality operator left' right' = some known := by
  cases left with
  | none => cases h
  | some knownLeft =>
    cases right with
    | none => cases h
    | some knownRight =>
      rw [hleft knownLeft rfl, hright knownRight rfl]
      exact h

/-- By the structure of the expression: a value that was known stays known. -/
theorem Keeps.stillKnown (h : Keeps matrix matrix') (expression : Expression) :
    StillKnown matrix matrix' expression := by
  induction expression with
  | identifier text isRead =>
    cases isRead with
    | false => exact ⟨fun _ hknown => hknown, fun _ htruthy => htruthy⟩
    | true =>
      refine .of_value (fun _ => rfl) fun known hknown => ?_
      rw [evaluate_defineRead] at hknown ⊢
      exact evaluateValue_read h hknown
  | propertyAccess expression name _ =>
    exact .of_access h fun hnone => Option.isNone_iff_eq_none.2 hnone
  | elementAccess expression argument _ _ =>
    exact .of_access h fun hnone => Option.isNone_iff_eq_none.2 hnone
  | parenthesized expression ih => exact ⟨ih.value, ih.truthiness⟩
  | prefixUnary operator operand ih =>
    cases operator with
    | exclamation =>
      constructor
      · intro known hknown
        rw [evaluateValue, Option.map_eq_some_iff] at hknown ⊢
        obtain ⟨truthy, htruthy, rfl⟩ := hknown
        exact ⟨truthy, ih.truthiness truthy htruthy, rfl⟩
      · intro truthy htruthy
        rw [evaluateTruthiness, Option.map_eq_some_iff] at htruthy ⊢
        obtain ⟨truthy, htruthy, rfl⟩ := htruthy
        exact ⟨truthy, ih.truthiness truthy htruthy, rfl⟩
    | _ => exact ⟨fun _ hknown => hknown, fun _ htruthy => htruthy⟩
  | binary left operator right ihleft ihright =>
    have hequality (hop : isEqualityOperator operator = true)
        (htruthiness : ∀ matrix : EnvDefineMatrix N,
          evaluateTruthiness matrix (.binary left operator right) =
            (evaluateValue matrix (.binary left operator right)).map isTruthy) :
        StillKnown matrix matrix' (.binary left operator right) := by
      refine .of_value htruthiness fun known hknown => ?_
      rw [evaluateValue, if_pos hop] at hknown ⊢
      exact evaluateEquality_mono ihleft.value ihright.value hknown
    cases operator with
    | ampersandAmpersand =>
      refine ⟨fun known hknown => hknown, fun truthy htruthy => ?_⟩
      rw [evaluateTruthiness] at htruthy ⊢
      exact evaluateAndTruthiness_mono ihleft.truthiness ihright.truthiness htruthy
    | barBar =>
      refine ⟨fun known hknown => hknown, fun truthy htruthy => ?_⟩
      rw [evaluateTruthiness] at htruthy ⊢
      exact evaluateOrTruthiness_mono ihleft.truthiness ihright.truthiness htruthy
    | other => exact ⟨fun _ hknown => hknown, fun _ htruthy => htruthy⟩
    | _ => exact hequality rfl fun _ => rfl
  | _ => exact ⟨fun _ hknown => hknown, fun _ htruthy => htruthy⟩

/-- A known branch is the branch that is taken, and stays known under more assumptions. -/
theorem predictedBranchFor_sound (expression : Expression) (matrix : EnvDefineMatrix N) :
    (∀ environment : Environment N, environment.Gives matrix →
      ∀ value, Evaluates environment expression value →
        (predictedBranchFor expression matrix = .truthy → value.truthy = true) ∧
        (predictedBranchFor expression matrix = .falsy → value.truthy = false)) ∧
    ∀ matrix', Keeps matrix matrix' → predictedBranchFor expression matrix ≠ .unknown →
      predictedBranchFor expression matrix' = predictedBranchFor expression matrix := by
  constructor
  · intro environment hgives value hvalue
    exact ⟨fun h => (hvalue.predicts hgives).truthiness true (predicted_known.1 h),
      fun h => (hvalue.predicts hgives).truthiness false (predicted_known.1 h)⟩
  · intro matrix' hkeeps hknown
    cases htruthiness : evaluateTruthiness matrix expression with
    | none => exact absurd (by rw [predictedBranchFor, htruthiness]) hknown
    | some truthy =>
      rw [predicted_known.2 htruthiness,
        predicted_known.2 ((hkeeps.stillKnown expression).truthiness truthy htruthiness)]

/-- No table loses or changes an assumption. -/
structure Adds (matrix matrix' : EnvDefineMatrix N) : Prop where
  env : ∀ key assumption, readAssumption matrix.env key = some assumption →
    readAssumption matrix'.env key = some assumption
  table : ∀ configKey key assumption,
    readAssumption (matrix.table configKey) key = some assumption →
      readAssumption (matrix'.table configKey) key = some assumption

omit [JsNumber N] [JsConversion N] in
/-- Tables that grow keep every assumed value, unless a provider is given a key that it took from
the shared table. -/
theorem Adds.keeps (h : Adds matrix matrix')
    (hshared : ∀ kind key, (providerFor kind).sharedEnvFallback = true →
      readAssumption (matrix.table (providerFor kind).configKey) key = none →
      (readAssumption matrix.env key).isSome →
      readAssumption (matrix'.table (providerFor kind).configKey) key = none) :
    Keeps matrix matrix' := by
  intro kind key assumption hread
  refine ⟨assumption, ?_, rfl⟩
  rw [readEnvAssumption] at hread ⊢
  cases hprovider : readAssumption (matrix.table (providerFor kind).configKey) key with
  | some own =>
    rw [hprovider] at hread
    rw [h.table _ key own hprovider]
    exact hread
  | none =>
    rw [hprovider] at hread
    cases hfallback : (providerFor kind).sharedEnvFallback with
    | false =>
      rw [hfallback] at hread
      cases hread
    | true =>
      rw [hfallback] at hread
      have hread : readAssumption matrix.env key = some assumption := hread
      have hsome : (readAssumption matrix.env key).isSome := Option.isSome_iff_exists.2 ⟨_, hread⟩
      rw [hshared kind key hfallback hprovider hsome]
      exact h.env key assumption hread

/-! ## One read -/

/-- The conversions of the numerals. -/
instance : JsConversion Numeral where
  number text :=
    if text = [] then some (.int 0) else if isNumeral text then some (.ofText text) else none
  negate
    | .int k => .int (-k)
    | .other text _ =>
      .ofText (if text.head? = some (unit '-') then text.tail else unit '-' :: text)

/-- `import.meta.env.PROD` -/
def prodRead : Expression := .propertyAccess (.propertyAccess .importMeta (js "env")) (js "PROD")

def assumed (value : Bool) : JsMap (EnvDefineAssumption Numeral) :=
  JsMap.empty.set (js "PROD") ⟨.boolean value, js "matrix"⟩

theorem predictedBranchFor_sound_prod :
    (JsValue.boolean true : JsValue Numeral).truthy = true ∧
    predictedBranchFor prodRead { env := some (assumed true), defines := some (assumed false) } =
      predictedBranchFor prodRead { env := some (assumed true) } := by
  let matrix : EnvDefineMatrix Numeral := { env := some (assumed true) }
  let matrix' : EnvDefineMatrix Numeral :=
    { env := some (assumed true), defines := some (assumed false) }
  let environment : Environment Numeral := ⟨fun kind key value =>
    ∀ assumption, readEnvAssumption matrix kind key = some assumption →
      value = assumption.value.toValue⟩
  have hgives : environment.Gives matrix := fun kind key assumption hread value hvalue =>
    hvalue assumption hread
  have hread : Evaluates environment prodRead (.boolean true) := by
    have hnode : envReadFromNode prodRead = some (.importMetaEnv, js "PROD") := by decide
    refine .envRead hnode fun assumption hassumption => ?_
    cases hassumption
    rfl
  have hadds : Adds matrix matrix' := by
    refine ⟨fun _ _ h => h, fun configKey key assumption h => ?_⟩
    cases configKey <;> cases h
  have hkeeps : Keeps matrix matrix' := by
    refine hadds.keeps fun kind key hfallback hprovider _ => ?_
    cases kind with
    | define => cases hfallback
    | _ => exact hprovider
  exact ⟨((predictedBranchFor_sound prodRead matrix).1 environment hgives _ hread).1 rfl,
    (predictedBranchFor_sound prodRead matrix).2 matrix' hkeeps (by decide)⟩

/-- The provider's own assumption replaces the shared one. -/
theorem predictedBranchFor_sound_fails : ¬ ∀ (expression : Expression)
    (matrix matrix' : EnvDefineMatrix Numeral), Adds matrix matrix' →
      predictedBranchFor expression matrix ≠ .unknown →
      predictedBranchFor expression matrix' = predictedBranchFor expression matrix := by
  intro h
  have hadds : Adds { env := some (assumed true) }
      { env := some (assumed true), importMetaEnv := some (assumed false) } := by
    refine ⟨fun _ _ h => h, fun configKey key assumption h => ?_⟩
    cases configKey <;> cases h
  have hkept := h prodRead _ _ hadds (by decide)
  revert hkept
  decide

end Musi.DriftAi
