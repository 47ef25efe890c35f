import Musi.Js.Number

namespace Musi.Js
set_option autoImplicit true

variable {N : Type}

/-- What the language does with numbers outside of JSON; none is NaN. -/
class JsConversion (N : Type) where
  /-- Number(text) -/
  number : JsString → Option N
  /-- The unary minus. -/
  negate : N → N

/-- A value of the language. Objects, symbols and big integers are told apart by nothing but their
truthiness. -/
inductive JsValue (N : Type) where
  | undefined
  | null
  | boolean (value : Bool)
  | number (value : Option N)
  | string (value : JsString)
  | other (truthy : Bool)

section
variable [JsNumber N]

/-- ToBoolean -/
def JsValue.truthy : JsValue N → Bool
  | undefined => false
  | null => false
  | boolean value => value
  | number none => false
  | number (some value) => !JsNumber.same value (JsNumber.ofInt 0)
  | string value => !value.isEmpty
  | other truthy => truthy

/-- Number::equal, under which NaN equals nothing. -/
def numberEqual : Option N → Option N → Bool
  | some left, some right => JsNumber.same left right
  | _, _ => false

/-- IsStrictlyEqual, where no identity of objects decides it. -/
def strictlyEqual : JsValue N → JsValue N → Option Bool
  | .undefined, .undefined => some true
  | .null, .null => some true
  | .boolean left, .boolean right => some (left = right)
  | .number left, .number right => some (numberEqual left right)
  | .string left, .string right => some (left = right)
  | .other _, .other _ => none
  | _, _ => some false

/-- ToNumber of a boolean. -/
def booleanNumber (value : Bool) : Option N := some (JsNumber.ofInt (if value then 1 else 0))

variable [JsConversion N]

/-- IsLooselyEqual, where no conversion of an object decides it. -/
def looselyEqual : JsValue N → JsValue N → Option Bool
  | .undefined, .undefined => some true
  | .undefined, .null => some true
  | .null, .undefined => some true
  | .null, .null => some true
  | .boolean left, .boolean right => some (left = right)
  | .number left, .number right => some (numberEqual left right)
  | .string left, .string right => some (left = right)
  | .number left, .string right => some (numberEqual left (JsConversion.number right))
  | .string left, .number right => some (numberEqual (JsConversion.number left) right)
  | .boolean left, .number right => some (numberEqual (booleanNumber left) right)
  | .boolean left, .string right =>
    some (numberEqual (booleanNumber left : Option N) (JsConversion.number right))
  | .number left, .boolean right => some (numberEqual left (booleanNumber right))
  | .string left, .boolean right =>
    some (numberEqual (JsConversion.number left : Option N) (booleanNumber right))
  | .other _, _ => none
  | _, .other _ => none
  | _, _ => some false

end

end Musi.Js
