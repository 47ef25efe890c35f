import Musi.LintRatchet.Kernel.MetricStrategies

namespace Musi.LintRatchet
open Musi.Js
set_option autoImplicit true

variable {N : Type} [JsNumber N]

/-- The value of a field that passes isNonNegativeInteger. -/
def nonNegativeInteger (v : Json N) : Option Nat :=
  match v with
  | .num n => (JsNumber.toInt? n).bind fun k => if k < 0 then none else some k.toNat
  | _ => none

/-- A parsed part with the failures it pushed. -/
structure Parsed (T : Type) where
  value : Option T
  failures : List JsString

def Parsed.ok {T : Type} (value : T) : Parsed T := ⟨some value, []⟩

def Parsed.fail {T : Type} (failure : JsString) : Parsed T := ⟨none, [failure]⟩

/-- A required field: its value, or the failure that names it. -/
def requiredField {T : Type} (v : Option (Json N)) (read : Json N → Option T) (failure : JsString) :
    Parsed T :=
  match v.bind read with
  | some value => .ok value
  | none => .fail failure

def nonEmptyString (v : Json N) : Option JsString :=
  match v with
  | .str s => if s = [] then none else some s
  | _ => none

def sha256String (v : Json N) : Option JsString :=
  match v with
  | .str s => if isSha256Hash s then some s else none
  | _ => none

def parseComplexityFunction (v : Json N) (path : JsString) :
    Parsed LintRatchetComplexityFunction :=
  match v.asRecord with
  | none => .fail (path ++ js " must be an object")
  | some _ =>
    let line := requiredField (v.field (js "line")) nonNegativeInteger
      (path ++ js ".line must be a non-negative integer")
    let label := requiredField (v.field (js "label")) nonEmptyString
      (path ++ js ".label must be a non-empty string")
    let complexity := requiredField (v.field (js "complexity")) nonNegativeInteger
      (path ++ js ".complexity must be a non-negative integer")
    { value := match line.value, label.value, complexity.value with
        | some line, some label, some complexity => some { line, label, complexity }
        | _, _, _ => none
      failures := line.failures ++ label.failures ++ complexity.failures }

/-- The entries of a perFunction array from an index on; entries that fail are left out. -/
def parseComplexityEntries (path : JsString) : Nat → List (Json N) → Parsed ComplexityFunctions
  | _, [] => .ok []
  | index, v :: vs =>
    let entry := parseComplexityFunction v (path ++ js "[" ++ numberText N index ++ js "]")
    let rest := parseComplexityEntries path (index + 1) vs
    { value := some (entry.value.toList ++ rest.value.getD [])
      failures := entry.failures ++ rest.failures }

def parseComplexityFunctions (v : Json N) (path : JsString) : Parsed ComplexityFunctions :=
  match v with
  | .arr values => parseComplexityEntries path 0 values
  | _ => .fail (path ++ js " must be an array")

/-- An optional field: absent, or read with a failure that names it. -/
def optionalField {T : Type} (v : Option (Json N)) (read : Json N → Option T)
    (failure : JsString) : Parsed (Option T) :=
  match v with
  | none => .ok none
  | some v => match read v with
    | some value => .ok (some value)
    | none => .fail failure

/-- The metric fields of an item whose count is already known. -/
def parseMetricFields (rawItem : Json N) (path : JsString) (count : Nat) :
    Parsed LintRatchetMetricItem :=
  match optionalField (rawItem.field (js "lines")) nonNegativeInteger
      (path ++ js ".lines must be a non-negative integer") with
  | ⟨none, failures⟩ => ⟨none, failures⟩
  | ⟨some lines, _⟩ =>
    match optionalField (rawItem.field (js "maxComplexity")) nonNegativeInteger
        (path ++ js ".maxComplexity must be a non-negative integer") with
    | ⟨none, failures⟩ => ⟨none, failures⟩
    | ⟨some maxComplexity, _⟩ =>
      let fingerprint := optionalField (rawItem.field (js "messagesFingerprint")) sha256String
        (path ++ js ".messagesFingerprint must be a sha256 hash")
      let perFunction : Parsed ComplexityFunctions := match rawItem.field (js "perFunction") with
        | none => ⟨none, []⟩
        | some v => parseComplexityFunctions v (path ++ js ".perFunction")
      { value := some { count, lines := lines.map Nat.cast, maxComplexity,
                        perFunction := perFunction.value,
                        messagesFingerprint := fingerprint.value.join }
        failures := fingerprint.failures ++ perFunction.failures }

/-- isNormalizedLintRatchetPath -/
def isNormalizedPath (value : JsString) : Bool :=
  value ≠ [] && !value.contains (unit '\\') && !startsWith value (js "./")

def parseLintRatchetBaselineItem (itemPath : JsString) (rawItem : Json N) (path : JsString) :
    Parsed LintRatchetMetricItem :=
  if !isNormalizedPath itemPath then .fail (path ++ js ": path must be normalized")
  else match rawItem.asRecord with
    | none => .fail (path ++ js " must be an object")
    | some _ =>
      match (rawItem.field (js "count")).bind nonNegativeInteger with
      | none => .fail (path ++ js ".count must be a non-negative integer")
      | some count => parseMetricFields rawItem path count

end Musi.LintRatchet
