import Musi.Js.Number
import Musi.Js.Text
import Musi.Js.Table
import Musi.Bash.Words
import Musi.LintRatchet.Kernel.Patterns

namespace Musi.Harness
open Musi.Js
set_option autoImplicit true

/-! ## Rules -/

inductive PolicyClass where
  | hard
  | soft
  deriving DecidableEq

def PolicyClass.text : PolicyClass → JsString
  | hard => js "hard"
  | soft => js "soft"

inductive PolicyScope where
  | command
  | checkout
  deriving DecidableEq

def PolicyScope.text : PolicyScope → JsString
  | command => js "command"
  | checkout => js "checkout"

inductive CommandPolicyMatcher where
  | pattern (pattern : JsString)
  | literal (literal : JsString)
  | predicate (predicate : JsString)
  deriving DecidableEq

inductive PolicyMessage where
  | constant (constant text : JsString)
  | fromPredicate
  deriving DecidableEq

inductive NativePermissions where
  | projected (matchers : List JsString) (partialReason : Option JsString)
  | excluded (reason : JsString)
  deriving DecidableEq

structure CommandPolicyRule where
  id : JsString
  order : Int
  ruleClass : PolicyClass
  scope : PolicyScope
  message : PolicyMessage
  haystackTransform : Option JsString
  matchers : List CommandPolicyMatcher
  nativePermissions : NativePermissions
  deriving DecidableEq

/-! ## The schema -/

def tab : UInt16 := 0x09

/-- `/\S/u` -/
def isNonBlank (s : JsString) : Bool := s.any fun c => !isWhiteSpace c

/-- `/^[^\t\r\n]+$/u`, and not blank. -/
def isMatcherValue (s : JsString) : Bool :=
  isNonBlank s && s.all fun c => c ≠ tab && c ≠ 0x0D && c ≠ Bash.newline

/-- `/^[a-z_][a-z0-9_]*$/u` -/
def isShellFunction : JsString → Bool
  | [] => false
  | c :: s => (isLowerAlpha c || c = unit '_') &&
      s.all fun d => isLowerAlpha d || isDigit d || d = unit '_'

def acceptsMatcher : CommandPolicyMatcher → Bool
  | .pattern pattern => isMatcherValue pattern
  | .literal literal => isMatcherValue literal
  | .predicate predicate => isShellFunction predicate

def acceptsMessage : PolicyMessage → Bool
  | .constant constant text => isNonBlank constant && isNonBlank text
  | .fromPredicate => true

def acceptsNativePermissions : NativePermissions → Bool
  | .projected matchers partialReason =>
    matchers ≠ [] && matchers.all isMatcherValue && partialReason.all isNonBlank
  | .excluded reason => isNonBlank reason

def acceptsRule (rule : CommandPolicyRule) : Bool :=
  LintRatchet.isKebabName rule.id && 0 < rule.order && acceptsMessage rule.message &&
    rule.haystackTransform.all isShellFunction && rule.matchers ≠ [] &&
    rule.matchers.all acceptsMatcher && acceptsNativePermissions rule.nativePermissions

/-! ## Semantic failures -/

def GIT_COMMAND_TOKEN : JsString := js "$\x7bAI_POLICY_GIT_CMD\x7d"

def COMMAND_END_TOKEN : JsString := js "$AI_POLICY_CMD_END"

def placeholderPositionFailure (pattern token : JsString) (expectedIndex : Int)
    (expectedPosition : JsString) : Option JsString :=
  match indexOf? token pattern with
  | none => none
  | some firstIndex =>
    if (firstIndex : Int) = expectedIndex ∧ lastIndexOf? token pattern = some firstIndex then none
    else some (token ++ js " may appear only once, at the " ++ expectedPosition ++ js " of a pattern")

/-- `\$(?:\{[^}\r\n]*\}|[A-Za-z_]\w*|[0-9@*#?!-])` after its dollar sign. -/
def placeholderAfter : JsString → Option JsString
  | [] => none
  | c :: s =>
    let body := s.takeWhile fun d => d ≠ Bash.closeBrace && d ≠ 0x0D && d ≠ Bash.newline
    if c = Bash.openBrace && (s.drop body.length).head? = some Bash.closeBrace then
      some (c :: body ++ [Bash.closeBrace])
    else if Bash.isNameStart c then some (c :: s.takeWhile Bash.isNameUnit)
    else if isDigit c || c ∈ js "@*#?!-" then some [c]
    else none

def unsupportedPlaceholder : JsString → Option JsString
  | [] => none
  | c :: s =>
    if c = Bash.dollar then
      match placeholderAfter s with
      | some found => some (c :: found)
      | none => unsupportedPlaceholder s
    else unsupportedPlaceholder s

/-- The number counts matchers from one. -/
def matcherFailures (number : Nat) : CommandPolicyMatcher → List JsString
  | .pattern pattern =>
    let withoutSupportedTokens :=
      replaceAllFrom COMMAND_END_TOKEN [] 0 (replaceAllFrom GIT_COMMAND_TOKEN [] 0 pattern)
    let endIndex : Int := pattern.length - COMMAND_END_TOKEN.length
    let placeholderFailures :=
      (placeholderPositionFailure pattern GIT_COMMAND_TOKEN 0 (js "start")).toList ++
        (placeholderPositionFailure pattern COMMAND_END_TOKEN endIndex (js "end")).toList
    placeholderFailures.map (fun failure =>
      js "matcher " ++ natText number ++ js ": " ++ failure) ++
    (unsupportedPlaceholder withoutSupportedTokens).toList.map fun found =>
      js "matcher " ++ natText number ++ js ": unsupported shell placeholder " ++ found ++
        js "; only " ++ GIT_COMMAND_TOKEN ++ js " and " ++ COMMAND_END_TOKEN ++
        js " are expanded by the dispatcher"
  | _ => []

def CommandPolicyMatcher.isPredicate : CommandPolicyMatcher → Bool
  | .predicate _ => true
  | _ => false

def collectRuleMatcherFailures (rule : CommandPolicyRule) : List JsString :=
  (if rule.message = .fromPredicate ∧ rule.matchers.any (fun matcher => !matcher.isPredicate) then
    [js "message.from \"predicate\" requires predicate-only matchers; a pattern or literal match cannot emit a reason"]
  else []) ++
  rule.matchers.zipIdx.flatMap fun entry => matcherFailures (entry.2 + 1) entry.1

def claimMatcher (rule : CommandPolicyRule) (state : JsMap JsString × List JsString)
    (matcher : JsString) : JsMap JsString × List JsString :=
  match state.1.get matcher with
  | none => (state.1.set matcher rule.id, state.2)
  | some owner => (state.1, state.2 ++ [js "commandPolicy: native matcher " ++ matcher ++
      js " is claimed by both " ++ owner ++ js " and " ++ rule.id ++
      js "; each deny entry must project from exactly one rule"])

def nativeFailures (rule : CommandPolicyRule) (matcherOwners : JsMap JsString) :
    JsMap JsString × List JsString :=
  match rule.nativePermissions with
  | .excluded _ => (matcherOwners, [])
  | .projected matchers _ =>
    let scopeFailures := if rule.scope ≠ .command then [js "commandPolicy " ++ rule.id ++ js ": scope " ++
      rule.scope.text ++ js " cannot be natively projected; a static matcher cannot resolve the target checkout, so record a non-projection reason instead"] else []
    let classFailures := if rule.ruleClass ≠ .hard then [js "commandPolicy " ++ rule.id ++
      js ": only hard rules may be natively projected; a native deny is unconditional and cannot express " ++
      rule.ruleClass.text ++ js " guidance"] else []
    matchers.foldl (claimMatcher rule) (matcherOwners, scopeFailures ++ classFailures)

def orderFailures (index : Nat) (rule : CommandPolicyRule) : List JsString :=
  if rule.order ≠ (index + 1 : Int) then
    [js "commandPolicy[" ++ natText index ++ js "] " ++ rule.id ++
      js ": order must equal its 1-based position (" ++ natText (index + 1) ++ js "), got " ++
      intText rule.order ++
      js "; rule order is the evaluation order, with hard matches taking precedence over soft matches"]
  else []

def collectFrom (index : Nat) (seenIds : List JsString) (matcherOwners : JsMap JsString) :
    List CommandPolicyRule → List JsString
  | [] => []
  | rule :: rules =>
    let claimed := nativeFailures rule matcherOwners
    orderFailures index rule ++
      (if rule.id ∈ seenIds then [js "commandPolicy: duplicate rule id: " ++ rule.id] else []) ++
      (collectRuleMatcherFailures rule).map (fun failure =>
        js "commandPolicy " ++ rule.id ++ js ": " ++ failure) ++
      claimed.2 ++ collectFrom (index + 1) (seenIds ++ [rule.id]) claimed.1 rules

def collectSemanticFailures (rules : List CommandPolicyRule) : List JsString :=
  collectFrom 0 [] JsMap.empty rules

/-- The rules that parseCommandPolicy returns; the messages of the schema library are left out. -/
def acceptsCommandPolicy (rules : List CommandPolicyRule) : Bool :=
  rules ≠ [] && rules.all acceptsRule && collectSemanticFailures rules = []

/-! ## The fragment -/

def MATCHER_FIELD_SEPARATOR : JsString := [tab]

def shellSingleQuote (value : JsString) : JsString :=
  js "'" ++ replaceAllFrom (js "'") (js "'\\''") 0 value ++ js "'"

def CommandPolicyMatcher.kind : CommandPolicyMatcher → JsString
  | .pattern _ => js "pattern"
  | .literal _ => js "literal"
  | .predicate _ => js "predicate"

def matcherValue : CommandPolicyMatcher → JsString
  | .pattern pattern => pattern
  | .literal literal => literal
  | .predicate predicate => predicate

def matcherLine (matcher : CommandPolicyMatcher) : JsString :=
  matcher.kind ++ MATCHER_FIELD_SEPARATOR ++ matcherValue matcher

def messageText (rule : CommandPolicyRule) : Option JsString :=
  match rule.message with
  | .constant _ text => some text
  | .fromPredicate => none

def nativeMatchers (rule : CommandPolicyRule) : Option (List JsString) :=
  match rule.nativePermissions with
  | .projected matchers _ => some matchers
  | .excluded _ => none

def nativeExclusion (rule : CommandPolicyRule) : Option JsString :=
  match rule.nativePermissions with
  | .projected _ _ => none
  | .excluded reason => some reason

/-- The associative arrays, with the value of a rule in each. -/
def policyArrays : List (JsString × (CommandPolicyRule → Option JsString)) :=
  [(js "AI_POLICY_RULE_CLASS", fun rule => some rule.ruleClass.text),
    (js "AI_POLICY_RULE_SCOPE", fun rule => some rule.scope.text),
    (js "AI_POLICY_RULE_MESSAGE", messageText),
    (js "AI_POLICY_RULE_HAYSTACK_TRANSFORM", CommandPolicyRule.haystackTransform),
    (js "AI_POLICY_RULE_MATCHERS", fun rule =>
      some (join [Bash.newline] (rule.matchers.map matcherLine))),
    (js "AI_POLICY_RULE_NATIVE_MATCHERS", fun rule => (nativeMatchers rule).map (join [Bash.newline])),
    (js "AI_POLICY_RULE_NATIVE_EXCLUSION", nativeExclusion)]

def renderAssociativeEntries (name : JsString) (rules : List CommandPolicyRule)
    (valueOf : CommandPolicyRule → Option JsString) : List JsString :=
  (js "declare -gA " ++ (name ++ js "=()")) ::
    rules.filterMap (fun rule => (valueOf rule).map fun value =>
      name ++ (js "[" ++ (shellSingleQuote rule.id ++ (js "]=" ++ shellSingleQuote value)))) ++ [[]]

def renderMessageConstant (rule : CommandPolicyRule) : Option JsString :=
  match rule.message with
  | .constant constant text =>
    some (js "declare -g " ++ (constant ++ (js "=" ++ shellSingleQuote text)))
  | .fromPredicate => none

def fragmentHeader : List JsString :=
  [js "# shellcheck shell=bash", js "# shellcheck disable=SC2034",
    js "# Generated by scripts/harness/generate-command-policy.ts. Do not edit by hand.",
    js "# Rule rows live in harness.controls.json (root commandPolicy array);",
    js "# regenerate with `bun run harness:command-policy`.", js "#",
    js "# AI_POLICY_RULE_IDS is the scan order: first hard match wins; otherwise the first soft match advises. Pattern",
    js "# matchers keep $\x7bAI_POLICY_GIT_CMD\x7d / $AI_POLICY_CMD_END symbolic, so a",
    js "# consumer expands them at match time. Matcher blocks are newline-separated",
    js "# `<kind><TAB><value>` lines in evaluation order.", []]

def fragmentFooter : List JsString :=
  [js "# Completion sentinel: policy.sh resets this before sourcing and fails closed",
    js "# unless the fragment reaches this final statement with the expected rule count."]

def fragmentLines (rules : List CommandPolicyRule) : List JsString :=
  fragmentHeader ++ rules.filterMap renderMessageConstant ++ [[]] ++
    [js "declare -ga AI_POLICY_RULE_IDS=(" ++
      join (js " ") (rules.map fun rule => shellSingleQuote rule.id) ++ js ")", []] ++
    policyArrays.flatMap (fun array => renderAssociativeEntries array.1 rules array.2) ++
    fragmentFooter ++ [js "declare -g AI_POLICY_RULES_COMPLETE=" ++ natText rules.length]

def renderCommandPolicyFragment (rules : List CommandPolicyRule) : JsString :=
  join [Bash.newline] ((fragmentLines rules).rdropWhile (· = [])) ++ [Bash.newline]

end Musi.Harness
