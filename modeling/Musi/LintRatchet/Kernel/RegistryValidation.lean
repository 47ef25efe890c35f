import Musi.LintRatchet.Kernel.Baseline

namespace Musi.LintRatchet
open Musi.Js
set_option autoImplicit true

variable {N : Type} [JsNumber N]

/-- A plugin that third-party ratchets may name. -/
structure LintRatchetThirdPartyPluginAllowlistEntry where
  pluginModule : JsString
  ruleNamespace : JsString
  pluginExport : Option JsString := none
  deriving DecidableEq

structure ValidateLintRatchetRegistryOptions where
  exitPathExists : Option (JsString → Bool) := none
  localRuleIds : Option (List JsString) := none
  thirdPartyPlugins : List LintRatchetThirdPartyPluginAllowlistEntry := []

structure ValidateRatchetEntryContext where
  localRuleIds : Option (List JsString)
  allowedThirdPartyPlugins : List JsString
  exitPathExists : Option (JsString → Bool)

/-- The loop of isSortedUnique with the value before the rest; strings compare by code unit. -/
def isSortedUniqueAfter : Option JsString → List JsString → Bool
  | _, [] => true
  | previous, value :: values =>
    if previous.any fun p => compareCodeUnits p value ≥ 0 then false
    else isSortedUniqueAfter (some value) values

def isSortedUnique (values : List JsString) : Bool := isSortedUniqueAfter none values

def hasNormalizedPath (value : JsString) : Bool :=
  value.length > 0 && unit '\\' ∉ value && !startsWith value (js "./") && !startsWith value (js "!")

/-! ## The plugin allowlist -/

def thirdPartyAllowlistKey (pluginModule ruleNamespace : JsString) : JsString :=
  pluginModule ++ [0] ++ ruleNamespace

def validateThirdPartyPluginAllowlistEntry (entry : LintRatchetThirdPartyPluginAllowlistEntry)
    (seenThirdPartyPlugins : List JsString) : List JsString :=
  failWhen (!isPackageSpecifier entry.pluginModule)
    (js "third-party allowlist: pluginModule must be a package name: " ++ entry.pluginModule) ++
  failWhen (ruleNamespace (entry.ruleNamespace ++ js "/fixture-rule") ≠ some entry.ruleNamespace)
    (js "third-party allowlist: ruleNamespace is invalid: " ++ entry.ruleNamespace) ++
  failWhen (entry.pluginExport.any fun e => e ≠ js "default" && e ≠ js "plugin")
    (js "third-party allowlist: pluginExport is invalid for " ++ entry.pluginModule) ++
  failWhen (thirdPartyAllowlistKey entry.pluginModule entry.ruleNamespace ∈ seenThirdPartyPlugins)
    (js "third-party allowlist: duplicate pluginModule/ruleNamespace entry for " ++
      entry.pluginModule ++ js " " ++ entry.ruleNamespace)

/-- The allowed keys and the failures. The seen keys and the allowed keys are the same set. -/
def validateThirdPartyPluginAllowlist
    (thirdPartyPlugins : List LintRatchetThirdPartyPluginAllowlistEntry) :
    List JsString × List JsString :=
  thirdPartyPlugins.foldl (fun (allowed, failures) entry =>
    (thirdPartyAllowlistKey entry.pluginModule entry.ruleNamespace :: allowed,
      failures ++ validateThirdPartyPluginAllowlistEntry entry allowed)) ([], [])

/-! ## The checks of one ratchet -/

def implementedMetrics : List LintRatchetMetric :=
  [.complexitySeverity, .effectiveLineCount, .messageCount]

def implementedParserProfiles : List LintRatchetParserProfile := [.minimalTs, .typeAwareTs]

def zeroBaselineDispositionKinds : List LintRatchetZeroBaselineDispositionKind :=
  [.intentionalRatchetOnly, .narrowFloor, .promoteToNormalLint, .temporaryRatchetOnly]

def LintRatchetZeroBaselineDispositionKind.text : LintRatchetZeroBaselineDispositionKind → JsString
  | .intentionalRatchetOnly => js "intentional-ratchet-only"
  | .narrowFloor => js "narrow-floor"
  | .promoteToNormalLint => js "promote-to-normal-lint"
  | .temporaryRatchetOnly => js "temporary-ratchet-only"

def validateRatchetIdAndParserProfile (ratchet : LintRatchetConfig N)
    (parserProfile : LintRatchetParserProfile) : List JsString :=
  failWhen (!isRatchetId ratchet.id) (ratchet.id ++ js ": id must match ratchet/<name>") ++
  failWhen (parserProfile ∉ implementedParserProfiles)
    (ratchet.id ++ js ": parserProfile " ++ parserProfile.text ++ js " is not implemented")

def validateLocalSource (ratchet : LintRatchetConfig N) (parserProfile : LintRatchetParserProfile)
    (localRuleIds : Option (List JsString)) : List JsString :=
  failWhen (parserProfile ≠ .minimalTs)
    (ratchet.id ++ js ": local ratchets must use parserProfile minimal-ts") ++
  if !isLocalRuleId ratchet.ruleId then
    [ratchet.id ++ js ": local source ruleId must match local/<rule-name>"]
  else failWhen (localRuleIds.any fun ids => ratchet.ruleId ∉ ids)
    (ratchet.id ++ js ": ruleId " ++ ratchet.ruleId ++ js " is not registered")

def validateCoreSource (ratchet : LintRatchetConfig N) : List JsString :=
  failWhen (!isCoreRuleId ratchet.ruleId)
    (ratchet.id ++ js ": core ruleId must be a bare ESLint built-in id (no slash): " ++
      ratchet.ruleId)

def validateThirdPartySource (ratchet : LintRatchetConfig N) (pluginModule : JsString)
    (allowedThirdPartyPlugins : List JsString) : List JsString :=
  failWhen (!isPackageSpecifier pluginModule)
    (ratchet.id ++ js ": third-party pluginModule must be a package name: " ++ pluginModule) ++
  match ruleNamespace ratchet.ruleId with
  | none => [ratchet.id ++ js ": third-party source ruleId is not a valid lint rule identifier"]
  | some ruleNamespace =>
    if ruleNamespace = js "local" then
      [ratchet.id ++ js ": third-party source ruleId must be a non-local namespaced rule id"]
    else failWhen (thirdPartyAllowlistKey pluginModule ruleNamespace ∉ allowedThirdPartyPlugins)
      (ratchet.id ++ js ": third-party plugin " ++ pluginModule ++ js " for namespace " ++
        ruleNamespace ++ js " is not allowlisted")

def validateRatchetSource (ratchet : LintRatchetConfig N) (ctx : ValidateRatchetEntryContext) :
    List JsString :=
  match ratchetSource ratchet with
  | .localRule => validateLocalSource ratchet (ratchetParserProfile ratchet) ctx.localRuleIds
  | .core => validateCoreSource ratchet
  | .thirdParty pluginModule =>
    validateThirdPartySource ratchet pluginModule ctx.allowedThirdPartyPlugins

def validateSortedPathList (ratchetId : JsString) (values : List JsString)
    (fieldName itemLabel : JsString) : List JsString :=
  failWhen (!isSortedUnique values)
    (ratchetId ++ js ": " ++ fieldName ++ js " must be sorted (by codepoint) and duplicate-free") ++
  values.flatMap fun value =>
    if startsWith value (js "!") then
      [ratchetId ++ js ": " ++ itemLabel ++ js " must not use ! negation: " ++ value]
    else failWhen (!hasNormalizedPath value)
      (ratchetId ++ js ": " ++ itemLabel ++ js " must be normalized: " ++ value)

def metricPairingFailures (id ruleId : JsString) (metric : LintRatchetMetric)
    (source : LintRatchetRuleSource) : List JsString :=
  failWhen (metric = .effectiveLineCount && ruleId ≠ js "local/max-lines")
    (id ++ js ": effective-line-count metric requires ruleId local/max-lines") ++
  failWhen (metric = .complexitySeverity && (source ≠ .core || ruleId ≠ js "complexity"))
    (id ++ js ": complexity-severity metric requires core ruleId complexity")

def validateRatchetModeAndMetric (ratchet : LintRatchetConfig N) : List JsString :=
  failWhen (ratchet.metric ∉ implementedMetrics)
    (ratchet.id ++ js ": metric " ++ ratchet.metric.text ++ js " is not implemented") ++
  metricPairingFailures ratchet.id ratchet.ruleId ratchet.metric (ratchetSource ratchet)

def validateRatchetRuleOptions (ratchet : LintRatchetConfig N) : List JsString :=
  ratchet.ruleOptions.flatMap fun option =>
    failWhen (!isJsonValue option) (ratchet.id ++ js ": ruleOptions must be JSON values")

def requiresExitPath (kind : LintRatchetZeroBaselineDispositionKind) : Bool :=
  kind = .promoteToNormalLint || kind = .temporaryRatchetOnly

def validateZeroBaselineDisposition (ratchet : LintRatchetConfig N)
    (exitPathExists : Option (JsString → Bool)) : List JsString :=
  match ratchet.zeroBaselineDisposition with
  | none => []
  | some disposition =>
    failWhen (disposition.kind ∉ zeroBaselineDispositionKinds)
      (ratchet.id ++ js ": zeroBaselineDisposition.kind is invalid: " ++ disposition.kind.text) ++
    failWhen (trim disposition.reason = [])
      (ratchet.id ++ js ": zeroBaselineDisposition.reason must be non-empty") ++
    if !requiresExitPath disposition.kind then []
    else
      let exitPath := (disposition.exitPath.map trim).getD []
      if exitPath = [] then
        [ratchet.id ++ js ": zeroBaselineDisposition.exitPath is required for " ++
          disposition.kind.text]
      else failWhen (exitPathExists.any fun pathExists => !pathExists exitPath)
        (ratchet.id ++ js ": zeroBaselineDisposition.exitPath does not exist: " ++ exitPath)

/-- The scopes seen so far with their first ratchet, and the failures. -/
def validateRatchetScope (ratchet : LintRatchetConfig N) (seenScopes : JsMap JsString) :
    JsMap JsString × List JsString :=
  let scopeKey := duplicateScopeKey ratchet
  match seenScopes.get scopeKey with
  | some previous =>
    (seenScopes, [ratchet.id ++ js ": duplicates ratchet scope already used by " ++ previous])
  | none => (seenScopes.set scopeKey ratchet.id, [])

def validateRatchetEntry (ctx : ValidateRatchetEntryContext) (seenScopes : JsMap JsString)
    (ratchet : LintRatchetConfig N) : JsMap JsString × List JsString :=
  let (seenScopes, scopeFailures) := validateRatchetScope ratchet seenScopes
  (seenScopes,
    validateRatchetIdAndParserProfile ratchet (ratchetParserProfile ratchet) ++
    validateRatchetSource ratchet ctx ++
    failWhen (ratchet.files = []) (ratchet.id ++ js ": files must be non-empty") ++
    validateSortedPathList ratchet.id ratchet.files (js "files") (js "file glob") ++
    validateSortedPathList ratchet.id ratchet.ignores (js "ignores") (js "ignore glob") ++
    validateRatchetModeAndMetric ratchet ++
    validateRatchetRuleOptions ratchet ++
    failWhen (trim ratchet.principle = []) (ratchet.id ++ js ": principle must be a non-empty string") ++
    validateZeroBaselineDisposition ratchet ctx.exitPathExists ++
    scopeFailures)

def validateRatchetEntries (ctx : ValidateRatchetEntryContext) :
    JsMap JsString → List (LintRatchetConfig N) → List JsString
  | _, [] => []
  | seenScopes, ratchet :: ratchets =>
    (validateRatchetEntry ctx seenScopes ratchet).2 ++
      validateRatchetEntries ctx (validateRatchetEntry ctx seenScopes ratchet).1 ratchets

def validateLintRatchetRegistry (ratchets : List (LintRatchetConfig N))
    (options : ValidateLintRatchetRegistryOptions := {}) : List JsString :=
  let (allowedThirdPartyPlugins, allowlistFailures) :=
    validateThirdPartyPluginAllowlist options.thirdPartyPlugins
  failWhen (!isSortedUnique (ratchets.map (·.id)))
    (js "ratchet ids must be sorted (by codepoint) and unique") ++
  allowlistFailures ++
  validateRatchetEntries
    { localRuleIds := options.localRuleIds
      allowedThirdPartyPlugins
      exitPathExists := options.exitPathExists } .empty ratchets

/-! ## What an accepted registry passes -/

/-- Every ratchet of an accepted registry passes its own checks. -/
theorem validateRatchetEntries_nil {ctx : ValidateRatchetEntryContext} {seenScopes : JsMap JsString}
    {ratchets : List (LintRatchetConfig N)}
    (h : validateRatchetEntries ctx seenScopes ratchets = []) :
    ∀ ratchet ∈ ratchets, ∃ seen, (validateRatchetEntry ctx seen ratchet).2 = [] := by
  induction ratchets generalizing seenScopes with
  | nil => exact fun _ hr => absurd hr List.not_mem_nil
  | cons first ratchets ih =>
    rw [validateRatchetEntries, List.append_eq_nil_iff] at h
    intro ratchet hr
    rcases List.mem_cons.1 hr with he | hr
    · subst he
      exact ⟨seenScopes, h.1⟩
    · exact ih h.2 ratchet hr

theorem validateLintRatchetRegistry_entry {ratchets : List (LintRatchetConfig N)}
    {options : ValidateLintRatchetRegistryOptions}
    (h : validateLintRatchetRegistry ratchets options = []) :
    ∀ ratchet ∈ ratchets, ∃ ctx seen, (validateRatchetEntry ctx seen ratchet).2 = [] := by
  simp only [validateLintRatchetRegistry, List.append_eq_nil_iff] at h
  intro ratchet hr
  obtain ⟨seen, hs⟩ := validateRatchetEntries_nil h.2 ratchet hr
  exact ⟨_, seen, hs⟩

/-- The path lists of an accepted registry are in code-unit order. -/
theorem validateLintRatchetRegistry_sorted {ratchets : List (LintRatchetConfig N)}
    {options : ValidateLintRatchetRegistryOptions}
    (h : validateLintRatchetRegistry ratchets options = []) :
    ∀ ratchet ∈ ratchets,
      isSortedUnique ratchet.files = true ∧ isSortedUnique ratchet.ignores = true := by
  intro ratchet hr
  obtain ⟨ctx, seen, he⟩ := validateLintRatchetRegistry_entry h ratchet hr
  simp only [validateRatchetEntry, validateSortedPathList, List.append_eq_nil_iff, failWhen,
    ite_eq_right_iff, reduceCtorEq, imp_false, Bool.not_eq_true, Bool.not_eq_false'] at he
  obtain ⟨⟨⟨⟨⟨⟨⟨-, hfiles, -⟩, hignores, -⟩, -⟩, -⟩, -⟩, -⟩, -⟩ := he
  exact ⟨hfiles, hignores⟩

end Musi.LintRatchet
