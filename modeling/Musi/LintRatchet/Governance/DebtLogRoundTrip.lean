import Musi.Js.JsonWire
import Musi.Js.JsonLines
import Musi.LintRatchet.Kernel.BaselineFacts
import Musi.LintRatchet.Governance.DebtAccounting

namespace Musi.LintRatchet
open Musi.Js
set_option autoImplicit true

variable {N : Type} [JsNumber N]

/-! ## Reading back what was written -/

/-- Where the schema accepts what is written for a value, it gives that value back. -/
def ReadsBack {T : Type} (read : Json N → Option T) (write : T → Json N) (x : T) : Prop :=
  ∀ y, read (write x) = some y → y = x ∧ Canonical (write x)

theorem safeInteger_ofInt {n : Nat} {k : Int} (h : safeInteger (natJson n : Json N) = some k) :
    k = n ∧ Canonical (natJson n : Json N) := by
  obtain ⟨hk, hsafe⟩ := Option.filter_eq_some_iff.1 (show (JsNumber.toInt? (JsNumber.ofInt n : N)).filter
    (fun k => k.natAbs < 2 ^ 53) = some k from h)
  have hn : (n : Int) = k :=
    JsNumber.ofInt_safe (of_decide_eq_true hsafe) (JsNumber.ofInt_toInt hk).symm
  exact ⟨hn.symm, .num (JsNumber.finite_of_toInt hk)⟩

theorem readsBack_nat (n : Nat) : ReadsBack (N := N) nonNegativeInt natJson n := by
  intro m h
  obtain ⟨k, hk, hm⟩ := Option.bind_eq_some_iff.1 h
  obtain ⟨rfl, hcanonical⟩ := safeInteger_ofInt hk
  split at hm
  · cases hm
  · exact ⟨by simpa using hm.symm, hcanonical⟩

theorem readsBack_lines (lines : ℕ∞) :
    ReadsBack (N := N) (fun v => (nonNegativeInt v).map Nat.cast) linesJson lines := by
  intro y h
  obtain ⟨m, hm, rfl⟩ := Option.map_eq_some_iff.1 h
  cases lines with
  | top => cases hm
  | coe n =>
    obtain ⟨rfl, hcanonical⟩ := readsBack_nat n m hm
    exact ⟨rfl, hcanonical⟩

theorem readsBack_number (n : N) :
    ReadsBack (fun v => (nonNegativeInt v).map fun k : Nat => JsNumber.ofInt (k : Int)) Json.num n := by
  intro y h
  obtain ⟨m, hm, rfl⟩ := Option.map_eq_some_iff.1 h
  obtain ⟨k, hk, hm⟩ := Option.bind_eq_some_iff.1 hm
  obtain ⟨hk, -⟩ := Option.filter_eq_some_iff.1 (show (JsNumber.toInt? n).filter
    (fun k => k.natAbs < 2 ^ 53) = some k from hk)
  split at hm
  · cases hm
  · next hneg =>
    cases hm
    rw [Int.toNat_of_nonneg (by omega), JsNumber.ofInt_toInt hk]
    exact ⟨rfl, .num (JsNumber.finite_of_toInt hk)⟩

theorem readsBack_string (accept : JsString → Bool) (s : JsString) :
    ReadsBack (N := N) (stringWhere accept) .str s := by
  intro t h
  rw [stringWhere] at h
  split at h
  · exact ⟨(Option.some.inj h).symm, .str s⟩
  · cases h

theorem readsBack_array {T : Type} {read : Json N → Option T} {write : T → Json N} {xs : List T}
    (h : ∀ x ∈ xs, ReadsBack read write x) :
    ReadsBack (arrayOf read) (fun xs => .arr (xs.map write)) xs := by
  intro ys hys
  rw [arrayOf] at hys
  suffices ys = xs ∧ ∀ x ∈ xs, Canonical (write x) by
    refine ⟨this.1, .arr fun v hv => ?_⟩
    obtain ⟨x, hx, rfl⟩ := List.mem_map.1 hv
    exact this.2 x hx
  induction xs generalizing ys with
  | nil => simpa using hys
  | cons x xs ih =>
    simp only [List.map_cons, List.mapM_cons, Option.bind_eq_bind, Option.bind_eq_some_iff,
      Option.pure_def, Option.some.injEq] at hys
    obtain ⟨y, hy, zs, hzs, rfl⟩ := hys
    obtain ⟨rfl, hx⟩ := h x (by simp) y hy
    obtain ⟨rfl, hxs⟩ := ih (fun x hx => h x (by simp [hx])) zs hzs
    exact ⟨rfl, List.forall_mem_cons.2 ⟨hx, hxs⟩⟩

theorem readsBack_reason (reason : RegressionReason) :
    ReadsBack (N := N) reasonValue (fun r => .str r.text) reason := by
  intro y h
  refine ⟨?_, .str _⟩
  have hread : reasonValue (.str reason.text : Json N) = some reason := by
    cases reason <;> simp +decide [reasonValue, RegressionReason.text]
  exact Option.some.inj (h.symm.trans hread)

theorem readsBack_metric (metric : LintRatchetMetric) :
    ReadsBack (N := N) metricValue (fun m => .str m.text) metric := by
  intro y h
  rw [metricValue_text, Option.some.injEq] at h
  exact ⟨h.symm, .str _⟩

/-! ## Fields -/

section Fields
variable {T : Type} {read : Json N → Option T} {write : T → Json N} {fields : Entries (Json N)}
  {name : JsString}

theorem ReadsBack.required {x y : T} (h : ReadsBack read write x)
    (hl : List.lookup name fields = some (write x)) (hr : required fields name read = some y) :
    y = x ∧ Canonical (write x) := by
  rw [Musi.LintRatchet.required, hl] at hr
  exact h y hr

theorem ReadsBack.optional {x y : Option T} (h : ∀ v ∈ x, ReadsBack read write v)
    (hl : List.lookup name fields = x.map write) (hr : optional fields name read = some y) :
    y = x ∧ ∀ v ∈ x, Canonical (write v) := by
  rw [Musi.LintRatchet.optional, hl] at hr
  cases x with
  | none => exact ⟨(Option.some.inj hr).symm, by simp⟩
  | some v =>
    obtain ⟨w, hw, rfl⟩ := Option.map_eq_some_iff.1 hr
    obtain ⟨rfl, hcanonical⟩ := h v rfl w hw
    exact ⟨rfl, by simpa using hcanonical⟩

omit [JsNumber N] in
theorem strictFields_obj {names written : List JsString} {es : Entries (Json N)}
    (h : strictFields names (.obj es) = some fields) (hs : (Entries.keys es).Sublist written)
    (hproto : ∀ k ∈ written, k ≠ js "__proto__") : fields = es := by
  rw [strictFields, recordFields_obj fun e he => hproto _ (hs.subset (List.mem_map_of_mem he))] at h
  exact ((Option.filter_eq_some_iff.1 h).1 |> Option.some.inj).symm

omit [JsNumber N] in
theorem optional_map {S : Type} {y : Option T} (f : T → S) (h : optional fields name read = some y) :
    Musi.LintRatchet.optional fields name (fun v => (read v).map f) = some (y.map f) := by
  unfold Musi.LintRatchet.optional at h ⊢
  split at h
  · cases h
    rfl
  · obtain ⟨w, hw, rfl⟩ := Option.map_eq_some_iff.1 h
    exact congrArg (fun o => (o.map f).map some) hw

omit [JsNumber N] in
@[simp] theorem lookup_optionalJson (k k' : JsString) (x : Option T) (write : T → Json N) :
    List.lookup k' (optionalJson k x write) = if k' = k then x.map write else none :=
  lookup_optional k k' x write

/-- An optional field is written where it has a value. -/
theorem canonical_optional {k : JsString} {x : Option T} (h : ∀ v ∈ x, Canonical (write v)) :
    ∀ e ∈ optionalJson k x write, Canonical e.2 := by
  intro e he
  obtain ⟨v, hv, rfl⟩ := List.mem_map.1 he
  exact h v (by simpa using hv)

end Fields

/-! ## Accepted debt -/

/-- What a log keeps of a regression: no diagnostic text of the run that found it. -/
def Stripped (r : LintRatchetRegression N) : Prop := r.firstMessage = none ∧ r.firstMessageId = none

def regressionNames : List JsString :=
  [js "testId", js "ruleId", js "path", js "baselineCount", js "currentCount", js "reason",
    js "baselineLines", js "currentLines", js "baselineComplexity", js "currentComplexity", js "line"]

def regressionFields (r : LintRatchetRegression N) : Entries (Json N) :=
  [(js "testId", .str r.testId), (js "ruleId", .str r.ruleId), (js "path", .str r.path),
    (js "baselineCount", natJson r.baselineCount), (js "currentCount", natJson r.currentCount),
    (js "reason", .str r.reason.text)] ++
    optionalJson (js "baselineLines") r.baselineLines linesJson ++
    optionalJson (js "currentLines") r.currentLines linesJson ++
    optionalJson (js "baselineComplexity") r.baselineComplexity natJson ++
    optionalJson (js "currentComplexity") r.currentComplexity natJson ++
    optionalJson (js "line") r.line .num

theorem regressionFields_sublist (r : LintRatchetRegression N) :
    (Entries.keys (regressionFields r)).Sublist regressionNames := by
  simp only [regressionFields, optionalJson, Entries.keys_append]
  exact (((((List.Sublist.refl _).append (keys_optional _ _ _)).append (keys_optional _ _ _)).append
    (keys_optional _ _ _)).append (keys_optional _ _ _)).append (keys_optional _ _ _)

theorem readsBack_regression {r : LintRatchetRegression N} (hr : Stripped r) :
    ReadsBack parseDebtLogRegression regressionJson r := by
  intro y h
  rw [parseDebtLogRegression] at h
  obtain ⟨fields, hfields, h⟩ := Option.bind_eq_some_iff.1 h
  obtain rfl : fields = regressionFields r :=
    strictFields_obj hfields (regressionFields_sublist r) (by decide)
  obtain ⟨testId, htestId, h⟩ := Option.bind_eq_some_iff.1 h
  obtain ⟨ruleId, hruleId, h⟩ := Option.bind_eq_some_iff.1 h
  obtain ⟨path, hpath, h⟩ := Option.bind_eq_some_iff.1 h
  obtain ⟨baselineCount, hbaselineCount, h⟩ := Option.bind_eq_some_iff.1 h
  obtain ⟨currentCount, hcurrentCount, h⟩ := Option.bind_eq_some_iff.1 h
  obtain ⟨baselineLines, hbaselineLines, h⟩ := Option.bind_eq_some_iff.1 h
  obtain ⟨currentLines, hcurrentLines, h⟩ := Option.bind_eq_some_iff.1 h
  obtain ⟨baselineComplexity, hbaselineComplexity, h⟩ := Option.bind_eq_some_iff.1 h
  obtain ⟨currentComplexity, hcurrentComplexity, h⟩ := Option.bind_eq_some_iff.1 h
  obtain ⟨line, hline, h⟩ := Option.bind_eq_some_iff.1 h
  obtain ⟨reason, hreason, h⟩ := Option.bind_eq_some_iff.1 h
  obtain ⟨rfl, -⟩ := (readsBack_string _ r.testId).required rfl htestId
  obtain ⟨rfl, -⟩ := (readsBack_string _ r.ruleId).required rfl hruleId
  obtain ⟨rfl, -⟩ := (readsBack_string _ r.path).required rfl hpath
  obtain ⟨rfl, hc⟩ := (readsBack_nat r.baselineCount).required rfl hbaselineCount
  obtain ⟨rfl, hc'⟩ := (readsBack_nat r.currentCount).required rfl hcurrentCount
  have hlookup : List.lookup (js "baselineLines") (regressionFields r) = r.baselineLines.map linesJson ∧
      List.lookup (js "currentLines") (regressionFields r) = r.currentLines.map linesJson ∧
      List.lookup (js "baselineComplexity") (regressionFields r) = r.baselineComplexity.map natJson ∧
      List.lookup (js "currentComplexity") (regressionFields r) = r.currentComplexity.map natJson ∧
      List.lookup (js "line") (regressionFields r) = r.line.map .num := by
    refine ⟨?_, ?_, ?_, ?_, ?_⟩ <;>
      simp +decide [regressionFields, List.lookup_append, Entries.lookup_cons]
  obtain ⟨hbl, hcl, hbx, hcx, hln⟩ := hlookup
  obtain ⟨heq, hbl⟩ := ReadsBack.optional (fun v (_ : v ∈ r.baselineLines) => readsBack_lines v) hbl
    (optional_map Nat.cast hbaselineLines)
  obtain ⟨heq', hcl⟩ := ReadsBack.optional (fun v (_ : v ∈ r.currentLines) => readsBack_lines v) hcl
    (optional_map Nat.cast hcurrentLines)
  obtain ⟨rfl, hbx⟩ := ReadsBack.optional (fun v (_ : v ∈ r.baselineComplexity) => readsBack_nat v)
    hbx hbaselineComplexity
  obtain ⟨rfl, hcx⟩ := ReadsBack.optional (fun v (_ : v ∈ r.currentComplexity) => readsBack_nat v)
    hcx hcurrentComplexity
  obtain ⟨heqn, hln⟩ := ReadsBack.optional (fun v (_ : v ∈ r.line) => readsBack_number v) hln
    (optional_map (fun k : Nat => JsNumber.ofInt (k : Int)) hline)
  obtain ⟨rfl, -⟩ := (readsBack_reason r.reason).required rfl hreason
  have heqn : Option.map (fun n : Int => (JsNumber.ofInt n : N)) (line >>= fun k => pure (k : Int)) =
      r.line := by
    rw [← heqn]
    cases line <;> rfl
  dsimp only at h
  rw [heq, heq', heqn] at h
  split at h
  · cases h
    refine ⟨?_, canonical_obj regressionNames (regressionFields_sublist r) (by decide) (by decide) ?_⟩
    · obtain ⟨hm, hi⟩ := hr
      cases r
      cases hm
      cases hi
      rfl
    · simp only [List.forall_mem_append, List.forall_mem_cons]
      exact ⟨⟨⟨⟨⟨⟨.str _, .str _, .str _, hc, hc', .str _, by simp⟩, canonical_optional hbl⟩,
        canonical_optional hcl⟩, canonical_optional hbx⟩, canonical_optional hcx⟩,
        canonical_optional hln⟩
  · cases h

theorem readsBack_function (f : LintRatchetComplexityFunction) :
    ReadsBack (N := N) parseOrphanFunction complexityFunctionJson f := by
  intro y h
  rw [parseOrphanFunction] at h
  obtain ⟨fields, hfields, h⟩ := Option.bind_eq_some_iff.1 h
  obtain rfl := strictFields_obj hfields
    (List.Sublist.refl [js "line", js "label", js "complexity"]) (by decide)
  obtain ⟨line, hline, h⟩ := Option.bind_eq_some_iff.1 h
  obtain ⟨label, hlabel, h⟩ := Option.bind_eq_some_iff.1 h
  obtain ⟨complexity, hcomplexity, h⟩ := Option.bind_eq_some_iff.1 h
  cases h
  obtain ⟨rfl, hl⟩ := (readsBack_nat f.line).required rfl hline
  obtain ⟨rfl, -⟩ := (readsBack_string _ f.label).required rfl hlabel
  obtain ⟨rfl, hc⟩ := (readsBack_nat f.complexity).required rfl hcomplexity
  refine ⟨rfl, canonical_obj [js "line", js "label", js "complexity"] (List.Sublist.refl _)
    (by decide) (by decide) ?_⟩
  simp only [List.forall_mem_cons]
  exact ⟨hl, .str _, hc, by simp⟩

theorem readsBack_orphanItem (item : LintRatchetOrphanBaselineItem) :
    ReadsBack (N := N) parseOrphanBaselineItem orphanItemJson item := by
  intro y h
  have hkeys : (Entries.keys ((js "path", Json.str item.path) ::
      itemFields item.toLintRatchetMetricItem : Entries (Json N))).Sublist (js "path" :: itemNames) :=
    (itemFields_sublist _).cons_cons _
  have hlookup (k : JsString) (hk : k ≠ js "path") : List.lookup k ((js "path", .str item.path) ::
      itemFields item.toLintRatchetMetricItem) = (itemJson item.toLintRatchetMetricItem : Json N).field k := by
    rw [Entries.lookup_cons, if_neg hk]
    rfl
  rw [parseOrphanBaselineItem] at h
  obtain ⟨fields, hfields, h⟩ := Option.bind_eq_some_iff.1 h
  obtain rfl := strictFields_obj hfields hkeys (by decide)
  obtain ⟨path, hpath, h⟩ := Option.bind_eq_some_iff.1 h
  obtain ⟨count, hcount, h⟩ := Option.bind_eq_some_iff.1 h
  obtain ⟨lines, hlines, h⟩ := Option.bind_eq_some_iff.1 h
  obtain ⟨maxComplexity, hmax, h⟩ := Option.bind_eq_some_iff.1 h
  obtain ⟨perFunction, hfunctions, h⟩ := Option.bind_eq_some_iff.1 h
  obtain ⟨fingerprint, hfingerprint, h⟩ := Option.bind_eq_some_iff.1 h
  cases h
  obtain ⟨rfl, -⟩ := (readsBack_string _ item.path).required rfl hpath
  obtain ⟨rfl, hc⟩ := (readsBack_nat item.count).required rfl hcount
  obtain ⟨heq, hl⟩ := ReadsBack.optional (fun v (_ : v ∈ item.lines) => readsBack_lines v)
    (by rw [hlookup _ (by decide), field_itemJson]; simp +decide) (optional_map Nat.cast hlines)
  obtain ⟨rfl, hm⟩ := ReadsBack.optional (fun v (_ : v ∈ item.maxComplexity) => readsBack_nat v)
    (by rw [hlookup _ (by decide), field_itemJson]; simp +decide) hmax
  obtain ⟨rfl, hf⟩ := ReadsBack.optional
    (fun v (_ : v ∈ item.perFunction) => readsBack_array fun f (_ : f ∈ v) => readsBack_function f)
    (by rw [hlookup _ (by decide), field_itemJson]; simp +decide) hfunctions
  obtain ⟨rfl, -⟩ := ReadsBack.optional
    (fun v (_ : v ∈ item.messagesFingerprint) => readsBack_string _ v)
    (by rw [hlookup _ (by decide), field_itemJson]; simp +decide) hfingerprint
  refine ⟨by rw [heq], canonical_obj (js "path" :: itemNames) hkeys (by decide) (by decide) ?_⟩
  simp only [itemFields, List.forall_mem_cons, List.forall_mem_append]
  exact ⟨.str _, ⟨⟨⟨⟨hc, by simp⟩, canonical_optional hl⟩, canonical_optional hm⟩,
    canonical_optional hf⟩, canonical_optional fun s _ => .str s⟩

theorem readsBack_orphan (orphan : LintRatchetOrphanRemoval) :
    ReadsBack (N := N) parseDebtLogOrphan orphanJson orphan := by
  intro y h
  rw [parseDebtLogOrphan] at h
  obtain ⟨fields, hfields, h⟩ := Option.bind_eq_some_iff.1 h
  obtain rfl := strictFields_obj hfields (List.Sublist.refl [js "testId", js "ruleId", js "metric",
    js "baselineItems"]) (by decide)
  obtain ⟨testId, htestId, h⟩ := Option.bind_eq_some_iff.1 h
  obtain ⟨ruleId, hruleId, h⟩ := Option.bind_eq_some_iff.1 h
  obtain ⟨metric, hmetric, h⟩ := Option.bind_eq_some_iff.1 h
  obtain ⟨baselineItems, hitems, h⟩ := Option.bind_eq_some_iff.1 h
  obtain ⟨rfl, -⟩ := (readsBack_string _ orphan.testId).required rfl htestId
  obtain ⟨rfl, -⟩ := (readsBack_string _ orphan.ruleId).required rfl hruleId
  obtain ⟨rfl, -⟩ := (readsBack_metric orphan.metric).required rfl hmetric
  obtain ⟨rfl, hi⟩ := ReadsBack.required (readsBack_array fun item (_ : item ∈ orphan.baselineItems) =>
    readsBack_orphanItem item) rfl hitems
  split at h
  · cases h
    refine ⟨rfl, canonical_obj [js "testId", js "ruleId", js "metric", js "baselineItems"]
      (List.Sublist.refl _) (by decide) (by decide) ?_⟩
    simp only [List.forall_mem_cons]
    exact ⟨.str _, .str _, .str _, hi, by simp⟩
  · cases h

/-! ## Entries -/

theorem canonical_of_built {v : Json N} (h : Built v) (hv : isJsonValue v = true) : Canonical v := by
  induction h with
  | null => exact .null
  | bool b => exact .bool b
  | num n => exact .num hv
  | str s => exact .str s
  | arr h ih =>
    rw [isJsonValue, isJsonValueList_eq, List.all_eq_true] at hv
    exact .arr fun v hm => ih v hm (hv v hm)
  | obj nodup ordered h ih =>
    rw [isJsonValue, isJsonValueFields_eq, List.all_eq_true] at hv
    exact .obj nodup ordered fun e he => ih e he (hv e he)

/-- The rule options of an attestation are values of the language. -/
structure AttestationBuilt (attestation : LintRatchetRetirementOptionsAttestation N) : Prop where
  ratchetOptions : ∀ v ∈ attestation.ratchetOptions, Built v
  normalLintOptions : ∀ vs ∈ attestation.normalLintOptions, ∀ v ∈ vs, Built v

theorem readsBack_jsonValue {v : Json N} (h : Built v) :
    ReadsBack (fun v => if isJsonValue v then some v else none) id v := by
  intro y hy
  dsimp only [id] at hy
  split at hy
  · next hv => exact ⟨(Option.some.inj hy).symm, canonical_of_built h hv⟩
  · cases hy

theorem readsBack_jsonValues {vs : List (Json N)} (h : ∀ v ∈ vs, Built v) :
    ReadsBack (arrayOf fun v => if isJsonValue v then some v else none) .arr vs := by
  have hvs := readsBack_array fun v hv => readsBack_jsonValue (h v hv)
  simp only [List.map_id] at hvs
  exact hvs

theorem readsBack_attestation {attestation : LintRatchetRetirementOptionsAttestation N}
    (ha : AttestationBuilt attestation) : ReadsBack parseAttestation attestationJson attestation := by
  intro y h
  rw [parseAttestation] at h
  obtain ⟨fields, hfields, h⟩ := Option.bind_eq_some_iff.1 h
  obtain rfl := strictFields_obj hfields (List.Sublist.refl [js "reason", js "ratchetOptions",
    js "normalLintOptions"]) (by decide)
  obtain ⟨reason, hreason, h⟩ := Option.bind_eq_some_iff.1 h
  obtain ⟨ratchetOptions, hratchet, h⟩ := Option.bind_eq_some_iff.1 h
  obtain ⟨normalLintOptions, hnormal, h⟩ := Option.bind_eq_some_iff.1 h
  cases h
  obtain ⟨rfl, -⟩ := (readsBack_string _ attestation.reason).required rfl hreason
  obtain ⟨rfl, hr⟩ := (readsBack_jsonValues ha.ratchetOptions).required rfl hratchet
  obtain ⟨rfl, hn⟩ := ReadsBack.required (readsBack_array fun vs hvs =>
    readsBack_jsonValues (ha.normalLintOptions vs hvs)) rfl hnormal
  refine ⟨rfl, canonical_obj [js "reason", js "ratchetOptions", js "normalLintOptions"]
    (List.Sublist.refl _) (by decide) (by decide) ?_⟩
  simp only [List.forall_mem_cons]
  exact ⟨.str _, hr, hn, by simp⟩

/-- An entry of the kind that an update builds. -/
def EntryBuilt : LintRatchetDebtLogEntry N → Prop
  | .acceptedDebt entry => ∀ r ∈ entry.regressions, Stripped r
  | .retirement entry => ∀ a ∈ entry.optionsAttestation, AttestationBuilt a
  | .metricMigration _ | .coverageShrink _ => True

theorem readsBack_accepted {entry : LintRatchetAcceptedDebtLogEntry N}
    (hr : ∀ r ∈ entry.regressions, Stripped r) :
    ReadsBack parseLintRatchetDebtLogEntry debtLogEntryJson (.acceptedDebt entry) := by
  intro y h
  obtain ⟨fields, hfields, h⟩ := Option.bind_eq_some_iff.1 (show (strictFields
    (js "kind" :: acceptedEntryNames) (debtLogEntryJson (.acceptedDebt entry))).bind
      parseAcceptedFields = some y from h)
  obtain rfl := strictFields_obj hfields (List.Sublist.refl [js "version", js "kind",
    js "acceptanceReason", js "regressions", js "orphansRemoved"]) (by decide)
  rw [parseAcceptedFields] at h
  obtain ⟨version, -, h⟩ := Option.bind_eq_some_iff.1 h
  obtain ⟨reason, hreason, h⟩ := Option.bind_eq_some_iff.1 h
  obtain ⟨regressions, hregressions, h⟩ := Option.bind_eq_some_iff.1 h
  obtain ⟨orphans, horphans, h⟩ := Option.bind_eq_some_iff.1 h
  obtain ⟨rfl, -⟩ := (readsBack_string _ entry.acceptanceReason).required rfl hreason
  obtain ⟨rfl, hrc⟩ := ReadsBack.required (readsBack_array fun r h => readsBack_regression (hr r h))
    rfl hregressions
  obtain ⟨rfl, hoc⟩ := ReadsBack.required (readsBack_array fun o (_ : o ∈ entry.orphansRemoved) =>
    readsBack_orphan o) rfl horphans
  split at h
  · cases h
  · cases h
    refine ⟨rfl, canonical_obj [js "version", js "kind", js "acceptanceReason", js "regressions",
      js "orphansRemoved"] (List.Sublist.refl _) (by decide) (by decide) ?_⟩
    simp only [List.forall_mem_cons]
    exact ⟨.str _, .str _, .str _, hrc, hoc, by simp⟩

theorem readsBack_retirement {entry : LintRatchetRetirementLogEntry N}
    (ha : ∀ a ∈ entry.optionsAttestation, AttestationBuilt a) :
    ReadsBack parseLintRatchetDebtLogEntry debtLogEntryJson (.retirement entry) := by
  intro y h
  have hkeys : (Entries.keys ([(js "version", Json.str (js "1")), (js "kind", .str (js "retirement")),
      (js "ratchetId", .str entry.ratchetId), (js "promotionProof", .str (js "normal-lint-error"))] ++
      optionalJson (js "optionsAttestation") entry.optionsAttestation attestationJson)).Sublist
        [js "version", js "kind", js "ratchetId", js "promotionProof", js "optionsAttestation"] := by
    rw [Entries.keys_append]
    exact (List.Sublist.refl _).append (keys_optional _ _ _)
  replace h : parseRetirementEntry (debtLogEntryJson (.retirement entry)) = some y := h
  rw [parseRetirementEntry] at h
  obtain ⟨fields, hfields, h⟩ := Option.bind_eq_some_iff.1 h
  obtain rfl := strictFields_obj hfields hkeys (by decide)
  obtain ⟨version, -, h⟩ := Option.bind_eq_some_iff.1 h
  obtain ⟨ratchetId, hratchetId, h⟩ := Option.bind_eq_some_iff.1 h
  obtain ⟨promotionProof, -, h⟩ := Option.bind_eq_some_iff.1 h
  obtain ⟨attestation, hattestation, h⟩ := Option.bind_eq_some_iff.1 h
  cases h
  obtain ⟨rfl, -⟩ := (readsBack_string _ entry.ratchetId).required rfl hratchetId
  obtain ⟨rfl, hac⟩ := ReadsBack.optional (fun a h => readsBack_attestation (ha a h))
    (by simp +decide [Entries.lookup_cons]) hattestation
  refine ⟨rfl, canonical_obj _ hkeys (by decide) (by decide) ?_⟩
  simp only [List.forall_mem_append, List.forall_mem_cons]
  exact ⟨⟨.str _, .str _, .str _, .str _, by simp⟩, canonical_optional hac⟩

theorem readsBack_metricMigration (entry : LintRatchetMetricMigrationLogEntry) :
    ReadsBack (N := N) parseLintRatchetDebtLogEntry debtLogEntryJson (.metricMigration entry) := by
  intro y h
  replace h : parseMetricMigrationEntry (debtLogEntryJson (.metricMigration entry)) = some y := h
  rw [parseMetricMigrationEntry] at h
  obtain ⟨fields, hfields, h⟩ := Option.bind_eq_some_iff.1 h
  obtain rfl := strictFields_obj hfields (List.Sublist.refl [js "version", js "kind", js "ratchetId",
    js "fromMetric", js "toMetric", js "reason"]) (by decide)
  obtain ⟨version, -, h⟩ := Option.bind_eq_some_iff.1 h
  obtain ⟨ratchetId, hratchetId, h⟩ := Option.bind_eq_some_iff.1 h
  obtain ⟨fromMetric, hfrom, h⟩ := Option.bind_eq_some_iff.1 h
  obtain ⟨toMetric, hto, h⟩ := Option.bind_eq_some_iff.1 h
  obtain ⟨reason, hreason, h⟩ := Option.bind_eq_some_iff.1 h
  obtain ⟨rfl, -⟩ := (readsBack_string _ entry.ratchetId).required rfl hratchetId
  obtain ⟨rfl, -⟩ := (readsBack_metric entry.fromMetric).required rfl hfrom
  obtain ⟨rfl, -⟩ := (readsBack_metric entry.toMetric).required rfl hto
  obtain ⟨rfl, -⟩ := (readsBack_string _ entry.reason).required rfl hreason
  split at h
  · cases h
  · cases h
    refine ⟨rfl, canonical_obj [js "version", js "kind", js "ratchetId", js "fromMetric",
      js "toMetric", js "reason"] (List.Sublist.refl _) (by decide) (by decide) ?_⟩
    simp only [List.forall_mem_cons]
    exact ⟨.str _, .str _, .str _, .str _, .str _, .str _, by simp⟩

theorem canonical_strings (ss : List JsString) : Canonical (stringsJson ss : Json N) := by
  refine .arr fun v hv => ?_
  obtain ⟨s, -, rfl⟩ := List.mem_map.1 hv
  exact .str s

theorem readsBack_coverageShrink (entry : LintRatchetCoverageShrinkLogEntry) :
    ReadsBack (N := N) parseLintRatchetDebtLogEntry debtLogEntryJson (.coverageShrink entry) := by
  intro y h
  replace h : parseCoverageShrinkEntry (debtLogEntryJson (.coverageShrink entry)) = some y := h
  rw [parseCoverageShrinkEntry] at h
  have hstrings (ss : List JsString) :
      ReadsBack (N := N) (arrayOf (stringWhere nonEmpty)) stringsJson ss :=
    readsBack_array fun s _ => readsBack_string nonEmpty s
  obtain ⟨fields, hfields, h⟩ := Option.bind_eq_some_iff.1 h
  obtain rfl := strictFields_obj hfields (List.Sublist.refl [js "version", js "kind", js "ratchetId",
    js "previousFiles", js "currentFiles", js "previousIgnores", js "currentIgnores",
    js "removedPaths", js "reason"]) (by decide)
  obtain ⟨version, -, h⟩ := Option.bind_eq_some_iff.1 h
  obtain ⟨ratchetId, hratchetId, h⟩ := Option.bind_eq_some_iff.1 h
  obtain ⟨previousFiles, hpf, h⟩ := Option.bind_eq_some_iff.1 h
  obtain ⟨currentFiles, hcf, h⟩ := Option.bind_eq_some_iff.1 h
  obtain ⟨previousIgnores, hpi, h⟩ := Option.bind_eq_some_iff.1 h
  obtain ⟨currentIgnores, hci, h⟩ := Option.bind_eq_some_iff.1 h
  obtain ⟨removedPaths, hpaths, h⟩ := Option.bind_eq_some_iff.1 h
  obtain ⟨reason, hreason, h⟩ := Option.bind_eq_some_iff.1 h
  obtain ⟨rfl, -⟩ := (readsBack_string _ entry.ratchetId).required rfl hratchetId
  obtain ⟨rfl, -⟩ := (hstrings entry.previousFiles).required rfl hpf
  obtain ⟨rfl, -⟩ := (hstrings entry.currentFiles).required rfl hcf
  obtain ⟨rfl, -⟩ := (hstrings entry.previousIgnores).required rfl hpi
  obtain ⟨rfl, -⟩ := (hstrings entry.currentIgnores).required rfl hci
  obtain ⟨rfl, -⟩ := (hstrings entry.removedPaths).required rfl hpaths
  obtain ⟨rfl, -⟩ := (readsBack_string _ entry.reason).required rfl hreason
  split at h
  · cases h
  · cases h
    refine ⟨rfl, canonical_obj [js "version", js "kind", js "ratchetId", js "previousFiles",
      js "currentFiles", js "previousIgnores", js "currentIgnores", js "removedPaths", js "reason"]
      (List.Sublist.refl _) (by decide) (by decide) ?_⟩
    simp only [List.forall_mem_cons]
    exact ⟨.str _, .str _, .str _, canonical_strings _, canonical_strings _, canonical_strings _,
      canonical_strings _, canonical_strings _, .str _, by simp⟩

/-- What the schema accepts of a built entry is that entry. -/
theorem readsBack_entry {entry : LintRatchetDebtLogEntry N} (h : EntryBuilt entry) :
    ReadsBack parseLintRatchetDebtLogEntry debtLogEntryJson entry := by
  cases entry with
  | acceptedDebt entry => exact readsBack_accepted h
  | retirement entry => exact readsBack_retirement h
  | metricMigration entry => exact readsBack_metricMigration entry
  | coverageShrink entry => exact readsBack_coverageShrink entry

/-! ## Logs -/

/-- What the writer asks of an entry before it appends it. -/
def EntryAppendable (entry : LintRatchetDebtLogEntry N) : Prop :=
  EntryBuilt entry ∧ (parseLintRatchetDebtLogEntry (debtLogEntryJson entry)).isSome = true

theorem EntryAppendable.parsed {entry : LintRatchetDebtLogEntry N} (h : EntryAppendable entry) :
    parseLintRatchetDebtLogEntry (debtLogEntryJson entry) = some entry ∧
      Canonical (debtLogEntryJson entry) := by
  obtain ⟨y, hy⟩ := Option.isSome_iff_exists.1 h.2
  obtain ⟨rfl, hcanonical⟩ := readsBack_entry h.1 y hy
  exact ⟨hy, hcanonical⟩

def debtLogLine (entry : LintRatchetDebtLogEntry N) : JsString := stringify (debtLogEntryJson entry)

theorem debtLogLine_getLast (entry : LintRatchetDebtLogEntry N) :
    (debtLogLine entry).getLast? = some (unit '}') := by
  cases entry <;> exact stringify_obj_getLast _

theorem lineBreak_notMem_debtLogLine (entry : LintRatchetDebtLogEntry N) : 0x0A ∉ debtLogLine entry :=
  fun h => absurd (stringify_printable _ _ h) (by decide)

theorem debtLogLines_batch {entries : List (LintRatchetDebtLogEntry N)} (hne : entries ≠ []) :
    debtLogLines (debtLogBatch entries) = entries.map debtLogLine := by
  have hsplit : splitOn 0x0A (debtLogBatch entries) = entries.map debtLogLine ++ [[]] := by
    refine splitOn_join (by simpa using hne) fun l hl => ?_
    obtain ⟨entry, -, rfl⟩ := List.mem_map.1 hl
    exact lineBreak_notMem_debtLogLine entry
  have hchop : (entries.map debtLogLine).map chopReturn = entries.map debtLogLine := by
    rw [List.map_map]
    refine List.map_congr_left fun entry _ => ?_
    rw [Function.comp_apply, chopReturn, debtLogLine_getLast, if_neg (by decide)]
  have hlines : splitLines (debtLogBatch entries) = entries.map debtLogLine ++ [[]] := by
    rw [splitLines, hsplit, List.dropLast_concat, hchop, List.getLast?_concat]
    rfl
  have htext : debtLogBatch entries ≠ [] := by simp [debtLogBatch]
  rw [debtLogLines, if_neg htext, hlines]
  dsimp only
  rw [List.getLast?_concat, if_pos rfl, List.dropLast_concat]

variable [Host]

theorem parseDebtLogLines_entries {entries : List (LintRatchetDebtLogEntry N)}
    (h : ∀ entry ∈ entries, EntryAppendable entry) (label : JsString) (lineNumber : Nat) :
    parseDebtLogLines label lineNumber (entries.map debtLogLine) = .ok entries := by
  induction entries generalizing lineNumber with
  | nil => rfl
  | cons entry entries ih =>
    rw [List.forall_mem_cons] at h
    obtain ⟨hparse, hcanonical⟩ := h.1.parsed
    have hline : parseDebtLogJsonlLine (debtLogLine entry) lineNumber label = .ok entry := by
      rw [parseDebtLogJsonlLine, debtLogLine, parseJson_stringify hcanonical]
      simp only [hparse]
    rw [List.map_cons, parseDebtLogLines, hline, ih h.2]
    rfl

/-- A batch of appendable entries is read back as it was built. -/
theorem parseDebtLogJsonl_batch {entries : List (LintRatchetDebtLogEntry N)} (hne : entries ≠ [])
    (h : ∀ entry ∈ entries, EntryAppendable entry) (label : JsString) :
    parseDebtLogJsonl (debtLogBatch entries) label = .ok entries := by
  rw [parseDebtLogJsonl, debtLogLines_batch hne]
  exact parseDebtLogLines_entries h label 1

/-- The line break that an unterminated log needs before a batch. -/
def batchSeparator (existing : JsString) : JsString :=
  if existing ≠ [] && !endsWith existing [0x0A] then [0x0A] else []

omit [Host] in
theorem appendedDebtLogText_batch (existing text name : JsString) :
    appendedDebtLogText existing (existing ++ (batchSeparator existing ++ text)) name = .ok text := by
  have hprefix : startsWith (existing ++ (batchSeparator existing ++ text)) existing = true := by simp
  rw [appendedDebtLogText, if_pos hprefix, List.drop_left, batchSeparator]
  split <;> rfl

/-- The entries added by appending a batch are the entries of the batch. -/
theorem addedDebtLogEntries_batch {entries old : List (LintRatchetDebtLogEntry N)}
    {existing name : JsString} (hold : parseDebtLogJsonl existing (name ++ js " at base") = .ok old)
    (hne : entries ≠ []) (h : ∀ entry ∈ entries, EntryAppendable entry) :
    addedDebtLogEntries existing (existing ++ (batchSeparator existing ++ debtLogBatch entries)) name =
      .ok entries := by
  rw [addedDebtLogEntries, hold, appendedDebtLogText_batch]
  exact parseDebtLogJsonl_batch hne h _

end Musi.LintRatchet
