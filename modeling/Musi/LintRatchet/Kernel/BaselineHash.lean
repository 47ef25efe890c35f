import Musi.Js.JsonRoundTrip
import Musi.LintRatchet.Kernel.CodepointCompare
import Musi.LintRatchet.Kernel.Patterns
import Musi.LintRatchet.Kernel.Types

namespace Musi.LintRatchet
open Musi.Js
set_option autoImplicit true

variable {N : Type} [JsNumber N]

mutual
def isJsonValue : Json N → Bool
  | .num n => JsNumber.isFinite n
  | .arr values => isJsonValueList values
  | .obj fields => isJsonValueFields fields
  | .null | .bool _ | .str _ => true
termination_by structural v => v

def isJsonValueList : List (Json N) → Bool
  | [] => true
  | v :: vs => isJsonValue v && isJsonValueList vs
termination_by structural v => v

def isJsonValueFields : List (JsString × Json N) → Bool
  | [] => true
  | e :: es => isJsonValueField e && isJsonValueFields es
termination_by structural v => v

def isJsonValueField : JsString × Json N → Bool
  | (_, v) => isJsonValue v
termination_by structural v => v
end

mutual
def normalizeJsonValue : Json N → Json N
  | .arr values => .arr (normalizeJsonList values)
  | .obj fields => .obj (Record.assignAll (sortKeys (normalizeJsonFields fields))).entries
  | .null => .null
  | .bool b => .bool b
  | .num n => .num n
  | .str s => .str s
termination_by structural v => v

def normalizeJsonList : List (Json N) → List (Json N)
  | [] => []
  | v :: vs => normalizeJsonValue v :: normalizeJsonList vs
termination_by structural v => v

def normalizeJsonFields : List (JsString × Json N) → List (JsString × Json N)
  | [] => []
  | e :: es => normalizeJsonField e :: normalizeJsonFields es
termination_by structural v => v

def normalizeJsonField : JsString × Json N → JsString × Json N
  | (k, v) => (k, normalizeJsonValue v)
termination_by structural v => v
end

/-- baseline-merge-values.ts repeats the normalization under this name. -/
def canonicalValue (v : Json N) : Json N := normalizeJsonValue v

def sameCanonicalValue (left right : Json N) : Bool :=
  stringify (canonicalValue left) = stringify (canonicalValue right)

def normalizeStringList (values : List JsString) : List JsString :=
  sortBy compareByCodepoint values

def normalizeRuleOptions (values : List (Json N)) : List (Json N) := values.map normalizeJsonValue

def stableJson (v : Json N) : JsString := stringify (normalizeJsonValue v)

def stringsJson (values : List JsString) : Json N := .arr (values.map .str)

def ruleNamespace (ruleId : JsString) : Option JsString :=
  if isNamespacedRuleId ruleId then
    match splitOn (unit '/') ruleId with
    | scope :: packageName :: _ :: _ =>
      if startsWith scope (js "@") then some (scope ++ js "/" ++ packageName) else some scope
    | parts => parts.head?
  else none

def ratchetSource (ratchet : LintRatchetConfig N) : LintRatchetRuleSource :=
  ratchet.source.getD .localRule

def ratchetParserProfile (ratchet : LintRatchetConfig N) : LintRatchetParserProfile :=
  ratchet.parserProfile.getD .minimalTs

def LintRatchetParserProfile.text : LintRatchetParserProfile → JsString
  | .minimalTs => js "minimal-ts"
  | .typeAwareTs => js "type-aware-ts"

def ruleSourceHashInput (config : LintRatchetConfig N) : Entries (Json N) :=
  let profile := ratchetParserProfile config
  let fields (source : Entries (Json N)) : Entries (Json N) :=
    [(js "parserProfile", .str profile.text), (js "source", .obj source)]
  match ratchetSource config with
  | .localRule =>
    if profile = .minimalTs then [] else fields [(js "kind", .str (js "local"))]
  | .thirdParty pluginModule =>
    fields [(js "kind", .str (js "third-party")), (js "pluginModule", .str pluginModule)]
  | .core => fields [(js "kind", .str (js "core"))]

def configHashInput (config : LintRatchetConfig N) : Json N :=
  .obj ([(js "files", stringsJson (normalizeStringList config.files)),
    (js "ignores", stringsJson (normalizeStringList config.ignores)),
    (js "metric", .str config.metric.text), (js "mode", .str config.mode.text),
    (js "ruleId", .str config.ruleId),
    (js "ruleOptions", .arr (normalizeRuleOptions config.ruleOptions))] ++
    (config.typeAwareProject.toList.map fun p => (js "typeAwareProject", .str p)) ++
    ruleSourceHashInput config)

def duplicateScopeKey (config : LintRatchetConfig N) : JsString :=
  stringify (N := N) (.obj ([(js "files", stringsJson (normalizeStringList config.files)),
    (js "ignores", stringsJson (normalizeStringList config.ignores)),
    (js "mode", .str config.mode.text), (js "ruleId", .str config.ruleId),
    (js "ruleOptions", .arr (normalizeRuleOptions config.ruleOptions))] ++
    ruleSourceHashInput config))

def computeLintRatchetConfigHash [Host] (config : LintRatchetConfig N) : JsString :=
  js "sha256:" ++ Host.sha256 (stringify (configHashInput config))

theorem computeLintRatchetConfigHash_sha256 [Host] (config : LintRatchetConfig N) :
    isSha256Hash (computeLintRatchetConfigHash config) = true :=
  isSha256Hash_append (Host.sha256_length _) (Host.sha256_hex _)

section Normalization

omit [JsNumber N] in
theorem normalizeJsonList_eq (vs : List (Json N)) :
    normalizeJsonList vs = vs.map normalizeJsonValue := by
  induction vs with
  | nil => rfl
  | cons v vs ih => rw [normalizeJsonList, ih, List.map_cons]

omit [JsNumber N] in
theorem normalizeJsonFields_eq (es : Entries (Json N)) :
    normalizeJsonFields es = es.map fun e => (e.1, normalizeJsonValue e.2) := by
  induction es with
  | nil => rfl
  | cons e es ih =>
    obtain ⟨k, v⟩ := e
    rw [normalizeJsonFields, normalizeJsonField, ih, List.map_cons]

theorem isJsonValueList_eq (vs : List (Json N)) : isJsonValueList vs = vs.all isJsonValue := by
  induction vs with
  | nil => rfl
  | cons v vs ih => rw [isJsonValueList, ih, List.all_cons]

theorem isJsonValueFields_eq (es : Entries (Json N)) :
    isJsonValueFields es = es.all fun e => isJsonValue e.2 := by
  induction es with
  | nil => rfl
  | cons e es ih =>
    obtain ⟨k, v⟩ := e
    rw [isJsonValueFields, isJsonValueField, ih, List.all_cons]

/-- A normalized JSON value can be written and read back. -/
theorem canonical_normalizeJsonValue (v : Json N) (h : isJsonValue v = true) :
    Canonical (normalizeJsonValue v) := by
  induction v using Json.induct with
  | null => exact .null
  | bool b => exact .bool b
  | num n => exact .num h
  | str s => exact .str s
  | arr vs ih =>
    rw [isJsonValue, isJsonValueList_eq, List.all_eq_true] at h
    rw [normalizeJsonValue, normalizeJsonList_eq]
    refine .arr fun w hw => ?_
    obtain ⟨v, hv, rfl⟩ := List.mem_map.1 hw
    exact ih v hv (h v hv)
  | obj es ih =>
    rw [isJsonValue, isJsonValueFields_eq, List.all_eq_true] at h
    rw [normalizeJsonValue, normalizeJsonFields_eq]
    refine .obj (Record.nodup _) (Record.ordered _) fun e he => ?_
    obtain ⟨f, hf, rfl⟩ := List.mem_map.1 (mem_sortBy.1 (Record.mem_assignAll he))
    exact ih f hf (h f hf)

omit [JsNumber N] in
/-- Normalizing is settled after one pass. -/
theorem normalizeJsonValue_idem (v : Json N) :
    normalizeJsonValue (normalizeJsonValue v) = normalizeJsonValue v := by
  induction v using Json.induct with
  | null => rfl
  | bool b => rfl
  | num n => rfl
  | str s => rfl
  | arr vs ih =>
    simp only [normalizeJsonValue, normalizeJsonList_eq, List.map_map]
    exact congrArg Json.arr (List.map_congr_left fun v hv => ih v hv)
  | obj es ih =>
    simp only [normalizeJsonValue, normalizeJsonFields_eq]
    set fs := sortKeys (es.map fun e => (e.1, normalizeJsonValue e.2)) with hfs
    have hfixed : (Record.assignAll fs).entries.map (fun e => (e.1, normalizeJsonValue e.2)) =
        (Record.assignAll fs).entries := by
      refine (List.map_congr_left fun e he => ?_).trans (List.map_id _)
      obtain ⟨f, hf, rfl⟩ := List.mem_map.1 (mem_sortBy.1 (Record.mem_assignAll he))
      simp only [ih f hf, id]
    have hsorted : fs.Pairwise fun a b => compareCodeUnits a.1 b.1 ≤ 0 :=
      sortBy_sorted (compareCodeUnits_strict.toConsistentComparator.comap Prod.fst) _
    rw [hfixed, Record.assignAll_sortKeys hsorted]

end Normalization

end Musi.LintRatchet
