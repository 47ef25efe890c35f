import Musi.LintRatchet.Kernel.BaselineFacts

namespace Musi.LintRatchet
open Musi.Js
set_option autoImplicit true

variable {N : Type} [JsNumber N]

/-! ## What canonical values tell apart -/

omit [JsNumber N] in
/-- A field of a normalized object. -/
theorem field_normalizeJsonValue {es : Entries (Json N)} (hn : (Entries.keys es).Nodup)
    (hp : ∀ e ∈ es, e.1 ≠ js "__proto__") (k : JsString) :
    (normalizeJsonValue (.obj es)).field k = (es.lookup k).map normalizeJsonValue := by
  have hkeys : (Entries.keys (es.map fun e => (e.1, normalizeJsonValue e.2))).Nodup := by
    rwa [Entries.keys_map fun _ => normalizeJsonValue]
  have hsort : (Entries.keys (sortKeys (es.map fun e => (e.1, normalizeJsonValue e.2)))).Nodup :=
    ((sortBy_perm _ _).map Prod.fst).nodup_iff.2 hkeys
  have hfilter : (sortKeys (es.map fun e => (e.1, normalizeJsonValue e.2))).filter
      (fun e => e.1 ≠ js "__proto__") = sortKeys (es.map fun e => (e.1, normalizeJsonValue e.2)) := by
    refine List.filter_eq_self.2 fun e he => ?_
    obtain ⟨f, hf, rfl⟩ := List.mem_map.1 (mem_sortBy.1 he)
    simpa using hp f hf
  rw [normalizeJsonValue, normalizeJsonFields_eq]
  change (Record.assignAll _).own k = _
  rw [Record.assignAll, hfilter, Record.own_fromEntries_of_nodup hsort,
    Entries.lookup_perm hsort (sortBy_perm _ _), Entries.lookup_map fun _ => normalizeJsonValue]

theorem sameCanonicalValue_iff {v w : Json N} (hv : isJsonValue v = true)
    (hw : isJsonValue w = true) :
    sameCanonicalValue v w = true ↔ normalizeJsonValue v = normalizeJsonValue w := by
  rw [sameCanonicalValue, decide_eq_true_eq]
  exact ⟨stringify_injective (canonical_normalizeJsonValue v hv) (canonical_normalizeJsonValue w hw),
    fun h => congrArg stringify h⟩

omit [JsNumber N] in
theorem normalizeJsonValue_strings (values : List JsString) :
    normalizeJsonValue (stringsJson values : Json N) = stringsJson values := by
  rw [stringsJson, normalizeJsonValue, normalizeJsonList_eq, List.map_map]
  rfl

omit [JsNumber N] in
/-- Objects of the same names whose values are normalized are told apart. -/
theorem normalizeJsonValue_obj_injective {es fs : Entries (Json N)}
    (hn : (Entries.keys es).Nodup) (hp : js "__proto__" ∉ Entries.keys es)
    (hk : Entries.keys es = Entries.keys fs) (he : ∀ e ∈ es, normalizeJsonValue e.2 = e.2)
    (hf : ∀ e ∈ fs, normalizeJsonValue e.2 = e.2)
    (h : normalizeJsonValue (.obj es) = normalizeJsonValue (.obj fs)) : es = fs := by
  have hname {gs : Entries (Json N)} (hg : js "__proto__" ∉ Entries.keys gs) :
      ∀ e ∈ gs, e.1 ≠ js "__proto__" :=
    fun e he hproto => hg (hproto ▸ List.mem_map_of_mem (f := Prod.fst) he)
  have hfields (k : JsString) := congrArg (Json.field · k) h
  simp only [field_normalizeJsonValue hn (hname hp),
    field_normalizeJsonValue (hk ▸ hn) (hname (hk ▸ hp))] at hfields
  refine eq_of_map_eq hk fun e hme f hmf hkey => Prod.ext hkey ?_
  have hvalue := hfields e.1
  rw [(Entries.mem_iff_lookup hn).1 (show (e.1, e.2) ∈ es from hme), hkey,
    (Entries.mem_iff_lookup (hk ▸ hn)).1 (show (f.1, f.2) ∈ fs from hmf)] at hvalue
  rw [← he e hme, ← hf f hmf]
  exact Option.some.inj hvalue

omit [JsNumber N] in
theorem stringsJson_injective {a b : List JsString} (h : (stringsJson a : Json N) = stringsJson b) :
    a = b :=
  List.map_injective_iff.2 (fun _ _ => Json.str.inj) (Json.arr.inj h)

omit [JsNumber N] in
theorem metaFields_injective {a b : LintRatchetBaselineGroupMeta N}
    (h : metaFields a = metaFields b) : a = b := by
  have hmode : a.mode = b.mode := by
    cases a.mode
    cases b.mode
    rfl
  simp only [metaFields, List.cons.injEq, Prod.mk.injEq, true_and, and_true, Json.str.injEq,
    Json.arr.injEq] at h
  obtain ⟨hrule, hmetric, hfiles, hignores, hoptions, hconfig, hsource⟩ := h
  have hmetric : a.metric = b.metric := by
    revert hmetric
    cases a.metric <;> cases b.metric <;> decide
  have hfiles := stringsJson_injective hfiles
  have hignores := stringsJson_injective hignores
  obtain ⟨rule, mode, metric, files, ignores, options, config, source⟩ := a
  dsimp only at *
  subst hrule hmode hmetric hfiles hignores hoptions hconfig hsource
  rfl

theorem isJsonValue_metaJson {m : LintRatchetBaselineGroupMeta N}
    (h : ∀ v ∈ m.ruleOptions, isJsonValue v = true) : isJsonValue (metaJson m) = true := by
  have hstrings (values : List JsString) : isJsonValue (stringsJson values : Json N) = true := by
    rw [stringsJson, isJsonValue, isJsonValueList_eq, List.all_map, List.all_eq_true]
    exact fun _ _ => rfl
  have hoptions : isJsonValue (.arr m.ruleOptions) = true := by
    rw [isJsonValue, isJsonValueList_eq, List.all_eq_true]
    exact h
  rw [metaJson, isJsonValue, isJsonValueFields_eq, List.all_eq_true]
  simp only [metaFields, List.forall_mem_cons]
  exact ⟨rfl, rfl, rfl, hstrings _, hstrings _, hoptions, rfl, rfl, by simp⟩

/-- Metadata whose rule options are normalized is the same canonical value only when it is the
same. -/
theorem sameMeta_iff {a b : LintRatchetBaselineGroupMeta N}
    (ha : ∀ v ∈ a.ruleOptions, isJsonValue v = true ∧ normalizeJsonValue v = v)
    (hb : ∀ v ∈ b.ruleOptions, isJsonValue v = true ∧ normalizeJsonValue v = v) :
    sameCanonicalValue (metaJson a) (metaJson b) = true ↔ a = b := by
  rw [sameCanonicalValue_iff (isJsonValue_metaJson fun v hv => (ha v hv).1)
    (isJsonValue_metaJson fun v hv => (hb v hv).1)]
  have hnames (m : LintRatchetBaselineGroupMeta N) : Entries.keys (metaFields m) = [js "ruleId",
      js "mode", js "metric", js "files", js "ignores", js "ruleOptions", js "configHash",
      js "ruleSourceHash"] := rfl
  have hfixed {m : LintRatchetBaselineGroupMeta N}
      (hm : ∀ v ∈ m.ruleOptions, isJsonValue v = true ∧ normalizeJsonValue v = v) :
      ∀ e ∈ metaFields m, normalizeJsonValue e.2 = e.2 := by
    have hoptions : normalizeJsonValue (.arr m.ruleOptions) = .arr m.ruleOptions := by
      rw [normalizeJsonValue, normalizeJsonList_eq]
      exact congrArg Json.arr ((List.map_congr_left fun v hv => (hm v hv).2).trans (List.map_id _))
    simp only [metaFields, List.forall_mem_cons]
    exact ⟨rfl, rfl, rfl, normalizeJsonValue_strings _, normalizeJsonValue_strings _, hoptions, rfl,
      rfl, by simp⟩
  refine ⟨fun h => metaFields_injective ?_, fun h => by rw [h]⟩
  exact normalizeJsonValue_obj_injective (hnames a ▸ by decide) (hnames a ▸ by decide)
    ((hnames a).trans (hnames b).symm) (hfixed ha) (hfixed hb) h

/-- A function of a diagnostic is told apart by its canonical value. -/
theorem normalize_complexityFunctionJson_injective {f g : LintRatchetComplexityFunction}
    (hf : FunctionWellFormed N f) (hg : FunctionWellFormed N g)
    (h : normalizeJsonValue (complexityFunctionJson f : Json N) =
      normalizeJsonValue (complexityFunctionJson g)) : f = g := by
  let fields (f : LintRatchetComplexityFunction) : Entries (Json N) :=
    [(js "line", natJson f.line), (js "label", .str f.label), (js "complexity", natJson f.complexity)]
  have hnames (f : LintRatchetComplexityFunction) :
      Entries.keys (fields f) = [js "line", js "label", js "complexity"] := rfl
  have hfixed (f : LintRatchetComplexityFunction) :
      ∀ e ∈ fields f, normalizeJsonValue e.2 = e.2 := by
    simp only [fields, List.forall_mem_cons]
    exact ⟨rfl, rfl, rfl, by simp⟩
  have hfields : fields f = fields g := normalizeJsonValue_obj_injective (hnames f ▸ by decide)
    (hnames f ▸ by decide) ((hnames f).trans (hnames g).symm) (hfixed f) (hfixed g) h
  simp only [fields, List.cons.injEq, Prod.mk.injEq, true_and, and_true, natJson, Json.num.injEq,
    Json.str.injEq] at hfields
  obtain ⟨hline, hlabel, hcomplexity⟩ := hfields
  have hline := hf.line.injective hg.line hline
  have hcomplexity := hf.complexity.injective hg.complexity hcomplexity
  cases f
  cases g
  cases hline
  cases hlabel
  cases hcomplexity
  rfl

theorem normalize_complexityFunctions_injective {fs gs : ComplexityFunctions}
    (hf : ∀ f ∈ fs, FunctionWellFormed N f) (hg : ∀ g ∈ gs, FunctionWellFormed N g)
    (h : normalizeJsonValue (.arr (fs.map complexityFunctionJson) : Json N) =
      normalizeJsonValue (.arr (gs.map complexityFunctionJson))) : fs = gs := by
  simp only [normalizeJsonValue, normalizeJsonList_eq, List.map_map, Json.arr.injEq] at h
  exact eq_of_map_eq h fun f hmf g hmg heq =>
    normalize_complexityFunctionJson_injective (hf f hmf) (hg g hmg) heq

/-- Items are told apart by their canonical values. -/
theorem sameItem_iff {a b : LintRatchetMetricItem} (ha : ItemWellFormed N a)
    (hb : ItemWellFormed N b) :
    sameCanonicalValue (itemJson a : Json N) (itemJson b) = true ↔ a = b := by
  rw [sameCanonicalValue_iff (isJsonValue_canonical (canonical_itemJson ha))
    (isJsonValue_canonical (canonical_itemJson hb))]
  refine ⟨fun h => ?_, fun h => by rw [h]⟩
  have hnodup (item : LintRatchetMetricItem) :
      (Entries.keys (itemFields item : Entries (Json N))).Nodup :=
    List.Nodup.sublist (itemFields_sublist item) (by decide)
  have hproto (item : LintRatchetMetricItem) : ∀ e ∈ (itemFields item : Entries (Json N)),
      e.1 ≠ js "__proto__" := by
    have hnames : ∀ k ∈ itemNames, k ≠ js "__proto__" := by decide
    exact fun e he => hnames e.1 ((itemFields_sublist item).subset (List.mem_map_of_mem he))
  have hfield (k : JsString) : ((itemJson a : Json N).field k).map normalizeJsonValue =
      ((itemJson b).field k).map normalizeJsonValue := by
    have := congrArg (Json.field · k) h
    simp only [itemJson, field_normalizeJsonValue (hnodup _) (hproto _)] at this
    exact this
  have hoption {α : Type} {k : JsString} {x y : Option α} {write : α → Json N}
      (hx : (itemJson a : Json N).field k = x.map write)
      (hy : (itemJson b : Json N).field k = y.map write)
      (hinj : ∀ v ∈ x, ∀ w ∈ y, normalizeJsonValue (write v) = normalizeJsonValue (write w) → v = w) :
      x = y := by
    have := hfield k
    rw [hx, hy] at this
    cases x with
    | none =>
      cases y with
      | none => rfl
      | some w => cases this
    | some v =>
      cases y with
      | none => cases this
      | some w => rw [hinj v rfl w rfl (Option.some.inj this)]
  have hcount : some a.count = some b.count := @hoption Nat _ _ _ natJson
    (field_itemJson a (js "count")) (field_itemJson b (js "count")) fun v hv w hw heq => by
      cases hv
      cases hw
      exact ha.count.injective hb.count (Json.num.inj heq)
  have hlines : a.lines = b.lines := hoption (field_itemJson a (js "lines"))
    (field_itemJson b (js "lines")) fun v hv w hw heq => by
      obtain ⟨m, rfl, hm⟩ := ha.lines v hv
      obtain ⟨n, rfl, hn⟩ := hb.lines w hw
      exact congrArg Nat.cast (hm.injective hn (Json.num.inj heq))
  have hmax : a.maxComplexity = b.maxComplexity := hoption (field_itemJson a (js "maxComplexity"))
    (field_itemJson b (js "maxComplexity")) fun v hv w hw heq =>
      (ha.maxComplexity v hv).injective (hb.maxComplexity w hw) (Json.num.inj heq)
  have hfunctions : a.perFunction = b.perFunction := hoption (field_itemJson a (js "perFunction"))
    (field_itemJson b (js "perFunction")) fun v hv w hw heq =>
      normalize_complexityFunctions_injective (ha.perFunction v hv) (hb.perFunction w hw) heq
  have hfingerprint : a.messagesFingerprint = b.messagesFingerprint :=
    hoption (field_itemJson a (js "messagesFingerprint"))
      (field_itemJson b (js "messagesFingerprint")) fun v _ w _ heq => Json.str.inj heq
  cases a
  cases b
  cases hcount
  cases hlines
  cases hmax
  cases hfunctions
  cases hfingerprint
  rfl

end Musi.LintRatchet
