import Musi.LintRatchet.Kernel.BaselineItemParse

namespace Musi.LintRatchet
open Musi.Js
set_option autoImplicit true

variable {N : Type} [JsNumber N]

/-- A natural number that the number type represents. -/
def Exact (N : Type) [JsNumber N] (n : Nat) : Prop :=
  JsNumber.toInt? (JsNumber.ofInt n : N) = some (n : Int)

theorem Exact.of_le (h : n ≤ 2 ^ 53) : Exact N n := JsNumber.toInt_ofInt (by simpa using h)

theorem Exact.finite (h : Exact N n) : JsNumber.isFinite (JsNumber.ofInt n : N) = true :=
  JsNumber.finite_of_toInt h

theorem Exact.injective (hm : Exact N m) (hn : Exact N n)
    (h : (JsNumber.ofInt m : N) = JsNumber.ofInt n) : m = n := by
  rw [Exact, h, hn, Option.some.injEq] at hm
  exact_mod_cast hm.symm

theorem Exact.canonical (h : Exact N n) : Canonical (natJson n : Json N) := .num h.finite

theorem nonNegativeInteger_natJson (h : Exact N n) :
    nonNegativeInteger (natJson n : Json N) = some n := by
  unfold Exact at h
  simp only [nonNegativeInteger, natJson, h]
  simp

theorem nonNegativeInteger_exact {v : Json N} (h : nonNegativeInteger v = some n) :
    Exact N n := by
  unfold nonNegativeInteger at h
  cases v with
  | num m =>
    obtain ⟨k, hk, hn⟩ := Option.bind_eq_some_iff.1 h
    split at hn
    · cases hn
    · next hneg =>
      cases hn
      have hk' : ((k.toNat : Nat) : Int) = k := Int.toNat_of_nonneg (by omega)
      rw [Exact, hk', JsNumber.ofInt_toInt hk, hk]
  | _ => cases h

structure FunctionWellFormed (N : Type) [JsNumber N] (f : LintRatchetComplexityFunction) : Prop where
  line : Exact N f.line
  label : f.label ≠ []
  complexity : Exact N f.complexity

/-- An item that the formatter writes and the parser reads back. -/
structure ItemWellFormed (N : Type) [JsNumber N] (item : LintRatchetMetricItem) : Prop where
  count : Exact N item.count
  lines : ∀ l ∈ item.lines, ∃ n : Nat, l = n ∧ Exact N n
  maxComplexity : ∀ m ∈ item.maxComplexity, Exact N m
  perFunction : ∀ fs ∈ item.perFunction, ∀ f ∈ fs, FunctionWellFormed N f
  messagesFingerprint : ∀ s ∈ item.messagesFingerprint, isSha256Hash s = true

theorem lookup_optional {α β : Type} (k k' : JsString) (o : Option α) (f : α → β) :
    List.lookup k' (o.toList.map fun x => (k, f x)) = if k' = k then o.map f else none := by
  cases o with
  | none => simp
  | some x => simp [Entries.lookup_cons]

theorem field_itemJson (item : LintRatchetMetricItem) (k : JsString) :
    (itemJson item : Json N).field k =
      if k = js "count" then some (natJson item.count)
      else if k = js "lines" then item.lines.map linesJson
      else if k = js "maxComplexity" then item.maxComplexity.map natJson
      else if k = js "perFunction" then
        item.perFunction.map fun fs => .arr (fs.map complexityFunctionJson)
      else if k = js "messagesFingerprint" then item.messagesFingerprint.map .str
      else none := by
  rw [itemJson, Json.field, itemFields]
  simp only [List.lookup_append, lookup_optional, Entries.lookup_cons, List.lookup_nil]
  by_cases h1 : k = js "count"
  · simp [h1]
  by_cases h2 : k = js "lines"
  · subst h2
    simp +decide
  by_cases h3 : k = js "maxComplexity"
  · subst h3
    simp +decide
  by_cases h4 : k = js "perFunction"
  · subst h4
    simp +decide
  simp [h1, h2, h3, h4]

theorem parseComplexityFunction_json (h : FunctionWellFormed N f) (path : JsString) :
    parseComplexityFunction (complexityFunctionJson f : Json N) path = .ok f := by
  have hline : (complexityFunctionJson f : Json N).field (js "line") = some (natJson f.line) := rfl
  have hlabel : (complexityFunctionJson f : Json N).field (js "label") = some (.str f.label) := rfl
  have hcomplexity : (complexityFunctionJson f : Json N).field (js "complexity") =
      some (natJson f.complexity) := rfl
  rw [parseComplexityFunction, hline, hlabel, hcomplexity]
  simp [requiredField, nonNegativeInteger_natJson h.line, nonNegativeInteger_natJson h.complexity,
    nonEmptyString, h.label, complexityFunctionJson, Json.asRecord, Parsed.ok]

theorem parseComplexityEntries_json {fs : ComplexityFunctions}
    (h : ∀ f ∈ fs, FunctionWellFormed N f) (path : JsString) (index : Nat) :
    parseComplexityEntries path index (fs.map (complexityFunctionJson (N := N))) = .ok fs := by
  induction fs generalizing index with
  | nil => rfl
  | cons f fs ih =>
    rw [List.forall_mem_cons] at h
    rw [List.map_cons, parseComplexityEntries, parseComplexityFunction_json h.1, ih h.2]
    rfl

omit [JsNumber N] in
theorem optionalField_map {T : Type} (o : Option T) (write : T → Json N)
    (read : Json N → Option T) (failure : JsString) (h : ∀ x ∈ o, read (write x) = some x) :
    optionalField (o.map write) read failure = .ok o := by
  cases o with
  | none => rfl
  | some x => simp [optionalField, h x rfl]

/-- The parser reads back every well-formed item the formatter writes. -/
theorem parseLintRatchetBaselineItem_json (hp : isNormalizedPath p = true)
    (h : ItemWellFormed N item) (path : JsString) :
    parseLintRatchetBaselineItem p (itemJson item : Json N) path = .ok item := by
  obtain ⟨lines, hlines⟩ : ∃ lines : Option Nat, item.lines = lines.map Nat.cast := by
    cases hl : item.lines with
    | none => exact ⟨none, rfl⟩
    | some l =>
      obtain ⟨n, rfl, -⟩ := h.lines l hl
      exact ⟨some n, rfl⟩
  have hexact : ∀ n ∈ lines, Exact N n := by
    intro n hn
    obtain ⟨m, hm, he⟩ := h.lines n (by rw [hlines, Option.mem_def.1 hn]; rfl)
    rwa [Nat.cast_inj.1 hm]
  have hl : (itemJson item : Json N).field (js "lines") = lines.map natJson := by
    rw [field_itemJson, hlines]
    simp only [show js "lines" ≠ js "count" by decide, if_false, if_true, Option.map_map]
    rfl
  have hm : (itemJson item : Json N).field (js "maxComplexity") =
      item.maxComplexity.map natJson := by
    rw [field_itemJson]; simp +decide
  have hs : (itemJson item : Json N).field (js "messagesFingerprint") =
      item.messagesFingerprint.map .str := by
    rw [field_itemJson]; simp +decide
  have hf : (itemJson item : Json N).field (js "perFunction") =
      item.perFunction.map fun fs => .arr (fs.map complexityFunctionJson) := by
    rw [field_itemJson]; simp +decide
  have hc : (itemJson item : Json N).field (js "count") = some (natJson item.count) := by
    rw [field_itemJson]; simp
  have hrecord : (itemJson item : Json N).asRecord = some (itemFields item) := rfl
  have hl' := optionalField_map (lines) (natJson (N := N)) nonNegativeInteger
    (path ++ js ".lines must be a non-negative integer")
    fun n hn => nonNegativeInteger_natJson (hexact n hn)
  have hm' := optionalField_map item.maxComplexity (natJson (N := N)) nonNegativeInteger
    (path ++ js ".maxComplexity must be a non-negative integer")
    fun m hm => nonNegativeInteger_natJson (h.maxComplexity m hm)
  have hs' := optionalField_map item.messagesFingerprint (Json.str (N := N)) sha256String
    (path ++ js ".messagesFingerprint must be a sha256 hash")
    fun s hs => by simp [sha256String, h.messagesFingerprint s hs]
  simp only [parseLintRatchetBaselineItem, hp, hrecord, hc, Option.bind_some,
    nonNegativeInteger_natJson h.count, Bool.not_true, Bool.false_eq_true, if_false,
    parseMetricFields, hl, hl', hm, hm', hs, hs', hf, Parsed.ok]
  cases hpf : item.perFunction with
  | none =>
    simp only [Option.map_none, ← hlines, Option.join_some, List.append_nil]
    rw [← hpf]
  | some fs =>
    simp only [Option.map_some, ← hlines, Option.join_some, List.append_nil,
      parseComplexityFunctions, parseComplexityEntries_json (h.perFunction fs hpf), Parsed.ok]
    rw [← hpf]

/-- The names an item is written with. -/
def itemNames : List JsString :=
  [js "count", js "lines", js "maxComplexity", js "perFunction", js "messagesFingerprint"]

theorem keys_optional {α β : Type} (k : JsString) (o : Option α) (f : α → β) :
    (Entries.keys (o.toList.map fun x => (k, f x))).Sublist [k] := by
  cases o <;> simp

theorem itemFields_sublist (item : LintRatchetMetricItem) :
    (Entries.keys (itemFields item : Entries (Json N))).Sublist itemNames := by
  simp only [itemFields, Entries.keys_append]
  exact ((((List.Sublist.refl [js "count"]).append (keys_optional _ _ _)).append
    (keys_optional _ _ _)).append (keys_optional _ _ _)).append (keys_optional _ _ _)

/-- An object whose names come from a list of plain names is written as it stands. -/
theorem canonical_obj {es : Entries (Json N)} (names : List JsString)
    (hs : (Entries.keys es).Sublist names) (hn : names.Nodup)
    (hi : ∀ k ∈ names, isArrayIndex k = false) (h : ∀ e ∈ es, Canonical e.2) :
    Canonical (.obj es) :=
  .obj (hn.sublist hs) (ownKeyOrder_of_names fun k hk => hi k (hs.subset hk)) h

theorem canonical_complexityFunctionJson (h : FunctionWellFormed N f) :
    Canonical (complexityFunctionJson f : Json N) := by
  refine canonical_obj [js "line", js "label", js "complexity"] (List.Sublist.refl _)
    (by decide) (by decide) ?_
  simp only [List.forall_mem_cons]
  exact ⟨h.line.canonical, .str _, h.complexity.canonical, by simp⟩

theorem canonical_itemJson (h : ItemWellFormed N item) : Canonical (itemJson item : Json N) := by
  refine canonical_obj itemNames (itemFields_sublist item) (by decide) (by decide) fun e he => ?_
  simp only [itemFields, List.mem_append, List.mem_singleton, List.mem_map, Option.mem_toList] at he
  rcases he with (((rfl | ⟨l, hl, rfl⟩) | ⟨m, hm, rfl⟩) | ⟨fs, hfs, rfl⟩) | ⟨s, -, rfl⟩
  · exact h.count.canonical
  · obtain ⟨n, rfl, hn⟩ := h.lines l hl
    exact hn.canonical
  · exact (h.maxComplexity m hm).canonical
  · refine .arr fun v hv => ?_
    obtain ⟨f, hf, rfl⟩ := List.mem_map.1 hv
    exact canonical_complexityFunctionJson (h.perFunction fs hfs f hf)
  · exact .str s

/-- Well-formed items with one JSON form are equal. -/
theorem itemJson_injective (ha : ItemWellFormed N a) (hb : ItemWellFormed N b)
    (h : (itemJson a : Json N) = itemJson b) : a = b := by
  have h1 := parseLintRatchetBaselineItem_json (p := js "a") (by decide) ha []
  rw [h, parseLintRatchetBaselineItem_json (by decide) hb] at h1
  simpa [Parsed.ok] using h1.symm

omit [JsNumber N] in
theorem requiredField_value {T : Type} {v : Option (Json N)} {read : Json N → Option T}
    {failure : JsString} {x : T} (h : (requiredField v read failure).value = some x) :
    ∃ w, v = some w ∧ read w = some x := by
  unfold requiredField at h
  split at h
  · next y hy =>
    cases h
    exact Option.bind_eq_some_iff.1 hy
  · cases h

theorem parseComplexityFunction_wellFormed {v : Json N}
    (h : (parseComplexityFunction v path).value = some f) : FunctionWellFormed N f := by
  unfold parseComplexityFunction at h
  split at h
  · cases h
  · dsimp only at h
    split at h
    · next line label complexity hl hs hc =>
      cases h
      obtain ⟨vl, -, hvl⟩ := requiredField_value hl
      obtain ⟨vs, -, hvs⟩ := requiredField_value hs
      obtain ⟨vc, -, hvc⟩ := requiredField_value hc
      refine ⟨nonNegativeInteger_exact hvl, ?_, nonNegativeInteger_exact hvc⟩
      unfold nonEmptyString at hvs
      split at hvs
      · split at hvs
        · cases hvs
        · next hne =>
          cases hvs
          exact hne
      · cases hvs
    · cases h

theorem parseComplexityEntries_wellFormed {vs : List (Json N)} {index : Nat}
    (h : (parseComplexityEntries path index vs).value = some fs) :
    ∀ f ∈ fs, FunctionWellFormed N f := by
  induction vs generalizing index fs with
  | nil =>
    cases h
    simp
  | cons v vs ih =>
    simp only [parseComplexityEntries, Option.some.injEq] at h
    subst h
    intro f hf
    rcases List.mem_append.1 hf with hf | hf
    · exact parseComplexityFunction_wellFormed (Option.mem_toList.1 hf)
    · cases hr : (parseComplexityEntries path (index + 1) vs).value with
      | none => simp [hr] at hf
      | some gs => exact ih hr f (by simpa [hr] using hf)

omit [JsNumber N] in
theorem optionalField_value {T : Type} {v : Option (Json N)} {read : Json N → Option T}
    {failure : JsString} {y : T} (h : (optionalField v read failure).value = some (some y)) :
    ∃ w, read w = some y := by
  cases v with
  | none => simp [optionalField, Parsed.ok] at h
  | some w =>
    cases hr : read w with
    | none => simp [optionalField, hr, Parsed.fail] at h
    | some x =>
      simp only [optionalField, hr, Parsed.ok, Option.some.injEq] at h
      exact ⟨w, h ▸ hr⟩

/-- Every item the parser accepts is well formed. -/
theorem parseLintRatchetBaselineItem_wellFormed {v : Json N}
    (h : (parseLintRatchetBaselineItem p v path).value = some item) :
    isNormalizedPath p = true ∧ ItemWellFormed N item := by
  unfold parseLintRatchetBaselineItem at h
  split at h
  · cases h
  · next hp =>
    refine ⟨by simpa using hp, ?_⟩
    split at h
    · cases h
    · split at h
      · cases h
      · next count hcount =>
        obtain ⟨vc, -, hvc⟩ := Option.bind_eq_some_iff.1 hcount
        unfold parseMetricFields at h
        split at h
        · cases h
        · next lines fl hlines =>
          split at h
          · cases h
          · next maxComplexity fm hmax =>
            simp only [Option.some.injEq] at h
            subst h
            refine ⟨nonNegativeInteger_exact hvc, ?_, ?_, ?_, ?_⟩
            · intro l hl
              obtain ⟨n, hn, rfl⟩ := Option.map_eq_some_iff.1 hl
              obtain ⟨w, hw⟩ := optionalField_value (by rw [hlines, hn])
              exact ⟨n, rfl, nonNegativeInteger_exact hw⟩
            · intro m (hm : maxComplexity = some m)
              obtain ⟨w, hw⟩ := optionalField_value (by rw [hmax, hm])
              exact nonNegativeInteger_exact hw
            · intro fs hfs
              simp only at hfs
              split at hfs
              · cases hfs
              · next w hw =>
                unfold parseComplexityFunctions at hfs
                split at hfs
                · exact parseComplexityEntries_wellFormed hfs
                · cases hfs
            · intro s hs
              obtain ⟨w, hw⟩ := optionalField_value (Option.join_eq_some_iff.1 hs)
              unfold sha256String at hw
              split at hw
              · split at hw
                · next hx => exact Option.some.inj hw ▸ hx
                · cases hw
              · cases hw

/-! ## The committed form of an item -/

section Format
variable [Host]

omit [JsNumber N] in
@[simp] theorem formatItem_count (metric : LintRatchetMetric) (item : LintRatchetMetricItem) :
    (formatItem metric item).count = item.count := by
  cases metric with
  | messageCount => rfl
  | effectiveLineCount => rfl
  | complexitySeverity =>
    simp only [formatItem]
    split <;> rfl

omit [JsNumber N] in
theorem formatItem_complexity {fs : ComplexityFunctions} (hf : sortedComplexityFunctions item = some fs)
    (hm : maxComplexityFor (some fs) = some m) : formatItem .complexitySeverity item =
      { count := item.count, maxComplexity := some m, perFunction := some fs } := by
  simp only [formatItem, hf, hm]

omit [JsNumber N] in
theorem formatItem_complexity_none (h : maxComplexityFor (sortedComplexityFunctions item) = none) :
    formatItem .complexitySeverity item = { count := item.count } := by
  simp only [formatItem, h]
  split
  · next h' => cases h'
  · rfl

omit [JsNumber N] in
/-- Formatting an item is settled after one pass. -/
theorem formatItem_idem (metric : LintRatchetMetric) (item : LintRatchetMetricItem) :
    formatItem metric (formatItem metric item) = formatItem metric item := by
  cases metric with
  | messageCount => rfl
  | effectiveLineCount => rfl
  | complexitySeverity =>
    cases hm : maxComplexityFor (sortedComplexityFunctions item) with
    | none =>
      rw [formatItem_complexity_none hm]
      exact formatItem_complexity_none rfl
    | some m =>
      cases hf : sortedComplexityFunctions item with
      | none => simp [hf, maxComplexityFor] at hm
      | some fs =>
        rw [hf] at hm
        obtain ⟨gs, -, rfl⟩ := Option.map_eq_some_iff.1 hf
        rw [formatItem_complexity hf hm]
        refine formatItem_complexity ?_ hm
        exact congrArg some (sortBy_idem compareComplexityFunction_consistent gs)

theorem ItemWellFormed.formatItem (h : ItemWellFormed N item) (metric : LintRatchetMetric) :
    ItemWellFormed N (formatItem metric item) := by
  cases metric with
  | messageCount => exact ⟨h.count, by simp [LintRatchet.formatItem],
      by simp [LintRatchet.formatItem], by simp [LintRatchet.formatItem], h.messagesFingerprint⟩
  | effectiveLineCount => exact ⟨h.count, h.lines, by simp [LintRatchet.formatItem],
      by simp [LintRatchet.formatItem], by simp [LintRatchet.formatItem]⟩
  | complexitySeverity =>
    simp only [LintRatchet.formatItem]
    split
    · next fs m hfs hm =>
      obtain ⟨gs, hgs, rfl⟩ := Option.map_eq_some_iff.1 hfs
      have hwf (f) (hf : f ∈ sortBy compareComplexityFunction gs) : FunctionWellFormed N f :=
        h.perFunction gs hgs f (mem_sortBy.1 hf)
      refine ⟨h.count, by simp, ?_, ?_, by simp⟩
      · intro k hk
        obtain rfl := Option.some.inj hk
        obtain ⟨f, hf, rfl⟩ := maxComplexityFor_mem (hfs ▸ hm)
        exact (hwf f hf).complexity
      · intro fs hfs' f hf
        obtain rfl := Option.some.inj hfs'
        exact hwf f hf
    · exact ⟨h.count, by simp, by simp, by simp, by simp⟩

end Format

end Musi.LintRatchet
