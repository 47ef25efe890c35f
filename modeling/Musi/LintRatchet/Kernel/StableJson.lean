import Musi.Js.JsonWire
import Musi.Js.Number
import Musi.LintRatchet.Kernel.BaselineHash

namespace Musi.LintRatchet
open Musi.Js
set_option autoImplicit true

variable {N : Type}

/-- Equality up to the order of object keys at every depth. -/
inductive EqualUpToKeyOrder : Json N → Json N → Prop
  | null : EqualUpToKeyOrder .null .null
  | bool (b : Bool) : EqualUpToKeyOrder (.bool b) (.bool b)
  | num (n : N) : EqualUpToKeyOrder (.num n) (.num n)
  | str (s : JsString) : EqualUpToKeyOrder (.str s) (.str s)
  | arr (length : vs.length = ws.length)
      (members : ∀ (i : Nat) v w, vs[i]? = some v → ws[i]? = some w → EqualUpToKeyOrder v w) :
      EqualUpToKeyOrder (.arr vs) (.arr ws)
  | obj (names : ∀ k, k ∈ Entries.keys es ↔ k ∈ Entries.keys fs)
      (members : ∀ k v w, (k, v) ∈ es → (k, w) ∈ fs → EqualUpToKeyOrder v w) :
      EqualUpToKeyOrder (.obj es) (.obj fs)

mutual
/-- A value without the members named `__proto__`, at every depth. -/
def withoutProto : Json N → Json N
  | .arr values => .arr (withoutProtoList values)
  | .obj fields => .obj ((withoutProtoFields fields).filter fun e => e.1 ≠ js "__proto__")
  | .null => .null
  | .bool b => .bool b
  | .num n => .num n
  | .str s => .str s
termination_by structural v => v

def withoutProtoList : List (Json N) → List (Json N)
  | [] => []
  | v :: vs => withoutProto v :: withoutProtoList vs
termination_by structural v => v

def withoutProtoFields : List (JsString × Json N) → List (JsString × Json N)
  | [] => []
  | e :: es => withoutProtoField e :: withoutProtoFields es
termination_by structural v => v

def withoutProtoField : JsString × Json N → JsString × Json N
  | (k, v) => (k, withoutProto v)
termination_by structural v => v
end

theorem withoutProtoList_eq (vs : List (Json N)) : withoutProtoList vs = vs.map withoutProto := by
  induction vs with
  | nil => rfl
  | cons v vs ih => rw [withoutProtoList, ih, List.map_cons]

theorem withoutProtoFields_eq (es : Entries (Json N)) :
    withoutProtoFields es = es.map fun e => (e.1, withoutProto e.2) := by
  induction es with
  | nil => rfl
  | cons e es ih =>
    obtain ⟨k, v⟩ := e
    rw [withoutProtoFields, withoutProtoField, ih, List.map_cons]

/-- The members that withoutProto leaves of an object. -/
theorem mem_withoutProto {es : Entries (Json N)} {k : JsString} {v : Json N} :
    (k, v) ∈ (withoutProtoFields es).filter (fun e => e.1 ≠ js "__proto__") ↔
      k ≠ js "__proto__" ∧ ∃ u, (k, u) ∈ es ∧ withoutProto u = v := by
  rw [withoutProtoFields_eq, List.mem_filter, List.mem_map, decide_eq_true_eq, and_comm]
  refine and_congr_right fun _ => ?_
  constructor
  · rintro ⟨⟨k', u⟩, hu, he⟩
    cases he
    exact ⟨u, hu, rfl⟩
  · rintro ⟨u, hu, rfl⟩
    exact ⟨(k, u), hu, rfl⟩

theorem keys_withoutProto {es : Entries (Json N)} {k : JsString} :
    k ∈ Entries.keys ((withoutProtoFields es).filter fun e => e.1 ≠ js "__proto__") ↔
      k ≠ js "__proto__" ∧ k ∈ Entries.keys es := by
  rw [Entries.mem_keys, Entries.mem_keys]
  constructor
  · rintro ⟨v, hv⟩
    obtain ⟨hk, u, hu, -⟩ := mem_withoutProto.1 hv
    exact ⟨hk, u, hu⟩
  · rintro ⟨hk, u, hu⟩
    exact ⟨withoutProto u, mem_withoutProto.2 ⟨hk, u, hu, rfl⟩⟩

theorem map_eq_iff_pointwise {α β : Type} {f : α → β} {vs ws : List α} :
    vs.map f = ws.map f ↔ vs.length = ws.length ∧
      ∀ (i : Nat) v w, vs[i]? = some v → ws[i]? = some w → f v = f w := by
  constructor
  · intro h
    have hlength := congrArg List.length h
    rw [List.length_map, List.length_map] at hlength
    refine ⟨hlength, fun i v w hv hw => ?_⟩
    have hi := congrArg (·[i]?) h
    simpa [hv, hw] using hi
  · rintro ⟨hlength, h⟩
    apply List.ext_getElem?
    intro i
    rw [List.getElem?_map, List.getElem?_map]
    cases hv : vs[i]? with
    | none =>
      rw [List.getElem?_eq_none_iff, hlength, ← List.getElem?_eq_none_iff] at hv
      rw [hv]
    | some v =>
      cases hw : ws[i]? with
      | none =>
        rw [List.getElem?_eq_none_iff, ← hlength, ← List.getElem?_eq_none_iff] at hw
        rw [hw] at hv
        cases hv
      | some w => exact congrArg some (h i v w hv hw)

/-! ## What normalization keeps of an object -/

/-- The assignments in sorted order, without the one that reaches the prototype. -/
theorem own_normalized {es : Entries (Json N)} (hn : (Entries.keys es).Nodup) (k : JsString) :
    (normalizeJsonValue (.obj es)).field k =
      if k = js "__proto__" then none else (es.lookup k).map normalizeJsonValue := by
  have hkeys : (Entries.keys (es.map fun e => (e.1, normalizeJsonValue e.2))).Nodup := by
    rwa [Entries.keys_map fun _ => normalizeJsonValue]
  have hsort : (Entries.keys (sortKeys (es.map fun e => (e.1, normalizeJsonValue e.2)))).Nodup :=
    ((sortBy_perm _ _).map Prod.fst).nodup_iff.2 hkeys
  rw [normalizeJsonValue, normalizeJsonFields_eq]
  change (Record.assignAll _).own k = _
  rw [Record.assignAll, Record.own_fromEntries_of_nodup (hsort.sublist (List.filter_sublist.map _)),
    Entries.lookup_filter hsort, Entries.lookup_perm hsort (sortBy_perm _ _),
    Entries.lookup_map fun _ => normalizeJsonValue]
  by_cases hk : k = js "__proto__"
  · rw [if_pos hk]
    cases es.lookup k <;> simp [hk]
  · rw [if_neg hk]
    cases es.lookup k <;> simp [hk]

/-- The result depends on what each name but `__proto__` is assigned. -/
theorem assignAll_sortKeys_congr {es fs : Entries (Json N)} (he : (Entries.keys es).Nodup)
    (hf : (Entries.keys fs).Nodup) (h : ∀ k, k ≠ js "__proto__" → es.lookup k = fs.lookup k) :
    Record.assignAll (sortKeys es) = Record.assignAll (sortKeys fs) := by
  have hkeys {gs : Entries (Json N)} (hg : (Entries.keys gs).Nodup) :
      (Entries.keys (sortKeys gs)).Nodup := ((sortBy_perm _ _).map Prod.fst).nodup_iff.2 hg
  have hsorted (gs : Entries (Json N)) :
      ((sortKeys gs).filter fun e => e.1 ≠ js "__proto__").Pairwise fun a b =>
        compareCodeUnits a.1 b.1 ≤ 0 :=
    (sortBy_sorted (compareCodeUnits_strict.toConsistentComparator.comap
      (Prod.fst : JsString × Json N → JsString)) gs).filter _
  have hmem (e : JsString × Json N) :
      e ∈ (sortKeys es).filter (fun e => e.1 ≠ js "__proto__") ↔
        e ∈ (sortKeys fs).filter fun e => e.1 ≠ js "__proto__" := by
    obtain ⟨k, v⟩ := e
    rw [List.mem_filter, List.mem_filter, decide_eq_true_eq]
    refine and_congr_left fun hk => ?_
    rw [sortKeys, sortKeys, mem_sortBy, mem_sortBy, Entries.mem_iff_lookup he,
      Entries.mem_iff_lookup hf, h k hk]
  have hnodup {gs : Entries (Json N)} (hg : (Entries.keys gs).Nodup) :
      ((sortKeys gs).filter fun e => e.1 ≠ js "__proto__").Nodup :=
    (List.Nodup.of_map Prod.fst (hkeys hg)).filter _
  have hsame : (sortKeys es).filter (fun e => e.1 ≠ js "__proto__") =
      (sortKeys fs).filter fun e => e.1 ≠ js "__proto__" := by
    refine eq_of_perm_sorted (hsorted es) (hsorted fs)
      ((List.perm_ext_iff_of_nodup (hnodup he) (hnodup hf)).2 hmem) fun a ha b hb hab hba => ?_
    have hk : a.1 = b.1 := compareCodeUnits_strict.antisymm hab hba
    have hla := (Entries.mem_iff_lookup (hkeys hf)).1
      (show (a.1, a.2) ∈ sortKeys fs from List.mem_of_mem_filter ((hmem a).1 ha))
    have hlb := (Entries.mem_iff_lookup (hkeys hf)).1
      (show (b.1, b.2) ∈ sortKeys fs from List.mem_of_mem_filter hb)
    rw [hk, hlb] at hla
    exact Prod.ext hk (Option.some.inj hla).symm
  rw [Record.assignAll, Record.assignAll, hsame]

theorem normalize_obj_iff {es fs : Entries (Json N)} (he : (Entries.keys es).Nodup)
    (hf : (Entries.keys fs).Nodup) :
    normalizeJsonValue (.obj es) = normalizeJsonValue (.obj fs) ↔
      ∀ k, k ≠ js "__proto__" →
        (es.lookup k).map normalizeJsonValue = (fs.lookup k).map normalizeJsonValue := by
  constructor
  · intro h k hk
    have hfield := congrArg (Json.field · k) h
    simpa only [own_normalized he, own_normalized hf, if_neg hk] using hfield
  · intro h
    rw [normalizeJsonValue, normalizeJsonValue, normalizeJsonFields_eq, normalizeJsonFields_eq]
    refine congrArg (fun r : Record (Json N) => Json.obj r.entries)
      (assignAll_sortKeys_congr ?_ ?_ fun k hk => ?_)
    · rwa [Entries.keys_map fun _ => normalizeJsonValue]
    · rwa [Entries.keys_map fun _ => normalizeJsonValue]
    · rw [Entries.lookup_map fun _ => normalizeJsonValue,
        Entries.lookup_map fun _ => normalizeJsonValue, h k hk]

/-- Normalized values are equal exactly where the values agree up to the order of their keys, their
members named `__proto__` aside. -/
theorem normalizeJsonValue_eq_iff {v w : Json N} (hv : Built v) (hw : Built w) :
    normalizeJsonValue v = normalizeJsonValue w ↔
      EqualUpToKeyOrder (withoutProto v) (withoutProto w) := by
  induction v using Json.induct generalizing w with
  | null =>
    cases w with
    | null => exact iff_of_true rfl .null
    | _ => exact iff_of_false (fun h => by cases h) fun h => by cases h
  | bool b =>
    cases w with
    | bool c =>
      constructor
      · intro h
        cases h
        exact .bool b
      · intro h
        cases h
        rfl
    | _ => exact iff_of_false (fun h => by cases h) fun h => by cases h
  | num n =>
    cases w with
    | num m =>
      constructor
      · intro h
        cases h
        exact .num n
      · intro h
        cases h
        rfl
    | _ => exact iff_of_false (fun h => by cases h) fun h => by cases h
  | str s =>
    cases w with
    | str t =>
      constructor
      · intro h
        cases h
        exact .str s
      · intro h
        cases h
        rfl
    | _ => exact iff_of_false (fun h => by cases h) fun h => by cases h
  | arr vs ih =>
    cases w with
    | arr ws =>
      cases hv with
      | arr hvs =>
        cases hw with
        | arr hws =>
          rw [normalizeJsonValue, normalizeJsonValue, normalizeJsonList_eq, normalizeJsonList_eq,
            withoutProto, withoutProto, withoutProtoList_eq, withoutProtoList_eq, Json.arr.injEq,
            map_eq_iff_pointwise]
          constructor
          · rintro ⟨hlength, h⟩
            refine .arr (by rw [List.length_map, List.length_map, hlength]) fun i v' w' hv' hw' => ?_
            rw [List.getElem?_map, Option.map_eq_some_iff] at hv' hw'
            obtain ⟨v, hv, rfl⟩ := hv'
            obtain ⟨w, hw, rfl⟩ := hw'
            have hmv := List.mem_of_getElem? hv
            exact (ih v hmv (hvs v hmv) (hws w (List.mem_of_getElem? hw))).1 (h i v w hv hw)
          · intro h
            cases h with
            | arr hlength h =>
              rw [List.length_map, List.length_map] at hlength
              refine ⟨hlength, fun i v w hv hw => ?_⟩
              have hmv := List.mem_of_getElem? hv
              refine (ih v hmv (hvs v hmv) (hws w (List.mem_of_getElem? hw))).2 (h i _ _ ?_ ?_)
              · rw [List.getElem?_map, hv, Option.map_some]
              · rw [List.getElem?_map, hw, Option.map_some]
    | _ => exact iff_of_false (fun h => by cases h) fun h => by cases h
  | obj es ih =>
    cases w with
    | obj fs =>
      cases hv with
      | obj hes _ hvs =>
        cases hw with
        | obj hfs _ hws =>
          rw [normalize_obj_iff hes hfs, withoutProto, withoutProto]
          constructor
          · intro h
            refine .obj (fun k => ?_) fun k v' w' hv' hw' => ?_
            · rw [keys_withoutProto, keys_withoutProto]
              refine and_congr_right fun hk => ?_
              have hlookup := congrArg Option.isSome (h k hk)
              rw [Option.isSome_map, Option.isSome_map] at hlookup
              rw [← not_iff_not, ← Entries.lookup_none, ← Entries.lookup_none,
                ← Option.not_isSome_iff_eq_none, ← Option.not_isSome_iff_eq_none, hlookup]
            · obtain ⟨hk, v, hv, rfl⟩ := mem_withoutProto.1 hv'
              obtain ⟨-, w, hw, rfl⟩ := mem_withoutProto.1 hw'
              have hvalue := h k hk
              rw [(Entries.mem_iff_lookup hes).1 hv, (Entries.mem_iff_lookup hfs).1 hw] at hvalue
              exact (ih _ hv (hvs _ hv) (hws _ hw)).1 (Option.some.inj hvalue)
          · intro h k hk
            cases h with
            | obj names members =>
              have hname := names k
              rw [keys_withoutProto, keys_withoutProto, and_congr_right_iff] at hname
              have hnone := not_congr (hname hk)
              rw [← Entries.lookup_none, ← Entries.lookup_none] at hnone
              cases hv : es.lookup k with
              | none => rw [hnone.1 hv]
              | some v =>
                cases hw : fs.lookup k with
                | none => rw [hnone.2 hw] at hv; cases hv
                | some w =>
                  have hmv := (Entries.mem_iff_lookup hes).2 hv
                  have hmw := (Entries.mem_iff_lookup hfs).2 hw
                  exact congrArg some ((ih _ hmv (hvs _ hmv) (hws _ hmw)).2 (members k _ _
                    (mem_withoutProto.2 ⟨hk, v, hmv, rfl⟩) (mem_withoutProto.2 ⟨hk, w, hmw, rfl⟩)))
    | _ => exact iff_of_false (fun h => by cases h) fun h => by cases h

/-! ## Stable JSON -/

section StableJson
variable [JsNumber N]

theorem stableJson_eq_iff {v w : Json N} (hv : isJsonValue v = true) (hw : isJsonValue w = true) :
    stableJson v = stableJson w ↔ normalizeJsonValue v = normalizeJsonValue w := by
  constructor
  · exact stringify_injective (canonical_normalizeJsonValue v hv) (canonical_normalizeJsonValue w hw)
  · intro h
    rw [stableJson, stableJson, h]

/-- A value as JSON.parse builds it, its numbers finite. -/
structure JsonValue (v : Json N) : Prop where
  built : Built v
  finite : isJsonValue v = true

omit [JsNumber N] in
/-- What is equal up to the order of keys is so without the members named `__proto__`. -/
theorem EqualUpToKeyOrder.withoutProto {v w : Json N} (h : EqualUpToKeyOrder v w) :
    EqualUpToKeyOrder (withoutProto v) (withoutProto w) := by
  induction h with
  | null => exact .null
  | bool b => exact .bool b
  | num n => exact .num n
  | str s => exact .str s
  | arr length members ih =>
    rw [LintRatchet.withoutProto, LintRatchet.withoutProto, withoutProtoList_eq, withoutProtoList_eq]
    refine .arr (by rw [List.length_map, List.length_map, length]) fun i v' w' hv' hw' => ?_
    rw [List.getElem?_map, Option.map_eq_some_iff] at hv' hw'
    obtain ⟨v, hv, rfl⟩ := hv'
    obtain ⟨w, hw, rfl⟩ := hw'
    exact ih i v w hv hw
  | obj names members ih =>
    rw [LintRatchet.withoutProto, LintRatchet.withoutProto]
    refine .obj (fun k => ?_) fun k v' w' hv' hw' => ?_
    · rw [keys_withoutProto, keys_withoutProto, names k]
    · obtain ⟨-, v, hv, rfl⟩ := mem_withoutProto.1 hv'
      obtain ⟨-, w, hw, rfl⟩ := mem_withoutProto.1 hw'
      exact ih k v w hv hw

/-- The text tells two values apart unless they differ in members named `__proto__` only, and never
two that are equal up to the order of their keys. -/
theorem stableJson_canonical {a b : Json N} (ha : JsonValue a) (hb : JsonValue b) :
    (stableJson a = stableJson b ↔ EqualUpToKeyOrder a b) ↔
      (EqualUpToKeyOrder (withoutProto a) (withoutProto b) → EqualUpToKeyOrder a b) := by
  rw [stableJson_eq_iff ha.finite hb.finite, normalizeJsonValue_eq_iff ha.built hb.built]
  exact ⟨fun h => h.1, fun h => ⟨h, EqualUpToKeyOrder.withoutProto⟩⟩

end StableJson

/-- `{"__proto__": "x"}`, whose member is an own property. -/
def protoObject : Json Numeral := .obj [(js "__proto__", .str (js "x"))]

theorem jsonValue_protoObject : JsonValue protoObject where
  built := by
    refine .obj (by decide) (by decide +kernel) fun e he => ?_
    rw [List.mem_singleton] at he
    subst he
    exact .str _
  finite := rfl

theorem jsonValue_emptyObject : JsonValue (.obj [] : Json Numeral) where
  built := .obj List.nodup_nil rfl nofun
  finite := rfl

theorem stableJson_canonical_proto :
    (stableJson protoObject = stableJson (.obj [] : Json Numeral) ↔
        EqualUpToKeyOrder protoObject (.obj [])) ↔
      (EqualUpToKeyOrder (withoutProto protoObject) (withoutProto (.obj [])) →
        EqualUpToKeyOrder protoObject (.obj [])) :=
  stableJson_canonical jsonValue_protoObject jsonValue_emptyObject

/-- The assignment of the member reaches the prototype setter. -/
theorem stableJson_canonical_fails :
    JsonValue protoObject ∧ JsonValue (.obj [] : Json Numeral) ∧
    stableJson protoObject = stableJson (.obj [] : Json Numeral) ∧
    ¬ EqualUpToKeyOrder protoObject (.obj []) := by
  refine ⟨jsonValue_protoObject, jsonValue_emptyObject, by decide +kernel, ?_⟩
  intro h
  cases h with
  | obj names members =>
    have hmem := (names (js "__proto__")).1 (by decide)
    exact absurd hmem List.not_mem_nil

end Musi.LintRatchet
