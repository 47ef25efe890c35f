import Musi.Js.JsonRoundTrip

namespace Musi.Js
set_option autoImplicit true

variable {N : Type} [JsNumber N]

mutual
/-- The value that JSON.parse reads back from JSON.stringify: a number without a numeral is
written as null. -/
def wire : Json N → Json N
  | .null => .null
  | .bool b => .bool b
  | .num n => if JsNumber.isFinite n then .num n else .null
  | .str s => .str s
  | .arr values => .arr (wireList values)
  | .obj fields => .obj (wireFields fields)
termination_by structural v => v

def wireList : List (Json N) → List (Json N)
  | [] => []
  | v :: vs => wire v :: wireList vs
termination_by structural v => v

def wireFields : List (JsString × Json N) → List (JsString × Json N)
  | [] => []
  | e :: es => wireField e :: wireFields es
termination_by structural v => v

def wireField : JsString × Json N → JsString × Json N
  | (k, v) => (k, wire v)
termination_by structural v => v
end

theorem wireList_eq (vs : List (Json N)) : wireList vs = vs.map wire := by
  induction vs with
  | nil => rfl
  | cons v vs ih => rw [wireList, ih, List.map_cons]

theorem wireFields_eq (es : List (JsString × Json N)) :
    wireFields es = es.map fun e => (e.1, wire e.2) := by
  induction es with
  | nil => rfl
  | cons e es ih => rw [wireFields, ih, List.map_cons, wireField]

@[simp] theorem wire_str (s : JsString) : wire (.str s : Json N) = .str s := rfl

@[simp] theorem wire_arr (vs : List (Json N)) : wire (.arr vs) = .arr (vs.map wire) := by
  rw [wire, wireList_eq]

@[simp] theorem wire_obj (es : Entries (Json N)) :
    wire (.obj es) = .obj (es.map fun e => (e.1, wire e.2)) := by rw [wire, wireFields_eq]

theorem wire_field (v : Json N) (k : JsString) : (wire v).field k = (v.field k).map wire := by
  cases v with
  | num n =>
    rw [wire]
    split <;> rfl
  | arr vs => rw [wire_arr]; rfl
  | obj es => rw [wire_obj]; exact Entries.lookup_map (fun _ => wire) es k
  | _ => rfl

/-- The values that the language can build: objects with distinct names in key order. -/
inductive Built : Json N → Prop
  | null : Built .null
  | bool (b : Bool) : Built (.bool b)
  | num (n : N) : Built (.num n)
  | str (s : JsString) : Built (.str s)
  | arr (h : ∀ v ∈ vs, Built v) : Built (.arr vs)
  | obj (nodup : (Entries.keys es).Nodup) (ordered : ownKeyOrder es = es)
      (h : ∀ e ∈ es, Built e.2) : Built (.obj es)

/-- What a value is read back as can be written. -/
theorem canonical_wire {v : Json N} (h : Built v) : Canonical (wire v) := by
  induction h with
  | null => exact .null
  | bool b => exact .bool b
  | num n =>
    rw [wire]
    split
    · next hn => exact .num hn
    · exact .null
  | str s => exact .str s
  | arr h ih =>
    rw [wire_arr]
    refine .arr fun w hw => ?_
    obtain ⟨v, hv, rfl⟩ := List.mem_map.1 hw
    exact ih v hv
  | @obj es nodup ordered h ih =>
    rw [wire_obj]
    refine .obj ?_ ?_ fun e he => ?_
    · rwa [Entries.keys_map fun _ v => wire v]
    · rw [ownKeyOrder_map fun _ v => wire v, ordered]
    · obtain ⟨e, he', rfl⟩ := List.mem_map.1 he
      exact ih e he'

/-- JSON.stringify writes a value as it writes what is read back. -/
theorem render_wire (gap indent : JsString) (v : Json N) :
    render gap indent (wire v) = render gap indent v := by
  induction v using Json.induct generalizing indent with
  | null => rfl
  | bool b => rfl
  | num n =>
    rw [wire]
    split
    · rfl
    · next hn => rw [render, render, numberJson, if_neg hn]
  | str s => rfl
  | arr vs ih =>
    rw [wire_arr, render, render, renderList_eq, renderList_eq, List.map_map]
    refine congrArg _ (List.map_congr_left fun v hv => ih v hv _)
  | obj es ih =>
    rw [wire_obj, render, render, renderFields_eq, renderFields_eq, List.map_map]
    refine congrArg _ (List.map_congr_left fun e he => ?_)
    obtain ⟨k, v⟩ := e
    simp only [Function.comp_apply, renderField, ih (k, v) he]

/-- Two values are written alike exactly when they are read back alike. -/
theorem render_eq_iff {gap : JsString} (hg : gap.all isJsonSpace = true) {v w : Json N}
    (hv : Built v) (hw : Built w) : render gap [] v = render gap [] w ↔ wire v = wire w := by
  constructor
  · intro h
    have hspace : ([] : JsString).all isJsonSpace = true := rfl
    have hv' := parseJson_render hg (canonical_wire hv) hspace
    have hw' := parseJson_render hg (canonical_wire hw) hspace
    rw [render_wire, h] at hv'
    rw [render_wire, hv'] at hw'
    exact Option.some.inj hw'
  · intro h
    rw [← render_wire, h, render_wire]

theorem stringify_eq_iff {v w : Json N} (hv : Built v) (hw : Built w) :
    stringify v = stringify w ↔ wire v = wire w := render_eq_iff rfl hv hw

theorem stringifyIndented_eq_iff {v w : Json N} (hv : Built v) (hw : Built w) :
    stringifyIndented v = stringifyIndented w ↔ wire v = wire w := render_eq_iff (by decide) hv hw

omit [JsNumber N] in
/-- An object literal of built values is built. -/
theorem built_objectOf {fields : Entries (Json N)} (h : ∀ e ∈ fields, Built e.2) :
    Built (objectOf fields) :=
  .obj (Record.fromEntries fields).nodup (Record.fromEntries fields).ordered fun e he =>
    h e (Record.mem_fromEntries he)

omit [JsNumber N] in
/-- An object whose names come from a list of plain names is built. -/
theorem built_obj {es : Entries (Json N)} (names : List JsString)
    (hs : (Entries.keys es).Sublist names) (hn : names.Nodup)
    (hi : ∀ k ∈ names, isArrayIndex k = false) (h : ∀ e ∈ es, Built e.2) : Built (.obj es) :=
  .obj (hn.sublist hs) (ownKeyOrder_of_names fun k hk => hi k (hs.subset hk)) h

/-! ## What is parsed is built -/

section
variable {α : Type} {item : JsString → Option (α × JsString)} {P : α → Prop}

omit [JsNumber N] in
theorem parseSequence_all (hitem : ∀ s p, item s = some p → P p.1) {closing : UInt16} {rounds : Nat}
    {s : JsString} {p : List α × JsString} (h : parseSequence item closing rounds s = some p) :
    ∀ v ∈ p.1, P v := by
  induction rounds generalizing s p with
  | zero => cases h
  | succ rounds ih =>
    unfold parseSequence at h
    split at h
    · cases h
    · next v rest hv =>
      split at h
      · cases h
      · split_ifs at h with hclose hcomma
        · cases h
          simpa using hitem _ _ hv
        · obtain ⟨q, hq, rfl⟩ := Option.map_eq_some_iff.1 h
          exact List.forall_mem_cons.2 ⟨hitem _ _ hv, ih hq⟩

omit [JsNumber N] in
theorem parseBracketed_all (hitem : ∀ s p, item s = some p → P p.1) {closing : UInt16}
    {s : JsString} {p : List α × JsString} (h : parseBracketed item closing s = some p) :
    ∀ v ∈ p.1, P v := by
  unfold parseBracketed at h
  split at h
  · cases h
    simp
  · exact parseSequence_all hitem h

end

omit [JsNumber N] in
theorem parseMember_built {value : JsString → Option (Json N × JsString)}
    (hvalue : ∀ s p, value s = some p → Built p.1) {s : JsString} {p : (JsString × Json N) × JsString}
    (h : parseMember value s = some p) : Built p.1.2 := by
  unfold parseMember at h
  split at h
  · cases h
  · split at h
    · split at h
      · cases h
      · split at h
        · cases h
        · split at h
          · obtain ⟨q, hq, rfl⟩ := Option.map_eq_some_iff.1 h
            exact hvalue _ _ hq
          · cases h
    · cases h

theorem parseScalar_built {s : JsString} {p : Json N × JsString} (h : parseScalar s = some p) :
    Built p.1 := by
  unfold parseScalar at h
  split at h
  · cases h
    exact .null
  · cases h
    exact .bool true
  · cases h
    exact .bool false
  · dsimp only at h
    split at h
    · cases h
      exact .num _
    · cases h

theorem parseValue_built {depth : Nat} {s : JsString} {p : Json N × JsString}
    (h : parseValue depth s = some p) : Built p.1 := by
  induction depth generalizing s p with
  | zero => cases h
  | succ depth ih =>
    unfold parseValue at h
    split at h
    · cases h
    · split_ifs at h with hstr harr hobj
      · obtain ⟨q, -, rfl⟩ := Option.map_eq_some_iff.1 h
        exact .str _
      · obtain ⟨q, hq, rfl⟩ := Option.map_eq_some_iff.1 h
        exact .arr (parseBracketed_all (fun _ _ => ih) hq)
      · obtain ⟨q, hq, rfl⟩ := Option.map_eq_some_iff.1 h
        refine built_objectOf (parseBracketed_all (fun _ _ hp => ?_) hq)
        exact parseMember_built (fun _ _ => ih) hp
      · exact parseScalar_built h

theorem parseJson_built {text : JsString} {v : Json N} (h : parseJson text = some v) : Built v := by
  unfold parseJson at h
  split at h
  · next v' rest hv =>
    split at h
    · cases h
      exact parseValue_built hv
    · cases h
  · cases h

end Musi.Js
