import Musi.Js.Table

namespace Musi.Js
set_option autoImplicit true

variable {α β : Type}

/-- A canonical numeral below 2^32 - 1: objects list such keys first. -/
def isArrayIndex (k : JsString) : Bool :=
  k ≠ [] && k.all isDigit && (k.head? ≠ some (unit '0') || k.length = 1) &&
    digitsValue k < 4294967295

def compareIndices (a b : JsString × α) : Int := compareScalars (digitsValue a.1) (digitsValue b.1)

theorem compareIndices_consistent : ConsistentComparator (compareIndices (α := α)) where
  swap a b := by
    rw [compareIndices, compareIndices, compareScalars_neg (digitsValue a.1)]
    omega
  trans := compareScalars_trans

/-- OrdinaryOwnPropertyKeys: array indices ascending, then the other keys as created. -/
def ownKeyOrder (es : Entries α) : Entries α :=
  sortBy compareIndices (es.filter fun e => isArrayIndex e.1) ++
    es.filter fun e => !isArrayIndex e.1

theorem ownKeyOrder_perm (es : Entries α) : (ownKeyOrder es).Perm es :=
  ((sortBy_perm _ _).append_right _).trans (List.filter_append_perm _ es)

@[simp] theorem mem_ownKeyOrder {es : Entries α} : e ∈ ownKeyOrder es ↔ e ∈ es :=
  (ownKeyOrder_perm es).mem_iff

theorem ownKeyOrder_index (es : Entries α) : (ownKeyOrder es).filter (fun e => isArrayIndex e.1) =
    sortBy compareIndices (es.filter fun e => isArrayIndex e.1) := by
  rw [ownKeyOrder, List.filter_append, List.filter_filter]
  have h1 : (sortBy compareIndices (es.filter fun e => isArrayIndex e.1)).filter
      (fun e => isArrayIndex e.1) = sortBy compareIndices (es.filter fun e => isArrayIndex e.1) :=
    List.filter_eq_self.2 fun e he => (List.mem_filter.1 (mem_sortBy.1 he)).2
  simp [h1]

theorem ownKeyOrder_rest (es : Entries α) :
    (ownKeyOrder es).filter (fun e => !isArrayIndex e.1) = es.filter fun e => !isArrayIndex e.1 := by
  rw [ownKeyOrder, List.filter_append, List.filter_filter]
  have h1 : (sortBy compareIndices (es.filter fun e => isArrayIndex e.1)).filter
      (fun e => !isArrayIndex e.1) = [] :=
    List.filter_eq_nil_iff.2 fun e he => by simp [(List.mem_filter.1 (mem_sortBy.1 he)).2]
  simp [h1]

theorem ownKeyOrder_idem (es : Entries α) : ownKeyOrder (ownKeyOrder es) = ownKeyOrder es := by
  conv_lhs => rw [ownKeyOrder, ownKeyOrder_index, ownKeyOrder_rest]
  rw [sortBy_idem compareIndices_consistent, ownKeyOrder]

theorem nodup_ownKeyOrder {es : Entries α} (h : (Entries.keys es).Nodup) :
    (Entries.keys (ownKeyOrder es)).Nodup := ((ownKeyOrder_perm es).map Prod.fst).nodup_iff.2 h

theorem ownKeyOrder_iff {es : Entries α} : ownKeyOrder es = es ↔
    ∃ is rest, es = is ++ rest ∧ is.Pairwise (fun a b => compareIndices a b ≤ 0) ∧
      (∀ e ∈ is, isArrayIndex e.1 = true) ∧ ∀ e ∈ rest, isArrayIndex e.1 = false := by
  constructor
  · intro h
    refine ⟨_, _, h.symm, sortBy_sorted compareIndices_consistent _, fun e he => ?_, fun e he => ?_⟩
    · exact (List.mem_filter.1 (mem_sortBy.1 he)).2
    · simpa using (List.mem_filter.1 he).2
  · rintro ⟨is, rest, rfl, hs, hi, hr⟩
    have h1 : is.filter (fun e => isArrayIndex e.1) = is := List.filter_eq_self.2 hi
    have h2 : rest.filter (fun e => isArrayIndex e.1) = [] :=
      List.filter_eq_nil_iff.2 fun e he => by simp [hr e he]
    have h3 : is.filter (fun e => !isArrayIndex e.1) = [] :=
      List.filter_eq_nil_iff.2 fun e he => by simp [hi e he]
    have h4 : rest.filter (fun e => !isArrayIndex e.1) = rest :=
      List.filter_eq_self.2 fun e he => by simp [hr e he]
    simp [ownKeyOrder, h1, h2, h3, h4, sortBy_of_sorted hs]

theorem ownKeyOrder_of_names {es : Entries α} (h : ∀ k ∈ Entries.keys es, isArrayIndex k = false) :
    ownKeyOrder es = es :=
  ownKeyOrder_iff.2 ⟨[], es, rfl, List.Pairwise.nil, by simp,
    fun e he => h e.1 (List.mem_map_of_mem he)⟩

/-- Keeping a part of an object's entries, or rewriting their values, keeps the key order. -/
theorem ownKeyOrder_filter {es : Entries α} (h : ownKeyOrder es = es)
    (p : JsString × α → Bool) : ownKeyOrder (es.filter p) = es.filter p := by
  obtain ⟨is, rest, rfl, hs, hi, hr⟩ := ownKeyOrder_iff.1 h
  rw [List.filter_append]
  exact ownKeyOrder_iff.2 ⟨_, _, rfl, hs.filter p,
    fun e he => hi e (List.mem_of_mem_filter he), fun e he => hr e (List.mem_of_mem_filter he)⟩

theorem ownKeyOrder_map (f : JsString → α → β) (es : Entries α) :
    ownKeyOrder (es.map fun e => (e.1, f e.1 e.2)) =
      (ownKeyOrder es).map fun e => (e.1, f e.1 e.2) := by
  simp only [ownKeyOrder, List.filter_map, sortBy_map, List.map_append]
  rfl

/-- The order of `Object.keys(value).sort()`. -/
def sortKeys (es : Entries α) : Entries α := sortBy (fun a b => compareCodeUnits a.1 b.1) es

/-- A plain object: its own enumerable properties in the order Object.keys gives them. -/
structure Record (α : Type) where
  entries : Entries α
  nodup : (Entries.keys entries).Nodup
  ordered : ownKeyOrder entries = entries

/-- The names every plain object inherits from Object.prototype. -/
def inheritedNames : List JsString :=
  [js "constructor", js "__defineGetter__", js "__defineSetter__", js "hasOwnProperty",
    js "__lookupGetter__", js "__lookupSetter__", js "isPrototypeOf", js "propertyIsEnumerable",
    js "toString", js "valueOf", js "__proto__", js "toLocaleString"]

/-- What reading a property gives: an own value, a member of Object.prototype, or undefined. -/
inductive Property (α : Type) where
  | own (value : α)
  | inherited
  | absent
  deriving DecidableEq

namespace Record

def empty : Record α := ⟨[], List.nodup_nil, rfl⟩

/-- Object.fromEntries. -/
def fromEntries (es : Entries α) : Record α :=
  ⟨ownKeyOrder (JsMap.ofList es).entries, nodup_ownKeyOrder (JsMap.ofList es).nodup,
    ownKeyOrder_idem _⟩

/-- A new object after assigning each entry to it in turn; assigning to the name `__proto__`
reaches the prototype setter and leaves no own property. -/
def assignAll (es : Entries α) : Record α := fromEntries (es.filter fun e => e.1 ≠ js "__proto__")

/-- The own property of a name. -/
def own (r : Record α) (k : JsString) : Option α := r.entries.lookup k

/-- Object.keys. -/
def keys (r : Record α) : List JsString := Entries.keys r.entries

/-- The property read `r[k]`. -/
def read (r : Record α) (k : JsString) : Property α :=
  match r.own k with
  | some v => .own v
  | none => if k ∈ inheritedNames then .inherited else .absent

/-- Object.entries(r).filter(p), put back into an object. -/
def filter (p : JsString → α → Bool) (r : Record α) : Record α :=
  ⟨r.entries.filter fun e => p e.1 e.2, r.nodup.sublist (List.filter_sublist.map _),
    ownKeyOrder_filter r.ordered _⟩

/-- The object with every own value replaced. -/
def map (f : JsString → α → β) (r : Record α) : Record β :=
  ⟨r.entries.map fun e => (e.1, f e.1 e.2), by rw [Entries.keys_map]; exact r.nodup,
    by rw [ownKeyOrder_map, r.ordered]⟩

@[ext] theorem ext {r s : Record α} (h : r.entries = s.entries) : r = s := by
  cases r; cases s; cases h; rfl

instance [DecidableEq α] : DecidableEq (Record α) := fun r s =>
  decidable_of_iff (r.entries = s.entries) ⟨ext, fun h => h ▸ rfl⟩

theorem mem_entries {r : Record α} : (k, v) ∈ r.entries ↔ r.own k = some v :=
  Entries.mem_iff_lookup r.nodup

theorem mem_keys {r : Record α} : k ∈ r.keys ↔ ∃ v, r.own k = some v := by
  rw [keys, Entries.mem_keys]
  simp only [mem_entries]

theorem own_none {r : Record α} : r.own k = none ↔ k ∉ r.keys := Entries.lookup_none

@[simp] theorem own_empty : (empty : Record α).own k = none := rfl

@[simp] theorem entries_empty : (empty : Record α).entries = [] := rfl

theorem read_own {r : Record α} : r.read k = .own v ↔ r.own k = some v := by
  unfold read
  cases h : r.own k with
  | some w => simp
  | none => simp only [reduceCtorEq, iff_false]; split <;> simp

theorem read_absent {r : Record α} : r.read k = .absent ↔ r.own k = none ∧ k ∉ inheritedNames := by
  unfold read
  cases h : r.own k with
  | some w => simp
  | none => simp only [true_and]; split <;> simp_all

theorem read_inherited {r : Record α} :
    r.read k = .inherited ↔ r.own k = none ∧ k ∈ inheritedNames := by
  unfold read
  cases h : r.own k with
  | some w => simp
  | none => simp only [true_and]; split <;> simp_all

theorem fromEntries_entries {es : Entries α} (h : (Entries.keys es).Nodup) :
    (fromEntries es).entries = ownKeyOrder es :=
  congrArg ownKeyOrder (JsMap.ofList_entries h)

theorem own_fromEntries (es : Entries α) (k : JsString) :
    (fromEntries es).own k = (JsMap.ofList es).get k :=
  Entries.lookup_perm (nodup_ownKeyOrder (JsMap.ofList es).nodup) (ownKeyOrder_perm _) k

theorem own_fromEntries_of_nodup {es : Entries α} (h : (Entries.keys es).Nodup) (k : JsString) :
    (fromEntries es).own k = es.lookup k := by
  rw [own_fromEntries, JsMap.get_ofList_of_nodup h]

theorem fromEntries_map (f : JsString → α → β) (es : Entries α) :
    fromEntries (es.map fun e => (e.1, f e.1 e.2)) = (fromEntries es).map f := by
  apply ext
  have hentries : ownKeyOrder (JsMap.ofList (es.map fun e => (e.1, f e.1 e.2))).entries =
      (ownKeyOrder (JsMap.ofList es).entries).map fun e => (e.1, f e.1 e.2) := by
    rw [JsMap.ofList_map, ownKeyOrder_map]
  exact hentries

theorem fromEntries_self (r : Record α) : fromEntries r.entries = r :=
  ext (by rw [fromEntries_entries r.nodup, r.ordered])

theorem mem_fromEntries {e : JsString × α} {es : Entries α} (h : e ∈ (fromEntries es).entries) :
    e ∈ es := by
  rw [fromEntries, mem_ownKeyOrder] at h
  rcases mem_setAll h with h | h
  · simp at h
  · exact h

theorem mem_assignAll {e : JsString × α} {es : Entries α} (h : e ∈ (assignAll es).entries) :
    e ∈ es := List.mem_of_mem_filter (mem_fromEntries h)

theorem assignAll_ne_proto {e : JsString × α} {es : Entries α}
    (h : e ∈ (assignAll es).entries) : e.1 ≠ js "__proto__" := by
  simpa using (List.mem_filter.1 (mem_fromEntries h)).2

/-- Sorting and assigning again the entries of an object built from sorted entries. -/
theorem assignAll_sortKeys {es : Entries α}
    (h : es.Pairwise fun a b => compareCodeUnits a.1 b.1 ≤ 0) :
    assignAll (sortKeys (assignAll es).entries) = assignAll es := by
  set m := JsMap.ofList (es.filter fun e => e.1 ≠ js "__proto__") with hm
  have hsorted : m.entries.Pairwise fun a b => compareCodeUnits a.1 b.1 ≤ 0 := by
    obtain ⟨added, hs, hk⟩ := keys_setAll_sublist [] (es.filter fun e => e.1 ≠ js "__proto__")
    have hp : (Entries.keys m.entries).Pairwise fun a b => compareCodeUnits a b ≤ 0 := by
      have he : Entries.keys m.entries = added := by rw [hm]; exact hk
      rw [he]
      exact ((List.pairwise_map.2 h).sublist (List.filter_sublist.map _)).sublist hs
    exact List.pairwise_map.1 hp
  have hsort : sortKeys (ownKeyOrder m.entries) = m.entries := by
    refine eq_of_perm_sorted (sortBy_sorted
      (compareCodeUnits_strict.toConsistentComparator.comap Prod.fst) _) hsorted
      ((sortBy_perm _ _).trans (ownKeyOrder_perm _)) fun a ha b hb hab hba => ?_
    have hk : a.1 = b.1 := compareCodeUnits_strict.antisymm hab hba
    have ha' : a ∈ m.entries := mem_ownKeyOrder.1 (mem_sortBy.1 ha)
    have hv := JsMap.mem_entries.1 (show (a.1, a.2) ∈ m.entries from ha')
    rw [hk, JsMap.mem_entries.1 (show (b.1, b.2) ∈ m.entries from hb)] at hv
    exact Prod.ext hk (Option.some.inj hv).symm
  have hfilter : m.entries.filter (fun e => e.1 ≠ js "__proto__") = m.entries :=
    List.filter_eq_self.2 fun e he => by
      simpa using assignAll_ne_proto (mem_ownKeyOrder.2 he : e ∈ (assignAll es).entries)
  have hentries : (assignAll es).entries = ownKeyOrder m.entries := rfl
  rw [hentries, hsort]
  refine ext ?_
  rw [hentries, assignAll, hfilter, fromEntries_entries m.nodup]

@[simp] theorem own_filter (p : JsString → α → Bool) (r : Record α) (k : JsString) :
    (r.filter p).own k = (r.own k).filter (p k) :=
  Entries.lookup_filter r.nodup (fun e => p e.1 e.2) k

@[simp] theorem own_map (f : JsString → α → β) (r : Record α) (k : JsString) :
    (r.map f).own k = (r.own k).map (f k) := Entries.lookup_map f r.entries k

@[simp] theorem keys_map (f : JsString → α → β) (r : Record α) : (r.map f).keys = r.keys :=
  Entries.keys_map f r.entries

end Record

end Musi.Js
