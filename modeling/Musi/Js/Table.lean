import Mathlib.Data.List.Nodup
import Mathlib.Data.List.Perm.Basic
import Musi.Js.Order

namespace Musi.Js
set_option autoImplicit true

/-- Keyed entries in their iteration order. -/
abbrev Entries (α : Type) := List (JsString × α)

variable {α β : Type}

def Entries.keys (es : Entries α) : List JsString := es.map Prod.fst

@[simp] theorem Entries.keys_nil : Entries.keys ([] : Entries α) = [] := rfl

@[simp] theorem Entries.keys_cons (e : JsString × α) (es : Entries α) :
    Entries.keys (e :: es) = e.1 :: Entries.keys es := rfl

@[simp] theorem Entries.keys_append (es fs : Entries α) :
    Entries.keys (es ++ fs) = Entries.keys es ++ Entries.keys fs := List.map_append

theorem Entries.mem_keys {es : Entries α} : k ∈ Entries.keys es ↔ ∃ v, (k, v) ∈ es := by
  simp [Entries.keys]

theorem Entries.lookup_cons (k : JsString) (e : JsString × α) (es : Entries α) :
    List.lookup k (e :: es) = if k = e.1 then some e.2 else es.lookup k := by
  rw [List.lookup_cons]
  by_cases hk : k = e.1
  · simp [hk]
  · rw [beq_eq_false_iff_ne.2 hk, if_neg hk]

/-- With distinct keys, an entry is present exactly when the lookup finds it. -/
theorem Entries.mem_iff_lookup {es : Entries α} (h : (Entries.keys es).Nodup) :
    (k, v) ∈ es ↔ es.lookup k = some v := by
  induction es with
  | nil => simp
  | cons e es ih =>
    obtain ⟨k', v'⟩ := e
    rw [Entries.keys_cons, List.nodup_cons] at h
    rw [Entries.lookup_cons]
    by_cases hk : k = k'
    · subst hk
      have hn : (k, v) ∉ es := fun hm => h.1 (Entries.mem_keys.2 ⟨v, hm⟩)
      simp [hn, eq_comm]
    · simp [hk, ih h.2]

theorem Entries.lookup_none {es : Entries α} : es.lookup k = none ↔ k ∉ Entries.keys es := by
  induction es with
  | nil => simp
  | cons e es ih =>
    rw [Entries.lookup_cons, Entries.keys_cons, List.mem_cons, not_or, ← ih]
    by_cases hk : k = e.1 <;> simp [hk]

theorem Entries.lookup_perm {es fs : Entries α} (h : (Entries.keys es).Nodup) (hp : es.Perm fs)
    (k : JsString) : es.lookup k = fs.lookup k := by
  have hf : (Entries.keys fs).Nodup := (hp.map Prod.fst).nodup h
  ext v
  rw [← Entries.mem_iff_lookup h, ← Entries.mem_iff_lookup hf, hp.mem_iff]

theorem Entries.lookup_filter {es : Entries α} (h : (Entries.keys es).Nodup)
    (p : JsString × α → Bool) (k : JsString) :
    List.lookup k (es.filter p) = (es.lookup k).filter fun v => p (k, v) := by
  have hf : (Entries.keys (es.filter p)).Nodup := h.sublist (List.filter_sublist.map _)
  ext v
  rw [← Entries.mem_iff_lookup hf, List.mem_filter, Entries.mem_iff_lookup h,
    Option.filter_eq_some_iff]

theorem Entries.lookup_map (f : JsString → α → β) (es : Entries α) (k : JsString) :
    List.lookup k (es.map fun e => (e.1, f e.1 e.2)) = (es.lookup k).map (f k) := by
  induction es with
  | nil => rfl
  | cons e es ih =>
    rw [List.map_cons, Entries.lookup_cons, Entries.lookup_cons, ih]
    by_cases hk : k = e.1
    · simp [hk]
    · simp [hk]

@[simp] theorem Entries.keys_map (f : JsString → α → β) (es : Entries α) :
    Entries.keys (es.map fun e => (e.1, f e.1 e.2)) = Entries.keys es := by
  simp [Entries.keys]

/-- Map.prototype.set on the entries: an existing key keeps its place. -/
def setEntry (k : JsString) (v : α) : Entries α → Entries α
  | [] => [(k, v)]
  | (k', v') :: es => if k' = k then (k, v) :: es else (k', v') :: setEntry k v es

theorem lookup_setEntry (k : JsString) (v : α) (es : Entries α) (k' : JsString) :
    (setEntry k v es).lookup k' = if k' = k then some v else es.lookup k' := by
  induction es with
  | nil => simp [setEntry, Entries.lookup_cons]
  | cons e es ih =>
    obtain ⟨a, b⟩ := e
    by_cases ha : a = k
    · subst ha
      by_cases hk : k' = a <;> simp [setEntry, Entries.lookup_cons, hk]
    · by_cases hk : k' = a
      · subst hk
        simp [setEntry, ha]
      · simp [setEntry, ha, Entries.lookup_cons, hk, ih]

theorem keys_setEntry (k : JsString) (v : α) (es : Entries α) :
    Entries.keys (setEntry k v es) =
      if k ∈ Entries.keys es then Entries.keys es else Entries.keys es ++ [k] := by
  induction es with
  | nil => rfl
  | cons e es ih =>
    obtain ⟨a, b⟩ := e
    by_cases ha : a = k
    · simp [setEntry, ha]
    · simp only [setEntry, if_neg ha, Entries.keys_cons, ih, List.mem_cons, Ne.symm ha, false_or]
      split <;> simp

theorem nodup_setEntry {es : Entries α} (h : (Entries.keys es).Nodup) (k : JsString) (v : α) :
    (Entries.keys (setEntry k v es)).Nodup := by
  rw [keys_setEntry]
  split
  · exact h
  · next hk => simpa [List.nodup_append, h] using fun a ha (he : a = k) => hk (he ▸ ha)

theorem setEntry_of_notMem {es : Entries α} (h : k ∉ Entries.keys es) :
    setEntry k v es = es ++ [(k, v)] := by
  induction es with
  | nil => rfl
  | cons e es ih =>
    rw [Entries.keys_cons, List.mem_cons, not_or] at h
    simp [setEntry, Ne.symm h.1, ih h.2]

/-- The entries left after setting a sequence of entries in order. -/
def setAll (es : Entries α) (new : Entries α) : Entries α :=
  new.foldl (fun acc e => setEntry e.1 e.2 acc) es

theorem nodup_setAll {es : Entries α} (h : (Entries.keys es).Nodup) (new : Entries α) :
    (Entries.keys (setAll es new)).Nodup := by
  induction new generalizing es with
  | nil => exact h
  | cons e new ih => exact ih (nodup_setEntry h e.1 e.2)

theorem setAll_of_nodup {es new : Entries α} (h : (Entries.keys (es ++ new)).Nodup) :
    setAll es new = es ++ new := by
  induction new generalizing es with
  | nil => simp [setAll]
  | cons e new ih =>
    have he : e.1 ∉ Entries.keys es := by
      rw [Entries.keys_append, List.nodup_append] at h
      exact fun hm => h.2.2 _ hm _ (by simp) rfl
    rw [List.append_cons] at h ⊢
    rw [← ih h, setAll, List.foldl_cons, setEntry_of_notMem he]
    rfl

theorem setEntry_map (f : JsString → α → β) (k : JsString) (v : α) (es : Entries α) :
    setEntry k (f k v) (es.map fun e => (e.1, f e.1 e.2)) =
      (setEntry k v es).map fun e => (e.1, f e.1 e.2) := by
  induction es with
  | nil => rfl
  | cons e es ih =>
    by_cases h : e.1 = k
    · rw [setEntry, if_pos h, List.map_cons, List.map_cons, setEntry, if_pos h]
    · rw [setEntry, if_neg h, List.map_cons, List.map_cons, setEntry, if_neg h, ih]

theorem setAll_map (f : JsString → α → β) (es new : Entries α) :
    setAll (es.map fun e => (e.1, f e.1 e.2)) (new.map fun e => (e.1, f e.1 e.2)) =
      (setAll es new).map fun e => (e.1, f e.1 e.2) := by
  induction new generalizing es with
  | nil => rfl
  | cons e new ih =>
    have hstep := ih (setEntry e.1 e.2 es)
    rw [← setEntry_map] at hstep
    exact hstep

theorem lookup_setAll (es new : Entries α) (k : JsString) :
    (setAll es new).lookup k = (new.reverse.lookup k).or (es.lookup k) := by
  induction new generalizing es with
  | nil => simp [setAll]
  | cons e new ih =>
    have hs : setAll es (e :: new) = setAll (setEntry e.1 e.2 es) new := rfl
    rw [hs, ih, lookup_setEntry, List.reverse_cons, List.lookup_append, Option.or_assoc]
    congr 1
    by_cases hk : k = e.1 <;> simp [Entries.lookup_cons, hk]

theorem mem_setEntry {e f : JsString × α} {es : Entries α} (h : e ∈ setEntry f.1 f.2 es) :
    e ∈ es ∨ e = f := by
  induction es with
  | nil => exact .inr (List.mem_singleton.1 h)
  | cons g es ih =>
    simp only [setEntry] at h
    split at h <;> rcases List.mem_cons.1 h with rfl | h
    · exact .inr rfl
    · exact .inl (List.mem_cons_of_mem _ h)
    · exact .inl List.mem_cons_self
    · exact (ih h).imp_left (List.mem_cons_of_mem _)

theorem mem_setAll {e : JsString × α} {es new : Entries α} (h : e ∈ setAll es new) :
    e ∈ es ∨ e ∈ new := by
  induction new generalizing es with
  | nil => exact .inl h
  | cons f new ih =>
    rcases ih h with h | h
    · rcases mem_setEntry h with h | rfl
      · exact .inl h
      · exact .inr List.mem_cons_self
    · exact .inr (List.mem_cons_of_mem _ h)

/-- Setting entries in turn never reorders the keys they bring. -/
theorem keys_setAll_sublist (es new : Entries α) : ∃ added, added.Sublist (Entries.keys new) ∧
    Entries.keys (setAll es new) = Entries.keys es ++ added := by
  induction new generalizing es with
  | nil => exact ⟨[], List.Sublist.refl _, by simp [setAll]⟩
  | cons e new ih =>
    obtain ⟨added, hs, hk⟩ := ih (setEntry e.1 e.2 es)
    have hstep : setAll es (e :: new) = setAll (setEntry e.1 e.2 es) new := rfl
    rw [hstep, hk, keys_setEntry]
    split
    · exact ⟨added, hs.trans (List.sublist_cons_self _ _), rfl⟩
    · exact ⟨e.1 :: added, hs.cons_cons e.1, by simp⟩

/-- `[...new Set(values)]` holds every value once. -/
theorem nodup_eraseDups (keys : List JsString) : keys.eraseDups.Nodup := by
  induction hn : keys.length using Nat.strong_induction_on generalizing keys with
  | _ n ih =>
    cases keys with
    | nil => exact List.nodup_nil
    | cons k keys =>
      rw [List.eraseDups_cons, List.nodup_cons]
      refine ⟨by simp [List.mem_eraseDups], ih _ ?_ _ rfl⟩
      have := List.length_filter_le (fun b => !b == k) keys
      simp only [List.length_cons] at hn
      omega

/-- Lists with the same images are the same, when the images tell their members apart. -/
theorem eq_of_map_eq {β : Type} {f : α → β} {l m : List α} (h : l.map f = m.map f)
    (hinj : ∀ x ∈ l, ∀ y ∈ m, f x = f y → x = y) : l = m := by
  induction l generalizing m with
  | nil =>
    cases m with
    | nil => rfl
    | cons y m => cases h
  | cons x l ih =>
    cases m with
    | nil => cases h
    | cons y m =>
      obtain ⟨hhead, htail⟩ := List.cons.inj h
      rw [hinj x List.mem_cons_self y List.mem_cons_self hhead,
        ih htail fun x hx y hy => hinj x (List.mem_cons_of_mem _ hx) y (List.mem_cons_of_mem _ hy)]

theorem eq_toList_of_perm {l : List α} {o : Option α} (h : l.Perm o.toList) : l = o.toList := by
  cases o with
  | none => exact List.perm_nil.1 h
  | some a => exact List.perm_singleton.1 h

/-- Among results that carry their key, those of one key are what that key gives. -/
theorem filter_filterMap_keyed {κ : Type} [DecidableEq κ] {keys : List κ} (hn : keys.Nodup)
    {f : κ → Option α} (key : α → κ) (hf : ∀ k a, f k = some a → key a = k) {k : κ}
    (hout : k ∉ keys → f k = none) :
    ((keys.filterMap f).filter fun a => key a = k) = (f k).toList := by
  have hother (ks : List κ) (hk : k ∉ ks) : ((ks.filterMap f).filter fun a => key a = k) = [] := by
    refine List.filter_eq_nil_iff.2 fun a ha => ?_
    obtain ⟨k', hk', hfa⟩ := List.mem_filterMap.1 ha
    rw [hf k' a hfa]
    simpa using fun he : k' = k => hk (he ▸ hk')
  induction keys with
  | nil => simp [hout]
  | cons k' keys ih =>
    rw [List.nodup_cons] at hn
    by_cases hk : k' = k
    · subst hk
      cases hfk : f k' with
      | none => rw [List.filterMap_cons_none hfk, hother keys hn.1]; rfl
      | some a =>
        rw [List.filterMap_cons_some hfk, List.filter_cons_of_pos (by simp [hf k' a hfk]),
          hother keys hn.1]
        rfl
    · have hrest := ih hn.2 fun hm => hout (by simp [Ne.symm hk, hm])
      cases hfk : f k' with
      | none => rw [List.filterMap_cons_none hfk, hrest]
      | some a =>
        rw [List.filterMap_cons_some hfk, List.filter_cons_of_neg (by simp [hf k' a hfk, hk]), hrest]

theorem keys_filterMap_keyed {f : JsString → Option (JsString × α)}
    (hf : ∀ k e, f k = some e → e.1 = k) (l : List JsString) :
    Entries.keys (l.filterMap f) = l.filter fun k => (f k).isSome := by
  induction l with
  | nil => rfl
  | cons k l ih =>
    cases hk : f k with
    | none => simp [hk, ih]
    | some e => simp [hk, ih, hf k e hk]

/-- A JavaScript Map with string keys: insertion order, one entry a key. -/
structure JsMap (α : Type) where
  entries : Entries α
  nodup : (Entries.keys entries).Nodup

namespace JsMap

def empty : JsMap α := ⟨[], List.nodup_nil⟩

def get (m : JsMap α) (k : JsString) : Option α := m.entries.lookup k

def keys (m : JsMap α) : List JsString := Entries.keys m.entries

def has (m : JsMap α) (k : JsString) : Bool := (m.get k).isSome

def set (m : JsMap α) (k : JsString) (v : α) : JsMap α :=
  ⟨setEntry k v m.entries, nodup_setEntry m.nodup k v⟩

/-- The Map constructor: a later entry replaces an earlier one of its key. -/
def ofList (es : Entries α) : JsMap α := ⟨setAll [] es, @nodup_setAll α [] List.nodup_nil es⟩

theorem ext {m n : JsMap α} (h : m.entries = n.entries) : m = n := by
  cases m; cases n; cases h; rfl

instance [DecidableEq α] : DecidableEq (JsMap α) := fun m n =>
  decidable_of_iff (m.entries = n.entries) ⟨ext, fun h => h ▸ rfl⟩

theorem mem_entries {m : JsMap α} : (k, v) ∈ m.entries ↔ m.get k = some v :=
  Entries.mem_iff_lookup m.nodup

theorem mem_keys {m : JsMap α} : k ∈ m.keys ↔ ∃ v, m.get k = some v := by
  rw [keys, Entries.mem_keys]
  simp only [mem_entries]

theorem get_none {m : JsMap α} : m.get k = none ↔ k ∉ m.keys := Entries.lookup_none

@[simp] theorem get_empty : (empty : JsMap α).get k = none := rfl

@[simp] theorem get_set (m : JsMap α) (k : JsString) (v : α) (k' : JsString) :
    (m.set k v).get k' = if k' = k then some v else m.get k' := lookup_setEntry k v m.entries k'

theorem ofList_entries {es : Entries α} (h : (Entries.keys es).Nodup) :
    (ofList es).entries = es := setAll_of_nodup (by simpa using h)

theorem ofList_map (f : JsString → α → β) (es : Entries α) :
    (ofList (es.map fun e => (e.1, f e.1 e.2))).entries =
      (ofList es).entries.map fun e => (e.1, f e.1 e.2) := setAll_map f [] es

theorem get_ofList (es : Entries α) (k : JsString) :
    (ofList es).get k = es.reverse.lookup k := by
  rw [get, ofList, lookup_setAll]; simp

theorem get_ofList_of_nodup {es : Entries α} (h : (Entries.keys es).Nodup) (k : JsString) :
    (ofList es).get k = es.lookup k := by
  rw [get, ofList_entries h]

/-- The lookup in a Map of the keys and values that the elements of a list have. -/
theorem get_ofList_of_mem {l : List β} {key : β → JsString} (h : (l.map key).Nodup) (f : β → α)
    (hb : b ∈ l) : (ofList (l.map fun b => (key b, f b))).get (key b) = some (f b) := by
  have hkeys : (Entries.keys (l.map fun b => (key b, f b))).Nodup := by
    rw [Entries.keys, List.map_map]
    exact h
  rw [get_ofList_of_nodup hkeys, ← Entries.mem_iff_lookup hkeys]
  exact List.mem_map_of_mem hb

/-- The lookup in a Map built from distinct keys with every value replaced. -/
theorem get_ofList_map {es : Entries α} (h : (Entries.keys es).Nodup) (f : JsString → α → β)
    (k : JsString) : (ofList (es.map fun e => (e.1, f e.1 e.2))).get k = (es.lookup k).map (f k) := by
  rw [get_ofList_of_nodup (by rwa [Entries.keys_map]), Entries.lookup_map]

/-- The lookup in a Map built from the entries that pass a test. -/
theorem get_ofList_filter {es : Entries α} (h : (Entries.keys es).Nodup)
    (p : JsString × α → Bool) (k : JsString) :
    (ofList (es.filter p)).get k = (es.lookup k).filter fun v => p (k, v) := by
  rw [get_ofList_of_nodup (h.sublist (List.filter_sublist.map _)), Entries.lookup_filter h]

/-- The lookup in a Map of the keys that a function gives a value. -/
theorem get_ofList_filterMap {f : JsString → Option α} {keys : List JsString} (hn : keys.Nodup)
    (k : JsString) : (ofList (keys.filterMap fun k => (f k).map fun v => (k, v))).get k =
      if k ∈ keys then f k else none := by
  have hkeys : (Entries.keys (keys.filterMap fun k => (f k).map fun v => (k, v))).Nodup := by
    rw [keys_filterMap_keyed (fun k e h => by
      obtain ⟨v, -, rfl⟩ := Option.map_eq_some_iff.1 h
      rfl)]
    exact hn.filter _
  refine Option.ext fun v => ?_
  rw [get_ofList_of_nodup hkeys, ← Entries.mem_iff_lookup hkeys, List.mem_filterMap]
  constructor
  · rintro ⟨l, hl, h⟩
    obtain ⟨w, hw, he⟩ := Option.map_eq_some_iff.1 h
    cases he
    rw [if_pos hl, hw]
  · intro h
    split at h
    · next hk => exact ⟨k, hk, by rw [h, Option.map_some]⟩
    · cases h

/-- What a Map built from a list holds comes from that list. -/
theorem mem_of_get_ofList {es : Entries α} (h : (ofList es).get k = some v) : (k, v) ∈ es :=
  (mem_setAll (mem_entries.2 h)).resolve_left (by simp)

theorem nodup_keys (m : JsMap α) : m.keys.Nodup := m.nodup

theorem ofList_self (m : JsMap α) : ofList m.entries = m := ext (ofList_entries m.nodup)

end JsMap

end Musi.Js
