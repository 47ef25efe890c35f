import Mathlib.Algebra.BigOperators.Group.List.Basic
import Mathlib.Algebra.Ring.Nat
import Musi.Js.Table

namespace Musi.Js
set_option autoImplicit true

section
variable {σ α : Type}

/-! ## Folding into a Map, one entry a key -/

/-- A loop that reads and replaces the entry of every value's key. -/
def groupFold (key : σ → JsString) (step : Option α → σ → α) (m : JsMap α) (xs : List σ) : JsMap α :=
  xs.foldl (fun m x => m.set (key x) (step (m.get (key x)) x)) m

variable (key : σ → JsString) (step : Option α → σ → α)

/-- An entry is what its own values fold to. -/
theorem get_groupFold (m : JsMap α) (xs : List σ) (k : JsString) :
    (groupFold key step m xs).get k =
      (xs.filter fun x => key x = k).foldl (fun o x => some (step o x)) (m.get k) := by
  induction xs generalizing m with
  | nil => rfl
  | cons x xs ih =>
    have hstep : groupFold key step m (x :: xs) =
        groupFold key step (m.set (key x) (step (m.get (key x)) x)) xs := rfl
    rw [hstep, ih, JsMap.get_set]
    by_cases hk : key x = k
    · rw [if_pos hk.symm, List.filter_cons_of_pos (by simpa using hk), List.foldl_cons, hk]
    · rw [if_neg (Ne.symm hk), List.filter_cons_of_neg (by simpa using hk)]

/-- Setting an entry replaces what its key weighed. -/
theorem sum_setEntry (weigh : α → Nat) (es : Entries α) (k : JsString) (v : α) :
    ((setEntry k v es).map fun e => weigh e.2).sum + ((es.lookup k).map weigh).getD 0 =
      (es.map fun e => weigh e.2).sum + weigh v := by
  induction es with
  | nil => simp [setEntry]
  | cons e es ih =>
    obtain ⟨k', v'⟩ := e
    by_cases hk : k' = k
    · subst hk
      simp only [setEntry, if_true, List.map_cons, List.sum_cons, List.lookup_cons_self,
        Option.map_some, Option.getD_some]
      omega
    · rw [Entries.lookup_cons, if_neg (Ne.symm hk)]
      simp only [setEntry, if_neg hk, List.map_cons, List.sum_cons]
      omega

/-- A loop whose every pass adds one to the weight of an entry weighs its passes. -/
theorem sum_groupFold (weigh : α → Nat) (m : JsMap α) (xs : List σ)
    (hstep : ∀ o x, weigh (step o x) = (o.map weigh).getD 0 + 1) :
    ((groupFold key step m xs).entries.map fun e => weigh e.2).sum =
      (m.entries.map fun e => weigh e.2).sum + xs.length := by
  induction xs generalizing m with
  | nil => rfl
  | cons x xs ih =>
    have hfold : groupFold key step m (x :: xs) =
        groupFold key step (m.set (key x) (step (m.get (key x)) x)) xs := rfl
    have hset := sum_setEntry weigh m.entries (key x) (step (m.get (key x)) x)
    rw [hstep] at hset
    rw [hfold, ih, List.length_cons]
    change ((setEntry (key x) (step (m.get (key x)) x) m.entries).map fun e => weigh e.2).sum + _ = _
    change _ + ((m.get (key x)).map weigh).getD 0 = _ at hset
    omega

/-- Maps with the same entries, whatever their order. -/
theorem JsMap.entries_perm {m n : JsMap α} (h : ∀ k, m.get k = n.get k) :
    m.entries.Perm n.entries := by
  have hm : m.entries.Nodup := m.nodup.of_map _
  have hn : n.entries.Nodup := n.nodup.of_map _
  refine (List.perm_ext_iff_of_nodup hm hn).2 fun e => ?_
  rw [JsMap.mem_entries (k := e.1) (v := e.2), JsMap.mem_entries (k := e.1) (v := e.2), h]

end

section
variable {α : Type}

/-! ## Values collected under a key -/

/-- A Map from every key to the values that have it, in their order. -/
def buckets (key : α → JsString) (values : List α) : JsMap (List α) :=
  groupFold key (fun bucket value => bucket.getD [] ++ [value]) JsMap.empty values

variable (key : α → JsString) (values : List α)

theorem foldl_bucket (bucket : Option (List α)) (values : List α) :
    values.foldl (fun bucket value => some (bucket.getD [] ++ [value])) bucket =
      if values = [] then bucket else some (bucket.getD [] ++ values) := by
  induction values generalizing bucket with
  | nil => rfl
  | cons value values ih =>
    rw [List.foldl_cons, ih, if_neg (List.cons_ne_nil _ _)]
    by_cases h : values = []
    · rw [if_pos h, h]
    · rw [if_neg h, Option.getD_some, List.append_assoc, List.singleton_append]

theorem get_buckets (k : JsString) : (buckets key values).get k =
    if values.filter (fun value => key value = k) = [] then none
    else some (values.filter fun value => key value = k) := by
  rw [buckets, get_groupFold, foldl_bucket]
  rfl

theorem mem_buckets {e : JsString × List α} : e ∈ (buckets key values).entries ↔
    e.2 ≠ [] ∧ e.2 = values.filter fun value => key value = e.1 := by
  rw [JsMap.mem_entries (k := e.1) (v := e.2), get_buckets]
  constructor
  · intro h
    split at h
    · cases h
    · next hne =>
      have he := (Option.some.inj h).symm
      exact ⟨he ▸ hne, he⟩
  · rintro ⟨hne, he⟩
    rw [← he, if_neg hne]

theorem mem_keys_buckets {k : JsString} :
    k ∈ (buckets key values).keys ↔ ∃ value ∈ values, key value = k := by
  rw [JsMap.mem_keys, get_buckets]
  constructor
  · rintro ⟨bucket, h⟩
    split at h
    · cases h
    · next hne =>
      obtain ⟨value, hvalue⟩ := List.exists_mem_of_ne_nil _ hne
      obtain ⟨hmem, hkey⟩ := List.mem_filter.1 hvalue
      exact ⟨value, hmem, of_decide_eq_true hkey⟩
  · rintro ⟨value, hmem, hkey⟩
    have hvalue : value ∈ values.filter fun value => key value = k :=
      List.mem_filter.2 ⟨hmem, decide_eq_true hkey⟩
    exact ⟨_, if_neg (List.ne_nil_of_mem hvalue)⟩

/-! ## The pairs of a list -/

/-- The pairs of two places of a list, the earlier one first. -/
def placePairs : List α → List (α × α)
  | [] => []
  | a :: l => l.map (fun b => (a, b)) ++ placePairs l

theorem placePairs_filter (p : α → Bool) (l : List α) :
    placePairs (l.filter p) = (placePairs l).filter fun e => p e.1 && p e.2 := by
  induction l with
  | nil => rfl
  | cons a l ih =>
    rw [placePairs, List.filter_append, List.filter_map, ← ih]
    by_cases ha : p a = true
    · have hfilter : (l.filter ((fun e : α × α => p e.1 && p e.2) ∘ fun b => (a, b))) = l.filter p :=
        List.filter_congr fun b _ => by simp [ha]
      rw [List.filter_cons_of_pos ha, placePairs, hfilter]
    · have hfilter : (l.filter ((fun e : α × α => p e.1 && p e.2) ∘ fun b => (a, b))) = [] :=
        List.filter_eq_nil_iff.2 fun b _ => by simp [ha]
      rw [List.filter_cons_of_neg ha, hfilter, List.map_nil, List.nil_append]

theorem mem_of_mem_placePairs {l : List α} {e : α × α} (h : e ∈ placePairs l) :
    e.1 ∈ l ∧ e.2 ∈ l := by
  induction l with
  | nil => cases h
  | cons a l ih =>
    rw [placePairs, List.mem_append, List.mem_map] at h
    rcases h with ⟨b, hb, rfl⟩ | h
    · exact ⟨List.mem_cons_self, List.mem_cons_of_mem _ hb⟩
    · obtain ⟨h1, h2⟩ := ih h
      exact ⟨List.mem_cons_of_mem _ h1, List.mem_cons_of_mem _ h2⟩

theorem mem_placePairs_iff {l : List α} {e : α × α} : e ∈ placePairs l ↔ [e.1, e.2].Sublist l := by
  induction l with
  | nil => exact iff_of_false List.not_mem_nil (by intro h; cases h)
  | cons a l ih =>
    rw [placePairs, List.mem_append, List.mem_map, ih]
    constructor
    · rintro (⟨b, hb, rfl⟩ | h)
      · exact (List.singleton_sublist.2 hb).cons_cons a
      · exact h.cons a
    · intro h
      cases h with
      | cons _ h => exact .inr h
      | cons_cons _ h => exact .inl ⟨e.2, List.singleton_sublist.1 h, rfl⟩

theorem sublist_of_mem_placePairs {l : List α} {e : α × α} (h : e ∈ placePairs l) :
    [e.1, e.2].Sublist l := mem_placePairs_iff.1 h

theorem nodup_placePairs {l : List α} (h : l.Nodup) : (placePairs l).Nodup := by
  induction l with
  | nil => exact List.nodup_nil
  | cons a l ih =>
    obtain ⟨ha, hl⟩ := List.nodup_cons.1 h
    rw [placePairs, List.nodup_append]
    refine ⟨hl.map fun b c hbc => (Prod.mk.inj hbc).2, ih hl, ?_⟩
    intro e he f hf hef
    obtain ⟨b, -, rfl⟩ := List.mem_map.1 he
    subst hef
    exact ha (mem_of_mem_placePairs hf).1

/-- Two values of a list without repetitions are one pair of its places. -/
theorem length_filter_placePairs {l : List α} (hl : l.Nodup) {a b : α} (hab : a ≠ b)
    {p : α × α → Bool} (hp : ∀ e ∈ placePairs l, p e = true ↔ e = (a, b) ∨ e = (b, a))
    [Decidable (a ∈ l ∧ b ∈ l)] :
    ((placePairs l).filter p).length = if a ∈ l ∧ b ∈ l then 1 else 0 := by
  have hone {c d : α} (hcd : [c, d].Sublist l) (hset : ∀ e ∈ placePairs l, p e = true ↔ e = (c, d)
      ∨ e = (d, c)) : ((placePairs l).filter p).length = 1 := by
    have hperm : ((placePairs l).filter p).Perm [(c, d)] := by
      refine (List.perm_ext_iff_of_nodup ((nodup_placePairs hl).filter p)
        (List.nodup_singleton _)).2 fun e => ?_
      rw [List.mem_filter, List.mem_singleton]
      constructor
      · rintro ⟨he, hpe⟩
        rcases (hset e he).1 hpe with heq | heq
        · exact heq
        · rw [heq, mem_placePairs_iff] at he
          exact absurd he (pair_antisymm hl hcd)
      · rintro rfl
        have he : (c, d) ∈ placePairs l := mem_placePairs_iff.2 hcd
        exact ⟨he, (hset _ he).2 (.inl rfl)⟩
    exact hperm.length_eq
  split
  · next hmem =>
    rcases pair_total hmem.1 hmem.2 hab with h | h
    · exact hone h hp
    · exact hone h fun e he => (hp e he).trans or_comm
  · next hmem =>
    rw [List.length_eq_zero_iff, List.filter_eq_nil_iff]
    intro e he hpe
    have hboth := mem_of_mem_placePairs he
    rcases (hp e he).1 hpe with rfl | rfl
    · exact hmem hboth
    · exact hmem hboth.symm

/-- In a list that goes up strictly, a pair of places is two values that go up. -/
theorem mem_placePairs {R : α → α → Prop} {l : List α} (h : l.Pairwise R)
    (hirrefl : ∀ a, ¬ R a a) (hasymm : ∀ a b, R a b → ¬ R b a) {e : α × α} :
    e ∈ placePairs l ↔ e.1 ∈ l ∧ e.2 ∈ l ∧ R e.1 e.2 := by
  induction l with
  | nil => simp [placePairs]
  | cons a l ih =>
    obtain ⟨ha, hl⟩ := List.pairwise_cons.1 h
    rw [placePairs, List.mem_append, List.mem_map, ih hl, List.mem_cons, List.mem_cons]
    constructor
    · rintro (⟨b, hb, rfl⟩ | ⟨h1, h2, h⟩)
      · exact ⟨.inl rfl, .inr hb, ha b hb⟩
      · exact ⟨.inr h1, .inr h2, h⟩
    · rintro ⟨h1 | h1, h2 | h2, h⟩
      · rw [h1, h2] at h
        exact (hirrefl a h).elim
      · exact .inl ⟨e.2, h2, Prod.ext h1.symm rfl⟩
      · rw [h2] at h
        exact (hasymm _ _ h (ha e.1 h1)).elim
      · exact .inr ⟨h1, h2, h⟩

/-- The values of a list that fall into one of several classes, class by class. -/
theorem perm_flatMap_filter {κ : Type} {classes : List κ} (hn : classes.Nodup) (p : κ → α → Bool)
    (h : ∀ x k k', p k x = true → p k' x = true → k = k') (l : List α) :
    (l.filter fun x => classes.any fun k => p k x).Perm
      (classes.flatMap fun k => l.filter (p k)) := by
  induction classes with
  | nil =>
    have hnone : (l.filter fun x => ([] : List κ).any fun k => p k x) = [] :=
      List.filter_eq_nil_iff.2 fun x _ => by simp
    rw [hnone]
    exact .refl _
  | cons k classes ih =>
    obtain ⟨hk, hn⟩ := List.nodup_cons.1 hn
    have hsplit := (List.filter_append_perm (p k)
      (l.filter fun x => (k :: classes).any fun k => p k x)).symm
    rw [List.filter_filter, List.filter_filter] at hsplit
    have hfirst : (l.filter fun x => p k x && (k :: classes).any fun k => p k x) = l.filter (p k) :=
      List.filter_congr fun x _ => by
        rw [List.any_cons]
        cases p k x with
        | true => rfl
        | false => rfl
    have hrest : (l.filter fun x => (!p k x) && (k :: classes).any fun k => p k x) =
        l.filter fun x => classes.any fun k => p k x :=
      List.filter_congr fun x _ => by
        rw [List.any_cons]
        cases hx : p k x with
        | false => rfl
        | true =>
          symm
          simp only [Bool.not_true, Bool.false_and, List.any_eq_false]
          intro k' hk' hx'
          exact hk (h x k k' hx hx' ▸ hk')
    rw [hfirst, hrest] at hsplit
    rw [List.flatMap_cons]
    exact hsplit.trans ((ih hn).append_left _)

/-- The pairs of values with one key are the pairs inside the buckets. -/
theorem placePairs_buckets : ((placePairs values).filter fun e => key e.1 = key e.2).Perm
    ((buckets key values).entries.flatMap fun e => placePairs e.2) := by
  have hflat : ((buckets key values).entries.flatMap fun e => placePairs e.2) =
      (buckets key values).keys.flatMap fun k =>
        (placePairs values).filter fun e => decide (key e.1 = k) && decide (key e.2 = k) := by
    rw [JsMap.keys, Entries.keys, List.flatMap_map]
    refine List.flatMap_congr fun e he => ?_
    rw [((mem_buckets key values).1 he).2, placePairs_filter]
  rw [hflat]
  refine (List.Perm.of_eq (List.filter_congr fun e he => ?_)).trans
    (perm_flatMap_filter (JsMap.nodup_keys _)
      (fun k (e : α × α) => decide (key e.1 = k) && decide (key e.2 = k)) ?_ _)
  · have hmem : key e.1 ∈ (buckets key values).keys :=
      (mem_keys_buckets key values).2 ⟨e.1, (mem_of_mem_placePairs he).1, rfl⟩
    rw [Bool.eq_iff_iff, List.any_eq_true, decide_eq_true_eq]
    simp only [Bool.and_eq_true, decide_eq_true_eq]
    constructor
    · intro h
      exact ⟨key e.1, hmem, rfl, h.symm⟩
    · rintro ⟨k, -, h1, h2⟩
      exact h1.trans h2.symm
  · intro e k k' hk hk'
    simp only [Bool.and_eq_true, decide_eq_true_eq] at hk hk'
    exact hk.1.symm.trans hk'.1

theorem placePairs_map {β : Type} (f : α → β) (l : List α) :
    placePairs (l.map f) = (placePairs l).map fun e => (f e.1, f e.2) := by
  induction l with
  | nil => rfl
  | cons a l ih =>
    rw [List.map_cons, placePairs, placePairs, ih, List.map_append, List.map_map, List.map_map]
    rfl

/-- Buckets of a coarser key, split by the finer one, are the buckets of the finer one. -/
theorem buckets_refine (coarse : α → JsString) (f : JsString → JsString)
    (hf : ∀ value, coarse value = f (key value)) :
    ((buckets coarse values).entries.flatMap fun e => (buckets key e.2).entries).Perm
      (buckets key values).entries := by
  have hnodup (m : JsMap (List α)) : m.entries.Nodup := m.nodup.of_map _
  have hmem {e : JsString × List α} (he : e ∈ (buckets coarse values).entries)
      {g : JsString × List α} (hg : g ∈ (buckets key e.2).entries) :
      f g.1 = e.1 ∧ g.2 ≠ [] ∧ g.2 = values.filter fun value => key value = g.1 := by
    obtain ⟨-, he⟩ := (mem_buckets coarse values).1 he
    obtain ⟨hne, hg⟩ := (mem_buckets key e.2).1 hg
    obtain ⟨value, hvalue⟩ := List.exists_mem_of_ne_nil _ hne
    rw [hg, he, List.mem_filter, List.mem_filter, decide_eq_true_eq, decide_eq_true_eq, hf]
      at hvalue
    have hfg : f g.1 = e.1 := hvalue.2 ▸ hvalue.1.2
    refine ⟨hfg, hne, hg.trans ?_⟩
    rw [he, List.filter_filter]
    refine List.filter_congr fun other _ => ?_
    rw [Bool.eq_iff_iff, Bool.and_eq_true, decide_eq_true_eq, decide_eq_true_eq]
    refine and_iff_left_of_imp fun hother => ?_
    rw [hf, hother, hfg]
  refine (List.perm_ext_iff_of_nodup (List.nodup_flatMap.2 ⟨fun e _ => hnodup _, ?_⟩)
    (hnodup _)).2 fun g => ?_
  · refine (List.pairwise_map.1 (buckets coarse values).nodup).imp_of_mem fun {e e'} he he' hne => ?_
    refine List.disjoint_left.2 ?_
    intro g hg hg'
    exact hne ((hmem he hg).1.symm.trans (hmem he' hg').1)
  · rw [List.mem_flatMap, mem_buckets]
    constructor
    · rintro ⟨e, he, hg⟩
      exact (hmem he hg).2
    · rintro ⟨hne, hg⟩
      obtain ⟨value, hvalue⟩ := List.exists_mem_of_ne_nil _ hne
      rw [hg, List.mem_filter, decide_eq_true_eq] at hvalue
      have hcoarse : coarse value = f g.1 := by rw [hf, hvalue.2]
      have hbucket : value ∈ values.filter fun value => coarse value = f g.1 :=
        List.mem_filter.2 ⟨hvalue.1, decide_eq_true hcoarse⟩
      refine ⟨(f g.1, values.filter fun value => coarse value = f g.1), ?_, ?_⟩
      · exact (mem_buckets coarse values).2 ⟨List.ne_nil_of_mem hbucket, rfl⟩
      · refine (mem_buckets key _).2 ⟨hne, hg.trans ?_⟩
        rw [List.filter_filter]
        refine List.filter_congr fun other _ => ?_
        rw [Bool.eq_iff_iff, Bool.and_eq_true, decide_eq_true_eq, decide_eq_true_eq]
        refine (and_iff_left_of_imp fun hother => ?_).symm
        rw [hf, hother]

/-- A symmetric function of the pairs does not see the order of the list. -/
theorem placePairs_perm {β : Type} {l m : List α} (h : l.Perm m) {f : α → α → β}
    (hf : ∀ a b, f a b = f b a) {p : α → α → Bool} (hp : ∀ a b, p a b = p b a) :
    (((placePairs l).filter fun e => p e.1 e.2).map fun e => f e.1 e.2).Perm
      (((placePairs m).filter fun e => p e.1 e.2).map fun e => f e.1 e.2) := by
  have hcons (a : α) (l : List α) :
      ((placePairs (a :: l)).filter fun e => p e.1 e.2).map (fun e => f e.1 e.2) =
        (l.filter (p a)).map (f a) ++ ((placePairs l).filter fun e => p e.1 e.2).map
          fun e => f e.1 e.2 := by
    rw [placePairs, List.filter_append, List.map_append, List.filter_map, List.map_map]
    rfl
  induction h with
  | nil => exact .refl _
  | cons a hlm ih =>
    rw [hcons, hcons]
    exact ((hlm.filter (p a)).map (f a)).append ih
  | swap a b l =>
    rw [hcons, hcons, hcons, hcons, List.filter_cons, List.filter_cons, hp b a]
    by_cases hab : p a b = true
    · rw [if_pos hab, if_pos hab, List.map_cons, List.map_cons, hf b a, List.cons_append,
        List.cons_append, ← List.append_assoc, ← List.append_assoc]
      exact (List.perm_append_comm.append_right _).cons _
    · rw [if_neg hab, if_neg hab, ← List.append_assoc, ← List.append_assoc]
      exact List.perm_append_comm.append_right _
  | trans _ _ ih ih' => exact ih.trans ih'

end

end Musi.Js
