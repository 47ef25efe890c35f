import Mathlib.Data.List.Basic

namespace Musi.System
set_option autoImplicit true

section

/-! ## Codes that can be read off the front of a stream -/

/-- On valid inputs a code word and what follows it are determined by the stream. -/
def PrefixCode (valid : α → Prop) (code : α → List β) : Prop :=
  ∀ a b rest rest', valid a → valid b → code a ++ rest = code b ++ rest' → a = b ∧ rest = rest'

variable {valid : α → Prop} {code : α → List β}

/-- A sequence of code words is determined by the stream. -/
theorem PrefixCode.flatMap (h : PrefixCode valid code) (hne : ∀ a, valid a → code a ≠ [])
    {l l' : List α} (hl : ∀ a ∈ l, valid a) (hl' : ∀ a ∈ l', valid a)
    (heq : l.flatMap code = l'.flatMap code) : l = l' := by
  induction l generalizing l' with
  | nil =>
    cases l' with
    | nil => rfl
    | cons b l' =>
      rw [List.flatMap_nil, List.flatMap_cons] at heq
      exact absurd (List.append_eq_nil_iff.1 heq.symm).1 (hne b (hl' b List.mem_cons_self))
  | cons a l ih =>
    cases l' with
    | nil =>
      rw [List.flatMap_nil, List.flatMap_cons] at heq
      exact absurd (List.append_eq_nil_iff.1 heq).1 (hne a (hl a List.mem_cons_self))
    | cons b l' =>
      rw [List.flatMap_cons, List.flatMap_cons] at heq
      obtain ⟨rfl, hrest⟩ := h a b _ _ (hl a List.mem_cons_self) (hl' b List.mem_cons_self) heq
      rw [ih (fun c hc => hl c (List.mem_cons_of_mem _ hc))
        (fun c hc => hl' c (List.mem_cons_of_mem _ hc)) hrest]

/-- What goes on over a sequence of code words is a sequence of code words. -/
theorem PrefixCode.flatMap_append (h : PrefixCode valid code) (hne : ∀ a, valid a → code a ≠ [])
    {l l' : List α} {more : List β} (hl : ∀ a ∈ l, valid a) (hl' : ∀ a ∈ l', valid a)
    (heq : l'.flatMap code = l.flatMap code ++ more) : ∃ rest : List α, more = rest.flatMap code := by
  induction l generalizing l' with
  | nil => exact ⟨l', heq.symm⟩
  | cons a l ih =>
    cases l' with
    | nil =>
      rw [List.flatMap_nil, List.flatMap_cons, List.append_assoc] at heq
      exact absurd (List.append_eq_nil_iff.1 heq.symm).1 (hne a (hl a List.mem_cons_self))
    | cons b l' =>
      rw [List.flatMap_cons, List.flatMap_cons, List.append_assoc] at heq
      obtain ⟨-, hrest⟩ := h b a _ _ (hl' b List.mem_cons_self) (hl a List.mem_cons_self) heq
      exact ih (fun c hc => hl c (List.mem_cons_of_mem _ hc))
        (fun c hc => hl' c (List.mem_cons_of_mem _ hc)) hrest

/-- Words that a terminator ends, where none holds it. -/
theorem append_terminator {β : Type} {stop : β} {u v rest rest' : List β} (hu : stop ∉ u)
    (hv : stop ∉ v) (h : u ++ stop :: rest = v ++ stop :: rest') : u = v ∧ rest = rest' := by
  induction u generalizing v with
  | nil =>
    cases v with
    | nil => exact ⟨rfl, (List.cons.inj h).2⟩
    | cons c v => exact absurd (List.cons.inj h).1 (List.ne_of_not_mem_cons hv)
  | cons c u ih =>
    cases v with
    | nil => exact absurd (List.cons.inj h).1.symm (List.ne_of_not_mem_cons hu)
    | cons d v =>
      obtain ⟨hcd, htail⟩ := List.cons.inj h
      obtain ⟨huv, hrest⟩ :=
        ih (List.not_mem_of_not_mem_cons hu) (List.not_mem_of_not_mem_cons hv) htail
      exact ⟨by rw [hcd, huv], hrest⟩

end

section

/-! ## Records written one after the other, each field ended by a separator -/

def listing {α : Type} (stop : α) : List (List α × List α) → List α
  | [] => []
  | (name, value) :: records => name ++ stop :: (value ++ stop :: listing stop records)

/-- The first value that differs goes on, in the second list, over a separator and what the first
list writes after it. -/
def Swallows {α : Type} (stop : α) (c d : List (List α × List α)) : Prop :=
  ∃ before name value rest after after', c = before ++ (name, value) :: after ∧
    d = before ++ (name, value ++ stop :: rest) :: after' ∧
    listing stop after = rest ++ stop :: listing stop after'

variable {α : Type} {stop : α} {c d : List (List α × List α)}

theorem listing_append (before after : List (List α × List α)) :
    listing stop (before ++ after) = listing stop before ++ listing stop after := by
  induction before with
  | nil => rfl
  | cons record before ih =>
    rw [List.cons_append, listing, listing, ih]
    simp only [List.append_assoc, List.cons_append]

theorem Swallows.listing_eq (h : Swallows stop c d) : listing stop c = listing stop d := by
  obtain ⟨before, name, value, rest, after, after', rfl, rfl, h⟩ := h
  rw [listing_append, listing_append, listing, listing, h]
  simp only [List.append_assoc, List.cons_append]

theorem Swallows.ne (h : Swallows stop c d) : c ≠ d := by
  obtain ⟨before, name, value, rest, after, after', rfl, rfl, -⟩ := h
  intro heq
  have hvalue : value = value ++ stop :: rest :=
    congrArg Prod.snd (List.cons.inj (List.append_cancel_left heq)).1
  have hlength := congrArg List.length hvalue
  rw [List.length_append, List.length_cons] at hlength
  omega

theorem Swallows.cons (record : List α × List α) (h : Swallows stop c d) :
    Swallows stop (record :: c) (record :: d) := by
  obtain ⟨before, name, value, rest, after, after', rfl, rfl, h⟩ := h
  exact ⟨record :: before, name, value, rest, after, after', rfl, rfl, h⟩

/-- Values without the separator cannot go on over one. -/
theorem not_swallows (h : ∀ record ∈ d, stop ∉ record.2) : ¬ Swallows stop c d := by
  rintro ⟨before, name, value, rest, after, after', -, rfl, -⟩
  refine h _ (List.mem_append_right _ List.mem_cons_self) ?_
  exact List.mem_append_right _ List.mem_cons_self

/-- Where the names hold no separator, a listing is ambiguous in one way only. -/
theorem listing_eq_iff (hc : ∀ record ∈ c, stop ∉ record.1) (hd : ∀ record ∈ d, stop ∉ record.1) :
    listing stop c = listing stop d ↔ c = d ∨ Swallows stop c d ∨ Swallows stop d c := by
  constructor
  · intro h
    induction c generalizing d with
    | nil =>
      cases d with
      | nil => exact .inl rfl
      | cons record d =>
        rw [listing, listing] at h
        exact absurd h.symm (List.append_ne_nil_of_right_ne_nil _ (List.cons_ne_nil _ _))
    | cons record c ih =>
      cases d with
      | nil =>
        rw [listing, listing] at h
        exact absurd h (List.append_ne_nil_of_right_ne_nil _ (List.cons_ne_nil _ _))
      | cons record' d =>
        obtain ⟨name, value⟩ := record
        obtain ⟨name', value'⟩ := record'
        rw [listing, listing] at h
        obtain ⟨rfl, hvalues⟩ :=
          append_terminator (hc _ List.mem_cons_self) (hd _ List.mem_cons_self) h
        -- One value is a prefix of the other.
        rcases List.append_eq_append_iff.1 hvalues with ⟨more, rfl, hmore⟩ | ⟨more, rfl, hmore⟩
        · cases more with
          | nil =>
            rw [List.append_nil]
            rcases ih (fun r hr => hc r (List.mem_cons_of_mem _ hr))
              (fun r hr => hd r (List.mem_cons_of_mem _ hr)) (List.cons.inj hmore).2 with rfl | h | h
            · exact .inl rfl
            · exact .inr (.inl (h.cons _))
            · exact .inr (.inr (h.cons _))
          | cons first rest =>
            rw [List.cons_append, List.cons.injEq] at hmore
            obtain ⟨rfl, hmore⟩ := hmore
            exact .inr (.inl ⟨[], name, value, rest, c, d, rfl, rfl, hmore⟩)
        · cases more with
          | nil =>
            rw [List.append_nil]
            rcases ih (fun r hr => hc r (List.mem_cons_of_mem _ hr))
              (fun r hr => hd r (List.mem_cons_of_mem _ hr)) (List.cons.inj hmore).2.symm with rfl | h | h
            · exact .inl rfl
            · exact .inr (.inl (h.cons _))
            · exact .inr (.inr (h.cons _))
          | cons first rest =>
            rw [List.cons_append, List.cons.injEq] at hmore
            obtain ⟨rfl, hmore⟩ := hmore
            exact .inr (.inr ⟨[], name, value', rest, d, c, rfl, rfl, hmore⟩)
  · rintro (rfl | h | h)
    · rfl
    · exact h.listing_eq
    · exact h.listing_eq.symm

end

end Musi.System
