import Mathlib.Logic.Relation
import Mathlib.Data.List.Basic

namespace Musi.System
set_option autoImplicit true

open Relation

/-! ## Walks of bounded length -/

section
variable {P : Type} {edge : P → P → Prop}

/-- A walk of so many edges at most. -/
def Within (edge : P → P → Prop) : Nat → P → P → Prop
  | 0, p, q => p = q
  | n + 1, p, q => Within edge n p q ∨ ∃ r, Within edge n p r ∧ edge r q

theorem Within.refl (n : Nat) (p : P) : Within edge n p p := by
  induction n with
  | zero => rfl
  | succ n ih => exact .inl ih

theorem Within.head {n : Nat} {p q r : P} (hpq : edge p q) (h : Within edge n q r) :
    Within edge (n + 1) p r := by
  induction n generalizing r with
  | zero =>
    cases h
    exact .inr ⟨p, rfl, hpq⟩
  | succ n ih =>
    rcases h with h | ⟨s, hs, hsr⟩
    · exact .inl (ih h)
    · exact .inr ⟨s, ih hs, hsr⟩

theorem Within.mono {edge' : P → P → Prop} (h : ∀ a b, edge a b → edge' a b) {n : Nat} {p q : P}
    (hpq : Within edge n p q) : Within edge' n p q := by
  induction n generalizing q with
  | zero => exact hpq
  | succ n ih =>
    rcases hpq with hpq | ⟨r, hpr, hrq⟩
    · exact .inl (ih hpq)
    · exact .inr ⟨r, ih hpr, h r q hrq⟩

/-- A walk need not come back to where it starts. -/
theorem reach_away {p q : P} (h : ReflTransGen edge p q) :
    ReflTransGen (fun a b => edge a b ∧ b ≠ p) p q := by
  induction h with
  | refl => exact .refl
  | @tail b c _ hbc ih =>
    by_cases hc : c = p
    · rw [hc]
    · exact ih.tail ⟨hbc, hc⟩

/-- No walk needs more edges than there are elements that edges lead to. -/
theorem within_of_reach [DecidableEq P] (targets : List P) {p q : P}
    (htargets : ∀ a b, edge a b → b ∈ targets) (h : ReflTransGen edge p q) :
    Within edge targets.length p q := by
  induction hn : targets.length generalizing targets edge p with
  | zero =>
    rcases h.cases_head with rfl | ⟨b, hpb, -⟩
    · exact Within.refl 0 p
    · rw [List.length_eq_zero_iff.1 hn] at htargets
      exact absurd (htargets _ _ hpb) List.not_mem_nil
  | succ n ih =>
    rcases h.cases_head with rfl | ⟨b, hpb, hbq⟩
    · exact Within.refl _ p
    · have haway : ∀ a c, edge a c ∧ c ≠ b → c ∈ targets.erase b := fun a c hac =>
        (List.mem_erase_of_ne hac.2).2 (htargets a c hac.1)
      have hlength : (targets.erase b).length = n := by
        rw [List.length_erase_of_mem (htargets _ _ hpb), hn]
        rfl
      have hwithin := ih (targets.erase b) haway (reach_away hbq) hlength
      exact Within.head hpb (Within.mono (fun _ _ hcd => hcd.1) hwithin)

end

/-! ## Passes that carry contents along edges -/

section
variable {σ P X : Type} (pass : σ → σ × Bool)

/-- Passes until one changes nothing; none when so many passes all change something. -/
def settle : Nat → σ → Option σ
  | 0, _ => none
  | rounds + 1, s => if (pass s).2 then settle rounds (pass s).1 else some (pass s).1

/-- What a pass does with the contents of places: it loses none, takes none but along edges, takes
every content along every edge, and says so when there is a new one. -/
structure Propagates (Inv : σ → Prop) (content : σ → P → X → Prop) (edge : P → P → Prop) : Prop where
  keeps : ∀ s, Inv s → Inv (pass s).1
  grows : ∀ s, Inv s → ∀ p x, content s p x → content (pass s).1 p x
  carries : ∀ s, Inv s → ∀ p q x, content s p x → edge p q → content (pass s).1 q x
  sound : ∀ s, Inv s → ∀ q x, content (pass s).1 q x → ∃ p, content s p x ∧ ReflTransGen edge p q
  changed : ∀ s, Inv s → ((pass s).2 = true ↔ ∃ p x, content (pass s).1 p x ∧ ¬ content s p x)

variable {pass} {Inv : σ → Prop} {content : σ → P → X → Prop} {edge : P → P → Prop}

theorem Propagates.within (h : Propagates pass Inv content edge) {s : σ} (hs : Inv s) {n : Nat}
    {p q : P} {x : X} (hpq : Within edge (n + 1) p q) (hp : content s p x) :
    ∃ r, content (pass s).1 r x ∧ Within edge n r q := by
  induction n generalizing q with
  | zero =>
    rcases hpq with rfl | ⟨r, rfl, hrq⟩
    · exact ⟨p, h.grows s hs p x hp, rfl⟩
    · exact ⟨q, h.carries s hs p q x hp hrq, rfl⟩
  | succ n ih =>
    rcases hpq with hpq | ⟨r, hpr, hrq⟩
    · obtain ⟨t, ht, htq⟩ := ih hpq
      exact ⟨t, ht, .inl htq⟩
    · obtain ⟨t, ht, htr⟩ := ih hpr
      exact ⟨t, ht, .inr ⟨r, htr, hrq⟩⟩

/-- When walks of so many edges reach everything, one pass more than that settles: every place then
has what walks lead to it. -/
theorem Propagates.settle (h : Propagates pass Inv content edge) {s : σ} (hs : Inv s) {n : Nat}
    (hn : ∀ p q x, content s p x → ReflTransGen edge p q →
      ∃ r, content s r x ∧ Within edge n r q) :
    ∃ result, Musi.System.settle pass (n + 1) s = some result ∧ Inv result ∧
      ∀ q x, content result q x ↔ ∃ p, content s p x ∧ ReflTransGen edge p q := by
  induction n generalizing s with
  | zero =>
    -- Nothing is left to carry, so the pass changes nothing.
    have hall {q : P} {x : X} (hq : content (pass s).1 q x) : content s q x := by
      obtain ⟨p, hp, hpq⟩ := h.sound s hs q x hq
      obtain ⟨r, hr, rfl⟩ := hn p q x hp hpq
      exact hr
    have hunchanged : (pass s).2 = false := by
      rw [← Bool.not_eq_true]
      intro hchanged
      obtain ⟨p, x, hnew, hold⟩ := (h.changed s hs).1 hchanged
      exact hold (hall hnew)
    refine ⟨(pass s).1, by rw [Musi.System.settle, hunchanged]; rfl, h.keeps s hs, fun q x => ?_⟩
    constructor
    · exact h.sound s hs q x
    · rintro ⟨p, hp, hpq⟩
      obtain ⟨r, hr, rfl⟩ := hn p q x hp hpq
      exact h.grows s hs r x hr
  | succ n ih =>
    by_cases hchanged : (pass s).2 = true
    · have hnext : ∀ p q x, content (pass s).1 p x → ReflTransGen edge p q →
          ∃ r, content (pass s).1 r x ∧ Within edge n r q := by
        intro p q x hp hpq
        obtain ⟨o, ho, hop⟩ := h.sound s hs p x hp
        obtain ⟨r, hr, hrq⟩ := hn o q x ho (hop.trans hpq)
        exact h.within hs hrq hr
      obtain ⟨result, hresult, hinv, hcontent⟩ := ih (h.keeps s hs) hnext
      refine ⟨result, by rw [Musi.System.settle, if_pos hchanged]; exact hresult, hinv, fun q x => ?_⟩
      rw [hcontent]
      constructor
      · rintro ⟨p, hp, hpq⟩
        obtain ⟨o, ho, hop⟩ := h.sound s hs p x hp
        exact ⟨o, ho, hop.trans hpq⟩
      · rintro ⟨p, hp, hpq⟩
        exact ⟨p, h.grows s hs p x hp, hpq⟩
    · -- Nothing was carried along any edge, so the contents are closed already.
      have hall (q : P) (x : X) (hq : content (pass s).1 q x) : content s q x := by
        by_contra hold
        exact hchanged ((h.changed s hs).2 ⟨q, x, hq, hold⟩)
      refine ⟨(pass s).1, by rw [Musi.System.settle, if_neg hchanged], h.keeps s hs, fun q x => ?_⟩
      constructor
      · exact h.sound s hs q x
      · rintro ⟨p, hp, hpq⟩
        refine h.grows s hs q x ?_
        induction hpq with
        | refl => exact hp
        | tail _ hbc ih => exact hall _ x (h.carries s hs _ _ x ih hbc)

end

end Musi.System
