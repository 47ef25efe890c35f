import Mathlib.Data.List.Forall2
import Mathlib.Data.List.Perm.Basic

namespace Musi.Js
set_option autoImplicit true

/-! ## Loops that can throw -/

variable {ε α β : Type}

theorem bind_ok {x : Except ε α} {f : α → Except ε β} :
    (x >>= f) = .ok b ↔ ∃ a, x = .ok a ∧ f a = .ok b := by
  cases x with
  | error e => exact ⟨nofun, nofun⟩
  | ok a => exact ⟨fun h => ⟨a, rfl, h⟩, fun ⟨_, ha, h⟩ => Except.ok.inj ha ▸ h⟩

theorem map_ok {x : Except ε α} {f : α → β} : x.map f = .ok b ↔ ∃ a, x = .ok a ∧ f a = b := by
  cases x with
  | error e => exact ⟨nofun, nofun⟩
  | ok a => exact ⟨fun h => ⟨a, rfl, Except.ok.inj h⟩, fun ⟨_, ha, h⟩ => Except.ok.inj ha ▸ congrArg _ h⟩

theorem mapError_ok {x : Except ε α} {f : ε → ε'} : x.mapError f = .ok a ↔ x = .ok a := by
  cases x with
  | error e => exact ⟨nofun, nofun⟩
  | ok b => exact ⟨fun h => congrArg _ (Except.ok.inj h), fun h => congrArg _ (Except.ok.inj h)⟩

theorem ok_of_toOption {x : Except ε α} (h : x.toOption = some a) : x = .ok a := by
  cases x with
  | error e => cases h
  | ok b => exact congrArg _ (Option.some.inj h)

/-- A loop that only checks passes when every check does. -/
theorem forM_ok {f : α → Except ε Unit} {l : List α} :
    l.forM f = .ok () ↔ ∀ a ∈ l, f a = .ok () := by
  induction l with
  | nil => exact iff_of_true rfl nofun
  | cons a l ih =>
    have hcons : (a :: l).forM f = (f a >>= fun _ => l.forM f) := rfl
    rw [hcons, bind_ok, List.forall_mem_cons, ← ih]
    exact ⟨fun ⟨(), ha, hl⟩ => ⟨ha, hl⟩, fun ⟨ha, hl⟩ => ⟨(), ha, hl⟩⟩

theorem mapM_ok {f : α → Except ε β} {l : List α} {r : List β} :
    l.mapM f = .ok r ↔ List.Forall₂ (fun a b => f a = .ok b) l r := by
  induction l generalizing r with
  | nil => simp [List.mapM_nil, pure, Except.pure, eq_comm]
  | cons a l ih =>
    rw [List.mapM_cons, bind_ok]
    simp only [bind_ok, ih, pure, Except.pure, Except.ok.injEq]
    constructor
    · rintro ⟨b, hb, bs, hbs, rfl⟩
      exact .cons hb hbs
    · rintro (_ | ⟨hb, hbs⟩)
      exact ⟨_, hb, _, hbs, rfl⟩

/-- A loop whose results name what they are made from. -/
theorem mapM_ok_keyed {f : α → Except ε β} {key : β → α} (hkey : ∀ a b, f a = .ok b → key b = a)
    {l : List α} {r : List β} :
    l.mapM f = .ok r ↔ r.map key = l ∧ ∀ b ∈ r, f (key b) = .ok b := by
  rw [mapM_ok]
  constructor
  · intro h
    induction h with
    | nil => exact ⟨rfl, nofun⟩
    | cons hab _ ih =>
      obtain rfl := hkey _ _ hab
      exact ⟨congrArg _ ih.1, List.forall_mem_cons.2 ⟨hab, ih.2⟩⟩
  · rintro ⟨rfl, h⟩
    exact List.forall₂_map_left_iff.2 (List.forall₂_same.2 h)

theorem exists_perm_of_map {key : β → α} {l : List α} {r : List β} (h : l.Perm (r.map key)) :
    ∃ r' : List β, r'.map key = l ∧ r'.Perm r := by
  have hr : List.Forall₂ (fun a b => key b = a) (r.map key) r :=
    List.forall₂_map_left_iff.2 (List.forall₂_same.2 fun b _ => rfl)
  obtain ⟨r', hr', hp⟩ := List.perm_comp_forall₂ h hr
  refine ⟨r', ?_, hp⟩
  clear hp hr h
  induction hr' with
  | nil => rfl
  | cons hab _ ih => rw [List.map_cons, ih, hab]

/-- What every pass of a loop keeps, the loop keeps. -/
theorem foldlM_ok {f : β → α → Except ε β} {l : List α} (P : β → List α → Prop)
    (hstep : ∀ b a done b', P b done → f b a = .ok b' → P b' (done ++ [a]))
    (h : l.foldlM f b = .ok b') (done : List α) (hb : P b done) : P b' (done ++ l) := by
  induction l generalizing b done with
  | nil =>
    obtain rfl := Except.ok.inj h
    rwa [List.append_nil]
  | cons a l ih =>
    rw [List.foldlM_cons, bind_ok] at h
    obtain ⟨c, hc, h⟩ := h
    rw [List.append_cons]
    exact ih h (done ++ [a]) (hstep b a done c hb hc)

/-- A loop that throws only where it reads a value reads them all before it folds them. -/
theorem foldlM_map {g : α → Except ε γ} {h : β → γ → β} (l : List α) (b : β) :
    l.foldlM (fun b a => (g a).map (h b)) b = (l.mapM g).map fun cs => cs.foldl h b := by
  induction l generalizing b with
  | nil => rfl
  | cons a l ih =>
    rw [List.foldlM_cons, List.mapM_cons]
    cases ha : g a with
    | error e => rfl
    | ok c =>
      have hfold : (Except.map (h b) (.ok c) >>= fun b => l.foldlM (fun b a => (g a).map (h b)) b) =
          l.foldlM (fun b a => (g a).map (h b)) (h b c) := rfl
      rw [hfold, ih]
      cases l.mapM g with
      | error e => rfl
      | ok cs => rfl

theorem mapM_ok_mem {f : α → Except ε β} {l : List α} {r : List β} (h : l.mapM f = .ok r)
    (hb : b ∈ r) : ∃ a ∈ l, f a = .ok b := by
  rw [mapM_ok] at h
  induction h with
  | nil => cases hb
  | cons hab _ ih =>
    rcases List.mem_cons.1 hb with rfl | hb
    · exact ⟨_, List.mem_cons_self, hab⟩
    · obtain ⟨a, ha, hf⟩ := ih hb
      exact ⟨a, List.mem_cons_of_mem _ ha, hf⟩

theorem mapM_ok_of_mem {f : α → Except ε β} {l : List α} {r : List β} (h : l.mapM f = .ok r)
    (ha : a ∈ l) : ∃ b ∈ r, f a = .ok b := by
  rw [mapM_ok] at h
  induction h with
  | nil => cases ha
  | cons hab _ ih =>
    rcases List.mem_cons.1 ha with rfl | ha
    · exact ⟨_, List.mem_cons_self, hab⟩
    · obtain ⟨b, hb, hf⟩ := ih ha
      exact ⟨b, List.mem_cons_of_mem _ hb, hf⟩

/-- A loop that never throws ends. -/
theorem mapM_ok_of_forall {f : α → Except ε β} {l : List α} (h : ∀ a ∈ l, ∃ b, f a = .ok b) :
    ∃ r, l.mapM f = .ok r := by
  induction l with
  | nil => exact ⟨[], rfl⟩
  | cons a l ih =>
    obtain ⟨⟨b, hb⟩, hl⟩ := List.forall_mem_cons.1 h
    obtain ⟨r, hr⟩ := ih hl
    exact ⟨b :: r, mapM_ok.2 (.cons hb (mapM_ok.1 hr))⟩

/-- What is read off a reordered list is the reordered result. -/
theorem mapM_ok_perm {f : α → Except ε β} {l l' : List α} {r : List β} (hp : l.Perm l')
    (h : l.mapM f = .ok r) : ∃ r', l'.mapM f = .ok r' ∧ r.Perm r' := by
  obtain ⟨r', hr', hperm⟩ := List.perm_comp_forall₂ hp.symm (mapM_ok.1 h)
  exact ⟨r', mapM_ok.2 hr', hperm.symm⟩

theorem mapM_eq_map {f : α → Option β} {g : α → β} {l : List α}
    (h : ∀ a ∈ l, f a = some (g a)) : l.mapM f = some (l.map g) := by
  induction l with
  | nil => rfl
  | cons a l ih =>
    rw [List.forall_mem_cons] at h
    rw [List.mapM_cons, h.1, ih h.2]
    rfl

end Musi.Js
