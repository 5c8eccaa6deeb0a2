/-
  Hmn.Framework.Fallible — reasoning about computations that can raise.

  The inversions of a bind, of a traversal and of a loop: what a computation
  that returned has gone through, and where one that raised has raised.
-/
import Mathlib.Data.List.Forall2

namespace Hmn.Framework.Fallible

variable {ε α β σ : Type}

/-! ## §1. Binds. -/

theorem bind_eq_ok {x : Except ε α} {f : α → Except ε β} {b : β} :
    x >>= f = .ok b ↔ ∃ a, x = .ok a ∧ f a = .ok b := by
  cases x <;> simp [bind, Except.bind]

/-- A computation with a continuation returns exactly when both do. -/
theorem exists_bind_eq_ok {x : Except ε α} {f : α → Except ε β} :
    (∃ b, x >>= f = .ok b) ↔ ∃ a, x = .ok a ∧ ∃ b, f a = .ok b := by
  constructor
  · rintro ⟨b, h⟩
    obtain ⟨a, ha, hb⟩ := bind_eq_ok.mp h
    exact ⟨a, ha, b, hb⟩
  · rintro ⟨a, ha, b, hb⟩
    exact ⟨b, bind_eq_ok.mpr ⟨a, ha, hb⟩⟩

theorem bind_eq_error {x : Except ε α} {f : α → Except ε β} {e : ε} :
    x >>= f = .error e ↔ x = .error e ∨ ∃ a, x = .ok a ∧ f a = .error e := by
  cases x <;> simp [bind, Except.bind]

theorem pure_eq_ok {a b : α} : (pure a : Except ε α) = .ok b ↔ a = b := by
  simp [pure, Except.pure]

theorem pure_ne_error {a : α} {e : ε} : (pure a : Except ε α) ≠ .error e := nofun

theorem bind_ok {a : α} {f : α → Except ε β} : Except.ok a >>= f = f a := rfl

/-! ## §2. Traversals. -/

/-- A traversal that returned has returned for every element. -/
theorem mapM_eq_ok {f : α → Except ε β} {xs : List α} {ys : List β} :
    xs.mapM f = .ok ys ↔ List.Forall₂ (fun x y => f x = .ok y) xs ys := by
  induction xs generalizing ys with
  | nil =>
    rw [List.mapM_nil, pure_eq_ok, List.forall₂_nil_left_iff]
    exact eq_comm
  | cons x xs ih =>
    rw [List.mapM_cons, bind_eq_ok, List.forall₂_cons_left_iff]
    constructor
    · rintro ⟨y, hy, h⟩
      obtain ⟨ys', hys, h⟩ := bind_eq_ok.mp h
      exact ⟨y, ys', hy, ih.mp hys, (pure_eq_ok.mp h).symm⟩
    · rintro ⟨y, ys', hy, hys, rfl⟩
      exact ⟨y, hy, bind_eq_ok.mpr ⟨ys', ih.mpr hys, rfl⟩⟩

/-- A traversal returns when it does for every element. -/
theorem mapM_total {f : α → Except ε β} {xs : List α} (h : ∀ x ∈ xs, ∃ y, f x = .ok y) :
    ∃ ys, xs.mapM f = .ok ys := by
  induction xs with
  | nil => exact ⟨[], rfl⟩
  | cons x xs ih =>
    obtain ⟨⟨y, hy⟩, hxs⟩ := List.forall_mem_cons.mp h
    obtain ⟨ys, hys⟩ := ih hxs
    exact ⟨y :: ys, by rw [List.mapM_cons, hy, bind_ok, hys]; rfl⟩

/-- A traversal that raised has raised at an element. -/
theorem mapM_eq_error {f : α → Except ε β} {xs : List α} {e : ε} (h : xs.mapM f = .error e) :
    ∃ x ∈ xs, f x = .error e := by
  induction xs with
  | nil => exact absurd h pure_ne_error
  | cons x xs ih =>
    rw [List.mapM_cons] at h
    rcases bind_eq_error.mp h with hx | ⟨y, -, h⟩
    · exact ⟨x, List.mem_cons_self, hx⟩
    rcases bind_eq_error.mp h with hxs | ⟨ys, -, h⟩
    · obtain ⟨x', hmem, hx'⟩ := ih hxs
      exact ⟨x', List.mem_cons_of_mem x hmem, hx'⟩
    · exact absurd h pure_ne_error

/-- Every element on the right has a partner. -/
theorem exists_left {R : α → β → Prop} {xs : List α} {ys : List β} (h : List.Forall₂ R xs ys)
    {y : β} (hy : y ∈ ys) : ∃ x ∈ xs, R x y := by
  induction h with
  | nil => cases hy
  | cons hR _ ih =>
    rcases List.mem_cons.mp hy with rfl | hy
    · exact ⟨_, List.mem_cons_self, hR⟩
    · obtain ⟨x, hx, hxy⟩ := ih hy
      exact ⟨x, List.mem_cons_of_mem _ hx, hxy⟩

theorem exists_right {R : α → β → Prop} {xs : List α} {ys : List β} (h : List.Forall₂ R xs ys)
    {x : α} (hx : x ∈ xs) : ∃ y ∈ ys, R x y := by
  have hflip : List.Forall₂ (flip R) ys xs := List.Forall₂.flip h
  exact exists_left hflip hx

/-- The partner of what a search finds is found by a search that partners agree
on. -/
theorem find?_of_forall₂ {R : α → β → Prop} {xs : List α} {ys : List β} {p : α → Bool}
    {q : β → Bool} (h : List.Forall₂ R xs ys) (hpq : ∀ x y, R x y → p x = q y) {x : α}
    (hx : xs.find? p = some x) : ∃ y, ys.find? q = some y ∧ R x y := by
  induction h with
  | nil => cases hx
  | @cons a b xs ys hR _ ih =>
    have hab := hpq a b hR
    rw [List.find?_cons] at hx
    rw [List.find?_cons, ← hab]
    cases hp : p a with
    | true =>
      rw [hp] at hx
      obtain rfl := Option.some.inj hx
      exact ⟨b, rfl, hR⟩
    | false =>
      rw [hp] at hx
      exact ih hx

/-- Two pairings one after the other. -/
theorem forall₂_comp {γ : Type} {R : α → β → Prop} {S : β → γ → Prop} {T : α → γ → Prop}
    (hT : ∀ x y z, R x y → S y z → T x z) {xs : List α} {ys : List β} {zs : List γ}
    (h : List.Forall₂ R xs ys) (h' : List.Forall₂ S ys zs) : List.Forall₂ T xs zs := by
  induction h generalizing zs with
  | nil =>
    cases h'
    exact .nil
  | cons hR _ ih =>
    cases h' with
    | cons hS h' => exact .cons (hT _ _ _ hR hS) (ih h')

/-! ## §3. Loops. -/

/-- **The invariant rule**: what every turn preserves holds after the loop. -/
theorem foldlM_invariant {f : σ → α → Except ε σ} {xs : List α} {s s' : σ} (P : σ → Prop)
    (step : ∀ x ∈ xs, ∀ s s', P s → f s x = .ok s' → P s') (hs : P s)
    (h : xs.foldlM f s = .ok s') : P s' := by
  induction xs generalizing s with
  | nil => exact pure_eq_ok.mp h ▸ hs
  | cons x xs ih =>
    rw [List.foldlM_cons] at h
    obtain ⟨s₁, hs₁, h⟩ := bind_eq_ok.mp h
    exact ih (fun y hy => step y (List.mem_cons_of_mem x hy))
      (step x List.mem_cons_self s s₁ hs hs₁) h

/-- Under an invariant, a loop that raised has raised in a state in which it
holds. -/
theorem foldlM_eq_error {f : σ → α → Except ε σ} {xs : List α} {s : σ} {e : ε} (P : σ → Prop)
    (step : ∀ x ∈ xs, ∀ s s', P s → f s x = .ok s' → P s') (hs : P s)
    (h : xs.foldlM f s = .error e) : ∃ x ∈ xs, ∃ s', P s' ∧ f s' x = .error e := by
  induction xs generalizing s with
  | nil => exact absurd h pure_ne_error
  | cons x xs ih =>
    rw [List.foldlM_cons] at h
    rcases bind_eq_error.mp h with hx | ⟨s₁, hs₁, h⟩
    · exact ⟨x, List.mem_cons_self, s, hs, hx⟩
    · obtain ⟨y, hy, s', hs', hraise⟩ := ih (fun y hy => step y (List.mem_cons_of_mem x hy))
        (step x List.mem_cons_self s s₁ hs hs₁) h
      exact ⟨y, List.mem_cons_of_mem x hy, s', hs', hraise⟩

end Hmn.Framework.Fallible
