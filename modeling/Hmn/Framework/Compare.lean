/-
  Hmn.Framework.Compare — two texts read from the left.

  How long two lists agree, what a cut after `n` elements still tells them
  apart by, and where two words followed by the same text differ.

  Main results: `take_eq_take_iff`, `agree_append_right`, `cut_eq_cut_iff`.
-/
import Mathlib.Data.List.Basic
import Mathlib.Data.List.TakeWhile
import Mathlib.Tactic.Common

namespace Hmn.Framework

/-! ## §1. How long two lists agree. -/

section Agree

variable {α : Type} [DecidableEq α]

/-- The length of the common start of two lists. -/
def agree : List α → List α → Nat
  | x :: xs, y :: ys => if x = y then agree xs ys + 1 else 0
  | _, _ => 0

@[simp] theorem agree_nil_left (ys : List α) : agree [] ys = 0 := rfl

@[simp] theorem agree_nil_right (xs : List α) : agree xs [] = 0 := by
  cases xs <;> rfl

theorem agree_cons (x y : α) (xs ys : List α) :
    agree (x :: xs) (y :: ys) = if x = y then agree xs ys + 1 else 0 := rfl

/-- **Two different lists agree in their first `n` elements exactly when they
agree that long.** -/
theorem take_eq_take_iff : ∀ {xs ys : List α} {n : Nat},
    xs.take n = ys.take n ↔ xs = ys ∨ n ≤ agree xs ys := by
  intro xs
  induction xs with
  | nil =>
    intro ys n
    cases ys <;> cases n <;> simp
  | cons x xs ih =>
    intro ys n
    cases n with
    | zero => simp
    | succ n =>
      cases ys with
      | nil => simp
      | cons y ys =>
        rw [List.take_succ_cons, List.take_succ_cons, List.cons.injEq, List.cons.injEq, ih,
          agree_cons]
        by_cases hxy : x = y <;> simp [hxy]

theorem agree_append_left (as xs ys : List α) :
    agree (as ++ xs) (as ++ ys) = as.length + agree xs ys := by
  induction as with
  | nil => simp
  | cons a as ih =>
    rw [List.cons_append, List.cons_append, agree_cons, if_pos rfl, ih, List.length_cons]
    omega

/-- **Two different words followed by one text** agree as long as the words
do, when the text goes on with something no word has. -/
theorem agree_append_right {p : α → Bool} {xs ys : List α} (hne : xs ≠ ys)
    (hxs : ∀ x ∈ xs, p x = false) (hys : ∀ y ∈ ys, p y = false) {rest : List α}
    (hrest : ∀ c ∈ rest.head?, p c = true) :
    agree (xs ++ rest) (ys ++ rest) = agree xs ys := by
  have hdiffer : ∀ (zs : List α) (z : α), p z = false → agree rest (z :: zs ++ rest) = 0
      ∧ agree (z :: zs ++ rest) rest = 0 := by
    intro zs z hz
    cases rest with
    | nil => exact ⟨rfl, agree_nil_right _⟩
    | cons c rest =>
      have hc : c ≠ z := by
        rintro rfl
        rw [hrest c rfl] at hz
        cases hz
      exact ⟨if_neg hc, if_neg (Ne.symm hc)⟩
  induction xs generalizing ys with
  | nil =>
    cases ys with
    | nil => exact absurd rfl hne
    | cons y ys => exact (hdiffer ys y (hys y List.mem_cons_self)).1
  | cons x xs ih =>
    cases ys with
    | nil => exact (hdiffer xs x (hxs x List.mem_cons_self)).2
    | cons y ys =>
      rw [List.cons_append, List.cons_append, agree_cons, agree_cons]
      by_cases hxy : x = y
      · subst hxy
        rw [if_pos rfl, if_pos rfl, ih (fun h => hne (by rw [h]))
          (fun c hc => hxs c (List.mem_cons_of_mem _ hc))
          (fun c hc => hys c (List.mem_cons_of_mem _ hc))]
      · rw [if_neg hxy, if_neg hxy]

end Agree

/-! ## §2. Cut texts. -/

section Cut

variable {α : Type}

/-- A list of at most `n + 1` elements, cut after `n` and marked. -/
def cut (n : Nat) (mark : α) (xs : List α) : List α :=
  if xs.length > n + 1 then xs.take n ++ [mark] else xs

/-- The list is cut, or looks as if it were. -/
def IsCut (n : Nat) (mark : α) (xs : List α) : Prop :=
  n + 1 < xs.length ∨ xs.length = n + 1 ∧ xs.getLast? = some mark

instance [DecidableEq α] (n : Nat) (mark : α) (xs : List α) : Decidable (IsCut n mark xs) := by
  unfold IsCut
  infer_instance

variable {n : Nat} {mark : α} {xs ys : List α}

theorem cut_of_isCut (h : IsCut n mark xs) : cut n mark xs = xs.take n ++ [mark] := by
  rcases h with h | ⟨hlen, hlast⟩
  · exact if_pos h
  · rw [cut, if_neg (by omega)]
    obtain ⟨init, rfl⟩ : ∃ init, xs = init ++ [mark] := by
      refine ⟨xs.dropLast, ?_⟩
      exact (List.dropLast_append_getLast? mark hlast).symm
    rw [List.length_append, List.length_singleton] at hlen
    rw [List.take_left' (by omega)]

theorem cut_of_not_isCut (h : ¬ IsCut n mark xs) : cut n mark xs = xs :=
  if_neg fun hlen => h (Or.inl hlen)

/-- A cut list looks cut. -/
theorem isCut_cut (h : IsCut n mark xs) : IsCut n mark (cut n mark xs) := by
  have hlen : n ≤ xs.length := by
    rcases h with h | ⟨h, -⟩ <;> omega
  rw [cut_of_isCut h]
  exact Or.inr ⟨by simp [hlen], by simp⟩

/-- **What two cut texts tell apart**: they are equal when the texts are, or
when both are cut and agree before it. -/
theorem cut_eq_cut_iff : cut n mark xs = cut n mark ys ↔
    xs = ys ∨ IsCut n mark xs ∧ IsCut n mark ys ∧ xs.take n = ys.take n := by
  by_cases hx : IsCut n mark xs
  · by_cases hy : IsCut n mark ys
    · rw [cut_of_isCut hx, cut_of_isCut hy, List.append_left_inj]
      constructor
      · exact fun h => Or.inr ⟨hx, hy, h⟩
      · rintro (rfl | ⟨-, -, h⟩)
        · rfl
        · exact h
    · constructor
      · intro h
        rw [cut_of_not_isCut hy] at h
        exact absurd (h ▸ isCut_cut hx) hy
      · rintro (rfl | ⟨-, hy', -⟩)
        · rfl
        · exact absurd hy' hy
  · constructor
    · intro h
      rw [cut_of_not_isCut hx] at h
      by_cases hy : IsCut n mark ys
      · exact absurd (h ▸ isCut_cut hy) hx
      · rw [cut_of_not_isCut hy] at h
        exact Or.inl h
    · rintro (rfl | ⟨hx', -, -⟩)
      · rfl
      · exact absurd hx' hx

end Cut

end Hmn.Framework
