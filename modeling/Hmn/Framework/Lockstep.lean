/-
  Hmn.Framework.Lockstep — two components that answer alike.

  A component takes inputs one after the other and answers each.  Inputs
  carry the time they arrive at, and the relation that ties the two states
  together may speak about the time: what it says of one instant it says of
  every later one.

  Main result: `run_lockstep`.
-/
import Mathlib.Data.List.Basic
import Mathlib.Order.Defs.PartialOrder
import Mathlib.Tactic.Common

namespace Hmn.Framework

/-- How a component answers one input. -/
abbrev Component (σ ι ο : Type) := σ → ι → ο × σ

namespace Component

variable {σ σ' ι ο τ : Type}

/-- The answers to a list of inputs, and the state after them. -/
def run (step : Component σ ι ο) : List ι → σ → List ο × σ
  | [], s => ([], s)
  | input :: inputs, s =>
    ((step s input).1 :: (run step inputs (step s input).2).1, (run step inputs (step s input).2).2)

@[simp] theorem run_nil (step : Component σ ι ο) (s : σ) : run step [] s = ([], s) := rfl

@[simp] theorem run_cons (step : Component σ ι ο) (input : ι) (inputs : List ι) (s : σ) :
    run step (input :: inputs) s =
      ((step s input).1 :: (run step inputs (step s input).2).1,
        (run step inputs (step s input).2).2) := rfl

/-- **Components whose steps answer alike and stay related give the same
answers to every list of inputs**, and are related at every later instant. -/
theorem run_lockstep [Preorder τ] {step : Component σ ι ο} {step' : Component σ' ι ο}
    (time : ι → τ) (R : τ → σ → σ' → Prop)
    (hmono : ∀ {t t' s s'}, t ≤ t' → R t s s' → R t' s s')
    (hstep : ∀ {input s s'}, R (time input) s s' →
      (step s input).1 = (step' s' input).1
        ∧ R (time input) (step s input).2 (step' s' input).2)
    (inputs : List ι) (now : τ) (horder : (inputs.map time ++ [now]).Pairwise (· ≤ ·)) :
    ∀ {s : σ} {s' : σ'}, (∀ t, R t s s') →
      (run step inputs s).1 = (run step' inputs s').1
        ∧ R now (run step inputs s).2 (run step' inputs s').2 := by
  -- Related from the next instant on is all the induction needs.
  suffices hrun : ∀ {s : σ} {s' : σ'}, (∀ t ∈ inputs.map time ++ [now], R t s s') →
      (run step inputs s).1 = (run step' inputs s').1
        ∧ R now (run step inputs s).2 (run step' inputs s').2 by
    intro s s' h
    exact hrun (fun t _ => h t)
  induction inputs with
  | nil =>
    intro s s' h
    exact ⟨rfl, h now (by simp)⟩
  | cons input inputs ih =>
    intro s s' h
    rw [List.map_cons, List.cons_append] at horder h
    obtain ⟨hlater, horder⟩ := List.pairwise_cons.mp horder
    obtain ⟨hanswer, hrelated⟩ := hstep (h (time input) List.mem_cons_self)
    obtain ⟨hanswers, hend⟩ := ih horder (fun t ht => hmono (hlater t ht) hrelated)
    refine ⟨?_, hend⟩
    rw [run_cons, run_cons, hanswer, hanswers]

end Component

end Hmn.Framework
