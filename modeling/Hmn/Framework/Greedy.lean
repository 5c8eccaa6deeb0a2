/-
  Hmn.Framework.Greedy — items given out to requests, first come first
  served.

  Each request in turn takes the first item that suits it and was not taken
  before.  What comes out is a matching: every request has one item at most
  and every item goes to one request at most (`greedy_sound`,
  `greedy_nodup`).  It depends on the items only through their keys and what
  they suit (`greedy_map`).
-/
import Mathlib.Data.List.Nodup

namespace Hmn.Framework

section Greedy

variable {α β κ : Type} [DecidableEq κ] (key : β → κ) (ok : α → β → Bool) (items : List β)

/-- The requests with what they take, when the items with the keys `taken`
are gone. -/
def greedy : List α → List κ → List (α × Option β)
  | [], _ => []
  | a :: as, taken =>
    match items.find? fun b => key b ∉ taken && ok a b with
    | none => (a, none) :: greedy as taken
    | some b => (a, some b) :: greedy as (key b :: taken)

/-- The items that are given out, with their requests. -/
def granted (pairs : List (α × Option β)) : List (α × β) :=
  pairs.filterMap fun (a, b) => b.map (a, ·)

theorem mem_granted {pairs : List (α × Option β)} {a : α} {b : β} :
    (a, b) ∈ granted pairs ↔ (a, some b) ∈ pairs := by
  rw [granted, List.mem_filterMap]
  constructor
  · rintro ⟨⟨a', none | b'⟩, hmem, heq⟩
    · cases heq
    · obtain ⟨rfl, rfl⟩ := Prod.mk.inj (Option.some.inj heq)
      exact hmem
  · exact fun hmem => ⟨_, hmem, rfl⟩

variable {key ok items}

/-- Every request is answered. -/
theorem map_fst_greedy (as : List α) : ∀ taken, (greedy key ok items as taken).map Prod.fst = as := by
  induction as with
  | nil => exact fun _ => rfl
  | cons a as ih =>
    intro taken
    rw [greedy]
    split
    · rw [List.map_cons, ih]
    · rw [List.map_cons, ih]

/-- **What a request takes is an item that suits it and was left.** -/
theorem greedy_sound {as : List α} {a : α} {b : β} :
    ∀ {taken}, (a, some b) ∈ greedy key ok items as taken →
      b ∈ items ∧ ok a b = true ∧ key b ∉ taken := by
  induction as with
  | nil => exact nofun
  | cons a' as ih =>
    intro taken h
    rw [greedy] at h
    split at h
    · rcases List.mem_cons.mp h with heq | h
      · cases heq
      · exact ih h
    · rename_i b' hfind
      rcases List.mem_cons.mp h with heq | h
      · cases heq
        have hsuits := List.find?_some hfind
        rw [Bool.and_eq_true, decide_eq_true_eq] at hsuits
        exact ⟨List.mem_of_find?_eq_some hfind, hsuits.2, hsuits.1⟩
      · obtain ⟨hitem, hok, hleft⟩ := ih h
        exact ⟨hitem, hok, fun htaken => hleft (List.mem_cons_of_mem _ htaken)⟩

/-- **No item is taken twice.** -/
theorem greedy_nodup (as : List α) :
    ∀ taken, ((granted (greedy key ok items as taken)).map fun p => key p.2).Nodup := by
  induction as with
  | nil => exact fun _ => List.nodup_nil
  | cons a as ih =>
    intro taken
    rw [greedy]
    split
    · exact ih taken
    · rename_i b hfind
      refine List.nodup_cons.mpr ⟨fun hmem => ?_, ih _⟩
      obtain ⟨⟨a', b'⟩, hgranted, hkey⟩ := List.mem_map.mp hmem
      obtain ⟨-, -, hleft⟩ := greedy_sound (mem_granted.mp hgranted)
      exact hleft (hkey ▸ List.mem_cons_self)

/-- Only the keys of the items and what they suit matter. -/
theorem greedy_map {f : β → β} (hkey : ∀ b, key (f b) = key b) (hok : ∀ a b, ok a (f b) = ok a b)
    (as : List α) : ∀ taken, greedy key ok (items.map f) as taken =
      (greedy key ok items as taken).map fun (a, b) => (a, b.map f) := by
  induction as with
  | nil => exact fun _ => rfl
  | cons a as ih =>
    intro taken
    have hfind : (items.map f).find? (fun b => key b ∉ taken && ok a b) =
        (items.find? fun b => key b ∉ taken && ok a b).map f := by
      rw [List.find?_map]
      congr 2
      funext b
      simp only [Function.comp, hkey, hok]
    rw [greedy, greedy, hfind]
    cases items.find? fun b => key b ∉ taken && ok a b with
    | none => exact congrArg _ (ih taken)
    | some b =>
      simp only [Option.map_some, hkey]
      exact congrArg _ (ih _)

end Greedy

end Hmn.Framework
