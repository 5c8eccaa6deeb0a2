/-
  Hmn.Framework.Matching — what a pattern matches, without the order in
  which the engine tries.

  `Matches` says which places a pattern leads to; the engine finds a way to
  go on exactly when there is one, and what it finds is one of them.

  Main results: `run_sound`, `run_isSome_iff`, `mem_findAll`, `sub_plus`,
  `sub_eq_self`.
-/
import Hmn.Framework.Regex
import Mathlib.Tactic.Common

namespace Hmn.Framework.Regex

/-! ## §1. The places a pattern leads to. -/

/-- The character before the place behind `w`. -/
def lastOf (prev : Option Char) (w : List Char) : Option Char := w.getLast?.or prev

@[simp] theorem lastOf_nil (prev : Option Char) : lastOf prev [] = prev := rfl

theorem lastOf_cons (prev : Option Char) (c : Char) (w : List Char) :
    lastOf prev (c :: w) = lastOf (some c) w := by
  rw [lastOf, lastOf, List.getLast?_cons]
  cases w.getLast? <;> rfl

/-- The place behind `w`. -/
def Cursor.behind (cur : Cursor) (w rest : List Char) : Cursor :=
  ⟨lastOf cur.prev w, rest, cur.groups⟩

/-- A pattern leads from one place to another. -/
def Matches : Regex → Cursor → Cursor → Prop
  | .eps, cur, out => out = cur
  | .one p, cur, out => ∃ c cs, cur.rest = c :: cs ∧ p c = true ∧ out = ⟨some c, cs, cur.groups⟩
  | .star p, cur, out | .starLazy p, cur, out =>
      ∃ w rest, cur.rest = w ++ rest ∧ (∀ c ∈ w, p c = true) ∧ out = cur.behind w rest
  | .seq r s, cur, out => ∃ mid, r.Matches cur mid ∧ s.Matches mid out
  | .alt r s, cur, out => r.Matches cur out ∨ s.Matches cur out
  | .group i r, cur, out => ∃ stop, r.Matches cur stop ∧ out = { stop with
      groups := (i, cur.rest.take (cur.rest.length - stop.rest.length)) :: stop.groups }
  | .boundary word, cur, out => (cur.prev.any word) ≠ (cur.rest.head?.any word) ∧ out = cur
  | .dollar, cur, out => (cur.rest = [] ∨ cur.rest = ['\n']) ∧ out = cur

/-! ## §2. The engine. -/

section Star

variable {p : Char → Bool} {k : Cursor → Option Cursor} {groups : List (Nat × List Char)}
  {out : Cursor}

/-- The places `p*` leads to, taken apart at the first character. -/
theorem star_places (prev : Option Char) (c : Char) (cs : List Char) (Q : Cursor → Prop) :
    (∃ w rest, c :: cs = w ++ rest ∧ (∀ c ∈ w, p c = true) ∧ Q ⟨lastOf prev w, rest, groups⟩) ↔
      Q ⟨prev, c :: cs, groups⟩ ∨ (p c = true ∧ ∃ w rest, cs = w ++ rest
        ∧ (∀ c ∈ w, p c = true) ∧ Q ⟨lastOf (some c) w, rest, groups⟩) := by
  constructor
  · rintro ⟨w, rest, heq, hw, hQ⟩
    cases w with
    | nil =>
      obtain rfl : c :: cs = rest := heq
      exact Or.inl hQ
    | cons d w =>
      obtain ⟨rfl, rfl⟩ := List.cons.inj heq
      rw [lastOf_cons] at hQ
      exact Or.inr ⟨hw _ List.mem_cons_self, w, rest, rfl,
        fun x hx => hw x (List.mem_cons_of_mem _ hx), hQ⟩
  · rintro (hQ | ⟨hc, w, rest, rfl, hw, hQ⟩)
    · exact ⟨[], c :: cs, rfl, nofun, hQ⟩
    · exact ⟨c :: w, rest, rfl, List.forall_mem_cons.mpr ⟨hc, hw⟩, by rwa [lastOf_cons]⟩

theorem runStar_sound (cs : List Char) : ∀ prev, runStar p k groups prev cs = some out →
    ∃ w rest, cs = w ++ rest ∧ (∀ c ∈ w, p c = true)
      ∧ k ⟨lastOf prev w, rest, groups⟩ = some out := by
  induction cs with
  | nil => exact fun prev h => ⟨[], [], rfl, nofun, h⟩
  | cons c cs ih =>
    intro prev h
    rw [star_places prev c cs (fun cur => k cur = some out)]
    rw [runStar] at h
    by_cases hc : p c = true
    · rw [if_pos hc] at h
      cases hrest : runStar p k groups (some c) cs with
      | none => rw [hrest] at h; exact Or.inl h
      | some found =>
        rw [hrest] at h
        obtain rfl : found = out := by simpa using h
        exact Or.inr ⟨hc, ih _ hrest⟩
    · rw [if_neg hc] at h
      exact Or.inl h

theorem runStarLazy_sound (cs : List Char) : ∀ prev, runStarLazy p k groups prev cs = some out →
    ∃ w rest, cs = w ++ rest ∧ (∀ c ∈ w, p c = true)
      ∧ k ⟨lastOf prev w, rest, groups⟩ = some out := by
  induction cs with
  | nil => exact fun prev h => ⟨[], [], rfl, nofun, h⟩
  | cons c cs ih =>
    intro prev h
    rw [star_places prev c cs (fun cur => k cur = some out)]
    rw [runStarLazy] at h
    cases hhere : k ⟨prev, c :: cs, groups⟩ with
    | some found =>
      rw [hhere] at h
      exact Or.inl (by simpa using h)
    | none =>
      rw [hhere] at h
      by_cases hc : p c = true
      · simp only [hc, if_true] at h
        exact Or.inr ⟨hc, ih _ h⟩
      · simp [hc] at h

theorem runStar_isSome (cs : List Char) : ∀ prev, (runStar p k groups prev cs).isSome ↔
    ∃ w rest, cs = w ++ rest ∧ (∀ c ∈ w, p c = true)
      ∧ (k ⟨lastOf prev w, rest, groups⟩).isSome := by
  induction cs with
  | nil => intro prev; simp [runStar]
  | cons c cs ih =>
    intro prev
    rw [star_places prev c cs (fun cur => (k cur).isSome), runStar]
    by_cases hc : p c = true
    · rw [if_pos hc, Option.orElse_eq_orElse, Option.orElse_eq_or, Option.isSome_or,
        Bool.or_eq_true, ih, or_comm]
      simp [hc]
    · rw [if_neg hc]
      simp [hc]

theorem runStarLazy_isSome (cs : List Char) : ∀ prev, (runStarLazy p k groups prev cs).isSome ↔
    ∃ w rest, cs = w ++ rest ∧ (∀ c ∈ w, p c = true)
      ∧ (k ⟨lastOf prev w, rest, groups⟩).isSome := by
  induction cs with
  | nil => intro prev; simp [runStarLazy]
  | cons c cs ih =>
    intro prev
    rw [star_places prev c cs (fun cur => (k cur).isSome), runStarLazy,
      Option.orElse_eq_orElse, Option.orElse_eq_or, Option.isSome_or, Bool.or_eq_true]
    by_cases hc : p c = true
    · simp [hc, ih]
    · simp [hc]

end Star

/-- **What the engine finds is a match.** -/
theorem run_sound (r : Regex) : ∀ {cur : Cursor} {k : Cursor → Option Cursor} {out : Cursor},
    r.run cur k = some out → ∃ mid, r.Matches cur mid ∧ k mid = some out := by
  induction r with
  | eps => exact fun h => ⟨_, rfl, h⟩
  | one p =>
    intro cur k out h
    rw [run] at h
    cases hrest : cur.rest with
    | nil => simp [hrest] at h
    | cons c cs =>
      simp only [hrest] at h
      by_cases hc : p c = true
      · rw [if_pos hc] at h
        exact ⟨_, ⟨c, cs, hrest, hc, rfl⟩, h⟩
      · simp [hc] at h
  | star p =>
    intro cur k out h
    obtain ⟨w, rest, heq, hw, hk⟩ := runStar_sound cur.rest cur.prev h
    exact ⟨_, ⟨w, rest, heq, hw, rfl⟩, hk⟩
  | starLazy p =>
    intro cur k out h
    obtain ⟨w, rest, heq, hw, hk⟩ := runStarLazy_sound cur.rest cur.prev h
    exact ⟨_, ⟨w, rest, heq, hw, rfl⟩, hk⟩
  | seq r s ihr ihs =>
    intro cur k out h
    obtain ⟨mid, hr, h⟩ := ihr h
    obtain ⟨mid', hs, h⟩ := ihs h
    exact ⟨mid', ⟨mid, hr, hs⟩, h⟩
  | alt r s ihr ihs =>
    intro cur k out h
    rw [run] at h
    cases hr : r.run cur k with
    | some found =>
      rw [hr] at h
      obtain rfl : found = out := by simpa using h
      obtain ⟨mid, hmid, hk⟩ := ihr hr
      exact ⟨mid, Or.inl hmid, hk⟩
    | none =>
      rw [hr] at h
      obtain ⟨mid, hmid, hk⟩ := ihs h
      exact ⟨mid, Or.inr hmid, hk⟩
  | group i r ih =>
    intro cur k out h
    obtain ⟨stop, hr, h⟩ := ih h
    exact ⟨_, ⟨stop, hr, rfl⟩, h⟩
  | boundary word =>
    intro cur k out h
    rw [run] at h
    split_ifs at h with hb
    exact ⟨cur, ⟨hb, rfl⟩, h⟩
  | dollar =>
    intro cur k out h
    rw [run] at h
    split_ifs at h with hb
    exact ⟨cur, ⟨hb, rfl⟩, h⟩

/-- **The engine goes on exactly when some match lets it.** -/
theorem run_isSome_iff (r : Regex) : ∀ {cur : Cursor} {k : Cursor → Option Cursor},
    (r.run cur k).isSome ↔ ∃ mid, r.Matches cur mid ∧ (k mid).isSome := by
  intro cur k
  constructor
  · intro h
    obtain ⟨out, hout⟩ := Option.isSome_iff_exists.mp h
    obtain ⟨mid, hmid, hk⟩ := run_sound r hout
    exact ⟨mid, hmid, by simp [hk]⟩
  · rintro ⟨mid, hmid, hk⟩
    induction r generalizing cur k mid with
    | eps =>
      obtain rfl := hmid
      exact hk
    | one p =>
      obtain ⟨c, cs, hrest, hc, rfl⟩ := hmid
      rw [run]
      simpa [hrest, hc] using hk
    | star p =>
      obtain ⟨w, rest, heq, hw, rfl⟩ := hmid
      exact (runStar_isSome cur.rest cur.prev).mpr ⟨w, rest, heq, hw, hk⟩
    | starLazy p =>
      obtain ⟨w, rest, heq, hw, rfl⟩ := hmid
      exact (runStarLazy_isSome cur.rest cur.prev).mpr ⟨w, rest, heq, hw, hk⟩
    | seq r s ihr ihs =>
      obtain ⟨mid', hr, hs⟩ := hmid
      exact ihr mid' hr (ihs mid hs hk)
    | alt r s ihr ihs =>
      rw [run, Option.orElse_eq_orElse, Option.orElse_eq_or, Option.isSome_or, Bool.or_eq_true]
      rcases hmid with hmid | hmid
      · exact Or.inl (ihr mid hmid hk)
      · exact Or.inr (ihs mid hmid hk)
    | group i r ih =>
      obtain ⟨stop, hr, rfl⟩ := hmid
      exact ih stop hr hk
    | boundary word =>
      obtain ⟨hb, rfl⟩ := hmid
      rw [run, if_pos hb]
      exact hk
    | dollar =>
      obtain ⟨hb, rfl⟩ := hmid
      rw [run, if_pos hb]
      exact hk

/-! ## §3. Repetitions and groups. -/

/-- `p+` leads behind words of `p`. -/
theorem matches_plus {p : Char → Bool} {cur out : Cursor} :
    (plus p).Matches cur out ↔ ∃ w rest, w ≠ [] ∧ cur.rest = w ++ rest ∧ (∀ c ∈ w, p c = true)
      ∧ out = cur.behind w rest := by
  constructor
  · rintro ⟨mid, ⟨c, cs, hrest, hc, rfl⟩, w, rest, heq, hw, rfl⟩
    refine ⟨c :: w, rest, List.cons_ne_nil c w, ?_, List.forall_mem_cons.mpr ⟨hc, hw⟩, ?_⟩
    · rw [hrest, List.cons_append]
      exact congrArg _ heq
    · simp [Cursor.behind, lastOf_cons]
  · rintro ⟨w, rest, hne, heq, hw, rfl⟩
    obtain ⟨c, w, rfl⟩ := List.exists_cons_of_ne_nil hne
    obtain ⟨hc, hw⟩ := List.forall_mem_cons.mp hw
    refine ⟨⟨some c, w ++ rest, cur.groups⟩, ⟨c, w ++ rest, heq, hc, rfl⟩, w, rest, rfl, hw, ?_⟩
    simp [Cursor.behind, lastOf_cons]

/-- A text leads behind itself. -/
theorem matches_chars {cs : List Char} : ∀ {cur out : Cursor}, (chars cs).Matches cur out ↔
    ∃ rest, cur.rest = cs ++ rest ∧ out = cur.behind cs rest := by
  induction cs with
  | nil =>
    intro cur out
    constructor
    · rintro rfl
      exact ⟨out.rest, rfl, rfl⟩
    · rintro ⟨rest, hrest, rfl⟩
      obtain ⟨prev, cs, groups⟩ := cur
      obtain rfl : cs = rest := hrest
      rfl
  | cons c cs ih =>
    intro cur out
    constructor
    · rintro ⟨mid, ⟨d, ds, hrest, hd, rfl⟩, hmatch⟩
      obtain rfl : d = c := of_decide_eq_true hd
      obtain ⟨rest, heq, rfl⟩ := ih.mp hmatch
      refine ⟨rest, ?_, ?_⟩
      · rw [hrest, List.cons_append]
        exact congrArg _ heq
      · simp [Cursor.behind, lastOf_cons]
    · rintro ⟨rest, heq, rfl⟩
      refine ⟨⟨some c, cs ++ rest, cur.groups⟩, ⟨c, cs ++ rest, heq, decide_eq_true rfl, rfl⟩,
        ih.mpr ⟨rest, rfl, ?_⟩⟩
      simp [Cursor.behind, lastOf_cons]

theorem matches_lit {s : String} {cur out : Cursor} : (lit s).Matches cur out ↔
    ∃ rest, cur.rest = s.toList ++ rest ∧ out = cur.behind s.toList rest := matches_chars

/-- One of two texts. -/
theorem matches_lit_or {s t : String} {cur out : Cursor} : (any (lit s) [lit t]).Matches cur out ↔
    ∃ word ∈ [s, t], ∃ rest, cur.rest = word.toList ++ rest
      ∧ out = cur.behind word.toList rest := by
  rw [any, any]
  constructor
  · rintro (h | h)
    · exact ⟨s, List.mem_cons_self, matches_lit.mp h⟩
    · exact ⟨t, List.mem_cons_of_mem s List.mem_cons_self, matches_lit.mp h⟩
  · rintro ⟨word, hword, h⟩
    rcases List.mem_cons.mp hword with rfl | hword
    · exact Or.inl (matches_lit.mpr h)
    · obtain rfl := List.mem_singleton.mp hword
      exact Or.inr (matches_lit.mpr h)

/-- The characters a pattern can lead over have the property `q`. -/
def Over (q : Char → Prop) : Regex → Prop
  | .one p | .star p | .starLazy p => ∀ c, p c = true → q c
  | .seq r s | .alt r s => r.Over q ∧ s.Over q
  | .group _ r => r.Over q
  | .eps | .boundary _ | .dollar => True

@[simp] theorem over_chars {q : Char → Prop} {cs : List Char} :
    (chars cs).Over q ↔ ∀ c ∈ cs, q c := by
  induction cs with
  | nil => simp [chars, Over]
  | cons c cs ih => simp [chars, Over, ih]

@[simp] theorem over_lit {q : Char → Prop} {s : String} :
    (lit s).Over q ↔ ∀ c ∈ s.toList, q c := over_chars

@[simp] theorem over_plus {q : Char → Prop} {p : Char → Bool} :
    (plus p).Over q ↔ ∀ c, p c = true → q c := and_self_iff

theorem Matches.over {q : Char → Prop} {r : Regex} : ∀ {cur out : Cursor}, r.Matches cur out →
    r.Over q → ∃ w, cur.rest = w ++ out.rest ∧ ∀ c ∈ w, q c := by
  induction r with
  | eps =>
    rintro cur out rfl -
    exact ⟨[], rfl, nofun⟩
  | one p =>
    rintro cur out ⟨c, cs, hrest, hc, rfl⟩ hover
    exact ⟨[c], hrest, fun d hd => List.mem_singleton.mp hd ▸ hover c hc⟩
  | star p | starLazy p =>
    rintro cur out ⟨w, rest, hrest, hw, rfl⟩ hover
    exact ⟨w, hrest, fun c hc => hover c (hw c hc)⟩
  | seq r s ihr ihs =>
    rintro cur out ⟨mid, hr, hs⟩ ⟨hover, hover'⟩
    obtain ⟨w, hw, hq⟩ := ihr hr hover
    obtain ⟨w', hw', hq'⟩ := ihs hs hover'
    refine ⟨w ++ w', by rw [hw, hw', List.append_assoc], fun c hc => ?_⟩
    rcases List.mem_append.mp hc with hc | hc
    · exact hq c hc
    · exact hq' c hc
  | alt r s ihr ihs =>
    rintro cur out (h | h) ⟨hover, hover'⟩
    · exact ihr h hover
    · exact ihs h hover'
  | group i r ih =>
    rintro cur out ⟨stop, hr, rfl⟩ hover
    obtain ⟨w, hw, hq⟩ := ih hr hover
    exact ⟨w, hw, hq⟩
  | boundary word | dollar =>
    rintro cur out ⟨-, rfl⟩ -
    exact ⟨[], rfl, nofun⟩

/-- The groups of a pattern. -/
def groupsIn : Regex → List Nat
  | .seq r s | .alt r s => r.groupsIn ++ s.groupsIn
  | .group i r => i :: r.groupsIn
  | .eps | .one _ | .star _ | .starLazy _ | .boundary _ | .dollar => []

@[simp] theorem groupsIn_chars (cs : List Char) : (chars cs).groupsIn = [] := by
  induction cs with
  | nil => rfl
  | cons c cs ih => exact ih

@[simp] theorem groupsIn_lit (s : String) : (lit s).groupsIn = [] := groupsIn_chars s.toList

@[simp] theorem groupsIn_plus (p : Char → Bool) : (plus p).groupsIn = [] := rfl

/-- A match leaves the groups alone that its pattern does not have. -/
theorem Matches.lookup_groups {i : Nat} {r : Regex} : ∀ {cur out : Cursor}, r.Matches cur out →
    i ∉ r.groupsIn → out.groups.lookup i = cur.groups.lookup i := by
  induction r with
  | eps => exact fun h _ => congrArg (·.groups.lookup i) h
  | one p =>
    rintro cur out ⟨c, cs, -, -, rfl⟩ -
    rfl
  | star p | starLazy p =>
    rintro cur out ⟨w, rest, -, -, rfl⟩ -
    rfl
  | seq r s ihr ihs =>
    rintro cur out ⟨mid, hr, hs⟩ hi
    obtain ⟨hir, his⟩ := not_or.mp (List.mem_append.not.mp hi)
    exact (ihs hs his).trans (ihr hr hir)
  | alt r s ihr ihs =>
    rintro cur out (h | h) hi
    · exact ihr h (fun hmem => hi (List.mem_append_left _ hmem))
    · exact ihs h (fun hmem => hi (List.mem_append_right _ hmem))
  | group j r ih =>
    rintro cur out ⟨stop, hr, rfl⟩ hi
    obtain ⟨hij, hir⟩ := not_or.mp (List.mem_cons.not.mp hi)
    have hne : (i == j) = false := by simpa using hij
    exact (List.lookup_cons.trans (by rw [hne])).trans (ih hr hir)
  | boundary word => exact fun h _ => congrArg (·.groups.lookup i) h.2
  | dollar => exact fun h _ => congrArg (·.groups.lookup i) h.2

/-- The group around `p+` is the word it leads behind. -/
theorem matches_group_plus {i : Nat} {p : Char → Bool} {cur out : Cursor} :
    (group i (plus p)).Matches cur out ↔ ∃ w rest, w ≠ [] ∧ cur.rest = w ++ rest
      ∧ (∀ c ∈ w, p c = true) ∧ out = ⟨lastOf cur.prev w, rest, (i, w) :: cur.groups⟩ := by
  constructor
  · rintro ⟨stop, hstop, rfl⟩
    obtain ⟨w, rest, hne, heq, hw, rfl⟩ := matches_plus.mp hstop
    refine ⟨w, rest, hne, heq, hw, ?_⟩
    simp [Cursor.behind, heq]
  · rintro ⟨w, rest, hne, heq, hw, rfl⟩
    refine ⟨_, matches_plus.mpr ⟨w, rest, hne, heq, hw, rfl⟩, ?_⟩
    simp [Cursor.behind, heq]

/-! ## §4. The matches in a text. -/

/-- The pattern matches at a place. -/
def Here (r : Regex) (prev : Option Char) (cs : List Char) : Prop :=
  ∃ out, r.Matches ⟨prev, cs, []⟩ out

theorem matchAt_eq_none {r : Regex} {prev : Option Char} {cs : List Char} :
    r.matchAt prev cs = none ↔ ¬ r.Here prev cs := by
  rw [matchAt, Option.map_eq_none_iff, ← Option.not_isSome_iff_eq_none, run_isSome_iff]
  simp [Here]

/-- What is matched at a place is a match there. -/
theorem matchAt_sound {r : Regex} {prev : Option Char} {cs : List Char} {f : Found}
    (h : r.matchAt prev cs = some f) : r.Matches ⟨prev, cs, []⟩ f.stop := by
  obtain ⟨stop, hstop, rfl⟩ := Option.map_eq_some_iff.mp h
  obtain ⟨mid, hmid, hk⟩ := run_sound r hstop
  obtain rfl := Option.some.inj hk
  exact hmid

/-- A match at the first place is the first match. -/
theorem find_of_matchAt {r : Regex} {prev : Option Char} {cs : List Char} {f : Found}
    (h : r.matchAt prev cs = some f) : r.find prev cs = some f := by
  cases cs <;> rw [find, h]
  rfl

/-- Places where nothing matches are skipped. -/
theorem find_skip {r : Regex} {rest : List Char} (w : List Char) : ∀ {prev : Option Char},
    (∀ x y, w = x ++ y → y ≠ [] → ¬ r.Here (lastOf prev x) (y ++ rest)) →
    r.find prev (w ++ rest)
      = (r.find (lastOf prev w) rest).map fun f => { f with skipped := w ++ f.skipped } := by
  induction w with
  | nil =>
    intro prev _
    cases h : r.find prev rest <;> simp [h]
  | cons c w ih =>
    intro prev h
    have hnone : r.matchAt prev (c :: w ++ rest) = none :=
      matchAt_eq_none.mpr (h [] (c :: w) rfl (List.cons_ne_nil c w))
    have hrest := @ih (some c) fun x y hxy hy => by
      have hskip := h (c :: x) y (by rw [hxy]; rfl) hy
      rwa [lastOf_cons] at hskip
    rw [List.cons_append] at hnone
    rw [List.cons_append, find, hnone, hrest, lastOf_cons]
    cases r.find (lastOf (some c) w) rest <;> rfl

/-- A text with a match at some place has a first one, at that place or before. -/
theorem find_upto {r : Regex} {rest : List Char} (w : List Char) : ∀ {prev : Option Char},
    r.Here (lastOf prev w) rest → ∃ x y f, w = x ++ y ∧ r.find prev (w ++ rest) = some f
      ∧ r.Matches ⟨lastOf prev x, y ++ rest, []⟩ f.stop := by
  have first : ∀ {prev cs}, r.Here prev cs → ∃ f, r.find prev cs = some f
      ∧ r.Matches ⟨prev, cs, []⟩ f.stop := by
    intro prev cs h
    cases hat : r.matchAt prev cs with
    | none => exact absurd h (matchAt_eq_none.mp hat)
    | some f => exact ⟨f, find_of_matchAt hat, matchAt_sound hat⟩
  induction w with
  | nil =>
    intro prev h
    obtain ⟨f, hf, hmatch⟩ := first h
    exact ⟨[], [], f, rfl, hf, hmatch⟩
  | cons c w ih =>
    intro prev h
    by_cases hhere : r.Here prev (c :: w ++ rest)
    · obtain ⟨f, hf, hmatch⟩ := first hhere
      exact ⟨[], c :: w, f, rfl, hf, hmatch⟩
    · rw [lastOf_cons] at h
      obtain ⟨x, y, f, hxy, hf, hmatch⟩ := ih h
      refine ⟨c :: x, y, { f with skipped := c :: f.skipped }, by rw [hxy]; rfl, ?_, ?_⟩
      · rw [List.cons_append, find, ← List.cons_append, matchAt_eq_none.mpr hhere, hf]
        rfl
      · rwa [lastOf_cons]

/-- What a group matched, match by match. -/
def groupsFrom (r : Regex) (i n : Nat) (prev : Option Char) (cs : List Char) : List (List Char) :=
  (r.findFrom n prev cs).map (·.group i)

theorem groupsFrom_skip {r : Regex} {rest : List Char} (w : List Char) {prev : Option Char}
    (h : ∀ x y, w = x ++ y → y ≠ [] → ¬ r.Here (lastOf prev x) (y ++ rest)) (i n : Nat) :
    r.groupsFrom i n prev (w ++ rest) = r.groupsFrom i n (lastOf prev w) rest := by
  cases n with
  | zero => rfl
  | succ n =>
    rw [groupsFrom, groupsFrom, findFrom, findFrom, find_skip w h]
    cases r.find (lastOf prev w) rest <;> rfl

/-- What `find` finds is a match at some place of the text. -/
theorem find_sound (r : Regex) (cs : List Char) : ∀ {prev : Option Char} {f : Found},
    r.find prev cs = some f →
      ∃ w rest, cs = w ++ rest ∧ r.Matches ⟨lastOf prev w, rest, []⟩ f.stop := by
  induction cs with
  | nil => exact fun h => ⟨[], [], rfl, matchAt_sound h⟩
  | cons c cs ih =>
    intro prev f h
    rw [find] at h
    cases hat : r.matchAt prev (c :: cs) with
    | some found =>
      rw [hat] at h
      obtain rfl : found = f := by simpa using h
      exact ⟨[], c :: cs, rfl, matchAt_sound hat⟩
    | none =>
      rw [hat] at h
      obtain ⟨found, hfound, rfl⟩ := Option.map_eq_some_iff.mp h
      obtain ⟨w, rest, heq, hmatch⟩ := ih hfound
      exact ⟨c :: w, rest, by rw [heq]; rfl, by rwa [lastOf_cons]⟩

/-- **What `findAll` finds are matches.** -/
theorem mem_findAll {r : Regex} {s : String} {f : Found} (h : f ∈ r.findAll s) :
    ∃ prev cs, r.Matches ⟨prev, cs, []⟩ f.stop := by
  have from_ : ∀ n prev cs, f ∈ r.findFrom n prev cs →
      ∃ prev cs, r.Matches ⟨prev, cs, []⟩ f.stop := by
    intro n
    induction n with
    | zero => exact fun _ _ h => absurd h List.not_mem_nil
    | succ n ih =>
      intro prev cs h
      rw [findFrom] at h
      cases hfind : r.find prev cs with
      | none => simp [hfind] at h
      | some g =>
        rw [hfind] at h
        rcases List.mem_cons.mp h with rfl | h
        · obtain ⟨w, rest, -, hmatch⟩ := find_sound r cs hfind
          exact ⟨_, _, hmatch⟩
        · exact ih _ _ h
  exact from_ _ _ _ h

/-! ## §5. Runs replaced. -/

/-- A text with every run of `p` replaced; `inRun` when the run before it was. -/
def replaceRuns (p : Char → Bool) (new : List Char) : Bool → List Char → List Char
  | _, [] => []
  | inRun, c :: cs =>
    if p c then (if inRun then [] else new) ++ replaceRuns p new true cs
    else c :: replaceRuns p new false cs

theorem runStar_some {p : Char → Bool} {groups : List (Nat × List Char)} (cs : List Char) :
    ∀ prev, ∃ prev', runStar p some groups prev cs = some ⟨prev', cs.dropWhile p, groups⟩ := by
  induction cs with
  | nil => exact fun prev => ⟨prev, rfl⟩
  | cons c cs ih =>
    intro prev
    by_cases hc : p c = true
    · obtain ⟨prev', hrun⟩ := ih (some c)
      exact ⟨prev', by rw [runStar, if_pos hc, hrun, List.dropWhile_cons_of_pos hc]; rfl⟩
    · exact ⟨prev, by rw [runStar, if_neg hc, List.dropWhile_cons_of_neg hc]⟩

/-- The first match of `p+` is the first run of `p`. -/
theorem find_plus {p : Char → Bool} (cs : List Char) : ∀ prev,
    ((plus p).find prev cs = none ∧ ∀ c ∈ cs, p c = false)
    ∨ ∃ f w c run, (plus p).find prev cs = some f ∧ f.skipped = w ∧ cs = w ++ c :: run
      ∧ (∀ d ∈ w, p d = false) ∧ p c = true ∧ f.stop.rest = run.dropWhile p := by
  induction cs with
  | nil => exact fun prev => Or.inl ⟨rfl, nofun⟩
  | cons c cs ih =>
    intro prev
    by_cases hc : p c = true
    · obtain ⟨prev', hrun⟩ := @runStar_some p [] cs (some c)
      have hat : (plus p).matchAt prev (c :: cs) = some ⟨[], (c :: cs).take
          ((c :: cs).length - (cs.dropWhile p).length), ⟨prev', cs.dropWhile p, []⟩⟩ := by
        simp only [matchAt, plus, run, hc, if_true, hrun, Option.map_some]
      exact Or.inr ⟨_, [], c, cs, by rw [find, hat]; rfl, rfl, rfl, nofun, hc, rfl⟩
    · have hat : (plus p).matchAt prev (c :: cs) = none := by
        simp [matchAt, plus, run, hc]
      rcases ih (some c) with ⟨hnone, hall⟩ | ⟨f, w, d, run, hsome, hskip, heq, hw, hd, hrest⟩
      · refine Or.inl ⟨by rw [find, hat, hnone]; rfl, ?_⟩
        exact List.forall_mem_cons.mpr ⟨by simpa using hc, hall⟩
      · refine Or.inr ⟨{ f with skipped := c :: f.skipped }, c :: w, d, run, ?_, ?_, ?_, ?_, hd, hrest⟩
        · rw [find, hat, hsome]
          rfl
        · rw [← hskip]
        · rw [heq, List.cons_append]
        · exact List.forall_mem_cons.mpr ⟨by simpa using hc, hw⟩

theorem replaceRuns_skip {p : Char → Bool} {new w : List Char} (hw : ∀ c ∈ w, p c = false)
    (rest : List Char) :
    replaceRuns p new false (w ++ rest) = w ++ replaceRuns p new false rest := by
  induction w with
  | nil => rfl
  | cons c w ih =>
    obtain ⟨hc, hw⟩ := List.forall_mem_cons.mp hw
    rw [List.cons_append, replaceRuns, if_neg (by simp [hc]), ih hw, List.cons_append]

theorem replaceRuns_run {p : Char → Bool} {new : List Char} (cs : List Char) :
    replaceRuns p new true cs = replaceRuns p new false (cs.dropWhile p) := by
  induction cs with
  | nil => rfl
  | cons c cs ih =>
    by_cases hc : p c = true
    · rw [replaceRuns, if_pos hc, if_pos rfl, List.nil_append, ih, List.dropWhile_cons_of_pos hc]
    · rw [List.dropWhile_cons_of_neg hc, replaceRuns, replaceRuns, if_neg hc, if_neg hc]

/-- **Every run is replaced.** -/
theorem sub_plus (p : Char → Bool) (new : List Char) (s : String) :
    (plus p).sub (fun _ => new) s = String.ofList (replaceRuns p new false s.toList) := by
  have hfrom : ∀ n cs prev, cs.length < n →
      (plus p).replaceFrom (fun _ => new) n prev cs = replaceRuns p new false cs := by
    intro n
    induction n with
    | zero => exact fun _ _ h => absurd h (Nat.not_lt_zero _)
    | succ n ih =>
      intro cs prev hlen
      rcases find_plus (p := p) cs prev with ⟨hnone, hall⟩
        | ⟨f, w, c, run, hsome, rfl, heq, hw, hc, hrest⟩
      · rw [replaceFrom, hnone]
        have hkept := @replaceRuns_skip _ new _ hall []
        rw [List.append_nil, replaceRuns, List.append_nil] at hkept
        exact hkept.symm
      · have hshort : f.stop.rest.length < n := by
          have hle := (List.dropWhile_suffix (l := run) p).length_le
          rw [heq, List.length_append, List.length_cons] at hlen
          rw [hrest]
          omega
        rw [replaceFrom, hsome]
        simp only
        rw [ih _ _ hshort, hrest, heq, replaceRuns_skip hw, replaceRuns, if_pos hc,
          replaceRuns_run, List.append_assoc]
        rfl
  rw [sub, hfrom _ _ _ (Nat.lt_succ_self _)]

/-! ## §6. Characters a pattern cannot do without. -/

/-- Every way through the pattern leads over a character with the property `q`. -/
def Needs (q : Char → Prop) : Regex → Prop
  | .one p => ∀ c, p c = true → q c
  | .seq r s => r.Needs q ∨ s.Needs q
  | .alt r s => r.Needs q ∧ s.Needs q
  | .group _ r => r.Needs q
  | .star _ | .starLazy _ | .eps | .boundary _ | .dollar => False

theorem needs_all {q : Char → Prop} {r : Regex} {rs : List Regex} (hr : r ∈ rs)
    (h : r.Needs q) : (all rs).Needs q := by
  induction rs with
  | nil => exact absurd hr List.not_mem_nil
  | cons s rs ih =>
    rcases List.mem_cons.mp hr with rfl | hr
    · exact Or.inl h
    · exact Or.inr (ih hr)

theorem needs_lit {q : Char → Prop} {s : String} {c : Char} (hc : c ∈ s.toList) (h : q c) :
    (lit s).Needs q := by
  rw [lit]
  generalize s.toList = cs at hc
  induction cs with
  | nil => exact absurd hc List.not_mem_nil
  | cons d cs ih =>
    rcases List.mem_cons.mp hc with rfl | hc
    · exact Or.inl fun x hx => of_decide_eq_true hx ▸ h
    · exact Or.inr (ih hc)

theorem Matches.needs {q : Char → Prop} {r : Regex} : ∀ {cur out : Cursor}, r.Matches cur out →
    r.Needs q → ∃ c ∈ cur.rest, q c := by
  have over_true : ∀ r : Regex, r.Over fun _ => True := by
    intro r
    induction r <;> simp_all [Over]
  induction r with
  | one p =>
    rintro cur out ⟨c, cs, hrest, hc, rfl⟩ hneeds
    exact ⟨c, by rw [hrest]; exact List.mem_cons_self, hneeds c hc⟩
  | seq r s ihr ihs =>
    rintro cur out ⟨mid, hr, hs⟩ (hneeds | hneeds)
    · exact ihr hr hneeds
    · obtain ⟨w, hw, -⟩ := hr.over (over_true r)
      obtain ⟨c, hc, hq⟩ := ihs hs hneeds
      exact ⟨c, by rw [hw]; exact List.mem_append_right _ hc, hq⟩
  | alt r s ihr ihs =>
    rintro cur out (h | h) ⟨hneeds, hneeds'⟩
    · exact ihr h hneeds
    · exact ihs h hneeds'
  | group i r ih =>
    rintro cur out ⟨stop, hr, rfl⟩ hneeds
    exact ih hr hneeds
  | star p | starLazy p | eps | boundary word | dollar => exact fun _ => False.elim

/-- A text without such a character has no match. -/
theorem find_eq_none_of_needs {q : Char → Prop} {r : Regex} (hneeds : r.Needs q) {cs : List Char}
    (h : ∀ c ∈ cs, ¬ q c) (prev : Option Char) : r.find prev cs = none := by
  cases hfind : r.find prev cs with
  | none => rfl
  | some found =>
    obtain ⟨w, rest, heq, hmatch⟩ := find_sound r _ hfind
    obtain ⟨c, hc, hq⟩ := hmatch.needs hneeds
    exact absurd hq (h c (by rw [heq]; exact List.mem_append_right _ hc))

/-- **A text without such a character stays as it is.** -/
theorem sub_eq_self {q : Char → Prop} {r : Regex} (hneeds : r.Needs q) {s : String}
    (h : ∀ c ∈ s.toList, ¬ q c) (f : Found → List Char) : r.sub f s = s := by
  rw [sub, replaceFrom, find_eq_none_of_needs hneeds h, String.ofList_toList]

/-! ## §7. Patterns that end in a run. -/

/-- A part of a sequence leads to the place where the rest of it runs. -/
theorem run_seq {r s : Regex} {cur out : Cursor} {k : Cursor → Option Cursor}
    (h : (seq r s).run cur k = some out) :
    ∃ mid, r.Matches cur mid ∧ s.run mid k = some out := run_sound r h

/-- Before a continuation that never fails, `p*` takes the whole run. -/
theorem runStar_total {p : Char → Bool} {k : Cursor → Option Cursor}
    (hk : ∀ cur, (k cur).isSome = true) (groups : List (Nat × List Char)) (cs : List Char) :
    ∀ prev, ∃ prev', runStar p k groups prev cs = k ⟨prev', cs.dropWhile p, groups⟩ := by
  induction cs with
  | nil => exact fun prev => ⟨prev, rfl⟩
  | cons c cs ih =>
    intro prev
    by_cases hc : p c = true
    · obtain ⟨prev', hrun⟩ := ih (some c)
      refine ⟨prev', ?_⟩
      obtain ⟨out, hout⟩ := Option.isSome_iff_exists.mp (hk ⟨prev', cs.dropWhile p, groups⟩)
      rw [runStar, if_pos hc, hrun, List.dropWhile_cons_of_pos hc, hout]
      rfl
    · exact ⟨prev, by rw [runStar, if_neg hc, List.dropWhile_cons_of_neg hc]⟩

/-- **A group around `p+` at the end of a pattern is the whole run.** -/
theorem run_group_plus {i : Nat} {p : Char → Bool} {cur out : Cursor}
    (h : (all [group i (plus p)]).run cur some = some out) :
    out.groups = (i, cur.rest.takeWhile p) :: cur.groups ∧ cur.rest.takeWhile p ≠ [] := by
  obtain ⟨mid, hmid, hout⟩ := run_seq h
  obtain rfl := Option.some.inj hout
  obtain ⟨w, rest, hne, heq, hw, rfl⟩ := matches_group_plus.mp hmid
  have hmax : rest = cur.rest.dropWhile p := by
    obtain ⟨c, cs, hcs⟩ : ∃ c cs, cur.rest = c :: cs := by
      cases w with
      | nil => exact absurd rfl hne
      | cons c w => exact ⟨c, w ++ rest, heq⟩
    have hc : p c = true := by
      cases w with
      | nil => exact absurd rfl hne
      | cons d w =>
        obtain ⟨rfl, -⟩ := List.cons.inj (heq.symm.trans hcs)
        exact hw d List.mem_cons_self
    simp only [all, plus, run, hcs, hc, if_true] at h
    obtain ⟨prev', hrun⟩ := runStar_total (p := p) (k := fun stop : Cursor => some
      { stop with groups := (i, (c :: cs).take ((c :: cs).length - stop.rest.length))
        :: stop.groups }) (fun _ => rfl) cur.groups cs (some c)
    rw [hrun] at h
    rw [hcs, List.dropWhile_cons_of_pos hc]
    exact (congrArg Cursor.rest (Option.some.inj h)).symm
  have htake : w = cur.rest.takeWhile p :=
    @List.append_cancel_right _ _ rest _ (by
      rw [← heq, hmax, List.takeWhile_append_dropWhile])
  exact ⟨by rw [← htake], htake ▸ hne⟩

end Hmn.Framework.Regex
