/-
  Hmn.Framework.Rewriting — what a substitution makes of a text.

  Where `p*` stands before something that cannot begin with a `p`, the engine
  has no choice but to take the whole run.  A pattern without `\b` and `$`
  reads nothing but the characters it leads over.  And two texts whose places
  correspond, match for match, become one text.

  Main results: `runStar_greedy`, `matches_append_iff`, `sub_agree`.
-/
import Hmn.Framework.Matching

namespace Hmn.Framework.Regex

/-! ## §1. Runs without a choice. -/

/-- Before a continuation that fails within the run, `p*` takes all of it. -/
theorem runStar_greedy {p : Char → Bool} {k : Cursor → Option Cursor}
    {groups : List (Nat × List Char)}
    (hk : ∀ prev c cs, p c = true → k ⟨prev, c :: cs, groups⟩ = none) (cs : List Char) :
    ∀ prev, runStar p k groups prev cs
      = k ⟨lastOf prev (cs.takeWhile p), cs.dropWhile p, groups⟩ := by
  induction cs with
  | nil => exact fun prev => rfl
  | cons c cs ih =>
    intro prev
    by_cases hc : p c = true
    · rw [runStar, if_pos hc, ih, hk prev c cs hc, List.takeWhile_cons_of_pos hc,
        List.dropWhile_cons_of_pos hc, lastOf_cons]
      cases k ⟨lastOf (some c) (cs.takeWhile p), cs.dropWhile p, groups⟩ <;> rfl
    · rw [runStar, if_neg hc, List.takeWhile_cons_of_neg hc, List.dropWhile_cons_of_neg hc]
      rfl

/-- `p+` takes the whole run when nothing can fail behind it. -/
theorem run_group_plus_rest {i : Nat} {p : Char → Bool} (cur : Cursor) :
    ((all [group i (plus p)]).run cur some).map Cursor.rest
      = if cur.rest.head?.any p then some (cur.rest.dropWhile p) else none := by
  obtain ⟨prev, cs, groups⟩ := cur
  cases cs with
  | nil => rfl
  | cons c cs =>
    by_cases hc : p c = true
    · obtain ⟨prev', hrun⟩ := runStar_total (p := p) (k := fun stop : Cursor => some
        { stop with groups := (i, (c :: cs).take ((c :: cs).length - stop.rest.length))
          :: stop.groups }) (fun _ => rfl) groups cs (some c)
      simp only [all, plus, run, hc, if_true, hrun, Option.map_some, List.head?_cons,
        Option.any_some, List.dropWhile_cons_of_pos]
    · simp [all, plus, run, hc]

/-! ## §2. Patterns that read only what they lead over. -/

/-- A pattern without `\b` and `$`. -/
def Plain : Regex → Prop
  | .seq r s | .alt r s => r.Plain ∧ s.Plain
  | .group _ r => r.Plain
  | .eps | .one _ | .star _ | .starLazy _ => True
  | .boundary _ | .dollar => False

@[simp] theorem plain_chars (cs : List Char) : (chars cs).Plain := by
  induction cs with
  | nil => trivial
  | cons c cs ih => exact ⟨trivial, ih⟩

@[simp] theorem plain_lit (s : String) : (lit s).Plain := plain_chars s.toList

@[simp] theorem plain_plus (p : Char → Bool) : (plus p).Plain := ⟨trivial, trivial⟩

theorem lastOf_append (prev : Option Char) (w w' : List Char) :
    lastOf prev (w ++ w') = lastOf (lastOf prev w) w' := by
  induction w generalizing prev with
  | nil => rfl
  | cons c w ih => rw [List.cons_append, lastOf_cons, lastOf_cons, ih]

/-- **A match leads to the place behind what it takes.** -/
theorem Matches.suffix {r : Regex} : ∀ {cur out : Cursor}, r.Matches cur out →
    ∃ w, cur.rest = w ++ out.rest ∧ out.prev = lastOf cur.prev w := by
  induction r with
  | eps =>
    rintro cur out rfl
    exact ⟨[], rfl, rfl⟩
  | one p =>
    rintro cur out ⟨c, cs, hrest, -, rfl⟩
    exact ⟨[c], hrest, rfl⟩
  | star p | starLazy p =>
    rintro cur out ⟨w, rest, hrest, -, rfl⟩
    exact ⟨w, hrest, rfl⟩
  | seq r s ihr ihs =>
    rintro cur out ⟨mid, hr, hs⟩
    obtain ⟨w, hw, hprev⟩ := ihr hr
    obtain ⟨w', hw', hprev'⟩ := ihs hs
    exact ⟨w ++ w', by rw [hw, hw', List.append_assoc], by rw [hprev', hprev, lastOf_append]⟩
  | alt r s ihr ihs =>
    rintro cur out (h | h)
    · exact ihr h
    · exact ihs h
  | group i r ih =>
    rintro cur out ⟨stop, hr, rfl⟩
    obtain ⟨w, hw, hprev⟩ := ih hr
    exact ⟨w, hw, hprev⟩
  | boundary word | dollar =>
    rintro cur out ⟨-, rfl⟩
    exact ⟨[], rfl, rfl⟩

/-- Two matches that take the same end behind the same character. -/
theorem matchAt_prev {r : Regex} {prev : Option Char} {w rest tail tail' : List Char}
    {f f' : Found} (h : r.matchAt prev (w ++ tail) = some f)
    (h' : r.matchAt prev (w ++ tail') = some f') (hf : f.stop.rest = rest ++ tail)
    (hf' : f'.stop.rest = rest ++ tail') : f.stop.prev = f'.stop.prev := by
  obtain ⟨x, hx, hprev⟩ := (matchAt_sound h).suffix
  obtain ⟨x', hx', hprev'⟩ := (matchAt_sound h').suffix
  rw [hf, ← List.append_assoc] at hx
  rw [hf', ← List.append_assoc] at hx'
  have hsame : x ++ rest = x' ++ rest :=
    (List.append_cancel_right hx).symm.trans (List.append_cancel_right hx')
  rw [hprev, hprev', List.append_cancel_right hsame]

/-- **A plain pattern does not look at what is behind its match.** -/
theorem matches_append_iff {r : Regex} (hr : r.Plain) (tail : List Char) :
    ∀ {prev prev' : Option Char} {w w' : List Char} {gs gs' : List (Nat × List Char)},
      r.Matches ⟨prev, w ++ tail, gs⟩ ⟨prev', w' ++ tail, gs'⟩ ↔
        r.Matches ⟨prev, w, gs⟩ ⟨prev', w', gs'⟩ := by
  induction r with
  | eps => simp [Matches]
  | one p =>
    intro prev prev' w w' gs gs'
    constructor
    · rintro ⟨c, cs, hrest, hc, heq⟩
      obtain ⟨rfl, rfl, rfl⟩ := Cursor.mk.inj heq
      exact ⟨c, w', List.append_cancel_right hrest, hc, rfl⟩
    · rintro ⟨c, cs, hrest, hc, heq⟩
      obtain ⟨rfl, rfl, rfl⟩ := Cursor.mk.inj heq
      obtain rfl : w = c :: w' := hrest
      exact ⟨c, w' ++ tail, rfl, hc, rfl⟩
  | star p | starLazy p =>
    intro prev prev' w w' gs gs'
    constructor
    · rintro ⟨x, rest, hrest, hx, heq⟩
      obtain ⟨rfl, rfl, rfl⟩ := Cursor.mk.inj heq
      refine ⟨x, w', ?_, hx, rfl⟩
      exact List.append_cancel_right (hrest.trans (List.append_assoc x w' tail).symm)
    · rintro ⟨x, rest, hrest, hx, heq⟩
      obtain ⟨rfl, rfl, rfl⟩ := Cursor.mk.inj heq
      obtain rfl : w = x ++ w' := hrest
      exact ⟨x, w' ++ tail, List.append_assoc x w' tail, hx, rfl⟩
  | seq r s ihr ihs =>
    intro prev prev' w w' gs gs'
    constructor
    · rintro ⟨⟨prevm, restm, gsm⟩, hmr, hms⟩
      obtain ⟨x, hx, -⟩ := hms.suffix
      obtain rfl : restm = x ++ w' ++ tail := by rw [List.append_assoc]; exact hx
      exact ⟨⟨prevm, x ++ w', gsm⟩, (ihr hr.1).mp hmr, (ihs hr.2).mp hms⟩
    · rintro ⟨⟨prevm, restm, gsm⟩, hmr, hms⟩
      exact ⟨⟨prevm, restm ++ tail, gsm⟩, (ihr hr.1).mpr hmr, (ihs hr.2).mpr hms⟩
  | alt r s ihr ihs =>
    intro prev prev' w w' gs gs'
    exact or_congr (ihr hr.1) (ihs hr.2)
  | group i r ih =>
    intro prev prev' w w' gs gs'
    -- The text of a group is measured from the end, so what is appended cancels.
    have htext : ∀ {x : List Char}, w = x ++ w' →
        (w ++ tail).take ((w ++ tail).length - (w' ++ tail).length)
          = w.take (w.length - w'.length) := by
      rintro x rfl
      simp [List.append_assoc, List.length_append]
    constructor
    · rintro ⟨⟨prevm, restm, gsm⟩, hmr, heq⟩
      obtain ⟨rfl, rfl, rfl⟩ := Cursor.mk.inj heq
      obtain ⟨x, hx, -⟩ := hmr.suffix
      have hw : w = x ++ w' :=
        List.append_cancel_right (hx.trans (List.append_assoc x w' tail).symm)
      exact ⟨⟨_, w', gsm⟩, (ih hr).mp hmr, by simp only [htext hw]⟩
    · rintro ⟨⟨prevm, restm, gsm⟩, hmr, heq⟩
      obtain ⟨rfl, rfl, rfl⟩ := Cursor.mk.inj heq
      obtain ⟨x, hx, -⟩ := hmr.suffix
      exact ⟨⟨_, w' ++ tail, gsm⟩, (ih hr).mpr hmr, by simp only [htext hx]⟩
  | boundary word | dollar => exact absurd hr id

/-! ## §3. Substitution, place by place. -/

/-- Every match is of at least one character. -/
def Shrinks (r : Regex) : Prop :=
  ∀ {prev cs f}, r.matchAt prev cs = some f → f.stop.rest.length < cs.length

theorem matchAt_skipped {r : Regex} {prev : Option Char} {cs : List Char} {f : Found}
    (h : r.matchAt prev cs = some f) : f.skipped = [] := by
  obtain ⟨stop, -, rfl⟩ := Option.map_eq_some_iff.mp h
  rfl

/-! ## §4. Two texts that become one. -/

section Agree

variable {r : Regex} {g : Cursor → List Char}
  {R : Option Char → List Char → Option Char → List Char → Prop}

/-- One step of two texts read side by side: nothing matches at either place and
both go on behind one character, or both are at their ends, or matches that are
replaced alike lead from each place to places that correspond again. -/
def AgreeStep (r : Regex) (g : Cursor → List Char)
    (R : Option Char → List Char → Option Char → List Char → Prop)
    (prev : Option Char) (cs : List Char) (prev' : Option Char) (cs' : List Char) : Prop :=
  (r.matchAt prev cs = none ∧ r.matchAt prev' cs' = none ∧ ((cs = [] ∧ cs' = [])
    ∨ ∃ c t t', cs = c :: t ∧ cs' = c :: t' ∧ R (some c) t (some c) t'))
  ∨ ∃ f f', r.matchAt prev cs = some f ∧ r.matchAt prev' cs' = some f' ∧ g f.stop = g f'.stop
    ∧ R f.stop.prev f.stop.rest f'.stop.prev f'.stop.rest

variable (hshrinks : r.Shrinks)
  (hstep : ∀ {prev cs prev' cs'}, R prev cs prev' cs' → AgreeStep r g R prev cs prev' cs')

include hshrinks hstep

/-- The first matches correspond. -/
theorem find_agree (cs : List Char) : ∀ {prev prev' cs'}, R prev cs prev' cs' →
    (r.find prev cs = none ∧ r.find prev' cs' = none ∧ cs = cs')
    ∨ ∃ f f', r.find prev cs = some f ∧ r.find prev' cs' = some f' ∧ f.skipped = f'.skipped
      ∧ g f.stop = g f'.stop
      ∧ f.stop.rest.length < cs.length ∧ f'.stop.rest.length < cs'.length
      ∧ R f.stop.prev f.stop.rest f'.stop.prev f'.stop.rest := by
  have here : ∀ {prev cs prev' cs'} {f f' : Found}, r.matchAt prev cs = some f →
      r.matchAt prev' cs' = some f' → g f.stop = g f'.stop →
      R f.stop.prev f.stop.rest f'.stop.prev f'.stop.rest →
      ∃ f f', r.find prev cs = some f ∧ r.find prev' cs' = some f' ∧ f.skipped = f'.skipped
        ∧ g f.stop = g f'.stop
        ∧ f.stop.rest.length < cs.length ∧ f'.stop.rest.length < cs'.length
        ∧ R f.stop.prev f.stop.rest f'.stop.prev f'.stop.rest := by
    intro prev cs prev' cs' f f' hf hf' hg hR
    exact ⟨f, f', find_of_matchAt hf, find_of_matchAt hf',
      (matchAt_skipped hf).trans (matchAt_skipped hf').symm, hg, hshrinks hf, hshrinks hf', hR⟩
  -- A match here, or one character is skipped on both sides, or both texts end.
  induction cs with
  | nil =>
    intro prev prev' cs' hR
    rcases hstep hR with ⟨hnone, hnone', hends | ⟨c, t, t', hcs, -⟩⟩ | ⟨f, f', hf, hf', hg, hR'⟩
    · obtain ⟨-, rfl⟩ := hends
      exact Or.inl ⟨by rw [find, hnone], by rw [find, hnone'], rfl⟩
    · exact absurd hcs (List.cons_ne_nil c t).symm
    · exact Or.inr (here hf hf' hg hR')
  | cons c cs ih =>
    intro prev prev' cs' hR
    rcases hstep hR with ⟨hnone, hnone', hends | ⟨d, t, t', hcs, rfl, hR'⟩⟩
      | ⟨f, f', hf, hf', hg, hR'⟩
    · exact absurd hends.1 (List.cons_ne_nil c cs)
    · obtain ⟨rfl, rfl⟩ := List.cons.inj hcs
      rcases ih hR' with ⟨hfind, hfind', rfl⟩ | ⟨f, f', hf, hf', hskip, hg, hlt, hlt', hR''⟩
      · exact Or.inl ⟨by rw [find, hnone, hfind]; rfl, by rw [find, hnone', hfind']; rfl, rfl⟩
      · refine Or.inr ⟨{ f with skipped := c :: f.skipped }, { f' with skipped := c :: f'.skipped },
          by rw [find, hnone, hf]; rfl, by rw [find, hnone', hf']; rfl, ?_, hg, ?_, ?_, hR''⟩
        · simp only [hskip]
        · exact Nat.lt_succ_of_lt hlt
        · exact Nat.lt_succ_of_lt hlt'
    · exact Or.inr (here hf hf' hg hR')

theorem replaceFrom_agree (n : Nat) : ∀ {n' prev cs prev' cs'}, R prev cs prev' cs' →
    cs.length < n → cs'.length < n' →
    r.replaceFrom (fun f => g f.stop) n prev cs = r.replaceFrom (fun f => g f.stop) n' prev' cs' := by
  induction n with
  | zero => exact fun _ h _ => absurd h (Nat.not_lt_zero _)
  | succ n ih =>
    intro n' prev cs prev' cs' hR hn hn'
    obtain ⟨n', rfl⟩ := Nat.exists_eq_add_one_of_ne_zero (Nat.ne_zero_of_lt hn')
    rw [replaceFrom, replaceFrom]
    rcases find_agree hshrinks hstep cs hR with ⟨hnone, hnone', rfl⟩
      | ⟨f, f', hf, hf', hskip, hg, hlt, hlt', hR'⟩
    · rw [hnone, hnone']
    · have hlt'' : f'.stop.rest.length < n' := by omega
      rw [hf, hf']
      simp only [hskip, hg, ih hR' (by omega) hlt'']

/-- **Texts whose places correspond become one text.** -/
theorem sub_agree {s s' : String} (h : R none s.toList none s'.toList) :
    r.sub (fun f => g f.stop) s = r.sub (fun f => g f.stop) s' := by
  rw [sub, sub, replaceFrom_agree hshrinks hstep _ h (Nat.lt_succ_self _) (Nat.lt_succ_self _)]

end Agree

end Hmn.Framework.Regex
