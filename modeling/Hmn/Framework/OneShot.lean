/-
  Hmn.Framework.OneShot — a right that is granted once.

  The shared state has a gate (`isOpen`).  A caller that makes a grabbing
  call closes the gate and holds the right; only a holder may act.  The
  pattern is check-then-act over separate atomic calls, so nothing in the
  calls themselves stops two callers that both saw the gate open: the rule
  below says exactly what has to be added, namely that every grab is made
  while the gate is still open.

  Main results: `oneShot_run` — in every run whose grabs all find the gate
  open, the callers are in ONE of the phases unclaimed / held / used, and
  `labels_unique` — all acts of the run carry one label.
-/
import Hmn.Framework.Interleave

namespace Hmn.Framework

/-- What a caller holds of the right. -/
inductive Hold (Λ : Type) where
  /-- Not one of the callers that compete for the right. -/
  | outside
  | idle
  | armed
  | fired (label : Λ)

/-- A one-time right over the shared state `σ`: which calls grab it, which
calls use it, and the invariant under which the gate behaves. -/
structure OneShot (S : Sig) (σ Λ : Type) (exec : Prog.Exec S σ) where
  isOpen : σ → Prop
  inv : σ → Prop
  /-- The calls any caller may make, whatever it holds. -/
  ok : S.Op → Prop
  sees : (op : S.Op) → S.Res op → Prop
  grabs : S.Op → Bool
  acts : S.Op → Option Λ
  /-- What a holder may call before it acts. -/
  free : S.Op → Prop
  /-- Whether a holder may act more than once, under the same label. -/
  again : Prop
  /-- Whether nothing but a grab closes the gate. -/
  strict : Prop
  answers : ∀ {s op}, inv s → ok op → sees op (exec op s).1
  keeps : ∀ {s op}, inv s → ok op → (grabs op = true → isOpen s) → inv (exec op s).2
  grab_closes : ∀ {s op}, inv s → ok op → grabs op = true → ¬ isOpen (exec op s).2
  stays_closed : ∀ {s op}, inv s → ok op → ¬ isOpen s → ¬ isOpen (exec op s).2
  stays_open : ∀ {s op}, strict → inv s → ok op → grabs op = false → isOpen s →
    isOpen (exec op s).2

namespace OneShot

variable {S : Sig} {ε α σ Λ : Type} {exec : Prog.Exec S σ}

/-! ## §1. The discipline of one caller. -/

/-- What a caller may call, by what it holds. -/
def may (R : OneShot S σ Λ exec) : Hold Λ → S.Op → Prop
  | .outside, op => R.ok op ∧ R.grabs op = false
  | .idle, op => R.ok op ∧ R.acts op = none
  | .armed, op => R.ok op ∧ R.grabs op = false ∧ (R.acts op = none → R.free op)
  | .fired x, op => R.ok op ∧ R.grabs op = false
      ∧ (R.acts op = none ∨ (R.again ∧ R.acts op = some x))

/-- What a caller holds after a call. -/
def after (R : OneShot S σ Λ exec) : Hold Λ → S.Op → Hold Λ
  | .outside, _ => .outside
  | .idle, op => if R.grabs op then .armed else .idle
  | .armed, op => match R.acts op with
    | some x => .fired x
    | none => .armed
  | .fired x, _ => .fired x

@[simp] theorem after_outside (R : OneShot S σ Λ exec) (op : S.Op) :
    R.after .outside op = .outside := rfl

@[simp] theorem after_fired (R : OneShot S σ Λ exec) (x : Λ) (op : S.Op) :
    R.after (.fired x) op = .fired x := rfl

theorem ok_of_may {R : OneShot S σ Λ exec} {h : Hold Λ} {op : S.Op} (hm : R.may h op) :
    R.ok op := by
  cases h <;> exact hm.1

/-- The discipline as a typestate. -/
abbrev typestate (R : OneShot S σ Λ exec) : Typestate S where
  Mode := Hold Λ
  may := R.may
  after h op _ := R.after h op
  sees := R.sees

theorem wp_call {R : OneShot S σ Λ exec} {Q : Hold Λ → α → Prop} {E : Hold Λ → ε → Prop}
    {h : Hold Λ} {op : S.Op} {k : S.Res op → Prog S ε α} :
    (Prog.call op k).wp R.typestate Q E h ↔
      R.may h op ∧ ∀ r, R.sees op r → (k r).wp R.typestate Q E (R.after h op) :=
  Prog.wp_call

/-- A caller that starts holding `h` and obeys the discipline; it does not
finish with an unused right when `must` holds. -/
def Obeys (R : OneShot S σ Λ exec) (must : Prop) (h : Hold Λ) (p : Prog S ε α) : Prop :=
  p.wp R.typestate (fun h' _ => must → h' ≠ .armed) (fun h' _ => must → h' ≠ .armed) h

/-- Whatever it holds, an obeying caller only makes the calls every caller may
make. -/
theorem Obeys.onlyCalls {R : OneShot S σ Λ exec} {must : Prop} {h : Hold Λ} {p : Prog S ε α}
    (hp : R.Obeys must h p) : Config.OnlyCalls R.ok R.sees p := by
  unfold Config.OnlyCalls
  refine Prog.wp_refine R.typestate (Config.onlyCalls R.ok R.sees) (fun _ => ()) (fun _ _ hm => ok_of_may hm)
    (fun _ _ _ => rfl) (fun _ _ h => h) ?_ ?_ p h hp
  · exact fun _ _ _ => trivial
  · exact fun _ _ _ => trivial

/-! ## §2. The phases of a run. -/

/-- Who holds the right. -/
inductive Phase (ι Λ : Type) where
  | unclaimed
  | held (i : ι)
  | used (i : ι) (label : Λ)

variable {ι : Type} [DecidableEq ι]

/-- What caller `j` holds in a phase; `part` are the competing callers. -/
def holds (part : ι → Bool) (ph : Phase ι Λ) (j : ι) : Hold Λ :=
  if part j then
    match ph with
    | .unclaimed => .idle
    | .held i => if j = i then .armed else .idle
    | .used i x => if j = i then .fired x else .idle
  else .outside

/-- The labels of the acts of a run so far: none before the right was used,
one when it may be used once. -/
def Labels (again : Prop) : Phase ι Λ → List Λ → Prop
  | .used _ x, acts => acts ≠ [] ∧ (∀ y ∈ acts, y = x) ∧ (¬ again → acts = [x])
  | _, acts => acts = []

/-- Record the label of an act of a competing caller. -/
def record (R : OneShot S σ Λ exec) (part : ι → Bool) (acts : List Λ) (i : ι) (_ : σ)
    (op : S.Op) : List Λ :=
  match part i, R.acts op with
  | true, some x => acts ++ [x]
  | _, _ => acts

/-- The invariant: the callers hold what the phase says, the gate is open
only while the right is unclaimed, and the acts carry the phase's label. -/
def Inv (R : OneShot S σ Λ exec) (part : ι → Bool) (s : σ) (m : ι → Hold Λ)
    (acts : List Λ) : Prop :=
  ∃ ph : Phase ι Λ, m = holds part ph ∧ R.inv s ∧ Labels R.again ph acts
    ∧ (R.isOpen s → ph = .unclaimed)
    ∧ (R.strict → ph = .unclaimed → R.isOpen s)

/-! ## §3. One call. -/

variable {R : OneShot S σ Λ exec} {part : ι → Bool}

theorem holds_of_outside {ph : Phase ι Λ} {i : ι} (hp : part i = false) :
    holds part ph i = .outside := by
  simp [holds, hp]

/-- A grab turns the unclaimed phase into the phase held by the caller. -/
theorem update_armed {i : ι} (hp : part i = true) :
    Function.update (holds part (.unclaimed : Phase ι Λ)) i .armed = holds part (.held i) := by
  funext j
  by_cases hj : j = i
  · subst hj
    simp [holds, hp]
  · simp [holds, hj]

/-- An act turns the held phase into the used one. -/
theorem update_fired {i : ι} {x : Λ} (hp : part i = true) :
    Function.update (holds part (.held i : Phase ι Λ)) i (.fired x)
      = holds part (.used i x) := by
  funext j
  by_cases hj : j = i
  · subst hj
    simp [holds, hp]
  · simp [holds, hj]

/-- What an idle caller's call does to the phase. -/
theorem call_idle {ph : Phase ι Λ} {acts : List Λ} {i : ι} {op : S.Op} {s : σ}
    (hp : part i = true) (hi : holds part ph i = .idle) (hm : R.may .idle op)
    (hgrab : R.grabs op = true → ph = .unclaimed) (hl : Labels R.again ph acts) :
    ∃ ph', Function.update (holds part ph) i (R.after .idle op) = holds part ph'
      ∧ Labels R.again ph' (R.record part acts i s op)
      ∧ (ph' = .unclaimed ↔ ph = .unclaimed ∧ R.grabs op = false) := by
  have hrec : R.record part acts i s op = acts := by simp [record, hp, hm.2]
  rw [hrec]
  cases hg : R.grabs op with
  | true =>
    obtain rfl := hgrab hg
    refine ⟨.held i, ?_, hl, by simp⟩
    simpa [after, hg] using update_armed hp
  | false =>
    refine ⟨ph, ?_, hl, by simp⟩
    simp [after, hg, ← hi]

/-- What a call of the holder does to the phase. -/
theorem call_armed {acts : List Λ} {i : ι} (op : S.Op) (s : σ) (hp : part i = true)
    (hl : Labels R.again (.held i : Phase ι Λ) acts) :
    ∃ ph', Function.update (holds part (.held i)) i (R.after .armed op) = holds part ph'
      ∧ Labels R.again ph' (R.record part acts i s op) ∧ ph' ≠ .unclaimed := by
  have hnil : acts = [] := hl
  have hi : holds part (.held i : Phase ι Λ) i = .armed := by simp [holds, hp]
  cases ha : R.acts op with
  | none =>
    refine ⟨.held i, ?_, ?_, by simp⟩
    · simp [after, ha, ← hi]
    · simp [record, hp, ha, Labels, hnil]
  | some x =>
    refine ⟨.used i x, ?_, ?_, by simp⟩
    · simpa [after, ha] using update_fired hp
    · simp [record, hp, ha, Labels, hnil]

/-- What a later call of the caller that acted does to the phase. -/
theorem call_fired {acts : List Λ} {i : ι} {x : Λ} {op : S.Op} {s : σ} (hp : part i = true)
    (hm : R.may (.fired x) op) (hl : Labels R.again (.used i x) acts) :
    Function.update (holds part (.used i x)) i (R.after (.fired x) op)
        = holds part (.used i x)
      ∧ Labels R.again (.used i x) (R.record part acts i s op) := by
  have hi : holds part (.used i x) i = .fired x := by simp [holds, hp]
  refine ⟨by simp [after, ← hi], ?_⟩
  obtain ⟨hne, hall, hone⟩ := hl
  rcases hm.2.2 with ha | ⟨hagain, ha⟩
  · simpa [record, hp, ha, Labels] using ⟨hne, hall, hone⟩
  · simp only [record, hp, ha, Labels]
    refine ⟨by simp, ?_, fun h => absurd hagain h⟩
    intro y hy
    rcases List.mem_append.mp hy with hy | hy
    · exact hall y hy
    · exact List.mem_singleton.mp hy

/-- **What one permitted call does to the phase.** -/
theorem call_phase {ph : Phase ι Λ} {acts : List Λ} {i : ι} {op : S.Op} {s : σ}
    (hm : R.may (holds part ph i) op) (hgrab : R.grabs op = true → ph = .unclaimed)
    (hl : Labels R.again ph acts) :
    ∃ ph', Function.update (holds part ph) i (R.after (holds part ph i) op) = holds part ph'
      ∧ Labels R.again ph' (R.record part acts i s op)
      ∧ (ph' = .unclaimed ↔ ph = .unclaimed ∧ R.grabs op = false) := by
  cases hp : part i with
  | false =>
    have hi : holds part ph i = .outside := holds_of_outside hp
    rw [hi] at hm
    refine ⟨ph, ?_, ?_, by simp [hm.2]⟩
    · rw [hi]
      simp [after, ← hi]
    · simpa [record, hp] using hl
  | true =>
    cases ph with
    | unclaimed =>
      have hi : holds part (.unclaimed : Phase ι Λ) i = .idle := by simp [holds, hp]
      rw [hi] at hm ⊢
      exact call_idle hp hi hm hgrab hl
    | held k =>
      by_cases hk : i = k
      · subst hk
        have hi : holds part (.held i : Phase ι Λ) i = .armed := by simp [holds, hp]
        rw [hi]
        obtain ⟨ph', hupd, hlab, hne⟩ := call_armed op s hp hl
        exact ⟨ph', hupd, hlab, by simp [hne]⟩
      · have hi : holds part (.held k : Phase ι Λ) i = .idle := by simp [holds, hp, hk]
        rw [hi] at hm ⊢
        exact call_idle hp hi hm hgrab hl
    | used k x =>
      by_cases hk : i = k
      · subst hk
        have hi : holds part (.used i x) i = .fired x := by simp [holds, hp]
        rw [hi] at hm ⊢
        obtain ⟨hupd, hlab⟩ := call_fired (s := s) hp hm hl
        exact ⟨.used i x, hupd, hlab, by simp⟩
      · have hi : holds part (.used k x) i = .idle := by simp [holds, hp, hk]
        rw [hi] at hm ⊢
        exact call_idle hp hi hm hgrab hl

/-! ## §4. A run. -/

/-- The condition on a run: every grab is made while the gate is open. -/
def GrabsOpen (R : OneShot S σ Λ exec) (_ : ι) (s : σ) (op : S.Op) : Prop :=
  R.grabs op = true → R.isOpen s

/-- Every caller obeys the discipline with what the phase says it holds. -/
def InPhase (R : OneShot S σ Λ exec) (part : ι → Bool) (must : Prop)
    (c : Config ι S ε α σ) (acts : List Λ) (ph : Phase ι Λ) : Prop :=
  (∀ i, R.Obeys must (holds part ph i) (c.callers i))
    ∧ R.inv c.shared ∧ Labels R.again ph acts
    ∧ (R.isOpen c.shared → ph = .unclaimed)
    ∧ (R.strict → ph = .unclaimed → R.isOpen c.shared)

/-- **The one-shot rule.**  A run whose grabs all find the gate open stays
in one of the phases unclaimed / held / used. -/
theorem oneShot_run (R : OneShot S σ Λ exec) (part : ι → Bool) (must : Prop)
    (c : Config ι S ε α σ) (sched : List ι) (acts : List Λ) (ph : Phase ι Λ)
    (hc : R.InPhase part must c acts ph) (hP : c.Respects exec R.GrabsOpen sched) :
    ∃ ph', R.InPhase part must (c.run exec sched)
      (Config.history exec (R.record part) acts c sched) ph' := by
  obtain ⟨hobey, hinv, hlab, hopen, hstrict⟩ := hc
  have hgov : Config.Governed R.typestate (fun h => must → h ≠ .armed)
      (fun h => must → h ≠ .armed) (R.Inv part) c acts :=
    ⟨holds part ph, ⟨ph, rfl, hinv, hlab, hopen, hstrict⟩, hobey⟩
  have hstep : ∀ (s : σ) (m : ι → Hold Λ) (g : List Λ) (i : ι) (op : S.Op), R.Inv part s m g →
      R.may (m i) op → R.GrabsOpen i s op →
        R.sees op (exec op s).1
          ∧ R.Inv part (exec op s).2 (Function.update m i (R.after (m i) op))
              (R.record part g i s op) := by
    rintro s m g i op ⟨ph₁, rfl, hs, hl, ho, hst⟩ hm hPi
    have hok : R.ok op := ok_of_may hm
    refine ⟨R.answers hs hok, ?_⟩
    obtain ⟨ph₂, hupd, hl₂, hiff⟩ := call_phase (s := s) hm (fun hg => ho (hPi hg)) hl
    refine ⟨ph₂, hupd, R.keeps hs hok hPi, hl₂, ?_, ?_⟩
    · intro hop
      have hwas : R.isOpen s := by
        by_contra hcl
        exact R.stays_closed hs hok hcl hop
      refine hiff.mpr ⟨ho hwas, ?_⟩
      cases hg : R.grabs op with
      | false => rfl
      | true => exact absurd hop (R.grab_closes hs hok hg)
    · intro hstr h
      obtain ⟨hun, hg⟩ := hiff.mp h
      exact R.stays_open hstr hs hok hg (hst hstr hun)
  obtain ⟨m, ⟨ph', rfl, hinv', hlab', hopen', hstrict'⟩, hobey'⟩ :=
    Config.run_typestate R.typestate (R.Inv part) hstep sched c acts hgov hP
  exact ⟨ph', hobey', hinv', hlab', hopen', hstrict'⟩

omit [DecidableEq ι] in
/-- **All acts of a run carry one label**, and when a holder acts once
there is at most one act. -/
theorem labels_unique {again : Prop} {ph : Phase ι Λ} {acts : List Λ}
    (h : Labels again ph acts) :
    (∀ x ∈ acts, ∀ y ∈ acts, x = y) ∧ (¬ again → acts.length ≤ 1) := by
  cases ph with
  | unclaimed =>
    obtain rfl : acts = [] := h
    simp
  | held i =>
    obtain rfl : acts = [] := h
    simp
  | used i x =>
    obtain ⟨-, hall, hone⟩ := h
    refine ⟨fun y hy z hz => (hall y hy).trans (hall z hz).symm, fun hn => ?_⟩
    rw [hone hn]
    simp

end OneShot

end Hmn.Framework
