/-
  Hmn.Framework.Prog — programs made of atomic calls.

  A program is a tree: it returns, it raises, or it makes ONE atomic call
  and goes on with the answer.  The same tree has two readings:

    • `Prog.run` — the calls of one program executed back to back, and
    • `Config.step` (`Hmn.Framework.Interleave`) — one call of one caller
      at a time, with the calls of all other callers in between.

  So a piece of source code is transcribed once and can be reasoned about
  both as an atomic operation and as a sequence of transactions.

  Main results: the monad laws, `run_bind` (a sequential run splits at a
  bind), and the typestate rule `wp_bind` for what a program may call.
-/
import Mathlib.Logic.Function.Basic
import Mathlib.Tactic.Common

namespace Hmn.Framework

/-- The atomic calls a program can make and the type each answers with. -/
structure Sig where
  Op : Type
  Res : Op → Type

/-- A program over the calls `S` that returns an `α` or raises an `ε`. -/
inductive Prog (S : Sig) (ε α : Type) where
  | ret (a : α)
  | raise (e : ε)
  | call (op : S.Op) (k : S.Res op → Prog S ε α)

namespace Prog

variable {S : Sig} {ε α β γ σ : Type}

/-! ## §1. Sequencing and exceptions. -/

/-- Run `p`, then `f` on what it returned; a raise passes through. -/
def bind : Prog S ε α → (α → Prog S ε β) → Prog S ε β
  | ret a, f => f a
  | raise e, _ => raise e
  | call op k, f => call op (fun r => (k r).bind f)

/-- Run `p`; on a raise, run the handler. -/
def tryCatch : Prog S ε α → (ε → Prog S ε α) → Prog S ε α
  | ret a, _ => ret a
  | raise e, h => h e
  | call op k, h => call op (fun r => (k r).tryCatch h)

instance : Monad (Prog S ε) where
  pure := ret
  bind := bind

instance : MonadExceptOf ε (Prog S ε) where
  throw := raise
  tryCatch := tryCatch

/-- `if c: p`. -/
def when (c : Bool) (p : Prog S ε Unit) : Prog S ε Unit := if c then p else ret ()

/-- The program that makes one call and returns the answer. -/
def lift (op : S.Op) : Prog S ε (S.Res op) := call op ret

@[simp] theorem pure_eq (a : α) : (pure a : Prog S ε α) = ret a := rfl

@[simp] theorem throw_eq (e : ε) : (throw e : Prog S ε α) = raise e := rfl

@[simp] theorem ret_bind (a : α) (f : α → Prog S ε β) : (ret a >>= f) = f a := rfl

@[simp] theorem raise_bind (e : ε) (f : α → Prog S ε β) :
    ((raise e : Prog S ε α) >>= f) = raise e := rfl

@[simp] theorem call_bind (op : S.Op) (k : S.Res op → Prog S ε α)
    (f : α → Prog S ε β) : (call op k >>= f) = call op (fun r => k r >>= f) := rfl

@[simp] theorem lift_bind (op : S.Op) (f : S.Res op → Prog S ε β) :
    (lift op >>= f) = call op f := rfl

@[simp] theorem when_true (p : Prog S ε Unit) : when true p = p := rfl

@[simp] theorem when_false (p : Prog S ε Unit) : when false p = ret () := rfl

theorem bind_assoc' (p : Prog S ε α) (f : α → Prog S ε β) (g : β → Prog S ε γ) :
    (p >>= f >>= g) = p >>= fun a => f a >>= g := by
  induction p with
  | ret a => rfl
  | raise e => rfl
  | call op k ih =>
    show call op _ = call op _
    congr 1
    funext r
    exact ih r

theorem bind_ret (p : Prog S ε α) : (p >>= fun a => ret a) = p := by
  induction p with
  | ret a => rfl
  | raise e => rfl
  | call op k ih =>
    show call op _ = call op k
    congr 1
    funext r
    exact ih r

instance : LawfulMonad (Prog S ε) :=
  LawfulMonad.mk' _ (fun p => bind_ret p) (fun _ _ => rfl)
    (fun p f g => bind_assoc' p f g)

/-! ## §2. The sequential reading. -/

/-- How each atomic call acts on the shared state. -/
abbrev Exec (S : Sig) (σ : Type) := (op : S.Op) → σ → S.Res op × σ

/-- Execute all calls of a program back to back. -/
def run (exec : Exec S σ) : Prog S ε α → σ → Except ε α × σ
  | ret a, s => (.ok a, s)
  | raise e, s => (.error e, s)
  | call op k, s => (k (exec op s).1).run exec (exec op s).2

@[simp] theorem run_ret (exec : Exec S σ) (a : α) (s : σ) :
    (ret a : Prog S ε α).run exec s = (.ok a, s) := rfl

@[simp] theorem run_raise (exec : Exec S σ) (e : ε) (s : σ) :
    (raise e : Prog S ε α).run exec s = (.error e, s) := rfl

@[simp] theorem run_call (exec : Exec S σ) (op : S.Op)
    (k : S.Res op → Prog S ε α) (s : σ) :
    (call op k).run exec s = (k (exec op s).1).run exec (exec op s).2 := rfl

/-- **A sequential run splits at a bind.** -/
theorem run_bind (exec : Exec S σ) (p : Prog S ε α) (f : α → Prog S ε β) :
    ∀ s : σ, (p >>= f).run exec s =
      match p.run exec s with
      | (.ok a, s') => (f a).run exec s'
      | (.error e, s') => (.error e, s') := by
  induction p with
  | ret a => intro s; rfl
  | raise e => intro s; rfl
  | call op k ih => intro s; exact ih (exec op s).1 (exec op s).2

/-- Leaving out the answer changes nothing in the state. -/
theorem run_discard (exec : Exec S σ) (p : Prog S ε α) (s : σ) :
    ((do let _ ← p : Prog S ε Unit).run exec s).2 = (p.run exec s).2 := by
  rw [run_bind]
  cases h : p.run exec s with
  | mk r s' => cases r <;> rfl

/-- A sequential run of a guarded program. -/
theorem run_tryCatch (exec : Exec S σ) (p : Prog S ε α) (h : ε → Prog S ε α) :
    ∀ s : σ, (p.tryCatch h).run exec s =
      match p.run exec s with
      | (.ok a, s') => (.ok a, s')
      | (.error e, s') => (h e).run exec s' := by
  induction p with
  | ret a => intro s; rfl
  | raise e => intro s; rfl
  | call op k ih => intro s; exact ih (exec op s).1 (exec op s).2

/-- The calls a sequential run makes, each with the state it is made in. -/
def trace (exec : Exec S σ) : Prog S ε α → σ → List (σ × S.Op)
  | ret _, _ => []
  | raise _, _ => []
  | call op k, s => (s, op) :: (k (exec op s).1).trace exec (exec op s).2

/-- The calls of a sequence whose first part returns. -/
theorem trace_bind_ok (exec : Exec S σ) (p : Prog S ε α) (f : α → Prog S ε β) {a : α} {s' : σ} :
    ∀ {s : σ}, p.run exec s = (.ok a, s') →
      (p >>= f).trace exec s = p.trace exec s ++ (f a).trace exec s' := by
  induction p with
  | ret b =>
    intro s h
    cases h
    rfl
  | raise e => exact fun h => nomatch h
  | call op k ih => exact fun {s} h => congrArg ((s, op) :: ·) (ih _ h)

/-- The calls of a sequence whose first part raises. -/
theorem trace_bind_error (exec : Exec S σ) (p : Prog S ε α) (f : α → Prog S ε β) {e : ε} {s' : σ} :
    ∀ {s : σ}, p.run exec s = (.error e, s') → (p >>= f).trace exec s = p.trace exec s := by
  induction p with
  | ret b => exact fun h => nomatch h
  | raise e => exact fun _ => rfl
  | call op k ih => exact fun {s} h => congrArg ((s, op) :: ·) (ih _ h)

/-- The calls of a sequence are those of its first part and, when that
returned, those of its second part. -/
theorem mem_trace_bind (exec : Exec S σ) (p : Prog S ε α) (f : α → Prog S ε β) (c : σ × S.Op) :
    ∀ s : σ, c ∈ (p >>= f).trace exec s ↔
      c ∈ p.trace exec s
      ∨ ∃ a s', p.run exec s = (.ok a, s') ∧ c ∈ (f a).trace exec s' := by
  induction p with
  | ret a => intro s; simp [trace]
  | raise e => intro s; simp [trace]
  | call op k ih =>
    intro s
    rw [call_bind, trace, trace, List.mem_cons, List.mem_cons, ih, run_call]
    exact or_assoc.symm

/-- The next call of a program, if it is not finished. -/
def next? : Prog S ε α → Option S.Op
  | ret _ => none
  | raise _ => none
  | call op _ => some op

@[simp] theorem next?_ret (a : α) : (ret a : Prog S ε α).next? = none := rfl

@[simp] theorem next?_raise (e : ε) : (raise e : Prog S ε α).next? = none := rfl

@[simp] theorem next?_call (op : S.Op) (k : S.Res op → Prog S ε α) :
    (call op k).next? = some op := rfl

end Prog

/-! ## §3. Typestates: what a program may call next. -/

/-- What a caller is entitled to.  `may m op` says that `op` is allowed in
mode `m`, `after` is the mode the answer leads to, and `sees` is what is
known about every answer (established by the invariant of the shared
state, assumed of the program). -/
structure Typestate (S : Sig) where
  Mode : Type
  may : Mode → S.Op → Prop
  after : Mode → (op : S.Op) → S.Res op → Mode
  sees : (op : S.Op) → S.Res op → Prop

namespace Prog

variable {S : Sig} {ε α β σ : Type}

/-- `p`, started in mode `m`, only makes the calls its mode allows; it
returns in a mode satisfying `Q` and raises in a mode satisfying `E`. -/
def wp (T : Typestate S) (Q : T.Mode → α → Prop) (E : T.Mode → ε → Prop) :
    T.Mode → Prog S ε α → Prop
  | m, ret a => Q m a
  | m, raise e => E m e
  | m, call op k =>
      T.may m op ∧ ∀ r, T.sees op r → wp T Q E (T.after m op r) (k r)

variable {T : Typestate S}

@[simp] theorem wp_ret {Q : T.Mode → α → Prop} {E : T.Mode → ε → Prop} {m : T.Mode} {a : α} :
    wp T Q E m (ret a) ↔ Q m a := Iff.rfl

@[simp] theorem wp_raise {Q : T.Mode → α → Prop} {E : T.Mode → ε → Prop} {m : T.Mode} {e : ε} :
    wp T Q E m (raise e : Prog S ε α) ↔ E m e := Iff.rfl

@[simp] theorem wp_call {Q : T.Mode → α → Prop} {E : T.Mode → ε → Prop} {m : T.Mode}
    {op : S.Op} {k : S.Res op → Prog S ε α} :
    wp T Q E m (call op k) ↔
      T.may m op ∧ ∀ r, T.sees op r → wp T Q E (T.after m op r) (k r) := Iff.rfl

/-- The postconditions may be weakened. -/
theorem wp_mono {Q Q' : T.Mode → α → Prop} {E E' : T.Mode → ε → Prop}
    (hQ : ∀ m a, Q m a → Q' m a) (hE : ∀ m e, E m e → E' m e) (p : Prog S ε α) :
    ∀ m, wp T Q E m p → wp T Q' E' m p := by
  induction p with
  | ret a => intro m h; exact hQ m a h
  | raise e => intro m h; exact hE m e h
  | call op k ih => intro m h; exact ⟨h.1, fun r hr => ih r _ (h.2 r hr)⟩

/-- **Refinement rule**: a program keeps to a typestate that allows more
calls and knows more about the answers. -/
theorem wp_refine (T T' : Typestate S) (f : T.Mode → T'.Mode)
    (hmay : ∀ m op, T.may m op → T'.may (f m) op)
    (hafter : ∀ m op r, T'.after (f m) op r = f (T.after m op r))
    (hsees : ∀ op r, T'.sees op r → T.sees op r)
    {Q : T.Mode → α → Prop} {E : T.Mode → ε → Prop}
    {Q' : T'.Mode → α → Prop} {E' : T'.Mode → ε → Prop}
    (hQ : ∀ m a, Q m a → Q' (f m) a) (hE : ∀ m e, E m e → E' (f m) e) (p : Prog S ε α) :
    ∀ m, wp T Q E m p → wp T' Q' E' (f m) p := by
  induction p with
  | ret a => intro m h; exact hQ m a h
  | raise e => intro m h; exact hE m e h
  | call op k ih =>
    intro m h
    refine ⟨hmay m op h.1, fun r hr => ?_⟩
    rw [hafter]
    exact ih r _ (h.2 r (hsees op r hr))

/-- **Sequencing rule**: the mode threads through a bind. -/
theorem wp_bind {Q : T.Mode → β → Prop} {E : T.Mode → ε → Prop}
    (p : Prog S ε α) (f : α → Prog S ε β) :
    ∀ m, wp T (fun m' a => wp T Q E m' (f a)) E m p → wp T Q E m (p >>= f) := by
  induction p with
  | ret a => intro m h; exact h
  | raise e => intro m h; exact h
  | call op k ih => intro m h; exact ⟨h.1, fun r hr => ih r _ (h.2 r hr)⟩

/-- **Handler rule**: the handler starts in the mode of the raise. -/
theorem wp_tryCatch {Q : T.Mode → α → Prop} {E : T.Mode → ε → Prop}
    (p : Prog S ε α) (h : ε → Prog S ε α) :
    ∀ m, wp T Q (fun m' e => wp T Q E m' (h e)) m p → wp T Q E m (p.tryCatch h) := by
  induction p with
  | ret a => intro m hp; exact hp
  | raise e => intro m hp; exact hp
  | call op k ih => intro m hp; exact ⟨hp.1, fun r hr => ih r _ (hp.2 r hr)⟩

/-- `p` makes only calls that satisfy `ok`, whatever they answer. -/
def Calls (ok : S.Op → Prop) : Prog S ε α → Prop
  | ret _ => True
  | raise _ => True
  | call op k => ok op ∧ ∀ r, (k r).Calls ok

@[simp] theorem calls_ret {ok : S.Op → Prop} {a : α} : (ret a : Prog S ε α).Calls ok :=
  trivial

@[simp] theorem calls_raise {ok : S.Op → Prop} {e : ε} : (raise e : Prog S ε α).Calls ok :=
  trivial

@[simp] theorem calls_call {ok : S.Op → Prop} {op : S.Op} {k : S.Res op → Prog S ε α} :
    (call op k).Calls ok ↔ ok op ∧ ∀ r, (k r).Calls ok := Iff.rfl

theorem calls_bind {ok : S.Op → Prop} {p : Prog S ε α} {f : α → Prog S ε β}
    (hp : p.Calls ok) (hf : ∀ a, (f a).Calls ok) : (p >>= f).Calls ok := by
  induction p with
  | ret a => exact hf a
  | raise e => trivial
  | call op k ih => exact ⟨hp.1, fun r => ih r (hp.2 r)⟩

theorem calls_tryCatch {ok : S.Op → Prop} {p : Prog S ε α} {h : ε → Prog S ε α}
    (hp : p.Calls ok) (hh : ∀ e, (h e).Calls ok) : (p.tryCatch h).Calls ok := by
  induction p with
  | ret a => trivial
  | raise e => exact hh e
  | call op k ih => exact ⟨hp.1, fun r => ih r (hp.2 r)⟩

theorem calls_mono {ok ok' : S.Op → Prop} (h : ∀ op, ok op → ok' op) {p : Prog S ε α}
    (hp : p.Calls ok) : p.Calls ok' := by
  induction p with
  | ret a => trivial
  | raise e => trivial
  | call op k ih => exact ⟨h op hp.1, fun r => ih r (hp.2 r)⟩

/-- **Frame rule**: a program whose calls are allowed in every mode of `M`
and lead from `M` to `M` stays in `M`. -/
theorem wp_within (M : T.Mode → Prop) {ok : S.Op → Prop} {Q : T.Mode → α → Prop}
    {E : T.Mode → ε → Prop}
    (hok : ∀ m op, M m → ok op → T.may m op ∧ ∀ r, M (T.after m op r))
    (hQ : ∀ m a, M m → Q m a) (hE : ∀ m e, M m → E m e) {p : Prog S ε α} (hp : p.Calls ok) :
    ∀ m, M m → wp T Q E m p := by
  induction p with
  | ret a => exact fun m hm => hQ m a hm
  | raise e => exact fun m hm => hE m e hm
  | call op k ih =>
    intro m hm
    obtain ⟨hmay, hafter⟩ := hok m op hm hp.1
    exact ⟨hmay, fun r _ => ih r (hp.2 r) _ (hafter r)⟩

/-- The frame rule for a single mode. -/
theorem wp_of_calls {ok : S.Op → Prop} {Q : T.Mode → α → Prop} {E : T.Mode → ε → Prop}
    {m : T.Mode} (hok : ∀ op, ok op → T.may m op ∧ ∀ r, T.after m op r = m)
    (hQ : ∀ a, Q m a) (hE : ∀ e, E m e) {p : Prog S ε α} (hp : p.Calls ok) :
    wp T Q E m p :=
  wp_within (· = m) (fun _ op hm hop => hm ▸ hok op hop) (fun _ a hm => hm ▸ hQ a)
    (fun _ e hm => hm ▸ hE e) hp m rfl

/-- What a sequential run keeps: an invariant kept by every call of the
program holds in the end. -/
theorem run_keeps {ok : S.Op → Prop} {exec : Exec S σ} {I : σ → Prop}
    (hstep : ∀ op s, ok op → I s → I (exec op s).2) {p : Prog S ε α} (hp : p.Calls ok) :
    ∀ s, I s → I (p.run exec s).2 := by
  induction p with
  | ret a => exact fun _ hs => hs
  | raise e => exact fun _ hs => hs
  | call op k ih =>
    intro s hs
    exact ih _ (hp.2 _) _ (hstep op s hp.1 hs)

/-- Every call of a run is one that the program may make. -/
theorem trace_calls {ok : S.Op → Prop} {exec : Exec S σ} {p : Prog S ε α} (hp : p.Calls ok) :
    ∀ s, ∀ c ∈ p.trace exec s, ok c.2 := by
  induction p with
  | ret a => exact fun s => nofun
  | raise e => exact fun s => nofun
  | call op k ih =>
    intro s c hc
    rcases List.mem_cons.mp hc with rfl | hc
    · exact hp.1
    · exact ih _ (hp.2 _) _ c hc

/-- **Sequential runs of a program that obeys a typestate.**  An invariant of
the state and the mode that every permitted call re-establishes holds in the
end, and every call of the run is made in a mode that allows it and in a
state that satisfies the invariant.  `P` is a condition on the calls of the
run. -/
theorem wp_run_trace {exec : Exec S σ} {P : σ → S.Op → Prop} {I : σ → T.Mode → Prop}
    {Q : T.Mode → α → Prop} {E : T.Mode → ε → Prop}
    (hcall : ∀ s m op, I s m → T.may m op → P s op →
      T.sees op (exec op s).1 ∧ I (exec op s).2 (T.after m op (exec op s).1))
    (p : Prog S ε α) : ∀ m s, I s m → wp T Q E m p → (∀ c ∈ p.trace exec s, P c.1 c.2) →
      (∃ m', I (p.run exec s).2 m') ∧ ∀ c ∈ p.trace exec s, ∃ m', I c.1 m' ∧ T.may m' c.2 := by
  induction p with
  | ret a => exact fun m s hI _ _ => ⟨⟨m, hI⟩, nofun⟩
  | raise e => exact fun m s hI _ _ => ⟨⟨m, hI⟩, nofun⟩
  | call op k ih =>
    intro m s hI h hP
    have hhead : P s op := hP (s, op) List.mem_cons_self
    obtain ⟨hsees, hI'⟩ := hcall s m op hI h.1 hhead
    obtain ⟨hend, hrest⟩ := ih _ _ _ hI' (h.2 _ hsees)
      (fun c hc => hP c (List.mem_cons_of_mem _ hc))
    refine ⟨hend, fun c hc => ?_⟩
    rcases List.mem_cons.mp hc with rfl | hc
    · exact ⟨m, hI, h.1⟩
    · exact hrest c hc

/-- What such a run keeps, when the invariant needs no condition. -/
theorem wp_run {exec : Exec S σ} {I : σ → T.Mode → Prop}
    {Q : T.Mode → α → Prop} {E : T.Mode → ε → Prop}
    (hcall : ∀ s m op, I s m → T.may m op →
      T.sees op (exec op s).1 ∧ I (exec op s).2 (T.after m op (exec op s).1))
    (p : Prog S ε α) (m : T.Mode) (s : σ) (hI : I s m) (h : wp T Q E m p) :
    ∃ m', I (p.run exec s).2 m' :=
  (wp_run_trace (P := fun _ _ => True) (fun s m op hI hmay _ => hcall s m op hI hmay) p m s hI h
    (fun _ _ => trivial)).1

/-- **Sequential runs of a program that obeys a typestate**, with what holds
when the run has returned or raised. -/
theorem wp_run_post {exec : Exec S σ} {I : σ → T.Mode → Prop} {Q : T.Mode → α → Prop}
    {E : T.Mode → ε → Prop}
    (hcall : ∀ s m op, I s m → T.may m op →
      T.sees op (exec op s).1 ∧ I (exec op s).2 (T.after m op (exec op s).1))
    (p : Prog S ε α) : ∀ m s, I s m → wp T Q E m p →
      ∃ m', I (p.run exec s).2 m' ∧ (∀ a, (p.run exec s).1 = .ok a → Q m' a)
        ∧ ∀ e, (p.run exec s).1 = .error e → E m' e := by
  induction p with
  | ret a =>
    intro m s hI h
    refine ⟨m, hI, fun a' ha' => ?_, fun e he => ?_⟩
    · cases ha'
      exact wp_ret.mp h
    · cases he
  | raise e =>
    intro m s hI h
    refine ⟨m, hI, fun a ha => ?_, fun e' he' => ?_⟩
    · cases ha
    · cases he'
      exact wp_raise.mp h
  | call op k ih =>
    intro m s hI h
    obtain ⟨hmay, hk⟩ := wp_call.mp h
    obtain ⟨hsees, hI'⟩ := hcall s m op hI hmay
    exact ih _ _ _ hI' (hk _ hsees)
/-- A quantity that no call lowers is at most what it is in the end. -/
theorem trace_le_run {exec : Exec S σ} (μ : σ → Nat) (hmono : ∀ op s, μ s ≤ μ (exec op s).2)
    (p : Prog S ε α) : ∀ s, μ s ≤ μ (p.run exec s).2
      ∧ ∀ c ∈ p.trace exec s, μ (exec c.2 c.1).2 ≤ μ (p.run exec s).2 := by
  induction p with
  | ret a => exact fun s => ⟨Nat.le_refl _, nofun⟩
  | raise e => exact fun s => ⟨Nat.le_refl _, nofun⟩
  | call op k ih =>
    intro s
    obtain ⟨hle, hrest⟩ := ih (exec op s).1 (exec op s).2
    refine ⟨Nat.le_trans (hmono op s) hle, fun c hc => ?_⟩
    rcases List.mem_cons.mp hc with rfl | hc
    · exact hle
    · exact hrest c hc

-- A goal about a program is taken apart by the rules above, never by
-- evaluating the program.
attribute [irreducible] Calls wp

end Prog

end Hmn.Framework
