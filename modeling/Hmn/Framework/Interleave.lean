/-
  Hmn.Framework.Interleave — any number of callers over one shared state.

  A configuration is the shared state and, for every caller, the program
  it still has to run.  One step executes ONE atomic call of one caller;
  a schedule (a list of callers) is an interleaving at the granularity of
  atomic calls.  Callers are indexed by an arbitrary type and schedules are
  arbitrary lists, so a theorem about every schedule is a theorem about
  every order of every number of callers.

  Main results:
    * `heeds_induct`, `run_induct` — an invariant preserved by every step
      holds after every run,
    * `heeds_typestate`, `run_typestate` — the rely-guarantee rule: each caller is described
      by its typestate alone, and the invariant relates the shared state,
      the modes and a history variable,
    * `run_shared` — its special case for invariants of the shared state.

  `Respects` restricts the steps of a run (a condition on the shared state
  and the call about to be made); `history` folds a ghost variable over the
  calls a run makes, and `Heeds` restricts the steps with its help.
-/
import Hmn.Framework.Prog

namespace Hmn.Framework

/-- The shared state and what every caller still has to run. -/
structure Config (ι : Type) (S : Sig) (ε α σ : Type) where
  shared : σ
  callers : ι → Prog S ε α

namespace Config

variable {ι : Type} [DecidableEq ι] {S : Sig} {ε α σ γ : Type}

/-! ## §1. Steps and runs. -/

/-- One atomic call of caller `i`; nothing when `i` has finished. -/
def step (exec : Prog.Exec S σ) (c : Config ι S ε α σ) (i : ι) : Config ι S ε α σ :=
  match c.callers i with
  | .ret _ => c
  | .raise _ => c
  | .call op k =>
      { shared := (exec op c.shared).2
        callers := Function.update c.callers i (k (exec op c.shared).1) }

/-- Run a schedule. -/
def run (exec : Prog.Exec S σ) (c : Config ι S ε α σ) : List ι → Config ι S ε α σ
  | [] => c
  | i :: sched => run exec (c.step exec i) sched

/-- A history variable after the next call of caller `i`. -/
def remember (f : γ → ι → σ → S.Op → γ) (g : γ) (c : Config ι S ε α σ) (i : ι) : γ :=
  match (c.callers i).next? with
  | none => g
  | some op => f g i c.shared op

/-- A history variable, folded over the calls of a run with the caller, the
state before the call and the call. -/
def history (exec : Prog.Exec S σ) (f : γ → ι → σ → S.Op → γ) :
    γ → Config ι S ε α σ → List ι → γ
  | g, _, [] => g
  | g, c, i :: sched => history exec f (remember f g c i) (c.step exec i) sched

/-- Every call a run makes satisfies the condition `P` in the state it is
made in and with what the run remembers so far. -/
def Heeds (exec : Prog.Exec S σ) (f : γ → ι → σ → S.Op → γ) (P : γ → ι → σ → S.Op → Prop) :
    γ → Config ι S ε α σ → List ι → Prop
  | _, _, [] => True
  | g, c, i :: sched =>
      (∀ op, (c.callers i).next? = some op → P g i c.shared op)
        ∧ Heeds exec f P (remember f g c i) (c.step exec i) sched

/-- Every call a run makes satisfies the condition `P` in the state it is
made in. -/
def Respects (exec : Prog.Exec S σ) (P : ι → σ → S.Op → Prop) :
    Config ι S ε α σ → List ι → Prop
  | _, [] => True
  | c, i :: sched =>
      (∀ op, (c.callers i).next? = some op → P i c.shared op)
        ∧ Respects exec P (c.step exec i) sched

/-- Whether the next call of a program satisfies a condition. -/
instance decidableNext (P : S.Op → Prop) [DecidablePred P] (p : Prog S ε α) :
    Decidable (∀ op, p.next? = some op → P op) :=
  match p.next? with
  | none => isTrue (fun _ h => nomatch h)
  | some op => decidable_of_iff (P op) ⟨fun h _ e => Option.some.inj e ▸ h, fun h => h op rfl⟩

/-- Whether a run heeds a decidable condition. -/
instance decidableHeeds (exec : Prog.Exec S σ) (f : γ → ι → σ → S.Op → γ)
    (P : γ → ι → σ → S.Op → Prop) [∀ g i s op, Decidable (P g i s op)] :
    ∀ (g : γ) (c : Config ι S ε α σ) (sched : List ι), Decidable (c.Heeds exec f P g sched)
  | _, _, [] => isTrue trivial
  | g, c, i :: sched =>
      have := decidableHeeds exec f P (remember f g c i) (c.step exec i) sched
      inferInstanceAs (Decidable ((∀ op, (c.callers i).next? = some op → P g i c.shared op)
        ∧ Heeds exec f P (remember f g c i) (c.step exec i) sched))

/-- Whether a run respects a decidable condition. -/
instance decidableRespects (exec : Prog.Exec S σ) (P : ι → σ → S.Op → Prop)
    [∀ i s op, Decidable (P i s op)] : ∀ (c : Config ι S ε α σ) (sched : List ι),
    Decidable (c.Respects exec P sched)
  | _, [] => isTrue trivial
  | c, i :: sched =>
      have := decidableRespects exec P (c.step exec i) sched
      inferInstanceAs (Decidable ((∀ op, (c.callers i).next? = some op → P i c.shared op)
        ∧ Respects exec P (c.step exec i) sched))

/-- How many of the calls of a run satisfy `p`. -/
def tally (exec : Prog.Exec S σ) (p : ι → S.Op → Bool) (c : Config ι S ε α σ)
    (sched : List ι) : Nat :=
  history exec (fun n i _ op => if p i op then n + 1 else n) 0 c sched

variable {exec : Prog.Exec S σ}

theorem step_of_next?_none {c : Config ι S ε α σ} {i : ι}
    (h : (c.callers i).next? = none) : c.step exec i = c := by
  unfold step
  cases hp : c.callers i with
  | ret a => rfl
  | raise e => rfl
  | call op k => simp [hp] at h

theorem step_of_call {c : Config ι S ε α σ} {i : ι} {op : S.Op}
    {k : S.Res op → Prog S ε α} (h : c.callers i = .call op k) :
    c.step exec i =
      { shared := (exec op c.shared).2
        callers := Function.update c.callers i (k (exec op c.shared).1) } := by
  unfold step
  rw [h]

theorem run_append (c : Config ι S ε α σ) (pre post : List ι) :
    c.run exec (pre ++ post) = (c.run exec pre).run exec post := by
  induction pre generalizing c with
  | nil => rfl
  | cons i pre ih => exact ih (c.step exec i)

theorem respects_append {P : ι → σ → S.Op → Prop} (c : Config ι S ε α σ)
    (pre post : List ι) :
    c.Respects exec P (pre ++ post) ↔
      c.Respects exec P pre ∧ (c.run exec pre).Respects exec P post := by
  induction pre generalizing c with
  | nil => simp [Respects, run]
  | cons i pre ih =>
    simp only [List.cons_append, Respects, run, ih]
    exact and_assoc.symm

theorem respects_mono {P P' : ι → σ → S.Op → Prop} (h : ∀ i s op, P i s op → P' i s op)
    {c : Config ι S ε α σ} {sched : List ι} (hP : c.Respects exec P sched) :
    c.Respects exec P' sched := by
  induction sched generalizing c with
  | nil => trivial
  | cons i sched ih => exact ⟨fun op hop => h i _ op (hP.1 op hop), ih hP.2⟩

theorem respects_true (c : Config ι S ε α σ) (sched : List ι) :
    c.Respects exec (fun _ _ _ => True) sched := by
  induction sched generalizing c with
  | nil => trivial
  | cons i sched ih => exact ⟨fun _ _ => trivial, ih _⟩

theorem history_append (f : γ → ι → σ → S.Op → γ) (g : γ) (c : Config ι S ε α σ)
    (pre post : List ι) :
    history exec f g c (pre ++ post) =
      history exec f (history exec f g c pre) (c.run exec pre) post := by
  induction pre generalizing c g with
  | nil => rfl
  | cons i pre ih => exact ih _ (c.step exec i)

theorem heeds_append {f : γ → ι → σ → S.Op → γ} {P : γ → ι → σ → S.Op → Prop} (g : γ)
    (c : Config ι S ε α σ) (pre post : List ι) :
    c.Heeds exec f P g (pre ++ post) ↔
      c.Heeds exec f P g pre ∧ (c.run exec pre).Heeds exec f P (history exec f g c pre) post := by
  induction pre generalizing c g with
  | nil => simp [Heeds, run, history]
  | cons i pre ih =>
    simp only [List.cons_append, Heeds, run, history, ih]
    exact and_assoc.symm

theorem heeds_of_respects {f : γ → ι → σ → S.Op → γ} {P : ι → σ → S.Op → Prop} (g : γ)
    {c : Config ι S ε α σ} {sched : List ι} (h : c.Respects exec P sched) :
    c.Heeds exec f (fun _ => P) g sched := by
  induction sched generalizing c g with
  | nil => trivial
  | cons i sched ih => exact ⟨h.1, ih _ h.2⟩

/-! ## §2. The induction rules. -/

/-- **The run rule**: what every permitted step preserves, every permitted
run preserves.  Both the invariant and the condition may mention the history
variable. -/
theorem heeds_induct {f : γ → ι → σ → S.Op → γ} {P : γ → ι → σ → S.Op → Prop}
    (J : Config ι S ε α σ → γ → Prop)
    (hstep : ∀ (c : Config ι S ε α σ) (g : γ) (i : ι) (op : S.Op) (k : S.Res op → Prog S ε α),
      J c g → c.callers i = .call op k → P g i c.shared op →
        J (c.step exec i) (f g i c.shared op))
    (sched : List ι) : ∀ (c : Config ι S ε α σ) (g : γ), J c g → c.Heeds exec f P g sched →
      J (c.run exec sched) (history exec f g c sched) := by
  induction sched with
  | nil => intro c g hJ _; exact hJ
  | cons i sched ih =>
    intro c g hJ hP
    obtain ⟨hhead, htail⟩ := hP
    refine ih (c.step exec i) (remember f g c i) ?_ htail
    unfold remember
    cases hp : c.callers i with
    | call op k => exact hstep c g i op k hJ hp (hhead op (by rw [hp]; rfl))
    | ret a => rwa [step_of_next?_none (by rw [hp]; rfl)]
    | raise e => rwa [step_of_next?_none (by rw [hp]; rfl)]

/-- What an invariant implies of the call about to be made, every call of a
permitted run satisfies. -/
theorem respects_induct {f : γ → ι → σ → S.Op → γ} {P : γ → ι → σ → S.Op → Prop}
    {P' : ι → σ → S.Op → Prop} (J : Config ι S ε α σ → γ → Prop)
    (hstep : ∀ (c : Config ι S ε α σ) (g : γ) (i : ι) (op : S.Op) (k : S.Res op → Prog S ε α),
      J c g → c.callers i = .call op k → P g i c.shared op →
        J (c.step exec i) (f g i c.shared op))
    (hcall : ∀ (c : Config ι S ε α σ) (g : γ) (i : ι) (op : S.Op), J c g →
      (c.callers i).next? = some op → P g i c.shared op → P' i c.shared op)
    (sched : List ι) : ∀ (c : Config ι S ε α σ) (g : γ), J c g → c.Heeds exec f P g sched →
      c.Respects exec P' sched := by
  induction sched with
  | nil => exact fun _ _ _ _ => trivial
  | cons i sched ih =>
    intro c g hJ hP
    refine ⟨fun op hop => hcall c g i op hJ hop (hP.1 op hop), ih _ _ ?_ hP.2⟩
    exact heeds_induct J hstep [i] c g hJ ⟨hP.1, trivial⟩

theorem shared_step {c : Config ι S ε α σ} {i : ι} {op : S.Op}
    (h : (c.callers i).next? = some op) : (c.step exec i).shared = (exec op c.shared).2 := by
  cases hp : c.callers i with
  | call op' k =>
    rw [hp, Prog.next?_call, Option.some.injEq] at h
    subst h
    rw [step_of_call hp]
  | ret a => simp [hp] at h
  | raise e => simp [hp] at h

/-- A preorder in which every call goes up relates the state before a run to
the state after it. -/
theorem run_rel {R : σ → σ → Prop} (hrefl : ∀ s, R s s)
    (htrans : ∀ s s' s'', R s s' → R s' s'' → R s s'') (hcall : ∀ op s, R s (exec op s).2)
    (sched : List ι) : ∀ c : Config ι S ε α σ, R c.shared (c.run exec sched).shared := by
  induction sched with
  | nil => exact fun c => hrefl c.shared
  | cons i sched ih =>
    intro c
    refine htrans _ _ _ ?_ (ih (c.step exec i))
    cases hnext : (c.callers i).next? with
    | none =>
      have hstays : c.step exec i = c := step_of_next?_none hnext
      exact hstays.symm ▸ hrefl c.shared
    | some op => exact shared_step hnext ▸ hcall op c.shared

/-- A quantity that no call lowers is at most what it is in the end. -/
theorem respects_le_run (μ : σ → Nat) (hmono : ∀ op s, μ s ≤ μ (exec op s).2)
    (sched : List ι) : ∀ c : Config ι S ε α σ,
      μ c.shared ≤ μ (c.run exec sched).shared
      ∧ c.Respects exec (fun _ s op => μ (exec op s).2 ≤ μ (c.run exec sched).shared) sched := by
  induction sched with
  | nil => exact fun c => ⟨Nat.le_refl _, trivial⟩
  | cons i sched ih =>
    intro c
    obtain ⟨hle, hrest⟩ := ih (c.step exec i)
    refine ⟨Nat.le_trans ?_ hle, fun op hop => ?_, hrest⟩
    · cases hn : (c.callers i).next? with
      | none => exact Nat.le_of_eq (by rw [step_of_next?_none hn])
      | some op => exact shared_step hn ▸ hmono op c.shared
    · exact Nat.le_trans (Nat.le_of_eq (congrArg μ (shared_step hop).symm)) hle

/-- The run rule for a condition on the shared state alone. -/
theorem run_induct {P : ι → σ → S.Op → Prop} {f : γ → ι → σ → S.Op → γ}
    (J : Config ι S ε α σ → γ → Prop)
    (hstep : ∀ (c : Config ι S ε α σ) (g : γ) (i : ι) (op : S.Op) (k : S.Res op → Prog S ε α),
      J c g → c.callers i = .call op k → P i c.shared op →
        J (c.step exec i) (f g i c.shared op))
    (sched : List ι) (c : Config ι S ε α σ) (g : γ) (hJ : J c g) (hP : c.Respects exec P sched) :
    J (c.run exec sched) (history exec f g c sched) :=
  heeds_induct J hstep sched c g hJ (heeds_of_respects g hP)

/-- What the typestate rule maintains: the invariant of the shared state,
the modes and the history, and that every caller obeys its mode and can
only finish in a mode that `Q` (on a return) or `E` (on a raise) allows. -/
def Governed (T : Typestate S) (Q E : T.Mode → Prop)
    (I : σ → (ι → T.Mode) → γ → Prop) (c : Config ι S ε α σ) (g : γ) : Prop :=
  ∃ m : ι → T.Mode, I c.shared m g
    ∧ ∀ i, (c.callers i).wp T (fun m' _ => Q m') (fun m' _ => E m') (m i)

/-- One step of the rely-guarantee rule. -/
theorem governed_step (T : Typestate S) {Q E : T.Mode → Prop} {P : γ → ι → σ → S.Op → Prop}
    {f : γ → ι → σ → S.Op → γ} (I : σ → (ι → T.Mode) → γ → Prop)
    (hcall : ∀ s m g i op, I s m g → T.may (m i) op → P g i s op →
      T.sees op (exec op s).1
        ∧ I (exec op s).2 (Function.update m i (T.after (m i) op (exec op s).1)) (f g i s op))
    (c : Config ι S ε α σ) (g : γ) (i : ι) (op : S.Op) (k : S.Res op → Prog S ε α)
    (h : Governed T Q E I c g) (hp : c.callers i = .call op k) (hPi : P g i c.shared op) :
    Governed T Q E I (c.step exec i) (f g i c.shared op) := by
  obtain ⟨m, hI, hobey⟩ := h
  have hi := hobey i
  rw [hp, Prog.wp_call] at hi
  obtain ⟨hsees, hI'⟩ := hcall c.shared m g i op hI hi.1 hPi
  refine ⟨Function.update m i (T.after (m i) op (exec op c.shared).1), ?_, ?_⟩
  · rw [step_of_call hp]
    exact hI'
  · intro j
    rw [step_of_call hp]
    by_cases hj : j = i
    · subst hj
      simpa using hi.2 _ hsees
    · simpa [Function.update_of_ne hj] using hobey j

/-- **The rely-guarantee rule.**  It is enough to check every call once, in
every mode that allows it: the answer is one the typestate expects and the
invariant is re-established with the caller in its next mode. -/
theorem heeds_typestate (T : Typestate S) {Q E : T.Mode → Prop} {P : γ → ι → σ → S.Op → Prop}
    {f : γ → ι → σ → S.Op → γ} (I : σ → (ι → T.Mode) → γ → Prop)
    (hcall : ∀ s m g i op, I s m g → T.may (m i) op → P g i s op →
      T.sees op (exec op s).1
        ∧ I (exec op s).2 (Function.update m i (T.after (m i) op (exec op s).1)) (f g i s op))
    (sched : List ι) (c : Config ι S ε α σ) (g : γ) (h : Governed T Q E I c g)
    (hP : c.Heeds exec f P g sched) :
    Governed T Q E I (c.run exec sched) (history exec f g c sched) :=
  heeds_induct (Governed T Q E I) (governed_step T I hcall) sched c g h hP

/-- What the rely-guarantee rule says of every call of a run: it is made in a
mode that allows it and in a state that satisfies the invariant. -/
theorem respects_typestate (T : Typestate S) {Q E : T.Mode → Prop} {P P' : ι → σ → S.Op → Prop}
    {f : γ → ι → σ → S.Op → γ} (I : σ → (ι → T.Mode) → γ → Prop)
    (hcall : ∀ s m g i op, I s m g → T.may (m i) op → P i s op →
      T.sees op (exec op s).1
        ∧ I (exec op s).2 (Function.update m i (T.after (m i) op (exec op s).1)) (f g i s op))
    (hmade : ∀ s m g i op, I s m g → T.may (m i) op → P i s op → P' i s op)
    (sched : List ι) (c : Config ι S ε α σ) (g : γ) (h : Governed T Q E I c g)
    (hP : c.Respects exec P sched) : c.Respects exec P' sched := by
  refine respects_induct (Governed T Q E I) (governed_step T I hcall) ?_ sched c g h
    (heeds_of_respects g hP)
  rintro c g i op ⟨m, hI, hobey⟩ hop hPi
  have hi := hobey i
  cases hp : c.callers i with
  | call op' k =>
    rw [hp, Prog.next?_call, Option.some.injEq] at hop
    rw [hp, Prog.wp_call] at hi
    exact hmade c.shared m g i op hI (hop ▸ hi.1) hPi
  | ret a => simp [hp] at hop
  | raise e => simp [hp] at hop

/-- The rely-guarantee rule for a condition on the shared state alone. -/
theorem run_typestate (T : Typestate S) {Q E : T.Mode → Prop} {P : ι → σ → S.Op → Prop}
    {f : γ → ι → σ → S.Op → γ} (I : σ → (ι → T.Mode) → γ → Prop)
    (hcall : ∀ s m g i op, I s m g → T.may (m i) op → P i s op →
      T.sees op (exec op s).1
        ∧ I (exec op s).2 (Function.update m i (T.after (m i) op (exec op s).1)) (f g i s op))
    (sched : List ι) (c : Config ι S ε α σ) (g : γ) (h : Governed T Q E I c g)
    (hP : c.Respects exec P sched) :
    Governed T Q E I (c.run exec sched) (history exec f g c sched) :=
  heeds_typestate T I hcall sched c g h (heeds_of_respects g hP)

/-- The calls a caller may make, with what it may assume of the answers:
the typestate with a single mode. -/
abbrev onlyCalls (ok : S.Op → Prop) (sees : (op : S.Op) → S.Res op → Prop) : Typestate S where
  Mode := Unit
  may _ op := ok op
  after _ _ _ := ()
  sees := sees

/-- A caller that only makes the calls `ok`. -/
def OnlyCalls (ok : S.Op → Prop) (sees : (op : S.Op) → S.Res op → Prop)
    (p : Prog S ε α) : Prop :=
  p.wp (onlyCalls ok sees) (fun _ _ => True) (fun _ _ => True) ()

/-- **Invariants of the shared state alone**, with a history variable. -/
theorem run_shared {P : ι → σ → S.Op → Prop} {f : γ → ι → σ → S.Op → γ}
    {ok : S.Op → Prop} {sees : (op : S.Op) → S.Res op → Prop} (I : σ → γ → Prop)
    (hcall : ∀ s g i op, I s g → ok op → P i s op →
      sees op (exec op s).1 ∧ I (exec op s).2 (f g i s op))
    (sched : List ι) (c : Config ι S ε α σ) (g : γ) (hI : I c.shared g)
    (hok : ∀ i, OnlyCalls ok sees (c.callers i)) (hP : c.Respects exec P sched) :
    I (c.run exec sched).shared (history exec f g c sched)
      ∧ ∀ i, OnlyCalls ok sees ((c.run exec sched).callers i) := by
  have hgov : Governed (onlyCalls ok sees) (fun _ => True) (fun _ => True)
      (fun s _ g => I s g) c g := ⟨fun _ => (), hI, hok⟩
  obtain ⟨m, hI', hok'⟩ := run_typestate (onlyCalls ok sees) (fun s _ g => I s g)
    (fun s _ g i op hs hmay hPi => hcall s g i op hs hmay hPi) sched c g hgov hP
  exact ⟨hI', hok'⟩

/-! ## §3. The first calls of one caller. -/

/-- `Q` holds of `p` and of what is left of it after each of its first `n`
calls, whatever they answer. -/
def Upto (Q : Prog S ε α → Prop) : Nat → Prog S ε α → Prop
  | 0, p => Q p
  | n + 1, p => Q p ∧ ∀ op k, p = .call op k → ∀ r, Upto Q n (k r)

theorem upto_self {Q : Prog S ε α → Prop} {n : Nat} {p : Prog S ε α} (h : Upto Q n p) : Q p := by
  cases n with
  | zero => exact h
  | succ n => exact h.1

theorem upto_raise {Q : Prog S ε α → Prop} {n : Nat} {e : ε} (h : Q (.raise e)) :
    Upto Q n (.raise e) := by
  cases n with
  | zero => exact h
  | succ n => exact ⟨h, nofun⟩

theorem upto_call {Q : Prog S ε α → Prop} {n : Nat} {op : S.Op} {k : S.Res op → Prog S ε α}
    (h : Q (.call op k)) (hk : ∀ r, Upto Q n (k r)) : Upto Q (n + 1) (.call op k) := by
  refine ⟨h, fun op' k' hp r => ?_⟩
  cases hp
  exact hk r

/-- A caller that made at most `n` calls in a run is still within its first
`n` calls, and so was it at each of them. -/
theorem upto_run {Q : Prog S ε α → Prop} {i : ι} (sched : List ι) :
    ∀ (c : Config ι S ε α σ) (n : Nat), Upto Q n (c.callers i) → sched.count i ≤ n →
      Q ((c.run exec sched).callers i)
      ∧ c.Respects exec (fun j _ op => j = i → ∃ p, p.next? = some op ∧ Q p) sched := by
  induction sched with
  | nil => exact fun c n h _ => ⟨upto_self h, trivial⟩
  | cons j sched ih =>
    intro c n h hn
    have hhead : ∀ op, (c.callers j).next? = some op → j = i → ∃ p, p.next? = some op ∧ Q p :=
      fun op hop hj => ⟨c.callers i, hj ▸ hop, upto_self h⟩
    by_cases hj : j = i
    · subst hj
      rw [List.count_cons_self] at hn
      cases hp : c.callers j with
      | call op k =>
        obtain ⟨m, rfl⟩ : ∃ m, n = m + 1 := ⟨n - 1, by omega⟩
        have hrest : Upto Q m ((c.step exec j).callers j) := by
          rw [step_of_call hp]
          simpa using h.2 op k hp _
        obtain ⟨hQ, hR⟩ := ih (c.step exec j) m hrest (by omega)
        exact ⟨hQ, hhead, hR⟩
      | ret a =>
        have hsame : c.step exec j = c := step_of_next?_none (by rw [hp]; rfl)
        obtain ⟨hQ, hR⟩ := ih (c.step exec j) n (by rwa [hsame]) (by omega)
        exact ⟨hQ, hhead, hR⟩
      | raise e =>
        have hsame : c.step exec j = c := step_of_next?_none (by rw [hp]; rfl)
        obtain ⟨hQ, hR⟩ := ih (c.step exec j) n (by rwa [hsame]) (by omega)
        exact ⟨hQ, hhead, hR⟩
    · rw [List.count_cons_of_ne hj] at hn
      have hsame : (c.step exec j).callers i = c.callers i := by
        unfold step
        cases c.callers j with
        | call op k => simp [Function.update_of_ne (Ne.symm hj)]
        | ret a => rfl
        | raise e => rfl
      obtain ⟨hQ, hR⟩ := ih (c.step exec j) n (by rwa [hsame]) hn
      exact ⟨hQ, hhead, hR⟩

end Config

end Hmn.Framework
