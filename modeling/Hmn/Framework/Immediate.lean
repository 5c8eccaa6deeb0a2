/-
  Hmn.Framework.Immediate — transactions that begin with `BEGIN IMMEDIATE`.

  Such a transaction takes the write lock before its first statement and
  keeps it to its end, so the statements of two of them never mix.  A caller
  here opens a connection, begins, runs the statements of its body, commits
  and closes; each of these is one atomic call, and calls of other callers
  come in between.

  Main result: `immediate_serializable` — whatever the interleaving, the
  committed state is what the bodies of the callers that committed leave when
  they run one after the other, each of them once, and every caller that
  returned is one of them.
-/
import Hmn.Framework.Interleave
import Hmn.Framework.Journal
import Mathlib.Data.List.Nodup

namespace Hmn.Framework

/-! ## §1. Bodies. -/

/-- The calls of a body: statements of the database, and questions to the
world outside. -/
abbrev bodySig (S O : Sig) : Sig := ⟨S.Op ⊕ O.Op, Sum.elim S.Res O.Res⟩

section Bodies

variable {S O : Sig} {ε α β δ : Type}

/-- One statement. -/
def statement (op : S.Op) : Prog (bodySig S O) ε (S.Res op) :=
  Prog.lift (S := bodySig S O) (.inl op)

/-- One question. -/
def ask (op : O.Op) : Prog (bodySig S O) ε (O.Res op) := Prog.lift (S := bodySig S O) (.inr op)

@[simp] theorem statement_bind (op : S.Op) (f : S.Res op → Prog (bodySig S O) ε α) :
    (statement op >>= f) = Prog.call (S := bodySig S O) (.inl op) f := rfl

@[simp] theorem ask_bind (op : O.Op) (f : O.Res op → Prog (bodySig S O) ε α) :
    (ask op >>= f) = Prog.call (S := bodySig S O) (.inr op) f := rfl

/-- What a body that runs alone on `db` can answer and leave; the questions
may be answered in any way. -/
def Yields (exec : Prog.Exec S δ) : Prog (bodySig S O) ε α → δ → Except ε α → δ → Prop
  | .ret a, db, r, db' => r = .ok a ∧ db' = db
  | .raise e, db, r, db' => r = .error e ∧ db' = db
  | .call (.inl op) k, db, r, db' => Yields exec (k (exec op db).1) (exec op db).2 r db'
  | .call (.inr _) k, db, r, db' => ∃ a, Yields exec (k a) db r db'

end Bodies

/-! ## §2. Transactions. -/

inductive TxOp (S O : Sig) where
  | connect
  | beginImmediate (conn : Nat)
  | execute (conn : Nat) (op : S.Op)
  | ask (op : O.Op)
  | commit (conn : Nat)
  | close (conn : Nat)

@[reducible] def TxOp.Res {S O : Sig} : TxOp S O → Type
  | .connect => Nat
  | .beginImmediate _ => Bool
  | .execute _ op => S.Res op
  | .ask op => O.Res op
  | .commit _ => Unit
  | .close _ => Unit

/-- The calls of a transaction. -/
abbrev txSig (S O : Sig) : Sig := ⟨TxOp S O, TxOp.Res⟩

/-- The database, the world outside, and how many connections were opened. -/
structure TxWorld (δ ω : Type) where
  journal : Journal δ
  outside : ω
  connections : Nat := 0

section Transactions

variable {S O : Sig} {ε α δ ω : Type}

/-- What each call does.  `BEGIN IMMEDIATE` is refused while a transaction is
open; a statement works on the open copy of its connection. -/
def execTx (execS : Prog.Exec S δ) (execO : Prog.Exec O ω) : Prog.Exec (txSig S O) (TxWorld δ ω)
  | .connect, w => (w.connections, { w with connections := w.connections + 1 })
  | .beginImmediate conn, w =>
      match w.journal.writer with
      | some _ => (false, w)
      | none => (true, { w with journal := w.journal.put conn w.journal.committed })
  | .execute conn op, w =>
      if w.journal.writer = none ∨ w.journal.locked conn then
        -- outside a transaction a statement only reads
        ((execS op (w.journal.view conn)).1, w)
      else
        ((execS op (w.journal.view conn)).1,
          { w with journal := w.journal.put conn (execS op (w.journal.view conn)).2 })
  | .ask op, w => ((execO op w.outside).1, { w with outside := (execO op w.outside).2 })
  | .commit conn, w => ((), { w with journal := w.journal.commit conn })
  | .close conn, w => ((), { w with journal := w.journal.close conn })

/-- One call of a transaction. -/
def txCall (op : TxOp S O) : Prog (txSig S O) ε (TxOp.Res op) := Prog.lift (S := txSig S O) op

/-- The calls of a body, on one connection. -/
def onConn (conn : Nat) : Prog (bodySig S O) ε α → Prog (txSig S O) ε α
  | .ret a => .ret a
  | .raise e => .raise e
  | .call (.inl op) k => .call (.execute conn op) fun r => onConn conn (k r)
  | .call (.inr op) k => .call (.ask op) fun r => onConn conn (k r)

/-- `with connect() as conn: conn.execute("BEGIN IMMEDIATE"); …`: a normal end
commits, an exception does not, and the connection is closed after both.
`locked` is raised when the write lock cannot be had. -/
def immediate (locked : ε) (body : Prog (bodySig S O) ε α) : Prog (txSig S O) ε α := do
  let conn ← txCall .connect
  let a ← Prog.tryCatch (do
      let begun ← txCall (.beginImmediate conn)
      if begun then onConn conn body else throw locked)
    (fun e => do
      txCall (.close conn)
      throw e)
  txCall (.commit conn)
  txCall (.close conn)
  return a

/-- What is left of a transaction that has the write lock. -/
def working (conn : Nat) : Prog (bodySig S O) ε α → Prog (txSig S O) ε α
  | .ret a => .call (.commit conn) fun _ => .call (.close conn) fun _ => .ret a
  | .raise e => .call (.close conn) fun _ => .raise e
  | .call (.inl op) k => .call (.execute conn op) fun r => working conn (k r)
  | .call (.inr op) k => .call (.ask op) fun r => working conn (k r)

/-- What is left of a transaction that has a connection. -/
def beginning (locked : ε) (conn : Nat) (body : Prog (bodySig S O) ε α) :
    Prog (txSig S O) ε α :=
  .call (.beginImmediate conn) fun begun =>
    if begun = true then working conn body else .call (.close conn) fun _ => .raise locked

theorem onConn_eq_working (conn : Nat) (body : Prog (bodySig S O) ε α) :
    ((onConn conn body).tryCatch (fun e => do
        txCall (.close conn)
        throw e) >>= fun a => do
      txCall (.commit conn)
      txCall (.close conn)
      return a) = working conn body := by
  induction body with
  | ret a => rfl
  | raise e => rfl
  | call op k ih =>
    cases op with
    | inl op => exact congrArg (Prog.call (S := txSig S O) (.execute conn op)) (funext ih)
    | inr op => exact congrArg (Prog.call (S := txSig S O) (.ask op)) (funext ih)

theorem immediate_eq (locked : ε) (body : Prog (bodySig S O) ε α) :
    immediate locked body
      = .call (.connect : TxOp S O) (fun conn => beginning locked conn body) := by
  refine congrArg (Prog.call (S := txSig S O) .connect) (funext fun conn => ?_)
  refine congrArg (Prog.call (S := txSig S O) (.beginImmediate conn)) (funext fun begun => ?_)
  cases begun with
  | true => exact onConn_eq_working conn body
  | false => rfl

end Transactions

/-! ## §3. One after the other. -/

/-- The steps `log` lead from one state to another, one after the other. -/
def Serial {ι α δ : Type} (R : ι → α → δ → δ → Prop) : δ → List (ι × α) → δ → Prop
  | db, [], db' => db' = db
  | db, (i, a) :: log, db' => ∃ db₁, R i a db db₁ ∧ Serial R db₁ log db'

section Serial

variable {ι α δ : Type} {R R' : ι → α → δ → δ → Prop}

theorem serial_append (pre post : List (ι × α)) : ∀ db db' : δ,
    Serial R db (pre ++ post) db' ↔ ∃ db₁, Serial R db pre db₁ ∧ Serial R db₁ post db' := by
  induction pre with
  | nil => simp [Serial]
  | cons entry pre ih =>
    intro db db'
    simp only [List.cons_append, Serial, ih]
    constructor
    · rintro ⟨db₁, hR, db₂, hpre, hpost⟩
      exact ⟨db₂, ⟨db₁, hR, hpre⟩, hpost⟩
    · rintro ⟨db₂, ⟨db₁, hR, hpre⟩, hpost⟩
      exact ⟨db₁, hR, db₂, hpre, hpost⟩

theorem serial_snoc {log : List (ι × α)} {db db₁ db' : δ} {i : ι} {a : α}
    (h : Serial R db log db₁) (hR : R i a db₁ db') : Serial R db (log ++ [(i, a)]) db' :=
  (serial_append log _ db db').mpr ⟨db₁, h, db', hR, rfl⟩

/-- What every step keeps, all of them keep; and what it implies of a step
may be used on the way. -/
theorem Serial.keeps (I : δ → Prop)
    (hstep : ∀ i a db db', I db → R i a db db' → R' i a db db' ∧ I db') (log : List (ι × α)) :
    ∀ {db db' : δ}, Serial R db log db' → I db → Serial R' db log db' ∧ I db' := by
  induction log with
  | nil =>
    rintro db db' rfl hI
    exact ⟨rfl, hI⟩
  | cons entry log ih =>
    rintro db db' ⟨db₁, hR, hrest⟩ hI
    obtain ⟨hR', hI'⟩ := hstep _ _ _ _ hI hR
    obtain ⟨hserial, hend⟩ := ih hrest hI'
    exact ⟨⟨db₁, hR', hserial⟩, hend⟩

theorem Serial.mono (h : ∀ i a db db', R i a db db' → R' i a db db') {log : List (ι × α)}
    {db db' : δ} (hserial : Serial R db log db') : Serial R' db log db' :=
  (Serial.keeps (fun _ => True) (fun i a db db' _ hR => ⟨h i a db db' hR, trivial⟩) log hserial
    trivial).1

end Serial

/-! ## §4. The invariant. -/

/-- How far a transaction is. -/
inductive Phase (S O : Sig) (ε α : Type) where
  | fresh
  | opened (conn : Nat)
  /-- It has the write lock, and `rest` of its body is left. -/
  | holding (conn : Nat) (rest : Prog (bodySig S O) ε α)
  | closing (conn : Nat) (r : Except ε α)
  | done (r : Except ε α)

/-- A program that is finished. -/
def finished {S : Sig} {ε α : Type} : Except ε α → Prog S ε α
  | .ok a => .ret a
  | .error e => .raise e

namespace Phase

variable {S O : Sig} {ε α : Type}

def conn? : Phase S O ε α → Option Nat
  | opened conn | holding conn _ | closing conn _ => some conn
  | fresh | done _ => none

/-- What a transaction that is committed answers. -/
def answer? : Phase S O ε α → Option α
  | closing _ (.ok a) | done (.ok a) => some a
  | _ => none

/-- What is left of a transaction. -/
def prog (locked : ε) (body : Prog (bodySig S O) ε α) : Phase S O ε α → Prog (txSig S O) ε α
  | fresh => immediate locked body
  | opened conn => beginning locked conn body
  | holding conn rest => working conn rest
  | closing conn r => .call (.close conn) fun _ => finished r
  | done r => finished r

end Phase

section Invariant

variable {S O : Sig} {ε α δ ω ι : Type}

/-- What is true of the journal in a phase. -/
def Phase.Stands (execS : Prog.Exec S δ) (body : Prog (bodySig S O) ε α) (j : Journal δ) :
    Phase S O ε α → Prop
  | .opened conn => ∀ db, j.writer ≠ some (conn, db)
  | .holding conn rest => ∃ db, j.writer = some (conn, db)
      ∧ ∀ r db', Yields execS rest db r db' → Yields execS body j.committed r db'
  | _ => True

/-- Where every caller is. -/
structure ConnInv (execS : Prog.Exec S δ) (bodies : ι → Prog (bodySig S O) ε α)
    (w : TxWorld δ ω) (m : ι → Phase S O ε α) : Prop where
  writer : ∀ conn db, w.journal.writer = some (conn, db) → conn < w.connections
  opened : ∀ i conn, (m i).conn? = some conn → conn < w.connections
  distinct : ∀ i j conn, (m i).conn? = some conn → (m j).conn? = some conn → i = j
  stands : ∀ i, (m i).Stands execS (bodies i) w.journal

/-- The commits so far, in their order. -/
structure LogInv (execS : Prog.Exec S δ) (bodies : ι → Prog (bodySig S O) ε α) (start : δ)
    (committed : δ) (m : ι → Phase S O ε α) (log : List (ι × α)) : Prop where
  serial : Serial (fun i a db db' => Yields execS (bodies i) db (.ok a) db') start log committed
  nodup : (log.map Prod.fst).Nodup
  logged : ∀ i a, (i, a) ∈ log ↔ (m i).answer? = some a

variable {execS : Prog.Exec S δ} {bodies : ι → Prog (bodySig S O) ε α} {start committed : δ}
  {w w' : TxWorld δ ω} {m : ι → Phase S O ε α} {log : List (ι × α)} {i : ι}

theorem Phase.Stands.mono {body : Prog (bodySig S O) ε α} {j j' : Journal δ}
    {p : Phase S O ε α} (h : p.Stands execS body j)
    (hapart : ∀ conn, p.conn? = some conn → j.Apart j' conn) : p.Stands execS body j' := by
  cases p with
  | opened conn =>
    rcases hapart conn rfl with rfl | ⟨-, hnone⟩
    · exact h
    · exact hnone
  | holding conn rest =>
    rcases hapart conn rfl with rfl | ⟨hapart, -⟩
    · exact h
    · obtain ⟨db, hdb, -⟩ := h
      exact absurd hdb (hapart db)
  | _ => trivial

/-- A step of one caller: its new phase, and what the other callers need. -/
theorem ConnInv.step [DecidableEq ι] (h : ConnInv execS bodies w m) (p : Phase S O ε α)
    (hwriter : ∀ conn db, w'.journal.writer = some (conn, db) → conn < w'.connections)
    (hconnections : w.connections ≤ w'.connections)
    (hapart : ∀ j conn, j ≠ i → (m j).conn? = some conn → w.journal.Apart w'.journal conn)
    (hconn : ∀ conn, p.conn? = some conn → (m i).conn? = some conn
      ∨ (w.connections ≤ conn ∧ conn < w'.connections))
    (hstands : p.Stands execS (bodies i) w'.journal) :
    ConnInv execS bodies w' (Function.update m i p) := by
  have hother : ∀ j, j ≠ i → Function.update m i p j = m j :=
    fun j hj => Function.update_of_ne hj _ _
  -- the connection of the caller is its old one or a new one
  have hnew : ∀ j conn, j ≠ i → p.conn? = some conn → (m j).conn? ≠ some conn := by
    intro j conn hj hp hm
    rcases hconn conn hp with hold | ⟨hge, -⟩
    · exact hj (h.distinct j i conn hm hold)
    · exact absurd (h.opened j conn hm) (Nat.not_lt.mpr hge)
  refine ⟨hwriter, fun j conn hj => ?_, fun j k conn hj hk => ?_, fun j => ?_⟩
  · by_cases hji : j = i
    · subst hji
      rw [Function.update_self] at hj
      rcases hconn conn hj with hold | ⟨-, hlt⟩
      · exact Nat.lt_of_lt_of_le (h.opened j conn hold) hconnections
      · exact hlt
    · rw [hother j hji] at hj
      exact Nat.lt_of_lt_of_le (h.opened j conn hj) hconnections
  · by_cases hji : j = i
    · by_cases hki : k = i
      · rw [hji, hki]
      · rw [hji, Function.update_self] at hj
        rw [hother k hki] at hk
        exact absurd hk (hnew k conn hki hj)
    · rw [hother j hji] at hj
      by_cases hki : k = i
      · rw [hki, Function.update_self] at hk
        exact absurd hj (hnew j conn hji hk)
      · rw [hother k hki] at hk
        exact h.distinct j k conn hj hk
  · by_cases hji : j = i
    · subst hji
      rwa [Function.update_self]
    · rw [hother j hji]
      exact (h.stands j).mono (hapart j · hji)

/-- A step that commits nothing. -/
theorem LogInv.same [DecidableEq ι] (h : LogInv execS bodies start committed m log)
    (p : Phase S O ε α) (hanswer : p.answer? = (m i).answer?) :
    LogInv execS bodies start committed (Function.update m i p) log := by
  refine ⟨h.serial, h.nodup, fun j a => (h.logged j a).trans ?_⟩
  by_cases hj : j = i
  · rw [hj, Function.update_self, hanswer]
  · rw [Function.update_of_ne hj]

/-- A commit. -/
theorem LogInv.commit [DecidableEq ι] (h : LogInv execS bodies start committed m log) {db : δ}
    {a : α} {p : Phase S O ε α} (hbefore : (m i).answer? = none) (hafter : p.answer? = some a)
    (hyields : Yields execS (bodies i) committed (.ok a) db) :
    LogInv execS bodies start db (Function.update m i p) (log ++ [(i, a)]) := by
  have hfresh : ∀ b, (i, b) ∉ log := by
    intro b hb
    have hanswer := (h.logged i b).mp hb
    rw [hbefore] at hanswer
    cases hanswer
  refine ⟨serial_snoc h.serial hyields, ?_, fun j b => ?_⟩
  · rw [List.map_append, List.nodup_append]
    refine ⟨h.nodup, List.nodup_singleton _, fun x hx y hy heq => ?_⟩
    obtain ⟨⟨j, b⟩, hmem, rfl⟩ := List.mem_map.mp hx
    have hji : j = i := heq.trans (by simpa using hy)
    exact hfresh b (hji ▸ hmem)
  · rw [List.mem_append, List.mem_singleton]
    by_cases hj : j = i
    · subst hj
      rw [Function.update_self, hafter]
      constructor
      · rintro (hb | heq)
        · exact absurd hb (hfresh b)
        · exact congrArg some (congrArg Prod.snd heq).symm
      · intro heq
        cases heq
        exact Or.inr rfl
    · rw [Function.update_of_ne hj, ← h.logged j b]
      constructor
      · rintro (hb | heq)
        · exact hb
        · exact absurd (congrArg Prod.fst heq) hj
      · exact Or.inl

end Invariant

/-! ## §5. Runs. -/

/-- The callers of a run, each with the body of its transaction. -/
def txCallers {S O : Sig} {ε α δ ω ι : Type} (locked : ε) (bodies : ι → Prog (bodySig S O) ε α)
    (w : TxWorld δ ω) : Config ι (txSig S O) ε α (TxWorld δ ω) :=
  ⟨w, fun i => immediate locked (bodies i)⟩

section Runs

variable {S O : Sig} {ε α δ ω ι : Type} [DecidableEq ι] {execS : Prog.Exec S δ}
  {execO : Prog.Exec O ω} {locked : ε} {bodies : ι → Prog (bodySig S O) ε α} {start : δ}

/-- The invariant of a run. -/
def SerialInv (execS : Prog.Exec S δ) (locked : ε) (bodies : ι → Prog (bodySig S O) ε α)
    (start : δ) (c : Config ι (txSig S O) ε α (TxWorld δ ω)) : Prop :=
  ∃ m log, (∀ i, c.callers i = (m i).prog locked (bodies i))
    ∧ ConnInv execS bodies c.shared m
    ∧ LogInv execS bodies start c.shared.journal.committed m log

/-- The callers after a step of one of them. -/
theorem progs_update {m : ι → Phase S O ε α} {c : Config ι (txSig S O) ε α (TxWorld δ ω)}
    (h : ∀ i, c.callers i = (m i).prog locked (bodies i)) (i : ι) (p : Phase S O ε α)
    {q : Prog (txSig S O) ε α} (hq : q = p.prog locked (bodies i)) (j : ι) :
    Function.update c.callers i q j = (Function.update m i p j).prog locked (bodies j) := by
  by_cases hj : j = i
  · subst hj
    rw [Function.update_self, Function.update_self, hq]
  · rw [Function.update_of_ne hj, Function.update_of_ne hj, h j]

/-- **One call of one caller.** -/
theorem serialInv_step (c : Config ι (txSig S O) ε α (TxWorld δ ω)) (i : ι)
    (h : SerialInv execS locked bodies start c) :
    SerialInv execS locked bodies start (c.step (execTx execS execO) i) := by
  obtain ⟨m, log, hprogs, hconn, hlog⟩ := h
  have hi := hprogs i
  have hstands := hconn.stands i
  cases hm : m i with
  | fresh =>
    rw [hm] at hi
    rw [Config.step_of_call (hi.trans (immediate_eq locked (bodies i)))]
    refine ⟨_, log, progs_update hprogs i (.opened c.shared.connections) rfl,
      hconn.step _ (fun d db hw => Nat.lt_succ_of_lt (hconn.writer d db hw)) (Nat.le_succ _)
        (fun _ _ _ _ => Or.inl rfl) (fun d hd => Or.inr ?_) ?_, hlog.same _ (by rw [hm]; rfl)⟩
    · cases hd
      exact ⟨Nat.le_refl _, Nat.lt_succ_self _⟩
    · exact fun db hw => absurd (hconn.writer _ db hw) (Nat.lt_irrefl _)
  | opened conn =>
    rw [hm] at hi hstands
    rw [Config.step_of_call hi]
    cases hwriter : c.shared.journal.writer with
    | some entry =>
      simp only [execTx, hwriter]
      refine ⟨_, log, progs_update hprogs i (.closing conn (.error locked)) rfl,
        hconn.step _ hconn.writer (Nat.le_refl _) (fun _ _ _ _ => Or.inl rfl)
          (fun d hd => Or.inl (hm ▸ hd)) trivial, hlog.same _ (by rw [hm]; rfl)⟩
    | none =>
      simp only [execTx, hwriter]
      have hlocked : c.shared.journal.locked conn = false := by
        simp [Journal.locked, hwriter]
      refine ⟨_, log, progs_update hprogs i (.holding conn (bodies i)) rfl,
        hconn.step _ (fun d db hput => ?_) (Nat.le_refl _) (fun j d hj hd => ?_)
          (fun d hd => Or.inl (hm ▸ hd)) ⟨_, rfl, fun r db' hyields => hyields⟩,
        hlog.same _ (by rw [hm]; rfl)⟩
      · obtain ⟨rfl, -⟩ : conn = d ∧ _ = db := by simpa [Journal.put] using hput
        exact hconn.opened i conn (by rw [hm]; rfl)
      · refine Journal.apart_put hlocked (fun heq => hj ?_) _
        exact hconn.distinct j i d hd (by rw [hm, ← heq]; rfl)
  | holding conn rest =>
    rw [hm] at hi hstands
    obtain ⟨db, hwriter, hrest⟩ := hstands
    have hopened : conn < c.shared.connections := hconn.opened i conn (by rw [hm]; rfl)
    have hne : ∀ j d, j ≠ i → (m j).conn? = some d → conn ≠ d := fun j d hj hd heq =>
      hj (hconn.distinct j i d hd (by rw [hm, ← heq]; rfl))
    cases rest with
    | ret a =>
      rw [Config.step_of_call hi]
      have hcommit : c.shared.journal.commit conn = ⟨db, none⟩ :=
        Journal.Sees.commit (Or.inl hwriter)
      refine ⟨_, log ++ [(i, a)], progs_update hprogs i (.closing conn (.ok a)) rfl,
        hconn.step _ (fun d db' hw => ?_) (Nat.le_refl _)
          (fun j d hj hd => Journal.apart_finish (hne j d hj hd) _)
          (fun d hd => Or.inl (hm ▸ hd)) trivial, ?_⟩
      · exact hconn.writer d db' (Journal.writer_finish hw)
      · show LogInv _ _ _ (c.shared.journal.commit conn).committed _ (log ++ [(i, a)])
        rw [hcommit]
        exact hlog.commit (by rw [hm]; rfl) rfl (hrest _ _ ⟨rfl, rfl⟩)
    | raise e =>
      rw [Config.step_of_call hi]
      refine ⟨_, log, progs_update hprogs i (.done (.error e)) rfl,
        hconn.step _ (fun d db' hw => ?_) (Nat.le_refl _)
          (fun j d hj hd => Journal.apart_finish (hne j d hj hd) _) (fun d hd => by cases hd) trivial, ?_⟩
      · exact hconn.writer d db' (Journal.writer_finish hw)
      · exact (c.shared.journal.committed_close conn).symm ▸ hlog.same _ (by rw [hm]; rfl)
    | call op k =>
      cases op with
      | inl op =>
        rw [Config.step_of_call hi]
        have hsees : c.shared.journal.Sees conn db := Or.inl hwriter
        have hopen : ¬ (c.shared.journal.writer = none ∨ c.shared.journal.locked conn = true) := by
          simp [hwriter, hsees.locked]
        simp only [execTx, if_neg hopen, hsees.view]
        refine ⟨_, log, progs_update hprogs i (.holding conn (k (execS op db).1)) rfl,
          hconn.step _ (fun d db' hput => ?_) (Nat.le_refl _)
            (fun j d hj hd => Journal.apart_put hsees.locked (hne j d hj hd) _)
            (fun d hd => Or.inl (hm ▸ hd)) ⟨_, rfl, fun r db' hyields => hrest r db' hyields⟩,
          hlog.same _ (by rw [hm]; rfl)⟩
        obtain ⟨rfl, -⟩ : conn = d ∧ _ = db' := by simpa [Journal.put] using hput
        exact hopened
      | inr op =>
        rw [Config.step_of_call hi]
        refine ⟨_, log, progs_update hprogs i (.holding conn (k (execO op c.shared.outside).1)) rfl,
          hconn.step _ hconn.writer (Nat.le_refl _) (fun _ _ _ _ => Or.inl rfl)
            (fun d hd => Or.inl (hm ▸ hd)) ⟨db, hwriter, fun r db' hyields => ?_⟩,
          hlog.same _ (by rw [hm]; rfl)⟩
        exact hrest r db' ⟨_, hyields⟩
  | closing conn r =>
    rw [hm] at hi
    rw [Config.step_of_call hi]
    refine ⟨_, log, progs_update hprogs i (.done r) rfl,
      hconn.step _ (fun d db' hw => hconn.writer d db' (Journal.writer_finish hw)) (Nat.le_refl _)
        (fun j d hj hd => Journal.apart_finish (fun heq => hj ?_) _) (fun d hd => by cases hd) trivial, ?_⟩
    · exact hconn.distinct j i d hd (by rw [hm, ← heq]; rfl)
    · refine (c.shared.journal.committed_close conn).symm ▸ hlog.same _ ?_
      rw [hm]
      cases r <;> rfl
  | done r =>
    rw [hm] at hi
    have hover : (c.callers i).next? = none := by
      rw [hi]
      cases r <;> rfl
    rw [Config.step_of_next?_none hover]
    exact ⟨m, log, hprogs, hconn, hlog⟩

theorem serialInv_run (execO : Prog.Exec O ω) (sched : List ι) : ∀ c : Config ι (txSig S O) ε α (TxWorld δ ω),
    SerialInv execS locked bodies start c →
      SerialInv execS locked bodies start (c.run (execTx execS execO) sched) := by
  induction sched with
  | nil => exact fun _ h => h
  | cons i sched ih => exact fun c h => ih _ (serialInv_step c i h)

omit [DecidableEq ι] in
theorem serialInv_start {w : TxWorld δ ω} (hidle : w.journal.writer = none) :
    SerialInv execS locked bodies w.journal.committed (txCallers locked bodies w) := by
  refine ⟨fun _ => .fresh, [], fun _ => rfl, ⟨?_, nofun, nofun, fun _ => trivial⟩,
    ⟨rfl, List.nodup_nil, fun i a => ⟨nofun, nofun⟩⟩⟩
  intro conn db hw
  exact absurd (hidle.symm.trans hw) nofun

/-- **Immediate transactions are serializable.**  After every interleaving of
their calls the committed state is what the bodies of some callers, each of
them once, leave one after the other, and a caller that returned is one of
them, with what it returned. -/
theorem immediate_serializable (execS : Prog.Exec S δ) (execO : Prog.Exec O ω) (locked : ε)
    (bodies : ι → Prog (bodySig S O) ε α) (w : TxWorld δ ω) (hidle : w.journal.writer = none)
    (sched : List ι) : ∃ log : List (ι × α), (log.map Prod.fst).Nodup
      ∧ Serial (fun i a db db' => Yields execS (bodies i) db (.ok a) db') w.journal.committed log
          ((txCallers locked bodies w).run (execTx execS execO) sched).shared.journal.committed
      ∧ ∀ i a, ((txCallers locked bodies w).run (execTx execS execO) sched).callers i = .ret a →
          (i, a) ∈ log := by
  have hstart : SerialInv execS locked bodies w.journal.committed (txCallers locked bodies w) :=
    serialInv_start hidle
  obtain ⟨m, log, hprogs, -, hlog⟩ := serialInv_run execO sched _ hstart
  refine ⟨log, hlog.nodup, hlog.serial, fun i a hret => (hlog.logged i a).mpr ?_⟩
  rw [hprogs i] at hret
  cases hm : m i with
  | done r =>
    rw [hm] at hret
    cases r with
    | ok b =>
      cases hret
      rfl
    | error e => cases hret
  | fresh =>
    rw [hm] at hret
    exact absurd ((immediate_eq locked (bodies i)).symm.trans hret) nofun
  | opened conn =>
    rw [hm] at hret
    cases hret
  | holding conn rest =>
    rw [hm] at hret
    cases rest with
    | call op k => cases op <;> cases hret
    | _ => cases hret
  | closing conn r =>
    rw [hm] at hret
    cases hret

end Runs

end Hmn.Framework
