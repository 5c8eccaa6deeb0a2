/-
  Hmn.Orchestrator.Race — do concurrent ticks dispatch a task twice?

  A tick selects its task and hands it to the bridge before it holds any
  lock, and its UPDATEs name the task only.  So another tick may have leased
  the task in between, and one tick may expire the lease another one has just
  granted.

  Main results: `ticks_never_double_dispatch` — in every interleaving of the
  statements of any number of ticks, no task has two leases and no leased task
  is dispatched, as long as every tick still finds what it selected;
  `ticks_double_dispatch` — two ticks without that.
-/
import Hmn.Orchestrator.Queue

namespace Hmn.Orchestrator

open Framework

/-! ## §1. The ticks. -/

/-- What a tick is given. -/
structure TickCaller where
  bridge : Bool
  maxRetries : Nat
  leaseTimeoutSeconds : Int

/-- The ticks of a run. -/
def tickCallers {ι : Type} (callers : ι → TickCaller) (w : World) :
    Config ι sqlSig PyError TickResult World :=
  ⟨w, fun i => tick (callers i).bridge (callers i).maxRetries (callers i).leaseTimeoutSeconds⟩

/-- How far a tick is: the connection it has open, the clock reading it works
with, and the task it is in the middle of. -/
inductive TickMode where
  | away
  | opened (conn : Nat)
  | active (conn : Nat) (now : Timestamp)
  /-- The assignments of the task are expired, the task is not queued yet. -/
  | returning (conn : Nat) (now : Timestamp) (taskId : String)
  /-- The task is leased, the assignment is not inserted yet. -/
  | leasing (conn : Nat) (now : Timestamp) (taskId : String)
  /-- A statement failed, or the transaction is committed. -/
  | closing (conn : Nat)

namespace TickMode

/-- The connection a tick has open. -/
def conn? : TickMode → Option Nat
  | away => none
  | opened conn | active conn _ | returning conn _ _ | leasing conn _ _ | closing conn => some conn

/-- The connection and the clock reading a tick works with. -/
def reading : TickMode → Option (Nat × Timestamp)
  | active conn now | returning conn now _ | leasing conn now _ => some (conn, now)
  | _ => none

end TickMode

/-- The statements of a tick that is in the middle of no task. -/
def Statement.begins (now : Timestamp) : Statement → Prop
  | .setAssignments _ status now' => status = .expired ∧ now' = now
  | .setTaskStatus _ status _ => status = .leased
  | .pauseTask .. | .setAttempts .. | .insertReport _ => True
  | _ => False

/-- What a tick may call. -/
def mayTick : TickMode → SqlCall → Prop
  | .away, .connect => True
  | .away, .recordAudit .. => True
  | .opened _, .now => True
  | .active _ _, .selectLeased _ => True
  | .active _ _, .selectNextTask _ => True
  | .active _ _, .selectOnlineWorker _ => True
  | .active _ _, .uuid4 => True
  | .active conn _, .dispatch conn' _ _ => conn' = conn
  | .active conn now, .execute conn' statement => conn' = conn ∧ statement.begins now
  | .active conn _, .commit conn' => conn' = conn
  | .returning conn _ taskId, .execute conn' (.setTaskStatus taskId' status _) =>
      conn' = conn ∧ taskId' = taskId ∧ status = .queued
  | .leasing conn _ taskId, .execute conn' (.insertAssignment a) =>
      conn' = conn ∧ a.taskId = taskId ∧ a.status = .leased
  | .closing conn, .close conn' => conn' = conn
  | _, _ => False

/-- How far a tick is after a statement that was executed. -/
def afterStatement (conn : Nat) (now : Timestamp) : TickMode → Statement → TickMode
  | .active _ _, .setAssignments taskId _ _ => .returning conn now taskId
  | .active _ _, .setTaskStatus taskId _ _ => .leasing conn now taskId
  | _, _ => .active conn now

/-- How far a tick is after a call. -/
def afterTick (m : TickMode) : (op : SqlCall) → SqlCall.Res op → TickMode
  | .connect, conn => .opened conn
  | .now, now =>
      match m.conn? with
      | some conn => .active conn now
      | none => m
  | .execute _ statement, .ok _ =>
      match m.reading with
      | some (conn, now) => afterStatement conn now m statement
      | none => m
  | .execute conn _, .error _ => .closing conn
  | .commit conn, _ => .closing conn
  | .close _, _ => .away
  | _, _ => m

/-- The discipline of a tick. -/
abbrev tickTypestate : Typestate sqlSig where
  Mode := TickMode
  may := mayTick
  after := afterTick
  sees _ _ := True

section Discipline

variable {α β : Type} {Q : TickMode → Prop} {m : TickMode} {conn : Nat} {now : Timestamp}

/-- A program that keeps the discipline, returns in a mode that satisfies `Q`
and raises with the connection to be closed. -/
def Ticks (conn : Nat) (Q : TickMode → Prop) (m : TickMode) (p : Sql α) : Prop :=
  p.wp tickTypestate (fun m' _ => Q m') (fun m' _ => m' = .closing conn) m

theorem ticks_bind {p : Sql α} {f : α → Sql β} {R : TickMode → Prop}
    (hp : Ticks conn R m p) (hf : ∀ a m', R m' → Ticks conn Q m' (f a)) :
    Ticks conn Q m (p >>= f) := by
  refine Prog.wp_bind (T := tickTypestate) p f m ?_
  exact Prog.wp_mono (T := tickTypestate) (fun m' a hR => hf a m' hR) (fun _ _ h => h) p m hp

theorem ticks_call {op : SqlCall} {f : SqlCall.Res op → Sql α} (hmay : mayTick m op)
    (hf : ∀ r, Ticks conn Q (afterTick m op r) (f r)) : Ticks conn Q m (call op >>= f) := by
  unfold Ticks
  rw [call_bind, Prog.wp_call]
  exact ⟨hmay, fun r _ => hf r⟩

theorem ticks_ret {a : α} (hQ : Q m) : Ticks conn Q m (.ret a : Sql α) := Prog.wp_ret.mpr hQ

/-- A statement that is refused leaves its connection to be closed. -/
theorem ticks_execute {statement : Statement} (hmay : mayTick m (.execute conn statement))
    (hQ : Q (afterTick m (.execute conn statement) (.ok ()))) :
    Ticks conn Q m (execute conn statement) := by
  unfold execute
  refine ticks_call hmay (fun r => ?_)
  cases r with
  | ok u => exact ticks_ret hQ
  | error e => exact Prog.wp_raise.mpr rfl

theorem returnLeases_ticks (timeout : Int) (rows : List (String × Timestamp)) :
    Ticks conn (· = .active conn now) (.active conn now) (returnLeases conn now timeout rows) := by
  induction rows with
  | nil => exact ticks_ret rfl
  | cons row rows ih =>
    obtain ⟨taskId, leasedAt⟩ := row
    unfold returnLeases
    refine ticks_bind (R := (· = .active conn now)) ?_ (fun _ m' hm' => hm' ▸ ih)
    cases leaseIsOver now timeout leasedAt with
    | false => exact ticks_ret rfl
    | true =>
      rw [Prog.when_true]
      refine ticks_bind (R := (· = .returning conn now taskId))
        (ticks_execute ⟨rfl, rfl, rfl⟩ rfl) (fun _ m' hm' => ?_)
      subst hm'
      exact ticks_execute ⟨rfl, rfl, rfl⟩ rfl

theorem failDispatch_ticks (maxRetries : Nat) (task : OrchestratorTask) (worker : Worker)
    (message : String) : Ticks conn (· = .active conn now) (.active conn now)
      (failDispatch conn now maxRetries task worker message) := by
  unfold failDispatch
  simp only
  split_ifs
  · refine ticks_bind (R := (· = .active conn now)) (ticks_execute ⟨rfl, trivial⟩ rfl)
      (fun _ m' hm' => ?_)
    subst hm'
    refine ticks_call (by trivial) (fun uuid => ?_)
    exact ticks_bind (R := (· = .active conn now)) (ticks_execute ⟨rfl, trivial⟩ rfl)
      (fun _ m' hm' => ticks_ret hm')
  · refine ticks_bind (R := (· = .active conn now)) (ticks_execute ⟨rfl, trivial⟩ rfl)
      (fun _ m' hm' => ?_)
    subst hm'
    refine ticks_call (by trivial) (fun uuid => ?_)
    exact ticks_bind (R := (· = .active conn now)) (ticks_execute ⟨rfl, trivial⟩ rfl)
      (fun _ m' hm' => ticks_ret hm')

theorem lease_ticks (task : OrchestratorTask) (worker : Worker) :
    Ticks conn (· = .active conn now) (.active conn now) (lease conn now task worker) := by
  unfold lease
  refine ticks_call (by trivial) (fun assignment => ?_)
  refine ticks_bind (R := (· = .leasing conn now task.taskId))
    (ticks_execute ⟨rfl, rfl⟩ rfl) (fun _ m' hm' => ?_)
  subst hm'
  refine ticks_bind (R := (· = .active conn now)) (ticks_execute ⟨rfl, rfl, rfl⟩ rfl)
    (fun _ m' hm' => ?_)
  subst hm'
  refine ticks_call (by trivial) (fun uuid => ?_)
  exact ticks_bind (R := (· = .active conn now)) (ticks_execute ⟨rfl, trivial⟩ rfl)
    (fun _ m' hm' => ticks_ret hm')

theorem tickBody_ticks (bridge : Bool) (maxRetries : Nat) (timeout : Int) :
    Ticks conn (fun m => ∃ now, m = .active conn now) (.opened conn)
      (tickBody bridge maxRetries timeout conn) := by
  unfold tickBody
  refine ticks_call (by trivial) (fun now => ?_)
  refine ticks_call (by trivial) (fun leased => ?_)
  refine ticks_bind (returnLeases_ticks timeout leased) (fun _ m' hm' => ?_)
  subst hm'
  refine ticks_call (by trivial) (fun task => ?_)
  cases task with
  | none => exact ticks_ret ⟨now, rfl⟩
  | some task =>
    refine ticks_call (by trivial) (fun worker => ?_)
    cases worker with
    | none => exact ticks_ret ⟨now, rfl⟩
    | some worker =>
      refine ticks_bind (R := (· = .active conn now)) ?_ (fun answer m' hm' => ?_)
      · unfold dispatchTo
        split_ifs
        · refine ticks_call (f := .ret) (by exact rfl) (fun _ => ticks_ret rfl)
        · exact ticks_ret rfl
      · subst hm'
        cases answer with
        | error message =>
          exact Prog.wp_mono (T := tickTypestate) (fun m' _ h => ⟨now, h⟩) (fun _ _ h => h) _ _
            (failDispatch_ticks maxRetries task worker message)
        | ok u =>
          exact Prog.wp_mono (T := tickTypestate) (fun m' _ h => ⟨now, h⟩) (fun _ _ h => h) _ _
            (lease_ticks task worker)

/-- A caller that keeps the discipline to its end. -/
def KeepsTick (m : TickMode) (p : Sql α) : Prop :=
  p.wp tickTypestate (fun _ _ => True) (fun _ _ => True) m

theorem recordAudit_keepsTick (f : Unit → Sql α) (subjectId action outcome : String)
    (details : Dict) (hf : ∀ u, KeepsTick .away (f u)) :
    KeepsTick .away (recordAudit subjectId action outcome details >>= f) := by
  unfold KeepsTick recordAudit
  rw [bind_assoc, call_bind, Prog.wp_call]
  refine ⟨trivial, fun r _ => ?_⟩
  cases r with
  | ok u => exact hf u
  | error e => exact Prog.wp_raise.mpr trivial

/-- **A tick keeps the discipline.** -/
theorem tick_keepsTick (bridge : Bool) (maxRetries : Nat) (timeout : Int) :
    KeepsTick .away (tick bridge maxRetries timeout) := by
  unfold KeepsTick tick withConnect
  rw [bind_assoc, call_bind, Prog.wp_call]
  refine ⟨trivial, fun conn _ => ?_⟩
  rw [bind_assoc]
  refine Prog.wp_bind (T := tickTypestate) _ _ _ ?_
  refine Prog.wp_tryCatch (T := tickTypestate) _ _ _ ?_
  refine Prog.wp_mono (T := tickTypestate) (fun m' outcome hm' => ?_) (fun m' e hm' => ?_) _ _
    (tickBody_ticks bridge maxRetries timeout)
  · obtain ⟨now, rfl⟩ := hm'
    simp only [bind_assoc]
    rw [call_bind, Prog.wp_call]
    refine ⟨rfl, fun _ _ => ?_⟩
    rw [call_bind, Prog.wp_call]
    refine ⟨rfl, fun _ _ => ?_⟩
    cases outcome with
    | answered result => exact Prog.wp_ret.mpr trivial
    | failed taskId outcome details result =>
      exact recordAudit_keepsTick _ _ _ _ _ (fun _ => Prog.wp_ret.mpr trivial)
    | leased task worker =>
      exact recordAudit_keepsTick _ _ _ _ _ (fun _ => Prog.wp_ret.mpr trivial)
  · subst hm'
    rw [call_bind, Prog.wp_call]
    exact ⟨rfl, fun _ _ => Prog.wp_raise.mpr trivial⟩

end Discipline

/-! ## §2. The condition. -/

/-- A task has at most one lease, and a queued one has none. -/
def LeaseInv (db : Db) : Prop :=
  ∀ id, (leases db id).length ≤ 1
    ∧ ((∀ t, db.tasks.find? id = some t → t.status = .queued) → leases db id = [])

/-- The row of a task says `queued`. -/
def IsQueued (db : Db) (taskId : String) : Prop :=
  (db.tasks.find? taskId).map OrchestratorTask.status = some .queued

/-- Every lease of a task is older than the timeout. -/
def LeasesOver (db : Db) (now : Timestamp) (leaseTimeoutSeconds : Int) (taskId : String) : Prop :=
  ∀ a ∈ leases db taskId, leaseIsOver now leaseTimeoutSeconds a.leasedAt = true

/-- A tick still finds what it selected: the task it dispatches or leases is
queued, the leases it expires are over. -/
def Undisturbed {ι : Type} (leaseTimeoutSeconds : ι → Int) (i : ι) (w : World) : SqlCall → Prop
  | .dispatch conn task _ => IsQueued (w.journal.view conn) task.taskId
  | .execute conn (.setTaskStatus taskId .leased _) =>
      w.journal.locked conn = false → IsQueued (w.journal.view conn) taskId
  | .execute conn (.setAssignments taskId _ now) =>
      w.journal.locked conn = false →
        LeasesOver (w.journal.view conn) now (leaseTimeoutSeconds i) taskId
  | _ => True

/-- No task has two leases. -/
def OneLease (db : Db) : Prop := ∀ id, (leases db id).length ≤ 1

/-- A task that is dispatched has no lease in what its tick reads, and those
in the committed state are over at a clock reading that was taken. -/
def NoLiveLease {ι : Type} (env : Env) (leaseTimeoutSeconds : ι → Int) (i : ι) (w : World) :
    SqlCall → Prop
  | .dispatch conn task _ => leases (w.journal.view conn) task.taskId = []
      ∧ ∃ k < w.clock,
        LeasesOver w.journal.committed (env.now k) (leaseTimeoutSeconds i) task.taskId
  | _ => True

instance (db : Db) (taskId : String) : Decidable (IsQueued db taskId) := by
  unfold IsQueued
  infer_instance

instance (db : Db) (now : Timestamp) (timeout : Int) (taskId : String) :
    Decidable (LeasesOver db now timeout taskId) := by
  unfold LeasesOver
  infer_instance

instance {ι : Type} (timeouts : ι → Int) (i : ι) (w : World) (op : SqlCall) :
    Decidable (Undisturbed timeouts i w op) := by
  unfold Undisturbed
  split <;> infer_instance

instance {ι : Type} (env : Env) (timeouts : ι → Int) (i : ι) (w : World) (op : SqlCall) :
    Decidable (NoLiveLease env timeouts i w op) := by
  unfold NoLiveLease
  split <;> infer_instance

section Statements

variable {db db' : Db} {id taskId : String} {now : Timestamp} {timeout : Int}

theorem LeaseInv.none_of_queued (h : LeaseInv db) (hqueued : IsQueued db id) :
    leases db id = [] := by
  refine (h id).2 (fun t ht => ?_)
  rw [IsQueued, ht] at hqueued
  exact Option.some.inj hqueued

/-- What the queue keeps when its operations run one after the other. -/
theorem QueueInv.leaseInv {env : Env} {maxRetries : Nat} {w : World}
    (h : QueueInv env maxRetries w) : LeaseInv w.journal.committed := by
  intro id
  have htask := h.tasks id
  cases hrow : w.journal.committed.tasks.find? id with
  | none =>
    rw [hrow] at htask
    exact ⟨by simp [htask.1], fun _ => htask.1⟩
  | some t =>
    rw [hrow] at htask
    obtain ⟨-, htask⟩ := htask
    cases hstatus : t.status with
    | queued =>
      rw [hstatus] at htask
      exact ⟨by simp [htask.1], fun _ => htask.1⟩
    | leased =>
      rw [hstatus] at htask
      refine ⟨htask.1.le, fun hqueued => ?_⟩
      have hbad := hqueued t rfl
      rw [hstatus] at hbad
      cases hbad
    | paused =>
      rw [hstatus] at htask
      exact ⟨by simp [htask.1], fun _ => htask.1⟩

/-- The statement that expires the leases of a task. -/
theorem leases_setAssignments
    (h : (Statement.setAssignments taskId .expired now).apply db = some db') (id : String) :
    leases db' id = if id = taskId then [] else leases db id := by
  cases h
  have hexpired := leases_expireTasks db now [taskId] id
  rw [expireTasks_single] at hexpired
  refine Eq.trans ?_ (hexpired.trans ?_)
  · rfl
  · simp only [List.mem_singleton]

theorem leaseInv_setAssignments (h : LeaseInv db)
    (happly : (Statement.setAssignments taskId .expired now).apply db = some db') :
    LeaseInv db' := by
  intro id
  rw [leases_setAssignments happly]
  cases happly
  by_cases hid : id = taskId
  · rw [if_pos hid]
    exact ⟨Nat.zero_le _, fun _ => rfl⟩
  · rw [if_neg hid]
    exact h id

/-- A statement that leaves the leases alone keeps the invariant unless it
queues a task that has one. -/
theorem leaseInv_updateTask (h : LeaseInv db) (f : OrchestratorTask → OrchestratorTask) (hf)
    (hkept : ∀ t, db.tasks.find? taskId = some t → (f t).status = .queued →
      t.status = .queued ∨ leases db taskId = []) :
    LeaseInv (db.updateTask taskId f hf) := by
  intro id
  obtain ⟨hone, hnone⟩ := h id
  refine ⟨hone, fun hqueued => ?_⟩
  rw [find?_updateTask] at hqueued
  by_cases hid : id = taskId
  · subst hid
    rw [if_pos rfl] at hqueued
    cases hrow : db.tasks.find? id with
    | none => exact hnone (fun t ht => by rw [hrow] at ht; cases ht)
    | some t =>
      rw [hrow] at hqueued
      rcases hkept t hrow (hqueued (f t) rfl) with hstatus | hleases
      · refine hnone (fun t' ht' => ?_)
        rw [hrow] at ht'
        cases ht'
        exact hstatus
      · exact hleases
  · rw [if_neg hid] at hqueued
    exact hnone hqueued

theorem leaseInv_insertAssignment {a : Assignment} (h : LeaseInv db)
    (happly : (Statement.insertAssignment a).apply db = some db') (hstatus : a.status = .leased)
    (hnone : leases db a.taskId = [])
    (hrow : ¬ ∀ t, db.tasks.find? a.taskId = some t → t.status = .queued) : LeaseInv db' := by
  obtain ⟨assignments, hinsert, rfl⟩ := Option.map_eq_some_iff.mp happly
  intro id
  rw [leases_insert hinsert hstatus]
  by_cases hid : a.taskId = id
  · subst hid
    rw [if_pos rfl, hnone]
    exact ⟨Nat.le_refl _, fun hqueued => absurd hqueued hrow⟩
  · rw [if_neg hid, List.append_nil]
    exact h id

end Statements

/-! ## §3. The invariant. -/

/-- The leases a tick has taken away in its copy were over. -/
def Overdue (now : Timestamp) (leaseTimeoutSeconds : Int) (committed db : Db) : Prop :=
  ∀ id, ∀ a ∈ leases committed id,
    a ∈ leases db id ∨ leaseIsOver now leaseTimeoutSeconds a.leasedAt = true

/-- The clock reading a tick works with was taken, and it took away no lease
that was not over then. -/
def Reads (env : Env) (leaseTimeoutSeconds : Int) (w : World) (conn : Nat) (now : Timestamp) :
    Prop :=
  (∃ k < w.clock, now = env.now k)
    ∧ ∀ db, w.journal.writer = some (conn, db) →
      Overdue now leaseTimeoutSeconds w.journal.committed db

/-- What is true while a tick is in a mode. -/
def Stands (env : Env) (leaseTimeoutSeconds : Int) (w : World) : TickMode → Prop
  | .away | .closing _ => True
  | .opened conn => ∀ db, w.journal.writer ≠ some (conn, db)
  | .active conn now => Reads env leaseTimeoutSeconds w conn now
  | .returning conn now taskId => Reads env leaseTimeoutSeconds w conn now
      ∧ ∃ db, w.journal.writer = some (conn, db) ∧ leases db taskId = []
  | .leasing conn now taskId => Reads env leaseTimeoutSeconds w conn now
      ∧ ∃ db, w.journal.writer = some (conn, db) ∧ leases db taskId = []
        ∧ ¬ ∀ t, db.tasks.find? taskId = some t → t.status = .queued

/-- The invariant of a run of ticks. -/
structure RaceInv {ι : Type} (env : Env) (timeouts : ι → Int) (w : World) (m : ι → TickMode) :
    Prop where
  every : w.journal.Every LeaseInv
  writer : ∀ conn db, w.journal.writer = some (conn, db) → conn < w.connections
  opened : ∀ i conn, (m i).conn? = some conn → conn < w.connections
  distinct : ∀ i j conn, (m i).conn? = some conn → (m j).conn? = some conn → i = j
  stands : ∀ i, Stands env (timeouts i) w (m i)

section Stands

variable {env : Env} {timeout : Int} {w w' : World} {conn : Nat} {now : Timestamp}

/-- While a tick has written nothing it reads what is committed. -/
theorem Reads.overdue (h : Reads env timeout w conn now) :
    Overdue now timeout w.journal.committed (w.journal.view conn) := by
  rcases w.journal.view_cases conn with hwriter | ⟨-, hview⟩
  · exact h.2 _ hwriter
  · rw [hview]
    exact fun id a ha => Or.inl ha

theorem Reads.mono (h : Reads env timeout w conn now) (hclock : w.clock ≤ w'.clock)
    (hapart : w.journal.Apart w'.journal conn) : Reads env timeout w' conn now := by
  obtain ⟨⟨k, hk, hnow⟩, hover⟩ := h
  refine ⟨⟨k, hk.trans_le hclock, hnow⟩, ?_⟩
  rcases hapart with hsame | ⟨-, hnone⟩
  · rwa [hsame]
  · exact fun db hdb => absurd hdb (hnone db)

/-- What other connections do leaves a tick where it is. -/
theorem Stands.mono {m : TickMode} (h : Stands env timeout w m) (hclock : w.clock ≤ w'.clock)
    (hapart : ∀ conn, m.conn? = some conn → w.journal.Apart w'.journal conn) :
    Stands env timeout w' m := by
  cases m with
  | away => trivial
  | closing conn => trivial
  | opened conn =>
    rcases hapart conn rfl with hsame | ⟨-, hnone⟩
    · unfold Stands
      rwa [hsame]
    · exact hnone
  | active conn now => exact Reads.mono h hclock (hapart conn rfl)
  | returning conn now taskId =>
    obtain ⟨hreads, db, hdb, hnone⟩ := h
    refine ⟨hreads.mono hclock (hapart conn rfl), db, ?_, hnone⟩
    rcases hapart conn rfl with hsame | ⟨hapart, -⟩
    · rwa [hsame]
    · exact absurd hdb (hapart db)
  | leasing conn now taskId =>
    obtain ⟨hreads, db, hdb, hnone⟩ := h
    refine ⟨hreads.mono hclock (hapart conn rfl), db, ?_, hnone⟩
    rcases hapart conn rfl with hsame | ⟨hapart, -⟩
    · rwa [hsame]
    · exact absurd hdb (hapart db)

/-- The mode of a tick after it put a new copy in place. -/
theorem Reads.put (h : Reads env timeout w conn now) {db : Db}
    (hover : Overdue now timeout w.journal.committed db) :
    Reads env timeout { w with journal := w.journal.put conn db } conn now := by
  refine ⟨h.1, fun db' hdb' => ?_⟩
  obtain ⟨-, rfl⟩ : conn = conn ∧ db = db' := by simpa [Journal.put] using hdb'
  exact hover

theorem Overdue.of_leases {committed db db' : Db} (h : Overdue now timeout committed db)
    (hkept : ∀ id, ∀ a ∈ leases db id,
      a ∈ leases db' id ∨ leaseIsOver now timeout a.leasedAt = true) :
    Overdue now timeout committed db' := by
  intro id a ha
  rcases h id a ha with hin | hover
  · exact hkept id a hin
  · exact Or.inr hover

end Stands

/-- A step of one tick: what it must show of its own mode, and what the other
ticks need. -/
theorem RaceInv.step {ι : Type} [DecidableEq ι] {env : Env} {timeouts : ι → Int} {w w' : World}
    {m : ι → TickMode} (h : RaceInv env timeouts w m) (i : ι) (m' : TickMode)
    (hevery : w'.journal.Every LeaseInv)
    (hwriter : ∀ conn db, w'.journal.writer = some (conn, db) → conn < w'.connections)
    (hconnections : w.connections ≤ w'.connections) (hclock : w.clock ≤ w'.clock)
    (hapart : ∀ j conn, j ≠ i → (m j).conn? = some conn → w.journal.Apart w'.journal conn)
    (hconn : ∀ conn, m'.conn? = some conn → (m i).conn? = some conn
      ∨ (w.connections ≤ conn ∧ conn < w'.connections))
    (hstands : Stands env (timeouts i) w' m') :
    RaceInv env timeouts w' (Function.update m i m') := by
  have hother : ∀ j, j ≠ i → Function.update m i m' j = m j :=
    fun j hj => Function.update_of_ne hj _ _
  -- the connection of the tick is its old one or a new one
  have hnew : ∀ j conn, j ≠ i → m'.conn? = some conn → (m j).conn? ≠ some conn := by
    intro j conn hj hm' hm
    rcases hconn conn hm' with hold | ⟨hge, -⟩
    · exact hj (h.distinct j i conn hm hold)
    · exact absurd (h.opened j conn hm) (Nat.not_lt.mpr hge)
  refine ⟨hevery, hwriter, fun j conn hj => ?_, fun j k conn hj hk => ?_, fun j => ?_⟩
  · by_cases hji : j = i
    · subst hji
      rw [Function.update_self] at hj
      rcases hconn conn hj with hold | ⟨-, hlt⟩
      · exact (h.opened j conn hold).trans_le hconnections
      · exact hlt
    · rw [hother j hji] at hj
      exact (h.opened j conn hj).trans_le hconnections
  · by_cases hji : j = i
    · by_cases hki : k = i
      · rw [hji, hki]
      · rw [hji, Function.update_self] at hj
        rw [hother k hki] at hk
        exact absurd hk (hnew k conn hki hj)
    · rw [hother j hji] at hj
      by_cases hki : k = i
      · rw [hki, Function.update_self] at hk
        exact absurd hj (hnew j conn hji hk)
      · rw [hother k hki] at hk
        exact h.distinct j k conn hj hk
  · by_cases hji : j = i
    · subst hji
      rwa [Function.update_self]
    · rw [hother j hji]
      exact (h.stands j).mono hclock (hapart j · hji)

/-! ## §4. The steps. -/

section Steps

variable {ι : Type} [DecidableEq ι] {env : Env} {timeouts : ι → Int} {w : World} {m : ι → TickMode}
  {i : ι} {conn : Nat} {now : Timestamp}

/-- A statement: it is refused, it fails, or it leaves a new copy. -/
theorem race_execute (h : RaceInv env timeouts w m) {statement : Statement}
    (hreading : (m i).reading = some (conn, now)) (hconn : (m i).conn? = some conn)
    (hafter : (afterStatement conn now (m i) statement).conn? = some conn)
    (hdone : ∀ db, w.journal.locked conn = false →
      statement.apply (w.journal.view conn) = some db → LeaseInv db
        ∧ Stands env (timeouts i) { w with journal := w.journal.put conn db }
            (afterStatement conn now (m i) statement)) :
    RaceInv env timeouts (exec env (.execute conn statement) w).2 (Function.update m i
      (afterTick (m i) (.execute conn statement) (exec env (.execute conn statement) w).1)) := by
  have hkept : ∀ c, (TickMode.closing conn).conn? = some c → (m i).conn? = some c
      ∨ (w.connections ≤ c ∧ c < w.connections) := by
    rintro c ⟨⟩
    exact Or.inl hconn
  -- the connections of the other ticks, once this one has a copy
  have hapart : w.journal.locked conn = false → ∀ db j c, j ≠ i → (m j).conn? = some c →
      w.journal.Apart (w.journal.put conn db) c := by
    intro hlocked db j c hj hc
    refine Journal.apart_put hlocked (fun heq => ?_) db
    exact hj (h.distinct j i c hc (heq ▸ hconn))
  have hwriter : ∀ db c db', (w.journal.put conn db).writer = some (c, db') →
      c < w.connections := by
    intro db c db' hput
    obtain ⟨rfl, -⟩ : conn = c ∧ db = db' := by simpa [Journal.put] using hput
    exact h.opened i conn hconn
  simp only [exec]
  cases hlocked : w.journal.locked conn with
  | true =>
    simp only [if_true, afterTick]
    exact h.step i _ h.every h.writer le_rfl le_rfl (fun _ _ _ _ => Or.inl rfl) hkept trivial
  | false =>
    simp only [Bool.false_eq_true, if_false]
    cases happly : statement.apply (w.journal.view conn) with
    | none =>
      simp only [afterTick]
      exact h.step i _ (h.every.put (h.every.view conn)) (hwriter _) le_rfl le_rfl
        (hapart hlocked _) hkept trivial
    | some db =>
      obtain ⟨hdb, hstands⟩ := hdone db hlocked happly
      simp only [afterTick, hreading]
      refine h.step i _ (h.every.put hdb) (hwriter _) le_rfl le_rfl (hapart hlocked _) ?_ hstands
      intro c hc
      rw [hafter] at hc
      cases hc
      exact Or.inl hconn

/-- A statement of a tick that is in the middle of no task. -/
theorem race_begin (h : RaceInv env timeouts w m) {statement : Statement}
    (hm : m i = .active conn now) (hbegins : statement.begins now)
    (hfound : Undisturbed timeouts i w (.execute conn statement)) :
    RaceInv env timeouts (exec env (.execute conn statement) w).2 (Function.update m i
      (afterTick (m i) (.execute conn statement) (exec env (.execute conn statement) w).1)) := by
  have hreads : Reads env (timeouts i) w conn now := by
    have hstands := h.stands i
    rwa [hm] at hstands
  have hview := h.every.view conn
  have hover := hreads.overdue
  have hafter : (afterStatement conn now (m i) statement).conn? = some conn := by
    rw [hm]
    cases statement <;> rfl
  refine race_execute h (by rw [hm]; rfl) (by rw [hm]; rfl) hafter (fun db hlocked happly => ?_)
  rw [hm]
  cases statement with
  | setAssignments taskId status now' =>
    obtain ⟨rfl, rfl⟩ := hbegins
    have hleases := leases_setAssignments happly
    refine ⟨leaseInv_setAssignments hview happly, hreads.put (hover.of_leases ?_), db, rfl, ?_⟩
    · intro id a ha
      by_cases hid : id = taskId
      · subst hid
        exact Or.inr (hfound hlocked a ha)
      · rw [hleases, if_neg hid]
        exact Or.inl ha
    · rw [hleases, if_pos rfl]
  | setTaskStatus taskId status now' =>
    cases hbegins
    cases happly
    have hqueued : IsQueued (w.journal.view conn) taskId := hfound hlocked
    have hnone := hview.none_of_queued hqueued
    refine ⟨leaseInv_updateTask hview _ _ (fun _ _ _ => Or.inr hnone),
      hreads.put (hover.of_leases (fun id a ha => Or.inl ha)), _, rfl, hnone, fun hall => ?_⟩
    rw [find?_updateTask, if_pos rfl] at hall
    obtain ⟨t, ht, -⟩ := Option.map_eq_some_iff.mp hqueued
    rw [ht] at hall
    have hbad := hall _ rfl
    cases hbad
  | pauseTask taskId attempts now' =>
    cases happly
    exact ⟨leaseInv_updateTask hview _ _ (fun _ _ hbad => by cases hbad),
      hreads.put (hover.of_leases (fun id a ha => Or.inl ha))⟩
  | setAttempts taskId attempts now' =>
    cases happly
    exact ⟨leaseInv_updateTask hview _ _ (fun _ _ hqueued => Or.inl hqueued),
      hreads.put (hover.of_leases (fun id a ha => Or.inl ha))⟩
  | insertReport report =>
    obtain ⟨reports, -, rfl⟩ := Option.map_eq_some_iff.mp happly
    exact ⟨hview, hreads.put (hover.of_leases (fun id a ha => Or.inl ha))⟩
  | _ => cases hbegins

/-- The second statement of an expiry: the task is queued. -/
theorem race_returning (h : RaceInv env timeouts w m) {taskId : String} {now' : Timestamp}
    (hm : m i = .returning conn now taskId) :
    RaceInv env timeouts (exec env (.execute conn (.setTaskStatus taskId .queued now')) w).2
      (Function.update m i (afterTick (m i) (.execute conn (.setTaskStatus taskId .queued now'))
        (exec env (.execute conn (.setTaskStatus taskId .queued now')) w).1)) := by
  have hstands := h.stands i
  rw [hm] at hstands
  obtain ⟨hreads, db, hdb, hnone⟩ := hstands
  have hsees : w.journal.view conn = db := Journal.Sees.view (Or.inl hdb)
  refine race_execute h (by rw [hm]; rfl) (by rw [hm]; rfl) (by rw [hm]; rfl)
    (fun db' hlocked happly => ?_)
  rw [hm]
  cases happly
  refine ⟨leaseInv_updateTask (h.every.view conn) _ _ (fun _ _ _ => Or.inr ?_),
    hreads.put (hreads.overdue.of_leases (fun id a ha => Or.inl ha))⟩
  rwa [hsees]

/-- The second statement of a lease: the assignment is inserted. -/
theorem race_leasing (h : RaceInv env timeouts w m) {a : Assignment}
    (hm : m i = .leasing conn now a.taskId) (hstatus : a.status = .leased) :
    RaceInv env timeouts (exec env (.execute conn (.insertAssignment a)) w).2
      (Function.update m i (afterTick (m i) (.execute conn (.insertAssignment a))
        (exec env (.execute conn (.insertAssignment a)) w).1)) := by
  have hstands := h.stands i
  rw [hm] at hstands
  obtain ⟨hreads, db, hdb, hnone, hrow⟩ := hstands
  have hsees : w.journal.view conn = db := Journal.Sees.view (Or.inl hdb)
  refine race_execute h (by rw [hm]; rfl) (by rw [hm]; rfl) (by rw [hm]; rfl)
    (fun db' hlocked happly => ?_)
  rw [hm]
  have hview := h.every.view conn
  have hover := hreads.overdue
  rw [hsees] at happly hview hover
  refine ⟨leaseInv_insertAssignment hview happly hstatus hnone hrow,
    hreads.put (hover.of_leases (fun id b hb => Or.inl ?_))⟩
  obtain ⟨assignments, hinsert, rfl⟩ := Option.map_eq_some_iff.mp happly
  rw [leases_insert hinsert hstatus]
  exact List.mem_append_left _ hb

/-- A commit, and a rollback. -/
theorem race_finish (h : RaceInv env timeouts w m) {m' : TickMode} {end_ : Db → Db}
    (hconn : (m i).conn? = some conn) (hend : ∀ db, LeaseInv db → LeaseInv (end_ db))
    (hm' : m' = .closing conn ∨ m' = .away) :
    RaceInv env timeouts { w with journal := w.journal.finish conn end_ }
      (Function.update m i m') := by
  refine h.step i m' (h.every.finish hend) (fun c db hw => h.writer c db (Journal.writer_finish hw))
    le_rfl le_rfl (fun j c hj hc => ?_) (fun c hc => ?_) ?_
  · refine Journal.apart_finish (fun heq => hj ?_) end_
    exact h.distinct j i c hc (heq ▸ hconn)
  · rcases hm' with rfl | rfl
    · cases hc
      exact Or.inl hconn
    · cases hc
  · rcases hm' with rfl | rfl <;> trivial

/-- A call that leaves the journal and the mode alone. -/
theorem race_same (h : RaceInv env timeouts w m) {w' : World} (hjournal : w'.journal = w.journal)
    (hconnections : w'.connections = w.connections) (hclock : w.clock ≤ w'.clock) :
    RaceInv env timeouts w' (Function.update m i (m i)) := by
  refine h.step i _ (by rw [hjournal]; exact h.every)
    (by rw [hjournal, hconnections]; exact h.writer) hconnections.ge hclock
    (fun _ _ _ _ => Or.inl hjournal) (fun c hc => Or.inl hc) ?_
  exact (h.stands i).mono hclock (fun _ _ => Or.inl hjournal)

/-- An audit event changes no lease. -/
theorem race_audit (h : RaceInv env timeouts w m) {w' : World} (event : AuditEvent)
    (hidle : w.journal.writer = none)
    (hw' : w' = { w with
      clock := w.clock + 1
      journal := ⟨w.journal.committed.addAudit event, none⟩ }) :
    RaceInv env timeouts w' (Function.update m i (m i)) := by
  subst hw'
  have hnone : ∀ c db, w.journal.writer ≠ some (c, db) := by simp [hidle]
  have hapart : ∀ c, w.journal.Apart ⟨w.journal.committed.addAudit event, none⟩ c :=
    fun c => Or.inr ⟨hnone c, nofun⟩
  refine h.step i _ ⟨h.every.1, nofun⟩ nofun le_rfl (Nat.le_succ _)
    (fun _ c _ _ => hapart c) (fun c hc => Or.inl hc) ?_
  exact (h.stands i).mono (Nat.le_succ _) (fun c _ => hapart c)

/-- **One call of one tick keeps the invariant.** -/
theorem race_step (h : RaceInv env timeouts w m) {op : SqlCall} (hmay : mayTick (m i) op)
    (hfound : Undisturbed timeouts i w op) :
    RaceInv env timeouts (exec env op w).2
      (Function.update m i (afterTick (m i) op (exec env op w).1)) := by
  cases hm : m i with
  | away =>
    rw [hm] at hmay
    cases op with
    | connect =>
      refine h.step i _ h.every (fun c db hw => (h.writer c db hw).trans (Nat.lt_succ_self _))
        (Nat.le_succ _) le_rfl (fun _ _ _ _ => Or.inl rfl) (fun c hc => Or.inr ?_) ?_
      · cases hc
        exact ⟨le_rfl, Nat.lt_succ_self _⟩
      · exact fun db hw => absurd (h.writer _ db hw) (Nat.lt_irrefl _)
    | recordAudit eventType subjectType subjectId action outcome details =>
      simp only [exec]
      have hafter : ∀ r, afterTick .away
          (.recordAudit eventType subjectType subjectId action outcome details) r = m i :=
        fun _ => hm.symm
      cases hwriter : w.journal.writer with
      | some entry => exact hafter _ ▸ race_same h rfl rfl (Nat.le_succ _)
      | none =>
        let event : AuditEvent :=
          { eventType, subjectType, subjectId, action, outcome, details
            createdAt := env.now w.clock }
        exact hafter _ ▸ race_audit h event hwriter rfl
    | _ => cases hmay
  | opened conn =>
    rw [hm] at hmay
    cases op with
    | now =>
      have hstands := h.stands i
      rw [hm] at hstands
      refine h.step i _ h.every h.writer le_rfl (Nat.le_succ _) (fun _ _ _ _ => Or.inl rfl)
        (fun c hc => Or.inl (hm ▸ hc)) ⟨⟨w.clock, Nat.lt_succ_self _, rfl⟩, fun db hw => ?_⟩
      exact absurd hw (hstands db)
    | _ => cases hmay
  | active conn now =>
    rw [hm] at hmay
    cases op with
    | execute conn' statement =>
      obtain ⟨rfl, hbegins⟩ := hmay
      rw [← hm]
      exact race_begin h hm hbegins hfound
    | commit conn' =>
      cases hmay
      exact race_finish h (by rw [hm]; rfl) (fun _ hdb => hdb) (Or.inl rfl)
    | selectLeased conn' => exact hm ▸ race_same h rfl rfl le_rfl
    | selectNextTask conn' => exact hm ▸ race_same h rfl rfl le_rfl
    | selectOnlineWorker conn' => exact hm ▸ race_same h rfl rfl le_rfl
    | uuid4 => exact hm ▸ race_same h rfl rfl le_rfl
    | dispatch conn' task worker => exact hm ▸ race_same h rfl rfl le_rfl
    | _ => cases hmay
  | returning conn now taskId =>
    rw [hm] at hmay
    cases op with
    | execute conn' statement =>
      cases statement with
      | setTaskStatus taskId' status now' =>
        obtain ⟨rfl, rfl, rfl⟩ := hmay
        rw [← hm]
        exact race_returning h hm
      | _ => cases hmay
    | _ => cases hmay
  | leasing conn now taskId =>
    rw [hm] at hmay
    cases op with
    | execute conn' statement =>
      cases statement with
      | insertAssignment a =>
        obtain ⟨rfl, rfl, hstatus⟩ := hmay
        rw [← hm]
        exact race_leasing h hm hstatus
      | _ => cases hmay
    | _ => cases hmay
  | closing conn =>
    rw [hm] at hmay
    cases op with
    | close conn' =>
      cases hmay
      exact race_finish h (by rw [hm]; rfl) (fun _ _ => h.every.1) (Or.inr rfl)
    | _ => cases hmay

omit [DecidableEq ι] in
/-- What the invariant says of a dispatch. -/
theorem race_dispatch (h : RaceInv env timeouts w m) {op : SqlCall} (hmay : mayTick (m i) op)
    (hfound : Undisturbed timeouts i w op) : NoLiveLease env timeouts i w op := by
  cases op with
  | dispatch conn task worker =>
    cases hm : m i with
    | active conn' now =>
      rw [hm] at hmay
      cases hmay
      have hreads : Reads env (timeouts i) w conn now := by
        have hstands := h.stands i
        rwa [hm] at hstands
      have hnone := (h.every.view conn).none_of_queued hfound
      obtain ⟨k, hk, rfl⟩ := hreads.1
      refine ⟨hnone, k, hk, fun a ha => ?_⟩
      rcases hreads.overdue _ a ha with hin | hover
      · rw [hnone] at hin
        exact absurd hin List.not_mem_nil
      · exact hover
    | _ =>
      rw [hm] at hmay
      cases hmay
  | _ => trivial

end Steps

/-! ## §5. Ticks at the same time. -/

theorem raceInv_start {ι : Type} (env : Env) (timeouts : ι → Int) {w : World}
    (hidle : w.journal.writer = none) (hstart : LeaseInv w.journal.committed) :
    RaceInv env timeouts w (fun _ => .away) where
  every := ⟨hstart, fun c db hw => by rw [hidle] at hw; cases hw⟩
  writer c db hw := by rw [hidle] at hw; cases hw
  opened i c hc := by cases hc
  distinct i j c hc := by cases hc
  stands i := trivial

theorem ticks_governed {ι : Type} (env : Env) (callers : ι → TickCaller) {w : World}
    (hidle : w.journal.writer = none) (hstart : LeaseInv w.journal.committed) :
    Config.Governed tickTypestate (fun _ => True) (fun _ => True)
      (fun w m _ => RaceInv env (fun i => (callers i).leaseTimeoutSeconds) w m)
      (tickCallers callers w) () :=
  ⟨fun _ => .away, raceInv_start env _ hidle hstart,
    fun i => tick_keepsTick (callers i).bridge (callers i).maxRetries _⟩

/-- **Ticks at the same time.**  In every interleaving of the statements of
any number of ticks in which every tick still finds what it selected, no task
has two leases, in the committed state or in an open copy, and no task is
dispatched that has a live lease. -/
theorem ticks_never_double_dispatch {ι : Type} [DecidableEq ι] (env : Env)
    (callers : ι → TickCaller) (w : World) (sched : List ι) (hidle : w.journal.writer = none)
    (hstart : LeaseInv w.journal.committed)
    (hfound : (tickCallers callers w).Respects (exec env)
      (Undisturbed (fun i => (callers i).leaseTimeoutSeconds)) sched) :
    (∀ pre post, sched = pre ++ post →
      ((tickCallers callers w).run (exec env) pre).shared.journal.Every OneLease)
    ∧ (tickCallers callers w).Respects (exec env)
        (NoLiveLease env (fun i => (callers i).leaseTimeoutSeconds)) sched := by
  have hstep : ∀ (w : World) (m : ι → TickMode) (_ : Unit) (i : ι) (op : SqlCall),
      RaceInv env (fun i => (callers i).leaseTimeoutSeconds) w m → mayTick (m i) op →
      Undisturbed (fun i => (callers i).leaseTimeoutSeconds) i w op → True ∧
        RaceInv env (fun i => (callers i).leaseTimeoutSeconds) (exec env op w).2
          (Function.update m i (afterTick (m i) op (exec env op w).1)) :=
    fun _ _ _ _ _ h hmay hPi => ⟨trivial, race_step h hmay hPi⟩
  have hgov := ticks_governed env callers hidle hstart
  constructor
  · rintro pre post rfl
    obtain ⟨m, hinv, -⟩ := Config.run_typestate (f := fun _ _ _ _ => ()) tickTypestate
      (fun w m _ => RaceInv env (fun i => (callers i).leaseTimeoutSeconds) w m) hstep pre
      (tickCallers callers w) () hgov ((Config.respects_append _ pre post).mp hfound).1
    exact ⟨fun id => (hinv.every.1 id).1, fun c db hw id => (hinv.every.2 c db hw id).1⟩
  · exact Config.respects_typestate (f := fun _ _ _ _ => ()) tickTypestate
      (fun w m _ => RaceInv env (fun i => (callers i).leaseTimeoutSeconds) w m) hstep
      (fun _ _ _ _ _ h hmay hPi => race_dispatch h hmay hPi) sched (tickCallers callers w) () hgov
      hfound

/-- A bridge that takes every task. -/
def Env.willing : Env where
  toEnv := Hmn.Env.quiet
  bridge _ := .ok ()

/-- A queued task and a worker. -/
def raceOperations : List Operation :=
  [.enqueue "backlog" "docs" "low" 3 "" "cli", .registerWorker "bridge-1" "bridge" "online" []]

def raceWorld : World := replay Env.willing 3 .fresh raceOperations

/-- Two ticks. -/
def raceCallers : Bool → TickCaller := fun _ => ⟨true, 3, 1800⟩

/-- A tick between the first and the second half of another one. -/
theorem ticks_never_double_dispatch_in_turn :
    ((tickCallers raceCallers raceWorld).run (exec Env.willing)
      (List.replicate 2 true ++ List.replicate 14 false
        ++ List.replicate 5 true)).shared.journal.Every OneLease := by
  have hkept : QueueInv Env.willing 3 raceWorld := (replay_keeps (by decide) (by decide +kernel)
    raceOperations .fresh queueInv_fresh le_rfl).1
  exact (ticks_never_double_dispatch Env.willing raceCallers raceWorld _ rfl hkept.leaseInv
    (by decide +kernel)).1 _ [] (List.append_nil _).symm

/-- **Two ticks lease one task twice**, and the second one dispatches it when
the lease of the first one is committed. -/
theorem ticks_double_dispatch :
    ¬ ((tickCallers raceCallers raceWorld).run (exec Env.willing)
        (List.replicate 5 true ++ List.replicate 14 false
          ++ List.replicate 9 true)).shared.journal.Every OneLease
    ∧ ¬ (tickCallers raceCallers raceWorld).Respects (exec Env.willing)
        (NoLiveLease Env.willing (fun _ => 1800))
        (List.replicate 5 true ++ List.replicate 14 false ++ List.replicate 9 true) :=
  ⟨fun h => absurd (h.1 ("orch_" ++ Env.willing.uuid 0)) (by decide +kernel), by decide +kernel⟩

end Hmn.Orchestrator
