/-
  Hmn.Orchestrator.Store — the tables of the orchestrator and the calls that
  reach them.

  Here one call is one SQL statement, not one transaction: a `tick` reads,
  hands a task to a bridge and writes in several statements of one
  connection, and other connections come in between.  A SELECT reads the
  committed state, the first write of a connection opens its transaction,
  and a write finds the database locked while another connection has one
  open (`Hmn.Framework.Journal`).
-/
import Hmn.Framework.Interleave
import Hmn.Framework.Journal
import Hmn.Store.Frames

namespace Hmn.Orchestrator

open Framework

/-! ## §1. Rows. -/

inductive TaskStatus where
  | queued
  | leased
  | paused
  deriving DecidableEq

inductive AssignmentStatus where
  | leased
  | expired
  deriving DecidableEq

/-- A row of `orchestrator_tasks`. -/
structure OrchestratorTask where
  taskId : String
  title : String
  scope : String
  risk : String
  priority : Int
  status : TaskStatus := .queued
  workerHint : String := ""
  source : String := "cli"
  createdAt : Timestamp
  updatedAt : Timestamp
  attempts : Nat := 0
  deriving DecidableEq

/-- A row of `orchestrator_workers`. -/
structure Worker where
  workerId : String
  transport : String
  status : String
  labels : List String
  registeredAt : Timestamp
  updatedAt : Timestamp
  deriving DecidableEq

/-- A row of `orchestrator_assignments`. -/
structure Assignment where
  assignmentId : String
  taskId : String
  workerId : String
  status : AssignmentStatus
  leasedAt : Timestamp
  updatedAt : Timestamp
  deriving DecidableEq

/-- A row of `orchestrator_reports`. -/
structure Report where
  reportId : String
  taskId : String
  status : String
  summary : String
  createdAt : Timestamp
  deriving DecidableEq

/-- The tables. -/
structure Db where
  tasks : Table OrchestratorTask.taskId
  workers : Table Worker.workerId
  assignments : Table Assignment.assignmentId
  reports : Table Report.reportId
  audit : List AuditEvent

/-- A freshly migrated database. -/
def Db.empty : Db := ⟨.empty, .empty, .empty, .empty, []⟩

/-- Append to the audit log. -/
def Db.addAudit (db : Db) (event : AuditEvent) : Db := { db with audit := db.audit ++ [event] }

/-! ## §2. What the SELECTs of a tick read. -/

namespace Db

/-- The leases of leased tasks. -/
def leasedRows (db : Db) : List (String × Timestamp) :=
  (db.assignments.rows.filter (fun a => a.status = .leased
    ∧ (db.tasks.find? a.taskId).map OrchestratorTask.status = some .leased)).map
      (fun a => (a.taskId, a.leasedAt))

/-- `ORDER BY priority DESC, created_at ASC, task_id ASC`. -/
def taskOrder (a b : OrchestratorTask) : Prop :=
  b.priority < a.priority ∨ (b.priority = a.priority
    ∧ (a.createdAt < b.createdAt ∨ (a.createdAt = b.createdAt ∧ a.taskId ≤ b.taskId)))

instance (a b : OrchestratorTask) : Decidable (taskOrder a b) := by
  unfold taskOrder
  infer_instance

/-- The queued tasks of low risk. -/
def queuedLow (db : Db) : List OrchestratorTask :=
  db.tasks.rows.filter (fun t => t.status = .queued ∧ t.risk = "low")

/-- The task a tick selects. -/
def nextTask (db : Db) : Option OrchestratorTask :=
  (db.queuedLow.insertionSort taskOrder).head?

/-- `ORDER BY updated_at DESC, worker_id ASC`. -/
def workerOrder (a b : Worker) : Prop :=
  b.updatedAt < a.updatedAt ∨ (b.updatedAt = a.updatedAt ∧ a.workerId ≤ b.workerId)

instance (a b : Worker) : Decidable (workerOrder a b) := by
  unfold workerOrder
  infer_instance

/-- The worker a tick selects. -/
def nextWorker (db : Db) : Option Worker :=
  ((db.workers.rows.filter (fun w => w.status = "online" ∧ w.transport = "bridge")).insertionSort
    workerOrder).head?

end Db

/-! ## §3. Statements that write. -/

/-- The writing statements, with the values they are given. -/
inductive Statement where
  | insertTask (task : OrchestratorTask)
  /-- With `ON CONFLICT(worker_id) DO UPDATE`. -/
  | registerWorker (worker : Worker)
  | insertWorker (worker : Worker)
  | updateWorker (workerId transport status : String) (labels : List String) (now : Timestamp)
  | setAssignments (taskId : String) (status : AssignmentStatus) (now : Timestamp)
  | setTaskStatus (taskId : String) (status : TaskStatus) (now : Timestamp)
  | pauseTask (taskId : String) (attempts : Nat) (now : Timestamp)
  | setAttempts (taskId : String) (attempts : Nat) (now : Timestamp)
  | insertAssignment (assignment : Assignment)
  | insertReport (report : Report)

namespace OrchestratorTask

/-- What the UPDATEs of a task set. -/
def withStatus (status : TaskStatus) (now : Timestamp) (t : OrchestratorTask) : OrchestratorTask :=
  { t with status, updatedAt := now }

def withAttempts (attempts : Nat) (now : Timestamp) (t : OrchestratorTask) : OrchestratorTask :=
  { t with attempts, updatedAt := now }

def pausedAfter (attempts : Nat) (now : Timestamp) (t : OrchestratorTask) : OrchestratorTask :=
  { t with status := .paused, attempts, updatedAt := now }

@[simp] theorem withStatus_taskId (status : TaskStatus) (now : Timestamp) (t : OrchestratorTask) :
    (t.withStatus status now).taskId = t.taskId := rfl

@[simp] theorem withAttempts_taskId (attempts : Nat) (now : Timestamp) (t : OrchestratorTask) :
    (t.withAttempts attempts now).taskId = t.taskId := rfl

@[simp] theorem pausedAfter_taskId (attempts : Nat) (now : Timestamp) (t : OrchestratorTask) :
    (t.pausedAfter attempts now).taskId = t.taskId := rfl

end OrchestratorTask

/-- What the UPDATE of an assignment sets. -/
def Assignment.withStatus (status : AssignmentStatus) (now : Timestamp) (a : Assignment) :
    Assignment :=
  { a with status, updatedAt := now }

@[simp] theorem Assignment.withStatus_assignmentId (status : AssignmentStatus) (now : Timestamp)
    (a : Assignment) : (a.withStatus status now).assignmentId = a.assignmentId := rfl

/-- What the UPDATE of a worker sets. -/
def Worker.updated (transport status : String) (labels : List String) (now : Timestamp)
    (w : Worker) : Worker :=
  { w with transport, status, labels, updatedAt := now }

@[simp] theorem Worker.updated_workerId (transport status : String) (labels : List String)
    (now : Timestamp) (w : Worker) :
    (w.updated transport status labels now).workerId = w.workerId := rfl

/-- The UPDATEs of one task. -/
def Db.updateTask (db : Db) (taskId : String) (f : OrchestratorTask → OrchestratorTask)
    (hf : ∀ t, (f t).taskId = t.taskId) : Db :=
  { db with tasks := db.tasks.update (fun t => t.taskId = taskId) f hf }

/-- What a statement does; nothing when it meets a taken primary key. -/
def Statement.apply : Statement → Db → Option Db
  | .insertTask task, db => (db.tasks.insert? task).map fun tasks => { db with tasks }
  | .registerWorker worker, db =>
      match db.workers.find? worker.workerId with
      | none => some { db with workers := db.workers.upsert worker }
      | some old => some { db with
          workers := db.workers.upsert { worker with registeredAt := old.registeredAt } }
  | .insertWorker worker, db => (db.workers.insert? worker).map fun workers => { db with workers }
  | .updateWorker workerId transport status labels now, db =>
      some { db with
        workers := db.workers.update (fun w => w.workerId = workerId)
          (Worker.updated transport status labels now) (Worker.updated_workerId _ _ _ _) }
  | .setAssignments taskId status now, db =>
      some { db with
        assignments := db.assignments.update (fun a => a.taskId = taskId)
          (Assignment.withStatus status now) (Assignment.withStatus_assignmentId _ _) }
  | .setTaskStatus taskId status now, db =>
      some (db.updateTask taskId (OrchestratorTask.withStatus status now)
        (OrchestratorTask.withStatus_taskId _ _))
  | .pauseTask taskId attempts now, db =>
      some (db.updateTask taskId (OrchestratorTask.pausedAfter attempts now)
        (OrchestratorTask.pausedAfter_taskId _ _))
  | .setAttempts taskId attempts now, db =>
      some (db.updateTask taskId (OrchestratorTask.withAttempts attempts now)
        (OrchestratorTask.withAttempts_taskId _ _))
  | .insertAssignment assignment, db =>
      (db.assignments.insert? assignment).map fun assignments => { db with assignments }
  | .insertReport report, db =>
      (db.reports.insert? report).map fun reports => { db with reports }

/-! ## §4. The calls. -/

/-- The answers of the outside world; `bridge` is what the bridge adapter
raised, if it raised. -/
structure Env extends Hmn.Env where
  bridge : Nat → Except String Unit

/-- A task that was handed to the bridge, the worker it was meant for, and
whether the bridge took it. -/
structure Dispatch where
  task : OrchestratorTask
  worker : Worker
  taken : Bool
  deriving DecidableEq

/-- The database, the dispatches so far, and how many answers were used. -/
structure World where
  journal : Journal Db
  dispatches : List Dispatch := []
  connections : Nat := 0
  clock : Nat := 0
  uuids : Nat := 0

inductive SqlCall where
  | now
  | uuid4
  | connect
  | selectLeased (conn : Nat)
  | selectNextTask (conn : Nat)
  | selectOnlineWorker (conn : Nat)
  | selectWorker (conn : Nat) (workerId : String)
  | execute (conn : Nat) (statement : Statement)
  | commit (conn : Nat)
  | close (conn : Nat)
  /-- `bridge_adapter.dispatch`, by the tick that works on `conn`. -/
  | dispatch (conn : Nat) (task : OrchestratorTask) (worker : Worker)
  /-- `record_audit`, on a connection of its own. -/
  | recordAudit (eventType subjectType subjectId action outcome : String) (details : Dict)

@[reducible] def SqlCall.Res : SqlCall → Type
  | .now => Timestamp
  | .uuid4 => String
  | .connect => Nat
  | .selectLeased _ => List (String × Timestamp)
  | .selectNextTask _ => Option OrchestratorTask
  | .selectOnlineWorker _ => Option Worker
  | .selectWorker .. => Option Worker
  | .execute .. => Except PyError Unit
  | .commit _ => Unit
  | .close _ => Unit
  | .dispatch .. => Except String Unit
  | .recordAudit .. => Except PyError Unit

/-- The signature of the orchestrator's programs. -/
abbrev sqlSig : Sig := ⟨SqlCall, SqlCall.Res⟩

/-- A program of the orchestrator. -/
abbrev Sql (α : Type) := Prog sqlSig PyError α

/-- A bridge takes a task, or raises. -/
def taken : Except String Unit → Bool
  | .ok () => true
  | .error _ => false

/-- What each call does. -/
def exec (env : Env) : Prog.Exec sqlSig World
  | .now, w => (env.now w.clock, { w with clock := w.clock + 1 })
  | .uuid4, w => (env.uuid w.uuids, { w with uuids := w.uuids + 1 })
  | .connect, w => (w.connections, { w with connections := w.connections + 1 })
  | .selectLeased conn, w => ((w.journal.view conn).leasedRows, w)
  | .selectNextTask conn, w => ((w.journal.view conn).nextTask, w)
  | .selectOnlineWorker conn, w => ((w.journal.view conn).nextWorker, w)
  | .selectWorker conn workerId, w => ((w.journal.view conn).workers.find? workerId, w)
  | .execute conn statement, w =>
      if w.journal.locked conn then (.error databaseIsLocked, w)
      else
        match statement.apply (w.journal.view conn) with
        | none =>
          -- the transaction was opened before the statement failed
          (.error .integrity, { w with journal := w.journal.put conn (w.journal.view conn) })
        | some db => (.ok (), { w with journal := w.journal.put conn db })
  | .commit conn, w => ((), { w with journal := w.journal.commit conn })
  | .close conn, w => ((), { w with journal := w.journal.close conn })
  | .dispatch _ task worker, w =>
      (env.bridge w.dispatches.length, { w with
        dispatches := w.dispatches ++ [⟨task, worker, taken (env.bridge w.dispatches.length)⟩] })
  | .recordAudit eventType subjectType subjectId action outcome details, w =>
      let event : AuditEvent :=
        { eventType, subjectType, subjectId, action, outcome, details,
          createdAt := env.now w.clock }
      match w.journal.writer with
      | some _ => (.error databaseIsLocked, { w with clock := w.clock + 1 })
      | none =>
        (.ok (), { w with
          clock := w.clock + 1
          journal := { w.journal with committed := w.journal.committed.addAudit event } })

end Hmn.Orchestrator
