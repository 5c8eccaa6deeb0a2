/-
  Hmn.Orchestrator.Tick — the programs of the orchestrator.

  `enqueue`, `register_worker` and `update_worker` write one row.  A `tick`
  returns the leases that timed out, selects a task and a worker, hands the
  task to the bridge and then leases it, or counts the failure.

  Main result: `tick_cases` — what a tick that runs alone does, said once.
-/
import Hmn.Orchestrator.Store

namespace Hmn.Orchestrator

open Framework

/-! ## §1. Statements and connections. -/

/-- One call. -/
def call (op : SqlCall) : Sql (SqlCall.Res op) := Prog.lift (S := sqlSig) op

@[simp] theorem call_bind {α : Type} (op : SqlCall) (f : SqlCall.Res op → Sql α) :
    (call op >>= f) = Prog.call (S := sqlSig) op f := rfl

/-- Raise what a call answered with, if it answered with an exception. -/
def orRaise {α : Type} : Except PyError α → Sql α
  | .ok a => .ret a
  | .error e => .raise e

/-- `conn.execute(...)` of a statement that writes. -/
def execute (conn : Nat) (statement : Statement) : Sql Unit := do
  let r ← call (.execute conn statement)
  orRaise r

/-- `with store.connect() as conn`: a normal end commits, an exception does
not, and the connection is closed after both. -/
def withConnect {α : Type} (body : Nat → Sql α) : Sql α := do
  let conn ← call .connect
  let a ← (body conn).tryCatch fun e => do
    call (.close conn)
    throw e
  call (.commit conn)
  call (.close conn)
  return a

/-- `_record_audit`. -/
def recordAudit (subjectId action outcome : String) (details : Dict) : Sql Unit := do
  let r ← call (.recordAudit "orchestrator" "orchestrator_task" subjectId action outcome details)
  orRaise r

/-! ## §2. Tasks and workers. -/

/-- The row `enqueue` inserts. -/
def newTask (uuid title scope risk : String) (priority : Int) (workerHint source : String)
    (now : Timestamp) : OrchestratorTask where
  taskId := "orch_" ++ uuid
  title := title
  scope := scope
  risk := risk
  priority := priority
  workerHint := workerHint
  source := source
  createdAt := now
  updatedAt := now

/-- `enqueue`. -/
def enqueue (title scope risk : String) (priority : Int) (workerHint source : String) :
    Sql String := do
  let uuid ← call .uuid4
  let now ← call .now
  let task := newTask uuid title scope risk priority workerHint source now
  withConnect fun conn => execute conn (.insertTask task)
  recordAudit task.taskId "enqueue" "queued"
    [("title", .str title), ("scope", .str scope), ("risk", .str risk),
      ("priority", .int priority), ("worker_hint", .str workerHint), ("source", .str source)]
  return task.taskId

/-- `register_worker`. -/
def registerWorker (workerId transport status : String) (labels : List String) : Sql Unit := do
  let now ← call .now
  withConnect fun conn => execute conn (.registerWorker
    { workerId, transport, status, labels, registeredAt := now, updatedAt := now })

/-- The default of an absent or empty text. -/
def orDefault (text : Option String) (default_ : String) : String :=
  match text with
  | some text => if text = "" then default_ else text
  | none => default_

/-- `update_worker`. -/
def updateWorker (workerId status : String) (transport : Option String)
    (labels : Option (List String)) : Sql Unit := do
  let now ← call .now
  withConnect fun conn => do
    match ← call (.selectWorker conn workerId) with
    | none => execute conn (.insertWorker
        { workerId, transport := orDefault transport "bridge", status
          labels := labels.getD [], registeredAt := now, updatedAt := now })
    | some current => execute conn (.updateWorker workerId (transport.getD current.transport) status
        (labels.getD current.labels) now)

/-! ## §3. A tick. -/

/-- An entry of `blocked`. -/
structure Blocked where
  taskId : String
  reason : String
  attempt : Option Nat := none
  deriving DecidableEq

/-- What a tick answers. -/
structure TickResult where
  /-- The tasks that were leased, each with its worker. -/
  dispatched : List (String × String) := []
  blocked : List Blocked := []
  next : String
  deriving DecidableEq

/-- `age > lease_timeout_seconds`. -/
def leaseIsOver (now : Timestamp) (leaseTimeoutSeconds : Int) (leasedAt : Timestamp) : Bool :=
  decide ((leaseTimeoutSeconds : Rat) < Timestamp.totalSeconds (now - leasedAt))

/-- Return the leases that timed out to the queue. -/
def returnLeases (conn : Nat) (now : Timestamp) (leaseTimeoutSeconds : Int) :
    List (String × Timestamp) → Sql Unit
  | [] => return ()
  | (taskId, leasedAt) :: rest => do
    Prog.when (leaseIsOver now leaseTimeoutSeconds leasedAt) do
      execute conn (.setAssignments taskId .expired now)
      execute conn (.setTaskStatus taskId .queued now)
    returnLeases conn now leaseTimeoutSeconds rest

/-- No queued task of low risk. -/
def noTaskResult : TickResult where
  next := "暂无低风险可分发任务"

/-- No worker takes tasks. -/
def noWorkerResult (taskId : String) : TickResult where
  blocked := [{ taskId, reason := "暂无 online bridge worker" }]
  next := "等待 worker 上线后重试"

/-- The task was leased. -/
def leasedResult (taskId workerId : String) : TickResult where
  dispatched := [(taskId, workerId)]
  next := "等待 worker 回报"

/-- How the statements of a tick end. -/
inductive TickOutcome where
  | answered (result : TickResult)
  /-- With the audit event that is recorded after the commit. -/
  | failed (taskId outcome : String) (details : Dict) (result : TickResult)
  | leased (task : OrchestratorTask) (worker : Worker)

/-- The report a tick inserts. -/
def newReport (uuid taskId status summary : String) (now : Timestamp) : Report where
  reportId := "orch_rep_" ++ uuid
  taskId := taskId
  status := status
  summary := summary
  createdAt := now

/-- The assignment a tick inserts. -/
def newAssignment (uuid taskId workerId : String) (now : Timestamp) : Assignment where
  assignmentId := "orch_asg_" ++ uuid
  taskId := taskId
  workerId := workerId
  status := .leased
  leasedAt := now
  updatedAt := now

def pausedSummary (maxRetries : Nat) : String :=
  "连续 " ++ toString maxRetries ++ " 次分发失败，已暂停"

def failedReason (message : String) : String := "bridge dispatch failed: " ++ message

/-- The details of the event of a failed dispatch. -/
def failureDetails (worker : Worker) (attempts : Nat) (message : String) : Dict :=
  [("worker_id", .str worker.workerId), ("attempts", .int attempts), ("error", .str message)]

/-- The bridge raised: count the attempt, and pause the task at the last one. -/
def failDispatch (conn : Nat) (now : Timestamp) (maxRetries : Nat) (task : OrchestratorTask)
    (worker : Worker) (message : String) : Sql TickOutcome := do
  let attempts := task.attempts + 1
  if maxRetries ≤ attempts then
    execute conn (.pauseTask task.taskId attempts now)
    let uuid ← call .uuid4
    execute conn (.insertReport
      (newReport uuid task.taskId "paused" (pausedSummary maxRetries) now))
    return .failed task.taskId "paused" (failureDetails worker attempts message)
      { blocked := [{ taskId := task.taskId, reason := pausedSummary maxRetries }]
        next := "等待主控检查 worker/bridge 状态" }
  else
    execute conn (.setAttempts task.taskId attempts now)
    let uuid ← call .uuid4
    execute conn (.insertReport
      (newReport uuid task.taskId "retry" (failedReason message) now))
    return .failed task.taskId "retry" (failureDetails worker attempts message)
      { blocked := [{ taskId := task.taskId, reason := failedReason message, attempt := attempts }]
        next := "等待下一轮重试" }

/-- Lease a task to a worker. -/
def lease (conn : Nat) (now : Timestamp) (task : OrchestratorTask) (worker : Worker) :
    Sql TickOutcome := do
  let assignment ← call .uuid4
  execute conn (.setTaskStatus task.taskId .leased now)
  execute conn (.insertAssignment (newAssignment assignment task.taskId worker.workerId now))
  let uuid ← call .uuid4
  execute conn (.insertReport
    (newReport uuid task.taskId "leased" ("已分发给 " ++ worker.workerId) now))
  return .leased task worker

/-- `bridge_adapter.dispatch`, when there is an adapter. -/
def dispatchTo (conn : Nat) (bridge : Bool) (task : OrchestratorTask) (worker : Worker) :
    Sql (Except String Unit) :=
  if bridge then call (.dispatch conn task worker) else return .ok ()

/-- What a tick answers in the end. -/
def TickOutcome.result : TickOutcome → TickResult
  | .answered result => result
  | .failed _ _ _ result => result
  | .leased task worker => leasedResult task.taskId worker.workerId

/-- The statements of `tick`, on one connection. -/
def tickBody (bridge : Bool) (maxRetries : Nat) (leaseTimeoutSeconds : Int) (conn : Nat) :
    Sql TickOutcome := do
  let now ← call .now
  let leased ← call (.selectLeased conn)
  returnLeases conn now leaseTimeoutSeconds leased
  match ← call (.selectNextTask conn) with
  | none => return .answered noTaskResult
  | some task =>
    match ← call (.selectOnlineWorker conn) with
    | none => return .answered (noWorkerResult task.taskId)
    | some worker =>
      match ← dispatchTo conn bridge task worker with
      | .error message => failDispatch conn now maxRetries task worker message
      | .ok () => lease conn now task worker

/-- `tick`. -/
def tick (bridge : Bool) (maxRetries : Nat) (leaseTimeoutSeconds : Int) : Sql TickResult := do
  match ← withConnect (tickBody bridge maxRetries leaseTimeoutSeconds) with
  | .answered result => return result
  | .failed taskId outcome details result =>
    recordAudit taskId "tick/dispatch_failed" outcome details
    return result
  | .leased task worker =>
    recordAudit task.taskId "tick/lease" "leased" [("worker_id", .str worker.workerId)]
    return (TickOutcome.leased task worker).result

/-! ## §4. What a tick writes. -/

/-- The tasks with a lease that timed out. -/
def Db.overdue (db : Db) (now : Timestamp) (leaseTimeoutSeconds : Int) : List String :=
  (db.leasedRows.filter (fun row => leaseIsOver now leaseTimeoutSeconds row.2)).map Prod.fst

/-- Return the leases of the tasks `ids` to the queue. -/
def Db.expireTasks (db : Db) (now : Timestamp) (ids : List String) : Db :=
  { db with
    assignments := db.assignments.update (fun a => a.taskId ∈ ids)
      (Assignment.withStatus .expired now) (Assignment.withStatus_assignmentId _ _)
    tasks := db.tasks.update (fun t => t.taskId ∈ ids)
      (OrchestratorTask.withStatus .queued now) (OrchestratorTask.withStatus_taskId _ _) }

/-- The database after the leases that timed out were returned. -/
def Db.returned (db : Db) (now : Timestamp) (leaseTimeoutSeconds : Int) : Db :=
  db.expireTasks now (db.overdue now leaseTimeoutSeconds)

/-- The database after a failed dispatch was counted. -/
def Db.countFailure (db : Db) (now : Timestamp) (maxRetries : Nat) (task : OrchestratorTask) : Db :=
  if maxRetries ≤ task.attempts + 1 then
    db.updateTask task.taskId (OrchestratorTask.pausedAfter (task.attempts + 1) now)
      (OrchestratorTask.pausedAfter_taskId _ _)
  else
    db.updateTask task.taskId (OrchestratorTask.withAttempts (task.attempts + 1) now)
      (OrchestratorTask.withAttempts_taskId _ _)

/-- The report of a failed dispatch. -/
def failureReport (uuid : String) (now : Timestamp) (maxRetries : Nat) (task : OrchestratorTask)
    (message : String) : Report :=
  if maxRetries ≤ task.attempts + 1 then
    newReport uuid task.taskId "paused" (pausedSummary maxRetries) now
  else newReport uuid task.taskId "retry" (failedReason message) now

/-- What a tick answers after a failed dispatch. -/
def failureResult (maxRetries : Nat) (task : OrchestratorTask) (message : String) : TickResult :=
  if maxRetries ≤ task.attempts + 1 then
    { blocked := [{ taskId := task.taskId, reason := pausedSummary maxRetries }]
      next := "等待主控检查 worker/bridge 状态" }
  else
    { blocked := [{ taskId := task.taskId, reason := failedReason message
                    attempt := some (task.attempts + 1) }]
      next := "等待下一轮重试" }

/-- The database after a task was set leased. -/
def Db.setLeased (db : Db) (now : Timestamp) (task : OrchestratorTask) : Db :=
  db.updateTask task.taskId (OrchestratorTask.withStatus .leased now)
    (OrchestratorTask.withStatus_taskId _ _)

/-- What a tick that runs alone in `w` can do: its answer, the database it
leaves, the tasks it hands to the bridge and the identifiers it draws. -/
inductive Ticked (env : Env) (bridge : Bool) (maxRetries : Nat) (now : Timestamp) (db : Db)
    (w : World) : Except PyError TickResult → Db → List Dispatch → Nat → Prop
  | noTask (hnone : db.nextTask = none) :
      Ticked env bridge maxRetries now db w (.ok noTaskResult) db [] 0
  | noWorker (task : OrchestratorTask) (hnext : db.nextTask = some task)
      (hnone : db.nextWorker = none) :
      Ticked env bridge maxRetries now db w (.ok (noWorkerResult task.taskId)) db [] 0
  | failed (task : OrchestratorTask) (worker : Worker) (message : String)
      (reports : Table Report.reportId) (hnext : db.nextTask = some task)
      (hworker : db.nextWorker = some worker) (hbridge : bridge = true)
      (hraised : env.bridge w.dispatches.length = .error message)
      (hreport : db.reports.insert? (failureReport (env.uuid w.uuids) now maxRetries task message)
        = some reports) :
      Ticked env bridge maxRetries now db w (.ok (failureResult maxRetries task message))
        { db.countFailure now maxRetries task with reports } [⟨task, worker, false⟩] 1
  | leased (task : OrchestratorTask) (worker : Worker) (dispatches : List Dispatch)
      (assignments : Table Assignment.assignmentId) (reports : Table Report.reportId)
      (hnext : db.nextTask = some task) (hworker : db.nextWorker = some worker)
      (hdispatches : dispatches = if bridge then [⟨task, worker, true⟩] else [])
      (hassignment : db.assignments.insert?
        (newAssignment (env.uuid w.uuids) task.taskId worker.workerId now) = some assignments)
      (hreport : db.reports.insert? (newReport (env.uuid (w.uuids + 1)) task.taskId "leased"
        ("已分发给 " ++ worker.workerId) now) = some reports) :
      Ticked env bridge maxRetries now db w (.ok (leasedResult task.taskId worker.workerId))
        { db.setLeased now task with assignments, reports } dispatches 2
  /-- An identifier that was drawn is taken: everything is rolled back. -/
  | refused (dispatches : List Dispatch) (drawn k : Nat) (hk : w.uuids ≤ k ∧ k < w.uuids + drawn)
      (htaken : db.assignments.find? ("orch_asg_" ++ env.uuid k) ≠ none
        ∨ db.reports.find? ("orch_rep_" ++ env.uuid k) ≠ none) :
      Ticked env bridge maxRetries now db w (.error .integrity) w.journal.committed dispatches drawn

/-! ## §5. Running the pieces. -/

section Run

variable {env : Env} {α : Type} {w : World} {conn : Nat} {db : Db}

theorem run_call_bind (op : SqlCall) (f : SqlCall.Res op → Sql α) (w : World) :
    (call op >>= f).run (exec env) w = (f (exec env op w).1).run (exec env) (exec env op w).2 := rfl

/-- A statement of a connection that nobody locks out. -/
theorem run_execute_bind {statement : Statement} (f : Unit → Sql α)
    (h : w.journal.Sees conn db) :
    (execute conn statement >>= f).run (exec env) w =
      match statement.apply db with
      | none => (.error .integrity, { w with journal := w.journal.put conn db })
      | some db' => (f ()).run (exec env) { w with journal := w.journal.put conn db' } := by
  unfold execute
  rw [bind_assoc, run_call_bind]
  simp only [exec, h.locked, h.view, Bool.false_eq_true, if_false]
  cases statement.apply db <;> rfl

theorem run_execute {statement : Statement} (h : w.journal.Sees conn db) :
    (execute conn statement).run (exec env) w =
      match statement.apply db with
      | none => (.error .integrity, { w with journal := w.journal.put conn db })
      | some db' => (.ok (), { w with journal := w.journal.put conn db' }) := by
  have hrun : (execute conn statement >>= .ret).run (exec env) w = _ := run_execute_bind .ret h
  rwa [Prog.bind_ret] at hrun

theorem run_withConnect (body : Nat → Sql α) (w : World) :
    (withConnect body).run (exec env) w =
      match (body w.connections).run (exec env) { w with connections := w.connections + 1 } with
      | (.ok a, w') => (.ok a, { w' with
          journal := (w'.journal.commit w.connections).close w.connections })
      | (.error e, w') => (.error e, { w' with journal := w'.journal.close w.connections }) := by
  unfold withConnect
  rw [run_call_bind]
  simp only [exec]
  rw [Prog.run_bind, Prog.run_tryCatch]
  cases (body w.connections).run (exec env) { w with connections := w.connections + 1 } with
  | mk r w' => cases r <;> rfl

theorem expireTasks_nil (now : Timestamp) : db.expireTasks now [] = db := by
  unfold Db.expireTasks
  simp [Table.update_false]

theorem expireTasks_cons (now : Timestamp) (id : String) (ids : List String) :
    (db.expireTasks now [id]).expireTasks now ids = db.expireTasks now (id :: ids) := by
  unfold Db.expireTasks
  simp only
  congr 1
  · refine (Table.update_again _ _ _ _ _ (fun t => ?_) (fun t => ?_)).trans ?_
    · rfl
    · rfl
    · exact Table.update_congr (fun t _ => by simp)
  · refine (Table.update_again _ _ _ _ _ (fun a => ?_) (fun a => ?_)).trans ?_
    · rfl
    · rfl
    · exact Table.update_congr (fun a _ => by simp)

/-- The two statements that return the lease of one task. -/
theorem expireTasks_single (now : Timestamp) (id : String) :
    db.expireTasks now [id] = Db.updateTask { db with
        assignments := db.assignments.update (fun a => a.taskId = id)
          (Assignment.withStatus .expired now) (Assignment.withStatus_assignmentId _ _) }
      id (OrchestratorTask.withStatus .queued now) (OrchestratorTask.withStatus_taskId _ _) := by
  unfold Db.expireTasks Db.updateTask
  congr 1
  · exact Table.update_congr (fun t _ => by simp)
  · exact Table.update_congr (fun a _ => by simp)

/-- The loop over the leases returns those that timed out. -/
theorem returnLeases_run (env : Env) (conn : Nat) (now : Timestamp) (timeout : Int) (rows : List (String × Timestamp)) :
    ∀ w db, w.journal.Sees conn db → ∃ j,
      (returnLeases conn now timeout rows).run (exec env) w = (.ok (), { w with journal := j })
      ∧ j.Sees conn (db.expireTasks now
          ((rows.filter (fun row => leaseIsOver now timeout row.2)).map Prod.fst))
      ∧ j.committed = w.journal.committed := by
  induction rows with
  | nil =>
    intro w db h
    refine ⟨w.journal, rfl, ?_, rfl⟩
    rwa [List.filter_nil, List.map_nil, expireTasks_nil]
  | cons row rows ih =>
    intro w db h
    obtain ⟨taskId, leasedAt⟩ := row
    unfold returnLeases
    cases hover : leaseIsOver now timeout leasedAt with
    | false =>
      obtain ⟨j, hrun, hsees, hcommitted⟩ := ih w db h
      refine ⟨j, hrun, ?_, hcommitted⟩
      rwa [List.filter_cons_of_neg (by simp [hover])]
    | true =>
      rw [Prog.when_true, bind_assoc, run_execute_bind _ h]
      simp only [Statement.apply]
      rw [run_execute_bind _ (Journal.sees_put _ _ _)]
      simp only [Statement.apply]
      obtain ⟨j, hrun, hsees, hcommitted⟩ := ih
        { w with journal := w.journal.put conn (db.expireTasks now [taskId]) } _
        (Journal.sees_put _ _ _)
      refine ⟨j, ?_, ?_, hcommitted⟩
      · rw [← hrun, expireTasks_single]
        rfl
      · rw [expireTasks_cons] at hsees
        rwa [List.filter_cons_of_pos (by simp [hover]), List.map_cons]

/-- A run that ends with everything rolled back: an identifier is taken. -/
def Refused (env : Env) (db : Db) (w w' : World) (n : Nat) : Prop :=
  (∃ k, (w.uuids ≤ k ∧ k < w.uuids + n)
    ∧ (db.assignments.find? ("orch_asg_" ++ env.uuid k) ≠ none
      ∨ db.reports.find? ("orch_rep_" ++ env.uuid k) ≠ none))
  ∧ w'.journal.committed = w.journal.committed ∧ w'.dispatches = w.dispatches
  ∧ w'.uuids = w.uuids + n

theorem insert?_eq_none {ρ κ : Type} {key : ρ → κ} [DecidableEq κ] {t : Table key} {r : ρ} :
    t.insert? r = none ↔ t.find? (key r) ≠ none := by
  unfold Table.insert?
  split_ifs with h <;> simp [h]

theorem lease_run (env : Env) (now : Timestamp) (task : OrchestratorTask) (worker : Worker)
    (h : w.journal.Sees conn db) :
    (∃ assignments reports j,
      db.assignments.insert? (newAssignment (env.uuid w.uuids) task.taskId worker.workerId now)
        = some assignments
      ∧ db.reports.insert? (newReport (env.uuid (w.uuids + 1)) task.taskId "leased"
          ("已分发给 " ++ worker.workerId) now) = some reports
      ∧ (lease conn now task worker).run (exec env) w
        = (.ok (.leased task worker), { w with journal := j, uuids := w.uuids + 2 })
      ∧ j.Sees conn { db.setLeased now task with assignments, reports }
      ∧ j.committed = w.journal.committed)
    ∨ ∃ w' db' n, (lease conn now task worker).run (exec env) w = (.error .integrity, w')
      ∧ w'.journal.Sees conn db' ∧ Refused env db w w' n := by
  unfold lease
  rw [run_call_bind]
  simp only [exec]
  have hsees : ({ w with uuids := w.uuids + 1 } : World).journal.Sees conn db := h
  rw [run_execute_bind _ hsees]
  simp only [Statement.apply]
  rw [run_execute_bind _ (Journal.sees_put _ _ _)]
  simp only [Statement.apply, Db.updateTask]
  cases hassignment : db.assignments.insert?
      (newAssignment (env.uuid w.uuids) task.taskId worker.workerId now) with
  | none =>
    refine Or.inr ⟨_, _, 1, rfl, Journal.sees_put _ _ _, ?_, rfl, rfl, rfl⟩
    exact ⟨w.uuids, ⟨le_rfl, Nat.lt_succ_self _⟩, Or.inl (insert?_eq_none.mp hassignment)⟩
  | some assignments =>
    simp only [Option.map_some]
    rw [run_call_bind]
    simp only [exec]
    rw [run_execute_bind _ (Journal.sees_put _ _ _)]
    simp only [Statement.apply]
    cases hreport : db.reports.insert? (newReport (env.uuid (w.uuids + 1)) task.taskId "leased"
        ("已分发给 " ++ worker.workerId) now) with
    | none =>
      refine Or.inr ⟨_, _, 2, rfl, Journal.sees_put _ _ _, ?_, rfl, rfl, rfl⟩
      exact ⟨w.uuids + 1, ⟨Nat.le_succ _, Nat.lt_succ_self _⟩,
        Or.inr (insert?_eq_none.mp hreport)⟩
    | some reports =>
      exact Or.inl ⟨assignments, reports, _, rfl, rfl, rfl, Journal.sees_put _ _ _, rfl⟩

/-- Insert the report of a failed dispatch. -/
theorem failDispatch_run (env : Env) (now : Timestamp) (maxRetries : Nat) (task : OrchestratorTask)
    (worker : Worker) (message : String) (h : w.journal.Sees conn db) :
    (∃ reports j outcome details,
      db.reports.insert? (failureReport (env.uuid w.uuids) now maxRetries task message)
        = some reports
      ∧ (failDispatch conn now maxRetries task worker message).run (exec env) w
        = (.ok (.failed task.taskId outcome details (failureResult maxRetries task message)),
          { w with journal := j, uuids := w.uuids + 1 })
      ∧ j.Sees conn { db.countFailure now maxRetries task with reports }
      ∧ j.committed = w.journal.committed)
    ∨ ∃ w' db' n, (failDispatch conn now maxRetries task worker message).run (exec env) w
        = (.error .integrity, w') ∧ w'.journal.Sees conn db' ∧ Refused env db w w' n := by
  unfold failDispatch failureReport failureResult Db.countFailure
  simp only
  by_cases hlast : maxRetries ≤ task.attempts + 1
  · simp only [if_pos hlast]
    rw [run_execute_bind _ h]
    simp only [Statement.apply]
    rw [run_call_bind]
    simp only [exec]
    rw [run_execute_bind _ (Journal.sees_put _ _ _)]
    simp only [Statement.apply, Db.updateTask]
    cases hreport : db.reports.insert?
        (newReport (env.uuid w.uuids) task.taskId "paused" (pausedSummary maxRetries) now) with
    | none =>
      refine Or.inr ⟨_, _, 1, rfl, Journal.sees_put _ _ _, ?_, rfl, rfl, rfl⟩
      exact ⟨w.uuids, ⟨le_rfl, Nat.lt_succ_self _⟩, Or.inr (insert?_eq_none.mp hreport)⟩
    | some reports => exact Or.inl ⟨reports, _, _, _, rfl, rfl, Journal.sees_put _ _ _, rfl⟩
  · simp only [if_neg hlast]
    rw [run_execute_bind _ h]
    simp only [Statement.apply]
    rw [run_call_bind]
    simp only [exec]
    rw [run_execute_bind _ (Journal.sees_put _ _ _)]
    simp only [Statement.apply, Db.updateTask]
    cases hreport : db.reports.insert?
        (newReport (env.uuid w.uuids) task.taskId "retry" (failedReason message) now) with
    | none =>
      refine Or.inr ⟨_, _, 1, rfl, Journal.sees_put _ _ _, ?_, rfl, rfl, rfl⟩
      exact ⟨w.uuids, ⟨le_rfl, Nat.lt_succ_self _⟩, Or.inr (insert?_eq_none.mp hreport)⟩
    | some reports => exact Or.inl ⟨reports, _, _, _, rfl, rfl, Journal.sees_put _ _ _, rfl⟩

/-- What a body leaves for its connection to commit or to roll back. -/
structure BodyRan (env : Env) (bridge : Bool) (maxRetries : Nat) (now : Timestamp) (db : Db)
    (conn : Nat) (w : World) (r : Except PyError TickOutcome) (w' : World) : Prop where
  ran : ∃ db' dispatches n, w'.journal.Sees conn db'
    ∧ Ticked env bridge maxRetries now db w (r.map TickOutcome.result)
        (match r with | .ok _ => db' | .error _ => w.journal.committed) dispatches n
    ∧ w'.dispatches = w.dispatches ++ dispatches ∧ w'.uuids = w.uuids + n
  committed : w'.journal.committed = w.journal.committed

/-- A refused statement ends a body. -/
theorem bodyRan_refused {bridge : Bool} {maxRetries : Nat} {now : Timestamp} {db' : Db}
    {w₁ w' : World} {n : Nat} {dispatches : List Dispatch}
    (h : Refused env db w₁ w' n) (hsees : w'.journal.Sees conn db')
    (hcommitted : w₁.journal.committed = w.journal.committed) (huuids : w₁.uuids = w.uuids)
    (hdispatches : w₁.dispatches = w.dispatches ++ dispatches) :
    BodyRan env bridge maxRetries now db conn w (.error .integrity) w' := by
  obtain ⟨⟨k, hk, htaken⟩, hsame, hsent, hdrawn⟩ := h
  rw [huuids] at hk hdrawn
  refine ⟨⟨db', dispatches, n, hsees, .refused dispatches n k hk htaken, ?_, hdrawn⟩, ?_⟩
  · rw [hsent, hdispatches]
  · rw [hsame, hcommitted]

/-- The body of a tick that runs alone, on whichever connection. -/
theorem tickBody_run (env : Env) (conn : Nat) (bridge : Bool) (maxRetries : Nat) (timeout : Int)
    (w : World) (connections : Nat) (hidle : w.journal.writer = none) : ∃ r w',
      (tickBody bridge maxRetries timeout conn).run (exec env) { w with connections } = (r, w')
      ∧ BodyRan env bridge maxRetries (env.now w.clock)
          (w.journal.committed.returned (env.now w.clock) timeout) conn w r w' := by
  have hview := (Journal.sees_of_idle hidle conn).view
  unfold tickBody
  rw [run_call_bind]
  simp only [exec]
  rw [run_call_bind]
  simp only [exec, hview]
  obtain ⟨j, hreturned, hsees, hcommitted⟩ := returnLeases_run env conn
    (env.now w.clock) timeout w.journal.committed.leasedRows
    { w with connections, clock := w.clock + 1 }
    w.journal.committed (Journal.sees_of_idle hidle conn)
  change j.Sees conn (w.journal.committed.returned (env.now w.clock) timeout) at hsees
  generalize w.journal.committed.returned (env.now w.clock) timeout = db at hsees
  rw [Prog.run_bind, hreturned]
  simp only
  rw [run_call_bind]
  simp only [exec, hsees.view]
  cases hnext : db.nextTask with
  | none =>
    exact ⟨_, _, rfl, ⟨db, [], 0, hsees, .noTask hnext, (List.append_nil _).symm, rfl⟩, hcommitted⟩
  | some task =>
    simp only
    rw [run_call_bind]
    simp only [exec, hsees.view]
    cases hworker : db.nextWorker with
    | none =>
      exact ⟨_, _, rfl, ⟨db, [], 0, hsees, .noWorker task hnext hworker,
        (List.append_nil _).symm, rfl⟩, hcommitted⟩
    | some worker =>
      simp only
      cases bridge with
      | false =>
        show ∃ r w', (lease conn _ task worker).run (exec env) _ = (r, w') ∧ _
        rcases lease_run env (env.now w.clock) task worker
            (w := { w with connections, clock := w.clock + 1, journal := j }) hsees with
          ⟨assignments, reports, j', hassignment, hreport, hrun, hsees', hsame⟩
          | ⟨w', db', n, hrun, hsees', hrefused⟩
        · refine ⟨_, _, hrun, ⟨_, [], 2, hsees', ?_, (List.append_nil _).symm, rfl⟩, ?_⟩
          · exact .leased task worker [] assignments reports hnext hworker rfl hassignment hreport
          · exact hsame.trans hcommitted
        · exact ⟨_, _, hrun, bodyRan_refused hrefused hsees' hcommitted rfl
            (List.append_nil _).symm⟩
      | true =>
        show ∃ r w', ((call (.dispatch conn task worker) >>= _)).run (exec env) _ = (r, w') ∧ _
        rw [run_call_bind]
        simp only [exec]
        cases hraised : env.bridge w.dispatches.length with
        | error message =>
          simp only
          rcases failDispatch_run env (env.now w.clock) maxRetries task worker message
              (w := { w with
                connections
                clock := w.clock + 1
                journal := j
                dispatches := w.dispatches ++ [⟨task, worker, false⟩] }) hsees with
            ⟨reports, j', outcome, details, hreport, hrun, hsees', hsame⟩
            | ⟨w', db', n, hrun, hsees', hrefused⟩
          · refine ⟨_, _, hrun, ⟨_, [⟨task, worker, false⟩], 1, hsees', ?_, rfl, rfl⟩, ?_⟩
            · exact .failed task worker message reports hnext hworker rfl hraised hreport
            · exact hsame.trans hcommitted
          · exact ⟨_, _, hrun, bodyRan_refused hrefused hsees' hcommitted rfl rfl⟩
        | ok u =>
          simp only
          rcases lease_run env (env.now w.clock) task worker
              (w := { w with
                connections
                clock := w.clock + 1
                journal := j
                dispatches := w.dispatches ++ [⟨task, worker, true⟩] }) hsees with
            ⟨assignments, reports, j', hassignment, hreport, hrun, hsees', hsame⟩
            | ⟨w', db', n, hrun, hsees', hrefused⟩
          · refine ⟨_, _, hrun, ⟨_, [⟨task, worker, true⟩], 2, hsees', ?_, rfl, rfl⟩, ?_⟩
            · exact .leased task worker _ assignments reports hnext hworker rfl hassignment hreport
            · exact hsame.trans hcommitted
          · exact ⟨_, _, hrun, bodyRan_refused hrefused hsees' hcommitted rfl rfl⟩

theorem run_recordAudit_bind (env : Env) (f : Unit → Sql α)
    (subjectId action outcome : String) (details : Dict) (hidle : w.journal.writer = none) : ∃ event,
    (recordAudit subjectId action outcome details >>= f).run (exec env) w
      = (f ()).run (exec env) { w with
          clock := w.clock + 1
          journal := { w.journal with committed := w.journal.committed.addAudit event } } := by
  unfold recordAudit
  rw [bind_assoc, run_call_bind]
  simp only [exec, hidle]
  exact ⟨_, rfl⟩

/-- **What a tick that runs alone does**: the answer, the dispatches and,
audit events apart, the database. -/
theorem tick_cases (env : Env) (bridge : Bool) (maxRetries : Nat) (timeout : Int) (w : World)
    (hidle : w.journal.writer = none) : ∃ r db dispatches n,
      Ticked env bridge maxRetries (env.now w.clock)
        (w.journal.committed.returned (env.now w.clock) timeout) w r db dispatches n
      ∧ ∃ w', (tick bridge maxRetries timeout).run (exec env) w = (r, w')
        ∧ (∃ events, w'.journal = ⟨{ db with audit := db.audit ++ events }, none⟩)
        ∧ w'.dispatches = w.dispatches ++ dispatches ∧ w'.uuids = w.uuids + n := by
  obtain ⟨r, w₁, hrun, ⟨⟨db', dispatches, n, hsees, hticked, hsent, hdrawn⟩, hcommitted⟩⟩ :=
    tickBody_run env w.connections bridge maxRetries timeout w
      (w.connections + 1) hidle
  unfold tick
  rw [Prog.run_bind, run_withConnect, hrun]
  cases r with
  | error e =>
    refine ⟨_, _, dispatches, n, hticked, _, rfl, ⟨[], ?_⟩, hsent, hdrawn⟩
    simp only
    rw [hsees.close, hcommitted]
    simp
  | ok outcome =>
    simp only [hsees.commit_close]
    refine ⟨_, db', dispatches, n, hticked, ?_⟩
    cases outcome with
    | answered result => exact ⟨_, rfl, ⟨[], by simp⟩, hsent, hdrawn⟩
    | failed taskId outcome details result =>
      obtain ⟨event, hevent⟩ := run_recordAudit_bind env (w := { w₁ with
        journal := ⟨db', none⟩ }) (fun _ => (.ret result : Sql TickResult)) taskId
        "tick/dispatch_failed" outcome details rfl
      exact ⟨_, hevent, ⟨[event], rfl⟩, hsent, hdrawn⟩
    | leased task worker =>
      obtain ⟨event, hevent⟩ := run_recordAudit_bind env (w := { w₁ with
        journal := ⟨db', none⟩ })
        (fun _ => (.ret (TickOutcome.leased task worker).result : Sql TickResult)) task.taskId
        "tick/lease" "leased" [("worker_id", .str worker.workerId)] rfl
      exact ⟨_, hevent, ⟨[event], rfl⟩, hsent, hdrawn⟩

/-- One statement on a connection of its own. -/
theorem run_withConnect_execute (statement : Statement) (w : World)
    (hidle : w.journal.writer = none) :
    (withConnect fun conn => execute conn statement).run (exec env) w =
      match statement.apply w.journal.committed with
      | none => (.error .integrity, { w with connections := w.connections + 1 })
      | some db => (.ok (), { w with
          connections := w.connections + 1, journal := ⟨db, none⟩ }) := by
  have hsees := Journal.sees_of_idle hidle w.connections
  rw [run_withConnect, run_execute (by exact hsees)]
  cases statement.apply w.journal.committed with
  | none =>
    simp only [(Journal.sees_put _ _ _).close]
    rw [Journal.eq_of_idle hidle]
    rfl
  | some db => simp only [(Journal.sees_put _ _ _).commit_close]

/-- **What `enqueue` does when it runs alone**: a task with a new identifier
is queued; audit events apart nothing else changes. -/
theorem enqueue_cases (env : Env) (title scope risk : String) (priority : Int)
    (workerHint source : String) (w : World) (hidle : w.journal.writer = none) : ∃ db,
    (db = w.journal.committed ∨ ∃ tasks,
      w.journal.committed.tasks.insert?
        (newTask (env.uuid w.uuids) title scope risk priority workerHint source (env.now w.clock))
        = some tasks ∧ db = { w.journal.committed with tasks })
    ∧ ∃ r w', (enqueue title scope risk priority workerHint source).run (exec env) w = (r, w')
      ∧ (∃ events, w'.journal = ⟨{ db with audit := db.audit ++ events }, none⟩)
      ∧ w'.dispatches = w.dispatches ∧ w'.uuids = w.uuids + 1 := by
  unfold enqueue
  rw [run_call_bind]
  simp only [exec]
  rw [run_call_bind]
  simp only [exec]
  rw [Prog.run_bind, run_withConnect_execute _ _ (by exact hidle)]
  simp only [Statement.apply]
  cases hinsert : w.journal.committed.tasks.insert? (newTask (env.uuid w.uuids) title scope risk
      priority workerHint source (env.now w.clock)) with
  | none =>
    refine ⟨w.journal.committed, Or.inl rfl, _, _, rfl, ⟨[], ?_⟩, rfl, rfl⟩
    rw [List.append_nil]
    exact Journal.eq_of_idle hidle
  | some tasks =>
    refine ⟨{ w.journal.committed with tasks }, Or.inr ⟨tasks, rfl, rfl⟩, ?_⟩
    simp only [Option.map_some]
    obtain ⟨event, hevent⟩ := run_recordAudit_bind env (w := { w with
      connections := w.connections + 1
      clock := w.clock + 1
      uuids := w.uuids + 1
      journal := ⟨{ w.journal.committed with tasks }, none⟩ })
      (fun _ => (.ret (newTask (env.uuid w.uuids) title scope risk priority workerHint source
        (env.now w.clock)).taskId : Sql String)) _ "enqueue" "queued" _ rfl
    exact ⟨_, _, hevent, ⟨[event], rfl⟩, rfl, rfl⟩

/-- `register_worker` and `update_worker` change the workers alone. -/
theorem registerWorker_run (env : Env) (workerId transport status : String)
    (labels : List String) (w : World) (hidle : w.journal.writer = none) : ∃ workers w',
    (registerWorker workerId transport status labels).run (exec env) w = (.ok (), w')
    ∧ w'.journal = ⟨{ w.journal.committed with workers }, none⟩
    ∧ w'.dispatches = w.dispatches ∧ w'.uuids = w.uuids := by
  unfold registerWorker
  rw [run_call_bind]
  simp only [exec]
  rw [run_withConnect_execute _ _ (by exact hidle)]
  simp only [Statement.apply]
  cases w.journal.committed.workers.find? workerId with
  | none => exact ⟨_, _, rfl, rfl, rfl, rfl⟩
  | some old => exact ⟨_, _, rfl, rfl, rfl, rfl⟩

theorem updateWorker_run (env : Env) (workerId status : String) (transport : Option String)
    (labels : Option (List String)) (w : World) (hidle : w.journal.writer = none) :
    ∃ workers r w', (updateWorker workerId status transport labels).run (exec env) w = (r, w')
      ∧ w'.journal = ⟨{ w.journal.committed with workers }, none⟩
      ∧ w'.dispatches = w.dispatches ∧ w'.uuids = w.uuids := by
  have hsees := Journal.sees_of_idle hidle w.connections
  unfold updateWorker
  rw [run_call_bind]
  simp only [exec]
  rw [run_withConnect, run_call_bind]
  simp only [exec, hsees.view]
  cases w.journal.committed.workers.find? workerId with
  | none =>
    simp only
    rw [run_execute (by exact hsees)]
    simp only [Statement.apply]
    cases w.journal.committed.workers.insert? _ with
    | none =>
      refine ⟨w.journal.committed.workers, _, _, rfl, ?_, rfl, rfl⟩
      simp only [(Journal.sees_put _ _ _).close]
      rfl
    | some workers =>
      refine ⟨workers, _, _, rfl, ?_, rfl, rfl⟩
      simp only [(Journal.sees_put _ _ _).commit_close]
  | some current =>
    simp only
    rw [run_execute (by exact hsees)]
    simp only [Statement.apply, (Journal.sees_put _ _ _).commit_close]
    exact ⟨_, _, _, rfl, rfl, rfl, rfl⟩

end Run

end Hmn.Orchestrator
