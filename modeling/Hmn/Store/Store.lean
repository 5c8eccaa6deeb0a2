/-
  Hmn.Store.Store — the database and its single-transaction operations.

  A `Store` is the tables; every operation below is what ONE database
  transaction of `SQLiteStore` does, as a function of the state it finds.
  Methods that use several transactions are programs (`Hmn.Store.Calls`).

  A transaction that reads the clock more than once takes the readings as
  `clock 0, clock 1, …`; one that draws an identifier takes it as `uuid`.
  An early `return` inside `with self.connect()` commits what was written,
  an exception rolls back: the latter are the `.error` answers with the
  store unchanged.
-/
import Hmn.Framework.Table
import Hmn.Store.Records
import Mathlib.Data.List.MinMax
import Mathlib.Data.List.Sort

namespace Hmn

open Framework

/-- What an operation can raise. -/
inductive PyError where
  /-- `fastapi.HTTPException(status_code, detail)`. -/
  | http (statusCode : Nat) (detail : String)
  /-- `NetworkProviderError(message)`. -/
  | networkProvider (message : String)
  /-- `typer.Exit(code)`. -/
  | typerExit (code : Nat)
  /-- `sqlite3.IntegrityError`: an INSERT met a taken primary key. -/
  | integrity
  /-- A file that cannot be read as text. -/
  | unreadable (path : String)
  /-- `ValueError(message)`. -/
  | value (message : String)
  /-- `PermissionError(message)`. -/
  | permission (message : String)
  /-- `SSHExecutionError`. -/
  | sshExecution (taskId : String) (exitCode : Int) (stderr stdout : String) (durationMs : Nat)
      (failureReason : String)
  /-- `AssertionError`. -/
  | assertion
  /-- `subprocess.TimeoutExpired`. -/
  | timeout
  /-- `TypeError(message)`. -/
  | type (message : String)
  /-- `AttributeError(message)`. -/
  | attribute (message : String)
  /-- `RuntimeError(message)`. -/
  | runtime (message : String)
  /-- `sqlite3.OperationalError(message)`. -/
  | operational (message : String)
  /-- `OSError(message)`. -/
  | os (message : String)
  /-- `OverflowError(message)`. -/
  | overflow (message : String)
  /-- `IndexError(message)`. -/
  | index (message : String)
  /-- `KeyError(key)`. -/
  | key (key : String)
  deriving DecidableEq

/-- The busy timeout of a connection ran out. -/
def databaseIsLocked : PyError := .operational "database is locked"

/-- The tables. -/
structure Store where
  nodes : Table Node.nodeId
  tokens : Table JoinToken.value
  tasks : Table Task.taskId
  approvals : Table ApprovalRequest.approvalId
  notifications : Table Notification.notificationId
  componentRuns : Table ComponentRun.runId
  nodeComponents : Table NodeComponent.key
  audit : List AuditEvent

namespace Store

/-- A freshly migrated database. -/
def empty : Store where
  nodes := .empty
  tokens := .empty
  tasks := .empty
  approvals := .empty
  notifications := .empty
  componentRuns := .empty
  nodeComponents := .empty
  audit := []

/-! ## §1. The audit log. -/

/-- Append to the audit log. -/
def addAudit (s : Store) (e : AuditEvent) : Store := { s with audit := s.audit ++ [e] }

/-- `latest_node_heartbeat_event`: the newest by time, then by id. -/
def latestNodeHeartbeatEvent (s : Store) (nodeId : String) : Option AuditEvent :=
  (s.audit.filter (fun e => e.eventType = "node" ∧ e.subjectType = "node"
    ∧ e.subjectId = nodeId ∧ e.action = "heartbeat")).reverse.argmax AuditEvent.createdAt

/-- `latest_node_heartbeat_facts`. -/
def latestNodeHeartbeatFacts (s : Store) (nodeId : String) : Dict :=
  match s.latestNodeHeartbeatEvent nodeId with
  | none => []
  | some event =>
    match event.details.get? "facts" with
    | some (.obj facts) => facts
    | _ => []

/-- The part of `task_dispatch_block_reason` that reads the heartbeat facts
of a managed node. -/
def factsBlockReason (facts : Dict) : Option String :=
  if facts = [] then none
  else if Text.lower (Text.strip (facts.getStr "worker_mode" "")) = "beacon" then
    some "node is beacon-only"
  else if Text.lower (Text.strip (facts.getStr "task_policy" "")) = "heartbeat-only" then
    some "node heartbeat-only policy blocks task dispatch"
  else if facts.get? "can_poll_tasks" = some (.bool false) then
    some "node cannot poll tasks"
  else if facts.get? "exec_enabled" = some (.bool false) then
    some "node execution disabled"
  else none

/-- `task_dispatch_block_reason`, inside one transaction. -/
def taskDispatchBlockReason (s : Store) (nodeId : String) : Option String :=
  match s.nodes.find? nodeId with
  | none => some "node not found"
  | some node =>
    if node.status ≠ .managed then some "node not managed"
    else factsBlockReason (s.latestNodeHeartbeatFacts nodeId)

/-! ## §2. Dispatching an approved task. -/

/-- The task an approval asks for.  `node_id` and `command` are present and
true when this is reached, so their defaults are never taken. -/
def approvedTask (approval : ApprovalRequest) (uuid : String) (createdAt : Timestamp) : Task where
  taskId := "task_" ++ uuid
  nodeId := approval.details.getStr "node_id" ""
  command := approval.details.getStr "command" ""
  risk := approval.risk
  status := .pending
  createdBy := approval.details.getStr "created_by" approval.requestedBy
  createdAt := createdAt
  executor := approval.details.getStr "executor" "worker"

/-- The required details an approval lacks. -/
def missingDetails (approval : ApprovalRequest) : List String :=
  ["node_id", "command"].filter (fun key => !approval.details.has key)

/-- The audit event of a dispatch that created nothing. -/
def dispatchFailure (approvalId : String) (details : Dict) (at_ : Timestamp) : AuditEvent where
  eventType := "approval"
  subjectType := "task"
  subjectId := approvalId
  action := "approval/dispatch"
  outcome := "failed"
  details := details
  createdAt := at_

/-- The `create` event of a task. -/
def taskCreateEvent (task : Task) (at_ : Timestamp) : AuditEvent where
  eventType := "task"
  subjectType := "task"
  subjectId := task.taskId
  action := "create"
  outcome := "ok"
  details := [("node_id", .str task.nodeId), ("command", .str task.command),
    ("risk", .str task.risk), ("executor", .str task.executor)]
  createdAt := at_

/-- The audit event of a dispatch that created `task`. -/
def dispatchEvent (approval : ApprovalRequest) (task : Task) (at_ : Timestamp) : AuditEvent where
  eventType := "approval"
  subjectType := "task"
  subjectId := approval.approvalId
  action := "approval/dispatch"
  outcome := "ok"
  details := [("subject_id", .str approval.subjectId), ("task_id", .str task.taskId),
    ("node_id", .str task.nodeId), ("command", .str task.command), ("risk", .str task.risk),
    ("executor", .str task.executor), ("created_by", .str task.createdBy)]
  createdAt := at_

/-- Write the marker of a dispatch into the approval's details. -/
def setMarker (taskId : String) (a : ApprovalRequest) : ApprovalRequest :=
  { a with details := a.details.set "dispatched_task_id" (.str taskId) }

@[simp] theorem setMarker_approvalId (taskId : String) (a : ApprovalRequest) :
    (setMarker taskId a).approvalId = a.approvalId := rfl

/-- `dispatch_approved_task_request`: one `BEGIN IMMEDIATE` transaction. -/
def dispatchApprovedTaskRequest (s : Store) (approvalId uuid : String)
    (clock : Nat → Timestamp) : Except PyError (Option Task) × Store :=
  match s.approvals.find? approvalId with
  | none => (.ok none, s)
  | some approval =>
    if approval.status ≠ .approved then (.ok none, s)
    else if ¬ approval.isTaskRun then (.ok none, s)
    else if approval.dispatched then
      (.ok (s.tasks.find? ((approval.marker.getD .null).asStr)), s)
    else if missingDetails approval ≠ [] then
      (.ok none, s.addAudit (dispatchFailure approval.approvalId
        [("missing", .arr ((missingDetails approval).map .str)),
          ("subject_id", .str approval.subjectId)] (clock 0)))
    else
      let task := approvedTask approval uuid (clock 0)
      if (s.nodes.find? task.nodeId).map Node.status ≠ some .managed then
        (.ok none, s.addAudit (dispatchFailure approval.approvalId
          [("reason", .str "node not managed"), ("node_id", .str task.nodeId)] (clock 1)))
      else
        match s.taskDispatchBlockReason task.nodeId with
        | some reason =>
          (.ok none, s.addAudit (dispatchFailure approval.approvalId
            [("reason", .str reason), ("node_id", .str task.nodeId)] (clock 1)))
        | none =>
          match s.tasks.insert? task with
          | none => (.error .integrity, s)
          | some tasks =>
            (.ok (some task),
              { s with
                tasks := tasks
                approvals := s.approvals.update (fun a => a.approvalId = approval.approvalId)
                  (setMarker task.taskId) (setMarker_approvalId task.taskId)
                audit := s.audit ++ [taskCreateEvent task (clock 1),
                  dispatchEvent approval task (clock 2)] })

/-! ## §3. The worker task lifecycle. -/

/-- The pending tasks of a node and executor. -/
def pendingTasks (s : Store) (nodeId executor : String) : List Task :=
  s.tasks.rows.filter
    (fun t => t.nodeId = nodeId ∧ t.executor = executor ∧ t.status = .pending)

/-- What a claim writes into the claimed row. -/
def claim (now leaseExpiresAt : Timestamp) (t : Task) : Task :=
  { t with
    status := .running
    startedAt := t.startedAt <|> some now
    claimedAt := some now
    leaseExpiresAt := some leaseExpiresAt
    attemptCount := t.attemptCount + 1 }

@[simp] theorem claim_taskId (now leaseExpiresAt : Timestamp) (t : Task) :
    (claim now leaseExpiresAt t).taskId = t.taskId := rfl

/-- `claim_next_task`: `ORDER BY created_at LIMIT 1` over the pending tasks
of a managed node, then the guarded UPDATE of that row. -/
def claimNextTask (s : Store) (nodeId executor : String) (leaseSeconds : Int)
    (now : Timestamp) : Option Task × Store :=
  if (s.nodes.find? nodeId).map Node.status ≠ some .managed then (none, s)
  else
    match (s.pendingTasks nodeId executor).argmin Task.createdAt with
    | none => (none, s)
    | some row =>
      let tasks := s.tasks.update (fun t => t.taskId = row.taskId ∧ t.status = .pending)
        (claim now (now + seconds leaseSeconds)) (claim_taskId _ _)
      (tasks.find? row.taskId,
        { s with
          tasks := tasks
          audit := s.audit ++ [{
            eventType := "task"
            subjectType := "task"
            subjectId := row.taskId
            action := "dispatch"
            outcome := "ok"
            details := [("node_id", .str nodeId), ("executor", .str executor),
              ("lease_seconds", .int leaseSeconds)]
            createdAt := now }] })

/-- A running worker task whose lease is at or before `cutoff`. -/
def stuck (cutoff : Timestamp) (t : Task) : Bool :=
  t.status = .running && t.executor = "worker" &&
    match t.leaseExpiresAt with
    | some lease => decide (lease ≤ cutoff)
    | none => false

/-- `ORDER BY lease_expires_at, created_at`. -/
def leaseOrder (a b : Task) : Prop :=
  a.leaseExpiresAt.getD 0 < b.leaseExpiresAt.getD 0
    ∨ (a.leaseExpiresAt.getD 0 = b.leaseExpiresAt.getD 0 ∧ a.createdAt ≤ b.createdAt)

instance (a b : Task) : Decidable (leaseOrder a b) := by
  unfold leaseOrder
  infer_instance

/-- What the watchdog writes into an expired row. -/
def expire (now : Timestamp) (t : Task) : Task :=
  { t with
    status := .failed
    completedAt := some now
    failureReason := "worker_lease_expired" }

@[simp] theorem expire_taskId (now : Timestamp) (t : Task) : (expire now t).taskId = t.taskId := rfl

/-- The audit event of an expiry. -/
def expireEvent (now : Timestamp) (row : Task) : AuditEvent where
  eventType := "task"
  subjectType := "task"
  subjectId := row.taskId
  action := "watchdog/expire"
  outcome := "failed"
  details := [("node_id", .str row.nodeId),
    ("lease_expires_at", match row.leaseExpiresAt with
      | some lease => .str lease.isoformat
      | none => .null)]
  createdAt := now

/-- The watchdog's statements for one selected row: the guarded UPDATE and
the audit event. -/
def expireOne (now : Timestamp) (s : Store) (row : Task) : Store :=
  { s with
    tasks := s.tasks.update (fun t => t.taskId = row.taskId ∧ t.status = .running)
      (expire now) (expire_taskId now)
    audit := s.audit ++ [expireEvent now row] }

/-- `expire_stuck_tasks`. -/
def expireStuckTasks (s : Store) (olderThanSeconds : Option Int) (now : Timestamp) :
    List String × Store :=
  let cutoff := match olderThanSeconds with
    | some n => now - seconds n
    | none => now
  let rows := (s.tasks.rows.filter (stuck cutoff)).insertionSort leaseOrder
  (rows.map Task.taskId, rows.foldl (expireOne now) s)

/-- `TASK_OUTPUT_MAX_BYTES`. -/
def taskOutputMaxBytes : Nat := 64 * 1024

/-- `TASK_OUTPUT_TRUNCATED_MARKER`. -/
def taskOutputTruncatedMarker : String := "\n[hmn: output truncated to 65536 bytes]"

/-- `value.encode("utf-8")[:room].decode("utf-8", errors="ignore")`: the
characters whose encoding ends within the first `room` bytes. -/
def utf8Prefix : Nat → List Char → List Char
  | _, [] => []
  | room, c :: cs =>
    if c.utf8Size ≤ room then c :: utf8Prefix (room - c.utf8Size) cs else []

/-- `_cap_task_output`. -/
def capTaskOutput (value : String) : String :=
  if value.utf8ByteSize ≤ taskOutputMaxBytes then value
  else
    String.ofList (utf8Prefix (taskOutputMaxBytes - taskOutputTruncatedMarker.utf8ByteSize)
      value.toList) ++ taskOutputTruncatedMarker

/-- What a result writes into the row of a running task. -/
def complete (exitCode : Int) (stdout stderr : String) (now : Timestamp) (t : Task) : Task :=
  { t with
    status := if exitCode = 0 then .succeeded else .failed
    completedAt := some now
    exitCode := some exitCode
    stdout := capTaskOutput stdout
    stderr := capTaskOutput stderr
    failureReason := if exitCode = 0 then "" else "exit_code_nonzero" }

@[simp] theorem complete_taskId (exitCode : Int) (stdout stderr : String) (now : Timestamp)
    (t : Task) : (complete exitCode stdout stderr now t).taskId = t.taskId := rfl

/-- `complete_task`. -/
def completeTask (s : Store) (taskId : String) (exitCode : Int) (stdout stderr : String)
    (now : Timestamp) : Option Task × Store :=
  match s.tasks.find? taskId with
  | none => (none, s)
  | some row =>
    if row.status ≠ .running then (none, s)
    else
      let tasks := s.tasks.update (fun t => t.taskId = taskId ∧ t.status = .running)
        (complete exitCode stdout stderr now) (complete_taskId _ _ _ _)
      (tasks.find? taskId,
        { s with
          tasks := tasks
          audit := s.audit ++ [{
            eventType := "task"
            subjectType := "task"
            subjectId := taskId
            action := "task_result"
            outcome := if exitCode = 0 then "succeeded" else "failed"
            details := [("node_id", .str row.nodeId), ("exit_code", .int exitCode)]
            createdAt := now }] })

/-! ## §4. Dispatching an approved component action. -/

/-- `str(details.get("action") or action.removeprefix("component.") or run.action)`. -/
def componentAction (approval : ApprovalRequest) (run : ComponentRun) : String :=
  let suffix := Text.removePrefix approval.action "component."
  approval.details.getStr "action" (if suffix = "" then run.action else suffix)

/-- The fields in which an approval and its run disagree. -/
def componentMismatches (approval : ApprovalRequest) (run : ComponentRun) : List String :=
  let checks : List (String × String × String) := [
    ("approval.action", Text.removePrefix approval.action "component.", run.action),
    ("run_id", approval.details.getStr "run_id" approval.subjectId, run.runId),
    ("component_id", approval.details.getStr "component_id" "", run.componentId),
    ("node_id", approval.details.getStr "node_id" "", run.nodeId),
    ("action", componentAction approval run, run.action),
    ("risk", approval.risk, run.risk)]
  (checks.filter (fun c => c.2.1 ≠ c.2.2)).map Prod.fst

/-- `_record_component_dispatch_failure`. -/
def componentDispatchFailure (approval : ApprovalRequest) (reason : String) (details : Dict)
    (at_ : Timestamp) : AuditEvent where
  eventType := "approval"
  subjectType := "component_run"
  subjectId := approval.approvalId
  action := "approval/dispatch"
  outcome := "failed"
  details := [("subject_id", .str approval.subjectId), ("reason", .str reason)] ++ details
  createdAt := at_

/-- The row a dispatch writes into `node_components`: an uninstall keeps the
configuration that was recorded, an apply takes the approved one. -/
def plannedComponent (existing : Option NodeComponent) (approval : ApprovalRequest)
    (run : ComponentRun) (action : String) : NodeComponent :=
  let config := match approval.details.get? "config" with
    | some (.obj config) => config
    | _ => []
  let version := approval.details.getStr "version" ""
  let driver := approval.details.getStr "driver" ""
  let keep := if action = "uninstall" then existing else none
  { nodeId := run.nodeId
    componentId := run.componentId
    desiredState := if action = "uninstall" then "absent" else "enabled"
    currentState := "planned"
    config := match keep with | some c => c.config | none => config
    installedVersion := match keep with | some c => c.installedVersion | none => version
    driver := match keep with | some c => c.driver | none => driver
    lastPlanId := ""
    lastRunId := run.runId
    lastVerifiedAt := none }

/-- What a dispatch writes into the run it closes. -/
def recordState (approval : ApprovalRequest) (at_ : Timestamp) (run : ComponentRun) :
    ComponentRun :=
  { run with
    status := "state_recorded"
    result := ((((run.result.set "machine_changed" (.bool false)).set "state_closed_loop"
      (.bool true)).set "remote_execution" (.str "not_enabled")).set "approval_id"
      (.str approval.approvalId)).set "approved_by" (.str approval.decidedBy)
    completedAt := some at_ }

/-- The columns the closing UPDATE of a component action sets. -/
def writeRun (recorded r : ComponentRun) : ComponentRun :=
  { r with
    status := recorded.status
    plan := recorded.plan
    result := recorded.result
    completedAt := recorded.completedAt }

@[simp] theorem writeRun_runId (recorded r : ComponentRun) :
    (writeRun recorded r).runId = r.runId := rfl

/-- `dispatch_approved_component_action`: one `BEGIN IMMEDIATE` transaction.
The run was read in the same transaction with a status other than
`state_recorded`, so the guarded UPDATE at the end always finds it. -/
def dispatchApprovedComponentAction (s : Store) (approvalId : String)
    (clock : Nat → Timestamp) : Option ComponentRun × Store :=
  match s.approvals.find? approvalId with
  | none => (none, s)
  | some approval =>
    if approval.status ≠ .approved then (none, s)
    else if ¬ approval.isComponentAction then (none, s)
    else
      match s.componentRuns.find? approval.subjectId with
      | none => (none, s)
      | some run =>
        if run.status = "state_recorded" then (some run, s)
        else if componentMismatches approval run ≠ [] then
          (none, s.addAudit (componentDispatchFailure approval
            "component approval details mismatch"
            [("mismatched", .arr (((componentMismatches approval run).insertionSort
                (· ≤ ·)).map .str)), ("run_id", .str run.runId)] (clock 0)))
        else if run.status ≠ "pending_approval" then
          (none, s.addAudit (componentDispatchFailure approval
            "component run is not pending approval"
            [("run_id", .str run.runId), ("run_status", .str run.status)] (clock 0)))
        else if componentAction approval run ∉ ["apply", "uninstall"] then
          (none, s.addAudit (componentDispatchFailure approval
            "component action is not dispatchable"
            [("run_id", .str run.runId),
              ("component_action", .str (componentAction approval run))] (clock 0)))
        else
          let action := componentAction approval run
          let component := plannedComponent
            (s.nodeComponents.find? (run.nodeId, run.componentId)) approval run action
          let recorded := recordState approval (clock 0) run
          (some recorded,
            { s with
              nodeComponents := s.nodeComponents.upsert component
              componentRuns := s.componentRuns.update
                (fun r => r.runId = run.runId ∧ r.status ≠ "state_recorded")
                (writeRun recorded) (writeRun_runId recorded)
              audit := s.audit ++ [{
                eventType := "component"
                subjectType := "component"
                subjectId := run.componentId
                action := action
                outcome := "state_recorded"
                details := [("node_id", .str run.nodeId), ("run_id", .str run.runId),
                  ("risk", .str run.risk), ("approval_id", .str approval.approvalId)]
                createdAt := clock 1 }] })

end Store

end Hmn
