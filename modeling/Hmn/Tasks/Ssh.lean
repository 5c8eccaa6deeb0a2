/-
  Hmn.Tasks.Ssh — running a task over ssh.

  `run_ssh_task` marks the task running with a save of its loaded copy, runs
  the command, records an audit event and reports the result like a worker.
-/
import Hmn.Store.Calls

namespace Hmn

open Framework Py

/-! ## §1. Where to connect to. -/

/-- `_ssh_label_value`. -/
def sshLabelValue (labels : List String) (key : String) : String :=
  match labels.find? (fun label => Text.startsWith label (key ++ "=")) with
  | some label => Text.removePrefix label (key ++ "=")
  | none => ""

/-- `SSHTarget`. -/
structure SSHTarget where
  host : String
  user : String
  port : String
  source : String
  deriving DecidableEq

/-- The first text that is not empty. -/
def orElse (s t : String) : String := if s ≠ "" then s else t

/-- The host of a node and where it was found. -/
def sshHost (node : Node) : String × String :=
  if node.sshHost ≠ "" then (node.sshHost, "ssh_host")
  else if sshLabelValue node.labels "ssh-host" ≠ "" then
    (sshLabelValue node.labels "ssh-host", "label:ssh-host")
  else if node.networkIp ≠ "" then (node.networkIp, "network_ip")
  else
    let host := node.addresses.headD ""
    (host, if host ≠ "" then "address" else "")

/-- The port of a node; a label counts only next to the default port. -/
def sshPort (node : Node) : String :=
  let labelPort := sshLabelValue node.labels "ssh-port"
  if node.sshPort = 22 ∧ labelPort ≠ "" then labelPort
  else toString (if node.sshPort = 0 then 22 else node.sshPort)

/-- `ssh_target_details_for_node`; nothing when it raises `ValueError`. -/
def sshTargetDetailsForNode (node : Node) : Option SSHTarget :=
  let (host, source) := sshHost node
  if host = "" then none
  else some {
    host, source
    user := orElse (orElse node.sshUser (sshLabelValue node.labels "ssh-user")) "root"
    port := sshPort node }

/-! ## §2. What came of it. -/

/-- `classify_ssh_failure`. -/
def classifySshFailure (exitCode : Int) (stderr : String) : String :=
  let message := Text.lower stderr
  let mentions := fun words : List String => words.any (Text.contains message)
  if mentions ["permission denied", "publickey", "authentication failed"] then "ssh_auth"
  else if exitCode = 124 then "timeout"
  else if mentions ["timed out", "no route to host", "connection refused",
      "could not resolve hostname"] then "ssh_connectivity"
  else if exitCode ≠ 0 then "remote_command"
  else "none"

/-- `_preview_output`. -/
def previewOutput (text : String) : String :=
  let normalized := Text.strip text
  if normalized.toList.length ≤ 240 then normalized
  else Text.rstrip (Text.take normalized 239) ++ "…"

/-- The details of the event `ssh_execute`. -/
def sshExecuteDetails (task : Task) (target : SSHTarget) (port : Int) (durationMs : Nat)
    (exitCode : Int) (stdout stderr : String) : Dict :=
  [("node_id", .str task.nodeId), ("command", .str task.command), ("host", .str target.host),
    ("user", .str target.user), ("port", .int port), ("target_source", .str target.source),
    ("duration_ms", .int durationMs), ("stdout_preview", .str (previewOutput stdout)),
    ("stderr_preview", .str (previewOutput stderr)),
    ("failure_reason", .str (classifySshFailure exitCode stderr))]

/-! ## §3. The run. -/

/-- `SAFE_RISKS`. -/
def safeRisks : List String := ["low", "medium"]

/-- `int(text)` of a text in the program. -/
def intOrRaise (text : String) : Py Int :=
  match Text.parseInt text with
  | some n => return n
  | none => throw (.value ("invalid literal for int() with base 10: " ++ Json.reprStr text))

/-- What follows a command that ended: the audit event, the result and the
exception of a failed command. -/
def reportSshTask (task : Task) (target : SSHTarget) (durationMs : Nat) (returncode : Int)
    (stdout stderr : String) : Py Task := do
  let port ← intOrRaise target.port
  call (.recordAudit "task" "task" task.taskId "ssh_execute"
    (if returncode = 0 then "ok" else "failed")
    (sshExecuteDetails task target port durationMs returncode stdout stderr))
  match ← call (.completeTask task.taskId returncode stdout stderr) with
  | none => throw .assertion
  | some finished =>
    if returncode ≠ 0 then
      throw (.sshExecution task.taskId returncode stderr stdout durationMs
        (classifySshFailure returncode stderr))
    else return finished

/-- The copy of a task that is saved before the command runs. -/
def markRunning (task : Task) (now : Timestamp) : Task :=
  { task with status := .running, startedAt := some now }

/-- `run_ssh_task` from the save of the running copy on. -/
def executeSshTask (task : Task) (target : SSHTarget) : Py Task := do
  let now ← call .now
  call (.saveTask (markRunning task now))
  let (outcome, durationMs) ←
    call (.runSsh target.port (target.user ++ "@" ++ target.host) task.command)
  match outcome with
  | .completed returncode stdout stderr =>
    reportSshTask (markRunning task now) target durationMs returncode stdout stderr
  | .timedOut => throw .timeout
  | .raised exception => throw exception

/-- `run_ssh_task`; an empty `allow_risk` counts as absent. -/
def runSshTask (taskId : String) (allowRisk : List String) : Py Task := do
  match ← call (.loadTask taskId) with
  | none => throw (.value ("task not found: " ++ taskId))
  | some task =>
    if task.executor ≠ "ssh" then throw (.value ("task " ++ task.taskId ++ " is not an ssh task"))
    else if task.risk ∉ (if allowRisk = [] then safeRisks else allowRisk) then
      throw (.permission ("task risk '" ++ task.risk ++ "' is not allowed for ssh executor"))
    else
      match ← call (.loadNode task.nodeId) with
      | none => throw (.value ("node " ++ task.nodeId ++ " is not managed"))
      | some node =>
        if node.status ≠ .managed then
          throw (.value ("node " ++ task.nodeId ++ " is not managed"))
        else
          match sshTargetDetailsForNode node with
          | none => throw (.value
              ("node " ++ node.nodeId ++ " missing ssh host for task " ++ task.taskId))
          | some target => executeSshTask task target

/-! ## §4. `hmn task ssh-run-next`. -/

/-- `text.strip()[:240].rstrip("\n")`. -/
def resultPreview (text : String) : String :=
  String.ofList
    ((Text.take (Text.strip text) 240).toList.reverse.dropWhile (· = '\n')).reverse

/-- The details of the event of a run that failed. -/
def sshRunFailedDetails (task : Task) (exitCode : Int) (stderr stdout : String) (durationMs : Nat)
    (failureReason : String) : Dict :=
  [("task_id", .str task.taskId), ("node_id", .str task.nodeId), ("status", .str "failed"),
    ("exit_code", .int exitCode), ("duration_ms", .int durationMs),
    ("stdout_preview", .str (resultPreview stdout)),
    ("stderr_preview", .str (resultPreview stderr)), ("failure_reason", .str failureReason)]

/-- How long a completed task ran. -/
def Task.duration (task : Task) : Int :=
  task.completedAt.getD task.createdAt - task.startedAt.getD task.createdAt

/-- The details of the event of a run that succeeded. -/
def sshRunOkDetails (completed : Task) : Dict :=
  [("task_id", .str completed.taskId), ("node_id", .str completed.nodeId),
    ("status", .str completed.status.text),
    ("exit_code", match completed.exitCode with
      | some exitCode => .int exitCode
      | none => .null),
    ("duration_ms", .int (Timestamp.totalMillis completed.duration)),
    ("stdout_preview", .str (resultPreview completed.stdout)),
    ("stderr_preview", .str (resultPreview completed.stderr)),
    ("failure_reason", .str "none")]

/-- `ssh_run_next`. -/
def sshRunNext : Py Unit := do
  let tasks ← call .listTasks
  let candidates := tasks.filter (fun t => t.executor = "ssh" ∧ t.status = .pending)
  match candidates.argmin Task.createdAt with
  | none =>
    call (.recordAudit "task" "task" "ssh-run-next" "ssh-run-next" "empty"
      [("pending_ssh_tasks", .int 0)])
    throw (.typerExit 1)
  | some task =>
    let completed ←
      (runSshTask task.taskId ["low", "medium", "high", "critical"]).tryCatch fun e =>
        match e with
        | .sshExecution _ exitCode stderr stdout durationMs failureReason => do
          call (.recordAudit "task" "task" task.taskId "ssh-run-next" "failed"
            (sshRunFailedDetails task exitCode stderr stdout durationMs failureReason))
          throw (.typerExit 1)
        | e => throw e
    call (.recordAudit "task" "task" completed.taskId "ssh-run-next" "ok"
      (sshRunOkDetails completed))

end Hmn
