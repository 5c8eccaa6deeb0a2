/-
  Hmn.Tasks.Submit — the two front ends that submit commands.

  `hmn task run` trusts the risk the operator states; the web console
  classifies the command itself.  Both create the task directly when the
  risk is low enough and an approval request otherwise.
-/
import Hmn.Approval.Card
import Hmn.Nodes.Nodes
import Hmn.Tasks.Ssh
import Hmn.Tasks.Tasks

namespace Hmn

open Framework Py

/-! ## §1. The command line. -/

/-- The options of `hmn task run`; `choice` is the answer to the prompt for a
node. -/
structure TaskRunOptions where
  command : String
  nodeId : Option String := none
  choice : Int := 1
  risk : String := "low"
  executor : String := "worker"
  wait : Bool := false

/-- The details of the approval request of `hmn task run`. -/
def cliTaskDetails (nodeId command risk executor : String) : Dict :=
  [("node_id", .str nodeId), ("command", .str command), ("risk", .str risk),
    ("executor", .str executor), ("created_by", .str "hmn")]

/-- The approval request of `hmn task run` and its card. -/
def requestTask (node : Node) (options : TaskRunOptions) : Py Unit := do
  let approval ← createApprovalRequest "task" "pending-task" "task.run" options.risk "hmn"
    (cliTaskDetails node.nodeId options.command options.risk options.executor)
  let _ ← enqueueNotification "telegram" "approval" approval.approvalId
    (cardPayload (buildApprovalCard approval))
  throw (.typerExit 1)

/-- `except SSHExecutionError`. -/
def onSshExecutionError {α : Type} (p : Py α) (handler : Py α) : Py α :=
  p.tryCatch fun e =>
    match e with
    | .sshExecution .. => handler
    | e => throw e

/-- The task of `hmn task run`. -/
def runTask (node : Node) (options : TaskRunOptions) : Py Unit := do
  let task ← createTask node.nodeId options.command options.risk "hmn" options.executor
  Prog.when options.wait do
    let _ ← onSshExecutionError (runSshTask task.taskId []) (throw (.typerExit 1))

/-- `create_task_command`. -/
def createTaskCommand (options : TaskRunOptions) : Py Unit := do
  let node ← selectManagedNode options.nodeId options.choice
  if options.executor ∉ ["worker", "ssh"] then throw (.typerExit 1)
  else if options.wait ∧ options.executor ≠ "ssh" then throw (.typerExit 1)
  else if options.risk ∈ ["high", "critical"] then requestTask node options
  else if options.risk ∉ ["low", "medium"] then throw (.typerExit 1)
  else runTask node options

/-! ## §2. The web console. -/

/-- `LOW_RISK_COMMANDS`. -/
def lowRiskCommands : List String := ["uptime", "df -h", "hmn health probe"]

/-- `" ".join(command.strip().split())`. -/
def normalized (command : String) : String := Text.join " " (Text.split (Text.strip command))

/-- `risk_for_command`. -/
def riskForCommand (command : String) : String :=
  if normalized command ∈ lowRiskCommands
      ∨ Text.startsWith (normalized command) "systemctl status " then "low"
  else "high"

/-- `task_dispatch_block_reason`, outside a transaction. -/
def taskDispatchBlockReason (nodeId : String) : Py (Option String) := do
  match ← call (.loadNode nodeId) with
  | none => return some "node not found"
  | some node =>
    if node.status ≠ .managed then return some "node not managed"
    else return Store.factsBlockReason (← call (.latestNodeHeartbeatFacts nodeId))

/-- `ConsoleTaskCreateRequest`. -/
structure ConsoleTaskCreateRequest where
  nodeId : String
  command : String
  createdBy : String := "hmn-web"
  executor : String := "worker"

/-- `ConsoleTaskCreateResponse`. -/
inductive ConsoleTaskCreateResponse where
  | created (taskId : String) (status : TaskStatus) (risk : String)
  | pendingApproval (approvalId risk : String)
  deriving DecidableEq

/-- The details of the approval request of the console. -/
def consoleTaskDetails (request : ConsoleTaskCreateRequest) : Dict :=
  [("node_id", .str request.nodeId), ("command", .str request.command),
    ("created_by", .str request.createdBy), ("executor", .str request.executor),
    ("task_name", .str ("Console task: " ++ request.command)),
    ("task_description",
      .str ("Run command " ++ request.command ++ " on node " ++ request.nodeId))]

/-- `create_console_task` once the node takes tasks. -/
def submitConsoleTask (request : ConsoleTaskCreateRequest) : Py ConsoleTaskCreateResponse := do
  let risk := riskForCommand request.command
  if risk = "low" then
    let task ← createTask request.nodeId request.command risk request.createdBy request.executor
    return .created task.taskId task.status task.risk
  else
    let approval ← createApprovalRequest "task" "console_task_request" "task.run" risk
      request.createdBy (consoleTaskDetails request)
    return .pendingApproval approval.approvalId risk

/-- `create_console_task`. -/
def createConsoleTask (request : ConsoleTaskCreateRequest) : Py ConsoleTaskCreateResponse := do
  match ← call (.loadNode request.nodeId) with
  | none => throw (.http 404 "managed node not found")
  | some node =>
    if node.status ≠ .managed then throw (.http 404 "managed node not found")
    else
      match ← taskDispatchBlockReason request.nodeId with
      | some reason => throw (.http 409 reason)
      | none => submitConsoleTask request

end Hmn
