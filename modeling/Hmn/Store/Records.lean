/-
  Hmn.Store.Records — the rows of the control plane's database.

  One structure per table, with the fields of the source's dataclasses.
  Statuses that the code only ever writes from a fixed set are inductive
  types; risk, executor, action and subject type stay texts because the
  code compares them with texts it did not choose.
-/
import Hmn.Framework.Json
import Hmn.Framework.Text
import Hmn.Store.Time

namespace Hmn

open Framework

/-! ## §1. Statuses. -/

inductive NodeStatus where
  | pending
  | managed
  | revoked
  deriving DecidableEq, Repr

inductive TokenStatus where
  | pending
  | used
  | expired
  | revoked
  deriving DecidableEq, Repr

/-- The stored text, which the error details quote. -/
def TokenStatus.text : TokenStatus → String
  | .pending => "pending"
  | .used => "used"
  | .expired => "expired"
  | .revoked => "revoked"

inductive TaskStatus where
  | pending
  | running
  | succeeded
  | failed
  deriving DecidableEq, Repr

def TaskStatus.text : TaskStatus → String
  | .pending => "pending"
  | .running => "running"
  | .succeeded => "succeeded"
  | .failed => "failed"

/-- A status no transaction leaves again. -/
def TaskStatus.terminal : TaskStatus → Bool
  | .succeeded | .failed => true
  | .pending | .running => false

inductive ApprovalStatus where
  | pending
  | approved
  | rejected
  deriving DecidableEq, Repr

def ApprovalStatus.text : ApprovalStatus → String
  | .pending => "pending"
  | .approved => "approved"
  | .rejected => "rejected"

/-- The two statuses `resolve_approval_request` accepts; any other is a
`ValueError` there, and cannot be written here. -/
inductive Decision where
  | approved
  | rejected
  deriving DecidableEq, Repr

def Decision.status : Decision → ApprovalStatus
  | .approved => .approved
  | .rejected => .rejected

theorem Decision.status_ne_pending (d : Decision) : d.status ≠ .pending := by
  cases d <;> simp [status]

/-! ## §2. Rows. -/

structure Node where
  nodeId : String
  fingerprint : String
  hostname : String
  addresses : List String
  trustLevel : String
  labels : List String
  status : NodeStatus := .pending
  permissionBundles : List String := []
  sshHost : String := ""
  sshUser : String := ""
  sshPort : Int := 22
  networkProvider : String := ""
  networkNodeId : String := ""
  networkIp : String := ""
  networkTags : List String := []
  networkOnline : Bool := false
  deriving DecidableEq

structure JoinToken where
  value : String
  trustLevel : String
  labels : List String
  expiresAt : Timestamp
  status : TokenStatus := .pending
  createdAt : Timestamp
  usedAt : Option Timestamp := none
  nodeFingerprint : Option String := none
  deriving DecidableEq

structure Task where
  taskId : String
  nodeId : String
  command : String
  risk : String
  status : TaskStatus
  createdBy : String
  createdAt : Timestamp
  executor : String := "worker"
  startedAt : Option Timestamp := none
  completedAt : Option Timestamp := none
  exitCode : Option Int := none
  stdout : String := ""
  stderr : String := ""
  claimedAt : Option Timestamp := none
  leaseExpiresAt : Option Timestamp := none
  attemptCount : Nat := 0
  failureReason : String := ""
  deriving DecidableEq

structure ApprovalRequest where
  approvalId : String
  subjectType : String
  subjectId : String
  action : String
  risk : String
  status : ApprovalStatus
  requestedBy : String
  details : Dict
  createdAt : Timestamp
  decidedBy : String := ""
  decidedAt : Option Timestamp := none
  deriving DecidableEq

structure Notification where
  notificationId : String
  channel : String
  subjectType : String
  subjectId : String
  /-- `status = 'delivered'`; the only other status is `'pending'`. -/
  delivered : Bool := false
  payload : Dict
  createdAt : Timestamp
  deliveredAt : Option Timestamp := none
  deriving DecidableEq

structure AuditEvent where
  eventType : String
  subjectType : String
  subjectId : String
  action : String
  outcome : String
  details : Dict
  createdAt : Timestamp
  deriving DecidableEq

structure ComponentRun where
  runId : String
  componentId : String
  nodeId : String
  action : String
  risk : String
  status : String
  plan : Dict
  result : Dict
  createdBy : String
  createdAt : Timestamp
  completedAt : Option Timestamp := none
  deriving DecidableEq

structure NodeComponent where
  nodeId : String
  componentId : String
  desiredState : String
  currentState : String
  config : Dict
  installedVersion : String := ""
  driver : String := ""
  lastPlanId : String := ""
  lastRunId : String := ""
  lastVerifiedAt : Option Timestamp := none
  deriving DecidableEq

/-- The primary key of `node_components`. -/
def NodeComponent.key (c : NodeComponent) : String × String := (c.nodeId, c.componentId)

/-! ## §3. The approval kinds that a decision dispatches. -/

namespace ApprovalRequest

/-- `subject_type == "task" and action == "task.run"`. -/
def isTaskRun (a : ApprovalRequest) : Bool :=
  a.subjectType == "task" && a.action == "task.run"

/-- `subject_type == "component_run" and action.startswith("component.")`. -/
def isComponentAction (a : ApprovalRequest) : Bool :=
  a.subjectType == "component_run" && Text.startsWith a.action "component."

/-- `subject_type == "network_acl" and action == "network.acl.apply"`. -/
def isAclApply (a : ApprovalRequest) : Bool :=
  a.subjectType == "network_acl" && a.action == "network.acl.apply"

/-- `subject_type == "network_node" and action == "network.tags.set"`. -/
def isTagsSet (a : ApprovalRequest) : Bool :=
  a.subjectType == "network_node" && a.action == "network.tags.set"

/-- `details.get("dispatched_task_id")`: the marker a dispatch leaves. -/
def marker (a : ApprovalRequest) : Option Json := a.details.get? "dispatched_task_id"

/-- The marker is present and true. -/
def dispatched (a : ApprovalRequest) : Bool := a.details.has "dispatched_task_id"

end ApprovalRequest

end Hmn
