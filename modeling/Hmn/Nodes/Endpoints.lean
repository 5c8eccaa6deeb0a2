/-
  Hmn.Nodes.Endpoints — the endpoints that a node authenticates to with its
  fingerprint.

  A heartbeat, a poll for tasks and a task result make the same four checks
  before they do anything (`requireManaged`); the rotation of a fingerprint
  makes two of them.
-/
import Hmn.Framework.Sha256
import Hmn.Nodes.Nodes

namespace Hmn

open Framework Py

/-! ## §1. Protocol versions and signatures. -/

/-- `WORKER_PROTOCOL_VERSION`. -/
def workerProtocolVersion : String := "0.1"

/-- `major_minor`. -/
def majorMinor (version : String) : String :=
  match (Text.before version '+').toList.splitOn '.' with
  | major :: minor :: _ => String.ofList major ++ "." ++ String.ofList minor
  | _ => version

/-- `is_worker_compatible` for a text or nothing. -/
def isWorkerCompatible (masterProtocol : String) (workerProtocol : Option String) : Bool :=
  match workerProtocol with
  | none => true
  | some worker => worker = "" || majorMinor masterProtocol = majorMinor worker

example : isWorkerCompatible workerProtocolVersion (some "0.1.7+local") = true := by decide +kernel

/-- The name of a value's type. -/
def typeName : Json → String
  | .null => "NoneType"
  | .bool _ => "bool"
  | .int _ => "int"
  | .float _ => "float"
  | .str _ => "str"
  | .arr _ => "list"
  | .obj _ => "dict"

/-- `is_worker_compatible` for whatever the facts of a heartbeat hold: a
true value that is not a text has no `split`. -/
def factsCompatible (masterProtocol : String) (facts : Dict) : Except PyError Bool :=
  match facts.get? "worker_protocol_version" with
  | none => .ok true
  | some (.str worker) => .ok (isWorkerCompatible masterProtocol (some worker))
  | some v =>
    if v.truthy then .error (.attribute ("'" ++ typeName v ++ "' object has no attribute 'split'"))
    else .ok true

/-- `sign_task_payload`. -/
def signTaskPayload (nodeFingerprint taskId command risk : String) : String :=
  "hmac-sha256:" ++ Sha256.hmacHexdigest (Sha256.encode nodeFingerprint)
    (Sha256.encode (taskId ++ "\n" ++ risk ++ "\n" ++ command))

/-! ## §2. Requests and answers. -/

/-- `HeartbeatRequest`. -/
structure HeartbeatRequest where
  fingerprint : String
  status : String := "ok"
  facts : Dict := []

/-- `RotateFingerprintRequest`. -/
structure RotateFingerprintRequest where
  fingerprint : String
  newFingerprint : String

/-- `NodeAuthRequest`. -/
structure NodeAuthRequest where
  fingerprint : String
  workerProtocolVersion : Option String := none

/-- `TaskResultRequest`. -/
structure TaskResultRequest where
  fingerprint : String
  exitCode : Int
  stdout : String := ""
  stderr : String := ""

/-- What the endpoints answer with. -/
inductive NodeResponse where
  | heartbeat (nodeId status masterVersion : String) (workerCompatible : Bool)
  | rotated (nodeId status : String)
  | task (taskId command risk signature : String)
  | noTask
  | taskResult (taskId : String) (status : TaskStatus)
  deriving DecidableEq

/-! ## §3. The endpoints. -/

/-- The checks before a heartbeat, a poll or a result. -/
def requireManaged (nodeId fingerprint : String) : Py Node := do
  match ← call (.loadNode nodeId) with
  | none => throw (.http 404 "node not found")
  | some node =>
    if node.status = .revoked then throw (.http 403 "node is revoked")
    else if node.status ≠ .managed then throw (.http 403 "node is not managed")
    else if node.fingerprint ≠ fingerprint then throw (.http 403 "node fingerprint mismatch")
    else return node

/-- `heartbeat`. -/
def heartbeat (nodeId : String) (request : HeartbeatRequest) : Py NodeResponse := do
  let node ← requireManaged nodeId request.fingerprint
  let compatible ← orRaise (factsCompatible workerProtocolVersion request.facts)
  let outcome := if request.status = "ok" ∧ compatible then "ok" else "warn"
  call (.recordAudit "node" "node" node.nodeId "heartbeat" outcome
    [("status", .str request.status), ("facts", .obj request.facts),
      ("worker_compatible", .bool compatible)])
  return .heartbeat node.nodeId request.status workerProtocolVersion compatible

/-- `rotate_fingerprint`. -/
def rotateFingerprint (nodeId : String) (request : RotateFingerprintRequest) :
    Py NodeResponse := do
  match ← call (.loadNode nodeId) with
  | none => throw (.http 404 "node not found")
  | some node =>
    if node.fingerprint ≠ request.fingerprint then throw (.http 403 "node fingerprint mismatch")
    else
      match ← rotateNodeFingerprint nodeId (some request.fingerprint) request.newFingerprint with
      | none => throw (.http 403 "node fingerprint mismatch")
      | some updated => return .rotated updated.nodeId "rotated"

/-- `next_task`. -/
def nextTask (nodeId : String) (request : NodeAuthRequest) : Py NodeResponse := do
  let node ← requireManaged nodeId request.fingerprint
  if !isWorkerCompatible workerProtocolVersion request.workerProtocolVersion then
    throw (.http 426 "worker protocol version mismatch; update node worker")
  else
    let _ ← call (.expireStuckTasks none)
    match ← call (.claimNextTask nodeId "worker" 900) with
    | none => return .noTask
    | some task =>
      return .task task.taskId task.command task.risk
        (signTaskPayload node.fingerprint task.taskId task.command task.risk)

/-- `task_result`. -/
def taskResult (taskId : String) (request : TaskResultRequest) : Py NodeResponse := do
  match ← call (.loadTask taskId) with
  | none => throw (.http 404 "task not found")
  | some task =>
    let _ ← requireManaged task.nodeId request.fingerprint
    match ← call (.completeTask taskId request.exitCode request.stdout request.stderr) with
    | none => throw (.http 409 "task is already terminal")
    | some updated => return .taskResult updated.taskId updated.status

/-- A request to one of the endpoints; there is no body when the one that was
sent is not valid. -/
inductive NodeRequest where
  | heartbeat (nodeId : String) (body : Option HeartbeatRequest)
  | rotateFingerprint (nodeId : String) (body : Option RotateFingerprintRequest)
  | nextTask (nodeId : String) (body : Option NodeAuthRequest)
  | taskResult (taskId : String) (body : Option TaskResultRequest)

/-- The framework refuses a body that is not valid. -/
def validated {α : Type} (body : Option α) (endpoint : α → Py NodeResponse) : Py NodeResponse :=
  match body with
  | none => throw (.http 422 "Unprocessable Entity")
  | some request => endpoint request

/-- What a request runs. -/
def NodeRequest.program : NodeRequest → Py NodeResponse
  | .heartbeat nodeId body => validated body (Hmn.heartbeat nodeId)
  | .rotateFingerprint nodeId body => validated body (Hmn.rotateFingerprint nodeId)
  | .nextTask nodeId body => validated body (Hmn.nextTask nodeId)
  | .taskResult taskId body => validated body (Hmn.taskResult taskId)

end Hmn
