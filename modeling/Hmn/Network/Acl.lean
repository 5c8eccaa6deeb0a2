/-
  Hmn.Network.Acl — applying an approved change of the network ACL file.

  `networkAclPlan` reads the current and the proposed file, records both
  digests in an approval request and leaves the files alone;
  `dispatchApprovedNetworkAclApply` reads both files again and overwrites
  the current one.
-/
import Hmn.Approval.Approvals
import Hmn.Framework.Sha256

namespace Hmn

open Framework Py

/-- `sha256_text`. -/
def sha256Text (value : String) : String := Sha256.hexdigest (Sha256.encode value)

theorem sha256Text_ne_empty (value : String) : sha256Text value ≠ "" :=
  Sha256.hexdigest_ne_empty _

/-- `path.read_text(encoding="utf-8") if path.exists() else ""`. -/
def readTextOrEmpty (path : String) : Py String := do
  if ← call (.exists_ path) then orRaise (← call (.readText path)) else return ""

/-! ## §1. Planning. -/

/-- What `hmn network acl plan` is called with. -/
structure AclPlanArgs where
  current : String
  proposed : String
  reloadCommand : String := "systemctl reload headscale"
  verifyCommand : String := "headscale nodes list"
  deriving DecidableEq

/-- The details of the approval request of a plan. -/
def aclPlanDetails (args : AclPlanArgs) (currentPath proposedPath diff oldText newText : String) :
    Dict :=
  [("provider", .str "headscale"), ("current_path", .str currentPath),
    ("proposed_path", .str proposedPath), ("diff", .str diff),
    ("old_sha256", .str (sha256Text oldText)), ("new_sha256", .str (sha256Text newText)),
    ("reload_command", .str args.reloadCommand), ("verify_command", .str args.verifyCommand)]

/-- `network_acl_plan`, up to its console output; `unifiedDiff` is the
library's diff of two texts with their file names.  The command ends with
exit code 1 when it asked for an approval; the request is returned here. -/
def networkAclPlan (unifiedDiff : String → String → String → String → String)
    (args : AclPlanArgs) : Py (Option ApprovalRequest) := do
  let currentPath ← orRaise (← call (.expanduser args.current))
  let proposedPath ← orRaise (← call (.expanduser args.proposed))
  if !(← call (.exists_ proposedPath)) then throw (.typerExit 1)
  else
    let oldText ← readTextOrEmpty currentPath
    let newText ← orRaise (← call (.readText proposedPath))
    let diff := unifiedDiff oldText newText currentPath proposedPath
    if diff = "" then return none
    else
      let approval ← createApprovalRequest "network_acl" currentPath "network.acl.apply"
        "critical" "hmn" (aclPlanDetails args currentPath proposedPath diff oldText newText)
      return some approval

/-! ## §2. Applying. -/

/-- How the reload and verify commands of an apply ended. -/
structure AclOutcome where
  reloadExit : Option Int := none
  verifyExit : Option Int := none
  error : Option String := none
  deriving DecidableEq

/-- `stderr.strip() or stdout.strip()`. -/
def commandMessage (stdout stderr : String) : String :=
  if Text.strip stderr = "" then Text.strip stdout else Text.strip stderr

/-- `run_acl_command`: its exit code and its message. -/
def runAclCommand (command : String) : Py (Int × String) := do
  match ← call (.runCommand command) with
  | .completed returncode stdout stderr => return (returncode, commandMessage stdout stderr)
  | .timedOut => throw .timeout
  | .raised exception => throw exception

/-- The verify half of an apply. -/
def verifyAcl (verifyCommand : String) (reloadExit : Option Int) : Py AclOutcome := do
  if verifyCommand = "" then return { reloadExit }
  else
    let (code, message) ← runAclCommand verifyCommand
    if code ≠ 0 then
      return { reloadExit, verifyExit := some code, error := some (
        "Headscale ACL verify 失败: " ++ message) }
    else return { reloadExit, verifyExit := some code }

/-- The reload and verify commands; an error is what the source raises as
`NetworkProviderError` inside the `try`. -/
def reloadAndVerify (reloadCommand verifyCommand : String) : Py AclOutcome := do
  if reloadCommand = "" then verifyAcl verifyCommand none
  else
    let (code, message) ← runAclCommand reloadCommand
    if code ≠ 0 then
      return { reloadExit := some code, error := some ("Headscale reload 失败: " ++ message) }
    else verifyAcl verifyCommand (some code)

/-- An exit code in an audit event. -/
def exitCodeJson : Option Int → Json
  | some code => .int code
  | none => .null

/-- The details every audit event of an apply starts with. -/
def aclAuditHead (approval : ApprovalRequest) (currentPath proposedPath : String) : Dict :=
  [("approval_id", .str approval.approvalId), ("current_path", .str currentPath),
    ("proposed_path", .str proposedPath)]

/-- The current ACL is not the one the approval was made for. -/
def aclChanged (approval : ApprovalRequest) (oldText : String) : Bool :=
  approval.details.getStr "old_sha256" "" ≠ "" ∧
    approval.details.getStr "old_sha256" "" ≠ sha256Text oldText

/-- The commands after the write and the audit event of an apply. -/
def finishAclApply (approval : ApprovalRequest) (currentPath proposedPath oldText newText : String) :
    Py Bool := do
  let outcome ← reloadAndVerify
    (Text.strip (approval.details.getStr "reload_command" ""))
    (Text.strip (approval.details.getStr "verify_command" ""))
  let result : Dict := aclAuditHead approval currentPath proposedPath ++
    [("old_sha256", .str (sha256Text oldText)), ("new_sha256", .str (sha256Text newText)),
      ("reload_exit_code", exitCodeJson outcome.reloadExit),
      ("verify_exit_code", exitCodeJson outcome.verifyExit)]
  match outcome.error with
  | some message =>
    call (.recordAudit "network" "network_acl" currentPath "acl/apply" "failed"
      (result ++ [("error", .str message)]))
    throw (.networkProvider message)
  | none =>
    call (.recordAudit "network" "network_acl" currentPath "acl/apply" "ok" result)
    return true

/-- The current ACL is not the one of the plan: audit it and raise. -/
def refuseAcl (approval : ApprovalRequest) (currentPath proposedPath oldText : String) :
    Py Bool := do
  call (.recordAudit "network" "network_acl" currentPath "acl/apply" "failed"
    (aclAuditHead approval currentPath proposedPath ++
      [("error", .str "current ACL sha256 mismatch"),
        ("expected_old_sha256", .str (approval.details.getStr "old_sha256" "")),
        ("actual_old_sha256", .str (sha256Text oldText))]))
  throw (.networkProvider "当前 ACL 已变化，请重新生成 diff 后再审批")

/-- The write and what follows it. -/
def writeAcl (approval : ApprovalRequest) (currentPath proposedPath oldText newText : String) :
    Py Bool := do
  orRaise (← call (.writeText currentPath newText))
  finishAclApply approval currentPath proposedPath oldText newText

/-- `dispatch_approved_network_acl_apply` from the check of the proposed
file on. -/
def applyAclFiles (approval : ApprovalRequest) (currentPath proposedPath : String) :
    Py Bool := do
  if !(← call (.exists_ proposedPath)) then return false
  else
    let oldText ← readTextOrEmpty currentPath
    let newText ← orRaise (← call (.readText proposedPath))
    if aclChanged approval oldText then refuseAcl approval currentPath proposedPath oldText
    else writeAcl approval currentPath proposedPath oldText newText

/-- `dispatch_approved_network_acl_apply` once the approval is known to be
an approved ACL change. -/
def applyAcl (approval : ApprovalRequest) : Py Bool := do
  let currentPath ← orRaise (← call (.expanduser (approval.details.getStr "current_path" "")))
  let proposedPath ← orRaise (← call (.expanduser (approval.details.getStr "proposed_path" "")))
  applyAclFiles approval currentPath proposedPath

/-- `dispatch_approved_network_acl_apply`. -/
def dispatchApprovedNetworkAclApply (approvalId : String) : Py Bool := do
  match ← call (.loadApprovalRequest approvalId) with
  | none => return false
  | some approval =>
    if approval.status ≠ .approved then return false
    else if ¬ approval.isAclApply then return false
    else applyAcl approval

end Hmn
