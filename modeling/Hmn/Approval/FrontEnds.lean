/-
  Hmn.Approval.FrontEnds — the four ways to decide an approval.

  The REST API, the command line, the Telegram callback and the form of the
  web console each look at the request, call `resolveApprovalRequest` and
  then dispatch the approved work themselves, each with its own list of the
  kinds it knows.  They are transcribed one by one.
-/
import Hmn.Network.Acl
import Hmn.Network.Provider

namespace Hmn

open Framework Py

/-- `except NetworkProviderError as exc`. -/
def onNetworkProviderError {α : Type} (p : Py α) (handler : String → Py α) : Py α :=
  p.tryCatch fun e =>
    match e with
    | .networkProvider message => handler message
    | e => throw e

/-! ## §1. The REST API. -/

/-- `ApprovalDecisionResponse`. -/
structure ApprovalDecisionResponse where
  approvalId : String
  status : ApprovalStatus
  dispatchedTaskId : Option String := none
  deriving DecidableEq

/-- The dispatch of a task in `_resolve_approval`. -/
def apiDispatchTask (approval : ApprovalRequest) (status : Decision) : Py (Option String) := do
  if status = .approved && approval.isTaskRun then
    match ← dispatchApprovedTaskRequest approval.approvalId with
    | none => throw (.http 422 "approval cannot be dispatched")
    | some task => return some task.taskId
  else return none

/-- The dispatch of a component action in `_resolve_approval`. -/
def apiDispatchComponent (approval : ApprovalRequest) (status : Decision) : Py Unit :=
  Prog.when (status = .approved && approval.isComponentAction) do
    match ← call (.dispatchApprovedComponentAction approval.approvalId) with
    | none => throw (.http 422 "approval cannot be dispatched")
    | some _ => return ()

/-- The dispatch of an ACL change in `_resolve_approval`. -/
def apiDispatchAcl (approval : ApprovalRequest) (status : Decision) : Py Unit :=
  Prog.when (status = .approved && approval.isAclApply) do
    let dispatched ← onNetworkProviderError
      (dispatchApprovedNetworkAclApply approval.approvalId)
      (fun message => throw (.http 422 message))
    if !dispatched then throw (.http 422 "approval cannot be dispatched")
    else return ()

/-- `_resolve_approval` of the API. -/
def apiResolveApproval (approvalId : String) (status : Decision) (decidedBy : String) :
    Py ApprovalDecisionResponse := do
  match ← call (.loadApprovalRequest approvalId) with
  | none => throw (.http 404 "approval not found")
  | some existing =>
    if existing.status ≠ .pending then
      throw (.http 409 ("approval is " ++ existing.status.text))
    else
      match ← resolveApprovalRequest approvalId status decidedBy with
      | none => throw (.http 404 "approval not found")
      | some approval =>
        let dispatchedTaskId ← apiDispatchTask approval status
        apiDispatchComponent approval status
        apiDispatchAcl approval status
        return { approvalId := approval.approvalId, status := approval.status, dispatchedTaskId }

/-! ## §2. The command line. -/

/-- The dispatches of `hmn approval approve`, each ending in exit code 1
when nothing was dispatched. -/
def cliDispatch (approval : ApprovalRequest) : Py Unit := do
  Prog.when approval.isTaskRun do
    match ← dispatchApprovedTaskRequest approval.approvalId with
    | none => throw (.typerExit 1)
    | some _ => return ()
  Prog.when approval.isTagsSet do
    let dispatched ← onNetworkProviderError
      (dispatchApprovedNetworkTagUpdate approval.approvalId) (fun _ => throw (.typerExit 1))
    if !dispatched then throw (.typerExit 1) else return ()
  Prog.when approval.isAclApply do
    let dispatched ← onNetworkProviderError
      (dispatchApprovedNetworkAclApply approval.approvalId) (fun _ => throw (.typerExit 1))
    if !dispatched then throw (.typerExit 1) else return ()
  Prog.when approval.isComponentAction do
    match ← call (.dispatchApprovedComponentAction approval.approvalId) with
    | none => throw (.typerExit 1)
    | some _ => return ()

/-- `approve_approval` of the command line. -/
def cliApproveApproval (approvalId by_ : String) : Py Unit := do
  match ← resolveApprovalRequest approvalId .approved by_ with
  | none => throw (.typerExit 1)
  | some approval => cliDispatch approval

/-- `reject_approval` of the command line. -/
def cliRejectApproval (approvalId by_ : String) : Py Unit := do
  match ← resolveApprovalRequest approvalId .rejected by_ with
  | none => throw (.typerExit 1)
  | some _ => return ()

/-! ## §3. The Telegram callback. -/

/-- `parse_approval_callback`: the decision and the approval id. -/
def parseApprovalCallback (callbackData : String) : Option (Decision × String) :=
  match (callbackData.toList.splitOn ':').map String.ofList with
  | [head, category, decision, approvalId] =>
    if head ≠ "hmn" ∨ category ≠ "approval" then none
    else if ¬ Text.startsWith approvalId "appr_" then none
    else if decision = "approve" then some (.approved, approvalId)
    else if decision = "reject" then some (.rejected, approvalId)
    else none
  | _ => none

/-- `TelegramApprovalCallbackResult`. -/
structure TelegramApprovalCallbackResult where
  ok : Bool
  message : String
  approvalId : Option String := none
  status : Option ApprovalStatus := none
  dispatchedTaskId : Option Json := none
  deriving DecidableEq

/-- A result that reports why an approved request was not carried out. -/
def telegramFailure (resolved : ApprovalRequest) (message : String) :
    TelegramApprovalCallbackResult :=
  { ok := false, message, approvalId := some resolved.approvalId,
    status := some resolved.status }

/-- The component dispatch of the callback: what to report, if anything. -/
def telegramDispatchComponent (resolved : ApprovalRequest) (status : Decision) :
    Py (Option TelegramApprovalCallbackResult) := do
  if status = .approved && resolved.isComponentAction then
    match ← call (.dispatchApprovedComponentAction resolved.approvalId) with
    | none =>
      return (some (telegramFailure resolved
        "已批准，但组件操作执行失败：审批详情不完整或动作不可调度。"))
    | some _ => return none
  else return none

/-- The ACL dispatch of the callback: what to report, if anything. -/
def telegramDispatchAcl (resolved : ApprovalRequest) (status : Decision) :
    Py (Option TelegramApprovalCallbackResult) := do
  if status = .approved && resolved.isAclApply then
    onNetworkProviderError
      (do
        let dispatched ← dispatchApprovedNetworkAclApply resolved.approvalId
        if !dispatched then
          return (some (telegramFailure resolved
            "已批准，但 Headscale ACL 应用失败：审批详情不完整或文件不可用。"))
        else return none)
      (fun message => return (some (telegramFailure resolved
        ("已批准，但 Headscale ACL 应用失败：" ++ message))))
  else return none

/-- The final report of the callback. -/
def telegramReport (resolved : ApprovalRequest) (status : Decision)
    (dispatchedTaskId : Option String) : TelegramApprovalCallbackResult :=
  { ok := true
    approvalId := some resolved.approvalId
    status := some resolved.status
    dispatchedTaskId := dispatchedTaskId.map .str
    message := match status, dispatchedTaskId with
      | .approved, some taskId => "已批准。" ++ (" 已创建任务: " ++ taskId)
      | .approved, none => "已批准。"
      | .rejected, _ => "已拒绝。不会创建任务。" }

/-- The dispatches of the callback after the task one; each of them may end
the callback with its report. -/
def telegramDispatchRest (resolved : ApprovalRequest) (status : Decision)
    (dispatchedTaskId : Option String) : Py TelegramApprovalCallbackResult := do
  match ← telegramDispatchComponent resolved status with
  | some result => return result
  | none =>
    match ← telegramDispatchAcl resolved status with
    | some result => return result
    | none => return telegramReport resolved status dispatchedTaskId

/-- The dispatches of the callback. -/
def telegramDispatch (resolved : ApprovalRequest) (status : Decision) :
    Py TelegramApprovalCallbackResult := do
  if status = .approved && resolved.isTaskRun then
    match ← dispatchApprovedTaskRequest resolved.approvalId with
    | none =>
      return (telegramFailure resolved "已批准，但任务创建失败：审批详情缺少 node_id/command。")
    | some task => telegramDispatchRest resolved status (some task.taskId)
  else telegramDispatchRest resolved status none

/-- `handle_telegram_approval_callback`. -/
def handleTelegramApprovalCallback (callbackData decidedBy : String) :
    Py TelegramApprovalCallbackResult := do
  match parseApprovalCallback callbackData with
  | none => return { ok := false, message := "无效的审批回调。" }
  | some (status, approvalId) =>
    match ← call (.loadApprovalRequest approvalId) with
    | none => return { ok := false, approvalId := some approvalId,
                       message := "审批不存在或已清理。" }
    | some approval =>
      if approval.status ≠ .pending then
        return { ok := false
                 approvalId := some approval.approvalId
                 status := some approval.status
                 message := "审批已处理：" ++ approval.status.text
                 dispatchedTaskId := approval.marker }
      else
        match ← resolveApprovalRequest approval.approvalId status decidedBy with
        | none => return { ok := false, approvalId := some approval.approvalId,
                           message := "审批处理失败。" }
        | some resolved => telegramDispatch resolved status

/-! ## §4. The web console. -/

/-- The dispatches of `_decision`. -/
def webDispatch (approval : ApprovalRequest) (decision : Decision) : Py Unit := do
  Prog.when (decision = .approved && approval.isTaskRun) do
    match ← dispatchApprovedTaskRequest approval.approvalId with
    | none => throw (.http 422 "approval cannot be dispatched")
    | some _ => return ()
  Prog.when (decision = .approved && approval.isComponentAction) do
    let _ ← call (.dispatchApprovedComponentAction approval.approvalId)

/-- `_decision` of the web console. -/
def webDecision (approvalId : String) (decision : Decision) (decidedBy : String) : Py Unit := do
  match ← call (.loadApprovalRequest approvalId) with
  | none => throw (.http 404 "approval not found")
  | some existing =>
    if existing.status ≠ .pending then
      throw (.http 409 ("approval is " ++ existing.status.text))
    else
      match ← resolveApprovalRequest approvalId decision decidedBy with
      | none => return ()
      | some approval => webDispatch approval decision

/-! ## §5. Deciders. -/

/-- The front ends. -/
inductive FrontEnd where
  | api
  | cli
  | telegram
  | web
  deriving DecidableEq, Repr

/-- The callback data of the buttons of an approval card. -/
def callbackData (status : Decision) (approvalId : String) : String :=
  match status with
  | .approved => "hmn:approval:approve:" ++ approvalId
  | .rejected => "hmn:approval:reject:" ++ approvalId

/-- Deciding an approval through a front end; what it answers is left out. -/
def FrontEnd.decides (frontEnd : FrontEnd) (approvalId : String) (status : Decision)
    (decidedBy : String) : Py Unit :=
  match frontEnd, status with
  | .api, _ => do let _ ← apiResolveApproval approvalId status decidedBy
  | .cli, .approved => cliApproveApproval approvalId decidedBy
  | .cli, .rejected => cliRejectApproval approvalId decidedBy
  | .telegram, _ => do
      let _ ← handleTelegramApprovalCallback (callbackData status approvalId) decidedBy
  | .web, _ => webDecision approvalId status decidedBy

/-- The callers that decide approvals. -/
inductive DecisionCaller where
  | store (approvalId : String) (status : Decision) (decidedBy : String)
  | api (approvalId : String) (status : Decision) (decidedBy : String)
  | cli (approvalId : String) (status : Decision) (by_ : String)
  | telegram (callbackData decidedBy : String)
  | web (approvalId : String) (decision : Decision) (decidedBy : String)

/-- What a caller runs. -/
def DecisionCaller.program : DecisionCaller → Py Unit
  | .store approvalId status decidedBy => do
      let _ ← resolveApprovalRequest approvalId status decidedBy
  | .api approvalId status decidedBy => FrontEnd.api.decides approvalId status decidedBy
  | .cli approvalId status by_ => FrontEnd.cli.decides approvalId status by_
  | .telegram callbackData decidedBy => do
      let _ ← handleTelegramApprovalCallback callbackData decidedBy
  | .web approvalId decision decidedBy => webDecision approvalId decision decidedBy

end Hmn
