/-
  Hmn.Approval.Approvals — creating and deciding approval requests.

  The two operations of the store that take more than one transaction.
  `resolveApprovalRequest` is a check-then-act: the row is loaded in one
  transaction and written back as a whole in another, and the dispatch of
  the approved work is a third one.
-/
import Hmn.Store.Calls

namespace Hmn

open Framework Py

/-- `create_approval_request`. -/
def createApprovalRequest (subjectType subjectId action risk requestedBy : String)
    (details : Dict) : Py ApprovalRequest := do
  let uuid ← call .uuid4
  let createdAt ← call .now
  let approval : ApprovalRequest := {
    approvalId := "appr_" ++ uuid
    subjectType, subjectId, action, risk
    status := .pending
    requestedBy, details, createdAt }
  call (.saveApprovalRequest approval)
  call (.recordAudit "approval" subjectType approval.approvalId "approval/request" "pending"
    (Dict.merge [("subject_id", .str subjectId), ("action", .str action), ("risk", .str risk)]
      approval.details))
  return approval

/-- `dispatch_approved_task_request`. -/
def dispatchApprovedTaskRequest (approvalId : String) : Py (Option Task) := do
  orRaise (← call (.dispatchApprovedTaskRequest approvalId))

/-- What `resolve_approval_request` writes into its copy of the row. -/
def withDecision (approval : ApprovalRequest) (status : Decision) (decidedBy : String)
    (now : Timestamp) : ApprovalRequest :=
  { approval with status := status.status, decidedBy := decidedBy, decidedAt := some now }

/-- The details of the event `approval/approved` or `approval/rejected`. -/
def decisionDetails (approval : ApprovalRequest) (decidedBy : String) : Dict :=
  [("subject_id", .str approval.subjectId), ("risk", .str approval.risk),
    ("decided_by", .str decidedBy)]

/-- The dispatches at the end of `resolve_approval_request`. -/
def dispatchResolved (approval : ApprovalRequest) (status : Decision) : Py Unit := do
  Prog.when (status = .approved && approval.isTaskRun) do
    let _ ← dispatchApprovedTaskRequest approval.approvalId
  Prog.when (status = .approved && approval.isComponentAction) do
    let _ ← call (.dispatchApprovedComponentAction approval.approvalId)

/-- `resolve_approval_request`. -/
def resolveApprovalRequest (approvalId : String) (status : Decision) (decidedBy : String) :
    Py (Option ApprovalRequest) := do
  match ← call (.loadApprovalRequest approvalId) with
  | none => return none
  | some approval =>
    if approval.status ≠ .pending then return some approval
    else
      let now ← call .now
      let approval := withDecision approval status decidedBy now
      call (.saveApprovalRequest approval)
      call (.recordAudit "approval" approval.subjectType approval.approvalId
        ("approval/" ++ status.status.text) status.status.text
        (decisionDetails approval decidedBy))
      dispatchResolved approval status
      return some approval

end Hmn
