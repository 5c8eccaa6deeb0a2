/-
  Hmn.Approval.Card — the card an operator decides on.

  `hmn task run` with a high risk does not create a task: it creates an
  approval request and puts a card for it into the outbox.  The card shows
  the command with the values of secrets cut off.
-/
import Hmn.Approval.Approvals

namespace Hmn

open Framework Py

/-! ## §1. The card. -/

/-- The words that mark a secret. -/
def secretMarkers : List String := ["TOKEN=", "SECRET=", "PASSWORD=", "API_KEY="]

/-- A word of a command without the value of a secret. -/
def redactWord (part : String) : String :=
  if secretMarkers.any (Text.contains (Text.upper part)) then Text.before part '=' ++ "…"
  else part

/-- A text of at most `n + 1` characters, cut after `n`. -/
def ellipsis (n : Nat) (s : String) : String :=
  if s.toList.length > n + 1 then Text.take s n ++ "…" else s

/-- `_redact_command`. -/
def redactCommand (command : String) : String :=
  ellipsis 79 (Text.join " " ((Text.split command).map redactWord))

example : redactCommand "deploy  api_token=abc now" = "deploy api_token… now" := by decide +kernel

/-- `ApprovalCard`; a button is its text and its callback data. -/
structure ApprovalCard where
  text : String
  buttons : List (String × String)
  channel : String := "approval"

/-- A line of a card. -/
def cardLine (label value : String) : String := label ++ ": `" ++ value ++ "`"

/-- The lines about an ACL change. -/
def aclLines (approval : ApprovalRequest) : List String :=
  let diff := ellipsis 899 (approval.details.strOr "diff" "")
  [cardLine "ACL" (approval.details.strOr "current_path" approval.subjectId),
    "Diff:",
    if diff ≠ "" then "```diff\n" ++ diff ++ "\n```" else "`(无 diff)`"]

/-- The lines about a command. -/
def commandLines (approval : ApprovalRequest) : List String :=
  let command := redactCommand (approval.details.strOr "command" "")
  [cardLine "节点" (approval.details.strOr "node_id" "未知节点"),
    if command ≠ "" then cardLine "命令" command else "命令: `(无)`"]

/-- `build_approval_card`. -/
def buildApprovalCard (approval : ApprovalRequest) : ApprovalCard :=
  let taskName := Text.strip (approval.details.strOr "task_name" "")
  let taskDescription := Text.strip (approval.details.strOr "task_description" "")
  let lines :=
    ["⚠️ 高风险审批", cardLine "审批" approval.approvalId, cardLine "风险" approval.risk,
      cardLine "动作" approval.action]
    ++ (if taskName ≠ "" then [cardLine "任务" taskName] else [])
    ++ (if taskDescription ≠ "" then [cardLine "说明" taskDescription] else [])
    ++ (if approval.isAclApply then aclLines approval else commandLines approval)
  { text := Text.join "\n" lines
    buttons := [
      ("✅ 批准", "hmn:approval:approve:" ++ approval.approvalId),
      ("❌ 拒绝", "hmn:approval:reject:" ++ approval.approvalId)] }

/-- The payload of the notification that carries a card. -/
def cardPayload (card : ApprovalCard) : Dict :=
  [("text", .str card.text),
    ("buttons", .arr (card.buttons.map (fun button =>
      .obj [("text", .str button.1), ("callback_data", .str button.2)])))]

/-! ## §2. The outbox. -/

/-- `enqueue_notification`. -/
def enqueueNotification (channel subjectType subjectId : String) (payload : Dict) :
    Py Notification := do
  let uuid ← call .uuid4
  let createdAt ← call .now
  let notification : Notification := {
    notificationId := "notif_" ++ uuid
    channel, subjectType, subjectId, payload, createdAt }
  orRaise (← call (.insertNotification notification))
  return notification

end Hmn
