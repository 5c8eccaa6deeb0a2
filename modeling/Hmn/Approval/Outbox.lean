/-
  Hmn.Approval.Outbox — the gateway that sends the cards of the outbox.

  A round lists the pending notifications of its client, sends each card and
  marks it delivered; an exception of one only counts as failed.  Sending
  and marking are two steps against two parties, and either may fail, also
  after the mark was carried out.
-/
import Hmn.Approval.Card

namespace Hmn

open Framework Py

/-! ## §1. The outbox in the store. -/

namespace Store

/-- `list_notifications(status="pending")`: the newest first. -/
def listPendingNotifications (s : Store) : List Notification :=
  (s.notifications.rows.filter (fun n => n.delivered = false)).insertionSort
    (fun a b => b.createdAt ≤ a.createdAt)

/-- The UPDATE of a notification that was delivered. -/
def deliver (now : Timestamp) (n : Notification) : Notification :=
  { n with delivered := true, deliveredAt := some now }

@[simp] theorem deliver_notificationId (now : Timestamp) (n : Notification) :
    (deliver now n).notificationId = n.notificationId := rfl

/-- `mark_notification_delivered`. -/
def markNotificationDelivered (s : Store) (notificationId : String) (now : Timestamp) :
    Option Notification × Store :=
  match s.notifications.find? notificationId with
  | none => (none, s)
  | some _ =>
    let notifications := s.notifications.update (fun n => n.notificationId = notificationId)
      (deliver now) (deliver_notificationId now)
    (notifications.find? notificationId, { s with notifications })

end Store

/-- `_gateway_notifications`. -/
def gatewayNotifications (s : Store) (client : String) : List Notification :=
  s.listPendingNotifications.filter (fun n => n.channel = client)

/-- `_gateway_notification_delivered`. -/
def gatewayNotificationDelivered (s : Store) (notificationId : String) (now : Timestamp) :
    Except PyError Unit × Store :=
  match s.markNotificationDelivered notificationId now with
  | (none, s) => (.error (.http 404 "notification not found"), s)
  | (some _, s) => (.ok (), s)

/-! ## §2. The calls of a gateway. -/

/-- `ApprovalGatewayClientConfig`. -/
structure ApprovalGatewayClientConfig where
  client : String
  target : String
  deriving DecidableEq

inductive GatewayCall where
  | listNotifications (client : String)
  | sendCard (config : ApprovalGatewayClientConfig) (text : String) (buttons : List Json)
  | markDelivered (notificationId : String)

@[reducible] def GatewayCall.Res : GatewayCall → Type
  | .listNotifications _ => Except PyError (List Notification)
  | .sendCard .. => Except PyError Unit
  | .markDelivered _ => Except PyError Unit

abbrev gatewaySig : Sig := ⟨GatewayCall, GatewayCall.Res⟩

/-- A program of the gateway. -/
abbrev Gateway (α : Type) := Prog gatewaySig PyError α

namespace Gateway

/-- One call; what it raises is raised. -/
def call {α : Type} (op : GatewayCall) (f : GatewayCall.Res op → Except PyError α) : Gateway α :=
  Prog.call (S := gatewaySig) op fun r =>
    match f r with
    | .ok a => .ret a
    | .error e => .raise e

end Gateway

/-- `list(value or [])`. -/
def buttonsOf : Option Json → Except PyError (List Json)
  | none => .ok []
  | some value =>
    if !value.truthy then .ok []
    else
      match value with
      | .arr xs => .ok xs
      | .str s => .ok (s.toList.map fun c => .str (String.ofList [c]))
      | .obj kvs => .ok (kvs.map fun kv => .str kv.1)
      | .bool _ => .error (.type "'bool' object is not iterable")
      | .float _ => .error (.type "'float' object is not iterable")
      | _ => .error (.type "'int' object is not iterable")

/-- The text and the buttons that are sent for a payload. -/
def cardOf (payload : Dict) : Except PyError (String × List Json) :=
  (buttonsOf (payload.get? "buttons")).map fun buttons => (payload.strOr "text" "", buttons)

/-- `PollResult`. -/
structure PollResult where
  sent : Nat := 0
  failed : Nat := 0
  deriving DecidableEq

/-- The guarded part of the loop. -/
def deliverNotification (config : ApprovalGatewayClientConfig) (n : Notification) :
    Gateway Unit :=
  match cardOf n.payload with
  | .error e => throw e
  | .ok (text, buttons) => do
    Gateway.call (.sendCard config text buttons) id
    Gateway.call (.markDelivered n.notificationId) id

/-- The loop of `poll_once`. -/
def pollLoop (config : ApprovalGatewayClientConfig) :
    List Notification → PollResult → Gateway PollResult
  | [], result => return result
  | n :: ns, result => do
    let result ← (do
        deliverNotification config n
        return { result with sent := result.sent + 1 }).tryCatch
      fun _ => return { result with failed := result.failed + 1 }
    pollLoop config ns result

/-- `poll_once`, with the api client of the same configuration. -/
def pollOnce (config : ApprovalGatewayClientConfig) : Gateway PollResult := do
  let notifications ← Gateway.call (.listNotifications config.client) id
  pollLoop config notifications {}

/-! ## §3. The parties. -/

/-- How a request to mark a notification went. -/
inductive MarkAnswer where
  | carriedOut
  /-- The store did not record it. -/
  | failed (message : String)
  /-- The store recorded it and its answer was lost. -/
  | answerLost (message : String)

/-- What the outside world answers, by how many answers of the kind were
used. -/
structure GatewayEnv where
  controller : Env
  list : Nat → Except String Unit
  send : Nat → Except String Unit
  mark : Nat → MarkAnswer

/-- What a gateway did. -/
inductive GatewayEvent where
  | sent (config : ApprovalGatewayClientConfig) (text : String) (buttons : List Json)
  | sendFailed (config : ApprovalGatewayClientConfig) (text : String) (buttons : List Json)
  | delivered (notificationId : String)
  deriving DecidableEq

/-- The controller, how many answers were used, and what was done. -/
structure Outbox where
  controller : World
  lists : Nat := 0
  sends : Nat := 0
  marks : Nat := 0
  log : List GatewayEvent := []

/-- The outbox after the store has recorded a delivery. -/
def Outbox.marked (o : Outbox) (s : Store) (notificationId : String) : Outbox :=
  { o with
    controller := o.controller.after 1 s
    marks := o.marks + 1
    log := o.log ++ [.delivered notificationId] }

/-- What each call does. -/
def gatewayExec (env : GatewayEnv) : Prog.Exec gatewaySig Outbox
  | .listNotifications client, o =>
      match env.list o.lists with
      | .error message => (.error (.runtime message), { o with lists := o.lists + 1 })
      | .ok () =>
        (.ok (gatewayNotifications o.controller.store client), { o with lists := o.lists + 1 })
  | .sendCard config text buttons, o =>
      match env.send o.sends with
      | .error message =>
        (.error (.runtime message), { o with
          sends := o.sends + 1
          log := o.log ++ [.sendFailed config text buttons] })
      | .ok () =>
        (.ok (), { o with
          sends := o.sends + 1
          log := o.log ++ [.sent config text buttons] })
  | .markDelivered notificationId, o =>
      match env.mark o.marks with
      | .failed message => (.error (.runtime message), { o with marks := o.marks + 1 })
      | .carriedOut =>
        match gatewayNotificationDelivered o.controller.store notificationId
            (o.controller.reading env.controller 0) with
        | (.error e, _) => (.error e, { o with marks := o.marks + 1 })
        | (.ok (), s) => (.ok (), o.marked s notificationId)
      | .answerLost message =>
        match gatewayNotificationDelivered o.controller.store notificationId
            (o.controller.reading env.controller 0) with
        | (.error e, _) => (.error e, { o with marks := o.marks + 1 })
        | (.ok (), s) => (.error (.runtime message), o.marked s notificationId)

/-! ## §4. Runs. -/

/-- Calls that put only pending notifications into the outbox. -/
def Call.enqueuesPending : Call → Prop
  | .insertNotification n => n.delivered = false
  | _ => True

/-- What can happen to the outbox: a round of a gateway, or a program of the
controller. -/
inductive OutboxEvent where
  | poll (config : ApprovalGatewayClientConfig)
  | program (p : Py Unit) (h : p.Calls Call.enqueuesPending)

def OutboxEvent.happens (env : GatewayEnv) (o : Outbox) : OutboxEvent → Outbox
  | .poll config => ((pollOnce config).run (gatewayExec env) o).2
  | .program p _ => { o with controller := (p.run (exec env.controller) o.controller).2 }

/-- The outbox after a run. -/
def Outbox.replay (env : GatewayEnv) (o : Outbox) (events : List OutboxEvent) : Outbox :=
  events.foldl (OutboxEvent.happens env) o

end Hmn
