/-
  Hmn.Approval.OutboxRuns — the approval outbox loses nothing.

  Whatever fails in a round, every listed notification is attempted once;
  the attempt marks the row only after its card was sent, and a row that was
  not marked is as it was and is listed again.

  Main results: `pollLoop_run` — a round is the list of its attempts;
  `outbox_loses_nothing`.
-/
import Hmn.Approval.Outbox
import Hmn.Store.Frames

namespace Hmn

open Framework Py

/-! ## §1. Attempts. -/

/-- What became of one listed notification in a round. -/
inductive Attempt where
  /-- Its payload has no card. -/
  | unreadable
  | sendFailed
  /-- The card was sent, the store did not record it. -/
  | markFailed
  /-- The store recorded it, its answer was lost. -/
  | answerLost
  | delivered
  deriving DecidableEq

namespace Attempt

/-- How many cards the attempt tried to send. -/
def sends : Attempt → Nat
  | .unreadable => 0
  | _ => 1

/-- How many marks it tried. -/
def marks : Attempt → Nat
  | .unreadable | .sendFailed => 0
  | _ => 1

/-- The store recorded the delivery. -/
def recorded : Attempt → Bool
  | .answerLost | .delivered => true
  | _ => false

/-- What a gateway does in an attempt. -/
def events (config : ApprovalGatewayClientConfig) (n : Notification) (a : Attempt) :
    List GatewayEvent :=
  match cardOf n.payload, a with
  | .error _, _ | _, .unreadable => []
  | .ok (text, buttons), .sendFailed => [.sendFailed config text buttons]
  | .ok (text, buttons), .markFailed => [.sent config text buttons]
  | .ok (text, buttons), _ => [.sent config text buttons, .delivered n.notificationId]

/-- The result after an attempt. -/
def count (a : Attempt) (result : PollResult) : PollResult :=
  if a = .delivered then { result with sent := result.sent + 1 }
  else { result with failed := result.failed + 1 }

end Attempt

/-- What becomes of a notification after so many sends and marks. -/
def attempt (env : GatewayEnv) (sends marks : Nat) (n : Notification) : Attempt :=
  match cardOf n.payload with
  | .error _ => .unreadable
  | .ok _ =>
    match env.send sends with
    | .error _ => .sendFailed
    | .ok () =>
      match env.mark marks with
      | .failed _ => .markFailed
      | .answerLost _ => .answerLost
      | .carriedOut => .delivered

/-- The attempts of a round. -/
def attempts (env : GatewayEnv) : List Notification → Nat → Nat → List (Notification × Attempt)
  | [], _, _ => []
  | n :: ns, sends, marks =>
    let a := attempt env sends marks n
    (n, a) :: attempts env ns (sends + a.sends) (marks + a.marks)

/-- Every listed notification is attempted once, in order. -/
theorem attempts_fst (env : GatewayEnv) (ns : List Notification) :
    ∀ sends marks, (attempts env ns sends marks).map Prod.fst = ns := by
  induction ns with
  | nil => intro sends marks; rfl
  | cons n ns ih =>
    intro sends marks
    rw [attempts, List.map_cons, ih]

/-- The row of a notification. -/
def Outbox.row (o : Outbox) (notificationId : String) : Option Notification :=
  o.controller.store.notifications.find? notificationId

variable {env : GatewayEnv} {config : ApprovalGatewayClientConfig} {o o' : Outbox}
  {n : Notification}

/-- What an attempt changes. -/
structure WasAttempted (env : GatewayEnv) (config : ApprovalGatewayClientConfig) (o : Outbox)
    (n : Notification) (a : Attempt) (o' : Outbox) : Prop where
  sends : o'.sends = o.sends + a.sends
  marks : o'.marks = o.marks + a.marks
  log : o'.log = o.log ++ a.events config n
  own : o'.row n.notificationId = some (if a.recorded then
    Store.deliver (o.controller.reading env.controller 0) n else n)
  others : ∀ k, k ≠ n.notificationId → o'.row k = o.row k

/-- The store after a notification was marked. -/
def Store.withDelivery (s : Store) (notificationId : String) (now : Timestamp) : Store :=
  { s with
    notifications := s.notifications.update (fun m => m.notificationId = notificationId)
      (Store.deliver now) (Store.deliver_notificationId now) }

theorem Store.find?_withDelivery {s : Store} {now : Timestamp}
    (h : s.notifications.find? n.notificationId = some n) (k : String) :
    (s.withDelivery n.notificationId now).notifications.find? k
      = if k = n.notificationId then some (Store.deliver now n) else s.notifications.find? k := by
  rw [Store.withDelivery, Table.find?_update]
  by_cases hk : k = n.notificationId
  · rw [if_pos hk, hk, h]
    simp
  · rw [if_neg hk]
    cases hf : s.notifications.find? k with
    | none => rfl
    | some m =>
      have hm : m.notificationId = k := Table.key_of_find? hf
      simp [hm, hk]

/-- The store records the delivery of a stored notification. -/
theorem gatewayNotificationDelivered_found {s : Store} {now : Timestamp}
    (h : s.notifications.find? n.notificationId = some n) :
    gatewayNotificationDelivered s n.notificationId now
      = (.ok (), s.withDelivery n.notificationId now) := by
  have hown := @Store.find?_withDelivery _ _ now h n.notificationId
  rw [if_pos rfl, Store.withDelivery] at hown
  simp only [gatewayNotificationDelivered, Store.markNotificationDelivered, h, hown]
  rfl

theorem marked_row (h : o.row n.notificationId = some n) {now : Timestamp} (k : String) :
    (o.marked (o.controller.store.withDelivery n.notificationId now) n.notificationId).row k
      = if k = n.notificationId then some (Store.deliver now n) else o.row k :=
  Store.find?_withDelivery h k

/-- The guarded part of the loop and its handler. -/
def guarded (config : ApprovalGatewayClientConfig) (n : Notification) (result : PollResult) :
    Gateway PollResult :=
  (do
    deliverNotification config n
    return { result with sent := result.sent + 1 }).tryCatch
  fun _ => return { result with failed := result.failed + 1 }

/-- **One attempt.**  Whatever fails, the loop goes on with the result of the
attempt. -/
theorem guarded_run (env : GatewayEnv) (config : ApprovalGatewayClientConfig)
    (result : PollResult) (hfound : o.row n.notificationId = some n) :
    ∃ o', (guarded config n result).run (gatewayExec env) o
        = (.ok ((attempt env o.sends o.marks n).count result), o')
      ∧ WasAttempted env config o n (attempt env o.sends o.marks n) o' := by
  unfold guarded deliverNotification attempt
  -- A card that cannot be built, a failed send, and then the three ends of a mark.
  cases hcard : cardOf n.payload with
  | error e =>
    exact ⟨o, rfl, ⟨rfl, rfl, by simp [Attempt.events, hcard], hfound, fun _ _ => rfl⟩⟩
  | ok card =>
    obtain ⟨text, buttons⟩ := card
    simp only
    cases hsend : env.send o.sends with
    | error m =>
      refine ⟨{ o with
        sends := o.sends + 1
        log := o.log ++ [.sendFailed config text buttons] }, ?_, ?_⟩
      · simp [Gateway.call, Prog.tryCatch, gatewayExec, hsend, Attempt.count]
      · exact ⟨rfl, rfl, by simp [Attempt.events, hcard], hfound, fun _ _ => rfl⟩
    | ok u =>
      -- the state in which the mark is made
      let o₁ : Outbox := { o with
        sends := o.sends + 1
        log := o.log ++ [.sent config text buttons] }
      have hdone := @gatewayNotificationDelivered_found _ _
        (o.controller.reading env.controller 0) hfound
      have hrow : ∀ k, (o₁.marked (o.controller.store.withDelivery n.notificationId
          (o.controller.reading env.controller 0)) n.notificationId).row k
            = if k = n.notificationId then
                some (Store.deliver (o.controller.reading env.controller 0) n)
              else o.row k := fun k => marked_row (o := o₁) hfound k
      cases hmark : env.mark o.marks with
      | failed m =>
        refine ⟨{ o₁ with marks := o.marks + 1 }, ?_, ?_⟩
        · simp [Gateway.call, Prog.tryCatch, gatewayExec, hsend, hmark, Attempt.count, o₁]
        · exact ⟨rfl, rfl, by simp [Attempt.events, hcard, o₁], hfound, fun _ _ => rfl⟩
      | carriedOut =>
        refine ⟨_, ?_, ⟨rfl, rfl, ?_, (hrow _).trans (if_pos rfl), fun k hk => (hrow k).trans (if_neg hk)⟩⟩
        · simp [Gateway.call, Prog.tryCatch, gatewayExec, hsend, hmark, hdone, Attempt.count, o₁]
        · simp [Attempt.events, hcard, o₁, Outbox.marked]
      -- The controller has stored the mark all the same.
      | answerLost m =>
        refine ⟨_, ?_, ⟨rfl, rfl, ?_, (hrow _).trans (if_pos rfl), fun k hk => (hrow k).trans (if_neg hk)⟩⟩
        · simp [Gateway.call, Prog.tryCatch, gatewayExec, hsend, hmark, hdone, Attempt.count, o₁]
        · simp [Attempt.events, hcard, o₁, Outbox.marked]

/-! ## §2. A round. -/

/-- What the attempts of a round change. -/
structure RoundDone (config : ApprovalGatewayClientConfig) (o : Outbox)
    (as : List (Notification × Attempt)) (o' : Outbox) : Prop where
  log : o'.log = o.log ++ as.flatMap fun na => na.2.events config na.1
  kept : ∀ na ∈ as, na.2.recorded = false → o'.row na.1.notificationId = some na.1
  marked : ∀ na ∈ as, na.2.recorded = true → ∃ now,
    o'.row na.1.notificationId = some (Store.deliver now na.1)
  others : ∀ k, k ∉ as.map (fun na => na.1.notificationId) → o'.row k = o.row k

/-- The result of a round. -/
def PollResult.after (result : PollResult) (as : List (Notification × Attempt)) : PollResult :=
  as.foldl (fun result na => na.2.count result) result

/-- **A round is the list of its attempts**, by induction on the listed
notifications: an attempt leaves the rows of the others alone. -/
theorem pollLoop_run (env : GatewayEnv) (config : ApprovalGatewayClientConfig)
    (ns : List Notification) : ∀ (o : Outbox) (result : PollResult),
      (ns.map Notification.notificationId).Nodup →
      (∀ n ∈ ns, o.row n.notificationId = some n) →
      ∃ o', (pollLoop config ns result).run (gatewayExec env) o
          = (.ok (result.after (attempts env ns o.sends o.marks)), o')
        ∧ RoundDone config o (attempts env ns o.sends o.marks) o' := by
  induction ns with
  | nil =>
    intro o result _ _
    exact ⟨o, rfl, ⟨by simp [attempts], by simp [attempts], by simp [attempts], fun _ _ => rfl⟩⟩
  | cons n ns ih =>
    intro o result hnodup hfound
    obtain ⟨hnew, hrest⟩ := List.nodup_cons.mp hnodup
    obtain ⟨o₁, hrun₁, h₁⟩ := guarded_run env config result (hfound n List.mem_cons_self)
    -- The attempt at `n` has not touched the rows that are still to come.
    have hfound₁ : ∀ m ∈ ns, o₁.row m.notificationId = some m := by
      intro m hm
      have hne : m.notificationId ≠ n.notificationId :=
        fun h => hnew (h ▸ List.mem_map_of_mem hm)
      exact (h₁.others _ hne).trans (hfound m (List.mem_cons_of_mem _ hm))
    obtain ⟨o', hrun, h⟩ := ih o₁ ((attempt env o.sends o.marks n).count result) hrest hfound₁
    rw [h₁.sends, h₁.marks] at hrun h
    have hkeys : ∀ sends marks, n.notificationId
        ∉ (attempts env ns sends marks).map (fun na => na.1.notificationId) := by
      intro sends marks
      have hfst : (attempts env ns sends marks).map (fun na => na.1.notificationId)
          = ns.map Notification.notificationId := by
        rw [← attempts_fst env ns sends marks, List.map_map, attempts_fst]
        rfl
      rw [hfst]
      exact hnew
    -- Nor do the later attempts touch the row of `n`.
    have hown : o'.row n.notificationId = o₁.row n.notificationId := h.others _ (hkeys _ _)
    refine ⟨o', ?_, ?_, ?_, ?_, ?_⟩
    · show Prog.run _ (guarded config n result >>= fun result => pollLoop config ns result) o = _
      rw [Prog.run_bind, hrun₁]
      exact hrun
    · rw [h.log, h₁.log, attempts, List.flatMap_cons, List.append_assoc]
    · intro na hna hrecorded
      rcases List.mem_cons.mp hna with rfl | hna
      · rw [hown, h₁.own, hrecorded]
        rfl
      · exact h.kept na hna hrecorded
    · intro na hna hrecorded
      rcases List.mem_cons.mp hna with rfl | hna
      · refine ⟨o.controller.reading env.controller 0, ?_⟩
        rw [hown, h₁.own, hrecorded]
        rfl
      · exact h.marked na hna hrecorded
    · intro k hk
      rw [attempts, List.map_cons, List.mem_cons, not_or] at hk
      exact (h.others k hk.2).trans (h₁.others k hk.1)

/-- Every attempt counts once. -/
theorem after_total (as : List (Notification × Attempt)) : ∀ result : PollResult,
    (result.after as).sent + (result.after as).failed
      = result.sent + result.failed + as.length := by
  induction as with
  | nil => intro result; rfl
  | cons na as ih =>
    intro result
    rw [PollResult.after, List.foldl_cons]
    refine (ih _).trans ?_
    rw [Attempt.count, List.length_cons]
    split_ifs <;> simp only <;> omega

/-- The card an event is about. -/
def GatewayEvent.card? : GatewayEvent → Option (String × List Json)
  | .sent _ text buttons | .sendFailed _ text buttons => some (text, buttons)
  | .delivered _ => none

/-- **Every listed card is sent or tried to be sent**, whatever became of the
ones before it. -/
theorem attempts_offered (env : GatewayEnv) (config : ApprovalGatewayClientConfig)
    (ns : List Notification) : ∀ sends marks,
      ((attempts env ns sends marks).flatMap fun na => na.2.events config na.1).filterMap
          GatewayEvent.card?
        = ns.filterMap fun n => (cardOf n.payload).toOption := by
  induction ns with
  | nil => intro sends marks; rfl
  | cons n ns ih =>
    intro sends marks
    rw [attempts, List.flatMap_cons, List.filterMap_append, ih, List.filterMap_cons]
    unfold attempt
    cases hcard : cardOf n.payload with
    | error e => simp [Attempt.events, hcard, Except.toOption]
    | ok card =>
      cases env.send sends with
      | error m => simp [Attempt.events, hcard, Except.toOption, GatewayEvent.card?]
      | ok u =>
        cases env.mark marks <;>
          simp [Attempt.events, hcard, Except.toOption, GatewayEvent.card?]

/-! ## §3. What a gateway lists. -/

theorem mem_gatewayNotifications {s : Store} {client : String} :
    n ∈ gatewayNotifications s client ↔
      s.notifications.find? n.notificationId = some n ∧ n.delivered = false
        ∧ n.channel = client := by
  rw [gatewayNotifications, Store.listPendingNotifications, List.mem_filter,
    List.mem_insertionSort, List.mem_filter, Table.find?_eq_some]
  simp [and_assoc]

theorem gatewayNotifications_nodup (s : Store) (client : String) :
    ((gatewayNotifications s client).map Notification.notificationId).Nodup := by
  have hsub : ((gatewayNotifications s client).map Notification.notificationId).Sublist
      (s.listPendingNotifications.map Notification.notificationId) :=
    List.Sublist.map _ List.filter_sublist
  refine hsub.nodup ?_
  have hperm := (List.perm_insertionSort (fun a b : Notification => b.createdAt ≤ a.createdAt)
    (s.notifications.rows.filter (fun n => n.delivered = false))).map Notification.notificationId
  rw [Store.listPendingNotifications, hperm.nodup_iff]
  exact (List.Sublist.map _ List.filter_sublist).nodup s.notifications.nodup

/-- **What a round does**, when the list was answered and when it was not. -/
theorem pollOnce_run (env : GatewayEnv) (config : ApprovalGatewayClientConfig) (o : Outbox) :
    (∃ m, env.list o.lists = .error m ∧ (pollOnce config).run (gatewayExec env) o
        = (.error (.runtime m), { o with lists := o.lists + 1 }))
    ∨ (env.list o.lists = .ok () ∧ ∃ o', (pollOnce config).run (gatewayExec env) o
        = (.ok (PollResult.after {} (attempts env
            (gatewayNotifications o.controller.store config.client) o.sends o.marks)), o')
      ∧ RoundDone config o (attempts env
          (gatewayNotifications o.controller.store config.client) o.sends o.marks) o') := by
  unfold pollOnce
  cases hlist : env.list o.lists with
  | error m => exact Or.inl ⟨m, rfl, by simp [Gateway.call, gatewayExec, hlist]⟩
  | ok u =>
    obtain ⟨o', hrun, h⟩ := pollLoop_run env config
      (gatewayNotifications o.controller.store config.client) { o with lists := o.lists + 1 } {}
      (gatewayNotifications_nodup _ _) (fun n hn => (mem_gatewayNotifications.mp hn).1)
    refine Or.inr ⟨rfl, o', ?_, h.log, h.kept, h.marked, h.others⟩
    simpa [Gateway.call, gatewayExec, hlist] using hrun

/-! ## §4. Programs of the controller. -/

/-- A call leaves the stored notifications alone and adds only pending ones. -/
def GrowsPending (w w' : World) : Prop :=
  (∀ k n, w.store.notifications.find? k = some n → w'.store.notifications.find? k = some n)
  ∧ ∀ n ∈ w'.store.notifications.rows, n ∈ w.store.notifications.rows ∨ n.delivered = false

theorem GrowsPending.of_eq {w w' : World}
    (h : w'.store.notifications = w.store.notifications) : GrowsPending w w' := by
  rw [GrowsPending, h]
  exact ⟨fun _ _ hf => hf, fun _ hn => Or.inl hn⟩

theorem GrowsPending.trans {w w' w'' : World} (h : GrowsPending w w') (h' : GrowsPending w' w'') :
    GrowsPending w w'' := by
  refine ⟨fun k n hf => h'.1 k n (h.1 k n hf), fun n hn => ?_⟩
  rcases h'.2 n hn with hn | hn
  · exact h.2 n hn
  · exact Or.inr hn

/-- Only an INSERT touches the notifications. -/
theorem exec_growsPending (env : Env) {op : Call} (w : World) (hop : op.enqueuesPending) :
    GrowsPending w (exec env op w).2 := by
  -- Only one call inserts a notification, and the caller may insert only pending ones.
  cases op with
  | insertNotification n =>
    simp only [exec]
    cases hinsert : w.store.notifications.insert? n with
    | none => exact GrowsPending.of_eq rfl
    | some notifications =>
      refine ⟨fun k m hf => ?_, fun m hm => ?_⟩
      · simp only [World.after_store]
        rw [Table.find?_insert hinsert, if_neg]
        · exact hf
        · rintro rfl
          rw [(Table.insert?_eq_some.mp hinsert).1] at hf
          cases hf
      · rcases (Table.mem_insert hinsert).mp hm with hm | rfl
        · exact Or.inl hm
        · exact Or.inr hop
  | dispatchApprovedTaskRequest id =>
    refine GrowsPending.of_eq ?_
    simp only [exec, World.after_store]
    rcases w.store.dispatch_cases id (env.uuid w.uuids) (w.reading env) with
      ⟨approval, tasks, -, heq⟩ | ⟨r, es, heq, -⟩
    · rw [heq]
      rfl
    · rw [heq]
  | dispatchApprovedComponentAction id =>
    refine GrowsPending.of_eq ?_
    obtain ⟨runs, components, es, heq, -⟩ := w.store.componentAction_frame id (w.reading env)
    simp only [exec, World.after_store, heq]
  | claimNextTask nodeId executor lease =>
    refine GrowsPending.of_eq ?_
    simp only [exec, World.after_store]
    rcases w.store.claim_cases nodeId executor lease (w.reading env 0) with
      ⟨row, -, -, es, heq, -⟩ | ⟨-, heq⟩ <;> rw [heq]
  | expireStuckTasks older =>
    refine GrowsPending.of_eq ?_
    obtain ⟨es, heq, -⟩ := w.store.expire_spec older (w.reading env 0)
    simp only [exec, World.after_store, heq]
  | completeTask id code out err =>
    refine GrowsPending.of_eq ?_
    simp only [exec, World.after_store]
    rcases w.store.complete_cases id code out err (w.reading env 0) with
      ⟨row, -, -, -, es, heq, -⟩ | ⟨-, heq⟩ <;> rw [heq]
  | readText path =>
    refine GrowsPending.of_eq ?_
    simp only [exec]
    cases w.files path <;> rfl
  | writeText path content =>
    refine GrowsPending.of_eq ?_
    simp only [exec]
    cases env.write w.writes <;> rfl
  | _ => exact GrowsPending.of_eq rfl

theorem run_growsPending (env : Env) {p : Py Unit} (hp : p.Calls Call.enqueuesPending)
    (w : World) : GrowsPending w (p.run (exec env) w).2 :=
  Prog.run_keeps (I := GrowsPending w) (fun _ w' hop hw => hw.trans (exec_growsPending env w' hop))
    hp w (GrowsPending.of_eq rfl)

/-! ## §5. Runs. -/

/-- The event is a round for another client, or not a round. -/
def OutboxEvent.leaves (client : String) : OutboxEvent → Prop
  | .poll config => config.client ≠ client
  | .program _ _ => True

/-- The notification was delivered before the run, or the log of the run
records its delivery right after its own card was sent to its client. -/
def DeliveredAfterSend (o₀ o : Outbox) (n : Notification) : Prop :=
  (∃ n₀, o₀.row n.notificationId = some n₀ ∧ n₀.delivered = true)
  ∨ ∃ before after config text buttons,
    o.log = o₀.log ++ before
      ++ .sent config text buttons :: .delivered n.notificationId :: after
    ∧ config.client = n.channel ∧ cardOf n.payload = .ok (text, buttons)

theorem DeliveredAfterSend.extend {o₀ : Outbox} {new : List GatewayEvent}
    (h : DeliveredAfterSend o₀ o n) (hlog : o'.log = o.log ++ new) :
    DeliveredAfterSend o₀ o' n := by
  rcases h with h | ⟨before, after, c, text, buttons, heq, hclient, hcard⟩
  · exact Or.inl h
  · refine Or.inr ⟨before, after ++ new, c, text, buttons, ?_, hclient, hcard⟩
    rw [hlog, heq]
    simp

/-- A recorded attempt logs its card and the delivery. -/
theorem events_recorded {sends marks : Nat} (h : (attempt env sends marks n).recorded = true) :
    ∃ text buttons, cardOf n.payload = .ok (text, buttons)
      ∧ (attempt env sends marks n).events config n
        = [.sent config text buttons, .delivered n.notificationId] := by
  unfold attempt at h ⊢
  cases hcard : cardOf n.payload with
  | error e => simp [hcard, Attempt.recorded] at h
  | ok card =>
    obtain ⟨text, buttons⟩ := card
    refine ⟨text, buttons, rfl, ?_⟩
    simp only [hcard] at h ⊢
    cases hsend : env.send sends with
    | error m => simp [hsend, Attempt.recorded] at h
    | ok u =>
      simp only [hsend] at h ⊢
      cases hmark : env.mark marks with
      | failed m => simp [hmark, Attempt.recorded] at h
      | carriedOut => simp [Attempt.events, hcard]
      | answerLost m => simp [Attempt.events, hcard]

/-- Every attempt of a round is one of the outside world's answers. -/
theorem mem_attempts {ns : List Notification} {na : Notification × Attempt} :
    ∀ {sends marks : Nat}, na ∈ attempts env ns sends marks →
      na.1 ∈ ns ∧ ∃ sends' marks', na.2 = attempt env sends' marks' na.1 := by
  induction ns with
  | nil => intro sends marks h; cases h
  | cons n ns ih =>
    intro sends marks h
    rcases List.mem_cons.mp h with rfl | h
    · exact ⟨List.mem_cons_self, sends, marks, rfl⟩
    · obtain ⟨hmem, hanswer⟩ := ih h
      exact ⟨List.mem_cons_of_mem _ hmem, hanswer⟩

/-- What a run keeps: it only adds to the log, and every delivered row was
delivered before it or after its card was sent. -/
structure OutboxKept (o₀ o : Outbox) : Prop where
  log : ∃ new, o.log = o₀.log ++ new
  delivered : ∀ n ∈ o.controller.store.notifications.rows, n.delivered = true →
    DeliveredAfterSend o₀ o n

/-- **A round delivers a row only after its card was sent.** -/
theorem outboxKept_round {o₀ : Outbox} (h : OutboxKept o₀ o)
    (hround : RoundDone config o (attempts env
      (gatewayNotifications o.controller.store config.client) o.sends o.marks) o') :
    OutboxKept o₀ o' := by
  obtain ⟨new, hnew⟩ := h.log
  refine ⟨⟨_, by rw [hround.log, hnew, List.append_assoc]⟩, fun n hn hdelivered => ?_⟩
  replace hn : o'.row n.notificationId = some n := Table.find?_of_mem hn
  -- A row of the round is delivered by its attempt, every other one as before.
  by_cases hlisted : n.notificationId ∈ (attempts env
      (gatewayNotifications o.controller.store config.client) o.sends o.marks).map
        fun na => na.1.notificationId
  · obtain ⟨⟨n₁, a⟩, hmem, hid⟩ := List.mem_map.mp hlisted
    obtain ⟨hn₁, sends, marks, ha⟩ := mem_attempts hmem
    obtain ⟨hfound, hpending, hchannel⟩ := mem_gatewayNotifications.mp hn₁
    rw [← hid] at hn
    cases hrecorded : a.recorded with
    | false =>
      obtain rfl : n₁ = n := Option.some.inj ((hround.kept _ hmem hrecorded).symm.trans hn)
      rw [hpending] at hdelivered
      cases hdelivered
    | true =>
      obtain ⟨now, hmarked⟩ := hround.marked _ hmem hrecorded
      obtain rfl : Store.deliver now n₁ = n := Option.some.inj (hmarked.symm.trans hn)
      simp only at ha
      subst ha
      obtain ⟨text, buttons, hcard, hevents⟩ := @events_recorded _ config _ _ _ hrecorded
      -- The send stands in the log behind the attempts before it, and the mark behind the send.
      obtain ⟨as, bs, hsplit⟩ := List.append_of_mem hmem
      refine Or.inr ⟨new ++ as.flatMap (fun na => na.2.events config na.1),
        bs.flatMap (fun na => na.2.events config na.1), config, text, buttons, ?_, hchannel.symm,
        hcard⟩
      rw [hround.log, hsplit, List.flatMap_append, List.flatMap_cons, hevents, hnew]
      simp
  · rw [hround.others _ hlisted] at hn
    exact (h.delivered n (Table.mem_of_find? hn) hdelivered).extend hround.log

/-- **One event keeps the order of sends and deliveries.** -/
theorem outboxKept_happens {o₀ : Outbox} (event : OutboxEvent) (h : OutboxKept o₀ o) :
    OutboxKept o₀ (event.happens env o) := by
  cases event with
  | program p hp =>
    refine ⟨h.log, fun n hn hdelivered => ?_⟩
    -- A program of the controller marks nothing as delivered.
    rcases (run_growsPending env.controller hp o.controller).2 n hn with hold | hpending
    · exact h.delivered n hold hdelivered
    · rw [hpending] at hdelivered
      cases hdelivered
  | poll config =>
    rw [OutboxEvent.happens]
    rcases pollOnce_run env config o with ⟨m, -, hrun⟩ | ⟨-, o', hrun, hround⟩
    · rw [hrun]
      exact ⟨h.log, h.delivered⟩
    · rw [hrun]
      exact outboxKept_round h hround

theorem outboxKept_replay {o₀ : Outbox} (events : List OutboxEvent) :
    ∀ o, OutboxKept o₀ o → OutboxKept o₀ (o.replay env events) := by
  induction events with
  | nil => exact fun o h => h
  | cons event events ih => exact fun o h => ih _ (outboxKept_happens event h)

/-- A pending notification stays listed until a round of its client. -/
theorem listed_replay (later : List OutboxEvent) : ∀ o : Outbox,
    (∀ event ∈ later, event.leaves n.channel) →
    n ∈ gatewayNotifications o.controller.store n.channel →
    n ∈ gatewayNotifications (o.replay env later).controller.store n.channel := by
  induction later with
  | nil => exact fun o _ h => h
  | cons event later ih =>
    intro o hleaves hn
    refine ih _ (fun e he => hleaves e (List.mem_cons_of_mem _ he)) ?_
    have hleave := hleaves event List.mem_cons_self
    obtain ⟨hfound, hpending, -⟩ := mem_gatewayNotifications.mp hn
    refine mem_gatewayNotifications.mpr ⟨?_, hpending, rfl⟩
    cases event with
    | program p hp => exact (run_growsPending env.controller hp o.controller).1 _ n hfound
    | poll config =>
      rw [OutboxEvent.happens]
      rcases pollOnce_run env config o with ⟨m, -, hrun⟩ | ⟨-, o', hrun, hround⟩
      · rw [hrun]
        exact hfound
      · rw [hrun]
        refine (hround.others _ fun hlisted => ?_).trans hfound
        obtain ⟨⟨n₁, a⟩, hmem, hid⟩ := List.mem_map.mp hlisted
        obtain ⟨hfound₁, -, hchannel⟩ := mem_gatewayNotifications.mp (mem_attempts hmem).1
        -- the row of one identifier is one row, so the channels agree
        rw [show n₁.notificationId = n.notificationId from hid, hfound] at hfound₁
        obtain rfl := Option.some.inj hfound₁
        exact hleave hchannel.symm

/-- What a round of a gateway does from `o`: nothing when the list is not
answered; otherwise every listed card is tried, every listed notification
counts once, exactly the recorded ones are delivered, and each of the others
is as it was and is listed again, whatever happens before the next round.  The
list is that of the pending rows of the client's channel. -/
structure RoundKept (env : GatewayEnv) (config : ApprovalGatewayClientConfig) (o : Outbox) :
    Prop where
  listed : ∀ n, n ∈ gatewayNotifications o.controller.store config.client ↔
    o.row n.notificationId = some n ∧ n.delivered = false ∧ n.channel = config.client
  unlisted : ∀ m, env.list o.lists = .error m →
    ((pollOnce config).run (gatewayExec env) o).2.controller = o.controller
  counts : env.list o.lists = .ok () → ∃ result,
    ((pollOnce config).run (gatewayExec env) o).1 = .ok result
    ∧ result.sent + result.failed = (gatewayNotifications o.controller.store config.client).length
  offered : env.list o.lists = .ok () →
    (((pollOnce config).run (gatewayExec env) o).2.log.drop o.log.length).filterMap
        GatewayEvent.card?
      = (gatewayNotifications o.controller.store config.client).filterMap
        fun n => (cardOf n.payload).toOption
  delivered : env.list o.lists = .ok () → ∀ n a,
    (n, a) ∈ attempts env (gatewayNotifications o.controller.store config.client) o.sends o.marks →
    a.recorded = true →
    ∃ row now, ((pollOnce config).run (gatewayExec env) o).2.row n.notificationId = some row
      ∧ row.delivered = true ∧ row = Store.deliver now n
  again : env.list o.lists = .ok () → ∀ n a,
    (n, a) ∈ attempts env (gatewayNotifications o.controller.store config.client) o.sends o.marks →
    a.recorded = false →
    ∀ later : List OutboxEvent, (∀ event ∈ later, event.leaves config.client) →
      n ∈ gatewayNotifications ((((pollOnce config).run (gatewayExec env) o).2.replay env
        later).controller.store) config.client

/-- **The approval outbox loses nothing.**  After any run from any outbox,
whatever fails, a row is delivered only if its own card was sent to its
client first, and the next round, of any client, tries every listed card and
leaves what was not recorded pending. -/
theorem outbox_loses_nothing (env : GatewayEnv) (o : Outbox) (events : List OutboxEvent) :
    (∀ n ∈ (o.replay env events).controller.store.notifications.rows, n.delivered = true →
      DeliveredAfterSend o (o.replay env events) n)
    ∧ ∀ config, RoundKept env config (o.replay env events) := by
  have hstart : OutboxKept o o :=
    ⟨⟨[], by simp⟩, fun n hn hd => Or.inl ⟨n, Table.find?_of_mem hn, hd⟩⟩
  refine ⟨(outboxKept_replay events o hstart).delivered, fun config => ?_⟩
  -- From here on only the next round matters, not how its outbox was reached.
  generalize o.replay env events = o'
  rcases pollOnce_run env config o' with ⟨m, hlist, hrun⟩ | ⟨hlist, o'', hrun, hround⟩
  · refine ⟨fun n => mem_gatewayNotifications, fun _ _ => congrArg (fun r => r.2.controller) hrun,
      ?_, ?_, ?_, ?_⟩ <;> rw [hlist] <;> nofun
  · refine ⟨fun n => mem_gatewayNotifications, fun m hm => ?_, fun _ => ⟨_, congrArg Prod.fst hrun, ?_⟩, fun _ => ?_,
      fun _ n a hmem hrecorded => ?_, fun _ n a hmem hrecorded later hlater => ?_⟩
    · rw [hlist] at hm
      cases hm
    · rw [after_total]
      have hlength := congrArg List.length (attempts_fst env
        (gatewayNotifications o'.controller.store config.client) o'.sends o'.marks)
      rw [List.length_map] at hlength
      simpa using hlength
    · rw [hrun]
      simp only [hround.log, List.drop_left]
      exact attempts_offered env config _ _ _
    · rw [hrun]
      obtain ⟨now, hmarked⟩ := hround.marked _ hmem hrecorded
      exact ⟨_, now, hmarked, rfl, rfl⟩
    · rw [hrun]
      -- What was not recorded is still pending after the round, hence listed until the next one.
      obtain ⟨-, hpending, hchannel⟩ := mem_gatewayNotifications.mp (mem_attempts hmem).1
      have hlisted : n ∈ gatewayNotifications o''.controller.store n.channel :=
        mem_gatewayNotifications.mpr ⟨hround.kept _ hmem hrecorded, hpending, rfl⟩
      rw [← show n.channel = config.client from hchannel] at hlater ⊢
      exact listed_replay later o'' hlater hlisted

/-- A gateway whose first mark fails. -/
def firstMarkFails : GatewayEnv where
  controller := .quiet
  list _ := .ok ()
  send _ := .ok ()
  mark n := if n = 0 then .failed "connection reset" else .carriedOut

/-- A card that waits for its gateway. -/
def waitingCard : Notification where
  notificationId := "ntf_1"
  channel := "telegram"
  subjectType := "approval"
  subjectId := "appr_1"
  payload := [("text", .str "approve?")]
  createdAt := 0

def waitingOutbox : Outbox where
  controller :=
    { store := { Store.empty with notifications := .single waitingCard }, files _ := .missing }

def telegramGateway : ApprovalGatewayClientConfig := ⟨"telegram", "ops"⟩

/-- The card was sent, and it is offered again. -/
theorem failed_mark_offered_again :
    let after := ((pollOnce telegramGateway).run (gatewayExec firstMarkFails) waitingOutbox).2
    after.log = [.sent telegramGateway "approve?" []]
      ∧ waitingCard ∈ gatewayNotifications after.controller.store "telegram" := by
  have hround : RoundKept firstMarkFails telegramGateway waitingOutbox :=
    (outbox_loses_nothing firstMarkFails waitingOutbox []).2 telegramGateway
  refine ⟨rfl, hround.again rfl waitingCard .markFailed ?_ rfl [] nofun⟩
  exact List.mem_singleton_self _

end Hmn
