/-
  Hmn.Tasks.AuditReplay — the audit log of a task against its row.

  Every operation that writes a task row writes audit events by hand in the
  same breath.  `LogStep` says which event goes with which change of the row;
  every operation keeps to it, and so the events of a task, folded in the
  order they were written, give its stored status.

  Main result: `audit_replays`.
-/
import Hmn.Tasks.Lifecycle

namespace Hmn

open Framework Py

/-! ## §1. The events of one task. -/

/-- The events of the task `id`. -/
def taskEvents (audit : List AuditEvent) (id : String) : List AuditEvent :=
  audit.filter (fun e => e.subjectType = "task" ∧ e.subjectId = id)

/-- The status an event leads to. -/
def replayEvent (status : Option String) (e : AuditEvent) : Option String :=
  if e.action = "create" then some TaskStatus.pending.text
  else if e.action = "dispatch" then some TaskStatus.running.text
  else if e.action = "task_result" then some e.outcome
  else if e.action = "watchdog/expire" then some TaskStatus.failed.text
  else status

/-- The status a task's events lead to. -/
def replayed (audit : List AuditEvent) (id : String) : Option String :=
  (taskEvents audit id).foldl replayEvent none

/-- How many events of a task have one of the actions. -/
def countEvents (actions : List String) (audit : List AuditEvent) (id : String) : Nat :=
  (taskEvents audit id).countP (fun e => e.action ∈ actions)

/-- The actions that end a task. -/
def terminalActions : List String := ["task_result", "watchdog/expire"]

/-- The actions the replay looks at. -/
def replayActions : List String := ["create", "dispatch"] ++ terminalActions

/-- The events of a task that the replay looks at. -/
def told (audit : List AuditEvent) (id : String) : List AuditEvent :=
  (taskEvents audit id).filter (fun e => e.action ∈ replayActions)

/-- The row of a task agrees with its events. -/
structure Agrees (row : Option Task) (events : List AuditEvent) : Prop where
  status : events.foldl replayEvent none = row.map (fun t => t.status.text)
  creates : events.countP (fun e => e.action ∈ ["create"]) = if row.isSome then 1 else 0
  dispatches : events.countP (fun e => e.action ∈ ["dispatch"])
    = (row.map Task.attemptCount).getD 0
  ends : events.countP (fun e => e.action ∈ terminalActions)
    = if row.any (fun t => t.status.terminal) then 1 else 0

/-- What one operation does to the row of a task and adds to its events. -/
inductive LogStep : Option Task → List AuditEvent → Option Task → Prop
  | keep (row : Option Task) : LogStep row [] row
  | create (t : Task) (e : AuditEvent) (haction : e.action = "create")
      (hpending : t.status = .pending) (hnew : t.attemptCount = 0) : LogStep none [e] (some t)
  | claim (t : Task) (e : AuditEvent) (now lease : Timestamp) (haction : e.action = "dispatch")
      (hpending : t.status = .pending) : LogStep (some t) [e] (some (Store.claim now lease t))
  | complete (t : Task) (e : AuditEvent) (exitCode : Int) (stdout stderr : String)
      (now : Timestamp) (haction : e.action = "task_result")
      (houtcome : e.outcome = if exitCode = 0 then "succeeded" else "failed")
      (hrunning : t.status = .running) :
      LogStep (some t) [e] (some (Store.complete exitCode stdout stderr now t))
  | expire (t : Task) (e : AuditEvent) (now : Timestamp) (haction : e.action = "watchdog/expire")
      (hrunning : t.status = .running) : LogStep (some t) [e] (some (Store.expire now t))

section Agreement

variable {row row' : Option Task} {events added : List AuditEvent} {e : AuditEvent}

/-- One more event. -/
theorem agrees_snoc {t' : Task} (h : Agrees row events)
    (hstatus : replayEvent (row.map (fun t => t.status.text)) e = some t'.status.text)
    (hcreate : (if row.isSome then 1 else 0) + (if e.action ∈ ["create"] then 1 else 0) = 1)
    (hdispatch : (row.map Task.attemptCount).getD 0
      + (if e.action ∈ ["dispatch"] then 1 else 0) = t'.attemptCount)
    (hend : (if row.any (fun t => t.status.terminal) then 1 else 0)
      + (if e.action ∈ terminalActions then 1 else 0) = if t'.status.terminal then 1 else 0) :
    Agrees (some t') (events ++ [e]) := by
  have hcount : ∀ actions : List String,
      [e].countP (fun e => e.action ∈ actions) = if e.action ∈ actions then 1 else 0 := by
    intro actions
    by_cases haction : e.action ∈ actions <;> simp [haction]
  constructor
  case status => rw [List.foldl_append, h.status, List.foldl_cons, List.foldl_nil, hstatus]; rfl
  case creates => rw [List.countP_append, h.creates, hcount, hcreate]; rfl
  case dispatches => rw [List.countP_append, h.dispatches, hcount, hdispatch]; rfl
  case ends => rw [List.countP_append, h.ends, hcount, hend]; rfl

/-- **A step keeps the agreement.** -/
theorem agrees_step (h : Agrees row events) (hstep : LogStep row added row') :
    Agrees row' (events ++ added) := by
  cases hstep with
  | keep row => rwa [List.append_nil]
  | create t e haction hpending hnew =>
    refine agrees_snoc h ?_ ?_ ?_ ?_ <;>
      simp [replayEvent, haction, hpending, hnew, terminalActions, TaskStatus.terminal]
  | claim t e now lease haction hpending =>
    refine agrees_snoc h ?_ ?_ ?_ ?_ <;>
      simp [replayEvent, haction, hpending, terminalActions, TaskStatus.terminal, Store.claim]
  | complete t e exitCode stdout stderr now haction houtcome hrunning =>
    by_cases hcode : exitCode = 0 <;> refine agrees_snoc h ?_ ?_ ?_ ?_ <;>
      simp [replayEvent, haction, houtcome, hrunning, hcode, terminalActions, TaskStatus.terminal,
        TaskStatus.text, Store.complete]
  | expire t e now haction hrunning =>
    refine agrees_snoc h ?_ ?_ ?_ ?_ <;>
      simp [replayEvent, haction, hrunning, terminalActions, TaskStatus.terminal, Store.expire]

end Agreement

/-! ## §2. The operations. -/

section Told

variable {id : String}

theorem told_append (audit es : List AuditEvent) (id : String) :
    told (audit ++ es) id = told audit id ++ told es id := by
  simp only [told, taskEvents, List.filter_append]

/-- An event with an action of its own tells nothing. -/
theorem told_other {es : List AuditEvent} (h : ∀ e ∈ es, e.action ∉ replayActions) :
    told es id = [] := by
  unfold told
  rw [List.filter_eq_nil_iff]
  intro e he
  simpa using h e (List.mem_of_mem_filter he)

/-- The event of a task. -/
theorem told_single {e : AuditEvent} (taskId action : String) (hsubject : e.subjectType = "task")
    (htask : e.subjectId = taskId) (haction : e.action = action) (h : action ∈ replayActions) :
    told [e] id = if taskId = id then [e] else [] := by
  unfold told taskEvents
  by_cases hid : taskId = id <;> simp [htask, hid, hsubject, haction, h]

end Told

/-- What an operation does to every row and to the audit log. -/
def Logs (s s' : Store) : Prop :=
  ∃ es, s'.audit = s.audit ++ es
    ∧ ∀ id, LogStep (s.tasks.find? id) (told es id) (s'.tasks.find? id)

section Operations

variable {s : Store} {id : String}

/-- An operation that leaves the tasks alone and tells nothing of them. -/
theorem logs_quiet {s' : Store} {es : List AuditEvent} (htasks : s'.tasks = s.tasks)
    (haudit : s'.audit = s.audit ++ es) (h : ∀ e ∈ es, e.action ∉ replayActions) : Logs s s' :=
  ⟨es, haudit, fun id => by rw [told_other h, htasks]; exact .keep _⟩

theorem createTask_logs (task : Task) (details : Dict) (now : Timestamp)
    (hfree : s.tasks.find? task.taskId = none) (hpending : task.status = .pending)
    (hnew : task.attemptCount = 0) :
    Logs s (({ s with tasks := s.tasks.upsert task } : Store).addAudit
      { eventType := "task", subjectType := "task", subjectId := task.taskId, action := "create"
        outcome := "ok", details, createdAt := now }) := by
  refine ⟨_, rfl, fun id => ?_⟩
  rw [told_single task.taskId "create" rfl rfl rfl (by decide)]
  simp only [Store.addAudit, Table.find?_upsert]
  by_cases hid : task.taskId = id
  · rw [if_pos hid, if_pos hid, ← hid, hfree]
    exact .create task _ rfl hpending hnew
  · rw [if_neg hid, if_neg hid]
    exact .keep _

theorem approval_ne_replay : "approval/dispatch" ∉ replayActions := by decide

theorem dispatch_logs (approvalId uuid : String) (clock : Nat → Timestamp) :
    Logs s (s.dispatchApprovedTaskRequest approvalId uuid clock).2 := by
  rcases s.dispatch_cases approvalId uuid clock with ⟨approval, tasks, h, heq⟩ | ⟨r, es, heq, hes⟩
  · rw [heq]
    refine ⟨_, rfl, fun id => ?_⟩
    have hdispatch : told [Store.dispatchEvent approval
        (Store.approvedTask approval uuid (clock 0)) (clock 2)] id = [] :=
      told_other (fun e he => by rw [List.mem_singleton.mp he]; exact approval_ne_replay)
    rw [← List.singleton_append, told_append, hdispatch, List.append_nil,
      told_single (Store.approvedTask approval uuid (clock 0)).taskId "create" rfl rfl rfl
        (by decide)]
    simp only [Store.dispatchedStore, Table.find?_insert h.inserted]
    by_cases hid : (Store.approvedTask approval uuid (clock 0)).taskId = id
    · have hfree := (Table.insert?_eq_some.mp h.inserted).1
      rw [if_pos hid, ← hid, hfree, if_pos rfl]
      exact .create _ _ rfl rfl rfl
    · rw [if_neg hid, if_neg hid]
      exact .keep _
  · rw [heq]
    refine logs_quiet rfl rfl (fun e he => ?_)
    rw [hes e he]
    exact approval_ne_replay

theorem claim_logs (nodeId executor : String) (leaseSeconds : Int) (now : Timestamp) :
    Logs s (s.claimNextTask nodeId executor leaseSeconds now).2 := by
  unfold Store.claimNextTask
  by_cases hnode : (s.nodes.find? nodeId).map Node.status ≠ some .managed
  · rw [if_pos hnode]
    exact logs_quiet rfl (List.append_nil _).symm nofun
  rw [if_neg hnode]
  cases hmin : (s.pendingTasks nodeId executor).argmin Task.createdAt with
  | none => exact logs_quiet rfl (List.append_nil _).symm nofun
  | some row =>
    obtain ⟨hmem, -, -, hpending⟩ := Store.mem_pendingTasks.mp (List.argmin_mem hmin)
    refine ⟨_, rfl, fun id => ?_⟩
    rw [told_single row.taskId "dispatch" rfl rfl rfl (by decide)]
    simp only [Table.find?_update]
    by_cases hid : row.taskId = id
    · have hfound : s.tasks.find? id = some row := hid ▸ Table.find?_of_mem hmem
      rw [hfound, if_pos hid, Option.map_some, if_pos (by simp [hpending])]
      exact .claim row _ now _ rfl hpending
    · rw [if_neg hid]
      cases hrow : s.tasks.find? id with
      | none => exact .keep none
      | some t =>
        have ht : t.taskId ≠ row.taskId := (Table.key_of_find? hrow).symm ▸ Ne.symm hid
        rw [Option.map_some, if_neg (by simp [ht])]
        exact .keep _

theorem complete_logs (taskId : String) (exitCode : Int) (stdout stderr : String)
    (now : Timestamp) : Logs s (s.completeTask taskId exitCode stdout stderr now).2 := by
  unfold Store.completeTask
  cases hfound : s.tasks.find? taskId with
  | none => exact logs_quiet rfl (List.append_nil _).symm nofun
  | some row =>
    simp only
    by_cases hstatus : row.status ≠ .running
    · rw [if_pos hstatus]
      exact logs_quiet rfl (List.append_nil _).symm nofun
    rw [if_neg hstatus]
    have hrunning : row.status = .running := not_not.mp hstatus
    have hkey : row.taskId = taskId := Table.key_of_find? hfound
    refine ⟨_, rfl, fun id => ?_⟩
    rw [told_single taskId "task_result" rfl rfl rfl (by decide)]
    simp only [Table.find?_update]
    by_cases hid : taskId = id
    · subst hid
      have hmatch : decide (row.taskId = taskId ∧ row.status = .running) = true := by
        simp [hkey, hrunning]
      rw [hfound, if_pos rfl, Option.map_some, if_pos hmatch]
      exact .complete row _ exitCode stdout stderr now rfl rfl hrunning
    · rw [if_neg hid]
      cases hrow : s.tasks.find? id with
      | none => exact .keep none
      | some t =>
        have ht : t.taskId ≠ taskId := (Table.key_of_find? hrow).symm ▸ Ne.symm hid
        rw [Option.map_some, if_neg (by simp [ht])]
        exact .keep _

/-- The events of the watchdog: one for every row it selected. -/
theorem expireStuckTasks_audit (olderThanSeconds : Option Int) (now : Timestamp) :
    (s.expireStuckTasks olderThanSeconds now).2.audit = s.audit ++
      ((s.tasks.rows.filter (Store.stuck (Store.cutoff olderThanSeconds now))).insertionSort
        Store.leaseOrder).map (Store.expireEvent now) := by
  have hfold : ∀ (rows : List Task) (s : Store),
      (rows.foldl (Store.expireOne now) s).audit = s.audit ++ rows.map (Store.expireEvent now) := by
    intro rows
    induction rows with
    | nil => exact fun s => (List.append_nil _).symm
    | cons row rows ih =>
      intro s
      rw [List.foldl_cons, ih, List.map_cons, ← List.singleton_append, ← List.append_assoc]
      rfl
  exact hfold _ s

/-- The rows the watchdog selected that belong to one task. -/
theorem filter_stuckRows (until_ : Timestamp) (id : String) :
    ((s.tasks.rows.filter (Store.stuck until_)).insertionSort Store.leaseOrder).filter
        (fun t => t.taskId = id)
      = ((s.tasks.find? id).filter (Store.stuck until_)).toList := by
  have hperm := (List.perm_insertionSort Store.leaseOrder
    (s.tasks.rows.filter (Store.stuck until_))).filter (fun t => decide (t.taskId = id))
  -- a key occurs once, so the order does not matter
  have hone : (s.tasks.rows.filter (Store.stuck until_)).filter (fun t => decide (t.taskId = id))
      = ((s.tasks.find? id).filter (Store.stuck until_)).toList := by
    rw [List.filter_comm, Table.filter_key]
    cases s.tasks.find? id with
    | none => rfl
    | some t => cases hstuck : Store.stuck until_ t <;> simp [hstuck, Option.filter]
  rw [hone] at hperm
  cases hrow : (s.tasks.find? id).filter (Store.stuck until_) with
  | none =>
    rw [hrow] at hperm
    exact hperm.eq_nil
  | some t =>
    rw [hrow] at hperm
    exact hperm.eq_singleton

theorem expire_logs (olderThanSeconds : Option Int) (now : Timestamp) :
    Logs s (s.expireStuckTasks olderThanSeconds now).2 := by
  refine ⟨_, expireStuckTasks_audit olderThanSeconds now, fun id => ?_⟩
  obtain ⟨es, heq, -⟩ := s.expire_spec olderThanSeconds now
  have htold : told (((s.tasks.rows.filter (Store.stuck (Store.cutoff olderThanSeconds
      now))).insertionSort Store.leaseOrder).map (Store.expireEvent now)) id
      = ((s.tasks.find? id).filter (Store.stuck (Store.cutoff olderThanSeconds now))).toList.map
          (Store.expireEvent now) := by
    rw [← filter_stuckRows]
    unfold told taskEvents
    rw [List.filter_filter, List.filter_map]
    congr 1
    refine List.filter_congr (fun t _ => ?_)
    simp only [Store.expireEvent, replayActions, terminalActions, Function.comp_apply]
    by_cases hid : t.taskId = id <;> simp [hid]
  rw [htold, heq]
  simp only [Table.find?_update]
  cases s.tasks.find? id with
  | none => exact .keep none
  | some t =>
    rw [Option.map_some]
    cases hstuck : Store.stuck (Store.cutoff olderThanSeconds now) t with
    | true =>
      simp only [Option.filter, hstuck, if_true, Option.toList_some, List.map_cons, List.map_nil]
      exact .expire t _ now rfl (Store.running_of_stuck hstuck)
    | false =>
      simp only [Option.filter, hstuck, Bool.false_eq_true, if_false, Option.toList_none,
        List.map_nil]
      exact .keep _

end Operations

/-! ## §3. Sequences of operations. -/

/-- The operations on tasks, each taken as atomic. -/
inductive TaskOperation where
  | createTask (nodeId command risk createdBy executor : String)
  | dispatchApprovedTaskRequest (approvalId : String)
  | claimNextTask (nodeId executor : String) (leaseSeconds : Int)
  | completeTask (taskId : String) (exitCode : Int) (stdout stderr : String)
  | expireStuckTasks (olderThanSeconds : Option Int)

namespace TaskOperation

/-- The caller that performs an operation. -/
def caller : TaskOperation → TaskCaller
  | createTask nodeId command risk createdBy executor =>
      .createTask nodeId command risk createdBy executor
  | dispatchApprovedTaskRequest approvalId => .dispatchApprovedTaskRequest approvalId
  | claimNextTask nodeId executor leaseSeconds => .claimNextTask nodeId executor leaseSeconds
  | completeTask taskId exitCode stdout stderr => .completeTask taskId exitCode stdout stderr
  | expireStuckTasks olderThanSeconds => .expireStuckTasks olderThanSeconds

/-- The transaction of an operation that is a single one. -/
def call? : TaskOperation → Option Call
  | createTask .. => none
  | dispatchApprovedTaskRequest approvalId => some (.dispatchApprovedTaskRequest approvalId)
  | claimNextTask nodeId executor leaseSeconds => some (.claimNextTask nodeId executor leaseSeconds)
  | completeTask taskId exitCode stdout stderr =>
      some (.completeTask taskId exitCode stdout stderr)
  | expireStuckTasks olderThanSeconds => some (.expireStuckTasks olderThanSeconds)

/-- What an operation leaves. -/
def happens (env : Env) (w : World) (operation : TaskOperation) : World :=
  (operation.caller.program.run (exec env) w).2

/-- What a sequence of operations leaves. -/
def happenAll (env : Env) (w : World) (operations : List TaskOperation) : World :=
  operations.foldl (happens env) w

end TaskOperation

/-- No task is stored and the audit log tells of none. -/
structure NoTasksYet (s : Store) : Prop where
  rows : ∀ id, s.tasks.find? id = none
  told : ∀ id, told s.audit id = []

/-- Every row agrees with its events, and every stored task was created under
an identifier drawn in this run. -/
structure AuditInv (env : Env) (first : Nat) (w : World) : Prop where
  since : first ≤ w.uuids
  issued : ∀ id, w.store.tasks.find? id ≠ none →
    ∃ k, first ≤ k ∧ k < w.uuids ∧ id = "task_" ++ env.uuid k
  agrees : ∀ id, Agrees (w.store.tasks.find? id) (told w.store.audit id)

section Sequences

variable {env : Env} {first last : Nat} {w : World}

theorem auditInv_start (h : NoTasksYet w.store) : AuditInv env w.uuids w where
  since := le_rfl
  issued id hid := absurd (h.rows id) hid
  agrees id := by
    rw [h.rows id, h.told id]
    exact ⟨rfl, rfl, rfl, rfl⟩

/-- The identifier that is drawn next is free. -/
theorem AuditInv.free (h : AuditInv env first w) (hids : DistinctIds env first last)
    (hlast : w.uuids < last) : w.store.tasks.find? ("task_" ++ env.uuid w.uuids) = none := by
  by_contra hstored
  obtain ⟨k, hk, hlt, hkey⟩ := h.issued _ hstored
  have heq := hids k (by omega) w.uuids hlast hk h.since (taskId_inj hkey.symm)
  omega

/-- The operations that are one transaction. -/
theorem single_happens {operation : TaskOperation} {op : Call}
    (h : operation.call? = some op) : operation.happens env w = (exec env op w).2 := by
  cases operation with
  | createTask nodeId command risk createdBy executor => cases h
  | dispatchApprovedTaskRequest approvalId =>
    cases h
    show (Prog.run (exec env) ((call (.dispatchApprovedTaskRequest approvalId) >>= orRaise)
      >>= fun _ => .ret ()) w).2 = _
    rw [bind_assoc, call_bind, Prog.run_call]
    cases (exec env (.dispatchApprovedTaskRequest approvalId) w).1 <;> rfl
  | claimNextTask nodeId executor leaseSeconds =>
    cases h
    rfl
  | completeTask taskId exitCode stdout stderr =>
    cases h
    rfl
  | expireStuckTasks olderThanSeconds =>
    cases h
    rfl

/-- What an operation does, read off its transactions. -/
theorem happens_logs (operation : TaskOperation)
    (hfree : w.uuids < (operation.happens env w).uuids →
      w.store.tasks.find? ("task_" ++ env.uuid w.uuids) = none) :
    Logs w.store (operation.happens env w).store := by
  cases operation with
  | createTask nodeId command risk createdBy executor =>
    exact createTask_logs (newTask (env.uuid w.uuids) nodeId command risk createdBy executor _) _ _
      (hfree (Nat.lt_succ_self _)) rfl rfl
  | dispatchApprovedTaskRequest approvalId =>
    rw [single_happens rfl]
    exact dispatch_logs _ _ _
  | claimNextTask nodeId executor leaseSeconds => exact claim_logs nodeId executor leaseSeconds _
  | completeTask taskId exitCode stdout stderr => exact complete_logs taskId exitCode stdout stderr _
  | expireStuckTasks olderThanSeconds => exact expire_logs olderThanSeconds _

/-- A new task has the identifier that its operation drew. -/
theorem happens_new (operation : TaskOperation) {id : String}
    (hfree : w.store.tasks.find? id = none)
    (hnew : (operation.happens env w).store.tasks.find? id ≠ none) :
    id = "task_" ++ env.uuid w.uuids ∧ w.uuids < (operation.happens env w).uuids := by
  cases hcall : operation.call? with
  | some op =>
    rw [single_happens hcall] at hnew ⊢
    rcases find?_new hfree hnew with ⟨t, rfl, -⟩ | ⟨hid, huuids⟩
    · cases operation <;> cases hcall
    · exact ⟨hid, by omega⟩
  | none =>
    cases operation with
    | createTask nodeId command risk createdBy executor =>
      change (w.store.tasks.upsert (newTask (env.uuid w.uuids) nodeId command risk createdBy
        executor _)).find? id ≠ none at hnew
      rw [Table.find?_upsert] at hnew
      split_ifs at hnew with hid
      · exact ⟨hid.symm, Nat.lt_succ_self _⟩
      · exact absurd hfree hnew
    | _ => cases hcall

theorem happens_uuids (operation : TaskOperation) :
    w.uuids ≤ (operation.happens env w).uuids :=
  (Prog.trace_le_run World.uuids (exec_uuids env) _ w).1

/-- **One operation keeps the agreement.** -/
theorem auditInv_happens (h : AuditInv env first w) (hids : DistinctIds env first last)
    (operation : TaskOperation) (hlast : (operation.happens env w).uuids ≤ last) :
    AuditInv env first (operation.happens env w) := by
  have hmono : w.uuids ≤ (operation.happens env w).uuids := happens_uuids operation
  obtain ⟨es, haudit, hsteps⟩ := happens_logs operation
    (fun hdraws => h.free hids (Nat.lt_of_lt_of_le hdraws hlast))
  constructor
  case since => exact h.since.trans hmono
  case issued =>
    intro id hid
    by_cases hfree : w.store.tasks.find? id = none
    · obtain ⟨hnew, hdraws⟩ := happens_new operation hfree hid
      exact ⟨w.uuids, h.since, hdraws, hnew⟩
    · obtain ⟨k, hk, hlt, hkey⟩ := h.issued id hfree
      exact ⟨k, hk, by omega, hkey⟩
  case agrees =>
    intro id
    rw [haudit, told_append]
    exact agrees_step (h.agrees id) (hsteps id)

theorem happenAll_uuids (operations : List TaskOperation) : ∀ w : World,
    w.uuids ≤ (TaskOperation.happenAll env w operations).uuids := by
  induction operations with
  | nil => exact fun w => le_rfl
  | cons operation operations ih => exact fun w => (happens_uuids operation).trans (ih _)

theorem auditInv_happenAll (hids : DistinctIds env first last) (operations : List TaskOperation) :
    ∀ w : World, AuditInv env first w →
      (TaskOperation.happenAll env w operations).uuids ≤ last →
      AuditInv env first (TaskOperation.happenAll env w operations) := by
  induction operations with
  | nil => exact fun w h _ => h
  | cons operation operations ih =>
    intro w h hlast
    refine ih _ (auditInv_happens h hids operation ?_) hlast
    exact (happenAll_uuids operations _).trans hlast

/-- The events that tell nothing may be left in. -/
theorem replayed_eq (audit : List AuditEvent) (id : String) :
    replayed audit id = (told audit id).foldl replayEvent none := by
  unfold replayed told
  generalize (none : Option String) = status
  induction taskEvents audit id generalizing status with
  | nil => rfl
  | cons e events ih =>
    rw [List.foldl_cons]
    by_cases haction : e.action ∈ replayActions
    · rw [List.filter_cons_of_pos (by simpa using haction), List.foldl_cons, ih]
    · rw [List.filter_cons_of_neg (by simpa using haction), ih]
      congr 1
      simp only [replayActions, terminalActions, List.cons_append, List.nil_append, List.mem_cons,
        List.not_mem_nil, or_false, not_or] at haction
      simp [replayEvent, haction]

theorem countEvents_eq {actions : List String} (h : ∀ action ∈ actions, action ∈ replayActions)
    (audit : List AuditEvent) (id : String) :
    countEvents actions audit id = (told audit id).countP (fun e => e.action ∈ actions) := by
  unfold countEvents told
  rw [List.countP_filter]
  refine List.countP_congr (fun e _ => ?_)
  by_cases haction : e.action ∈ actions
  · simp [haction, h e.action haction]
  · simp [haction]

/-- **The audit log replays to the task table.**  After every sequence of
operations on a database without tasks, the events of every stored task give
its status, and there are as many of each kind as its row says. -/
theorem audit_replays (env : Env) (w : World) (hstart : NoTasksYet w.store)
    (operations : List TaskOperation)
    (hids : DistinctIds env w.uuids (TaskOperation.happenAll env w operations).uuids) :
    ∀ t ∈ (TaskOperation.happenAll env w operations).store.tasks.rows,
      replayed (TaskOperation.happenAll env w operations).store.audit t.taskId = some t.status.text
      ∧ countEvents ["create"] (TaskOperation.happenAll env w operations).store.audit t.taskId = 1
      ∧ countEvents ["dispatch"] (TaskOperation.happenAll env w operations).store.audit t.taskId
        = t.attemptCount
      ∧ countEvents terminalActions (TaskOperation.happenAll env w operations).store.audit t.taskId
        = if t.status.terminal then 1 else 0 := by
  intro t ht
  have hinv := auditInv_happenAll hids operations w (auditInv_start hstart) le_rfl
  have hagrees := hinv.agrees t.taskId
  rw [Table.find?_of_mem ht] at hagrees
  refine ⟨?_, ?_, ?_, ?_⟩
  · rw [replayed_eq, hagrees.status]
    rfl
  · rw [countEvents_eq (by decide), hagrees.creates]
    rfl
  · rw [countEvents_eq (by decide), hagrees.dispatches]
    rfl
  · rw [countEvents_eq (by decide), hagrees.ends]
    rfl

end Sequences

/-- A task whose result comes after the watchdog, and one that waits. -/
def lateOperations : List TaskOperation :=
  [.createTask "node_000000000001" "uptime" "low" "hmn" "worker",
    .claimNextTask "node_000000000001" "worker" 0, .expireStuckTasks none,
    .completeTask "task_00000000000a" 0 "late" "",
    .createTask "node_000000000001" "df -h" "low" "hmn" "worker"]

/-- The late result leaves no event. -/
theorem audit_replays_late_result :
    let w := TaskOperation.happenAll Env.quiet lateWorld lateOperations
    w.store.tasks.rows.map (fun t => (t.status, t.attemptCount)) = [(.failed, 1), (.pending, 0)]
    ∧ ∀ t ∈ w.store.tasks.rows, replayed w.store.audit t.taskId = some t.status.text :=
  ⟨by decide +kernel, fun t ht => (audit_replays Env.quiet lateWorld ⟨fun _ => rfl, fun _ => rfl⟩
    lateOperations (by decide +kernel) t ht).1⟩

end Hmn
