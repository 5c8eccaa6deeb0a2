/-
  Hmn.Store.Specs — what each transaction can do, said once.

  One inversion lemma for every operation with early exits: either it did
  its work, and then every guard of the source held, or it changed nothing
  but the audit log.  All invariants are derived from these lemmas; no
  later proof unfolds an operation.

  Main results: `dispatch_cases`, `componentAction_frame`, `claim_cases`,
  `complete_cases`, `expire_spec`.
-/
import Hmn.Store.Store

namespace Hmn

open Framework

namespace Store

/-! ## §1. Dispatching an approved task. -/

/-- Everything that holds when a dispatch inserts a task. -/
structure Dispatches (s : Store) (approvalId uuid : String) (clock : Nat → Timestamp)
    (approval : ApprovalRequest) (tasks : Table Task.taskId) : Prop where
  found : s.approvals.find? approvalId = some approval
  approved : approval.status = .approved
  taskRun : approval.isTaskRun = true
  unmarked : approval.dispatched = false
  complete : missingDetails approval = []
  managed : (s.nodes.find? (approvedTask approval uuid (clock 0)).nodeId).map Node.status
    = some .managed
  unblocked : s.taskDispatchBlockReason (approvedTask approval uuid (clock 0)).nodeId = none
  inserted : s.tasks.insert? (approvedTask approval uuid (clock 0)) = some tasks

/-- The store after a dispatch that inserted a task. -/
def dispatchedStore (s : Store) (uuid : String) (clock : Nat → Timestamp)
    (approval : ApprovalRequest) (tasks : Table Task.taskId) : Store :=
  let taskId := (approvedTask approval uuid (clock 0)).taskId
  { s with
    tasks := tasks
    approvals := s.approvals.update (fun a => a.approvalId = approval.approvalId)
      (setMarker taskId) (setMarker_approvalId taskId)
    audit := s.audit ++ [taskCreateEvent (approvedTask approval uuid (clock 0)) (clock 1),
      dispatchEvent approval (approvedTask approval uuid (clock 0)) (clock 2)] }

/-- **A dispatch inserts the approved task, or it changes nothing but the
audit log.** -/
theorem dispatch_cases (s : Store) (approvalId uuid : String) (clock : Nat → Timestamp) :
    (∃ approval tasks, s.Dispatches approvalId uuid clock approval tasks
      ∧ s.dispatchApprovedTaskRequest approvalId uuid clock
          = (.ok (some (approvedTask approval uuid (clock 0))),
              s.dispatchedStore uuid clock approval tasks))
    ∨ ∃ r es, s.dispatchApprovedTaskRequest approvalId uuid clock
          = (r, { s with audit := s.audit ++ es })
        ∧ (∀ e ∈ es, e.action = "approval/dispatch") := by
  have hkeep : ∀ r : Except PyError (Option Task), (∃ r' es, (r, s) = (r', { s with audit := s.audit ++ es })
      ∧ ∀ e ∈ es, e.action = "approval/dispatch") := fun r => ⟨r, [], by simp, by simp⟩
  have hfail : ∀ (r : Except PyError (Option Task)) id details at_, (∃ r' es,
      (r, s.addAudit (dispatchFailure id details at_)) = (r', { s with audit := s.audit ++ es })
        ∧ ∀ e ∈ es, e.action = "approval/dispatch") :=
    fun r id details at_ => ⟨r, [_], rfl, by simp [dispatchFailure]⟩
  unfold dispatchApprovedTaskRequest
  cases hfound : s.approvals.find? approvalId with
  | none => exact Or.inr (hkeep _)
  | some approval =>
    simp only
    by_cases hstatus : approval.status ≠ .approved
    · rw [if_pos hstatus]
      exact Or.inr (hkeep _)
    rw [if_neg hstatus]
    by_cases hkind : ¬ approval.isTaskRun = true
    · rw [if_pos hkind]
      exact Or.inr (hkeep _)
    rw [if_neg hkind]
    by_cases hmark : approval.dispatched = true
    · rw [if_pos hmark]
      exact Or.inr (hkeep _)
    rw [if_neg hmark]
    by_cases hmissing : missingDetails approval ≠ []
    · rw [if_pos hmissing]
      exact Or.inr (hfail _ _ _ _)
    rw [if_neg hmissing]
    by_cases hnode : (s.nodes.find? (approvedTask approval uuid (clock 0)).nodeId).map
        Node.status ≠ some .managed
    · rw [if_pos hnode]
      exact Or.inr (hfail _ _ _ _)
    rw [if_neg hnode]
    cases hblock : s.taskDispatchBlockReason (approvedTask approval uuid (clock 0)).nodeId with
    | some reason => exact Or.inr (hfail _ _ _ _)
    | none =>
      cases hins : s.tasks.insert? (approvedTask approval uuid (clock 0)) with
      | none => exact Or.inr (hkeep _)
      | some tasks =>
        refine Or.inl ⟨approval, tasks, ?_, rfl⟩
        exact ⟨hfound, not_not.mp hstatus, not_not.mp hkind, by simpa using hmark,
          not_not.mp hmissing, not_not.mp hnode, hblock, hins⟩

variable {s : Store} {approvalId uuid : String} {clock : Nat → Timestamp}

/-- What every SELECT on the approvals sees after a dispatch: the row keeps
everything but its details, and the details only change by the marker of a
dispatch that inserted a task. -/
theorem find?_dispatched {approval : ApprovalRequest} {tasks : Table Task.taskId}
    (h : s.Dispatches approvalId uuid clock approval tasks) (k : String) :
    (s.dispatchedStore uuid clock approval tasks).approvals.find? k
      = if k = approvalId then
          some (setMarker (approvedTask approval uuid (clock 0)).taskId approval)
        else s.approvals.find? k := by
  have hid : approval.approvalId = approvalId := Table.key_of_find? h.found
  unfold dispatchedStore
  rw [Table.find?_update]
  by_cases hk : k = approvalId
  · subst hk
    simp [h.found]
  · rw [if_neg hk]
    cases hf : s.approvals.find? k with
    | none => rfl
    | some a =>
      have ha : a.approvalId = k := Table.key_of_find? hf
      simp [ha, hid, hk]

/-- The marker a dispatch writes is present and true. -/
theorem setMarker_dispatched (uuid : String) (a : ApprovalRequest) :
    (setMarker ("task_" ++ uuid) a).dispatched = true := by
  have hne : "task_" ++ uuid ≠ "" := by
    intro h
    have := congrArg String.toList h
    simp at this
  simp [setMarker, ApprovalRequest.dispatched, Dict.has, hne]

/-- Every row is found after a dispatch under its key, with the status, the
decider and the time of the decision it had before. -/
theorem dispatch_keeps_decision (s : Store) (approvalId uuid : String)
    (clock : Nat → Timestamp) (k : String) :
    ((s.dispatchApprovedTaskRequest approvalId uuid clock).2.approvals.find? k).map
        (fun a => (a.status, a.decidedBy, a.decidedAt))
      = (s.approvals.find? k).map (fun a => (a.status, a.decidedBy, a.decidedAt)) := by
  rcases s.dispatch_cases approvalId uuid clock with ⟨approval, tasks, h, heq⟩ | ⟨r, es, heq, -⟩
  · rw [heq, find?_dispatched h]
    by_cases hk : k = approvalId
    · subst hk
      simp [h.found, setMarker]
    · simp [hk]
  · rw [heq]

/-! ## §2. Dispatching an approved component action. -/

/-- **A component action touches the runs, the components of the nodes and
the audit log, and nothing else.** -/
theorem componentAction_frame (s : Store) (approvalId : String) (clock : Nat → Timestamp) :
    ∃ runs components es,
      (s.dispatchApprovedComponentAction approvalId clock).2
        = { s with
            componentRuns := runs
            nodeComponents := components
            audit := s.audit ++ es }
      ∧ ∀ e ∈ es, e.action = "approval/dispatch" ∨ e.eventType = "component" := by
  have hkeep : ∃ runs components es,
      s = { s with componentRuns := runs, nodeComponents := components, audit := s.audit ++ es }
      ∧ ∀ e ∈ es, e.action = "approval/dispatch" ∨ e.eventType = "component" :=
    ⟨s.componentRuns, s.nodeComponents, [], by simp, by simp⟩
  have hfail : ∀ approval reason details at_, ∃ runs components es,
      s.addAudit (componentDispatchFailure approval reason details at_)
        = { s with componentRuns := runs, nodeComponents := components, audit := s.audit ++ es }
      ∧ ∀ e ∈ es, e.action = "approval/dispatch" ∨ e.eventType = "component" :=
    fun approval reason details at_ =>
      ⟨s.componentRuns, s.nodeComponents, [_], rfl, by simp [componentDispatchFailure]⟩
  unfold dispatchApprovedComponentAction
  cases hfound : s.approvals.find? approvalId with
  | none => exact hkeep
  | some approval =>
    simp only
    by_cases hstatus : approval.status ≠ .approved
    · rw [if_pos hstatus]
      exact hkeep
    rw [if_neg hstatus]
    by_cases hkind : ¬ approval.isComponentAction = true
    · rw [if_pos hkind]
      exact hkeep
    rw [if_neg hkind]
    cases hrun : s.componentRuns.find? approval.subjectId with
    | none => exact hkeep
    | some run =>
      simp only
      by_cases hrecorded : run.status = "state_recorded"
      · rw [if_pos hrecorded]
        exact hkeep
      rw [if_neg hrecorded]
      by_cases hmismatch : componentMismatches approval run ≠ []
      · rw [if_pos hmismatch]
        exact hfail _ _ _ _
      rw [if_neg hmismatch]
      by_cases hpending : run.status ≠ "pending_approval"
      · rw [if_pos hpending]
        exact hfail _ _ _ _
      rw [if_neg hpending]
      by_cases haction : componentAction approval run ∉ ["apply", "uninstall"]
      · rw [if_pos haction]
        exact hfail _ _ _ _
      rw [if_neg haction]
      exact ⟨_, _, [_], rfl, by simp⟩

/-! ## §3. Claiming. -/

/-- The oldest pending task of a managed node. -/
structure Claims (s : Store) (nodeId executor : String) (row : Task) : Prop where
  managed : (s.nodes.find? nodeId).map Node.status = some .managed
  pending : row ∈ s.pendingTasks nodeId executor
  oldest : ∀ t ∈ s.pendingTasks nodeId executor, row.createdAt ≤ t.createdAt

theorem mem_pendingTasks {s : Store} {nodeId executor : String} {t : Task} :
    t ∈ s.pendingTasks nodeId executor ↔
      t ∈ s.tasks.rows ∧ t.nodeId = nodeId ∧ t.executor = executor ∧ t.status = .pending := by
  simp [pendingTasks]

/-- **A claim takes the oldest pending task of a managed node, or there is
none and nothing changes.** -/
theorem claim_cases (s : Store) (nodeId executor : String) (leaseSeconds : Int)
    (now : Timestamp) :
    (∃ row, s.Claims nodeId executor row
      ∧ (s.claimNextTask nodeId executor leaseSeconds now).1
          = some (claim now (now + seconds leaseSeconds) row)
      ∧ ∃ es, (s.claimNextTask nodeId executor leaseSeconds now).2
          = { s with
              tasks := s.tasks.update (fun t => t.taskId = row.taskId ∧ t.status = .pending)
                (claim now (now + seconds leaseSeconds)) (claim_taskId _ _)
              audit := s.audit ++ es }
          ∧ ∀ e ∈ es, e.eventType = "task")
    ∨ (((s.nodes.find? nodeId).map Node.status ≠ some .managed
          ∨ s.pendingTasks nodeId executor = [])
        ∧ s.claimNextTask nodeId executor leaseSeconds now = (none, s)) := by
  unfold claimNextTask
  by_cases hnode : (s.nodes.find? nodeId).map Node.status ≠ some .managed
  · rw [if_pos hnode]
    exact Or.inr ⟨Or.inl hnode, rfl⟩
  rw [if_neg hnode]
  cases hmin : (s.pendingTasks nodeId executor).argmin Task.createdAt with
  | none => exact Or.inr ⟨Or.inr (List.argmin_eq_none.mp hmin), rfl⟩
  | some row =>
    have hrow : row ∈ s.pendingTasks nodeId executor := List.argmin_mem hmin
    obtain ⟨hmem, -, -, hpending⟩ := mem_pendingTasks.mp hrow
    refine Or.inl ⟨row, ⟨not_not.mp hnode, hrow, fun t ht => List.le_of_mem_argmin ht hmin⟩, ?_,
      [_], rfl, by simp⟩
    simp only [Table.find?_update, Table.find?_of_mem hmem, Option.map_some, hpending, and_self,
      decide_true, if_true]

/-! ## §4. Completing. -/

/-- **A result completes a running task, or the task is not running and
nothing changes.** -/
theorem complete_cases (s : Store) (taskId : String) (exitCode : Int) (stdout stderr : String)
    (now : Timestamp) :
    (∃ row, s.tasks.find? taskId = some row ∧ row.status = .running
      ∧ (s.completeTask taskId exitCode stdout stderr now).1
          = some (complete exitCode stdout stderr now row)
      ∧ ∃ es, (s.completeTask taskId exitCode stdout stderr now).2
          = { s with
              tasks := s.tasks.update (fun t => t.taskId = taskId ∧ t.status = .running)
                (complete exitCode stdout stderr now) (complete_taskId _ _ _ _)
              audit := s.audit ++ es }
          ∧ ∀ e ∈ es, e.eventType = "task")
    ∨ ((∀ row, s.tasks.find? taskId = some row → row.status ≠ .running)
        ∧ s.completeTask taskId exitCode stdout stderr now = (none, s)) := by
  unfold completeTask
  cases hfound : s.tasks.find? taskId with
  | none => exact Or.inr ⟨by simp, rfl⟩
  | some row =>
    simp only
    by_cases hstatus : row.status ≠ .running
    · rw [if_pos hstatus]
      exact Or.inr ⟨by simpa using hstatus, rfl⟩
    rw [if_neg hstatus]
    have hrun : row.status = .running := not_not.mp hstatus
    have hid : row.taskId = taskId := Table.key_of_find? hfound
    refine Or.inl ⟨row, rfl, hrun, ?_, [_], rfl, by simp⟩
    simp only [Table.find?_update, hfound, Option.map_some, hid, hrun, and_self,
      decide_true, if_true]

/-! ## §5. Expiring. -/

/-- The loop of the watchdog is one UPDATE. -/
theorem foldl_expireOne (now : Timestamp) (rows : List Task) : ∀ s : Store, ∃ es,
    rows.foldl (expireOne now) s
      = { s with
          tasks := s.tasks.update
            (fun t => decide (t.taskId ∈ rows.map Task.taskId) && decide (t.status = .running))
            (expire now) (expire_taskId now)
          audit := s.audit ++ es }
      ∧ ∀ e ∈ es, e.eventType = "task" := by
  induction rows with
  | nil =>
    intro s
    refine ⟨[], ?_, by simp⟩
    simp [Table.update_false]
  | cons row rows ih =>
    intro s
    obtain ⟨es, hes, htask⟩ := ih (expireOne now s row)
    refine ⟨expireEvent now row :: es, ?_, by simpa [expireEvent] using htask⟩
    rw [List.foldl_cons, hes]
    simp only [expireOne, List.append_assoc, List.singleton_append]
    congr 1
    rw [Table.update_update _ _ _ _ _ (fun r => by simp [expire])]
    apply Table.update_congr
    intro t _
    by_cases ht : t.taskId = row.taskId <;> simp [ht]

/-- The moment up to which a lease is over. -/
def cutoff (olderThanSeconds : Option Int) (now : Timestamp) : Timestamp :=
  match olderThanSeconds with
  | some n => now - seconds n
  | none => now

/-- The rows the watchdog selects are the stuck ones. -/
theorem mem_stuckRows {s : Store} {until_ : Timestamp} {t : Task} (ht : t ∈ s.tasks.rows) :
    t.taskId ∈ ((s.tasks.rows.filter (stuck until_)).insertionSort leaseOrder).map Task.taskId
      ↔ stuck until_ t = true := by
  rw [List.mem_map]
  constructor
  · rintro ⟨x, hx, hid⟩
    obtain ⟨hrow, hstuck⟩ := List.mem_filter.mp ((List.mem_insertionSort leaseOrder).mp hx)
    rwa [← s.tasks.eq_of_key_eq hrow ht hid]
  · intro hstuck
    exact ⟨t, (List.mem_insertionSort leaseOrder).mpr (List.mem_filter.mpr ⟨ht, hstuck⟩), rfl⟩

/-- The answer of the watchdog names the stuck tasks. -/
theorem mem_expired {s : Store} {olderThanSeconds : Option Int} {now : Timestamp} {t : Task}
    (ht : t ∈ s.tasks.rows) : t.taskId ∈ (s.expireStuckTasks olderThanSeconds now).1 ↔
      stuck (cutoff olderThanSeconds now) t = true := mem_stuckRows ht

theorem running_of_stuck {until_ : Timestamp} {t : Task} (h : stuck until_ t = true) :
    t.status = .running := by
  simp only [stuck, Bool.and_eq_true, decide_eq_true_eq] at h
  exact h.1.1

/-- **The watchdog fails exactly the stuck tasks.** -/
theorem expire_spec (s : Store) (olderThanSeconds : Option Int) (now : Timestamp) :
    ∃ es, (s.expireStuckTasks olderThanSeconds now).2
      = { s with
          tasks := s.tasks.update (stuck (cutoff olderThanSeconds now)) (expire now)
            (expire_taskId now)
          audit := s.audit ++ es }
      ∧ ∀ e ∈ es, e.eventType = "task" := by
  obtain ⟨es, hes, htask⟩ := foldl_expireOne now
    ((s.tasks.rows.filter (stuck (cutoff olderThanSeconds now))).insertionSort leaseOrder) s
  refine ⟨es, hes.trans ?_, htask⟩
  congr 1
  apply Table.update_congr
  intro t ht
  cases hs : stuck (cutoff olderThanSeconds now) t with
  | true => simp [mem_stuckRows ht, hs, running_of_stuck hs]
  | false => simp [mem_stuckRows ht, hs]

end Store

end Hmn
