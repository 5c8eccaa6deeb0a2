/-
  Hmn.Tasks.Provenance — where the risky tasks come from.

  `hmn task run`, the console, the deciders and the dispatch each write a
  different table; a risky task is tied to its approval only by the marker
  in the approval's details.  The invariant relates the tables: every marker
  is the task of one approved request, and every risky task has one.

  Main results: `provenance_step` — one call keeps the invariant;
  `high_risk_provenance` — after every sequence of operations every risky
  task is the dispatched task of exactly one approved request, was inserted
  for a managed node that takes tasks, and a dispatch without an insertion
  only writes the audit log.
-/
import Hmn.Nodes.Endpoints
import Hmn.Tasks.Lifecycle
import Hmn.Tasks.Submit

namespace Hmn

open Framework Py

/-! ## §1. Operations, one after the other. -/

/-- The operations. -/
inductive Operation where
  | createTaskCommand (options : TaskRunOptions)
  | createConsoleTask (request : ConsoleTaskCreateRequest)
  | resolveApprovalRequest (approvalId : String) (status : Decision) (decidedBy : String)
  | dispatchApprovedTaskRequest (approvalId : String)
  | confirmNode (nodeId : Option String) (choice : Int) (bundle : List String)
  | revokeNode (nodeId : String)
  | heartbeat (nodeId : String) (request : HeartbeatRequest)

/-- What an operation runs; its answer is left out. -/
def Operation.program : Operation → Py Unit
  | .createTaskCommand options => Hmn.createTaskCommand options
  | .createConsoleTask request => do let _ ← Hmn.createConsoleTask request
  | .resolveApprovalRequest approvalId status decidedBy => do
      let _ ← Hmn.resolveApprovalRequest approvalId status decidedBy
  | .dispatchApprovedTaskRequest approvalId => do
      let _ ← Hmn.dispatchApprovedTaskRequest approvalId
  | .confirmNode nodeId choice bundle => Hmn.confirmNode nodeId choice bundle
  | .revokeNode nodeId => Hmn.revokeNode nodeId
  | .heartbeat nodeId request => do let _ ← Hmn.heartbeat nodeId request

/-- Operations one after the other; an exception ends its own operation. -/
def session : List Operation → Py Unit
  | [] => return ()
  | operation :: rest => do
      tryCatch operation.program (fun _ => return ())
      session rest

/-! ## §2. Risky tasks and their approvals. -/

/-- A task that takes an approval. -/
def Risky (t : Task) : Prop := t.risk = "high" ∨ t.risk = "critical"

/-- The approved request a task was dispatched for. -/
structure Authorizes (a : ApprovalRequest) (t : Task) : Prop where
  approved : a.status = .approved
  taskRun : a.isTaskRun = true
  marker : a.marker = some (.str t.taskId)
  nodeId : t.nodeId = a.details.getStr "node_id" ""
  command : t.command = a.details.getStr "command" ""
  executor : t.executor = a.details.getStr "executor" "worker"
  risk : t.risk = a.risk

/-- Two rows of one task that ask for the same work. -/
structure SameWork (t u : Task) : Prop where
  taskId : u.taskId = t.taskId
  nodeId : u.nodeId = t.nodeId
  command : u.command = t.command
  executor : u.executor = t.executor
  risk : u.risk = t.risk

theorem SameWork.risky {t u : Task} (h : SameWork t u) (hu : Risky u) : Risky t := by
  unfold Risky at hu
  rwa [h.risk] at hu

theorem Authorizes.sameWork {a : ApprovalRequest} {t u : Task} (ha : Authorizes a t)
    (h : SameWork t u) : Authorizes a u where
  approved := ha.approved
  taskRun := ha.taskRun
  marker := h.taskId ▸ ha.marker
  nodeId := h.nodeId.trans ha.nodeId
  command := h.command.trans ha.command
  executor := h.executor.trans ha.executor
  risk := h.risk.trans ha.risk

/-- The transactions on stored tasks keep the work. -/
theorem exec_sameWork {env : Env} {w : World} {op : Call} (hsave : ∀ t, op ≠ .saveTask t)
    (hdispatch : ∀ id, op ≠ .dispatchApprovedTaskRequest id) {u : Task}
    (hu : u ∈ (exec env op w).2.store.tasks.rows) :
    ∃ t ∈ w.store.tasks.rows, SameWork t u := by
  have hsame : ∀ t, SameWork t t := fun t => ⟨rfl, rfl, rfl, rfl, rfl⟩
  have hupdate : ∀ (p : Task → Bool) (f : Task → Task) (hf),
      (∀ t, SameWork t (f t)) → u ∈ (w.store.tasks.update p f hf).rows →
        ∃ t ∈ w.store.tasks.rows, SameWork t u := by
    intro p f hf hwork hmem
    obtain ⟨t, ht, rfl⟩ := Table.mem_update.mp hmem
    refine ⟨t, ht, ?_⟩
    split_ifs
    · exact hwork t
    · exact hsame t
  cases hw : op.writesTasks with
  | false =>
    rw [exec_tasks hw] at hu
    exact ⟨u, hu, hsame u⟩
  | true =>
    cases op with
    | saveTask t => exact absurd rfl (hsave t)
    | dispatchApprovedTaskRequest id => exact absurd rfl (hdispatch id)
    | claimNextTask nodeId executor lease =>
      simp only [exec, World.after_store] at hu
      rcases w.store.claim_cases nodeId executor lease (w.reading env 0) with
        ⟨row, -, -, es, heq, -⟩ | ⟨-, heq⟩
      · rw [heq] at hu
        exact hupdate _ (Store.claim _ _) (Store.claim_taskId _ _)
          (fun t => ⟨rfl, rfl, rfl, rfl, rfl⟩) hu
      · rw [heq] at hu
        exact ⟨u, hu, hsame u⟩
    | completeTask taskId exitCode stdout stderr =>
      simp only [exec, World.after_store] at hu
      rcases w.store.complete_cases taskId exitCode stdout stderr (w.reading env 0) with
        ⟨row, -, -, -, es, heq, -⟩ | ⟨-, heq⟩
      · rw [heq] at hu
        exact hupdate _ (Store.complete _ _ _ _) (Store.complete_taskId _ _ _ _)
          (fun t => ⟨rfl, rfl, rfl, rfl, rfl⟩) hu
      · rw [heq] at hu
        exact ⟨u, hu, hsame u⟩
    | expireStuckTasks olderThan =>
      obtain ⟨es, heq, -⟩ := w.store.expire_spec olderThan (w.reading env 0)
      simp only [exec, World.after_store, heq] at hu
      exact hupdate _ (Store.expire _) (Store.expire_taskId _)
        (fun t => ⟨rfl, rfl, rfl, rfl, rfl⟩) hu
    | _ => simp [Call.writesTasks] at hw

/-! ## §3. What the operations save. -/

/-- What the operation that is running holds: nothing, an identifier it drew,
or an approval row it loaded. -/
inductive ApprovalDraft where
  | idle
  | drawn (uuid : String)
  | loaded (row : ApprovalRequest)

/-- A saved approval row is a new unmarked one or the decision on a pending
one that was just loaded; a saved task is not risky. -/
def mayDraft (draft : ApprovalDraft) : Call → Prop
  | .saveApprovalRequest a =>
      match draft with
      | .idle => False
      | .drawn uuid => a.approvalId = "appr_" ++ uuid ∧ a.status = .pending ∧ a.marker = none
      | .loaded row => row.status = .pending
          ∧ ∃ status decidedBy now, a = withDecision row status decidedBy now
  | .saveTask t => ¬ Risky t
  | _ => True

/-- What is held after a call. -/
def nextDraft (draft : ApprovalDraft) : (op : Call) → Call.Res op → ApprovalDraft
  | .uuid4, uuid => .drawn uuid
  | .loadApprovalRequest _, row => row.elim .idle .loaded
  | .saveApprovalRequest _, _ => .idle
  | .dispatchApprovedTaskRequest _, _ => .idle
  | _, _ => draft

/-- The discipline of the operations. -/
abbrev draftTypestate : Typestate callSig where
  Mode := ApprovalDraft
  may := mayDraft
  after := nextDraft
  sees _ _ := True

/-- An operation that keeps the discipline, whatever was held before. -/
def KeepsApprovals {α : Type} (p : Py α) : Prop :=
  ∀ draft, p.wp draftTypestate (fun _ _ => True) (fun _ _ => True) draft

section Keeps

variable {α β : Type}

theorem keepsApprovals_ret (a : α) : KeepsApprovals (.ret a : Py α) :=
  fun _ => Prog.wp_ret.mpr trivial

theorem keepsApprovals_raise (e : PyError) : KeepsApprovals (.raise e : Py α) :=
  fun _ => Prog.wp_raise.mpr trivial

theorem keepsApprovals_bind {p : Py α} {f : α → Py β} (hp : KeepsApprovals p)
    (hf : ∀ a, KeepsApprovals (f a)) : KeepsApprovals (p >>= f) :=
  fun draft => Prog.wp_bind _ _ _
    (Prog.wp_mono (fun m a _ => hf a m) (fun _ _ _ => trivial) _ _ (hp draft))

theorem keepsApprovals_tryCatch {p : Py α} {handler : PyError → Py α} (hp : KeepsApprovals p)
    (hh : ∀ e, KeepsApprovals (handler e)) : KeepsApprovals (p.tryCatch handler) :=
  fun draft => Prog.wp_tryCatch _ _ _
    (Prog.wp_mono (fun _ _ _ => trivial) (fun m e _ => hh e m) _ _ (hp draft))

theorem keepsApprovals_orRaise (r : Except PyError α) : KeepsApprovals (orRaise r) := by
  cases r with
  | ok a => exact keepsApprovals_ret a
  | error e => exact keepsApprovals_raise e

theorem keepsApprovals_when {c : Bool} {p : Py Unit} (hp : KeepsApprovals p) :
    KeepsApprovals (Prog.when c p) := by
  cases c with
  | false => exact keepsApprovals_ret ()
  | true => exact hp

/-- An operation that makes a call the discipline always allows. -/
theorem keepsApprovals_call {op : Call} {f : Call.Res op → Py α}
    (hop : ∀ draft, mayDraft draft op) (hf : ∀ r, KeepsApprovals (f r)) :
    KeepsApprovals (call op >>= f) := by
  intro draft
  rw [call_bind, Prog.wp_call]
  exact ⟨hop draft, fun r _ => hf r _⟩

/-- A request under a fresh identifier. -/
theorem createApprovalRequest_keeps {subjectType subjectId action risk requestedBy : String}
    {details : Dict} (hdetails : details.get? "dispatched_task_id" = none) :
    KeepsApprovals
      (createApprovalRequest subjectType subjectId action risk requestedBy details) := by
  intro draft
  unfold createApprovalRequest
  rw [call_bind, Prog.wp_call]
  refine ⟨trivial, fun uuid _ => ?_⟩
  rw [call_bind, Prog.wp_call]
  refine ⟨trivial, fun createdAt _ => ?_⟩
  rw [call_bind, Prog.wp_call]
  refine ⟨⟨rfl, rfl, hdetails⟩, fun _ _ => ?_⟩
  rw [call_bind, Prog.wp_call]
  exact ⟨trivial, fun _ _ => Prog.wp_ret.mpr trivial⟩

theorem enqueueNotification_keeps (channel subjectType subjectId : String) (payload : Dict) :
    KeepsApprovals (enqueueNotification channel subjectType subjectId payload) := by
  unfold enqueueNotification
  refine keepsApprovals_call (fun _ => trivial) (fun uuid => ?_)
  refine keepsApprovals_call (fun _ => trivial) (fun createdAt => ?_)
  refine keepsApprovals_call (fun _ => trivial) (fun r => ?_)
  exact keepsApprovals_bind (keepsApprovals_orRaise r) (fun _ => keepsApprovals_ret _)

theorem createTask_keeps {nodeId command risk createdBy executor : String}
    (hrisk : risk ≠ "high" ∧ risk ≠ "critical") :
    KeepsApprovals (createTask nodeId command risk createdBy executor) := by
  unfold createTask
  refine keepsApprovals_call (fun _ => trivial) (fun uuid => ?_)
  refine keepsApprovals_call (fun _ => trivial) (fun createdAt => ?_)
  refine keepsApprovals_call (fun _ h => h.elim hrisk.1 hrisk.2) (fun _ => ?_)
  exact keepsApprovals_call (fun _ => trivial) (fun _ => keepsApprovals_ret _)

theorem reportSshTask_keeps (task : Task) (target : SSHTarget) (durationMs : Nat)
    (returncode : Int) (stdout stderr : String) :
    KeepsApprovals (reportSshTask task target durationMs returncode stdout stderr) := by
  unfold reportSshTask intOrRaise
  cases Text.parseInt target.port with
  | none => exact keepsApprovals_raise _
  | some port =>
    refine keepsApprovals_call (fun _ => trivial) (fun _ => ?_)
    refine keepsApprovals_call (fun _ => trivial) (fun r => ?_)
    cases r with
    | none => exact keepsApprovals_raise _
    | some finished =>
      simp only
      split_ifs
      · exact keepsApprovals_raise _
      · exact keepsApprovals_ret _

/-- A task that ssh may run is not risky. -/
theorem runSshTask_keeps (taskId : String) : KeepsApprovals (runSshTask taskId []) := by
  unfold runSshTask
  refine keepsApprovals_call (fun _ => trivial) (fun r => ?_)
  cases r with
  | none => exact keepsApprovals_raise _
  | some task =>
    simp only
    by_cases hexecutor : task.executor ≠ "ssh"
    · rw [if_pos hexecutor]
      exact keepsApprovals_raise _
    rw [if_neg hexecutor]
    simp only [if_true]
    by_cases hrisk : task.risk ∉ safeRisks
    · rw [if_pos hrisk]
      exact keepsApprovals_raise _
    rw [if_neg hrisk]
    refine keepsApprovals_call (fun _ => trivial) (fun r => ?_)
    cases r with
    | none => exact keepsApprovals_raise _
    | some node =>
      simp only
      by_cases hmanaged : node.status ≠ .managed
      · rw [if_pos hmanaged]
        exact keepsApprovals_raise _
      rw [if_neg hmanaged]
      cases sshTargetDetailsForNode node with
      | none => exact keepsApprovals_raise _
      | some target =>
        have hsafe : ∀ now, ¬ Risky (markRunning task now) := by
          intro now hrisky
          have hmem : task.risk ∈ safeRisks := not_not.mp hrisk
          rcases hrisky with h | h <;> simp [markRunning] at h <;> simp [h, safeRisks] at hmem
        refine keepsApprovals_call (fun _ => trivial) (fun now => ?_)
        refine keepsApprovals_call (fun _ => hsafe now) (fun _ => ?_)
        refine keepsApprovals_call (fun _ => trivial) (fun r => ?_)
        obtain ⟨outcome, durationMs⟩ := r
        cases outcome with
        | completed returncode stdout stderr => exact reportSshTask_keeps _ _ _ _ _ _
        | timedOut => exact keepsApprovals_raise _
        | raised exception => exact keepsApprovals_raise _

theorem selectManagedNode_keeps (nodeId : Option String) (choice : Int) :
    KeepsApprovals (selectManagedNode nodeId choice) := by
  unfold selectManagedNode
  cases nodeId with
  | some nodeId =>
    refine keepsApprovals_call (fun _ => trivial) (fun r => ?_)
    cases r with
    | none => exact keepsApprovals_raise _
    | some node => exact keepsApprovals_ret _
  | none =>
    refine keepsApprovals_call (fun _ => trivial) (fun nodes => ?_)
    cases selectFrom (nodes.filter (·.status = .managed)) choice with
    | none => exact keepsApprovals_raise _
    | some node => exact keepsApprovals_ret _

theorem createTaskCommand_keeps (options : TaskRunOptions) :
    KeepsApprovals (createTaskCommand options) := by
  unfold createTaskCommand
  refine keepsApprovals_bind (selectManagedNode_keeps _ _) (fun node => ?_)
  by_cases hexecutor : options.executor ∉ ["worker", "ssh"]
  · rw [if_pos hexecutor]
    exact keepsApprovals_raise _
  rw [if_neg hexecutor]
  by_cases hwait : options.wait = true ∧ options.executor ≠ "ssh"
  · rw [if_pos hwait]
    exact keepsApprovals_raise _
  rw [if_neg hwait]
  by_cases hrisk : options.risk ∈ ["high", "critical"]
  · rw [if_pos hrisk]
    refine keepsApprovals_bind (createApprovalRequest_keeps ?_) (fun approval => ?_)
    · simp [cliTaskDetails, Dict.get?_cons]
    · exact keepsApprovals_bind (enqueueNotification_keeps _ _ _ _)
        (fun _ => keepsApprovals_raise _)
  rw [if_neg hrisk]
  by_cases hlow : options.risk ∉ ["low", "medium"]
  · rw [if_pos hlow]
    exact keepsApprovals_raise _
  rw [if_neg hlow]
  have hrisk' : options.risk ≠ "high" ∧ options.risk ≠ "critical" := by simpa using hrisk
  refine keepsApprovals_bind (createTask_keeps hrisk') (fun task => keepsApprovals_when ?_)
  refine keepsApprovals_bind (keepsApprovals_tryCatch (runSshTask_keeps _) (fun e => ?_))
    (fun _ => keepsApprovals_ret _)
  cases e with
  | _ => exact keepsApprovals_raise _

theorem createConsoleTask_keeps (request : ConsoleTaskCreateRequest) :
    KeepsApprovals (createConsoleTask request) := by
  have hsubmit : KeepsApprovals (submitConsoleTask request) := by
    unfold submitConsoleTask
    simp only
    split_ifs with hlow
    · refine keepsApprovals_bind (createTask_keeps ?_) (fun _ => keepsApprovals_ret _)
      rw [hlow]
      decide
    · refine keepsApprovals_bind (createApprovalRequest_keeps ?_) (fun _ => keepsApprovals_ret _)
      simp [consoleTaskDetails, Dict.get?_cons]
  have hreason : KeepsApprovals (taskDispatchBlockReason request.nodeId) := by
    unfold taskDispatchBlockReason
    refine keepsApprovals_call (fun _ => trivial) (fun r => ?_)
    cases r with
    | none => exact keepsApprovals_ret _
    | some node =>
      simp only
      split_ifs
      · exact keepsApprovals_ret _
      · exact keepsApprovals_call (fun _ => trivial) (fun _ => keepsApprovals_ret _)
  unfold createConsoleTask
  refine keepsApprovals_call (fun _ => trivial) (fun r => ?_)
  cases r with
  | none => exact keepsApprovals_raise _
  | some node =>
    simp only
    split_ifs
    · exact keepsApprovals_raise _
    refine keepsApprovals_bind hreason (fun reason => ?_)
    cases reason with
    | some text => exact keepsApprovals_raise _
    | none => exact hsubmit

theorem dispatchApprovedTaskRequest_keeps (approvalId : String) :
    KeepsApprovals (dispatchApprovedTaskRequest approvalId) :=
  keepsApprovals_call (fun _ => trivial) keepsApprovals_orRaise

/-- A decision is saved on a row that was pending when it was loaded. -/
theorem resolveApprovalRequest_keeps (approvalId : String) (status : Decision)
    (decidedBy : String) :
    KeepsApprovals (resolveApprovalRequest approvalId status decidedBy) := by
  intro draft
  unfold resolveApprovalRequest
  rw [call_bind, Prog.wp_call]
  refine ⟨trivial, fun r _ => ?_⟩
  cases r with
  | none => exact keepsApprovals_ret _ _
  | some approval =>
    simp only
    by_cases hpending : approval.status ≠ .pending
    · rw [if_pos hpending]
      exact keepsApprovals_ret _ _
    rw [if_neg hpending]
    rw [call_bind, Prog.wp_call]
    refine ⟨trivial, fun now _ => ?_⟩
    rw [call_bind, Prog.wp_call]
    refine ⟨⟨not_not.mp hpending, status, decidedBy, now, rfl⟩, fun _ _ => ?_⟩
    refine keepsApprovals_call ?_ (fun _ => keepsApprovals_bind ?_ fun _ => ?_) _
    · exact fun _ => trivial
    swap
    · exact keepsApprovals_ret _
    unfold dispatchResolved
    refine keepsApprovals_bind (keepsApprovals_when ?_) (fun _ => keepsApprovals_when ?_)
    · exact keepsApprovals_bind (dispatchApprovedTaskRequest_keeps _)
        (fun _ => keepsApprovals_ret _)
    · exact keepsApprovals_call (fun _ => trivial) (fun _ => keepsApprovals_ret _)

theorem confirmNodeById_keeps (nodeId : String) (bundle : List String) :
    KeepsApprovals (confirmNodeById nodeId bundle) := by
  unfold confirmNodeById
  refine keepsApprovals_call (fun _ => trivial) (fun r => ?_)
  cases r with
  | none => exact keepsApprovals_raise _
  | some node =>
    simp only
    cases confirmed bundle node with
    | none => exact keepsApprovals_raise _
    | some updated =>
      refine keepsApprovals_call (fun _ => trivial) (fun _ => ?_)
      exact keepsApprovals_call (fun _ => trivial) (fun _ => keepsApprovals_ret _)

theorem heartbeat_keeps (nodeId : String) (request : HeartbeatRequest) :
    KeepsApprovals (heartbeat nodeId request) := by
  unfold heartbeat requireManaged
  refine keepsApprovals_bind (keepsApprovals_call (fun _ => trivial) (fun r => ?_))
    (fun node => keepsApprovals_bind (keepsApprovals_orRaise _) (fun compatible => ?_))
  · cases r with
    | none => exact keepsApprovals_raise _
    | some node =>
      simp only
      split_ifs
      · exact keepsApprovals_raise _
      · exact keepsApprovals_raise _
      · exact keepsApprovals_raise _
      · exact keepsApprovals_ret _
  · exact keepsApprovals_call (fun _ => trivial) (fun _ => keepsApprovals_ret _)

/-- **Every operation keeps the discipline.** -/
theorem operation_keeps (operation : Operation) : KeepsApprovals operation.program := by
  cases operation with
  | createTaskCommand options => exact createTaskCommand_keeps options
  | createConsoleTask request =>
    exact keepsApprovals_bind (createConsoleTask_keeps request) (fun _ => keepsApprovals_ret _)
  | resolveApprovalRequest approvalId status decidedBy =>
    exact keepsApprovals_bind (resolveApprovalRequest_keeps approvalId status decidedBy)
      (fun _ => keepsApprovals_ret _)
  | dispatchApprovedTaskRequest approvalId =>
    exact keepsApprovals_bind (dispatchApprovedTaskRequest_keeps approvalId)
      (fun _ => keepsApprovals_ret _)
  | confirmNode nodeId choice bundle =>
    cases nodeId with
    | some nodeId => exact confirmNodeById_keeps nodeId bundle
    | none =>
      refine keepsApprovals_bind (p := selectPendingNode choice) ?_
        (fun nodeId => confirmNodeById_keeps nodeId bundle)
      unfold selectPendingNode
      refine keepsApprovals_call (fun _ => trivial) (fun nodes => ?_)
      cases selectFrom (nodes.filter (·.status = .pending)) choice with
      | none => exact keepsApprovals_raise _
      | some node => exact keepsApprovals_ret _
  | revokeNode nodeId =>
    refine keepsApprovals_call (fun _ => trivial) (fun r => ?_)
    cases r with
    | none => exact keepsApprovals_raise _
    | some node =>
      refine keepsApprovals_call (fun _ => trivial) (fun _ => ?_)
      exact keepsApprovals_call (fun _ => trivial) (fun _ => keepsApprovals_ret _)
  | heartbeat nodeId request =>
    exact keepsApprovals_bind (heartbeat_keeps nodeId request) (fun _ => keepsApprovals_ret _)

theorem session_keeps (operations : List Operation) : KeepsApprovals (session operations) := by
  induction operations with
  | nil => exact keepsApprovals_ret _
  | cons operation rest ih =>
    exact keepsApprovals_bind
      (keepsApprovals_tryCatch (operation_keeps operation) (fun _ => keepsApprovals_ret _))
      (fun _ => ih)

end Keeps

/-! ## §4. One call. -/

section Step

variable {env : Env} {first last : Nat} {w : World} {draft : ApprovalDraft} {op : Call}

/-- What is held is still so: a drawn identifier is not used yet, a loaded
row is the stored one. -/
def ApprovalDraft.Holds (env : Env) (first : Nat) (w : World) : ApprovalDraft → Prop
  | .idle => True
  | .drawn uuid => (∃ k, first ≤ k ∧ k < w.uuids ∧ uuid = env.uuid k)
      ∧ w.store.approvals.find? ("appr_" ++ uuid) = none
  | .loaded row => w.store.approvals.find? row.approvalId = some row

theorem ApprovalDraft.Holds.mono {v : World} (h : draft.Holds env first w)
    (huuids : w.uuids ≤ v.uuids) (hsame : v.store.approvals = w.store.approvals) :
    draft.Holds env first v := by
  cases draft with
  | idle => trivial
  | drawn uuid =>
    obtain ⟨⟨k, hk, hlt, heq⟩, hfree⟩ := h
    exact ⟨⟨k, hk, hlt.trans_le huuids, heq⟩, hsame ▸ hfree⟩
  | loaded row =>
    unfold Holds
    rw [hsame]
    exact h

/-- Every stored approval was drawn in this run; a marker is the task of one
approved request; every risky task has such a request; and what is held is
still so. -/
structure Provenance (env : Env) (first : Nat) (w : World) (draft : ApprovalDraft) : Prop where
  since : first ≤ w.uuids
  issued : ∀ id, w.store.approvals.find? id ≠ none →
    ∃ k, first ≤ k ∧ k < w.uuids ∧ id = "appr_" ++ env.uuid k
  marked : ∀ a ∈ w.store.approvals.rows, a.marker = none ∨ (a.status = .approved
    ∧ ∃ k, first ≤ k ∧ k < w.uuids ∧ a.marker = some (.str ("task_" ++ env.uuid k)))
  single : ∀ a ∈ w.store.approvals.rows, ∀ b ∈ w.store.approvals.rows,
    a.marker ≠ none → a.marker = b.marker → a = b
  origin : ∀ t ∈ w.store.tasks.rows, Risky t → ∃ a ∈ w.store.approvals.rows, Authorizes a t
  holds : draft.Holds env first w

theorem approvalId_inj {u v : String} (h : "appr_" ++ u = "appr_" ++ v) : u = v := by
  have hlist := congrArg String.toList h
  rw [String.toList_append, String.toList_append, List.append_cancel_left_eq] at hlist
  exact String.toList_inj.mp hlist

theorem taskMarker_inj {u v : String}
    (h : some (Json.str ("task_" ++ u)) = some (Json.str ("task_" ++ v))) : u = v := by
  have htext := Json.str.inj (Option.some.inj h)
  have hlist := congrArg String.toList htext
  rw [String.toList_append, String.toList_append, List.append_cancel_left_eq] at hlist
  exact String.toList_inj.mp hlist

/-- Saving an unmarked row over an unmarked one. -/
theorem provenance_save (h : Provenance env first w draft) {a : ApprovalRequest}
    (hid : ∃ k, first ≤ k ∧ k < w.uuids ∧ a.approvalId = "appr_" ++ env.uuid k)
    (hunmarked : a.marker = none)
    (hold : ∀ row, w.store.approvals.find? a.approvalId = some row → row.marker = none) :
    Provenance env first (exec env (.saveApprovalRequest a) w).2 .idle := by
  have hkeep : ∀ b ∈ w.store.approvals.rows, b.marker ≠ none →
      b ∈ (w.store.approvals.upsert a).rows := by
    intro b hb hmark
    refine Table.mem_upsert.mpr (Or.inr ⟨hb, fun heq => hmark ?_⟩)
    exact hold b (heq ▸ Table.find?_of_mem hb)
  constructor
  case since => exact h.since
  case issued =>
    intro id hstored
    simp only [exec, World.after_store, Table.find?_upsert] at hstored
    split_ifs at hstored with heq
    · exact heq ▸ hid
    · exact h.issued id hstored
  case marked =>
    intro b hb
    rcases Table.mem_upsert.mp hb with rfl | ⟨hb, -⟩
    · exact Or.inl hunmarked
    · exact h.marked b hb
  case single =>
    intro b hb c hc hmark heq
    rcases Table.mem_upsert.mp hb with rfl | ⟨hb, -⟩
    · exact absurd hunmarked hmark
    · rcases Table.mem_upsert.mp hc with rfl | ⟨hc, -⟩
      · exact absurd (heq.trans hunmarked) hmark
      · exact h.single b hb c hc hmark heq
  case origin =>
    intro t ht hrisky
    obtain ⟨b, hb, hauth⟩ := h.origin t ht hrisky
    exact ⟨b, hkeep b hb (by rw [hauth.marker]; exact Option.some_ne_none _), hauth⟩
  case holds => trivial

theorem authorizes_marked {approval : ApprovalRequest} {uuid : String} {at_ : Timestamp}
    (happroved : approval.status = .approved) (hkind : approval.isTaskRun = true) :
    Authorizes (Store.setMarker ("task_" ++ uuid) approval)
      (Store.approvedTask approval uuid at_) where
  approved := happroved
  taskRun := hkind
  marker := Dict.get?_set_self _ _ _
  nodeId := (Dict.getStr_set_of_ne _ _ _ (by decide)).symm
  command := (Dict.getStr_set_of_ne _ _ _ (by decide)).symm
  executor := (Dict.getStr_set_of_ne _ _ _ (by decide)).symm
  risk := rfl

/-- Dispatching an approved request. -/
theorem provenance_dispatch (hids : DistinctIds env first last)
    (h : Provenance env first w draft) (hlast : w.uuids < last) {approvalId : String}
    {approval : ApprovalRequest} {tasks : Table Task.taskId}
    (hd : w.store.Dispatches approvalId (env.uuid w.uuids) (w.reading env) approval tasks) :
    Provenance env first { w.after 3 (w.store.dispatchedStore (env.uuid w.uuids) (w.reading env)
      approval tasks) with uuids := w.uuids + 1 } .idle := by
  have hmem : approval ∈ w.store.approvals.rows := Table.mem_of_find? hd.found
  have hnomark : approval.marker = none := by
    rcases h.marked approval hmem with hnone | ⟨-, k, -, -, hmark⟩
    · exact hnone
    · have hyes := Store.setMarker_dispatched (env.uuid k) approval
      have hno := hd.unmarked
      simp only [ApprovalRequest.dispatched, Dict.has, Store.setMarker, Dict.get?_set_self]
        at hyes hno
      unfold ApprovalRequest.marker at hmark
      rw [hmark] at hno
      exact absurd (hyes.symm.trans hno) (by decide)
  -- the rows after the dispatch: the marked one and the others
  have hrows : ∀ a, a ∈ (w.store.dispatchedStore (env.uuid w.uuids) (w.reading env) approval
      tasks).approvals.rows ↔ a = Store.setMarker ("task_" ++ env.uuid w.uuids) approval
        ∨ (a ∈ w.store.approvals.rows ∧ a ≠ approval) := by
    intro a
    unfold Store.dispatchedStore
    rw [Table.mem_update]
    constructor
    · rintro ⟨b, hb, rfl⟩
      by_cases hkey : b.approvalId = approval.approvalId
      · have hsame : b = approval := w.store.approvals.eq_of_key_eq hb hmem hkey
        subst hsame
        exact Or.inl (by simp [Store.approvedTask])
      · rw [if_neg (by simpa using hkey)]
        exact Or.inr ⟨hb, fun heq => hkey (heq ▸ rfl)⟩
    · rintro (rfl | ⟨hb, hne⟩)
      · exact ⟨approval, hmem, by simp [Store.approvedTask]⟩
      · refine ⟨a, hb, if_neg ?_⟩
        simpa using fun hkey => hne (w.store.approvals.eq_of_key_eq hb hmem hkey)
  have hnew : ∀ a ∈ w.store.approvals.rows,
      a.marker ≠ some (.str ("task_" ++ env.uuid w.uuids)) := by
    intro a ha hmark
    rcases h.marked a ha with hnone | ⟨-, k, hk, hlt, hk'⟩
    · rw [hnone] at hmark
      cases hmark
    · rw [hk'] at hmark
      have := hids k (by omega) w.uuids hlast hk h.since (taskMarker_inj hmark)
      omega
  have hmarker : (Store.setMarker ("task_" ++ env.uuid w.uuids) approval).marker
      = some (.str ("task_" ++ env.uuid w.uuids)) := Dict.get?_set_self _ _ _
  constructor
  case since => exact h.since.trans (Nat.le_succ _)
  case issued =>
    intro id hstored
    have hbefore : w.store.approvals.find? id ≠ none := by
      intro hnone
      apply hstored
      show (w.store.dispatchedStore (env.uuid w.uuids) (w.reading env) approval
        tasks).approvals.find? id = none
      rw [Store.find?_dispatched hd, if_neg, hnone]
      rintro rfl
      rw [hd.found] at hnone
      cases hnone
    obtain ⟨k, hk, hlt, hkey⟩ := h.issued id hbefore
    exact ⟨k, hk, Nat.lt_succ_of_lt hlt, hkey⟩
  case marked =>
    intro a ha
    rcases (hrows a).mp ha with rfl | ⟨ha, -⟩
    · exact Or.inr ⟨hd.approved, w.uuids, h.since, Nat.lt_succ_self _, hmarker⟩
    · rcases h.marked a ha with hnone | ⟨happroved, k, hk, hlt, hmark⟩
      · exact Or.inl hnone
      · exact Or.inr ⟨happroved, k, hk, Nat.lt_succ_of_lt hlt, hmark⟩
  case single =>
    intro a ha b hb hmark heq
    rcases (hrows a).mp ha with rfl | ⟨ha, -⟩
    · rcases (hrows b).mp hb with rfl | ⟨hb, -⟩
      · rfl
      · exact absurd (heq.symm.trans hmarker) (hnew b hb)
    · rcases (hrows b).mp hb with rfl | ⟨hb, -⟩
      · exact absurd (heq.trans hmarker) (hnew a ha)
      · exact h.single a ha b hb hmark heq
  case origin =>
    intro t ht hrisky
    rcases (Table.mem_insert hd.inserted).mp ht with ht | rfl
    · obtain ⟨a, ha, hauth⟩ := h.origin t ht hrisky
      refine ⟨a, (hrows a).mpr (Or.inr ⟨ha, ?_⟩), hauth⟩
      rintro rfl
      rw [hauth.marker] at hnomark
      cases hnomark
    · exact ⟨_, (hrows _).mpr (Or.inl rfl), authorizes_marked hd.approved hd.taskRun⟩
  case holds => trivial

/-- A call that leaves the approvals as they are. -/
theorem provenance_frame (hids : DistinctIds env first last) (h : Provenance env first w draft)
    (hlast : (exec env op w).2.uuids ≤ last)
    (hsame : (exec env op w).2.store.approvals = w.store.approvals)
    (horigin : ∀ t ∈ (exec env op w).2.store.tasks.rows, Risky t →
      ∃ a ∈ w.store.approvals.rows, Authorizes a t) :
    Provenance env first (exec env op w).2 (nextDraft draft op (exec env op w).1) := by
  have hmono : w.uuids ≤ (exec env op w).2.uuids := exec_uuids env op w
  constructor
  case since => exact h.since.trans hmono
  case issued =>
    intro id hstored
    rw [hsame] at hstored
    obtain ⟨k, hk, hlt, hkey⟩ := h.issued id hstored
    exact ⟨k, hk, hlt.trans_le hmono, hkey⟩
  case marked =>
    intro a ha
    rw [hsame] at ha
    rcases h.marked a ha with hnone | ⟨happroved, k, hk, hlt, hmark⟩
    · exact Or.inl hnone
    · exact Or.inr ⟨happroved, k, hk, hlt.trans_le hmono, hmark⟩
  case single => rw [hsame]; exact h.single
  case origin => rw [hsame]; exact horigin
  case holds =>
    cases op with
    | uuid4 =>
      refine ⟨⟨w.uuids, h.since, Nat.lt_succ_self _, rfl⟩, ?_⟩
      by_contra hstored
      obtain ⟨k, hk, hlt, hkey⟩ := h.issued _ hstored
      have := hids k (hlt.trans_le (hmono.trans hlast)) w.uuids
        (lt_of_lt_of_le (Nat.lt_succ_self _) hlast) hk h.since (approvalId_inj hkey.symm)
      omega
    | loadApprovalRequest id =>
      show (nextDraft draft (.loadApprovalRequest id) (w.store.approvals.find? id)).Holds env first w
      cases hfound : w.store.approvals.find? id with
      | none => trivial
      | some row =>
        show w.store.approvals.find? row.approvalId = some row
        rw [Table.key_of_find? hfound]
        exact hfound
    | saveApprovalRequest a => trivial
    | dispatchApprovedTaskRequest id => trivial
    | _ => exact h.holds.mono hmono hsame

/-- **One call keeps the invariant.** -/
theorem provenance_step (hids : DistinctIds env first last) (h : Provenance env first w draft)
    (hmay : mayDraft draft op) (hlast : (exec env op w).2.uuids ≤ last) :
    Provenance env first (exec env op w).2 (nextDraft draft op (exec env op w).1) := by
  by_cases hsave : ∃ t, op = .saveTask t
  · obtain ⟨t, rfl⟩ := hsave
    refine provenance_frame hids h hlast (exec_approvals rfl) (fun u hu hrisky => ?_)
    rcases Table.mem_upsert.mp hu with rfl | ⟨hu, -⟩
    · exact absurd hrisky hmay
    · exact h.origin u hu hrisky
  by_cases hdispatch : ∃ id, op = .dispatchApprovedTaskRequest id
  · obtain ⟨id, rfl⟩ := hdispatch
    rcases w.store.dispatch_cases id (env.uuid w.uuids) (w.reading env) with
      ⟨approval, tasks, hd, heq⟩ | ⟨r, es, heq, -⟩
    · have hdone := provenance_dispatch hids h (lt_of_lt_of_le (Nat.lt_succ_self _) hlast) hd
      simp only [exec, heq]
      exact hdone
    · refine provenance_frame hids h hlast ?_ ?_
      · simp only [exec, World.after_store, heq]
      · simp only [exec, World.after_store, heq]
        exact h.origin
  have horigin : ∀ t ∈ (exec env op w).2.store.tasks.rows, Risky t →
      ∃ a ∈ w.store.approvals.rows, Authorizes a t := by
    intro u hu hrisky
    obtain ⟨t, ht, hwork⟩ :=
      exec_sameWork (not_exists.mp hsave) (not_exists.mp hdispatch) hu
    obtain ⟨a, ha, hauth⟩ := h.origin t ht (hwork.risky hrisky)
    exact ⟨a, ha, hauth.sameWork hwork⟩
  by_cases happroval : ∃ a, op = .saveApprovalRequest a
  · obtain ⟨a, rfl⟩ := happroval
    have hholds := h.holds
    cases draft with
    | idle => exact hmay.elim
    | drawn uuid =>
      obtain ⟨hid, -, hunmarked⟩ := hmay
      obtain ⟨⟨k, hk, hlt, rfl⟩, hfree⟩ := hholds
      refine provenance_save h ⟨k, hk, hlt, hid⟩ hunmarked (fun row hrow => ?_)
      rw [hid, hfree] at hrow
      cases hrow
    | loaded row =>
      obtain ⟨hpending, status, decidedBy, now, rfl⟩ := hmay
      have hunmarked : row.marker = none := by
        rcases h.marked row (Table.mem_of_find? hholds) with hnone | ⟨happroved, -⟩
        · exact hnone
        · rw [hpending] at happroved
          cases happroved
      refine provenance_save h (h.issued row.approvalId (by rw [hholds]; exact Option.some_ne_none _)) hunmarked ?_
      intro stored hstored
      rw [show (withDecision row status decidedBy now).approvalId = row.approvalId from rfl,
        hholds] at hstored
      cases hstored
      exact hunmarked
  · refine provenance_frame hids h hlast (exec_approvals ?_) horigin
    cases op with
    | saveApprovalRequest a => exact absurd ⟨a, rfl⟩ happroval
    | dispatchApprovedTaskRequest id => exact absurd ⟨id, rfl⟩ hdispatch
    | _ => rfl

end Step

/-! ## §5. Every sequence of operations. -/

/-- What a single call may do to the tasks. -/
structure InsertsSafely (env : Env) (w : World) (op : Call) : Prop where
  /-- The node of a risky task that is inserted is managed and takes tasks. -/
  inserts : ∀ t ∈ (exec env op w).2.store.tasks.rows, w.store.tasks.find? t.taskId = none →
    Risky t → (w.store.nodes.find? t.nodeId).map Node.status = some .managed
      ∧ w.store.taskDispatchBlockReason t.nodeId = none
  /-- A dispatch that inserts no task only writes the audit log. -/
  otherwise : ∀ id, op = .dispatchApprovedTaskRequest id →
    (∀ t ∈ (exec env op w).2.store.tasks.rows, w.store.tasks.find? t.taskId ≠ none) →
      ∃ es, (exec env op w).2.store = { w.store with audit := w.store.audit ++ es }

theorem insertsSafely {env : Env} {w : World} {draft : ApprovalDraft} {op : Call}
    (hmay : mayDraft draft op) : InsertsSafely env w op := by
  have hstored : ∀ t ∈ w.store.tasks.rows, w.store.tasks.find? t.taskId ≠ none := by
    intro t ht
    rw [Table.find?_of_mem ht]
    nofun
  by_cases hdispatch : ∃ id, op = .dispatchApprovedTaskRequest id
  · obtain ⟨id, rfl⟩ := hdispatch
    rcases w.store.dispatch_cases id (env.uuid w.uuids) (w.reading env) with
      ⟨approval, tasks, hd, heq⟩ | ⟨r, es, heq, -⟩
    · constructor
      · intro t ht hfree _
        simp only [exec, World.after_store, heq] at ht
        rcases (Table.mem_insert hd.inserted).mp ht with ht | rfl
        · exact absurd hfree (hstored t ht)
        · exact ⟨hd.managed, hd.unblocked⟩
      · intro _ _ hnone
        simp only [exec, World.after_store, heq] at hnone
        have hnew : Store.approvedTask approval (env.uuid w.uuids) (w.reading env 0)
            ∈ tasks.rows := (Table.mem_insert hd.inserted).mpr (Or.inr rfl)
        exact absurd (Table.insert?_eq_some.mp hd.inserted).1 (hnone _ hnew)
    · constructor
      · intro t ht hfree _
        simp only [exec, World.after_store, heq] at ht
        exact absurd hfree (hstored t ht)
      · exact fun _ _ _ => ⟨es, by simp only [exec, World.after_store, heq]⟩
  constructor
  · intro t ht hfree hrisky
    by_cases hsave : ∃ u, op = .saveTask u
    · obtain ⟨u, rfl⟩ := hsave
      rcases Table.mem_upsert.mp ht with rfl | ⟨ht, -⟩
      · exact absurd hrisky hmay
      · exact absurd hfree (hstored t ht)
    · obtain ⟨u, hu, hwork⟩ := exec_sameWork (not_exists.mp hsave) (not_exists.mp hdispatch) ht
      rw [hwork.taskId] at hfree
      exact absurd hfree (hstored u hu)
  · exact fun id heq => absurd ⟨id, heq⟩ hdispatch

/-- **The provenance of risky tasks.**  After every sequence of operations
that starts without tasks and approvals and draws distinct identifiers, every
risky task is the dispatched task of exactly one approved request, which asks
for its node, command, executor and risk; and every call of the sequence
inserts risky tasks only for nodes that take them. -/
theorem high_risk_provenance (env : Env) (w : World) (operations : List Operation)
    (htasks : w.store.tasks = .empty) (happrovals : w.store.approvals = .empty)
    (hids : DistinctIds env w.uuids ((session operations).run (exec env) w).2.uuids) :
    (∀ t ∈ ((session operations).run (exec env) w).2.store.tasks.rows, Risky t →
      ∃ a ∈ ((session operations).run (exec env) w).2.store.approvals.rows, Authorizes a t
        ∧ ∀ b ∈ ((session operations).run (exec env) w).2.store.approvals.rows,
            b.marker = some (.str t.taskId) → b = a)
    ∧ ∀ c ∈ (session operations).trace (exec env) w, InsertsSafely env c.1 c.2 := by
  have hstart : Provenance env w.uuids w .idle := by
    constructor
    case since => exact le_rfl
    case issued =>
      intro id hstored
      rw [happrovals] at hstored
      exact absurd rfl hstored
    case marked =>
      rw [happrovals]
      exact fun a ha => absurd ha List.not_mem_nil
    case single =>
      rw [happrovals]
      exact fun a ha => absurd ha List.not_mem_nil
    case origin =>
      rw [htasks]
      exact fun t ht => absurd ht List.not_mem_nil
    case holds => trivial
  obtain ⟨⟨draft, hend⟩, htrace⟩ := Prog.wp_run_trace (T := draftTypestate)
    (fun s m op hI hmay hlast => ⟨trivial, provenance_step hids hI hmay hlast⟩)
    (session operations) .idle w hstart (session_keeps operations .idle)
    (Prog.trace_le_run World.uuids (exec_uuids env) (session operations) w).2
  refine ⟨fun t ht hrisky => ?_, fun c hc => ?_⟩
  · obtain ⟨a, ha, hauth⟩ := hend.origin t ht hrisky
    refine ⟨a, ha, hauth, fun b hb hmark => ?_⟩
    exact hend.single b hb a ha (by rw [hmark]; nofun) (hmark.trans hauth.marker.symm)
  · obtain ⟨draft', -, hmay⟩ := htrace c hc
    exact insertsSafely hmay

/-- A node and an operator who reboots it: the request is approved, and
dispatched a second time by the front end. -/
def rebootOperations : List Operation := [
  .createTaskCommand { command := "reboot", nodeId := some "node_000000000001", risk := "high" },
  .resolveApprovalRequest "appr_00000000000a" .approved "alice",
  .dispatchApprovedTaskRequest "appr_00000000000a"]

/-- One risky task comes of it. -/
theorem high_risk_provenance_reboot :
    (∀ t ∈ ((session rebootOperations).run (exec Env.quiet) lateWorld).2.store.tasks.rows,
      Risky t →
      ∃ a ∈ ((session rebootOperations).run (exec Env.quiet) lateWorld).2.store.approvals.rows,
        Authorizes a t
        ∧ ∀ b ∈ ((session rebootOperations).run (exec Env.quiet)
            lateWorld).2.store.approvals.rows, b.marker = some (.str t.taskId) → b = a)
    ∧ ((session rebootOperations).run (exec Env.quiet) lateWorld).2.store.tasks.rows.map
        (fun t => (t.command, t.risk, t.status)) = [("reboot", "high", .pending)] :=
  ⟨(high_risk_provenance Env.quiet lateWorld rebootOperations rfl rfl (by decide +kernel)).1,
    by decide +kernel⟩

end Hmn
