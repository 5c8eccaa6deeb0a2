/-
  Hmn.Store.Frames — which call touches which table.

  For every table, the calls that write it; every other call leaves it as
  it is, whatever the outside world answers.
-/
import Hmn.Store.Calls
import Hmn.Store.Specs

namespace Hmn

open Framework

namespace Call

/-- The calls that write the approvals. -/
def writesApprovals : Call → Bool
  | .saveApprovalRequest _ | .dispatchApprovedTaskRequest _ => true
  | _ => false

/-- The calls that write the tasks. -/
def writesTasks : Call → Bool
  | .dispatchApprovedTaskRequest _ | .saveTask _ | .claimNextTask .. | .expireStuckTasks _
  | .completeTask .. => true
  | _ => false

/-- The calls that write the nodes. -/
def writesNodes : Call → Bool
  | .saveNode _ => true
  | _ => false

/-- The calls that write the join tokens. -/
def writesTokens : Call → Bool
  | .saveToken _ => true
  | _ => false

/-- The calls that write the audit log. -/
def writesAudit : Call → Bool
  | .dispatchApprovedTaskRequest _ | .dispatchApprovedComponentAction _ | .recordAudit ..
  | .claimNextTask .. | .expireStuckTasks _ | .completeTask .. => true
  | _ => false

end Call

/-- The tables a call may leave untouched. -/
theorem exec_frame (env : Env) (op : Call) (w : World) :
    (op.writesApprovals = false → (exec env op w).2.store.approvals = w.store.approvals)
    ∧ (op.writesTasks = false → (exec env op w).2.store.tasks = w.store.tasks)
    ∧ (op.writesNodes = false → (exec env op w).2.store.nodes = w.store.nodes)
    ∧ (op.writesTokens = false → (exec env op w).2.store.tokens = w.store.tokens)
    ∧ (op.writesAudit = false → (exec env op w).2.store.audit = w.store.audit) := by
  cases op with
  | dispatchApprovedTaskRequest id =>
    simp only [exec, World.after_store]
    rcases w.store.dispatch_cases id (env.uuid w.uuids) (w.reading env) with
      ⟨approval, tasks, -, heq⟩ | ⟨r, es, heq, -⟩
    · rw [heq]
      simp [Call.writesApprovals, Call.writesTasks, Call.writesNodes, Call.writesTokens,
        Call.writesAudit, Store.dispatchedStore]
    · rw [heq]
      simp [Call.writesApprovals, Call.writesTasks, Call.writesNodes, Call.writesTokens,
        Call.writesAudit]
  | dispatchApprovedComponentAction id =>
    obtain ⟨runs, components, es, heq, -⟩ :=
      w.store.componentAction_frame id (w.reading env)
    simp only [exec, World.after_store, heq]
    simp [Call.writesAudit]
  | claimNextTask nodeId executor lease =>
    simp only [exec, World.after_store]
    rcases w.store.claim_cases nodeId executor lease (w.reading env 0) with
      ⟨row, -, -, es, heq, -⟩ | ⟨-, heq⟩
    · rw [heq]
      simp [Call.writesTasks, Call.writesAudit]
    · rw [heq]
      simp
  | expireStuckTasks older =>
    obtain ⟨es, heq, -⟩ := w.store.expire_spec older (w.reading env 0)
    simp only [exec, World.after_store, heq]
    simp [Call.writesTasks, Call.writesAudit]
  | completeTask id code out err =>
    simp only [exec, World.after_store]
    rcases w.store.complete_cases id code out err (w.reading env 0) with
      ⟨row, -, -, -, es, heq, -⟩ | ⟨-, heq⟩
    · rw [heq]
      simp [Call.writesTasks, Call.writesAudit]
    · rw [heq]
      simp
  | insertNotification n =>
    simp only [exec]
    cases w.store.notifications.insert? n <;> simp
  | readText path => simp only [exec]; cases w.files path <;> simp
  | writeText path content =>
    simp only [exec]
    cases env.write w.writes <;> simp
  | _ => simp [exec, Call.writesApprovals, Call.writesNodes, Call.writesTokens,
      Call.writesTasks, Call.writesAudit, Store.addAudit]

variable {env : Env} {op : Call} {w : World}

theorem exec_approvals (h : op.writesApprovals = false) :
    (exec env op w).2.store.approvals = w.store.approvals := (exec_frame env op w).1 h

theorem exec_tasks (h : op.writesTasks = false) :
    (exec env op w).2.store.tasks = w.store.tasks := (exec_frame env op w).2.1 h

theorem exec_nodes (h : op.writesNodes = false) :
    (exec env op w).2.store.nodes = w.store.nodes := (exec_frame env op w).2.2.1 h

theorem exec_tokens (h : op.writesTokens = false) :
    (exec env op w).2.store.tokens = w.store.tokens := (exec_frame env op w).2.2.2.1 h

theorem exec_audit (h : op.writesAudit = false) :
    (exec env op w).2.store.audit = w.store.audit := (exec_frame env op w).2.2.2.2 h

/-- A program whose calls do not write the nodes leaves them as they are. -/
theorem run_nodes {α : Type} {p : Py α} (hp : p.Calls fun op : Call => op.writesNodes = false)
    (w : World) :
    (p.run (exec env) w).2.store.nodes = w.store.nodes :=
  Prog.run_keeps (I := fun w' => w'.store.nodes = w.store.nodes)
    (fun _ _ hop hw => (exec_nodes hop).trans hw) hp w rfl

/-- The clock never goes back. -/
theorem exec_clock (env : Env) (op : Call) (w : World) : w.clock ≤ (exec env op w).2.clock := by
  cases op with
  | insertNotification n =>
    simp only [exec]
    cases w.store.notifications.insert? n <;> simp [World.after]
  | readText path => simp only [exec]; cases w.files path <;> simp
  | writeText path content =>
    simp only [exec]
    cases env.write w.writes <;> simp
  | _ => simp [exec, World.after]

/-- Identifiers are drawn one after the other. -/
theorem exec_uuids (env : Env) (op : Call) (w : World) : w.uuids ≤ (exec env op w).2.uuids := by
  cases op with
  | insertNotification n =>
    simp only [exec]
    cases w.store.notifications.insert? n <;> simp [World.after]
  | readText path => simp only [exec]; cases w.files path <;> simp
  | writeText path content =>
    simp only [exec]
    cases env.write w.writes <;> simp
  | _ => simp [exec, World.after]

/-- The identifiers drawn between two moments are distinct. -/
def DistinctIds (env : Env) (m n : Nat) : Prop :=
  ∀ j < n, ∀ k < n, m ≤ j → m ≤ k → env.uuid j = env.uuid k → j = k

instance (env : Env) (m n : Nat) : Decidable (DistinctIds env m n) := by
  unfold DistinctIds
  infer_instance

end Hmn
