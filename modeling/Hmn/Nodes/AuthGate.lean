/-
  Hmn.Nodes.AuthGate — does an unmanaged node get anything done?

  Every endpoint of a node checks that the node exists and that the request
  carries its fingerprint; all but the rotation of the fingerprint also check
  that the node is managed.

  Main results: `auth_gate_iff` — a request that should be refused is refused
  without effect exactly when it is not the rotation of an unmanaged node's
  fingerprint by someone who knows it; `revoked_node_rotates` — a revoked
  node that rotates its fingerprint.
-/
import Hmn.Network.Specs
import Hmn.Nodes.Endpoints

namespace Hmn

open Framework Py

/-! ## §1. The gate. -/

/-- The node a request is about: the one it names, or the node of the task. -/
def NodeRequest.node (r : NodeRequest) (w : World) : Option Node :=
  match r with
  | .heartbeat nodeId _ | .rotateFingerprint nodeId _ | .nextTask nodeId _ =>
      w.store.nodes.find? nodeId
  | .taskResult taskId _ => do
      let task ← w.store.tasks.find? taskId
      w.store.nodes.find? task.nodeId

/-- The fingerprint a request carries. -/
def NodeRequest.fingerprint : NodeRequest → Option String
  | .heartbeat _ body => body.map HeartbeatRequest.fingerprint
  | .rotateFingerprint _ body => body.map RotateFingerprintRequest.fingerprint
  | .nextTask _ body => body.map NodeAuthRequest.fingerprint
  | .taskResult _ body => body.map TaskResultRequest.fingerprint

/-- The node exists, is managed, and has the fingerprint of the request. -/
def Authentic (r : NodeRequest) (w : World) : Prop :=
  ∃ node, r.node w = some node ∧ node.status = .managed ∧ r.fingerprint = some node.fingerprint

/-- The request raises, and nodes, tasks, approvals and the audit log stay as
they are. -/
def RefusedUnchanged (env : Env) (r : NodeRequest) (w : World) : Prop :=
  (∃ e, (r.program.run (exec env) w).1 = .error e)
  ∧ (r.program.run (exec env) w).2.store.nodes = w.store.nodes
  ∧ (r.program.run (exec env) w).2.store.tasks = w.store.tasks
  ∧ (r.program.run (exec env) w).2.store.approvals = w.store.approvals
  ∧ (r.program.run (exec env) w).2.store.audit = w.store.audit

/-- A request that is not authentic is refused and changes nothing. -/
def AuthGate (env : Env) (r : NodeRequest) (w : World) : Prop :=
  ¬ Authentic r w → RefusedUnchanged env r w

/-- The rotation of a node that is not managed, with its fingerprint. -/
def RotatesUnmanaged (r : NodeRequest) (w : World) : Prop :=
  ∃ nodeId body node, r = .rotateFingerprint nodeId (some body)
    ∧ w.store.nodes.find? nodeId = some node ∧ node.status ≠ .managed
    ∧ node.fingerprint = body.fingerprint

/-! ## §2. The checks. -/

section

variable {env : Env} {w : World}

/-- A request that raises at once, or after loads only. -/
theorem refused_of_run {r : NodeRequest} {e : PyError}
    (h : r.program.run (exec env) w = (.error e, w)) : RefusedUnchanged env r w := by
  unfold RefusedUnchanged
  rw [h]
  exact ⟨⟨e, rfl⟩, rfl, rfl, rfl, rfl⟩

/-- **The checks of a heartbeat, a poll and a result** pass exactly for a
managed node with that fingerprint; otherwise they raise and change nothing. -/
theorem requireManaged_refuses (env : Env) (w : World) {nodeId fingerprint : String} {α : Type} (f : Node → Py α)
    (h : ¬ ∃ node, w.store.nodes.find? nodeId = some node ∧ node.status = .managed
      ∧ node.fingerprint = fingerprint) :
    ∃ e, (requireManaged nodeId fingerprint >>= f).run (exec env) w = (.error e, w) := by
  unfold requireManaged
  rw [bind_assoc, run_call_bind]
  cases hnode : w.store.nodes.find? nodeId with
  | none =>
    simp only [exec, hnode]
    exact ⟨_, rfl⟩
  | some node =>
    simp only [exec, hnode]
    split_ifs with hrevoked hmanaged hfingerprint
    · exact ⟨_, rfl⟩
    · exact ⟨_, rfl⟩
    · exact ⟨_, rfl⟩
    · exact absurd ⟨node, hnode, not_not.mp hmanaged, not_not.mp hfingerprint⟩ h

/-- The checks that pass return the node and change nothing. -/
theorem requireManaged_run {nodeId fingerprint : String} {node : Node} {w' : World}
    (h : (requireManaged nodeId fingerprint).run (exec env) w = (.ok node, w')) :
    w' = w ∧ w.store.nodes.find? nodeId = some node ∧ node.status = .managed
      ∧ node.fingerprint = fingerprint := by
  unfold requireManaged at h
  rw [run_call_bind] at h
  cases hnode : w.store.nodes.find? nodeId with
  | none =>
    simp only [exec, hnode] at h
    cases h
  | some row =>
    simp only [exec, hnode] at h
    split_ifs at h with hrevoked hmanaged hfingerprint
    · cases h
    · cases h
    · cases h
    · cases h
      exact ⟨rfl, rfl, not_not.mp hmanaged, not_not.mp hfingerprint⟩

/-- A result of an unknown task is refused like one of an unknown node. -/
theorem taskResult_refuses (env : Env) (w : World) (taskId : String) (body : TaskResultRequest)
    (h : ¬ ∃ task node, w.store.tasks.find? taskId = some task
      ∧ w.store.nodes.find? task.nodeId = some node ∧ node.status = .managed
      ∧ node.fingerprint = body.fingerprint) :
    ∃ e, (taskResult taskId body).run (exec env) w = (.error e, w) := by
  unfold taskResult
  rw [run_call_bind]
  cases htask : w.store.tasks.find? taskId with
  | none =>
    simp only [exec, htask]
    exact ⟨_, rfl⟩
  | some task =>
    simp only [exec, htask]
    refine requireManaged_refuses env w _ fun hnode => h ?_
    obtain ⟨node, hn, hm, hf⟩ := hnode
    exact ⟨task, node, htask, hn, hm, hf⟩

theorem rotateFingerprint_refuses (env : Env) (w : World) (nodeId : String)
    (body : RotateFingerprintRequest)
    (h : ¬ ∃ node, w.store.nodes.find? nodeId = some node
      ∧ node.fingerprint = body.fingerprint) :
    ∃ e, (rotateFingerprint nodeId body).run (exec env) w = (.error e, w) := by
  unfold rotateFingerprint
  rw [run_call_bind]
  cases hnode : w.store.nodes.find? nodeId with
  | none =>
    simp only [exec, hnode]
    exact ⟨_, rfl⟩
  | some node =>
    simp only [exec, hnode]
    rw [if_pos (fun hf => h ⟨node, hnode, hf⟩)]
    exact ⟨_, rfl⟩

/-- A rotation with the node's fingerprint is carried out, whatever the
status of the node. -/
theorem rotateFingerprint_rotates (env : Env) {nodeId : String} {body : RotateFingerprintRequest}
    {node : Node} (hnode : w.store.nodes.find? nodeId = some node)
    (hf : node.fingerprint = body.fingerprint) :
    ((rotateFingerprint nodeId body).run (exec env) w).1 = .ok (.rotated node.nodeId "rotated") := by
  unfold rotateFingerprint rotateNodeFingerprint
  rw [run_call_bind]
  simp only [exec, hnode, hf, ne_eq, not_true_eq_false, if_false, bind_assoc]
  rw [run_call_bind]
  simp only [exec, hnode, hf, Option.any_some, not_true_eq_false, decide_false,
    Bool.false_eq_true, if_false]
  rfl

/-- **A request that should be refused is refused without effect, unless it
rotates the fingerprint of an unmanaged node.** -/
theorem auth_gate_iff (env : Env) (r : NodeRequest) (w : World) :
    AuthGate env r w ↔ ¬ RotatesUnmanaged r w := by
  constructor
  · rintro h ⟨nodeId, body, node, rfl, hnode, hstatus, hf⟩
    have hnot : ¬ Authentic (.rotateFingerprint nodeId (some body)) w := by
      rintro ⟨node', hnode', hmanaged, -⟩
      obtain rfl := Option.some.inj (hnode.symm.trans hnode')
      exact hstatus hmanaged
    obtain ⟨⟨e, he⟩, -⟩ := h hnot
    have hok := rotateFingerprint_rotates env hnode hf
    exact absurd (hok.symm.trans he) (by simp)
  · intro hrotates hnot
    cases r with
    | heartbeat nodeId body =>
      cases body with
      | none => exact refused_of_run rfl
      | some body =>
        obtain ⟨e, he⟩ := requireManaged_refuses env w _ (fun ⟨node, hn, hm, hf⟩ =>
          hnot ⟨node, hn, hm, congrArg some hf.symm⟩)
        exact refused_of_run he
    | rotateFingerprint nodeId body =>
      cases body with
      | none => exact refused_of_run rfl
      | some body =>
        obtain ⟨e, he⟩ := rotateFingerprint_refuses env w nodeId body (fun ⟨node, hn, hf⟩ => hrotates ⟨nodeId, body, node, rfl, hn, fun hm =>
            hnot ⟨node, hn, hm, congrArg some hf.symm⟩, hf⟩)
        exact refused_of_run he
    | nextTask nodeId body =>
      cases body with
      | none => exact refused_of_run rfl
      | some body =>
        obtain ⟨e, he⟩ := requireManaged_refuses env w _ (fun ⟨node, hn, hm, hf⟩ =>
          hnot ⟨node, hn, hm, congrArg some hf.symm⟩)
        exact refused_of_run he
    | taskResult taskId body =>
      cases body with
      | none => exact refused_of_run rfl
      | some body =>
        obtain ⟨e, he⟩ := taskResult_refuses env w taskId body (fun ⟨task, node, ht, hn, hm, hf⟩ =>
          hnot ⟨node, by simp [NodeRequest.node, ht, hn], hm, congrArg some hf.symm⟩)
        exact refused_of_run he

end

/-! ## §3. A revoked node. -/

/-- A revoked node that still knows its fingerprint. -/
def revokedNode : Node where
  nodeId := "node_000000000001"
  fingerprint := "fp"
  hostname := "web-1"
  addresses := []
  trustLevel := "B"
  labels := []
  status := .revoked

/-- The store with that node. -/
def revokedWorld : World where
  store := { Store.empty with nodes := .single revokedNode }
  files _ := .missing

/-- Its request to rotate its fingerprint. -/
def rotationRequest : NodeRequest :=
  .rotateFingerprint "node_000000000001" (some { fingerprint := "fp", newFingerprint := "fp-new" })

/-- **A revoked node rotates its fingerprint**: the request is answered, and
the node and the audit log change. -/
theorem revoked_node_rotates :
    ¬ AuthGate Env.quiet rotationRequest revokedWorld
    ∧ (rotationRequest.program.run (exec Env.quiet) revokedWorld).1
        = .ok (.rotated "node_000000000001" "rotated")
    ∧ ((rotationRequest.program.run (exec Env.quiet) revokedWorld).2.store.nodes.find?
        "node_000000000001").map Node.fingerprint = some "fp-new" := by
  have hok : (rotationRequest.program.run (exec Env.quiet) revokedWorld).1
      = .ok (.rotated "node_000000000001" "rotated") := by decide +kernel
  refine ⟨fun h => ?_, hok, by decide +kernel⟩
  have hnot : ¬ Authentic rotationRequest revokedWorld := by
    rintro ⟨node, hnode, hmanaged, -⟩
    have hrevoked : rotationRequest.node revokedWorld = some revokedNode := by decide +kernel
    obtain rfl := Option.some.inj (hrevoked.symm.trans hnode)
    cases hmanaged
  obtain ⟨⟨e, he⟩, -⟩ := h hnot
  exact absurd (hok.symm.trans he) (by simp)

end Hmn
