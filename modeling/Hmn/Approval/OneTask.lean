/-
  Hmn.Approval.OneTask — at most one task per approval.

  A dispatch inserts a task and marks the approval in one transaction, and
  a dispatch that finds the mark inserts nothing.  The mark sits in the
  details of the approval row, and `resolveApprovalRequest` writes a whole
  row back that it loaded in an earlier transaction: a decider that loaded
  the row before another decider's dispatch erases the mark with its save.

  Main results: `one_task_per_approval` — in every interleaving in which no
  decider saves over a marked row the mark is never lost and at most one
  task is inserted; `two_deciders_two_tasks` — an interleaving of two
  deciders in which two are.
-/
import Hmn.Approval.Approvals
import Hmn.Framework.OneShot
import Hmn.Store.Frames

namespace Hmn

open Framework

/-! ## §1. Callers, marks and insertions. -/

/-- The callers that decide or dispatch approvals. -/
inductive ApprovalCaller where
  | resolve (approvalId : String) (status : Decision) (decidedBy : String)
  | dispatch (approvalId : String)

/-- What a caller runs. -/
def ApprovalCaller.program : ApprovalCaller → Py Unit
  | .resolve approvalId status decidedBy => do
      let _ ← resolveApprovalRequest approvalId status decidedBy
  | .dispatch approvalId => do
      let _ ← dispatchApprovedTaskRequest approvalId

/-- The stored row of the approval carries the mark of a dispatch. -/
def Marked (approvalId : String) (w : World) : Prop :=
  ∃ a, w.store.approvals.find? approvalId = some a ∧ a.dispatched = true

instance (approvalId : String) (w : World) : Decidable (Marked approvalId w) :=
  decidable_of_iff ((w.store.approvals.find? approvalId).any (·.dispatched) = true) (by
    simp [Marked, Option.any_eq_true])

/-- The call inserts a task for the approval. -/
def insertsTask (env : Env) (approvalId : String) (w : World) : Call → Bool
  | .dispatchApprovedTaskRequest id =>
      id = approvalId && decide (w.store.tasks.rows.length
        < (exec env (.dispatchApprovedTaskRequest id) w).2.store.tasks.rows.length)
  | _ => false

/-- How many tasks were inserted for the approval so far. -/
def countInserted {ι : Type} (env : Env) (approvalId : String) (n : Nat) (_ : ι) (w : World)
    (op : Call) : Nat :=
  if insertsTask env approvalId w op then n + 1 else n

/-- The condition on a run: no row of the approval is saved over a row that
carries the mark. -/
def SavesUnmarked {ι : Type} (approvalId : String) (_ : ι) (w : World) : Call → Prop
  | .saveApprovalRequest a => a.approvalId = approvalId → ¬ Marked approvalId w
  | _ => True

instance {ι : Type} (approvalId : String) (i : ι) (w : World) (op : Call) :
    Decidable (SavesUnmarked approvalId i w op) := by
  cases op <;> unfold SavesUnmarked <;> infer_instance

/-! ## §2. One call. -/

variable {ι : Type} {env : Env} {approvalId : String}

/-- The mark survives every call that does not save the row. -/
theorem marked_step {w : World} {op : Call} {i : ι} (hm : Marked approvalId w)
    (hP : SavesUnmarked approvalId i w op) : Marked approvalId (exec env op w).2 := by
  obtain ⟨a, hfound, hmark⟩ := hm
  cases hw : op.writesApprovals with
  | false => exact ⟨a, by rw [exec_approvals hw]; exact hfound, hmark⟩
  | true =>
    cases op with
    | saveApprovalRequest row =>
      have hne : row.approvalId ≠ approvalId := fun he => hP he ⟨a, hfound, hmark⟩
      refine ⟨a, ?_, hmark⟩
      simpa [exec, Table.find?_upsert_of_ne _ hne] using hfound
    | dispatchApprovedTaskRequest id =>
      rcases w.store.dispatch_cases id (env.uuid w.uuids) (w.reading env) with
        ⟨approval, tasks, h, heq⟩ | ⟨r, es, heq, -⟩
      · simp only [Marked, exec, World.after_store, heq, Store.find?_dispatched h]
        by_cases hid : approvalId = id
        · subst hid
          simp [Store.approvedTask, Store.setMarker_dispatched]
        · exact ⟨a, by simpa [hid] using hfound, hmark⟩
      · exact ⟨a, by simpa [exec, heq] using hfound, hmark⟩
    | _ => simp [Call.writesApprovals] at hw

/-- A call that inserts a task found no mark and leaves one. -/
theorem insertsTask_marks {w : World} {op : Call} (h : insertsTask env approvalId w op = true) :
    ¬ Marked approvalId w ∧ Marked approvalId (exec env op w).2 := by
  cases op with
  | dispatchApprovedTaskRequest id =>
    simp only [insertsTask, Bool.and_eq_true, decide_eq_true_eq] at h
    obtain ⟨rfl, hlt⟩ := h
    rcases w.store.dispatch_cases id (env.uuid w.uuids) (w.reading env) with
      ⟨approval, tasks, hd, heq⟩ | ⟨r, es, heq, -⟩
    · constructor
      · rintro ⟨a, hfound, hmark⟩
        rw [hd.found] at hfound
        cases hfound
        rw [hd.unmarked] at hmark
        cases hmark
      · simp only [Marked, exec, World.after_store, heq, Store.find?_dispatched hd]
        simp [Store.approvedTask, Store.setMarker_dispatched]
    · exfalso
      simp [exec, heq] at hlt
  | _ => simp [insertsTask] at h

/-- A call that inserts a task found the approval approved. -/
theorem insertsTask_approved {w : World} {op : Call} (h : insertsTask env approvalId w op = true) :
    (w.store.approvals.find? approvalId).map ApprovalRequest.status = some .approved := by
  cases op with
  | dispatchApprovedTaskRequest id =>
    simp only [insertsTask, Bool.and_eq_true, decide_eq_true_eq] at h
    obtain ⟨rfl, hlt⟩ := h
    rcases w.store.dispatch_cases id (env.uuid w.uuids) (w.reading env) with
      ⟨approval, tasks, hd, -⟩ | ⟨r, es, heq, -⟩
    · simp [hd.found, hd.approved]
    · exfalso
      simp [exec, heq] at hlt
  | _ => simp [insertsTask] at h

/-! ## §3. Every interleaving. -/

/-- The invariant: nothing was inserted yet, or one task was and the row is
marked. -/
def AtMostOne (approvalId : String) (w : World) (n : Nat) : Prop :=
  n = 0 ∨ (n = 1 ∧ Marked approvalId w)

theorem atMostOne_step {w : World} {op : Call} {n : Nat} {i : ι}
    (h : AtMostOne approvalId w n) (hP : SavesUnmarked approvalId i w op) :
    AtMostOne approvalId (exec env op w).2 (countInserted env approvalId n i w op) := by
  unfold countInserted
  cases hins : insertsTask env approvalId w op with
  | true =>
    obtain ⟨hno, hyes⟩ := insertsTask_marks hins
    rcases h with rfl | ⟨-, hm⟩
    · exact Or.inr ⟨rfl, hyes⟩
    · exact absurd hm hno
  | false =>
    rcases h with rfl | ⟨rfl, hm⟩
    · exact Or.inl rfl
    · exact Or.inr ⟨rfl, marked_step hm hP⟩

variable [DecidableEq ι]

/-- The callers of a run of deciders and dispatchers. -/
def approvalCallers (callers : ι → ApprovalCaller) (w : World) :
    Config ι callSig PyError Unit World :=
  ⟨w, fun i => (callers i).program⟩

/-- A mark is never lost in a run that saves no row over it. -/
theorem marked_run (sched : List ι) (c : Config ι callSig PyError Unit World)
    (hm : Marked approvalId c.shared)
    (hP : c.Respects (exec env) (SavesUnmarked approvalId) sched) :
    Marked approvalId (c.run (exec env) sched).shared := by
  refine Config.run_induct (f := fun (_ : Unit) _ _ _ => ()) (fun c _ => Marked approvalId c.shared)
    ?_ sched c () hm hP
  intro c _ i op k hm hp hPi
  rw [Config.step_of_call hp]
  exact marked_step hm hPi

/-- **At most one task per approval.**  In every interleaving of deciders
and dispatchers whose saves all find the row unmarked, at most one task is
inserted for the approval, and once the mark was written it is never lost. -/
theorem one_task_per_approval (env : Env) (callers : ι → ApprovalCaller) (w : World)
    (approvalId : String) (sched : List ι)
    (hsaves : (approvalCallers callers w).Respects (exec env) (SavesUnmarked approvalId) sched) :
    (approvalCallers callers w).history (exec env) (countInserted env approvalId) 0 sched ≤ 1
    ∧ ∀ pre post, sched = pre ++ post →
        Marked approvalId ((approvalCallers callers w).run (exec env) pre).shared →
        Marked approvalId ((approvalCallers callers w).run (exec env) sched).shared := by
  constructor
  · have hrun := Config.run_induct (fun c n => AtMostOne approvalId c.shared n)
      (fun c n i op k h hp hPi => by
        rw [Config.step_of_call hp]
        exact atMostOne_step h hPi)
      sched (approvalCallers callers w) 0 (Or.inl rfl) hsaves
    rcases hrun with h | ⟨h, -⟩
    · exact h.le.trans (Nat.zero_le 1)
    · exact h.le
  · rintro pre post rfl hm
    rw [Config.run_append]
    exact marked_run post _ hm ((Config.respects_append _ pre post).mp hsaves).2

/-! ## §4. The race. -/

/-- A managed node. -/
def raceNode : Node where
  nodeId := "node_000000000001"
  fingerprint := "fp"
  hostname := "web-1"
  addresses := []
  trustLevel := "B"
  labels := []
  status := .managed

/-- A pending request to run a command on that node. -/
def raceApproval : ApprovalRequest where
  approvalId := "appr_000000000001"
  subjectType := "task"
  subjectId := "pending-task"
  action := "task.run"
  risk := "high"
  status := .pending
  requestedBy := "hmn"
  details := [("node_id", .str "node_000000000001"), ("command", .str "reboot")]
  createdAt := 0

/-- The store with that node and that request. -/
def raceWorld : World where
  store := { Store.empty with nodes := .single raceNode, approvals := .single raceApproval }
  files _ := .missing

/-- Two operators approve the request. -/
def raceCallers (i : Bool) : ApprovalCaller :=
  .resolve "appr_000000000001" .approved (if i then "alice" else "bob")

/-- One operator after the other: the second finds the decision made. -/
theorem one_task_per_approval_in_turn :
    (approvalCallers raceCallers raceWorld).history (exec Env.quiet)
        (countInserted Env.quiet "appr_000000000001") 0
        [true, true, true, true, true, false] ≤ 1 :=
  (one_task_per_approval Env.quiet raceCallers raceWorld "appr_000000000001"
    [true, true, true, true, true, false] (by decide +kernel)).1

/-- **Two deciders, two tasks.**  Alice loads the request, Bob decides and
dispatches it, and Alice saves her copy over the mark: the mark that was
there after Bob's last call is gone after Alice's save, and her dispatch
inserts a second task. -/
theorem two_deciders_two_tasks :
    (approvalCallers raceCallers raceWorld).history (exec Env.quiet)
        (countInserted Env.quiet "appr_000000000001") 0
        [true, false, false, false, false, false, true, true, true, true] = 2
    ∧ Marked "appr_000000000001" ((approvalCallers raceCallers raceWorld).run
        (exec Env.quiet) [true, false, false, false, false, false]).shared
    ∧ ¬ Marked "appr_000000000001" ((approvalCallers raceCallers raceWorld).run
        (exec Env.quiet) [true, false, false, false, false, false, true, true]).shared := by
  decide +kernel

end Hmn
