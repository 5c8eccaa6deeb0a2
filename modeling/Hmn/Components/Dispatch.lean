/-
  Hmn.Components.Dispatch — the statements of a component dispatch.

  `dispatch_approved_component_action` is one `BEGIN IMMEDIATE` transaction.
  Here it is its SQL statements one by one, with the branch for an UPDATE that
  finds no row, so that the statements of other dispatches can come in
  between.

  Main result: `dispatch_yields` — a dispatch that has the database to itself
  does what `Store.dispatchApprovedComponentAction` says.
-/
import Hmn.Framework.Immediate
import Hmn.Store.Store

namespace Hmn.Components

open Framework Store

/-! ## §1. Statements. -/

inductive Statement where
  /-- `SELECT * FROM approval_requests WHERE approval_id = ?`. -/
  | selectApproval (approvalId : String)
  /-- `SELECT * FROM component_runs WHERE run_id = ?`. -/
  | selectRun (runId : String)
  /-- `SELECT * FROM node_components WHERE node_id = ? AND component_id = ?`. -/
  | selectNodeComponent (nodeId componentId : String)
  /-- `INSERT INTO node_components … ON CONFLICT DO UPDATE`. -/
  | upsertNodeComponent (component : NodeComponent)
  /-- `UPDATE component_runs … WHERE run_id = ? AND status != 'state_recorded'`;
  it answers how many rows it found. -/
  | updateRun (recorded : ComponentRun)
  | insertAuditEvent (event : AuditEvent)

@[reducible] def Statement.Res : Statement → Type
  | .selectApproval _ => Option ApprovalRequest
  | .selectRun _ => Option ComponentRun
  | .selectNodeComponent .. => Option NodeComponent
  | .upsertNodeComponent _ => Unit
  | .updateRun _ => Nat
  | .insertAuditEvent _ => Unit

/-- The statements of a dispatch. -/
abbrev statementSig : Sig := ⟨Statement, Statement.Res⟩

/-- `datetime.now(timezone.utc)`. -/
abbrev clockSig : Sig := ⟨Unit, fun _ => Timestamp⟩

/-- What each statement does. -/
def execStatement : Prog.Exec statementSig Store
  | .selectApproval approvalId, s => (s.approvals.find? approvalId, s)
  | .selectRun runId, s => (s.componentRuns.find? runId, s)
  | .selectNodeComponent nodeId componentId, s =>
      (s.nodeComponents.find? (nodeId, componentId), s)
  | .upsertNodeComponent component, s =>
      ((), { s with nodeComponents := s.nodeComponents.upsert component })
  | .updateRun recorded, s =>
      ((s.componentRuns.rows.filter
          (fun r => r.runId = recorded.runId ∧ r.status ≠ "state_recorded")).length,
        { s with
          componentRuns := s.componentRuns.update
            (fun r => r.runId = recorded.runId ∧ r.status ≠ "state_recorded")
            (writeRun recorded) (writeRun_runId recorded) })
  | .insertAuditEvent event, s => ((), s.addAudit event)

/-- The clock answers with its next reading. -/
def execClock (now : Nat → Timestamp) : Prog.Exec clockSig Nat
  | (), n => (now n, n + 1)

/-! ## §2. The transaction. -/

/-- A program of statements. -/
abbrev Tx (α : Type) := Prog (bodySig statementSig clockSig) PyError α

/-- One statement. -/
def sql (op : Statement) : Tx (Statement.Res op) := statement (S := statementSig) op

/-- `datetime.now(timezone.utc)`. -/
def utcNow : Tx Timestamp := ask (O := clockSig) ()

/-- `_record_component_dispatch_failure`. -/
def recordComponentDispatchFailure (approval : ApprovalRequest) (reason : String)
    (details : Dict) : Tx Unit := do
  let now ← utcNow
  sql (.insertAuditEvent (componentDispatchFailure approval reason details now))

/-- The row that an uninstall finds; an apply does not look for it. -/
def existingComponent (run : ComponentRun) (action : String) : Tx (Option NodeComponent) :=
  if action = "uninstall" then sql (.selectNodeComponent run.nodeId run.componentId)
  else return none

/-- The event of a dispatch that recorded a state. -/
def stateRecordedEvent (approval : ApprovalRequest) (run : ComponentRun) (action : String)
    (now : Timestamp) : AuditEvent where
  eventType := "component"
  subjectType := "component"
  subjectId := run.componentId
  action := action
  outcome := "state_recorded"
  details := [("node_id", .str run.nodeId), ("run_id", .str run.runId),
    ("risk", .str run.risk), ("approval_id", .str approval.approvalId)]
  createdAt := now

/-- The statements that write the state of a component. -/
def recordComponentState (approval : ApprovalRequest) (run : ComponentRun) :
    Tx (Option ComponentRun) := do
  let action := componentAction approval run
  let existing ← existingComponent run action
  sql (.upsertNodeComponent (plannedComponent existing approval run action))
  let completedAt ← utcNow
  let recorded := recordState approval completedAt run
  let updated ← sql (.updateRun recorded)
  if updated = 0 then sql (.selectRun run.runId)
  else
    let now ← utcNow
    sql (.insertAuditEvent (stateRecordedEvent approval run action now))
    return some recorded

/-- The checks of a dispatch whose run is not recorded yet. -/
def dispatchComponentRun (approval : ApprovalRequest) (run : ComponentRun) :
    Tx (Option ComponentRun) :=
  if componentMismatches approval run ≠ [] then do
    recordComponentDispatchFailure approval "component approval details mismatch"
      [("mismatched", .arr (((componentMismatches approval run).insertionSort (· ≤ ·)).map .str)),
        ("run_id", .str run.runId)]
    return none
  else if run.status ≠ "pending_approval" then do
    recordComponentDispatchFailure approval "component run is not pending approval"
      [("run_id", .str run.runId), ("run_status", .str run.status)]
    return none
  else if componentAction approval run ∉ ["apply", "uninstall"] then do
    recordComponentDispatchFailure approval "component action is not dispatchable"
      [("run_id", .str run.runId), ("component_action", .str (componentAction approval run))]
    return none
  else recordComponentState approval run

/-- `dispatch_approved_component_action`, between `BEGIN IMMEDIATE` and the
commit. -/
def dispatchApprovedComponentAction (approvalId : String) : Tx (Option ComponentRun) := do
  match ← sql (.selectApproval approvalId) with
  | none => return none
  | some approval =>
    if approval.status ≠ .approved then return none
    else if ¬ approval.isComponentAction then return none
    else
      match ← sql (.selectRun approval.subjectId) with
      | none => return none
      | some run =>
        if run.status = "state_recorded" then return some run
        else dispatchComponentRun approval run

/-! ## §3. A dispatch that has the database to itself. -/

section Alone

variable {α : Type} {s s' : Store} {r : Except PyError (Option ComponentRun)}

theorem yields_sql_bind (op : Statement) (f : Statement.Res op → Tx (Option ComponentRun)) :
    Yields execStatement (sql op >>= f) s r s'
      ↔ Yields execStatement (f (execStatement op s).1) (execStatement op s).2 r s' := Iff.rfl

theorem yields_utcNow_bind (f : Timestamp → Tx (Option ComponentRun)) :
    Yields execStatement (utcNow >>= f) s r s' ↔ ∃ now, Yields execStatement (f now) s r s' :=
  Iff.rfl

/-- The failure event, then `return None`. -/
theorem yields_failure {approval : ApprovalRequest} {reason : String} {details : Dict}
    (h : Yields execStatement (do
      recordComponentDispatchFailure approval reason details
      return none) s r s') :
    ∃ now, r = .ok none ∧ s' = s.addAudit (componentDispatchFailure approval reason details now) := h

/-- The UPDATE finds the run: it was read in the same transaction. -/
theorem updateRun_found {run recorded : ComponentRun} {runId : String}
    (hrun : s.componentRuns.find? runId = some run) (hstatus : run.status ≠ "state_recorded")
    (hid : recorded.runId = run.runId) : (execStatement (.updateRun recorded) s).1 ≠ 0 := by
  have hmem : run ∈ s.componentRuns.rows.filter
      (fun r => r.runId = recorded.runId ∧ r.status ≠ "state_recorded") := by
    rw [List.mem_filter]
    exact ⟨Table.mem_of_find? hrun, by simp [hid, hstatus]⟩
  exact Nat.pos_iff_ne_zero.mp (List.length_pos_of_mem hmem)

/-- The row an uninstall finds is read in the same transaction, and an apply
does not use it. -/
theorem existingComponent_bind (approval : ApprovalRequest) (run : ComponentRun) (action : String)
    (f : NodeComponent → Tx (Option ComponentRun)) :
    Yields execStatement (existingComponent run action >>= fun existing =>
        f (plannedComponent existing approval run action)) s r s'
      ↔ Yields execStatement (f (plannedComponent
          (s.nodeComponents.find? (run.nodeId, run.componentId)) approval run action)) s r s' := by
  unfold existingComponent
  by_cases haction : action = "uninstall"
  · rw [if_pos haction]
    exact yields_sql_bind _ _
  · rw [if_neg haction]
    unfold plannedComponent
    simp only [if_neg haction]
    exact Iff.rfl

/-- **A dispatch that has the database to itself** does what the transaction
taken as one step does, for some readings of the clock. -/
theorem dispatch_yields {approvalId : String}
    (h : Yields execStatement (dispatchApprovedComponentAction approvalId) s r s') :
    ∃ clock, r = .ok (s.dispatchApprovedComponentAction approvalId clock).1
      ∧ s' = (s.dispatchApprovedComponentAction approvalId clock).2 := by
  -- The statements run alone, so each guard decides as it does in the one transaction.
  unfold dispatchApprovedComponentAction at h
  rw [yields_sql_bind] at h
  unfold Store.dispatchApprovedComponentAction
  simp only [execStatement] at h
  cases hfound : s.approvals.find? approvalId with
  | none =>
    rw [hfound] at h
    exact ⟨fun _ => 0, h⟩
  | some approval =>
    rw [hfound] at h
    simp only at h ⊢
    by_cases hstatus : approval.status ≠ .approved
    · rw [if_pos hstatus] at h
      simp only [if_pos hstatus]
      exact ⟨fun _ => 0, h⟩
    rw [if_neg hstatus] at h
    simp only [if_neg hstatus]
    by_cases hkind : ¬ approval.isComponentAction = true
    · rw [if_pos hkind] at h
      simp only [if_pos hkind]
      exact ⟨fun _ => 0, h⟩
    rw [if_neg hkind, yields_sql_bind] at h
    simp only [if_neg hkind, execStatement] at h ⊢
    cases hrun : s.componentRuns.find? approval.subjectId with
    | none =>
      rw [hrun] at h
      exact ⟨fun _ => 0, h⟩
    | some run =>
      rw [hrun] at h
      simp only at h ⊢
      by_cases hrecorded : run.status = "state_recorded"
      · rw [if_pos hrecorded] at h
        simp only [if_pos hrecorded]
        exact ⟨fun _ => 0, h⟩
      rw [if_neg hrecorded] at h
      simp only [if_neg hrecorded]
      unfold dispatchComponentRun at h
      by_cases hmismatch : componentMismatches approval run ≠ []
      -- A refusal reads the clock once, for the event it records.
      · rw [if_pos hmismatch] at h
        obtain ⟨now, h⟩ := yields_failure h
        simp only [if_pos hmismatch]
        exact ⟨fun _ => now, h⟩
      rw [if_neg hmismatch] at h
      simp only [if_neg hmismatch]
      by_cases hpending : run.status ≠ "pending_approval"
      · rw [if_pos hpending] at h
        obtain ⟨now, h⟩ := yields_failure h
        simp only [if_pos hpending]
        exact ⟨fun _ => now, h⟩
      rw [if_neg hpending] at h
      simp only [if_neg hpending]
      by_cases haction : componentAction approval run ∉ ["apply", "uninstall"]
      · rw [if_pos haction] at h
        obtain ⟨now, h⟩ := yields_failure h
        simp only [if_pos haction]
        exact ⟨fun _ => now, h⟩
      rw [if_neg haction] at h
      simp only [if_neg haction]
      unfold recordComponentState at h
      rw [existingComponent_bind approval run (componentAction approval run)
        (fun component => do
          sql (.upsertNodeComponent component)
          let completedAt ← utcNow
          let recorded := recordState approval completedAt run
          let updated ← sql (.updateRun recorded)
          if updated = 0 then sql (.selectRun run.runId)
          else
            let now ← utcNow
            sql (.insertAuditEvent
              (stateRecordedEvent approval run (componentAction approval run) now))
            return some recorded), yields_sql_bind, yields_utcNow_bind] at h
      obtain ⟨completedAt, h⟩ := h
      have hcount : ∀ component, (execStatement (.updateRun (recordState approval completedAt run))
          (execStatement (.upsertNodeComponent component) s).2).1 ≠ 0 :=
        fun _ => updateRun_found hrun hrecorded rfl
      rw [yields_sql_bind, if_neg (hcount _), yields_utcNow_bind] at h
      obtain ⟨now, h⟩ := h
      -- Two readings: the first completes the run, the second stamps the event.
      exact ⟨fun n => if n = 0 then completedAt else now, h⟩

end Alone

end Hmn.Components
