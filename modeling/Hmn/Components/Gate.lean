/-
  Hmn.Components.Gate — which component runs a dispatch records.

  `Gate` says, in the words of the approval and the run alone, when a run may
  be recorded.  A dispatch records the run exactly then; otherwise it leaves
  runs and components alone and says why in the audit log.

  Main results: `component_dispatch` — in every interleaving of the
  statements of any number of dispatches, the store is what the dispatches
  leave one after the other, each as `DispatchSpec` says;
  `component_dispatch_masked` — an empty detail is taken for a missing one.
-/
import Hmn.Components.Dispatch

namespace Hmn.Components

open Framework Store

/-! ## §1. The gate. -/

/-- What an approval must say of a run.  A detail that is absent, or empty,
says nothing: an empty text stands for a missing component or node. -/
structure Gate (approval : ApprovalRequest) (run : ComponentRun) : Prop where
  approved : approval.status = .approved
  kind : approval.isComponentAction = true
  subject : approval.subjectId = run.runId
  pending : run.status = "pending_approval"
  componentId : (approval.details.text? "component_id").getD "" = run.componentId
  nodeId : (approval.details.text? "node_id").getD "" = run.nodeId
  runId : ∀ text, approval.details.text? "run_id" = some text → text = run.runId
  action : ∀ text, approval.details.text? "action" = some text → text = run.action
  risk : approval.risk = run.risk
  suffix : approval.action = "component." ++ run.action
  dispatchable : run.action = "apply" ∨ run.action = "uninstall"

section Checks

variable {approval : ApprovalRequest} {run : ComponentRun}

theorem getD_eq_iff (text : Option String) (value : String) :
    text.getD value = value ↔ ∀ t, text = some t → t = value := by
  cases text with
  | none => simp
  | some t => simp

theorem componentMismatches_nil : componentMismatches approval run = [] ↔
    Text.removePrefix approval.action "component." = run.action
    ∧ approval.details.getStr "run_id" approval.subjectId = run.runId
    ∧ approval.details.getStr "component_id" "" = run.componentId
    ∧ approval.details.getStr "node_id" "" = run.nodeId
    ∧ componentAction approval run = run.action ∧ approval.risk = run.risk := by
  unfold componentMismatches
  simp [List.filter_eq_nil_iff]

/-- An action that agrees with the run's is the run's. -/
theorem componentAction_eq_iff
    (hsuffix : Text.removePrefix approval.action "component." = run.action) :
    componentAction approval run = run.action
      ↔ ∀ text, approval.details.text? "action" = some text → text = run.action := by
  unfold componentAction
  simp only [hsuffix, ite_self, Dict.getStr_eq]
  exact getD_eq_iff _ _

/-- **The checks of the source are the gate.** -/
theorem gate_iff (happroved : approval.status = .approved)
    (hkind : approval.isComponentAction = true) (hsubject : approval.subjectId = run.runId) :
    Gate approval run ↔ componentMismatches approval run = [] ∧ run.status = "pending_approval"
      ∧ componentAction approval run ∈ ["apply", "uninstall"] := by
  have hstarts : Text.startsWith approval.action "component." = true := by
    unfold ApprovalRequest.isComponentAction at hkind
    exact (Bool.and_eq_true_iff.mp hkind).2
  rw [componentMismatches_nil]
  constructor
  · intro h
    have hsuffix := (Text.removePrefix_eq_iff hstarts).mpr h.suffix
    have haction := (componentAction_eq_iff hsuffix).mpr h.action
    refine ⟨⟨hsuffix, ?_, ?_, ?_, haction, h.risk⟩, h.pending, ?_⟩
    · rw [hsubject, Dict.getStr_eq, getD_eq_iff]
      exact h.runId
    · rw [Dict.getStr_eq, h.componentId]
    · rw [Dict.getStr_eq, h.nodeId]
    · rw [haction]
      simpa using h.dispatchable
  · rintro ⟨⟨hsuffix, hrun, hcomponent, hnode, haction, hrisk⟩, hpending, hdispatchable⟩
    rw [hsubject, Dict.getStr_eq, getD_eq_iff] at hrun
    rw [Dict.getStr_eq] at hcomponent hnode
    exact {
      approved := happroved
      kind := hkind
      subject := hsubject
      pending := hpending
      componentId := hcomponent
      nodeId := hnode
      runId := hrun
      action := (componentAction_eq_iff hsuffix).mp haction
      risk := hrisk
      suffix := (Text.removePrefix_eq_iff hstarts).mp hsuffix
      dispatchable := by simpa [haction] using hdispatchable }

end Checks

/-! ## §2. What a dispatch does. -/

/-- The store after a dispatch that recorded a run. -/
def recordedStore (s : Store) (approval : ApprovalRequest) (run : ComponentRun)
    (clock : Nat → Timestamp) : Store :=
  { s with
    nodeComponents := s.nodeComponents.upsert (plannedComponent
      (s.nodeComponents.find? (run.nodeId, run.componentId)) approval run run.action)
    componentRuns := s.componentRuns.update
      (fun r => r.runId = run.runId ∧ r.status ≠ "state_recorded")
      (writeRun (recordState approval (clock 0) run))
      (writeRun_runId (recordState approval (clock 0) run))
    audit := s.audit ++ [stateRecordedEvent approval run run.action (clock 1)] }

/-- The four ways a dispatch ends. -/
inductive Dispatched (s : Store) (approvalId : String) (clock : Nat → Timestamp) :
    Option ComponentRun → Store → Prop
  /-- There is no approved component approval, or it names no run. -/
  | idle (hnone : ∀ approval, s.approvals.find? approvalId = some approval →
      approval.status = .approved → approval.isComponentAction = true →
      s.componentRuns.find? approval.subjectId = none) : Dispatched s approvalId clock none s
  | again (approval : ApprovalRequest) (run : ComponentRun)
      (hfound : s.approvals.find? approvalId = some approval)
      (hrun : s.componentRuns.find? approval.subjectId = some run)
      (hrecorded : run.status = "state_recorded") : Dispatched s approvalId clock (some run) s
  | refused (approval : ApprovalRequest) (run : ComponentRun) (reason : String) (details : Dict)
      (hfound : s.approvals.find? approvalId = some approval)
      (hrun : s.componentRuns.find? approval.subjectId = some run)
      (hopen : run.status ≠ "state_recorded") (hgate : ¬ Gate approval run) :
      Dispatched s approvalId clock none
        (s.addAudit (componentDispatchFailure approval reason details (clock 0)))
  | recorded (approval : ApprovalRequest) (run : ComponentRun)
      (hfound : s.approvals.find? approvalId = some approval)
      (hrun : s.componentRuns.find? approval.subjectId = some run) (hgate : Gate approval run) :
      Dispatched s approvalId clock (some (recordState approval (clock 0) run))
        (recordedStore s approval run clock)

/-- **What one dispatch does**, said once. -/
theorem dispatched (s : Store) (approvalId : String) (clock : Nat → Timestamp) :
    Dispatched s approvalId clock (s.dispatchApprovedComponentAction approvalId clock).1
      (s.dispatchApprovedComponentAction approvalId clock).2 := by
  unfold Store.dispatchApprovedComponentAction
  cases hfound : s.approvals.find? approvalId with
  | none => exact .idle (fun approval h => by rw [hfound] at h; cases h)
  | some approval =>
    simp only
    -- whatever another approval would say, this is the one that was found
    have hsame : ∀ a, s.approvals.find? approvalId = some a → a = approval := by
      intro a ha
      rw [hfound] at ha
      exact (Option.some.inj ha).symm
    by_cases hstatus : approval.status ≠ .approved
    · rw [if_pos hstatus]
      exact .idle (fun a ha happroved _ => absurd (hsame a ha ▸ happroved) hstatus)
    rw [if_neg hstatus]
    by_cases hkind : ¬ approval.isComponentAction = true
    · rw [if_pos hkind]
      exact .idle (fun a ha _ hcomponent => absurd (hsame a ha ▸ hcomponent) hkind)
    rw [if_neg hkind]
    cases hrun : s.componentRuns.find? approval.subjectId with
    | none => exact .idle (fun a ha _ _ => hsame a ha ▸ hrun)
    | some run =>
      simp only
      by_cases hrecorded : run.status = "state_recorded"
      · rw [if_pos hrecorded]
        exact .again approval run hfound hrun hrecorded
      rw [if_neg hrecorded]
      have hgate : Gate approval run ↔ _ :=
        gate_iff (not_not.mp hstatus) (not_not.mp hkind) (Table.key_of_find? hrun).symm
      by_cases hmismatch : componentMismatches approval run ≠ []
      · rw [if_pos hmismatch]
        exact .refused approval run _ _ hfound hrun hrecorded
          (fun h => hmismatch (hgate.mp h).1)
      rw [if_neg hmismatch]
      by_cases hpending : run.status ≠ "pending_approval"
      · rw [if_pos hpending]
        exact .refused approval run _ _ hfound hrun hrecorded
          (fun h => hpending (hgate.mp h).2.1)
      rw [if_neg hpending]
      by_cases haction : componentAction approval run ∉ ["apply", "uninstall"]
      · rw [if_pos haction]
        exact .refused approval run _ _ hfound hrun hrecorded
          (fun h => haction (hgate.mp h).2.2)
      rw [if_neg haction]
      have hsame : componentAction approval run = run.action :=
        (componentMismatches_nil.mp (not_not.mp hmismatch)).2.2.2.2.1
      have hopen : Gate approval run :=
        hgate.mpr ⟨not_not.mp hmismatch, not_not.mp hpending, not_not.mp haction⟩
      simp only [hsame]
      exact .recorded approval run hfound hrun hopen

/-- What a dispatch may do to the runs, the components and the audit log. -/
structure DispatchSpec (s : Store) (approvalId : String) (answer : Option ComponentRun)
    (s' : Store) : Prop where
  /-- A recorded run was recorded before, or it passed the gate now and its
  component is in the state the run asks for. -/
  gated : ∀ runId after, s'.componentRuns.find? runId = some after →
    after.status = "state_recorded" → s.componentRuns.find? runId = some after
      ∨ ∃ before approval component, s.componentRuns.find? runId = some before
        ∧ before.status = "pending_approval" ∧ s.approvals.find? approvalId = some approval
        ∧ Gate approval before
        ∧ s'.nodeComponents.find? (before.nodeId, before.componentId) = some component
        ∧ component.desiredState = (if before.action = "apply" then "enabled" else "absent")
        ∧ component.lastRunId = runId
  /-- Behind the gate the run is recorded. -/
  recorded : ∀ approval run, s.approvals.find? approvalId = some approval →
    s.componentRuns.find? approval.subjectId = some run → Gate approval run →
    ∃ after, s'.componentRuns.find? run.runId = some after ∧ after.status = "state_recorded"
  /-- Before the gate there is one failure event and nothing else. -/
  refused : ∀ approval run, s.approvals.find? approvalId = some approval →
    approval.status = .approved → approval.isComponentAction = true →
    s.componentRuns.find? approval.subjectId = some run → run.status ≠ "state_recorded" →
    ¬ Gate approval run → answer = none ∧ ∃ event, s' = s.addAudit event
      ∧ event.eventType = "approval" ∧ event.subjectId = approvalId
      ∧ event.action = "approval/dispatch" ∧ event.outcome = "failed"
  again : ∀ approval run, s.approvals.find? approvalId = some approval →
    s.componentRuns.find? approval.subjectId = some run → run.status = "state_recorded" → s' = s
  /-- A dispatch that answers with a run leaves it recorded. -/
  answered : ∀ run, answer = some run → ∃ approval after,
    s'.approvals.find? approvalId = some approval
      ∧ s'.componentRuns.find? approval.subjectId = some after ∧ after.status = "state_recorded"
  keeps : ∀ runId run, s.componentRuns.find? runId = some run →
    run.status = "state_recorded" → s'.componentRuns.find? runId = some run
  approvals : s'.approvals = s.approvals

section Spec

variable {s s' : Store} {approvalId : String} {clock : Nat → Timestamp}
  {answer : Option ComponentRun} {approval : ApprovalRequest} {run : ComponentRun}

/-- What every look-up of a run sees after one was recorded. -/
theorem find?_recordedStore (hrun : s.componentRuns.find? approval.subjectId = some run)
    (hopen : run.status ≠ "state_recorded") (runId : String) :
    (recordedStore s approval run clock).componentRuns.find? runId
      = if runId = approval.subjectId then
          some (writeRun (recordState approval (clock 0) run) run)
        else s.componentRuns.find? runId := by
  have hkey : run.runId = approval.subjectId := Table.key_of_find? hrun
  unfold recordedStore
  rw [Table.find?_update]
  by_cases hid : runId = approval.subjectId
  · subst hid
    simp [hrun, hopen]
  · rw [if_neg hid]
    cases hrow : s.componentRuns.find? runId with
    | none => rfl
    | some r =>
      have hr : r.runId = runId := Table.key_of_find? hrow
      simp [hr, hkey, hid]

/-- What is left unchanged of the runs. -/
theorem spec_of_same (hruns : s'.componentRuns = s.componentRuns)
    (happrovals : s'.approvals = s.approvals)
    (hrecorded : ∀ approval run, s.approvals.find? approvalId = some approval →
      s.componentRuns.find? approval.subjectId = some run → ¬ Gate approval run)
    (hrefused : ∀ approval run, s.approvals.find? approvalId = some approval →
      approval.status = .approved → approval.isComponentAction = true →
      s.componentRuns.find? approval.subjectId = some run → run.status ≠ "state_recorded" →
      answer = none ∧ ∃ event, s' = s.addAudit event ∧ event.eventType = "approval"
        ∧ event.subjectId = approvalId ∧ event.action = "approval/dispatch"
        ∧ event.outcome = "failed")
    (hagain : ∀ approval run, s.approvals.find? approvalId = some approval →
      s.componentRuns.find? approval.subjectId = some run → run.status = "state_recorded" → s' = s)
    (hanswered : ∀ run, answer = some run → ∃ approval after,
      s.approvals.find? approvalId = some approval
        ∧ s.componentRuns.find? approval.subjectId = some after
        ∧ after.status = "state_recorded") :
    DispatchSpec s approvalId answer s' where
  gated runId after hafter _ := Or.inl (hruns ▸ hafter)
  recorded approval run hfound hrun hgate := absurd hgate (hrecorded approval run hfound hrun)
  refused approval run hfound happroved hkind hrun hopen _ :=
    hrefused approval run hfound happroved hkind hrun hopen
  again := hagain
  answered run hrun := by
    rw [hruns, happrovals]
    exact hanswered run hrun
  keeps runId run hrun _ := hruns ▸ hrun
  approvals := happrovals

/-- Two look-ups of one row. -/
theorem found_unique {κ ρ : Type} [DecidableEq κ] {key : ρ → κ} {t : Table key} {k : κ} {x y : ρ}
    (hx : t.find? k = some x) (hy : t.find? k = some y) : y = x := by
  rw [hx] at hy
  exact (Option.some.inj hy).symm

theorem Gate.open (h : Gate approval run) : run.status ≠ "state_recorded" := by
  rw [h.pending]
  decide

theorem dispatchSpec_recorded (hfound : s.approvals.find? approvalId = some approval)
    (hrun : s.componentRuns.find? approval.subjectId = some run) (hgate : Gate approval run) :
    DispatchSpec s approvalId (some (recordState approval (clock 0) run))
      (recordedStore s approval run clock) := by
  have hfind := @find?_recordedStore _ clock _ _ hrun hgate.open
  have hkey : run.runId = approval.subjectId := hgate.subject.symm
  constructor
  case gated =>
    intro runId after hafter hstatus
    rw [hfind runId] at hafter
    by_cases hid : runId = approval.subjectId
    · refine Or.inr ⟨run, approval, _, hid ▸ hrun, hgate.pending, hfound, hgate,
        Table.find?_upsert_self _ _, ?_, hkey.trans hid.symm⟩
      rcases hgate.dispatchable with haction | haction <;> simp [plannedComponent, haction]
    · rw [if_neg hid] at hafter
      exact Or.inl hafter
  case recorded =>
    intro a r hfound' hrun' _
    obtain rfl := found_unique hfound hfound'
    obtain rfl := found_unique hrun hrun'
    exact ⟨_, (hfind _).trans (if_pos hkey), rfl⟩
  case refused =>
    intro a r hfound' _ _ hrun' _ hnot
    obtain rfl := found_unique hfound hfound'
    obtain rfl := found_unique hrun hrun'
    exact absurd hgate hnot
  case again =>
    intro a r hfound' hrun' hrecorded
    obtain rfl := found_unique hfound hfound'
    obtain rfl := found_unique hrun hrun'
    exact absurd hrecorded hgate.open
  case answered =>
    intro r _
    exact ⟨approval, _, hfound, (hfind _).trans (if_pos rfl), rfl⟩
  case keeps =>
    intro runId r hr hrecorded
    rw [hfind runId, if_neg (fun hid => ?_)]
    · exact hr
    · subst hid
      obtain rfl := found_unique hrun hr
      exact hgate.open hrecorded
  case approvals => rfl

/-- **Every dispatch meets the specification.** -/
theorem dispatchSpec (h : Dispatched s approvalId clock answer s') :
    DispatchSpec s approvalId answer s' := by
  cases h with
  | idle hnone =>
    refine spec_of_same rfl rfl (fun a r hfound hrun hgate => ?_)
      (fun a r hfound happroved hkind hrun _ => ?_) (fun _ _ _ _ _ => rfl) nofun
    · have hbad := hnone a hfound hgate.approved hgate.kind
      rw [hrun] at hbad
      cases hbad
    · have hbad := hnone a hfound happroved hkind
      rw [hrun] at hbad
      cases hbad
  | again a r hfound hrun hrecorded =>
    refine spec_of_same rfl rfl (fun a' r' hfound' hrun' hgate => ?_)
      (fun a' r' hfound' _ _ hrun' hopen => ?_) (fun _ _ _ _ _ => rfl)
      (fun _ _ => ⟨a, r, hfound, hrun, hrecorded⟩)
    · obtain rfl := found_unique hfound hfound'
      obtain rfl := found_unique hrun hrun'
      exact hgate.open hrecorded
    · obtain rfl := found_unique hfound hfound'
      obtain rfl := found_unique hrun hrun'
      exact absurd hrecorded hopen
  | refused a r reason details hfound hrun hopen hnot =>
    have hid : a.approvalId = approvalId := Table.key_of_find? hfound
    refine spec_of_same rfl rfl (fun a' r' hfound' hrun' hgate => ?_)
      (fun a' r' hfound' _ _ hrun' _ => ?_) (fun a' r' hfound' hrun' hrecorded => ?_) nofun
    · obtain rfl := found_unique hfound hfound'
      obtain rfl := found_unique hrun hrun'
      exact hnot hgate
    · obtain rfl := found_unique hfound hfound'
      exact ⟨rfl, _, rfl, rfl, hid, rfl, rfl⟩
    · obtain rfl := found_unique hfound hfound'
      obtain rfl := found_unique hrun hrun'
      exact absurd hrecorded hopen
  | recorded a r hfound hrun hgate => exact dispatchSpec_recorded hfound hrun hgate

end Spec

/-! ## §3. Dispatches at the same time. -/

section Runs

variable {ι : Type}

/-- The state of the run that an approval names is recorded. -/
def IsRecorded (approvalId : String) (s : Store) : Prop :=
  ∃ approval run, s.approvals.find? approvalId = some approval
    ∧ s.componentRuns.find? approval.subjectId = some run ∧ run.status = "state_recorded"

/-- What later dispatches do once the run of an approval is recorded. -/
theorem recorded_stays {ids : ι → String} {approvalId : String} {log : List (ι × Option ComponentRun)}
    {s s' : Store} (h : Serial (fun i answer s s' => DispatchSpec s (ids i) answer s') s log s')
    (hrecorded : IsRecorded approvalId s) :
    Serial (fun i answer s s' => DispatchSpec s (ids i) answer s'
      ∧ (ids i = approvalId → s' = s)) s log s' := by
  refine (Serial.keeps (IsRecorded approvalId) ?_ log h hrecorded).1
  rintro i answer s s' ⟨approval, run, hfound, hrun, hstatus⟩ hspec
  refine ⟨⟨hspec, fun hid => ?_⟩, approval, run, ?_, hspec.keeps _ _ hrun hstatus, hstatus⟩
  · exact hspec.again approval run (hid ▸ hfound) hrun hstatus
  · rw [hspec.approvals]
    exact hfound

/-- **Dispatches at the same time.**  In every interleaving of the statements
of any number of dispatches the store is what some of them, each once, leave
one after the other as `DispatchSpec` says, and those that returned are among
them.  Once a dispatch answered with a run, every later one of the same
approval changes nothing. -/
theorem component_dispatch [DecidableEq ι] (now : Nat → Timestamp) (ids : ι → String)
    (w : TxWorld Store Nat) (hidle : w.journal.writer = none) (sched : List ι) :
    ∃ log : List (ι × Option ComponentRun), (log.map Prod.fst).Nodup
      ∧ Serial (fun i answer s s' => DispatchSpec s (ids i) answer s') w.journal.committed log
          ((txCallers databaseIsLocked (fun i => dispatchApprovedComponentAction (ids i)) w).run
            (execTx execStatement (execClock now)) sched).shared.journal.committed
      ∧ (∀ i answer,
          ((txCallers databaseIsLocked (fun i => dispatchApprovedComponentAction (ids i)) w).run
            (execTx execStatement (execClock now)) sched).callers i = .ret answer →
          (i, answer) ∈ log)
      ∧ ∀ pre i run post, log = pre ++ (i, some run) :: post →
          ∃ s, Serial (fun i answer s s' => DispatchSpec s (ids i) answer s')
              w.journal.committed (pre ++ [(i, some run)]) s
            ∧ Serial (fun j answer s s' => DispatchSpec s (ids j) answer s'
                ∧ (ids j = ids i → s' = s)) s post
              ((txCallers databaseIsLocked (fun i => dispatchApprovedComponentAction (ids i)) w).run
                (execTx execStatement (execClock now)) sched).shared.journal.committed := by
  obtain ⟨log, hnodup, hserial, hanswers⟩ := immediate_serializable execStatement (execClock now)
    databaseIsLocked (fun i => dispatchApprovedComponentAction (ids i)) w hidle sched
  have hspec : Serial (fun i answer s s' => DispatchSpec s (ids i) answer s')
      w.journal.committed log _ := hserial.mono (fun i answer s s' hyields => by
    obtain ⟨clock, hanswer, rfl⟩ := dispatch_yields hyields
    obtain rfl := Except.ok.inj hanswer
    exact dispatchSpec (dispatched s (ids i) clock))
  refine ⟨log, hnodup, hspec, hanswers, ?_⟩
  rintro pre i run post rfl
  rw [List.append_cons, serial_append] at hspec
  obtain ⟨s, hpre, hpost⟩ := hspec
  refine ⟨s, hpre, recorded_stays hpost ?_⟩
  obtain ⟨s₀, -, s₁, hlast, rfl⟩ := (serial_append pre _ _ _).mp hpre
  exact hlast.answered run rfl

end Runs

/-- A run that waits for its approval. -/
def waitingRun (componentId nodeId : String) : ComponentRun where
  runId := "run-1"
  componentId := componentId
  nodeId := nodeId
  action := "apply"
  risk := "medium"
  status := "pending_approval"
  plan := []
  result := []
  createdBy := "owner"
  createdAt := 0

/-- An approval of that run. -/
def approvalOf (details : Dict) : ApprovalRequest where
  approvalId := "appr-1"
  subjectType := "component_run"
  subjectId := "run-1"
  action := "component.apply"
  risk := "medium"
  status := .approved
  requestedBy := "owner"
  details := details
  createdAt := 0

/-- A store with one run and one approval. -/
def waitingStore (details : Dict) (componentId nodeId : String) : Store :=
  { Store.empty with
    approvals := .single (approvalOf details)
    componentRuns := .single (waitingRun componentId nodeId) }

/-- Two dispatches of one approval; the second one asks for the lock while the
first one has it. -/
theorem component_dispatch_twice :
    let start := waitingStore [("component_id", .str "dns"), ("node_id", .str "node-1")] "dns" "node-1"
    ∃ log : List (Bool × Option ComponentRun), (log.map Prod.fst).Nodup
      ∧ Serial (fun _ answer s s' => DispatchSpec s "appr-1" answer s') start log
          ((txCallers databaseIsLocked (fun _ => dispatchApprovedComponentAction "appr-1")
            ⟨⟨start, none⟩, 0, 0⟩).run (execTx execStatement (execClock fun _ => 0))
            (List.replicate 3 true ++ List.replicate 3 false
              ++ List.replicate 8 true)).shared.journal.committed := by
  obtain ⟨log, hnodup, hserial, -⟩ := component_dispatch (fun _ => 0) (fun _ : Bool => "appr-1")
    ⟨⟨waitingStore [("component_id", .str "dns"), ("node_id", .str "node-1")] "dns" "node-1", none⟩,
      0, 0⟩ rfl (List.replicate 3 true ++ List.replicate 3 false ++ List.replicate 8 true)
  exact ⟨log, hnodup, hserial⟩

/-- **An empty detail is taken for a missing one**: a run is recorded although
the approval's details carry another run identifier, an empty one; and so is a
run without a component and a node when the details carry neither. -/
theorem component_dispatch_masked :
    (((waitingStore [("run_id", .str ""), ("component_id", .str "dns"), ("node_id", .str "node-1")]
          "dns" "node-1").dispatchApprovedComponentAction "appr-1" fun _ => 0).2.componentRuns.find?
        "run-1").map ComponentRun.status = some "state_recorded"
    ∧ (¬ ∀ value, Dict.get? [("run_id", .str ""), ("component_id", .str "dns"),
          ("node_id", .str "node-1")] "run_id" = some value → value = .str "run-1")
    ∧ (((waitingStore [] "" "").dispatchApprovedComponentAction "appr-1"
          fun _ => 0).2.componentRuns.find? "run-1").map ComponentRun.status = some "state_recorded"
    ∧ Dict.get? [] "component_id" ≠ some (.str "") :=
  ⟨by decide +kernel, fun h => absurd (h (.str "") rfl) (by decide), by decide +kernel, nofun⟩

end Hmn.Components
