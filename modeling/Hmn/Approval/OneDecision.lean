/-
  Hmn.Approval.OneDecision — a decision on an approval is final.

  Every front end checks that the request is pending, and so does
  `resolveApprovalRequest`, but the check and the save are separate
  transactions and the save is unconditional.  Deciding is a one-shot
  right: the save of a decided row grabs it, the audit event
  `approval/approved` or `approval/rejected` uses it.

  Main results: `decision_is_final` — in every interleaving in which every
  save finds the stored row pending, the first decision stands, has one
  audit event, and a rejected request has no task;
  `approve_and_reject_race` — an interleaving in which both deciders win.
-/
import Hmn.Approval.Discipline
import Hmn.Approval.OneTask

namespace Hmn

open Framework Py

/-! ## §1. Decisions and decision events. -/

/-- The stored row of the approval. -/
def stored (approvalId : String) (w : World) : Option ApprovalRequest :=
  w.store.approvals.find? approvalId

/-- The event that a decision on the approval was made. -/
def isDecisionEvent (approvalId : String) (e : AuditEvent) : Bool :=
  e.eventType = "approval" && e.subjectId = approvalId
    && (e.action = "approval/approved" || e.action = "approval/rejected")

/-- The decision events of the approval in the audit log. -/
def decisionEvents (approvalId : String) (w : World) : List AuditEvent :=
  w.store.audit.filter (isDecisionEvent approvalId)

/-- The call records a decision on the approval. -/
def recordsDecision (approvalId : String) : Call → Bool
  | .recordAudit eventType _ subjectId action _ _ =>
      eventType = "approval" && subjectId = approvalId
        && (action = "approval/approved" || action = "approval/rejected")
  | _ => false

/-- The condition on a run: a row of the approval is saved only while the
stored status is `pending`. -/
def SavesPending {ι : Type} (approvalId : String) (_ : ι) (w : World) : Call → Prop
  | .saveApprovalRequest a => a.approvalId = approvalId →
      (stored approvalId w).map ApprovalRequest.status = some .pending
  | _ => True

instance {ι : Type} (approvalId : String) (i : ι) (w : World) (op : Call) :
    Decidable (SavesPending approvalId i w op) := by
  apply Call.casesOn (motive := fun op => Decidable (SavesPending approvalId i w op)) op <;>
    intros <;> dsimp only [SavesPending] <;> infer_instance

/-- A caller stands between its save and its audit transaction. -/
def AboutToRecord (approvalId : String) (p : Py Unit) : Prop :=
  ∃ op, p.next? = some op ∧ recordsDecision approvalId op = true

/-- What is final about a decision. -/
def decision (a : ApprovalRequest) : ApprovalStatus × String × Option Timestamp :=
  (a.status, a.decidedBy, a.decidedAt)

/-! ## §2. One call. -/

section Call

variable {env : Env} {approvalId : String} {w : World} {op : Call}

/-- A call that does not save the row keeps the decision in it. -/
theorem exec_keeps_decision
    (h : ∀ a, op = .saveApprovalRequest a → a.approvalId ≠ approvalId) :
    (stored approvalId (exec env op w).2).map decision = (stored approvalId w).map decision := by
  unfold stored
  cases hw : op.writesApprovals with
  | false => rw [exec_approvals hw]
  | true =>
    cases op with
    | saveApprovalRequest row =>
      simp [exec, Table.find?_upsert_of_ne _ (h row rfl)]
    | dispatchApprovedTaskRequest id =>
      exact w.store.dispatch_keeps_decision id (env.uuid w.uuids) (w.reading env) approvalId
    | _ => simp [Call.writesApprovals] at hw

theorem status_of_decision {o o' : Option ApprovalRequest}
    (h : o.map decision = o'.map decision) :
    o.map ApprovalRequest.status = o'.map ApprovalRequest.status := by
  have := congrArg (Option.map Prod.fst) h
  simpa [Option.map_map, Function.comp_def, decision] using this

/-- What a call adds to the decision events. -/
theorem decisionEvents_exec (env : Env) (approvalId : String) (w : World) (op : Call) :
    (decisionEvents approvalId (exec env op w).2).length
      = (decisionEvents approvalId w).length + (recordsDecision approvalId op).toNat := by
  have happend : ∀ (es : List AuditEvent), (∀ e ∈ es, isDecisionEvent approvalId e = false) →
      (w.store.audit ++ es).filter (isDecisionEvent approvalId)
        = w.store.audit.filter (isDecisionEvent approvalId) := by
    intro es hes
    have hnil : es.filter (isDecisionEvent approvalId) = [] :=
      List.filter_eq_nil_iff.mpr (fun e he => by simp [hes e he])
    rw [List.filter_append, hnil, List.append_nil]
  unfold decisionEvents
  cases hw : op.writesAudit with
  | false =>
    rw [exec_audit hw]
    cases op <;> simp_all [recordsDecision, Call.writesAudit]
  | true =>
    cases op with
    | recordAudit eventType subjectType subjectId action outcome details =>
      have hone : ∀ e : AuditEvent, ([e].filter (isDecisionEvent approvalId)).length
          = (isDecisionEvent approvalId e).toNat := by
        intro e
        cases h : isDecisionEvent approvalId e <;> simp [h]
      simp only [exec, World.after_store, Store.addAudit, List.filter_append, List.length_append,
        hone]
      rfl
    | dispatchApprovedTaskRequest id =>
      rcases w.store.dispatch_cases id (env.uuid w.uuids) (w.reading env) with
        ⟨approval, tasks, -, heq⟩ | ⟨r, es, heq, hes⟩
      · simp only [exec, World.after_store, heq, Store.dispatchedStore, recordsDecision]
        rw [happend _ (by simp [isDecisionEvent, Store.taskCreateEvent, Store.dispatchEvent])]
        simp
      · simp only [exec, World.after_store, heq, recordsDecision]
        rw [happend es (fun e he => by simp [isDecisionEvent, hes e he])]
        simp
    | dispatchApprovedComponentAction id =>
      obtain ⟨runs, components, es, heq, hes⟩ :=
        w.store.componentAction_frame id (w.reading env)
      simp only [exec, World.after_store, heq, recordsDecision]
      rw [happend es (fun e he => by
        rcases hes e he with h | h <;> simp [isDecisionEvent, h])]
      simp
    | claimNextTask nodeId executor lease =>
      simp only [exec, World.after_store, recordsDecision]
      rcases w.store.claim_cases nodeId executor lease (w.reading env 0) with
        ⟨row, -, -, es, heq, hes⟩ | ⟨-, heq⟩
      · rw [heq, happend es (fun e he => by simp [isDecisionEvent, hes e he])]
        simp
      · rw [heq]
        simp
    | expireStuckTasks older =>
      obtain ⟨es, heq, hes⟩ := w.store.expire_spec older (w.reading env 0)
      simp only [exec, World.after_store, heq, recordsDecision]
      rw [happend es (fun e he => by simp [isDecisionEvent, hes e he])]
      simp
    | completeTask id code out err =>
      simp only [exec, World.after_store, recordsDecision]
      rcases w.store.complete_cases id code out err (w.reading env 0) with
        ⟨row, -, -, -, es, heq, hes⟩ | ⟨-, heq⟩
      · rw [heq, happend es (fun e he => by simp [isDecisionEvent, hes e he])]
        simp
      · rw [heq]
        simp
    | _ => simp [Call.writesAudit] at hw

end Call

/-! ## §3. Deciding as a one-shot right. -/

/-- An undecided or rejected row carries no mark. -/
def UnmarkedUnlessApproved (approvalId : String) (w : World) : Prop :=
  ∀ a, stored approvalId w = some a → a.status ≠ .approved → a.dispatched = false

/-- Every row of the approval that a caller saves is decided and carries no
mark. -/
def savesDecided (approvalId : String) : Call → Prop
  | .saveApprovalRequest a => a.approvalId = approvalId → a.status ≠ .pending ∧ a.dispatched = false
  | _ => True

/-- What a caller knows about a row it loaded. -/
def loadsUnmarked (approvalId : String) : (op : Call) → Call.Res op → Prop
  | .loadApprovalRequest id, r => ∀ a, r = some a →
      a.approvalId = id ∧ (id = approvalId → a.status ≠ .approved → a.dispatched = false)
  | _, _ => True

/-- The save of a row of the approval. -/
def savesRow (approvalId : String) : Call → Bool
  | .saveApprovalRequest a => a.approvalId = approvalId
  | _ => false

section Shot

variable {env : Env} {approvalId : String} {w : World} {op : Call}

theorem stored_save (a : ApprovalRequest) (h : a.approvalId = approvalId) :
    stored approvalId (exec env (.saveApprovalRequest a) w).2 = some a := by
  subst h
  simp [stored, exec]

/-- A call that is not a save of the row keeps the stored status. -/
theorem exec_keeps_status (h : savesRow approvalId op = false) :
    (stored approvalId (exec env op w).2).map ApprovalRequest.status
      = (stored approvalId w).map ApprovalRequest.status := by
  refine status_of_decision (exec_keeps_decision (fun a ha => ?_))
  subst ha
  simpa [savesRow] using h

theorem loadsUnmarked_exec (h : UnmarkedUnlessApproved approvalId w) :
    loadsUnmarked approvalId op (exec env op w).1 := by
  cases op with
  | loadApprovalRequest id =>
    intro a ha
    refine ⟨Table.key_of_find? ha, fun hid hstatus => h a ?_ hstatus⟩
    rw [← hid]
    exact ha
  | _ => trivial

theorem unmarked_exec (h : UnmarkedUnlessApproved approvalId w)
    (hop : savesDecided approvalId op) :
    UnmarkedUnlessApproved approvalId (exec env op w).2 := by
  intro a ha hstatus
  cases hw : op.writesApprovals with
  | false =>
    refine h a ?_ hstatus
    rwa [stored, exec_approvals hw] at ha
  | true =>
    cases op with
    | saveApprovalRequest row =>
      by_cases hid : row.approvalId = approvalId
      · rw [stored_save row hid] at ha
        cases ha
        exact (hop hid).2
      · refine h a ?_ hstatus
        simpa [stored, exec, Table.find?_upsert_of_ne _ hid] using ha
    | dispatchApprovedTaskRequest id =>
      rcases w.store.dispatch_cases id (env.uuid w.uuids) (w.reading env) with
        ⟨approval, tasks, hd, heq⟩ | ⟨r, es, heq, -⟩
      · simp only [stored, exec, World.after_store, heq, Store.find?_dispatched hd] at ha
        by_cases hid : approvalId = id
        · rw [if_pos hid] at ha
          cases ha
          exact absurd hd.approved hstatus
        · rw [if_neg hid] at ha
          exact h a ha hstatus
      · simp only [stored, exec, World.after_store, heq] at ha
        exact h a ha hstatus
    | _ => simp [Call.writesApprovals] at hw

/-- Deciding an approval: the gate is the stored status `pending`. -/
def decisionShot (env : Env) (approvalId : String) : OneShot callSig World Unit (exec env) where
  isOpen w := (stored approvalId w).map ApprovalRequest.status = some .pending
  inv := UnmarkedUnlessApproved approvalId
  ok := savesDecided approvalId
  sees := loadsUnmarked approvalId
  grabs := savesRow approvalId
  acts op := if recordsDecision approvalId op then some () else none
  free _ := False
  again := False
  strict := True
  answers h _ := loadsUnmarked_exec h
  keeps h hop _ := unmarked_exec h hop
  grab_closes := by
    intro w op _ hop hgrab
    cases op with
    | saveApprovalRequest a =>
      have hid : a.approvalId = approvalId := by simpa [savesRow] using hgrab
      rw [stored_save a hid]
      simpa using (hop hid).1
    | _ => simp [savesRow] at hgrab
  stays_closed := by
    intro w op _ hop hclosed
    cases hgrab : savesRow approvalId op with
    | false => rwa [exec_keeps_status hgrab]
    | true =>
      cases op with
      | saveApprovalRequest a =>
        have hid : a.approvalId = approvalId := by simpa [savesRow] using hgrab
        rw [stored_save a hid]
        simpa using (hop hid).1
      | _ => simp [savesRow] at hgrab
  stays_open _ _ _ hgrab hopen := by rwa [exec_keeps_status hgrab]

/-! ## §4. Every front end obeys the discipline. -/

/-- A caller that does not hold an unused right. -/
def Settled (h : Hold Unit) : Prop := h ≠ .armed

/-- Carrying out an approved request is possible for every settled caller
and leaves it what it holds. -/
theorem carriesOut_settled (env : Env) (approvalId : String) {h : Hold Unit} (hs : Settled h) {op : Call} (hop : op.carriesOut) :
    (decisionShot env approvalId).may h op ∧ (decisionShot env approvalId).after h op = h := by
  have hok : savesDecided approvalId op := by
    cases op with
    | saveApprovalRequest a => exact absurd hop id
    | _ => trivial
  have hgrab : savesRow approvalId op = false := by
    cases op with
    | saveApprovalRequest a => exact absurd hop id
    | _ => rfl
  have hact : recordsDecision approvalId op = false := by
    cases op with
    | recordAudit eventType subjectType subjectId action outcome details =>
      have hnet : eventType = "network" := hop
      simp [recordsDecision, hnet]
    | _ => rfl
  cases h with
  | outside => exact ⟨⟨hok, hgrab⟩, rfl⟩
  | idle => exact ⟨⟨hok, by simp [decisionShot, hact]⟩, by simp [OneShot.after, decisionShot, hgrab]⟩
  | armed => exact absurd rfl hs
  | fired x => exact ⟨⟨hok, hgrab, Or.inl (by simp [decisionShot, hact])⟩, rfl⟩

variable {α : Type}

theorem obeys_carriesOut {h : Hold Unit} (hs : Settled h) {p : Py α}
    (hp : p.Calls Call.carriesOut) :
    p.wp (decisionShot env approvalId).typestate (fun h' _ => Settled h')
      (fun h' _ => Settled h') h := by
  refine Prog.wp_of_calls (fun op hop => ?_) (fun _ => hs) (fun _ => hs) hp
  obtain ⟨hmay, hafter⟩ := carriesOut_settled env approvalId hs hop
  exact ⟨hmay, fun _ => hafter⟩

/-- The save, the audit event and the dispatches of a decision. -/
theorem decide_obeys (approval : ApprovalRequest) (status : Decision) (decidedBy : String)
    (now : Timestamp) {p : Py α} (hp : p.Calls Call.carriesOut)
    (hunmarked : approval.approvalId = approvalId → approval.dispatched = false) :
    (do
      call (.saveApprovalRequest (withDecision approval status decidedBy now))
      call (.recordAudit "approval" approval.subjectType approval.approvalId
        ("approval/" ++ status.status.text) status.status.text
        (decisionDetails approval decidedBy))
      p).wp (decisionShot env approvalId).typestate (fun h' _ => Settled h')
        (fun h' _ => Settled h') .idle := by
  have hok : savesDecided approvalId
      (.saveApprovalRequest (withDecision approval status decidedBy now)) :=
    fun hid => ⟨status.status_ne_pending, hunmarked hid⟩
  rw [call_bind, OneShot.wp_call]
  refine ⟨⟨hok, rfl⟩, fun _ _ => ?_⟩
  rw [call_bind, OneShot.wp_call]
  by_cases hid : approval.approvalId = approvalId
  · -- the save grabbed the right and the audit event uses it
    have hafter : (decisionShot env approvalId).after .idle
        (.saveApprovalRequest (withDecision approval status decidedBy now)) = .armed := by
      simp [OneShot.after, decisionShot, savesRow, withDecision, hid]
    have hrecord : recordsDecision approvalId (.recordAudit "approval" approval.subjectType
        approval.approvalId ("approval/" ++ status.status.text) status.status.text
        (decisionDetails approval decidedBy)) = true := by
      cases status <;> simp [recordsDecision, hid, Decision.status, ApprovalStatus.text]
    rw [hafter]
    refine ⟨⟨trivial, rfl, by simp [decisionShot, hrecord]⟩, fun _ _ => ?_⟩
    have hfired : (decisionShot env approvalId).after .armed (.recordAudit "approval"
        approval.subjectType approval.approvalId ("approval/" ++ status.status.text)
        status.status.text (decisionDetails approval decidedBy)) = .fired () := by
      simp [OneShot.after, decisionShot, hrecord]
    rw [hfired]
    exact obeys_carriesOut (by simp [Settled]) hp
  · -- a decision on another approval
    have hafter : (decisionShot env approvalId).after .idle
        (.saveApprovalRequest (withDecision approval status decidedBy now)) = .idle := by
      simp [OneShot.after, decisionShot, savesRow, withDecision, hid]
    have hrecord : recordsDecision approvalId (.recordAudit "approval" approval.subjectType
        approval.approvalId ("approval/" ++ status.status.text) status.status.text
        (decisionDetails approval decidedBy)) = false := by
      simp [recordsDecision, hid]
    rw [hafter]
    refine ⟨⟨trivial, by simp [decisionShot, hrecord]⟩, fun _ _ => ?_⟩
    have hidle : (decisionShot env approvalId).after .idle (.recordAudit "approval"
        approval.subjectType approval.approvalId ("approval/" ++ status.status.text)
        status.status.text (decisionDetails approval decidedBy)) = .idle := by
      simp [OneShot.after, decisionShot, savesRow]
    rw [hidle]
    exact obeys_carriesOut (by simp [Settled]) hp

/-- The one-shot right as a discipline of the front ends. -/
def decisionDiscipline (env : Env) (approvalId : String) : DecisionDiscipline where
  T := (decisionShot env approvalId).typestate
  settled := Settled
  start := .idle
  start_settled := by simp [Settled]
  carries hs hop := by
    obtain ⟨hmay, hafter⟩ := carriesOut_settled _ _ hs hop
    exact ⟨hmay, fun _ => hafter⟩
  decides hsees hpending hp := by
    obtain ⟨hid, hunmarked⟩ := hsees _ rfl
    exact decide_obeys _ _ _ _ hp (fun h => hunmarked (hid ▸ h) (by simp [hpending]))

end Shot

/-! ## §5. Every interleaving. -/

section Run

variable {ι : Type} [DecidableEq ι] {env : Env} {approvalId : String}

/-- The callers of a run of deciders. -/
def decisionCallers (callers : ι → DecisionCaller) (w : World) :
    Config ι callSig PyError Unit World :=
  ⟨w, fun i => (callers i).program⟩

/-- A decision stands in a run whose saves all find the row pending. -/
theorem decision_run (sched : List ι) (c : Config ι callSig PyError Unit World)
    {d : ApprovalStatus × String × Option Timestamp} (hd : d.1 ≠ .pending)
    (hc : (stored approvalId c.shared).map decision = some d)
    (hP : c.Respects (exec env) (SavesPending approvalId) sched) :
    (stored approvalId (c.run (exec env) sched).shared).map decision = some d := by
  refine Config.run_induct (f := fun (_ : Unit) _ _ _ => ())
    (fun c _ => (stored approvalId c.shared).map decision = some d) ?_ sched c () hc hP
  intro c _ i op k h hp hPi
  rw [Config.step_of_call hp]
  refine (exec_keeps_decision (fun a ha hid => ?_)).trans h
  subst ha
  have hpending := hPi hid
  obtain ⟨row, hrow, rfl⟩ := Option.map_eq_some_iff.mp h
  rw [hrow] at hpending
  exact hd (by simpa [decision] using hpending)

/-- The decision events of a run are the acts of the one-shot right. -/
theorem decisionEvents_run (env : Env) (sched : List ι) (c : Config ι callSig PyError Unit World)
    (acts : List Unit) (h : (decisionEvents approvalId c.shared).length = acts.length) :
    (decisionEvents approvalId (c.run (exec env) sched).shared).length
      = (c.history (exec env) ((decisionShot env approvalId).record (fun _ => true)) acts
          sched).length := by
  have htrue : c.Respects (exec env) (fun _ _ _ => True) sched := Config.respects_true c sched
  refine Config.run_induct (fun c g => (decisionEvents approvalId c.shared).length = g.length)
    ?_ sched c acts h htrue
  intro c g i op k hg hp _
  rw [Config.step_of_call hp]
  refine (decisionEvents_exec env approvalId c.shared op).trans ?_
  cases hrec : recordsDecision approvalId op <;>
    simp [OneShot.record, decisionShot, hrec, hg]

/-- A task was only inserted for an approval that is stored as approved. -/
theorem inserted_approved (sched : List ι) (c : Config ι callSig PyError Unit World)
    (hP : c.Respects (exec env) (SavesPending approvalId) sched) :
    c.history (exec env) (countInserted env approvalId) 0 sched = 0
    ∨ (stored approvalId (c.run (exec env) sched).shared).map ApprovalRequest.status
        = some .approved := by
  refine Config.run_induct (fun c n => n = 0
    ∨ (stored approvalId c.shared).map ApprovalRequest.status = some .approved)
    ?_ sched c 0 (Or.inl rfl) hP
  intro c n i op k h hp hPi
  rw [Config.step_of_call hp]
  cases hins : insertsTask env approvalId c.shared op with
  | true =>
    refine Or.inr ?_
    cases op with
    | dispatchApprovedTaskRequest id =>
      rw [exec_keeps_status rfl]
      exact insertsTask_approved hins
    | _ => simp [insertsTask] at hins
  | false =>
    simp only [countInserted, hins, Bool.false_eq_true, if_false]
    rcases h with rfl | happroved
    · exact Or.inl rfl
    · refine Or.inr ?_
      cases hsave : savesRow approvalId op with
      | false => rwa [exec_keeps_status hsave]
      | true =>
        cases op with
        | saveApprovalRequest a =>
          have hpending := hPi (by simpa [savesRow] using hsave)
          rw [happroved] at hpending
          simp at hpending
        | _ => simp [savesRow] at hsave

/-- A holder of the unused right stands at its audit transaction. -/
theorem armed_aboutToRecord {p : Py Unit}
    (h : (decisionShot env approvalId).Obeys True .armed p) : AboutToRecord approvalId p := by
  cases p with
  | ret a => exact absurd rfl (Prog.wp_ret.mp h trivial)
  | raise e => exact absurd rfl (Prog.wp_raise.mp h trivial)
  | call op k =>
    obtain ⟨⟨-, -, hfree⟩, -⟩ := OneShot.wp_call.mp h
    refine ⟨op, rfl, ?_⟩
    cases hrec : recordsDecision approvalId op with
    | true => rfl
    | false => exact absurd (hfree (by simp [decisionShot, hrec])) id

/-- **A decision on an approval is final.**  In every interleaving of
deciders in which every save of the row finds the stored status `pending`:
a decision once stored never changes; there is at most one decision event,
and exactly one as soon as no decider stands between its save and its audit
transaction; and a rejected request has no mark and no task. -/
theorem decision_is_final (env : Env) (callers : ι → DecisionCaller) (w : World)
    (approvalId : String) (sched : List ι) (row : ApprovalRequest)
    (hrow : stored approvalId w = some row) (hpending : row.status = .pending)
    (hunmarked : row.dispatched = false) (hnone : decisionEvents approvalId w = [])
    (hsaves : (decisionCallers callers w).Respects (exec env) (SavesPending approvalId) sched) :
    (∀ pre post, sched = pre ++ post → ∀ a,
        stored approvalId ((decisionCallers callers w).run (exec env) pre).shared = some a →
        a.status ≠ .pending →
        ∃ b, stored approvalId ((decisionCallers callers w).run (exec env) sched).shared = some b
          ∧ decision b = decision a)
    ∧ (decisionEvents approvalId
        ((decisionCallers callers w).run (exec env) sched).shared).length ≤ 1
    ∧ (∀ a, stored approvalId ((decisionCallers callers w).run (exec env) sched).shared = some a →
        (a.status ≠ .pending →
          (∀ i, ¬ AboutToRecord approvalId
            (((decisionCallers callers w).run (exec env) sched).callers i)) →
          (decisionEvents approvalId
            ((decisionCallers callers w).run (exec env) sched).shared).length = 1)
        ∧ (a.status = .rejected → a.dispatched = false
          ∧ (decisionCallers callers w).history (exec env) (countInserted env approvalId) 0 sched
              = 0)) := by
  have hstart : (decisionShot env approvalId).InPhase (fun _ => true) True
      (decisionCallers callers w) [] .unclaimed := by
    refine ⟨fun i => ?_, ?_, rfl, fun _ => rfl, fun _ _ => ?_⟩
    · refine Prog.wp_mono (fun _ _ hs _ => hs) (fun _ _ hs _ => hs) _ _ ?_
      exact (decisionDiscipline env approvalId).program_obeys (callers i)
    · intro a ha _
      rw [show stored approvalId (decisionCallers callers w).shared = some row from hrow] at ha
      cases ha
      exact hunmarked
    · show (stored approvalId w).map ApprovalRequest.status = some .pending
      rw [hrow, Option.map_some, hpending]
  have hgrabs : (decisionCallers callers w).Respects (exec env)
      (decisionShot env approvalId).GrabsOpen sched := by
    refine Config.respects_mono (fun i s op h hgrab => ?_) hsaves
    cases op with
    | saveApprovalRequest a => exact h (by simpa [decisionShot, savesRow] using hgrab)
    | _ => simp [decisionShot, savesRow] at hgrab
  obtain ⟨ph, hobey, hinv, hlab, -, hstrict⟩ :=
    OneShot.oneShot_run (decisionShot env approvalId) (fun _ => true) True
      (decisionCallers callers w) sched [] .unclaimed hstart hgrabs
  have hevents := decisionEvents_run env sched (decisionCallers callers w) []
    (congrArg List.length hnone)
  refine ⟨?_, ?_, fun a ha => ⟨fun hdecided hnobody => ?_, fun hrejected => ⟨?_, ?_⟩⟩⟩
  · rintro pre post rfl a ha hdecided
    have hrun := decision_run post _ (d := decision a) hdecided (by rw [ha]; rfl)
      ((Config.respects_append _ pre post).mp hsaves).2
    rw [← Config.run_append] at hrun
    exact Option.map_eq_some_iff.mp hrun
  · rw [hevents]
    exact (OneShot.labels_unique hlab).2 (by simp [decisionShot])
  · rw [hevents]
    cases ph with
    | unclaimed =>
      have hopen : (stored approvalId
          ((decisionCallers callers w).run (exec env) sched).shared).map ApprovalRequest.status
          = some .pending := hstrict trivial rfl
      rw [ha] at hopen
      exact absurd (by simpa using hopen) hdecided
    | held i =>
      have hi := hobey i
      rw [show OneShot.holds (fun _ => true) (OneShot.Phase.held i) i = Hold.armed by
        simp [OneShot.holds]] at hi
      exact absurd (armed_aboutToRecord hi) (hnobody i)
    | used i x =>
      rw [hlab.2.2 (by simp [decisionShot])]
      rfl
  · exact hinv a ha (by simp [hrejected])
  · rcases inserted_approved sched (decisionCallers callers w) hsaves with h | h
    · exact h
    · rw [ha, Option.map_some, hrejected] at h
      simp at h

end Run

/-! ## §6. The race. -/

/-- One operator approves the request on the command line, another one
rejects it in the web console. -/
def rivalCallers (i : Bool) : DecisionCaller :=
  if i then .cli "appr_000000000001" .approved "alice"
  else .web "appr_000000000001" .rejected "bob"

/-- Alice decides first; Bob's form then finds the decision made. -/
theorem decision_is_final_in_turn :
    (decisionEvents "appr_000000000001" ((decisionCallers rivalCallers raceWorld).run
      (exec Env.quiet) [true, true, true, true, true, true, false]).shared).length ≤ 1 :=
  (decision_is_final Env.quiet rivalCallers raceWorld "appr_000000000001"
    [true, true, true, true, true, true, false] raceApproval (by decide +kernel) rfl
    (by decide +kernel) rfl (by decide +kernel)).2.1

/-- **Both deciders win.**  Bob checks and loads the pending request, Alice
approves it and her dispatch inserts the task, and Bob saves his rejection
over hers: the stored decision changes from Alice's approval to Bob's
rejection, there are two decision events, and the rejected request has a
task. -/
theorem approve_and_reject_race :
    (stored "appr_000000000001" ((decisionCallers rivalCallers raceWorld).run (exec Env.quiet)
        [false, false, true, true, true, true, true]).shared).map decision
      = some (.approved, "alice", some 0)
    ∧ (stored "appr_000000000001" ((decisionCallers rivalCallers raceWorld).run (exec Env.quiet)
        [false, false, true, true, true, true, true, false, false, false]).shared).map decision
      = some (.rejected, "bob", some 5)
    ∧ (decisionEvents "appr_000000000001" ((decisionCallers rivalCallers raceWorld).run
        (exec Env.quiet)
        [false, false, true, true, true, true, true, false, false, false]).shared).length = 2
    ∧ (decisionCallers rivalCallers raceWorld).history (exec Env.quiet)
        (countInserted Env.quiet "appr_000000000001") 0
        [false, false, true, true, true, true, true, false, false, false] = 1 := by
  decide +kernel

end Hmn
