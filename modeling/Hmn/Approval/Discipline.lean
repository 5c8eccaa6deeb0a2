/-
  Hmn.Approval.Discipline — what the dispatchers of approved work may call.

  Carrying out an approved request never writes an approval row itself and
  never records a decision.  One predicate on calls says so, and one lemma
  for each program says that it makes only such calls.
-/
import Hmn.Approval.FrontEnds

namespace Hmn

open Framework Py

/-- The calls made to carry out an approved request. -/
def Call.carriesOut : Call → Prop
  | .saveApprovalRequest _ | .saveTask _ | .saveToken _ | .insertNotification _ => False
  | .recordAudit eventType .. => eventType = "network"
  | _ => True

theorem carriesOut_network (subjectType subjectId action outcome : String) (details : Dict) :
    (Call.recordAudit "network" subjectType subjectId action outcome details).carriesOut := rfl

/-! ## §1. A guarded program. -/

section Rules

variable {α : Type} {ok : Call → Prop}

theorem calls_onNetworkProviderError {p : Py α} {handler : String → Py α} (hp : p.Calls ok)
    (hh : ∀ m, (handler m).Calls ok) : (onNetworkProviderError p handler).Calls ok := by
  refine Prog.calls_tryCatch hp (fun e => ?_)
  cases e with
  | networkProvider m => exact hh m
  | _ => exact Prog.calls_raise

end Rules

/-! ## §2. ACL files. -/

theorem readTextOrEmpty_calls (path : String) : (readTextOrEmpty path).Calls Call.carriesOut := by
  unfold readTextOrEmpty
  rw [calls_call_bind]
  refine ⟨trivial, fun present => ?_⟩
  cases present
  · exact Prog.calls_ret
  · exact calls_call_bind.mpr ⟨trivial, fun r => calls_orRaise r⟩

section Commands

/-! The commands after the write only run commands and record the outcome. -/

variable {ok : Call → Prop} (hcommand : ∀ command, ok (.runCommand command))
  (haudit : ∀ path outcome details,
    ok (.recordAudit "network" "network_acl" path "acl/apply" outcome details))

include hcommand in
theorem runAclCommand_calls (command : String) : (runAclCommand command).Calls ok := by
  unfold runAclCommand
  rw [calls_call_bind]
  refine ⟨hcommand _, fun outcome => ?_⟩
  cases outcome with
  | completed returncode stdout stderr => exact Prog.calls_ret
  | timedOut => exact Prog.calls_raise
  | raised exception => exact Prog.calls_raise

include hcommand in
theorem verifyAcl_calls (verifyCommand : String) (reloadExit : Option Int) :
    (verifyAcl verifyCommand reloadExit).Calls ok := by
  unfold verifyAcl
  split_ifs
  · exact Prog.calls_ret
  · refine Prog.calls_bind (runAclCommand_calls hcommand verifyCommand) (fun r => ?_)
    simp only
    split_ifs
    · exact Prog.calls_ret
    · exact Prog.calls_ret

include hcommand in
theorem reloadAndVerify_calls (reloadCommand verifyCommand : String) :
    (reloadAndVerify reloadCommand verifyCommand).Calls ok := by
  unfold reloadAndVerify
  split_ifs
  · exact verifyAcl_calls hcommand verifyCommand none
  · refine Prog.calls_bind (runAclCommand_calls hcommand reloadCommand) (fun r => ?_)
    simp only
    split_ifs
    · exact Prog.calls_ret
    · exact verifyAcl_calls hcommand verifyCommand _

include hcommand haudit in
theorem finishAclApply_calls (approval : ApprovalRequest) (current proposed old new : String) :
    (finishAclApply approval current proposed old new).Calls ok := by
  unfold finishAclApply
  refine Prog.calls_bind (reloadAndVerify_calls hcommand _ _) (fun outcome => ?_)
  cases outcome.error with
  | none => exact calls_call_bind.mpr ⟨haudit _ _ _, fun _ => Prog.calls_ret⟩
  | some m => exact calls_call_bind.mpr ⟨haudit _ _ _, fun _ => Prog.calls_raise⟩

end Commands

theorem writeAcl_calls (approval : ApprovalRequest) (current proposed old new : String) :
    (writeAcl approval current proposed old new).Calls Call.carriesOut := by
  unfold writeAcl
  rw [calls_call_bind]
  refine ⟨trivial, fun r => Prog.calls_bind (calls_orRaise r) (fun _ => ?_)⟩
  exact finishAclApply_calls (fun _ => trivial) (fun _ _ _ => carriesOut_network _ _ _ _ _) _ _ _ _ _

theorem applyAclFiles_calls (approval : ApprovalRequest) (current proposed : String) :
    (applyAclFiles approval current proposed).Calls Call.carriesOut := by
  unfold applyAclFiles
  rw [calls_call_bind]
  refine ⟨trivial, fun present => ?_⟩
  cases present
  · exact Prog.calls_ret
  · refine Prog.calls_bind (readTextOrEmpty_calls current) (fun old => ?_)
    rw [calls_call_bind]
    refine ⟨trivial, fun r => Prog.calls_bind (calls_orRaise r) (fun new => ?_)⟩
    split_ifs
    · exact calls_call_bind.mpr ⟨carriesOut_network _ _ _ _ _, fun _ => Prog.calls_raise⟩
    · exact writeAcl_calls approval current proposed old new

theorem applyAcl_calls (approval : ApprovalRequest) :
    (applyAcl approval).Calls Call.carriesOut := by
  unfold applyAcl
  rw [calls_call_bind]
  refine ⟨trivial, fun r => Prog.calls_bind (calls_orRaise r) (fun current => ?_)⟩
  rw [calls_call_bind]
  refine ⟨trivial, fun r => Prog.calls_bind (calls_orRaise r) (fun proposed => ?_)⟩
  exact applyAclFiles_calls approval current proposed

theorem dispatchApprovedNetworkAclApply_calls (approvalId : String) :
    (dispatchApprovedNetworkAclApply approvalId).Calls Call.carriesOut := by
  unfold dispatchApprovedNetworkAclApply
  rw [calls_call_bind]
  refine ⟨trivial, fun r => ?_⟩
  cases r with
  | none => exact Prog.calls_ret
  | some approval =>
    simp only
    split_ifs
    · exact Prog.calls_ret
    · exact applyAcl_calls approval
    · exact Prog.calls_ret

/-! ## §3. Network tags. -/

theorem requireNetworkProvider_calls : requireNetworkProvider.Calls Call.carriesOut := by
  unfold requireNetworkProvider
  rw [calls_call_bind]
  refine ⟨trivial, fun r => Prog.calls_bind (calls_orRaise r) (fun provider => ?_)⟩
  cases provider
  · exact Prog.calls_raise
  · exact Prog.calls_ret

theorem updateTags_calls (approval : ApprovalRequest) (nodeId providerNodeId : String)
    (tags : List String) (node : Node) :
    (updateTags approval nodeId providerNodeId tags node).Calls Call.carriesOut := by
  unfold updateTags
  refine Prog.calls_bind requireNetworkProvider_calls (fun provider => ?_)
  rw [calls_call_bind]
  refine ⟨trivial, fun r => ?_⟩
  rcases r with e | ⟨⟩
  · cases e with
    | networkProvider m =>
      exact calls_call_bind.mpr ⟨carriesOut_network _ _ _ _ _, fun _ => Prog.calls_raise⟩
    | _ => exact Prog.calls_raise
  · refine calls_call_bind.mpr ⟨trivial, fun _ => ?_⟩
    exact calls_call_bind.mpr ⟨carriesOut_network _ _ _ _ _, fun _ => Prog.calls_ret⟩

theorem dispatchTags_calls (approval : ApprovalRequest) :
    (dispatchTags approval).Calls Call.carriesOut := by
  unfold dispatchTags
  refine Prog.calls_bind (calls_orRaise _) (fun tags => ?_)
  split_ifs
  · exact Prog.calls_ret
  · rw [calls_call_bind]
    refine ⟨trivial, fun r => ?_⟩
    cases r with
    | none => exact Prog.calls_ret
    | some node =>
      simp only
      split_ifs
      · exact Prog.calls_ret
      · exact updateTags_calls approval _ _ tags node

theorem dispatchApprovedNetworkTagUpdate_calls (approvalId : String) :
    (dispatchApprovedNetworkTagUpdate approvalId).Calls Call.carriesOut := by
  unfold dispatchApprovedNetworkTagUpdate
  rw [calls_call_bind]
  refine ⟨trivial, fun r => ?_⟩
  cases r with
  | none => exact Prog.calls_ret
  | some approval =>
    simp only
    split_ifs
    · exact Prog.calls_ret
    · exact dispatchTags_calls approval
    · exact Prog.calls_ret

/-! ## §4. Tasks and components. -/

theorem dispatchApprovedTaskRequest_calls (approvalId : String) :
    (dispatchApprovedTaskRequest approvalId).Calls Call.carriesOut := by
  unfold dispatchApprovedTaskRequest
  exact calls_call_bind.mpr ⟨trivial, fun r => calls_orRaise r⟩

theorem dispatchResolved_calls (approval : ApprovalRequest) (status : Decision) :
    (dispatchResolved approval status).Calls Call.carriesOut := by
  unfold dispatchResolved
  refine Prog.calls_bind (calls_when ?_) (fun _ => calls_when ?_)
  · exact Prog.calls_bind (dispatchApprovedTaskRequest_calls _) (fun _ => Prog.calls_ret)
  · exact calls_call_bind.mpr ⟨trivial, fun _ => Prog.calls_ret⟩

/-! ## §5. What each front end does after the decision. -/

theorem apiDispatchTask_calls (approval : ApprovalRequest) (status : Decision) :
    (apiDispatchTask approval status).Calls Call.carriesOut := by
  unfold apiDispatchTask
  split_ifs
  · refine Prog.calls_bind (dispatchApprovedTaskRequest_calls _) (fun r => ?_)
    cases r <;> simp
  · exact Prog.calls_ret

theorem apiDispatchComponent_calls (approval : ApprovalRequest) (status : Decision) :
    (apiDispatchComponent approval status).Calls Call.carriesOut := by
  unfold apiDispatchComponent
  refine calls_when (calls_call_bind.mpr ⟨trivial, fun r => ?_⟩)
  cases r <;> simp

theorem apiDispatchAcl_calls (approval : ApprovalRequest) (status : Decision) :
    (apiDispatchAcl approval status).Calls Call.carriesOut := by
  unfold apiDispatchAcl
  refine calls_when (Prog.calls_bind ?_ (fun dispatched => ?_))
  · exact calls_onNetworkProviderError (dispatchApprovedNetworkAclApply_calls _)
      (fun _ => Prog.calls_raise)
  · cases dispatched <;> simp

theorem cliDispatch_calls (approval : ApprovalRequest) :
    (cliDispatch approval).Calls Call.carriesOut := by
  unfold cliDispatch
  refine Prog.calls_bind (calls_when ?_) (fun _ => Prog.calls_bind (calls_when ?_)
    (fun _ => Prog.calls_bind (calls_when ?_) (fun _ => calls_when ?_)))
  · refine Prog.calls_bind (dispatchApprovedTaskRequest_calls _) (fun r => ?_)
    cases r <;> simp
  · refine Prog.calls_bind (calls_onNetworkProviderError
      (dispatchApprovedNetworkTagUpdate_calls _) (fun _ => Prog.calls_raise)) (fun r => ?_)
    cases r <;> simp
  · refine Prog.calls_bind (calls_onNetworkProviderError
      (dispatchApprovedNetworkAclApply_calls _) (fun _ => Prog.calls_raise)) (fun r => ?_)
    cases r <;> simp
  · refine calls_call_bind.mpr ⟨trivial, fun r => ?_⟩
    cases r <;> simp

theorem telegramDispatchComponent_calls (resolved : ApprovalRequest) (status : Decision) :
    (telegramDispatchComponent resolved status).Calls Call.carriesOut := by
  unfold telegramDispatchComponent
  split_ifs
  · refine calls_call_bind.mpr ⟨trivial, fun r => ?_⟩
    cases r <;> simp
  · exact Prog.calls_ret

theorem telegramDispatchAcl_calls (resolved : ApprovalRequest) (status : Decision) :
    (telegramDispatchAcl resolved status).Calls Call.carriesOut := by
  unfold telegramDispatchAcl
  split_ifs
  · refine calls_onNetworkProviderError ?_ (fun _ => Prog.calls_ret)
    refine Prog.calls_bind (dispatchApprovedNetworkAclApply_calls _) (fun dispatched => ?_)
    cases dispatched <;> simp
  · exact Prog.calls_ret

theorem telegramDispatchRest_calls (resolved : ApprovalRequest) (status : Decision)
    (taskId : Option String) :
    (telegramDispatchRest resolved status taskId).Calls Call.carriesOut := by
  unfold telegramDispatchRest
  refine Prog.calls_bind (telegramDispatchComponent_calls resolved status) (fun failure => ?_)
  cases failure with
  | some result => exact Prog.calls_ret
  | none =>
    refine Prog.calls_bind (telegramDispatchAcl_calls resolved status) (fun failure => ?_)
    cases failure <;> simp

theorem telegramDispatch_calls (resolved : ApprovalRequest) (status : Decision) :
    (telegramDispatch resolved status).Calls Call.carriesOut := by
  unfold telegramDispatch
  split_ifs
  · refine Prog.calls_bind (dispatchApprovedTaskRequest_calls _) (fun r => ?_)
    cases r with
    | none => exact Prog.calls_ret
    | some task => exact telegramDispatchRest_calls resolved status _
  · exact telegramDispatchRest_calls resolved status none

theorem webDispatch_calls (approval : ApprovalRequest) (decision : Decision) :
    (webDispatch approval decision).Calls Call.carriesOut := by
  unfold webDispatch
  refine Prog.calls_bind (calls_when ?_) (fun _ => calls_when ?_)
  · refine Prog.calls_bind (dispatchApprovedTaskRequest_calls _) (fun r => ?_)
    cases r <;> simp
  · exact calls_call_bind.mpr ⟨trivial, fun _ => Prog.calls_ret⟩

/-! ## §6. Disciplines every front end obeys. -/

/-- A typestate for the callers that decide approvals: carrying out
approved work is free and changes nothing, and the save, the audit event
and the dispatches of a decision are allowed on a row that was loaded
pending. -/
structure DecisionDiscipline where
  T : Typestate callSig
  settled : T.Mode → Prop
  start : T.Mode
  start_settled : settled start
  carries : ∀ {m : T.Mode} {op : Call}, settled m → op.carriesOut →
    T.may m op ∧ ∀ r, T.after m op r = m
  decides : ∀ {α : Type} {id : String} {approval : ApprovalRequest} {status : Decision}
    {decidedBy : String} {now : Timestamp} {p : Py α},
    T.sees (.loadApprovalRequest id) (some approval) → approval.status = .pending →
    p.Calls Call.carriesOut →
    (do
      call (.saveApprovalRequest (withDecision approval status decidedBy now))
      call (.recordAudit "approval" approval.subjectType approval.approvalId
        ("approval/" ++ status.status.text) status.status.text
        (decisionDetails approval decidedBy))
      p).wp T (fun m _ => settled m) (fun m _ => settled m) start

namespace DecisionDiscipline

variable (D : DecisionDiscipline) {α : Type}

/-- A program that starts in mode `m` and ends settled. -/
def Obeys (m : D.T.Mode) (p : Py α) : Prop :=
  p.wp D.T (fun m' _ => D.settled m') (fun m' _ => D.settled m') m

variable {D}

theorem obeys_ret {m : D.T.Mode} (h : D.settled m) (a : α) : D.Obeys m (.ret a : Py α) :=
  Prog.wp_ret.mpr h

theorem obeys_raise {m : D.T.Mode} (h : D.settled m) (e : PyError) :
    D.Obeys m (.raise e : Py α) := Prog.wp_raise.mpr h

theorem obeys_carriesOut {m : D.T.Mode} (h : D.settled m) {p : Py α}
    (hp : p.Calls Call.carriesOut) : D.Obeys m p :=
  Prog.wp_of_calls (fun _ hop => D.carries h hop) (fun _ => h) (fun _ => h) hp

theorem obeys_bind {β : Type} {m : D.T.Mode} {p : Py α} {f : α → Py β} (hp : D.Obeys m p)
    (hf : ∀ m' a, D.settled m' → D.Obeys m' (f a)) : D.Obeys m (p >>= f) :=
  Prog.wp_bind p f m (Prog.wp_mono (fun m' a hs => hf m' a hs) (fun _ _ hs => hs) p m hp)

/-- A first call that carries out approved work, such as a look-up. -/
theorem obeys_call {op : Call} {f : Call.Res op → Py α} (hop : op.carriesOut)
    (hf : ∀ r, D.T.sees op r → D.Obeys D.start (f r)) : D.Obeys D.start (call op >>= f) := by
  obtain ⟨hmay, hafter⟩ := D.carries D.start_settled hop
  unfold Obeys
  rw [call_bind, Prog.wp_call]
  refine ⟨hmay, fun r hr => ?_⟩
  rw [hafter r]
  exact hf r hr

variable (D)

theorem resolve_obeys (id : String) (status : Decision) (decidedBy : String) :
    D.Obeys D.start (resolveApprovalRequest id status decidedBy) := by
  unfold resolveApprovalRequest
  refine obeys_call trivial (fun r hr => ?_)
  cases r with
  | none => exact obeys_ret D.start_settled _
  | some approval =>
    simp only
    split_ifs with hstatus
    · exact obeys_ret D.start_settled _
    · refine obeys_call trivial (fun now _ => ?_)
      exact D.decides hr (not_not.mp hstatus)
        (Prog.calls_bind (dispatchResolved_calls _ _) (fun _ => Prog.calls_ret))

theorem api_obeys (id : String) (status : Decision) (decidedBy : String) :
    D.Obeys D.start (apiResolveApproval id status decidedBy) := by
  unfold apiResolveApproval
  refine obeys_call trivial (fun r _ => ?_)
  cases r with
  | none => exact obeys_raise D.start_settled _
  | some existing =>
    simp only
    split_ifs
    · exact obeys_raise D.start_settled _
    · refine obeys_bind (D.resolve_obeys id status decidedBy) (fun m r hs => ?_)
      cases r with
      | none => exact obeys_raise hs _
      | some approval =>
        refine obeys_carriesOut hs (Prog.calls_bind (apiDispatchTask_calls _ _) (fun taskId => ?_))
        exact Prog.calls_bind (apiDispatchComponent_calls _ _) (fun _ =>
          Prog.calls_bind (apiDispatchAcl_calls _ _) (fun _ => Prog.calls_ret))

theorem cli_obeys (id : String) (status : Decision) (by_ : String) :
    D.Obeys D.start (FrontEnd.cli.decides id status by_) := by
  cases status with
  | approved =>
    refine obeys_bind (D.resolve_obeys id .approved by_) (fun m r hs => ?_)
    cases r with
    | none => exact obeys_raise hs _
    | some approval => exact obeys_carriesOut hs (cliDispatch_calls approval)
  | rejected =>
    refine obeys_bind (D.resolve_obeys id .rejected by_) (fun m r hs => ?_)
    cases r with
    | none => exact obeys_raise hs _
    | some approval => exact obeys_ret hs _

theorem telegram_obeys (data decidedBy : String) :
    D.Obeys D.start (handleTelegramApprovalCallback data decidedBy) := by
  unfold handleTelegramApprovalCallback
  cases parseApprovalCallback data with
  | none => exact obeys_ret D.start_settled _
  | some parsed =>
    refine obeys_call trivial (fun r _ => ?_)
    cases r with
    | none => exact obeys_ret D.start_settled _
    | some approval =>
      simp only
      split_ifs
      · exact obeys_ret D.start_settled _
      · refine obeys_bind (D.resolve_obeys approval.approvalId parsed.1 decidedBy)
          (fun m r hs => ?_)
        cases r with
        | none => exact obeys_ret hs _
        | some resolved => exact obeys_carriesOut hs (telegramDispatch_calls resolved parsed.1)

theorem web_obeys (id : String) (status : Decision) (decidedBy : String) :
    D.Obeys D.start (webDecision id status decidedBy) := by
  unfold webDecision
  refine obeys_call trivial (fun r _ => ?_)
  cases r with
  | none => exact obeys_raise D.start_settled _
  | some existing =>
    simp only
    split_ifs
    · exact obeys_raise D.start_settled _
    · refine obeys_bind (D.resolve_obeys id status decidedBy) (fun m r hs => ?_)
      cases r with
      | none => exact obeys_ret hs _
      | some approval => exact obeys_carriesOut hs (webDispatch_calls approval status)

/-- **Every caller that decides approvals obeys every decision discipline.** -/
theorem program_obeys (caller : DecisionCaller) : D.Obeys D.start caller.program := by
  cases caller with
  | store id status decidedBy =>
    exact obeys_bind (D.resolve_obeys id status decidedBy) (fun _ _ hs => obeys_ret hs _)
  | api id status decidedBy =>
    exact obeys_bind (D.api_obeys id status decidedBy) (fun _ _ hs => obeys_ret hs _)
  | cli id status by_ => exact D.cli_obeys id status by_
  | telegram data decidedBy =>
    exact obeys_bind (D.telegram_obeys data decidedBy) (fun _ _ hs => obeys_ret hs _)
  | web id status decidedBy => exact D.web_obeys id status decidedBy

end DecisionDiscipline

end Hmn
