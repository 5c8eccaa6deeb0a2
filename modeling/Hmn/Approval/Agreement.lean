/-
  Hmn.Approval.Agreement — do the front ends carry out the same work?

  The four front ends end in the same `resolveApprovalRequest` and then
  dispatch the approved work again, each with its own list of kinds: the web
  console does not know ACL changes, and only the command line knows tag
  updates.

  Main results: `front_ends_agree_iff` — approving a request leads to the
  same effect through every front end exactly when it is not an ACL change
  that would be written and not a tag update that would be made;
  `front_ends_disagree` — an ACL change that the web console approves and
  does not apply.
-/
import Hmn.Network.AclApproval

namespace Hmn

open Framework Py

/-! ## §1. The effect of an approval. -/

/-- The effect of approving a request through a front end. -/
def approvedEffect (env : Env) (frontEnd : FrontEnd) (approvalId decidedBy : String) (w : World) :
    Effects :=
  ((frontEnd.decides approvalId .approved decidedBy).run (exec env) w).2.effect

/-- Every front end has the same effect. -/
def FrontEndsAgree (env : Env) (approvalId decidedBy : String) (w : World) : Prop :=
  ∀ f g : FrontEnd, approvedEffect env f approvalId decidedBy w
    = approvedEffect env g approvalId decidedBy w

/-- The request is an ACL change whose files would be written. -/
def WritesAcl (env : Env) (a : ApprovalRequest) (w : World) : Prop :=
  a.isAclApply = true ∧ (∃ current proposed old new, AclReady env a w current proposed old new)
    ∧ env.write w.writes = .ok ()

/-- The request is a tag update that the provider would accept. -/
def UpdatesTags (env : Env) (a : ApprovalRequest) (w : World) : Prop :=
  a.isTagsSet = true ∧ ∃ tags node provider, TagsReady env a w tags node provider

/-! ## §2. The world after the decision. -/

/-- The world after the save and the audit event of a decision. -/
def decidedWorld (env : Env) (a : ApprovalRequest) (decidedBy : String) (w : World) : World :=
  (w.after 1 { w.store with
    approvals := w.store.approvals.upsert (withDecision a .approved decidedBy (w.reading env 0)) }).after
    1 ({ w.store with
      approvals := w.store.approvals.upsert
        (withDecision a .approved decidedBy (w.reading env 0)) }.addAudit
      { eventType := "approval", subjectType := a.subjectType, subjectId := a.approvalId,
        action := "approval/approved", outcome := "approved",
        details := decisionDetails a decidedBy, createdAt := env.now (w.clock + 1) })

section

variable {env : Env} {id decidedBy : String} {a : ApprovalRequest} {w : World}

/-- The copy of the request that carries the decision. -/
def decidedRow (env : Env) (a : ApprovalRequest) (decidedBy : String) (w : World) :
    ApprovalRequest :=
  withDecision a .approved decidedBy (w.reading env 0)

theorem resolve_run (hfound : stored id w = some a) (hpending : a.status = .pending) :
    (resolveApprovalRequest id .approved decidedBy).run (exec env) w
      = (do
          dispatchResolved (decidedRow env a decidedBy w) .approved
          return some (decidedRow env a decidedBy w) : Py _).run (exec env)
            (decidedWorld env a decidedBy w) := by
  unfold resolveApprovalRequest
  rw [run_call_bind, show exec env (.loadApprovalRequest id) w = (some a, w) by
    rw [← hfound]; rfl]
  simp only [hpending, ne_eq, not_true_eq_false, if_false]
  rfl

/-- The decision has no effect of its own. -/
theorem decidedWorld_effect : (decidedWorld env a decidedBy w).effect = w.effect := rfl

theorem decidedWorld_stored (env : Env) (decidedBy : String) (hfound : stored id w = some a) :
    stored id (decidedWorld env a decidedBy w) = some (decidedRow env a decidedBy w) := by
  have hid : a.approvalId = id := Table.key_of_find? hfound
  subst hid
  exact Table.find?_upsert_self _ (decidedRow env a decidedBy w)

theorem load_decided (hfound : stored id w = some a) :
    exec env (.loadApprovalRequest id) (decidedWorld env a decidedBy w)
      = (some (decidedRow env a decidedBy w), decidedWorld env a decidedBy w) := by
  rw [← decidedWorld_stored env decidedBy hfound]
  rfl

/-! ## §3. What each front end runs after the decision. -/

/-- The dispatches of a front end after its `resolveApprovalRequest`. -/
def FrontEnd.dispatches (frontEnd : FrontEnd) (row : ApprovalRequest) : Py Unit :=
  match frontEnd with
  | .api => do
      let _ ← apiDispatchTask row .approved
      apiDispatchComponent row .approved
      apiDispatchAcl row .approved
  | .cli => cliDispatch row
  | .telegram => do let _ ← telegramDispatch row .approved
  | .web => webDispatch row .approved

/-- What a front end returns does not matter for the world it leaves. -/
theorem run_bind_snd {α β γ : Type} (p : Py α) (f : α → Py β) (g : α → Py γ) (w : World)
    (h : ∀ a w', ((f a).run (exec env) w').2 = ((g a).run (exec env) w').2) :
    ((p >>= f).run (exec env) w).2 = ((p >>= g).run (exec env) w).2 := by
  rw [Prog.run_bind, Prog.run_bind]
  rcases p.run (exec env) w with ⟨r | r, w'⟩
  · rfl
  · exact h r w'

/-- The callback of an approval card is the decision on its request. -/
theorem parse_callbackData {approvalId : String} (hcolon : ':' ∉ approvalId.toList)
    (hstart : Text.startsWith approvalId "appr_" = true) :
    parseApprovalCallback (callbackData .approved approvalId) = some (.approved, approvalId) := by
  have hjoin : (callbackData .approved approvalId).toList = [':'].intercalate
      ["hmn".toList, "approval".toList, "approve".toList, approvalId.toList] := by
    unfold callbackData
    rw [String.toList_append, show "hmn:approval:approve:".toList = "hmn".toList ++ ([':'] ++
      ("approval".toList ++ ([':'] ++ ("approve".toList ++ [':'])))) by decide]
    simp only [List.intercalate, List.intersperse_cons_cons, List.intersperse_singleton,
      List.flatten_cons, List.flatten_nil, List.append_assoc, List.append_nil]
  -- Neither the fixed words nor the identifier has a colon, so the parser splits where the button
  -- joined.
  have hsplit : (callbackData .approved approvalId).toList.splitOn ':'
      = ["hmn".toList, "approval".toList, "approve".toList, approvalId.toList] := by
    rw [hjoin]
    refine List.splitOn_intercalate _ (fun l hl => ?_) (List.cons_ne_nil _ _)
    simp only [List.mem_cons, List.not_mem_nil, or_false] at hl
    rcases hl with rfl | rfl | rfl | rfl
    · decide
    · decide
    · decide
    · exact hcolon
  unfold parseApprovalCallback
  rw [hsplit]
  simp only [List.map_cons, List.map_nil, String.ofList_toList, hstart]
  rfl

/-- **Every front end makes the decision and then runs its dispatches.** -/
theorem decides_run (f : FrontEnd) (hcolon : ':' ∉ id.toList)
    (hstart : Text.startsWith id "appr_" = true) (hfound : stored id w = some a) (hpending : a.status = .pending) :
    ((f.decides id .approved decidedBy).run (exec env) w).2
      = ((do
          dispatchResolved (decidedRow env a decidedBy w) .approved
          f.dispatches (decidedRow env a decidedBy w) : Py Unit).run (exec env)
            (decidedWorld env a decidedBy w)).2 := by
  have hkey : a.approvalId = id := Table.key_of_find? hfound
  have hload : exec env (.loadApprovalRequest id) w = (some a, w) := by
    rw [← hfound]
    rfl
  -- After the decision the dispatches of the store run, and then the front end goes on with the
  -- decided row.
  have hresolve : ∀ {β : Type} (g : Option ApprovalRequest → Py β),
      ((resolveApprovalRequest id .approved decidedBy >>= g).run (exec env) w)
        = ((do
            dispatchResolved (decidedRow env a decidedBy w) .approved
            g (some (decidedRow env a decidedBy w))).run (exec env)
              (decidedWorld env a decidedBy w)) := by
    intro β g
    rw [Prog.run_bind, resolve_run hfound hpending, ← Prog.run_bind, bind_assoc]
    rfl
  -- Where a front end looks at the status first, the row is pending and it goes on.
  cases f with
  | api =>
    unfold FrontEnd.decides apiResolveApproval
    simp only [bind_assoc]
    rw [run_call_bind, hload]
    simp only [hpending, ne_eq, not_true_eq_false, if_false, bind_assoc]
    rw [hresolve]
    refine run_bind_snd _ _ _ _ (fun _ w' => ?_)
    simp only [bind_assoc, FrontEnd.dispatches]
    refine run_bind_snd _ _ _ _ (fun _ w' => run_bind_snd _ _ _ _ (fun _ w' => ?_))
    -- What the API answers after its last dispatch calls nothing.
    rw [Prog.run_bind]
    rcases (apiDispatchAcl (decidedRow env a decidedBy w) .approved).run (exec env) w' with
      ⟨r | r, w''⟩ <;> rfl
  | cli =>
    unfold FrontEnd.decides cliApproveApproval
    rw [hresolve]
    rfl
  | telegram =>
    unfold FrontEnd.decides handleTelegramApprovalCallback
    rw [parse_callbackData hcolon hstart]
    simp only [bind_assoc]
    rw [run_call_bind, hload]
    simp only [hpending, ne_eq, not_true_eq_false, if_false, bind_assoc, hkey]
    rw [hresolve]
    rfl
  | web =>
    unfold FrontEnd.decides webDecision
    rw [run_call_bind, hload]
    simp only [hpending, ne_eq, not_true_eq_false, if_false]
    rw [hresolve]
    rfl

end

/-! ## §4. What the dispatches leave behind, kind by kind. -/

section Kinds

variable {env : Env} {α β : Type} {w : World}

/-- A program that leaves every world as it is. -/
def Idle (env : Env) (p : Py α) : Prop := ∀ w, (p.run (exec env) w).2 = w

theorem idle_ret (a : α) : Idle env (.ret a : Py α) := fun _ => rfl

theorem idle_raise (e : PyError) : Idle env (.raise e : Py α) := fun _ => rfl

/-- What idles after a program does not change the world it leaves. -/
theorem run_bind_idle {p : Py α} {f : α → Py β} (hf : ∀ a, Idle env (f a)) (w : World) :
    ((p >>= f).run (exec env) w).2 = (p.run (exec env) w).2 := by
  rw [Prog.run_bind]
  rcases p.run (exec env) w with ⟨e | a, w'⟩
  · rfl
  · exact hf a w'

theorem run_onNetworkProviderError {p : Py α} {handler : String → Py α}
    (hh : ∀ m, Idle env (handler m)) (w : World) :
    ((onNetworkProviderError p handler).run (exec env) w).2 = (p.run (exec env) w).2 := by
  unfold onNetworkProviderError
  rw [Prog.run_tryCatch]
  rcases p.run (exec env) w with ⟨e | a, w'⟩
  · cases e with
    | networkProvider m => exact hh m w'
    | _ => rfl
  · rfl

/-- The dispatch of a task, followed by a check of what it returned. -/
theorem run_dispatchTask_bind (id : String) (f : Option Task → Py α) :
    (dispatchApprovedTaskRequest id >>= f).run (exec env) w =
      match exec env (.dispatchApprovedTaskRequest id) w with
      | (.ok r, w') => (f r).run (exec env) w'
      | (.error e, w') => (.error e, w') := by
  unfold dispatchApprovedTaskRequest
  rw [bind_assoc, run_call_bind]
  rcases exec env (.dispatchApprovedTaskRequest id) w with ⟨e | r, w'⟩ <;> rfl

variable {row : ApprovalRequest}

/-- The four kinds exclude each other. -/
theorem only_task (h : row.isTaskRun = true) :
    row.isComponentAction = false ∧ row.isAclApply = false ∧ row.isTagsSet = false := by
  simp only [ApprovalRequest.isTaskRun, Bool.and_eq_true, beq_iff_eq] at h
  simp [ApprovalRequest.isComponentAction, ApprovalRequest.isAclApply, ApprovalRequest.isTagsSet, h]

theorem only_component (h : row.isComponentAction = true) :
    row.isTaskRun = false ∧ row.isAclApply = false ∧ row.isTagsSet = false := by
  simp only [ApprovalRequest.isComponentAction, Bool.and_eq_true, beq_iff_eq] at h
  simp [ApprovalRequest.isTaskRun, ApprovalRequest.isAclApply, ApprovalRequest.isTagsSet, h]

theorem only_acl (h : row.isAclApply = true) :
    row.isTaskRun = false ∧ row.isComponentAction = false ∧ row.isTagsSet = false := by
  simp only [ApprovalRequest.isAclApply, Bool.and_eq_true, beq_iff_eq] at h
  simp [ApprovalRequest.isTaskRun, ApprovalRequest.isComponentAction, ApprovalRequest.isTagsSet, h]

theorem only_tags (h : row.isTagsSet = true) :
    row.isTaskRun = false ∧ row.isComponentAction = false ∧ row.isAclApply = false := by
  simp only [ApprovalRequest.isTagsSet, Bool.and_eq_true, beq_iff_eq] at h
  simp [ApprovalRequest.isTaskRun, ApprovalRequest.isComponentAction, ApprovalRequest.isAclApply, h]

/-- With nothing left to dispatch the callback reports. -/
theorem telegramDispatchRest_report (hcomponent : row.isComponentAction = false)
    (hacl : row.isAclApply = false) (taskId : Option String) :
    telegramDispatchRest row .approved taskId
      = .ret (telegramReport row .approved taskId) := by
  simp [telegramDispatchRest, telegramDispatchComponent, telegramDispatchAcl, hcomponent, hacl]

/-- A front end's own dispatch of a task, and nothing after it. -/
theorem dispatches_task (env : Env) (row : ApprovalRequest) (h : row.isTaskRun = true) (f : FrontEnd) (w : World) :
    ((f.dispatches row).run (exec env) w).2
      = (exec env (.dispatchApprovedTaskRequest row.approvalId) w).2 := by
  obtain ⟨hcomponent, hacl, htags⟩ := only_task h
  cases f with
  | api =>
    simp only [FrontEnd.dispatches, apiDispatchTask, apiDispatchComponent, apiDispatchAcl, h,
      hcomponent, hacl, decide_true, Bool.and_true, Bool.and_false, if_true, Prog.when_false,
      bind_assoc]
    rw [run_dispatchTask_bind]
    rcases exec env (.dispatchApprovedTaskRequest row.approvalId) w with ⟨e | (_ | task), w'⟩ <;> rfl
  | cli =>
    simp only [FrontEnd.dispatches, cliDispatch, h, hcomponent, hacl, htags, Prog.when_true,
      Prog.when_false, bind_assoc]
    rw [run_dispatchTask_bind]
    rcases exec env (.dispatchApprovedTaskRequest row.approvalId) w with ⟨e | (_ | task), w'⟩ <;> rfl
  | telegram =>
    simp only [FrontEnd.dispatches, telegramDispatch, h, decide_true, Bool.and_true, if_true,
      bind_assoc, telegramDispatchRest_report hcomponent hacl]
    rw [run_dispatchTask_bind]
    rcases exec env (.dispatchApprovedTaskRequest row.approvalId) w with ⟨e | (_ | task), w'⟩ <;> rfl
  | web =>
    simp only [FrontEnd.dispatches, webDispatch, h, hcomponent, decide_true, Bool.and_true,
      Bool.and_false, Prog.when_true, Prog.when_false, bind_assoc]
    rw [run_dispatchTask_bind]
    rcases exec env (.dispatchApprovedTaskRequest row.approvalId) w with ⟨e | (_ | task), w'⟩ <;> rfl

/-- A front end's own dispatch of a component action. -/
theorem dispatches_component (env : Env) (row : ApprovalRequest) (h : row.isComponentAction = true) (f : FrontEnd) (w : World) :
    ((f.dispatches row).run (exec env) w).2
      = (exec env (.dispatchApprovedComponentAction row.approvalId) w).2 := by
  obtain ⟨htask, hacl, htags⟩ := only_component h
  cases f with
  | api =>
    simp only [FrontEnd.dispatches, apiDispatchTask, apiDispatchComponent, apiDispatchAcl, h,
      htask, hacl, decide_true, Bool.and_true, Bool.and_false, Bool.false_eq_true, if_false,
      Prog.when_true, Prog.when_false, bind_assoc, Prog.pure_eq, Prog.ret_bind]
    rw [run_call_bind]
    rcases exec env (.dispatchApprovedComponentAction row.approvalId) w with ⟨_ | run, w'⟩ <;> rfl
  | cli =>
    simp only [FrontEnd.dispatches, cliDispatch, h, htask, hacl, htags, Prog.when_true,
      Prog.when_false, Prog.ret_bind]
    rw [run_call_bind]
    rcases exec env (.dispatchApprovedComponentAction row.approvalId) w with ⟨_ | run, w'⟩ <;> rfl
  | telegram =>
    simp only [FrontEnd.dispatches, telegramDispatch, telegramDispatchRest,
      telegramDispatchComponent, telegramDispatchAcl, h, htask, hacl, decide_true, Bool.and_true,
      Bool.and_false, Bool.false_eq_true, if_true, if_false, bind_assoc]
    rw [run_call_bind]
    rcases exec env (.dispatchApprovedComponentAction row.approvalId) w with ⟨_ | run, w'⟩ <;> rfl
  | web =>
    simp only [FrontEnd.dispatches, webDispatch, h, htask, decide_true, Bool.and_true,
      Bool.and_false, Prog.when_true, Prog.when_false, Prog.ret_bind]
    rfl

/-- A front end's own dispatch of an ACL change: the web console has none. -/
theorem dispatches_acl (env : Env) (row : ApprovalRequest) (h : row.isAclApply = true) (f : FrontEnd) (w : World) :
    ((f.dispatches row).run (exec env) w).2
      = if f = .web then w
        else ((dispatchApprovedNetworkAclApply row.approvalId).run (exec env) w).2 := by
  obtain ⟨htask, hcomponent, htags⟩ := only_acl h
  cases f with
  | api =>
    simp only [FrontEnd.dispatches, apiDispatchTask, apiDispatchComponent, apiDispatchAcl, h,
      htask, hcomponent, decide_true, Bool.and_true, Bool.and_false, Bool.false_eq_true, if_false,
      Prog.when_true, Prog.when_false, Prog.pure_eq, Prog.ret_bind, Prog.throw_eq, reduceCtorEq]
    rw [run_bind_idle (fun dispatched => ?_), run_onNetworkProviderError fun _ => idle_raise _]
    cases dispatched <;> first | exact idle_raise _ | exact idle_ret _
  | cli =>
    simp only [FrontEnd.dispatches, cliDispatch, h, htask, hcomponent, htags, Prog.when_true,
      Prog.when_false, Prog.ret_bind, Prog.throw_eq, reduceCtorEq, if_false]
    rw [run_bind_idle (fun _ => idle_ret _), run_bind_idle (fun dispatched => ?_),
      run_onNetworkProviderError fun _ => idle_raise _]
    cases dispatched <;> first | exact idle_raise _ | exact idle_ret _
  | telegram =>
    simp only [FrontEnd.dispatches, telegramDispatch, telegramDispatchRest,
      telegramDispatchComponent, telegramDispatchAcl, h, htask, hcomponent, decide_true,
      Bool.and_true, Bool.and_false, Bool.false_eq_true, if_true, if_false, Prog.pure_eq,
      Prog.ret_bind, bind_assoc, reduceCtorEq]
    rw [run_bind_idle (fun result => ?_), run_onNetworkProviderError (fun _ => idle_ret _),
      run_bind_idle (fun dispatched => ?_)]
    · cases dispatched <;> exact idle_ret _
    · cases result <;> exact idle_ret _
  | web =>
    simp only [FrontEnd.dispatches, webDispatch, htask, hcomponent, Bool.and_false,
      Prog.when_false, if_true]
    rfl

/-- A front end dispatches nothing of a kind that it does not know. -/
theorem dispatches_none (env : Env) (row : ApprovalRequest) (htask : row.isTaskRun = false)
    (hcomponent : row.isComponentAction = false) (hacl : row.isAclApply = false) (f : FrontEnd) (htags : f = .cli → row.isTagsSet = false)
    (w : World) : ((f.dispatches row).run (exec env) w).2 = w := by
  cases f with
  | api =>
    simp only [FrontEnd.dispatches, apiDispatchTask, apiDispatchComponent, apiDispatchAcl, htask,
      hcomponent, hacl, Bool.and_false, Bool.false_eq_true, if_false, Prog.when_false]
    rfl
  | cli =>
    simp only [FrontEnd.dispatches, cliDispatch, htask, hcomponent, hacl, htags rfl,
      Prog.when_false]
    rfl
  | telegram =>
    simp only [FrontEnd.dispatches, telegramDispatch, htask, Bool.and_false, Bool.false_eq_true,
      if_false, telegramDispatchRest_report hcomponent hacl]
    rfl
  | web =>
    simp only [FrontEnd.dispatches, webDispatch, htask, hcomponent, Bool.and_false,
      Prog.when_false]
    rfl

/-- A front end's own dispatch of a tag update: only the command line has
one. -/
theorem dispatches_tags (env : Env) (row : ApprovalRequest) (h : row.isTagsSet = true) (f : FrontEnd) (w : World) :
    ((f.dispatches row).run (exec env) w).2
      = if f = .cli then ((dispatchApprovedNetworkTagUpdate row.approvalId).run (exec env) w).2
        else w := by
  obtain ⟨htask, hcomponent, hacl⟩ := only_tags h
  by_cases hf : f = .cli
  · subst hf
    simp only [FrontEnd.dispatches, cliDispatch, h, htask, hcomponent, hacl, Prog.when_true,
      Prog.when_false, Prog.ret_bind, Prog.throw_eq, if_true]
    rw [run_bind_idle (fun _ => idle_ret _), run_bind_idle (fun dispatched => ?_),
      run_onNetworkProviderError fun _ => idle_raise _]
    cases dispatched <;> first | exact idle_raise _ | exact idle_ret _
  · rw [if_neg hf]
    exact dispatches_none env row htask hcomponent hacl f (fun h => absurd h hf) w

/-- The decision itself only dispatches tasks and component actions. -/
theorem dispatchResolved_none (row : ApprovalRequest) (htask : row.isTaskRun = false)
    (hcomponent : row.isComponentAction = false) : dispatchResolved row .approved = .ret () := by
  simp only [dispatchResolved, htask, hcomponent, Bool.and_false, Prog.when_false]
  rfl

end Kinds

/-! ## §5. When the front ends agree. -/

section

variable {env : Env} {id decidedBy : String} {a : ApprovalRequest} {w : World}

/-- The dispatch of an approved ACL change has an effect exactly when it
writes the file. -/
theorem acl_effect_iff (env : Env) (decidedBy : String) (hacl : a.isAclApply = true) (hfound : stored id w = some a) :
    ((dispatchApprovedNetworkAclApply id).run (exec env) (decidedWorld env a decidedBy w)).2.effect
        = w.effect ↔ ¬ WritesAcl env a w := by
  set row := decidedRow env a decidedBy w with hrow
  set w₁ := decidedWorld env a decidedBy w with hw₁
  -- The decision changes no field that the readiness of the change depends on.
  have hready : ∀ {c p o n}, AclReady env row w₁ c p o n ↔ AclReady env a w c p o n := fun {_ _ _ _} =>
    ⟨fun ⟨hc, hp, ho, hn, hu⟩ => ⟨hc, hp, ho, hn, hu⟩, fun ⟨hc, hp, ho, hn, hu⟩ => ⟨hc, hp, ho, hn, hu⟩⟩
  unfold dispatchApprovedNetworkAclApply
  rw [run_call_bind, load_decided hfound, ← hrow]
  have hstatus : row.status = .approved := rfl
  have hkind : row.isAclApply = true := hacl
  simp only [hstatus, hkind, ne_eq, not_true_eq_false, if_false]
  rcases applyAcl_cases env row w₁ with ⟨c, p, o, n, hr, heq⟩ | ⟨hno, heq⟩
  · rw [heq]
    rcases writeAcl_effects env row c p o n w₁ with
      ⟨hwrite, commands, heffects, -⟩ | ⟨⟨m, hm⟩, hsame⟩
    -- The file is written: at least one effect more than before.
    · refine iff_of_false (fun h => ?_) (not_not.mpr ⟨hacl, ⟨c, p, o, n, hready.mp hr⟩, hwrite⟩)
      have := congrArg (fun e => e.effects.length) h
      simp only [World.effect, heffects, List.length_append, List.length_cons] at this
      rw [show w₁.effects = w.effects from rfl] at this
      omega
    -- The file system refuses the write.
    · refine iff_of_true hsame ?_
      rintro ⟨-, -, hwrite⟩
      rw [show env.write w.writes = .error m from hm] at hwrite
      cases hwrite
  -- The change is not ready, so nothing is tried.
  · refine iff_of_true heq ?_
    rintro ⟨-, ⟨c, p, o, n, hr⟩, -⟩
    exact hno c p o n (hready.mpr hr)

/-- The dispatch of an approved tag update has an effect exactly when the
provider takes the tags. -/
theorem tags_effect_iff (env : Env) (decidedBy : String) (htags : a.isTagsSet = true) (hfound : stored id w = some a) :
    ((dispatchApprovedNetworkTagUpdate id).run (exec env) (decidedWorld env a decidedBy w)).2.effect
        = w.effect ↔ ¬ UpdatesTags env a w := by
  set row := decidedRow env a decidedBy w with hrow
  set w₁ := decidedWorld env a decidedBy w with hw₁
  -- The decision changes no field that the readiness of the update depends on.
  have hready : ∀ {tags node provider}, TagsReady env row w₁ tags node provider
      ↔ TagsReady env a w tags node provider := fun {_ _ _} =>
    ⟨fun ⟨hr, hi, hp, hf, hm, hc, ha⟩ => ⟨hr, hi, hp, hf, hm, hc, ha⟩,
      fun ⟨hr, hi, hp, hf, hm, hc, ha⟩ => ⟨hr, hi, hp, hf, hm, hc, ha⟩⟩
  unfold dispatchApprovedNetworkTagUpdate
  rw [run_call_bind, load_decided hfound, ← hrow]
  have hstatus : row.status = .approved := rfl
  have hkind : row.isTagsSet = true := htags
  simp only [hstatus, hkind, ne_eq, not_true_eq_false, if_false]
  rcases dispatchTags_cases env row w₁ with ⟨⟨tags, node, provider, hr⟩, hlt⟩ | ⟨hno, heq⟩
  · refine iff_of_false (fun h => ?_)
      (not_not.mpr ⟨htags, tags, node, provider, hready.mp hr⟩)
    have := congrArg (fun e => e.effects.length) h
    simp only [World.effect] at this
    rw [this] at hlt
    exact absurd hlt (lt_irrefl _)
  · refine iff_of_true heq ?_
    rintro ⟨-, tags, node, provider, hr⟩
    exact hno tags node provider (hready.mpr hr)

/-- The effect of a front end, from the world after the decision on. -/
theorem approvedEffect_eq (env : Env) (decidedBy : String) (f : FrontEnd)
    (hcolon : ':' ∉ id.toList) (hstart : Text.startsWith id "appr_" = true)
    (hfound : stored id w = some a) (hpending : a.status = .pending) :
    approvedEffect env f id decidedBy w =
      match (dispatchResolved (decidedRow env a decidedBy w) .approved).run (exec env)
        (decidedWorld env a decidedBy w) with
      | (.ok _, w') => ((f.dispatches (decidedRow env a decidedBy w)).run (exec env) w').2.effect
      | (.error _, w') => w'.effect := by
  unfold approvedEffect
  rw [decides_run f hcolon hstart hfound hpending, Prog.run_bind]
  rcases (dispatchResolved (decidedRow env a decidedBy w) .approved).run (exec env)
    (decidedWorld env a decidedBy w) with ⟨e | u, w'⟩ <;> rfl

/-- **The front ends agree on every kind of request but two.**  Approving a
pending request through the API, the command line, the Telegram callback or
the web console has the same effect exactly when the request is not an ACL
change that would be written (the web console does not know these) and not a
tag update that would be made (only the command line knows these). -/
theorem front_ends_agree_iff (env : Env) (w : World) (id decidedBy : String) (a : ApprovalRequest)
    (hcolon : ':' ∉ id.toList) (hstart : Text.startsWith id "appr_" = true)
    (hfound : stored id w = some a) (hpending : a.status = .pending) :
    FrontEndsAgree env id decidedBy w ↔ ¬ WritesAcl env a w ∧ ¬ UpdatesTags env a w := by
  have heffect := fun f => approvedEffect_eq env decidedBy f hcolon hstart hfound hpending
  have hid : (decidedRow env a decidedBy w).approvalId = id :=
    show a.approvalId = id from Table.key_of_find? hfound
  -- The store itself dispatches only tasks and component actions.
  have hquiet : ∀ (_ : a.isTaskRun = false) (_ : a.isComponentAction = false) (f : FrontEnd),
      approvedEffect env f id decidedBy w = ((f.dispatches (decidedRow env a decidedBy w)).run
        (exec env) (decidedWorld env a decidedBy w)).2.effect := by
    intro htask hcomponent f
    rw [heffect, dispatchResolved_none (decidedRow env a decidedBy w) htask hcomponent]
    rfl
  -- A task and a component action are dispatched by every front end.
  by_cases htask : a.isTaskRun = true
  · obtain ⟨-, hacl, htags⟩ := only_task htask
    refine iff_of_true (fun f g => ?_) ⟨fun h => ?_, fun h => ?_⟩
    · rw [heffect, heffect]
      simp only [dispatches_task env (decidedRow env a decidedBy w) htask]
    · exact absurd (hacl.symm.trans h.1) Bool.false_ne_true
    · exact absurd (htags.symm.trans h.1) Bool.false_ne_true
  by_cases hcomponent : a.isComponentAction = true
  · obtain ⟨-, hacl, htags⟩ := only_component hcomponent
    refine iff_of_true (fun f g => ?_) ⟨fun h => ?_, fun h => ?_⟩
    · rw [heffect, heffect]
      simp only [dispatches_component env (decidedRow env a decidedBy w) hcomponent]
    · exact absurd (hacl.symm.trans h.1) Bool.false_ne_true
    · exact absurd (htags.symm.trans h.1) Bool.false_ne_true
  rw [Bool.not_eq_true] at htask hcomponent
  -- Of an ACL change the API and the web console are a pair that differs.
  by_cases hacl : a.isAclApply = true
  · obtain ⟨-, -, htags⟩ := only_acl hacl
    have hdispatch := fun f => (hquiet htask hcomponent f).trans (congrArg World.effect
      (dispatches_acl env (decidedRow env a decidedBy w) hacl f _))
    rw [hid] at hdispatch
    have hiff := acl_effect_iff env decidedBy hacl hfound
    constructor
    · intro h
      refine ⟨hiff.mp ?_, fun ht => absurd (htags.symm.trans ht.1) Bool.false_ne_true⟩
      have := h .api .web
      rwa [hdispatch, hdispatch, if_pos rfl, if_neg (by decide), decidedWorld_effect] at this
    · rintro ⟨hno, -⟩ f g
      have hsame : ∀ f, approvedEffect env f id decidedBy w = w.effect := by
        intro f
        rw [hdispatch]
        split_ifs
        · exact decidedWorld_effect
        · exact hiff.mpr hno
      rw [hsame, hsame]
  -- Of a tag update the command line and the web console are a pair that differs.
  by_cases htags : a.isTagsSet = true
  · have hdispatch := fun f => (hquiet htask hcomponent f).trans (congrArg World.effect
      (dispatches_tags env (decidedRow env a decidedBy w) htags f _))
    rw [hid] at hdispatch
    have hiff := tags_effect_iff env decidedBy htags hfound
    constructor
    · intro h
      refine ⟨fun ht => hacl ht.1, hiff.mp ?_⟩
      have := h .cli .web
      rwa [hdispatch, hdispatch, if_pos rfl, if_neg (by decide), decidedWorld_effect] at this
    · rintro ⟨-, hno⟩ f g
      have hsame : ∀ f, approvedEffect env f id decidedBy w = w.effect := by
        intro f
        rw [hdispatch]
        split_ifs
        · exact hiff.mpr hno
        · exact decidedWorld_effect
      rw [hsame, hsame]
  -- Nobody dispatches anything of another kind.
  rw [Bool.not_eq_true] at hacl htags
  refine iff_of_true (fun f g => ?_) ⟨fun h => ?_, fun h => ?_⟩
  · have hnone := fun f : FrontEnd => dispatches_none env
      (decidedRow env a decidedBy w) htask hcomponent hacl f (fun _ => htags)
    rw [hquiet htask hcomponent, hquiet htask hcomponent, hnone, hnone]
  · exact absurd (hacl.symm.trans h.1) Bool.false_ne_true
  · exact absurd (htags.symm.trans h.1) Bool.false_ne_true

end

/-! ## §6. An ACL change and a tag update. -/

/-- A task is created once, whoever approves the request. -/
theorem front_ends_agree_task :
    FrontEndsAgree Env.quiet "appr_000000000001" "alice" raceWorld :=
  (front_ends_agree_iff Env.quiet raceWorld "appr_000000000001" "alice" raceApproval
    (by decide) (by decide) (by decide +kernel) rfl).mpr
    ⟨fun h => absurd h.1 (by decide), fun h => absurd h.1 (by decide)⟩

/-- A managed node that the provider knows. -/
def networkNode : Node :=
  { raceNode with networkProvider := "headscale", networkNodeId := "7" }

/-- A pending request to set the tags of that node. -/
def tagsApproval : ApprovalRequest where
  approvalId := "appr_000000000002"
  subjectType := "network_node"
  subjectId := "node_000000000001"
  action := "network.tags.set"
  risk := "high"
  status := .pending
  requestedBy := "hmn"
  details := [("node_id", .str "node_000000000001"), ("provider", .str "headscale"),
    ("provider_node_id", .str "7"), ("old_tags", .arr []),
    ("requested_tags", .arr [.str "tag:web"])]
  createdAt := 0

/-- The store with that node and that request. -/
def tagsWorld : World where
  store := { Store.empty with nodes := .single networkNode, approvals := .single tagsApproval }
  files _ := .missing

/-- A quiet outside world with a network provider. -/
def Env.headscale : Env := { Env.quiet with provider := fun _ => .ok (some "headscale") }

/-- **The front ends disagree on ACL changes and on tag updates.**  The plan
of an ACL change that the web console approves is not applied, the API
applies it; the tags of a node that the API approves are not set, the
command line sets them. -/
theorem front_ends_disagree :
    ¬ FrontEndsAgree Env.quiet "appr_00000000000a" "alice" aclPlannedWorld
    ∧ ¬ FrontEndsAgree Env.headscale "appr_000000000002" "alice" tagsWorld := by
  constructor
  · intro h
    have := congrArg Effects.effects (h .api .web)
    revert this
    decide +kernel
  · intro h
    have := congrArg Effects.effects (h .cli .api)
    revert this
    decide +kernel

end Hmn
