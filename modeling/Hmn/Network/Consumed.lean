/-
  Hmn.Network.Consumed — is a network approval carried out only once?

  A task request and a component action leave a mark when they are carried
  out.  A tag update and an ACL change leave none: the front ends other than
  the command line refuse a request that is already decided, but `hmn
  approval approve` gets the decided row back and dispatches it again.

  Main results: `network_approval_consumed_iff` — a request is carried out at
  most once exactly when the command line never approves it again while it is
  ready to be carried out; `network_approvals_not_consumed` — histories in
  which it is carried out twice.
-/
import Hmn.Approval.Agreement

namespace Hmn

open Framework Py

/-! ## §1. Histories. -/

/-- What can happen around a network approval. -/
inductive NetworkEvent where
  /-- Someone decides an approval through a front end or the store. -/
  | decide (caller : DecisionCaller)
  /-- `hmn network sync`. -/
  | sync
  /-- Anyone changes a file. -/
  | edit (path : String) (state : FileState)

/-- The request a decision is about. -/
def DecisionCaller.request : DecisionCaller → Option String
  | .store approvalId _ _ => some approvalId
  | .api approvalId _ _ => some approvalId
  | .cli approvalId _ _ => some approvalId
  | .telegram callbackData _ => (parseApprovalCallback callbackData).map Prod.snd
  | .web approvalId _ _ => some approvalId

/-- What an event runs. -/
def NetworkEvent.program : NetworkEvent → Py Unit
  | .decide caller => caller.program
  | .sync => do let _ ← syncNetworkNodes
  | .edit _ _ => .ret ()

/-- The world after an event. -/
def NetworkEvent.happens (env : Env) (w : World) : NetworkEvent → World
  | .edit path state => { w with files := Function.update w.files path state }
  | event => (event.program.run (exec env) w).2

/-- The world after a history. -/
def NetworkEvent.replay (env : Env) (w : World) (events : List NetworkEvent) : World :=
  events.foldl (NetworkEvent.happens env) w

/-! ## §2. What is carried out. -/

/-- The successful requests to the provider and writes of the ACL file. -/
def Effect.isNetwork : Effect → Bool
  | .setNodeTags .. | .writeText .. => true
  | _ => false

/-- The calls that can have such an effect. -/
def Call.isNetwork : Call → Bool
  | .setNodeTags .. | .writeText .. => true
  | _ => false

section Sends

variable {env : Env} {α β : Type} {w : World}

/-- What a program carries out, run from `w`. -/
def sends (env : Env) (p : Py α) (w : World) : List Effect :=
  ((p.run (exec env) w).2.effects.drop w.effects.length).filter Effect.isNetwork

theorem sends_of_effects {p : Py α} (added : List Effect)
    (h : (p.run (exec env) w).2.effects = w.effects ++ added) :
    sends env p w = added.filter Effect.isNetwork := by
  rw [sends, h, List.drop_left]

theorem sends_bind (p : Py α) (f : α → Py β) (w : World) :
    sends env (p >>= f) w = sends env p w ++
      match p.run (exec env) w with
      | (.ok a, w') => sends env (f a) w'
      | (.error _, _) => [] := by
  obtain ⟨added, hadded⟩ := run_effects_grow env p w
  rw [sends_of_effects added hadded.symm]
  cases hrun : p.run (exec env) w with
  | mk r w' =>
    rw [hrun] at hadded
    have hbind := Prog.run_bind (exec env) p f w
    rw [hrun] at hbind
    cases r with
    | error e =>
      rw [List.append_nil]
      exact sends_of_effects added (by rw [hbind, hadded])
    | ok a =>
      obtain ⟨more, hmore⟩ := run_effects_grow env (f a) w'
      simp only
      rw [sends_of_effects more hmore.symm, ← List.filter_append]
      exact sends_of_effects (added ++ more) (by rw [hbind, ← hmore, ← hadded, List.append_assoc])

theorem exec_quiet (env : Env) {op : Call} (h : op.isNetwork = false) (w : World) : ∃ added,
    (exec env op w).2.effects = w.effects ++ added ∧ added.filter Effect.isNetwork = [] := by
  cases op with
  | writeText path content => cases h
  | setNodeTags providerNodeId tags => cases h
  | runCommand command => exact ⟨[.runCommand command], rfl, rfl⟩
  | runSsh port target command => exact ⟨[.runSsh port target command], rfl, rfl⟩
  | insertNotification n =>
    refine ⟨[], ?_, rfl⟩
    simp only [exec]
    cases w.store.notifications.insert? n <;> simp
  | readText path =>
    refine ⟨[], ?_, rfl⟩
    simp only [exec]
    cases w.files path <;> simp
  | _ => exact ⟨[], (List.append_nil _).symm, rfl⟩

/-- A call of another kind carries nothing out. -/
theorem sends_call_bind {op : Call} (h : op.isNetwork = false) (f : Call.Res op → Py α)
    (w : World) :
    sends env (call op >>= f) w = sends env (f (exec env op w).1) (exec env op w).2 := by
  obtain ⟨added, hadded, hnone⟩ := exec_quiet env h w
  obtain ⟨more, hmore⟩ := run_effects_grow env (f (exec env op w).1) (exec env op w).2
  rw [sends_of_effects more hmore.symm]
  rw [sends_of_effects (added ++ more) (by
    rw [run_call_bind, ← hmore, hadded, List.append_assoc])]
  rw [List.filter_append, hnone, List.nil_append]

theorem sends_ret (a : α) (w : World) : sends env (.ret a : Py α) w = [] :=
  (sends_of_effects [] (List.append_nil _).symm)

theorem sends_raise (e : PyError) (w : World) : sends env (.raise e : Py α) w = [] :=
  (sends_of_effects [] (List.append_nil _).symm)

theorem sends_quiet {p : Py α} (h : p.Calls (fun op : Call => op.isNetwork = false)) (w : World) :
    sends env p w = [] := by
  induction p generalizing w with
  | ret a => exact sends_ret a w
  | raise e => exact sends_raise e w
  | call op k ih =>
    obtain ⟨hop, hk⟩ := Prog.calls_call.mp h
    exact (sends_call_bind hop k w).trans (ih _ (hk _) _)

theorem sends_quiet_bind {p : Py α} (h : p.Calls (fun op : Call => op.isNetwork = false))
    (f : α → Py β) (w : World) : sends env (p >>= f) w =
      match p.run (exec env) w with
      | (.ok a, w') => sends env (f a) w'
      | (.error _, _) => [] := by
  rw [sends_bind, sends_quiet h, List.nil_append]

end Sends

/-! ## §3. The two dispatches. -/

section Dispatch

variable {env : Env} {w : World} {approval : ApprovalRequest}

theorem sends_writeAcl (current proposed old new : String) :
    sends env (writeAcl approval current proposed old new) w
      = if env.write w.writes = .ok () then [.writeText current new] else [] := by
  obtain ⟨hok, commands, heffects, hall⟩ | ⟨⟨m, hm⟩, hsame⟩ :=
    writeAcl_effects env approval current proposed old new w
  · rw [if_pos hok, sends_of_effects _ heffects, List.filter_cons_of_pos rfl]
    refine congrArg _ (List.filter_eq_nil_iff.mpr (fun e he => ?_))
    obtain ⟨command, rfl⟩ := hall e he
    simp [Effect.isNetwork]
  · rw [if_neg (by simp [hm])]
    refine sends_of_effects [] ?_
    rw [List.append_nil]
    exact congrArg Effects.effects hsame

/-- **An approved ACL change is written once, if it is ready.** -/
theorem sends_applyAcl (hkind : approval.isAclApply = true) :
    (sends env (applyAcl approval) w).length ≤ 1
    ∧ (sends env (applyAcl approval) w ≠ [] ↔ WritesAcl env approval w) := by
  obtain ⟨c, p, o, n, hready, heq⟩ | ⟨hno, heq⟩ := applyAcl_cases env approval w
  · have hsends : sends env (applyAcl approval) w
        = if env.write w.writes = .ok () then [.writeText c n] else [] := by
      rw [← sends_writeAcl c p o n, sends, sends, heq]
    rw [hsends]
    by_cases hok : env.write w.writes = .ok ()
    · rw [if_pos hok]
      exact ⟨le_rfl, iff_of_true (List.cons_ne_nil _ _) ⟨hkind, ⟨c, p, o, n, hready⟩, hok⟩⟩
    · rw [if_neg hok]
      exact ⟨Nat.zero_le 1, iff_of_false (fun h => h rfl) (fun h => hok h.2.2)⟩
  · have hsends : sends env (applyAcl approval) w = [] := sends_of_effects [] (by
      rw [List.append_nil]
      exact congrArg Effects.effects heq)
    rw [hsends]
    refine ⟨Nat.zero_le 1, iff_of_false (fun h => h rfl) ?_⟩
    rintro ⟨-, ⟨c, p, o, n, hready⟩, -⟩
    exact hno c p o n hready

theorem sends_updateTags (nodeId providerNodeId : String) (tags : List String) (node : Node)
    {provider : String} (hprovider : env.provider w.requests = .ok (some provider))
    (hok : env.setNodeTags (w.requests + 1) = .ok ()) :
    sends env (updateTags approval nodeId providerNodeId tags node) w
      = [.setNodeTags providerNodeId tags] := by
  refine sends_of_effects [.setNodeTags providerNodeId tags] ?_
  unfold updateTags
  rw [run_requireNetworkProvider_bind, hprovider]
  simp only
  rw [run_call_bind]
  simp only [exec, hok, raising]
  rfl

/-- A tag update whose checks pass goes to the provider. -/
theorem dispatchTags_ready {tags : List String} {node : Node} {provider : String}
    (h : TagsReady env approval w tags node provider) :
    (dispatchTags approval).run (exec env) w
      = (updateTags approval (approval.details.getStr "node_id" approval.subjectId)
          (approval.details.getStr "provider_node_id" "") tags node).run (exec env) w := by
  unfold dispatchTags
  simp only [h.requested, orRaise_ok, Prog.ret_bind]
  rw [if_neg (not_or.mpr ⟨h.nodeId, h.providerNodeId⟩), run_call_bind]
  simp only [exec, h.found, h.managed, ne_eq, not_true_eq_false, if_false]

/-- **An approved tag update is sent once, if it is ready.** -/
theorem sends_dispatchTags (hkind : approval.isTagsSet = true) :
    (sends env (dispatchTags approval) w).length ≤ 1
    ∧ (sends env (dispatchTags approval) w ≠ [] ↔ UpdatesTags env approval w) := by
  obtain ⟨⟨tags, node, provider, hready⟩, -⟩ | ⟨hno, heq⟩ := dispatchTags_cases env approval w
  · have hsends : sends env (dispatchTags approval) w
        = [.setNodeTags (approval.details.getStr "provider_node_id" "") tags] := by
      rw [sends, dispatchTags_ready hready]
      exact sends_updateTags _ _ tags node hready.configured hready.accepted
    rw [hsends]
    exact ⟨le_rfl, iff_of_true (List.cons_ne_nil _ _) ⟨hkind, tags, node, provider, hready⟩⟩
  · have hsends : sends env (dispatchTags approval) w = [] := sends_of_effects [] (by
      rw [List.append_nil]
      exact congrArg Effects.effects heq)
    rw [hsends]
    refine ⟨Nat.zero_le 1, iff_of_false (fun h => h rfl) ?_⟩
    rintro ⟨-, tags, node, provider, hready⟩
    exact hno tags node provider hready

/-- The stored request is approved, of a network kind, and ready to be
carried out. -/
def ReadyToSend (env : Env) (id : String) (w : World) : Prop :=
  ∃ a, stored id w = some a ∧ a.status = .approved ∧ (WritesAcl env a w ∨ UpdatesTags env a w)

theorem sends_load {α : Type} (id : String) (f : Option ApprovalRequest → Py α) (w : World) :
    sends env (call (.loadApprovalRequest id) >>= f) w = sends env (f (stored id w)) w := by
  have hload : (Call.loadApprovalRequest id).isNetwork = false := rfl
  exact sends_call_bind hload f w

/-- A dispatch that looks at the stored request, and only carries it out when
it is approved and of the right kind. -/
theorem sends_guarded {p : Py Bool} {q : ApprovalRequest → Prop} {carry : ApprovalRequest → Py Bool}
    {kind : ApprovalRequest → Bool} {id : String}
    (hp : p = do
      match ← call (.loadApprovalRequest id) with
      | none => return false
      | some approval =>
        if approval.status ≠ .approved then return false
        else if ¬ kind approval then return false
        else carry approval)
    (hkind : ∀ a, q a → kind a = true)
    (hcarry : ∀ a, kind a = true →
      (sends env (carry a) w).length ≤ 1 ∧ (sends env (carry a) w ≠ [] ↔ q a)) :
    (sends env p w).length ≤ 1
    ∧ (sends env p w ≠ [] ↔ ∃ a, stored id w = some a ∧ a.status = .approved ∧ q a) := by
  rw [hp, sends_load]
  cases hstored : stored id w with
  | none =>
    refine ⟨by simp [sends_ret], iff_of_false (by simp [sends_ret]) ?_⟩
    rintro ⟨a, h, -⟩
    cases h
  | some a =>
    have hone : (∃ b, some a = some b ∧ b.status = .approved ∧ q b)
        ↔ a.status = .approved ∧ q a := by simp
    rw [hone]
    simp only
    by_cases happroved : a.status = .approved
    · rw [if_neg (not_not.mpr happroved)]
      by_cases hk : kind a = true
      · rw [if_neg (not_not.mpr hk)]
        obtain ⟨hle, hiff⟩ := hcarry a hk
        exact ⟨hle, hiff.trans (and_iff_right happroved).symm⟩
      · rw [if_pos hk]
        exact ⟨by simp [sends_ret], iff_of_false (by simp [sends_ret]) (fun h => hk (hkind a h.2))⟩
    · rw [if_pos happroved]
      exact ⟨by simp [sends_ret], iff_of_false (by simp [sends_ret]) (fun h => happroved h.1)⟩

theorem sends_dispatchAcl (env : Env) (id : String) (w : World) :
    (sends env (dispatchApprovedNetworkAclApply id) w).length ≤ 1
    ∧ (sends env (dispatchApprovedNetworkAclApply id) w ≠ [] ↔
        ∃ a, stored id w = some a ∧ a.status = .approved ∧ WritesAcl env a w) :=
  sends_guarded rfl (fun _ h => h.1) (fun _ hkind => sends_applyAcl hkind)

theorem sends_dispatchTagUpdate (env : Env) (id : String) (w : World) :
    (sends env (dispatchApprovedNetworkTagUpdate id) w).length ≤ 1
    ∧ (sends env (dispatchApprovedNetworkTagUpdate id) w ≠ [] ↔
        ∃ a, stored id w = some a ∧ a.status = .approved ∧ UpdatesTags env a w) :=
  sends_guarded rfl (fun _ h => h.1) (fun _ hkind => sends_dispatchTags hkind)

end Dispatch

/-! ## §4. The front ends. -/

/-- A program that carries nothing out. -/
def Quiet {α : Type} (p : Py α) : Prop := p.Calls (fun op : Call => op.isNetwork = false)

section Quiet

variable {α : Type}

theorem dispatchApprovedTaskRequest_quiet (id : String) : Quiet (dispatchApprovedTaskRequest id) :=
  calls_call_bind.mpr ⟨rfl, fun r => calls_orRaise r⟩

theorem dispatchResolved_quiet (approval : ApprovalRequest) (status : Decision) :
    Quiet (dispatchResolved approval status) := by
  unfold dispatchResolved
  refine Prog.calls_bind (calls_when ?_) (fun _ => calls_when ?_)
  · exact Prog.calls_bind (dispatchApprovedTaskRequest_quiet _) (fun _ => Prog.calls_ret)
  · exact calls_call_bind.mpr ⟨rfl, fun _ => Prog.calls_ret⟩

theorem resolveApprovalRequest_quiet (id : String) (status : Decision) (decidedBy : String) :
    Quiet (resolveApprovalRequest id status decidedBy) := by
  unfold resolveApprovalRequest
  refine calls_call_bind.mpr ⟨rfl, fun r => ?_⟩
  cases r with
  | none => exact Prog.calls_ret
  | some approval =>
    simp only
    split_ifs
    · exact Prog.calls_ret
    · refine calls_call_bind.mpr ⟨rfl, fun now => calls_call_bind.mpr ⟨rfl, fun _ => ?_⟩⟩
      refine calls_call_bind.mpr ⟨rfl, fun _ => ?_⟩
      exact Prog.calls_bind (dispatchResolved_quiet _ _) (fun _ => Prog.calls_ret)

end Quiet

/-- What may be said of a program that carries out the request `id`: it does
so at most once, and only while the request is approved. -/
def CarriesOnce (env : Env) (id : String) {α : Type} (p : Py α) : Prop :=
  ∀ w, (sends env p w).length ≤ 1
    ∧ (sends env p w ≠ [] → (stored id w).map ApprovalRequest.status = some .approved)

section Carries

variable {env : Env} {id : String} {α β : Type} {w : World}

theorem carriesOnce_of_nil {p : Py α} (h : ∀ w, sends env p w = []) : CarriesOnce env id p :=
  fun w => ⟨by simp [h w], fun hne => absurd (h w) hne⟩

theorem carriesOnce_quiet {p : Py α} (h : Quiet p) : CarriesOnce env id p :=
  carriesOnce_of_nil (sends_quiet h)

theorem carriesOnce_congr {p : Py α} {q : Py β} (h : ∀ w, sends env p w = sends env q w)
    (hq : CarriesOnce env id q) : CarriesOnce env id p := by
  intro w
  rw [h w]
  exact hq w

theorem carriesOnce_acl (id : String) :
    CarriesOnce env id (dispatchApprovedNetworkAclApply id) := by
  intro w
  obtain ⟨hle, hiff⟩ := sends_dispatchAcl env id w
  refine ⟨hle, fun h => ?_⟩
  obtain ⟨a, ha, happroved, -⟩ := hiff.mp h
  rw [ha, Option.map_some, happroved]

theorem carriesOnce_tags (id : String) :
    CarriesOnce env id (dispatchApprovedNetworkTagUpdate id) := by
  intro w
  obtain ⟨hle, hiff⟩ := sends_dispatchTagUpdate env id w
  refine ⟨hle, fun h => ?_⟩
  obtain ⟨a, ha, happroved, -⟩ := hiff.mp h
  rw [ha, Option.map_some, happroved]

/-- Carrying out approved work keeps the status of the request. -/
theorem carriesOut_keeps_status {p : Py α} (h : p.Calls Call.carriesOut) (id : String)
    (w : World) : (stored id (p.run (exec env) w).2).map ApprovalRequest.status
      = (stored id w).map ApprovalRequest.status := by
  refine Prog.run_keeps (I := fun w' => (stored id w').map ApprovalRequest.status
    = (stored id w).map ApprovalRequest.status) (fun op w' hop hw' => ?_) h w rfl
  refine (exec_keeps_status ?_).trans hw'
  cases op with
  | saveApprovalRequest a => exact (hop : False).elim
  | _ => rfl

/-- **The dispatches of a front end carry a request out at most once**, and
only an approved one. -/
theorem carriesOnce_dispatches (f : FrontEnd) (row : ApprovalRequest) :
    CarriesOnce env row.approvalId (f.dispatches row) := by
  have hcongr : ∀ {γ : Type} {q : Py γ}, CarriesOnce env row.approvalId q →
      (∀ w, ((f.dispatches row).run (exec env) w).2 = (q.run (exec env) w).2) →
      CarriesOnce env row.approvalId (f.dispatches row) :=
    fun hq h => carriesOnce_congr (fun w => by rw [sends, h w]; rfl) hq
  have hidle : (∀ w, ((f.dispatches row).run (exec env) w).2 = w) →
      CarriesOnce env row.approvalId (f.dispatches row) :=
    fun h => hcongr (q := (.ret () : Py Unit)) (carriesOnce_quiet Prog.calls_ret) h
  by_cases htask : row.isTaskRun = true
  · refine hcongr (q := call (.dispatchApprovedTaskRequest row.approvalId)) ?_
      (dispatches_task env row htask f)
    exact carriesOnce_quiet (Prog.calls_call.mpr ⟨rfl, fun _ => Prog.calls_ret⟩)
  by_cases hcomponent : row.isComponentAction = true
  · refine hcongr (q := call (.dispatchApprovedComponentAction row.approvalId)) ?_
      (dispatches_component env row hcomponent f)
    exact carriesOnce_quiet (Prog.calls_call.mpr ⟨rfl, fun _ => Prog.calls_ret⟩)
  by_cases hacl : row.isAclApply = true
  · have hrun := dispatches_acl env row hacl f
    by_cases hf : f = .web
    · simp only [if_pos hf] at hrun
      exact hidle hrun
    · simp only [if_neg hf] at hrun
      exact hcongr (carriesOnce_acl row.approvalId) hrun
  by_cases htags : row.isTagsSet = true
  · have hrun := dispatches_tags env row htags f
    by_cases hf : f = .cli
    · simp only [if_pos hf] at hrun
      exact hcongr (carriesOnce_tags row.approvalId) hrun
    · simp only [if_neg hf] at hrun
      exact hidle hrun
  · rw [Bool.not_eq_true] at htask hcomponent hacl htags
    exact hidle (dispatches_none env row htask hcomponent hacl f (fun _ => htags))

/-- The command line carries out a stored request exactly when it is ready. -/
theorem cli_dispatches_iff {row : ApprovalRequest} (hstored : stored row.approvalId w = some row) :
    sends env (FrontEnd.cli.dispatches row) w ≠ [] ↔ ReadyToSend env row.approvalId w := by
  have hready : ReadyToSend env row.approvalId w
      ↔ row.status = .approved ∧ (WritesAcl env row w ∨ UpdatesTags env row w) := by
    simp [ReadyToSend, hstored]
  rw [hready]
  by_cases hacl : row.isAclApply = true
  · have hsends : sends env (FrontEnd.cli.dispatches row) w
        = sends env (dispatchApprovedNetworkAclApply row.approvalId) w := by
      rw [sends, dispatches_acl env row hacl .cli w]
      rfl
    have htags : ¬ UpdatesTags env row w := by
      rintro ⟨h, -⟩
      rw [(only_acl hacl).2.2] at h
      cases h
    rw [hsends, (sends_dispatchAcl _ row.approvalId w).2]
    simp [hstored, htags]
  have hnotAcl : ¬ WritesAcl env row w := fun h => hacl h.1
  by_cases htags : row.isTagsSet = true
  · have hsends : sends env (FrontEnd.cli.dispatches row) w
        = sends env (dispatchApprovedNetworkTagUpdate row.approvalId) w := by
      rw [sends, dispatches_tags env row htags .cli w]
      rfl
    rw [hsends, (sends_dispatchTagUpdate _ row.approvalId w).2]
    simp [hstored, hnotAcl]
  have hnotTags : ¬ UpdatesTags env row w := fun h => htags h.1
  refine iff_of_false (not_not.mpr ?_) (fun h => h.2.elim hnotAcl hnotTags)
  by_cases htask : row.isTaskRun = true
  · rw [sends, dispatches_task env row htask .cli w]
    exact sends_quiet (p := call (.dispatchApprovedTaskRequest row.approvalId))
      (Prog.calls_call.mpr ⟨rfl, fun _ => Prog.calls_ret⟩) w
  by_cases hcomponent : row.isComponentAction = true
  · rw [sends, dispatches_component env row hcomponent .cli w]
    exact sends_quiet (p := call (.dispatchApprovedComponentAction row.approvalId))
      (Prog.calls_call.mpr ⟨rfl, fun _ => Prog.calls_ret⟩) w
  · rw [Bool.not_eq_true] at htask hcomponent hacl htags
    rw [sends, dispatches_none env row htask hcomponent hacl .cli (fun _ => htags) w]
    simp

end Carries

/-! ## §5. The callers. -/

section Callers

variable {env : Env} {id : String} {α : Type} {w : World}

/-- What one run of a program does to the request `id`. -/
def Carried (env : Env) (id : String) (p : Py α) (w : World) : Prop :=
  (sends env p w).length ≤ 1
    ∧ (sends env p w ≠ [] →
      (stored id (p.run (exec env) w).2).map ApprovalRequest.status = some .approved)

theorem carried_of_nil {p : Py α} (h : sends env p w = []) : Carried env id p w :=
  ⟨by simp [h], fun hne => absurd h hne⟩

theorem carried_of_once {p : Py α} (h : CarriesOnce env id p) (hkeep : p.Calls Call.carriesOut)
    (w : World) : Carried env id p w := by
  refine ⟨(h w).1, fun hne => ?_⟩
  rw [carriesOut_keeps_status hkeep]
  exact (h w).2 hne

/-- The row that a decision answers with is the one that was asked for. -/
theorem resolve_answer {status : Decision} {decidedBy : String} {row : ApprovalRequest}
    {w' : World} (h : (resolveApprovalRequest id status decidedBy).run (exec env) w
      = (.ok (some row), w')) : row.approvalId = id := by
  unfold resolveApprovalRequest at h
  rw [run_call_bind, show exec env (.loadApprovalRequest id) w = (stored id w, w) from rfl] at h
  cases hstored : stored id w with
  | none =>
    rw [hstored] at h
    cases h
  | some a =>
    have hid : a.approvalId = id := Table.key_of_find? hstored
    rw [hstored] at h
    simp only at h
    by_cases hpending : a.status ≠ .pending
    · rw [if_pos hpending] at h
      cases h
      exact hid
    · rw [if_neg hpending, run_call_bind, run_call_bind, run_call_bind, Prog.run_bind] at h
      split at h
      · cases h
        exact hid
      · cases h

/-- A request that is decided is answered as it is. -/
theorem resolve_decided {status : Decision} {decidedBy : String} {a : ApprovalRequest}
    (hstored : stored id w = some a) (hdecided : a.status ≠ .pending) :
    (resolveApprovalRequest id status decidedBy).run (exec env) w = (.ok (some a), w) := by
  unfold resolveApprovalRequest
  rw [run_call_bind, show exec env (.loadApprovalRequest id) w = (stored id w, w) from rfl,
    hstored]
  simp only [if_pos hdecided]
  rfl

/-- A decision and what a front end does with its answer. -/
theorem carried_resolve {status : Decision} {decidedBy : String}
    {g : Option ApprovalRequest → Py α} (hnone : Quiet (g none))
    (hsome : ∀ row, row.approvalId = id → CarriesOnce env id (g (some row)))
    (hkeep : ∀ r, (g r).Calls Call.carriesOut) :
    Carried env id (resolveApprovalRequest id status decidedBy >>= g) w := by
  unfold Carried
  rw [sends_quiet_bind (resolveApprovalRequest_quiet id status decidedBy), Prog.run_bind]
  cases hrun : (resolveApprovalRequest id status decidedBy).run (exec env) w with
  | mk r w' =>
    cases r with
    | error e => exact ⟨Nat.zero_le 1, fun h => absurd rfl h⟩
    | ok r =>
      cases r with
      | none => exact carried_of_nil (sends_quiet hnone w')
      | some row => exact carried_of_once (hsome row (resolve_answer hrun)) (hkeep _) w'

theorem carried_congr {β : Type} {p : Py α} {q : Py β}
    (h : (p.run (exec env) w).2 = (q.run (exec env) w).2) (hq : Carried env id q w) :
    Carried env id p w := by
  unfold Carried sends at hq ⊢
  rw [h]
  exact hq

theorem carried_idle {p : Py α} (h : (p.run (exec env) w).2 = w) : Carried env id p w :=
  carried_of_nil (sends_of_effects [] (by rw [h, List.append_nil]))

/-- What the API does after its decision. -/
def apiTail (status : Decision) (row : ApprovalRequest) : Py Unit := do
  let _ ← apiDispatchTask row status
  apiDispatchComponent row status
  apiDispatchAcl row status

theorem apiTail_once (status : Decision) (row : ApprovalRequest) :
    CarriesOnce env row.approvalId (apiTail status row) := by
  cases status with
  | approved => exact carriesOnce_dispatches .api row
  | rejected => exact carriesOnce_quiet Prog.calls_ret

theorem apiTail_calls (status : Decision) (row : ApprovalRequest) :
    (apiTail status row).Calls Call.carriesOut :=
  Prog.calls_bind (apiDispatchTask_calls _ _) (fun _ =>
    Prog.calls_bind (apiDispatchComponent_calls _ _) (fun _ => apiDispatchAcl_calls _ _))

/-- What the callback does after its decision. -/
def telegramTail (status : Decision) (row : ApprovalRequest) : Py Unit := do
  let _ ← telegramDispatch row status

theorem telegramTail_once (status : Decision) (row : ApprovalRequest) :
    CarriesOnce env row.approvalId (telegramTail status row) := by
  cases status with
  | approved => exact carriesOnce_dispatches .telegram row
  | rejected => exact carriesOnce_quiet Prog.calls_ret

/-- What the console does after its decision. -/
theorem webTail_once (status : Decision) (row : ApprovalRequest) :
    CarriesOnce env row.approvalId (webDispatch row status) := by
  cases status with
  | approved => exact carriesOnce_dispatches .web row
  | rejected => exact carriesOnce_quiet Prog.calls_ret

/-- The tail of a front end, after what its decision answered. -/
def answered (tail : ApprovalRequest → Py Unit) : Option ApprovalRequest → Py Unit
  | none => .ret ()
  | some row => tail row

theorem carried_answered {status : Decision} {decidedBy : String}
    {tail : ApprovalRequest → Py Unit} (hone : ∀ row, CarriesOnce env row.approvalId (tail row))
    (hkeep : ∀ row, (tail row).Calls Call.carriesOut) :
    Carried env id (resolveApprovalRequest id status decidedBy >>= answered tail) w := by
  refine carried_resolve Prog.calls_ret (fun row hrow => hrow ▸ hone row) (fun r => ?_)
  cases r with
  | none => exact Prog.calls_ret
  | some row => exact hkeep row

/-- A front end that refuses a request that is not pending; else it decides
and goes on with its tail. -/
def Checks (env : Env) (id : String) (p : Py Unit) (status : Decision) (decidedBy : String)
    (tail : ApprovalRequest → Py Unit) : Prop :=
  ∀ w, (p.run (exec env) w).2 =
    if (stored id w).map ApprovalRequest.status = some .pending
    then ((resolveApprovalRequest id status decidedBy >>= answered tail).run (exec env) w).2
    else w

theorem api_checks (id : String) (status : Decision) (decidedBy : String) :
    Checks env id (DecisionCaller.api id status decidedBy).program status decidedBy
      (apiTail status) := by
  intro w
  unfold DecisionCaller.program FrontEnd.decides apiResolveApproval
  simp only [bind_assoc]
  rw [run_call_bind, show exec env (.loadApprovalRequest id) w = (stored id w, w) from rfl]
  cases hstored : stored id w with
  | none => rfl
  | some existing =>
    by_cases hpending : existing.status = .pending
    · simp only [hpending, ne_eq, not_true_eq_false, if_false, if_true, Option.map_some,
        bind_assoc]
      refine run_bind_snd _ _ _ _ (fun r w' => ?_)
      cases r with
      | none => rfl
      | some row =>
        simp only [bind_assoc, answered, apiTail]
        refine run_bind_snd _ _ _ _ (fun _ w' => run_bind_snd _ _ _ _ (fun _ w' => ?_))
        exact run_bind_idle (fun _ => idle_ret _) w'
    · simp [hpending]

theorem web_checks (id : String) (status : Decision) (decidedBy : String) :
    Checks env id (DecisionCaller.web id status decidedBy).program status decidedBy
      (fun row => webDispatch row status) := by
  intro w
  unfold DecisionCaller.program webDecision
  rw [run_call_bind, show exec env (.loadApprovalRequest id) w = (stored id w, w) from rfl]
  cases hstored : stored id w with
  | none => rfl
  | some existing =>
    by_cases hpending : existing.status = .pending
    · simp only [hpending, ne_eq, not_true_eq_false, if_false, if_true, Option.map_some]
      refine run_bind_snd _ _ _ _ (fun r w' => ?_)
      cases r <;> rfl
    · simp [hpending]

theorem telegram_checks {data : String} {status : Decision}
    (hparse : parseApprovalCallback data = some (status, id)) (decidedBy : String) :
    Checks env id (DecisionCaller.telegram data decidedBy).program status decidedBy
      (telegramTail status) := by
  intro w
  show ((do let _ ← handleTelegramApprovalCallback data decidedBy : Py Unit).run (exec env) w).2 = _
  unfold handleTelegramApprovalCallback
  rw [hparse]
  simp only [bind_assoc]
  rw [run_call_bind, show exec env (.loadApprovalRequest id) w = (stored id w, w) from rfl]
  cases hstored : stored id w with
  | none => rfl
  | some approval =>
    have hid : approval.approvalId = id := Table.key_of_find? hstored
    by_cases hpending : approval.status = .pending
    · simp only [hpending, ne_eq, not_true_eq_false, if_false, if_true, Option.map_some,
        bind_assoc, hid]
      refine run_bind_snd _ _ _ _ (fun r w' => ?_)
      cases r <;> rfl
    · simp [hpending]

theorem carried_of_checks {p : Py Unit} {status : Decision} {decidedBy : String}
    {tail : ApprovalRequest → Py Unit} (h : Checks env id p status decidedBy tail)
    (hone : ∀ row, CarriesOnce env row.approvalId (tail row))
    (hkeep : ∀ row, (tail row).Calls Call.carriesOut) (w : World) : Carried env id p w := by
  have hrun := h w
  by_cases hpending : (stored id w).map ApprovalRequest.status = some .pending
  · rw [if_pos hpending] at hrun
    exact carried_congr hrun (carried_answered hone hkeep)
  · rw [if_neg hpending] at hrun
    exact carried_idle hrun

/-- An approved request is not pending: nothing is carried out again. -/
theorem sends_of_checks {p : Py Unit} {status : Decision} {decidedBy : String}
    {tail : ApprovalRequest → Py Unit} (h : Checks env id p status decidedBy tail)
    (happroved : (stored id w).map ApprovalRequest.status = some .approved) :
    sends env p w = [] := by
  have hrun := h w
  rw [happroved, if_neg (by decide)] at hrun
  exact sends_of_effects [] (by rw [hrun, List.append_nil])

/-- **A decision carries its request out at most once**, and only if it is
approved in the end. -/
theorem caller_carries {caller : DecisionCaller} (h : caller.request = some id) (w : World) :
    Carried env id caller.program w := by
  cases caller with
  | store approvalId status decidedBy =>
    obtain rfl := Option.some.inj h
    exact carried_resolve Prog.calls_ret (fun _ _ => carriesOnce_quiet Prog.calls_ret)
      (fun _ => Prog.calls_ret)
  | api approvalId status decidedBy =>
    obtain rfl := Option.some.inj h
    exact carried_of_checks (api_checks _ _ _) (apiTail_once status) (apiTail_calls status) w
  | cli approvalId status by_ =>
    obtain rfl := Option.some.inj h
    cases status with
    | approved =>
      refine carried_resolve Prog.calls_raise
        (fun row hrow => hrow ▸ carriesOnce_dispatches .cli row) (fun r => ?_)
      cases r with
      | none => exact Prog.calls_raise
      | some row => exact cliDispatch_calls row
    | rejected =>
      refine carried_resolve Prog.calls_raise (fun row hrow => carriesOnce_quiet Prog.calls_ret)
        (fun r => ?_)
      cases r <;> simp
  | telegram callbackData decidedBy =>
    obtain ⟨⟨status, parsed⟩, hparse, rfl⟩ := Option.map_eq_some_iff.mp h
    refine carried_of_checks (telegram_checks hparse decidedBy) (telegramTail_once status)
      (fun row => ?_) w
    exact Prog.calls_bind (telegramDispatch_calls row status) (fun _ => Prog.calls_ret)
  | web approvalId status decidedBy =>
    obtain rfl := Option.some.inj h
    exact carried_of_checks (web_checks _ _ _) (webTail_once status)
      (fun row => webDispatch_calls row status) w

/-- **Only the command line carries an approved request out again.** -/
theorem caller_carries_again {caller : DecisionCaller} (h : caller.request = some id)
    (happroved : (stored id w).map ApprovalRequest.status = some .approved) :
    sends env caller.program w ≠ []
      ↔ (∃ by_, caller = .cli id .approved by_) ∧ ReadyToSend env id w := by
  cases caller with
  | store approvalId status decidedBy =>
    refine iff_of_false (not_not.mpr (sends_quiet ?_ w)) (fun h => nomatch h.1)
    exact Prog.calls_bind (resolveApprovalRequest_quiet _ _ _) (fun _ => Prog.calls_ret)
  | api approvalId status decidedBy =>
    obtain rfl := Option.some.inj h
    exact iff_of_false (not_not.mpr (sends_of_checks (api_checks _ _ _) happroved))
      (fun h => nomatch h.1)
  | cli approvalId status by_ =>
    obtain rfl := Option.some.inj h
    cases status with
    | approved =>
      obtain ⟨a, hstored, hstatus⟩ := Option.map_eq_some_iff.mp happroved
      obtain rfl : a.approvalId = approvalId := Table.key_of_find? hstored
      have hsends : sends env (DecisionCaller.cli a.approvalId .approved by_).program w
          = sends env (FrontEnd.cli.dispatches a) w := by
        show sends env (resolveApprovalRequest a.approvalId .approved by_ >>= _) w = _
        rw [sends_quiet_bind (resolveApprovalRequest_quiet _ _ _),
          resolve_decided hstored (by rw [hstatus]; decide)]
        rfl
      rw [hsends, cli_dispatches_iff hstored]
      exact (and_iff_right ⟨by_, rfl⟩).symm
    | rejected =>
      refine iff_of_false (not_not.mpr (sends_quiet ?_ w)) (fun h => nomatch h.1)
      refine Prog.calls_bind (resolveApprovalRequest_quiet _ _ _) (fun r => ?_)
      cases r <;> simp
  | telegram callbackData decidedBy =>
    obtain ⟨⟨status, parsed⟩, hparse, rfl⟩ := Option.map_eq_some_iff.mp h
    exact iff_of_false (not_not.mpr (sends_of_checks (telegram_checks hparse decidedBy) happroved))
      (fun h => nomatch h.1)
  | web approvalId status decidedBy =>
    obtain rfl := Option.some.inj h
    exact iff_of_false (not_not.mpr (sends_of_checks (web_checks _ _ _) happroved))
      (fun h => nomatch h.1)

end Callers

/-! ## §6. An approved request stays approved. -/

section Approved

variable {env : Env} {id : String} {w : World} {op : Call}

/-- The stored request is approved. -/
def IsApproved (id : String) (w : World) : Prop :=
  (stored id w).map ApprovalRequest.status = some .approved

/-- Callers only save other requests. -/
def savesOther (id : String) : Call → Prop
  | .saveApprovalRequest a => a.approvalId ≠ id
  | _ => True

/-- Callers find the request approved. -/
def loadsApproved (id : String) : (op : Call) → Call.Res op → Prop
  | .loadApprovalRequest _, r => ∀ a, r = some a → a.approvalId = id → a.status = .approved
  | _, _ => True

theorem isApproved_exec (h : IsApproved id w) (hop : savesOther id op) :
    loadsApproved id op (exec env op w).1 ∧ IsApproved id (exec env op w).2 := by
  constructor
  · cases op with
    | loadApprovalRequest k =>
      intro a ha hid
      have hkey : a.approvalId = k := Table.key_of_find? ha
      have hstored : stored id w = some a := by
        rw [← hid, hkey]
        exact ha
      unfold IsApproved at h
      rw [hstored] at h
      exact Option.some.inj h
    | _ => trivial
  · refine (exec_keeps_status ?_).trans h
    cases op with
    | saveApprovalRequest a =>
      have hother : a.approvalId ≠ id := hop
      simpa [savesRow] using hother
    | _ => rfl

theorem savesOther_of_carriesOut (h : op.carriesOut) : savesOther id op := by
  cases op with
  | saveApprovalRequest a => exact (h : False).elim
  | _ => trivial

/-- Deciders as callers that save another request. -/
def approvedDiscipline (id : String) : DecisionDiscipline where
  T := Config.onlyCalls (S := callSig) (savesOther id) (loadsApproved id)
  settled _ := True
  start := ()
  start_settled := trivial
  carries _ hop := ⟨savesOther_of_carriesOut hop, fun _ => rfl⟩
  decides := by
    intro α k approval status decidedBy now p hsees hpending hp
    have hother : approval.approvalId ≠ id := by
      intro hid
      have := hsees approval rfl hid
      rw [hpending] at this
      cases this
    rw [call_bind, Prog.wp_call]
    refine ⟨hother, fun _ _ => ?_⟩
    rw [call_bind, Prog.wp_call]
    refine ⟨trivial, fun _ _ => ?_⟩
    exact Prog.wp_of_calls (fun op hop => ⟨savesOther_of_carriesOut hop, fun _ => rfl⟩)
      (fun _ => trivial) (fun _ => trivial) hp

theorem isApproved_decide (caller : DecisionCaller) (h : IsApproved id w) :
    IsApproved id (caller.program.run (exec env) w).2 := by
  obtain ⟨-, h'⟩ := Prog.wp_run (T := (approvedDiscipline id).T) (I := fun w _ => IsApproved id w)
    (fun w _ op hI hop => isApproved_exec hI hop) caller.program (approvedDiscipline id).start w h
    ((approvedDiscipline id).program_obeys caller)
  exact h'

/-- A synchronisation writes no approvals. -/
theorem syncLoop_calls (provider : String) (nodes : List Node) (records : List NetworkNodeRecord) :
    ∀ matched result, (syncLoop provider nodes records matched result).Calls
      (fun op : Call => op.writesApprovals = false) := by
  induction records with
  | nil => exact fun _ _ => Prog.calls_ret
  | cons networkNode rest ih =>
    intro matched result
    unfold syncLoop
    cases nodes.find? (fun n => n.nodeId ∉ matched && networkNodeMatchesHmn networkNode n) with
    | none => exact ih _ _
    | some target =>
      simp only
      split_ifs
      · exact calls_call_bind.mpr ⟨rfl, fun _ => ih _ _⟩
      · exact ih _ _

theorem syncNetworkNodes_calls :
    syncNetworkNodes.Calls (fun op : Call => op.writesApprovals = false) := by
  unfold syncNetworkNodes requireNetworkProvider
  refine Prog.calls_bind ?_ (fun provider => ?_)
  · refine calls_call_bind.mpr ⟨rfl, fun r => Prog.calls_bind (calls_orRaise r) (fun name => ?_)⟩
    cases name <;> simp
  · refine calls_call_bind.mpr ⟨rfl, fun r => Prog.calls_bind (calls_orRaise r) (fun records => ?_)⟩
    refine calls_call_bind.mpr ⟨rfl, fun nodes => Prog.calls_bind (syncLoop_calls _ _ _ _ _) ?_⟩
    exact fun result => calls_call_bind.mpr ⟨rfl, fun _ => Prog.calls_ret⟩

theorem isApproved_happens (event : NetworkEvent) (h : IsApproved id w) :
    IsApproved id (event.happens env w) := by
  cases event with
  | decide caller => exact isApproved_decide caller h
  | edit path state => exact h
  | sync =>
    refine Prog.run_keeps (I := IsApproved id) (fun op w hop hw => ?_)
      (Prog.calls_bind syncNetworkNodes_calls (fun _ => Prog.calls_ret)) w h
    unfold IsApproved stored
    rw [exec_approvals hop]
    exact hw

/-- **No history takes an approval back.** -/
theorem isApproved_replay (events : List NetworkEvent) :
    ∀ w, IsApproved id w → IsApproved id (NetworkEvent.replay env w events) := by
  induction events with
  | nil => exact fun w h => h
  | cons event events ih => exact fun w h => ih _ (isApproved_happens event h)

end Approved

/-! ## §7. Histories. -/

section History

variable (env : Env) (id : String)

/-- What an event carries out of the request `id`. -/
def NetworkEvent.carries (w : World) : NetworkEvent → List Effect
  | .decide caller => if caller.request = some id then sends env caller.program w else []
  | _ => []

/-- What a history carries out of the request `id`: the tags that were sent,
or the ACL texts that were written. -/
def NetworkEvent.carried : World → List NetworkEvent → List Effect
  | _, [] => []
  | w, event :: events =>
      event.carries env id w ++ NetworkEvent.carried (event.happens env w) events

/-- The command line approves a request that is approved, and ready to be
carried out. -/
def NetworkEvent.Again (w : World) (event : NetworkEvent) : Prop :=
  (∃ by_, event = .decide (.cli id .approved by_)) ∧ ReadyToSend env id w

/-- Nobody approves the request on the command line after it was carried out,
while it is still ready to be carried out. -/
def NeverAgain (w : World) (events : List NetworkEvent) : Prop :=
  ∀ pre event post, events = pre ++ event :: post → NetworkEvent.carried env id w pre ≠ [] →
    ¬ event.Again env id (NetworkEvent.replay env w pre)

variable {env id} {w : World}

theorem carried_append (pre post : List NetworkEvent) :
    ∀ w, NetworkEvent.carried env id w (pre ++ post) = NetworkEvent.carried env id w pre
      ++ NetworkEvent.carried env id (NetworkEvent.replay env w pre) post := by
  induction pre with
  | nil => exact fun w => rfl
  | cons event pre ih =>
    intro w
    rw [List.cons_append, NetworkEvent.carried, NetworkEvent.carried, ih, List.append_assoc]
    rfl

theorem carries_once (event : NetworkEvent) (w : World) :
    (event.carries env id w).length ≤ 1
    ∧ (event.carries env id w ≠ [] → IsApproved id (event.happens env w)) := by
  cases event with
  | decide caller =>
    simp only [NetworkEvent.carries]
    split_ifs with hrequest
    · exact caller_carries hrequest w
    · exact ⟨Nat.zero_le 1, fun h => absurd rfl h⟩
  | sync => exact ⟨Nat.zero_le 1, fun h => absurd rfl h⟩
  | edit path state => exact ⟨Nat.zero_le 1, fun h => absurd rfl h⟩

theorem carries_again (event : NetworkEvent) (happroved : IsApproved id w) :
    event.carries env id w ≠ [] ↔ event.Again env id w := by
  cases event with
  | decide caller =>
    simp only [NetworkEvent.carries, NetworkEvent.Again]
    split_ifs with hrequest
    · rw [caller_carries_again hrequest happroved]
      simp
    · refine iff_of_false (fun h => absurd rfl h) ?_
      rintro ⟨⟨by_, h⟩, -⟩
      obtain rfl := NetworkEvent.decide.inj h
      exact hrequest rfl
  | sync => exact iff_of_false (fun h => absurd rfl h) (fun h => nomatch h.1)
  | edit path state => exact iff_of_false (fun h => absurd rfl h) (fun h => nomatch h.1)

/-- A request that was carried out is approved. -/
theorem isApproved_of_carried (events : List NetworkEvent) : ∀ w,
    NetworkEvent.carried env id w events ≠ [] →
      IsApproved id (NetworkEvent.replay env w events) := by
  induction events with
  | nil => exact fun w h => absurd rfl h
  | cons event events ih =>
    intro w h
    by_cases hevent : event.carries env id w = []
    · rw [NetworkEvent.carried, hevent, List.nil_append] at h
      exact ih _ h
    · exact isApproved_replay events _ ((carries_once event w).2 hevent)

/-- **A network approval is carried out at most once exactly when the command
line does not approve it again** while it is ready to be carried out.  In
every history of decisions, synchronisations and edits of files, nothing else
carries a request out twice. -/
theorem network_approval_consumed_iff (env : Env) (id : String) (w : World)
    (events : List NetworkEvent) :
    (NetworkEvent.carried env id w events).length ≤ 1 ↔ NeverAgain env id w events := by
  constructor
  · rintro hle pre event post rfl hpre hagain
    have hevent : event.carries env id (NetworkEvent.replay env w pre) ≠ [] :=
      (carries_again event (isApproved_of_carried pre w hpre)).mpr hagain
    rw [carried_append, NetworkEvent.carried, List.length_append, List.length_append] at hle
    have hpre := List.length_pos_iff.mpr hpre
    have hevent := List.length_pos_iff.mpr hevent
    omega
  · intro h
    induction events using List.reverseRecOn with
    | nil => exact Nat.zero_le 1
    | append_singleton pre event ih =>
      have hnever : NeverAgain env id w pre := by
        rintro pre' event' post rfl
        exact h pre' event' (post ++ [event]) (by simp)
      have hlast : NetworkEvent.carried env id (NetworkEvent.replay env w pre) [event]
          = event.carries env id (NetworkEvent.replay env w pre) := List.append_nil _
      rw [carried_append, hlast, List.length_append]
      by_cases hpre : NetworkEvent.carried env id w pre = []
      · rw [hpre, List.length_nil, Nat.zero_add]
        exact (carries_once event _).1
      · have hnone : event.carries env id (NetworkEvent.replay env w pre) = [] := by
          by_contra hevent
          have hagain := (carries_again event (isApproved_of_carried pre w hpre)).mp hevent
          exact h pre event [] rfl hpre hagain
        rw [hnone, List.length_nil, Nat.add_zero]
        exact ih hnever

end History

/-- **An approval carried out twice.**  A second `hmn approval approve` sends
the same tags again; and once the old ACL file is restored, a second approval
writes the proposed one again. -/
theorem network_approvals_not_consumed :
    (¬ ∀ env id w events, (NetworkEvent.carried env id w events).length ≤ 1)
    ∧ NetworkEvent.carried Env.headscale "appr_000000000002" tagsWorld
        [.decide (.cli "appr_000000000002" .approved "alice"),
          .decide (.cli "appr_000000000002" .approved "alice")]
      = [.setNodeTags "7" ["tag:web"], .setNodeTags "7" ["tag:web"]]
    ∧ NetworkEvent.carried Env.quiet "appr_00000000000a" aclPlannedWorld
        [.decide (.api "appr_00000000000a" .approved "alice"),
          .edit "/etc/headscale/acl.hujson" (.text "old"),
          .decide (.cli "appr_00000000000a" .approved "alice")]
      = [.writeText "/etc/headscale/acl.hujson" "new",
          .writeText "/etc/headscale/acl.hujson" "new"] := by
  have htags : NetworkEvent.carried Env.headscale "appr_000000000002" tagsWorld
        [.decide (.cli "appr_000000000002" .approved "alice"),
          .decide (.cli "appr_000000000002" .approved "alice")]
      = [.setNodeTags "7" ["tag:web"], .setNodeTags "7" ["tag:web"]] := by decide +kernel
  refine ⟨fun h => ?_, htags, by decide +kernel⟩
  have := h Env.headscale "appr_000000000002" tagsWorld
    [.decide (.cli "appr_000000000002" .approved "alice"),
      .decide (.cli "appr_000000000002" .approved "alice")]
  rw [htags] at this
  exact absurd this (by decide)

end Hmn
