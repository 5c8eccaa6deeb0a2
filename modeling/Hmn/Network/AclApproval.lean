/-
  Hmn.Network.AclApproval — is what is applied what was approved?

  A plan records the digests of both files.  The dispatch compares the
  digest of the current file with the recorded one, but never the digest of
  the proposed file, which may have changed since.

  Main results: `acl_applies_plan_iff` — after any history of edits and
  decisions, a dispatch applies what was approved exactly when it stops
  before the write or the proposed file still has the approved digest;
  `acl_applies_unapproved_text` — a history in which it applies another
  text.
-/
import Hmn.Approval.OneDecision
import Hmn.Network.Specs

namespace Hmn

open Framework Py

/-! ## §1. Histories between a plan and a dispatch. -/

/-- What can happen to the files and the request after a plan. -/
inductive AclEvent where
  /-- Anyone changes a file. -/
  | edit (path : String) (state : FileState)
  /-- Someone decides an approval through a front end or the store. -/
  | decide (caller : DecisionCaller)

def AclEvent.happens (env : Env) (w : World) : AclEvent → World
  | .edit path state => { w with files := Function.update w.files path state }
  | .decide caller => (caller.program.run (exec env) w).2

/-- The world after a history. -/
def replay (env : Env) (w : World) (events : List AclEvent) : World :=
  events.foldl (AclEvent.happens env) w

/-- The stored row is the request of the plan, decided or not. -/
def HoldsPlan (a : ApprovalRequest) (w : World) : Prop :=
  ∃ row, stored a.approvalId w = some row ∧ row.details = a.details
    ∧ row.subjectType = a.subjectType ∧ row.action = a.action

/-! ## §2. The request of a plan keeps its details. -/

section Keeps

variable {env : Env} {a : ApprovalRequest} {w : World} {op : Call}

/-- A row that is the request of the plan, decided or not. -/
def IsPlan (a row : ApprovalRequest) : Prop :=
  row.approvalId = a.approvalId →
    row.details = a.details ∧ row.subjectType = a.subjectType ∧ row.action = a.action

/-- Callers only save the plan's details under its identifier. -/
def savesPlan (a : ApprovalRequest) : Call → Prop
  | .saveApprovalRequest row => IsPlan a row
  | _ => True

/-- Callers only load the plan's details under its identifier. -/
def loadsPlan (a : ApprovalRequest) : (op : Call) → Call.Res op → Prop
  | .loadApprovalRequest _, r => ∀ row, r = some row → IsPlan a row
  | _, _ => True

theorem holdsPlan_exec (hkind : a.isTaskRun = false) (h : HoldsPlan a w) (hop : savesPlan a op) :
    loadsPlan a op (exec env op w).1 ∧ HoldsPlan a (exec env op w).2 := by
  obtain ⟨row, hrow, hdetails, htype, haction⟩ := h
  constructor
  · cases op with
    | loadApprovalRequest id =>
      intro row' hrow' hid
      have hkey : row'.approvalId = id := Table.key_of_find? hrow'
      have hrow'' : stored a.approvalId w = some row' := by
        rw [← hid, hkey]
        exact hrow'
      obtain rfl := Option.some.inj (hrow.symm.trans hrow'')
      exact ⟨hdetails, htype, haction⟩
    | _ => trivial
  · cases hw : op.writesApprovals with
    | false => exact ⟨row, by rw [stored, exec_approvals hw]; exact hrow, hdetails, htype, haction⟩
    | true =>
      cases op with
      | saveApprovalRequest row' =>
        by_cases hid : row'.approvalId = a.approvalId
        · exact ⟨row', stored_save row' hid, hop hid⟩
        · refine ⟨row, ?_, hdetails, htype, haction⟩
          simpa [stored, exec, Table.find?_upsert_of_ne _ hid] using hrow
      | dispatchApprovedTaskRequest id =>
        rcases w.store.dispatch_cases id (env.uuid w.uuids) (w.reading env) with
          ⟨approval, tasks, hd, heq⟩ | ⟨r, es, heq, -⟩
        -- The dispatch of a task writes the row of a task request, which this one is not.
        · have hne : a.approvalId ≠ id := by
            intro he
            obtain rfl := Option.some.inj (hrow.symm.trans (he ▸ hd.found))
            have := hd.taskRun
            simp [ApprovalRequest.isTaskRun, htype, haction] at this
            simp [ApprovalRequest.isTaskRun, this] at hkind
          refine ⟨row, ?_, hdetails, htype, haction⟩
          simp only [stored, exec, World.after_store, heq, Store.find?_dispatched hd, if_neg hne]
          exact hrow
        · exact ⟨row, by simpa only [stored, exec, World.after_store, heq] using hrow,
            hdetails, htype, haction⟩
      | _ => simp [Call.writesApprovals] at hw

theorem savesPlan_of_carriesOut (h : op.carriesOut) : savesPlan a op := by
  cases op with
  | saveApprovalRequest row => exact absurd h id
  | _ => trivial

/-- Deciders as callers that keep the plan. -/
def planDiscipline (a : ApprovalRequest) : DecisionDiscipline where
  T := Config.onlyCalls (S := callSig) (savesPlan a) (loadsPlan a)
  settled _ := True
  start := ()
  start_settled := trivial
  carries _ hop := ⟨savesPlan_of_carriesOut hop, fun _ => rfl⟩
  decides := by
    intro α id approval status decidedBy now p hsees _ hp
    have hloaded : IsPlan a approval := hsees approval rfl
    rw [call_bind, Prog.wp_call]
    refine ⟨hloaded, fun _ _ => ?_⟩
    rw [call_bind, Prog.wp_call]
    refine ⟨trivial, fun _ _ => ?_⟩
    exact Prog.wp_of_calls (fun op hop => ⟨savesPlan_of_carriesOut hop, fun _ => rfl⟩)
      (fun _ => trivial) (fun _ => trivial) hp

/-- **No history changes what a plan recorded.** -/
theorem holdsPlan_replay (hkind : a.isTaskRun = false) (events : List AclEvent) :
    ∀ w, HoldsPlan a w → HoldsPlan a (replay env w events) := by
  induction events with
  | nil => exact fun w h => h
  | cons event events ih =>
    intro w h
    refine ih _ ?_
    cases event with
    | edit path state => exact h
    | decide caller =>
      obtain ⟨-, h'⟩ := Prog.wp_run (T := (planDiscipline a).T)
        (I := fun w _ => HoldsPlan a w) (fun w _ op hI hop => holdsPlan_exec hkind hI hop)
        caller.program (planDiscipline a).start w h ((planDiscipline a).program_obeys caller)
      exact h'

end Keeps

/-! ## §3. The request a plan makes. -/

/-- What a plan that asks for an approval recorded, and where. -/
structure Planned (args : AclPlanArgs) (a : ApprovalRequest) (w : World) (old new : String) :
    Prop where
  subjectType : a.subjectType = "network_acl"
  action : a.action = "network.acl.apply"
  details : ∃ current proposed diff, a.details = aclPlanDetails args current proposed diff old new
  found : stored a.approvalId w = some a

theorem createApprovalRequest_run (env : Env) (subjectType subjectId action risk requestedBy : String)
    (details : Dict) (w : World) :
    ∃ a w', (createApprovalRequest subjectType subjectId action risk requestedBy details).run
        (exec env) w = (.ok a, w')
      ∧ a.subjectType = subjectType ∧ a.action = action ∧ a.details = details
      ∧ stored a.approvalId w' = some a := by
  refine ⟨_, _, rfl, rfl, rfl, rfl, ?_⟩
  simp [stored, exec, Store.addAudit]

/-- **A plan records the digests of the texts it read.** -/
theorem networkAclPlan_spec {env : Env} {unifiedDiff : String → String → String → String → String}
    {args : AclPlanArgs} {w w' : World} {a : ApprovalRequest}
    (h : (networkAclPlan unifiedDiff args).run (exec env) w = (.ok (some a), w')) :
    ∃ current proposed old new, env.expanduser args.current = .ok current
      ∧ env.expanduser args.proposed = .ok proposed
      ∧ (w.files current).readTextOrEmpty = some old ∧ (w.files proposed).readText = some new
      ∧ Planned args a w' old new := by
  unfold networkAclPlan at h
  rw [run_call_bind, run_orRaise_bind] at h
  cases hc : env.expanduser args.current with
  | error m => simp [exec, hc, raising] at h
  | ok current =>
    simp only [exec, hc, raising] at h
    rw [run_call_bind, run_orRaise_bind] at h
    cases hp : env.expanduser args.proposed with
    | error m => simp [exec, hp, raising] at h
    | ok proposed =>
      simp only [exec, hp, raising] at h
      rw [run_call_bind] at h
      -- The plan goes on only with a proposed file that exists, two texts and a difference
      -- between them.
      by_cases hmissing : w.files proposed = .missing
      · simp [exec, hmissing] at h
      · simp only [exec, hmissing, ne_eq, not_false_eq_true, decide_true, Bool.not_true,
          Bool.false_eq_true, if_false] at h
        rw [run_readTextOrEmpty_bind] at h
        cases hold : (w.files current).readTextOrEmpty with
        | none => simp [hold] at h
        | some old =>
          simp only [hold] at h
          rw [run_readText_bind] at h
          cases hnew : (w.files proposed).readText with
          | none => simp [hnew] at h
          | some new =>
            simp only [hnew] at h
            split_ifs at h with hdiff
            · simp at h
            · obtain ⟨a', w'', hrun, htype, haction, hdetails, hfound⟩ :=
                createApprovalRequest_run env "network_acl" current "network.acl.apply" "critical"
                  "hmn" (aclPlanDetails args current proposed
                    (unifiedDiff old new current proposed) old new) w
              rw [Prog.run_bind, hrun] at h
              simp only [Prog.pure_eq, Prog.run_ret, Prod.mk.injEq, Except.ok.injEq,
                Option.some.injEq] at h
              obtain ⟨rfl, rfl⟩ := h
              exact ⟨current, proposed, old, new, rfl, rfl, hold, hnew, htype, haction,
                ⟨current, proposed, _, hdetails⟩, hfound⟩

/-! ## §4. What a dispatch applies. -/

/-- The recorded digests. -/
def oldSha256 (a : ApprovalRequest) : String := a.details.getStr "old_sha256" ""

def newSha256 (a : ApprovalRequest) : String := a.details.getStr "new_sha256" ""

/-- The outside effects of one dispatch in the world `w`. -/
def dispatchEffects (env : Env) (a : ApprovalRequest) (w : World) : List Effect :=
  ((dispatchApprovedNetworkAclApply a.approvalId).run (exec env) w).2.effects.drop w.effects.length

/-- Whatever the dispatch writes has the approved digest, and so has the
text it replaces. -/
def AppliesPlan (env : Env) (a : ApprovalRequest) (w : World) : Prop :=
  ∀ path new, .writeText path new ∈ dispatchEffects env a w →
    sha256Text new = newSha256 a
    ∧ ∃ old, (w.files path).readTextOrEmpty = some old ∧ sha256Text old = oldSha256 a

/-- The dispatch stops before the write: the request is not approved, a file
cannot be read, the current file has another digest, or the write is
refused. -/
def AclStops (env : Env) (a : ApprovalRequest) (w : World) : Prop :=
  (stored a.approvalId w).map ApprovalRequest.status ≠ some .approved
  ∨ (∀ current proposed old new, ¬ AclReady env a w current proposed old new)
  ∨ ∃ m, env.write w.writes = .error m

/-- The proposed file can be read and has the approved digest. -/
def ProposedIsApproved (env : Env) (a : ApprovalRequest) (w : World) : Prop :=
  ∃ proposed new, env.expanduser (a.details.getStr "proposed_path" "") = .ok proposed
    ∧ (w.files proposed).readText = some new ∧ sha256Text new = newSha256 a

variable {env : Env} {args : AclPlanArgs} {a : ApprovalRequest} {w : World} {old new : String}

theorem Planned.oldSha256_eq {w' : World} (h : Planned args a w' old new) :
    oldSha256 a = sha256Text old := by
  obtain ⟨current, proposed, diff, hd⟩ := h.details
  simp [oldSha256, hd, aclPlanDetails, Dict.getStr, Dict.get?_cons, sha256Text_ne_empty]

/-- Readiness only depends on the details of the request. -/
theorem AclReady.of_details {row : ApprovalRequest} (hd : row.details = a.details)
    {c p o n : String} (h : AclReady env row w c p o n) : AclReady env a w c p o n := by
  obtain ⟨hc, hp, ho, hn, hu⟩ := h
  refine ⟨hd ▸ hc, hd ▸ hp, ho, hn, ?_⟩
  simpa [aclChanged, hd] using hu

/-- What a dispatch does, in the terms of the request of the plan. -/
theorem dispatchEffects_cases (env : Env) (hplan : HoldsPlan a w) (htype : a.subjectType = "network_acl")
    (haction : a.action = "network.acl.apply") :
    (¬ AclStops env a w ∧ ∃ current proposed old new commands,
        AclReady env a w current proposed old new
        ∧ dispatchEffects env a w = .writeText current new :: commands
        ∧ ∀ e ∈ commands, ∃ command, e = .runCommand command)
    ∨ (AclStops env a w ∧ dispatchEffects env a w = []) := by
  obtain ⟨row, hrow, hdetails, hrtype, hraction⟩ := hplan
  have hkind : row.isAclApply = true := by
    simp [ApprovalRequest.isAclApply, hrtype, hraction, htype, haction]
  have hload : (exec env (.loadApprovalRequest a.approvalId) w) = (some row, w) := by
    rw [← hrow]
    rfl
  -- A dispatch that stops has left the effects as they were.
  have hquiet : ∀ w' : World, w'.effect = w.effect →
      w'.effects.drop w.effects.length = [] := by
    intro w' h
    rw [show w'.effects = w.effects from congrArg Effects.effects h]
    exact List.drop_length
  unfold dispatchEffects dispatchApprovedNetworkAclApply
  rw [run_call_bind, hload]
  by_cases hstatus : row.status = .approved
  · simp only [hstatus, ne_eq, not_true_eq_false, if_false, hkind]
    -- Of an approved request: what is read first, then whether the file takes the write.
    rcases applyAcl_cases env row w with ⟨c, p, o, n, hready, heq⟩ | ⟨hno, heq⟩
    · have hready' := hready.of_details hdetails
      rw [heq]
      rcases writeAcl_effects env row c p o n w with
        ⟨hwrite, commands, heffects, hall⟩ | ⟨⟨m, hm⟩, hsame⟩
      · refine Or.inl ⟨?_, c, p, o, n, commands, hready', ?_, hall⟩
        · rintro (h | h | ⟨m, hm⟩)
          · exact h (by rw [hrow, Option.map_some, hstatus])
          · exact h c p o n hready'
          · rw [hwrite] at hm
            cases hm
        · rw [heffects, List.drop_left]
      · exact Or.inr ⟨Or.inr (Or.inr ⟨m, hm⟩), hquiet _ hsame⟩
    · refine Or.inr ⟨Or.inr (Or.inl fun c p o n h => ?_), hquiet _ heq⟩
      exact hno c p o n (h.of_details hdetails.symm)
  · refine Or.inr ⟨Or.inl ?_, ?_⟩
    · rw [hrow, Option.map_some]
      simpa using hstatus
    · simp only [ne_eq, hstatus, not_false_eq_true, if_true]
      exact hquiet w rfl

/-- **A dispatch applies what was approved exactly when it stops before the
write or the proposed file still has the approved digest**, after any
history of edits of the files and decisions since the plan. -/
theorem acl_applies_plan_iff (env : Env)
    (unifiedDiff : String → String → String → String → String) (args : AclPlanArgs)
    (w₀ w₁ : World) (a : ApprovalRequest) (events : List AclEvent)
    (hplan : (networkAclPlan unifiedDiff args).run (exec env) w₀ = (.ok (some a), w₁)) :
    AppliesPlan env a (replay env w₁ events) ↔
      AclStops env a (replay env w₁ events)
      ∨ ProposedIsApproved env a (replay env w₁ events) := by
  obtain ⟨-, -, old₀, new₀, -, -, -, -, hplanned⟩ := networkAclPlan_spec hplan
  have hkind : a.isTaskRun = false := by
    simp [ApprovalRequest.isTaskRun, hplanned.subjectType]
  have hholds : HoldsPlan a (replay env w₁ events) :=
    holdsPlan_replay hkind events w₁ ⟨a, hplanned.found, rfl, rfl, rfl⟩
  rcases dispatchEffects_cases env hholds hplanned.subjectType hplanned.action with
    ⟨hgo, c, p, o, n, commands, hready, heff, hall⟩ | ⟨hstop, heff⟩
  · constructor
    · intro h
      obtain ⟨hnew, -⟩ := h c n (by rw [heff]; exact List.mem_cons_self)
      exact Or.inr ⟨p, n, hready.proposedPath, hready.written, hnew⟩
    · rintro (h | ⟨p', n', hp', hn', hsha⟩)
      · exact absurd h hgo
      · obtain rfl : p = p' := by simpa [hready.proposedPath] using hp'
        obtain rfl : n = n' := Option.some.inj (hready.written.symm.trans hn')
        intro path new hmem
        rw [heff] at hmem
        rcases List.mem_cons.mp hmem with h | h
        · cases h
          refine ⟨hsha, o, hready.replaced, ?_⟩
          -- the one comparison the dispatch does make
          have hunchanged := hready.unchanged
          have hne : oldSha256 a ≠ "" := by
            rw [hplanned.oldSha256_eq]
            exact sha256Text_ne_empty _
          simp only [aclChanged, decide_eq_false_iff_not, not_and, not_not] at hunchanged
          exact (hunchanged hne).symm
        · obtain ⟨command, hcommand⟩ := hall _ h
          cases hcommand
  -- A dispatch that stops writes nothing, so there is nothing to compare.
  · refine ⟨fun _ => Or.inl hstop, fun _ path new hmem => ?_⟩
    rw [heff] at hmem
    cases hmem

/-! ## §5. A plan and an edit. -/

/-- A current and a proposed ACL file, and an empty database. -/
def aclWorld : World where
  store := .empty
  files path :=
    if path = "/etc/headscale/acl.hujson" then .text "old"
    else if path = "/tmp/acl.hujson" then .text "new"
    else .missing

def aclArgs : AclPlanArgs where
  current := "/etc/headscale/acl.hujson"
  proposed := "/tmp/acl.hujson"

/-- The unified diff of the two files. -/
def aclDiff (_ _ currentPath proposedPath : String) : String :=
  "--- " ++ currentPath ++ "\n+++ " ++ proposedPath ++ "\n@@ -1 +1 @@\n-old+new"

/-- The request the plan makes. -/
def aclApproval : ApprovalRequest where
  approvalId := "appr_00000000000a"
  subjectType := "network_acl"
  subjectId := "/etc/headscale/acl.hujson"
  action := "network.acl.apply"
  risk := "critical"
  status := .pending
  requestedBy := "hmn"
  details := aclPlanDetails aclArgs "/etc/headscale/acl.hujson" "/tmp/acl.hujson"
    (aclDiff "old" "new" "/etc/headscale/acl.hujson" "/tmp/acl.hujson") "old" "new"
  createdAt := 0

/-- The world after the plan. -/
def aclPlannedWorld : World :=
  ((networkAclPlan aclDiff aclArgs).run (exec Env.quiet) aclWorld).2

theorem aclPlanned : (networkAclPlan aclDiff aclArgs).run (exec Env.quiet) aclWorld
    = (.ok (some aclApproval), aclPlannedWorld) := by
  rfl

/-- Approved without an edit in between, the plan is what is applied. -/
theorem acl_applies_plan_unedited : AppliesPlan Env.quiet aclApproval
    (replay Env.quiet aclPlannedWorld [.decide (.store "appr_00000000000a" .approved "alice")]) :=
  (acl_applies_plan_iff Env.quiet aclDiff aclArgs aclWorld aclPlannedWorld aclApproval
    [.decide (.store "appr_00000000000a" .approved "alice")] aclPlanned).mpr
    (Or.inr ⟨"/tmp/acl.hujson", "new", by decide +kernel, by decide +kernel, by decide +kernel⟩)

/-- **An unapproved text is applied.**  The proposed file is edited after
the plan; the request is approved, and the dispatch writes the edited
text. -/
theorem acl_applies_unapproved_text :
    (networkAclPlan aclDiff aclArgs).run (exec Env.quiet) aclWorld
      = (.ok (some aclApproval), aclPlannedWorld)
    ∧ ¬ AppliesPlan Env.quiet aclApproval (replay Env.quiet aclPlannedWorld
        [.edit "/tmp/acl.hujson" (.text "evil"),
          .decide (.store "appr_00000000000a" .approved "alice")]) := by
  refine ⟨aclPlanned, fun h => ?_⟩
  have hwrite : Effect.writeText "/etc/headscale/acl.hujson" "evil" ∈
      dispatchEffects Env.quiet aclApproval (replay Env.quiet aclPlannedWorld
        [.edit "/tmp/acl.hujson" (.text "evil"),
          .decide (.store "appr_00000000000a" .approved "alice")]) := by
    decide +kernel
  have hdigest : sha256Text "evil" ≠ newSha256 aclApproval := by decide +kernel
  exact hdigest (h _ _ hwrite).1

end Hmn
