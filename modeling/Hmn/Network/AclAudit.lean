/-
  Hmn.Network.AclAudit — is every change of the ACL file audited?

  The file is written before the reload and the verify command are run.  A
  command that ends with another exit code than 0 is caught and audited; one
  that times out, cannot be started or writes something that is not text
  raises past the handler, and the change leaves no audit event.

  Main results: `finishAclApply_cases`; `acl_audited_iff` — a call audits
  the change it made and touches nothing when it says so, exactly when every
  command it ran after the write came to its end; `acl_timeout_unaudited`.
-/
import Hmn.Network.AclApproval

namespace Hmn

open Framework Py

/-! ## §1. How the commands end. -/

/-- There is no command, or it ended with exit code 0. -/
def Succeeds (env : Env) (command : String) (n : Nat) : Prop :=
  command = "" ∨ ∃ stdout stderr, env.command n = .completed 0 stdout stderr

/-- There is no command, or it came to its end. -/
def Ends (env : Env) (command : String) (n : Nat) : Prop :=
  command = "" ∨ ∃ code stdout stderr, env.command n = .completed code stdout stderr

/-- Which answer the verify command gets after the reload command. -/
def verifyAnswer (reloadCommand : String) (n : Nat) : Nat :=
  if reloadCommand = "" then n else n + 1

/-- Both commands succeeded or were empty. -/
def CommandsSucceed (env : Env) (reloadCommand verifyCommand : String) (n : Nat) : Prop :=
  Succeeds env reloadCommand n ∧ Succeeds env verifyCommand (verifyAnswer reloadCommand n)

/-- Every command that is run comes to its end. -/
def CommandsEnd (env : Env) (reloadCommand verifyCommand : String) (n : Nat) : Prop :=
  Ends env reloadCommand n
    ∧ (Succeeds env reloadCommand n → Ends env verifyCommand (verifyAnswer reloadCommand n))

/-- The world after a command. -/
def World.ran (w : World) (command : String) : World :=
  { w with commands := w.commands + 1, effects := w.effects ++ [.runCommand command] }

@[simp] theorem ran_store (w : World) (command : String) : (w.ran command).store = w.store := rfl

@[simp] theorem ran_files (w : World) (command : String) : (w.ran command).files = w.files := rfl

@[simp] theorem ran_commands (w : World) (command : String) :
    (w.ran command).commands = w.commands + 1 := rfl

variable {env : Env} {w : World}

/-- What a command does. -/
theorem run_runAclCommand_bind {α : Type} (command : String) (f : Int × String → Py α) :
    (runAclCommand command >>= f).run (exec env) w =
      match env.command w.commands with
      | .completed code stdout stderr =>
          (f (code, commandMessage stdout stderr)).run (exec env) (w.ran command)
      | .timedOut => (.error .timeout, w.ran command)
      | .raised exception => (.error exception, w.ran command) := by
  rw [Prog.run_bind]
  unfold runAclCommand
  rw [run_call_bind]
  cases h : env.command w.commands <;> simp [exec, h, World.ran]

/-- The commands ended with `outcome` and left the database as it was. -/
structure Finished (s : Store) (r : Except PyError AclOutcome × World) (outcome : AclOutcome) :
    Prop where
  result : r.1 = .ok outcome
  store : r.2.store = s
  error : ∀ message, outcome.error = some message → ∃ rest, message = "Headscale " ++ rest

variable {s : Store} {r : Except PyError AclOutcome × World} {outcome : AclOutcome}

theorem finished_without_error (hresult : r.1 = .ok outcome) (hstore : r.2.store = s)
    (herror : outcome.error = none) : Finished s r outcome where
  result := hresult
  store := hstore
  error := by simp [herror]

theorem finished_with_error {start rest message : String} (hresult : r.1 = .ok outcome)
    (hstore : r.2.store = s) (herror : outcome.error = some (start ++ message))
    (hstart : start = "Headscale " ++ rest) : Finished s r outcome where
  result := hresult
  store := hstore
  error _ h := ⟨rest ++ message, by
    rw [← Option.some.inj (herror.symm.trans h), hstart, String.append_assoc]⟩

/-- The verify command ends and its outcome is that of its exit code, or it
raises. -/
theorem verifyAcl_cases (env : Env) (verifyCommand : String) (reloadExit : Option Int) (w : World) :
    (Ends env verifyCommand w.commands ∧ ∃ outcome,
        Finished w.store ((verifyAcl verifyCommand reloadExit).run (exec env) w) outcome
        ∧ (outcome.error = none ↔ Succeeds env verifyCommand w.commands))
    ∨ (¬ Ends env verifyCommand w.commands ∧
        (∃ e, ((verifyAcl verifyCommand reloadExit).run (exec env) w).1 = .error e)
        ∧ ((verifyAcl verifyCommand reloadExit).run (exec env) w).2.store = w.store) := by
  unfold verifyAcl
  by_cases hempty : verifyCommand = ""
  · rw [if_pos hempty]
    exact Or.inl ⟨Or.inl hempty, _, finished_without_error rfl rfl rfl, by simp [Succeeds, hempty]⟩
  · rw [if_neg hempty, run_runAclCommand_bind]
    cases houtcome : env.command w.commands with
    | completed code stdout stderr =>
      refine Or.inl ⟨Or.inr ⟨code, stdout, stderr, houtcome⟩, ?_⟩
      by_cases hcode : code = 0
      · simp only [hcode, ne_eq, not_true_eq_false, if_false]
        exact ⟨_, finished_without_error rfl rfl rfl, by simp [Succeeds, houtcome, hcode]⟩
      · simp only [ne_eq, hcode, not_false_eq_true, if_true]
        exact ⟨_, @finished_with_error _ _ _ _ "ACL verify 失败: " _ rfl rfl rfl (by decide),
          by simp [Succeeds, houtcome, hcode, hempty]⟩
    | timedOut => exact Or.inr ⟨by simp [Ends, houtcome, hempty], ⟨_, rfl⟩, rfl⟩
    | raised exception => exact Or.inr ⟨by simp [Ends, houtcome, hempty], ⟨_, rfl⟩, rfl⟩

/-- **Both commands come to their end, or one of them raises.** -/
theorem reloadAndVerify_cases (env : Env) (reloadCommand verifyCommand : String) (w : World) :
    (CommandsEnd env reloadCommand verifyCommand w.commands ∧ ∃ outcome,
        Finished w.store ((reloadAndVerify reloadCommand verifyCommand).run (exec env) w) outcome
        ∧ (outcome.error = none ↔
            CommandsSucceed env reloadCommand verifyCommand w.commands))
    ∨ (¬ CommandsEnd env reloadCommand verifyCommand w.commands ∧
        (∃ e, ((reloadAndVerify reloadCommand verifyCommand).run (exec env) w).1 = .error e)
        ∧ ((reloadAndVerify reloadCommand verifyCommand).run (exec env) w).2.store = w.store) := by
  unfold reloadAndVerify
  by_cases hempty : reloadCommand = ""
  · subst hempty
    have hreload : Succeeds env "" w.commands := Or.inl rfl
    have hends : Ends env "" w.commands := Or.inl rfl
    simpa [CommandsEnd, CommandsSucceed, hreload, hends, verifyAnswer]
      using verifyAcl_cases env verifyCommand none w
  · rw [if_neg hempty, run_runAclCommand_bind]
    cases houtcome : env.command w.commands with
    | completed code stdout stderr =>
      have hends : Ends env reloadCommand w.commands := Or.inr ⟨code, stdout, stderr, houtcome⟩
      by_cases hcode : code = 0
      · have hreload : Succeeds env reloadCommand w.commands :=
          Or.inr ⟨stdout, stderr, hcode ▸ houtcome⟩
        simp only [hcode, ne_eq, not_true_eq_false, if_false]
        have hverify := verifyAcl_cases env verifyCommand (some 0) (w.ran reloadCommand)
        simpa [CommandsEnd, CommandsSucceed, hreload, hends, verifyAnswer, hempty]
          using hverify
      · have hreload : ¬ Succeeds env reloadCommand w.commands := by
          simp [Succeeds, houtcome, hempty, hcode]
        simp only [ne_eq, hcode, not_false_eq_true, if_true]
        exact Or.inl ⟨⟨hends, fun h => absurd h hreload⟩, _,
          @finished_with_error _ _ _ _ "reload 失败: " _ rfl rfl rfl (by decide),
          by simp [CommandsSucceed, hreload]⟩
    | timedOut =>
      have hends : ¬ Ends env reloadCommand w.commands := by simp [Ends, houtcome, hempty]
      exact Or.inr ⟨fun h => hends h.1, ⟨_, rfl⟩, rfl⟩
    | raised exception =>
      have hends : ¬ Ends env reloadCommand w.commands := by simp [Ends, houtcome, hempty]
      exact Or.inr ⟨fun h => hends h.1, ⟨_, rfl⟩, rfl⟩

/-! ## §2. What follows the write. -/

/-- The reload command of a request. -/
def ApprovalRequest.reloadCommand (a : ApprovalRequest) : String :=
  Text.strip (a.details.getStr "reload_command" "")

/-- The verify command of a request. -/
def ApprovalRequest.verifyCommand (a : ApprovalRequest) : String :=
  Text.strip (a.details.getStr "verify_command" "")

/-- An event for the change of the file at `path` to `new`. -/
structure AuditsChange (event : AuditEvent) (path new : String) (succeeded : Prop) : Prop where
  action : event.action = "acl/apply"
  subjectId : event.subjectId = path
  newSha256 : event.details.get? "new_sha256" = some (.str (sha256Text new))
  outcome : event.outcome = "ok" ↔ succeeded
  noMismatch : event.details.get? "error" ≠ some (.str "current ACL sha256 mismatch")

/-- The event an apply records when its commands have ended. -/
def aclEvent (approval : ApprovalRequest) (current proposed old new : String)
    (outcome : AclOutcome) (createdAt : Timestamp) : AuditEvent where
  eventType := "network"
  subjectType := "network_acl"
  subjectId := current
  action := "acl/apply"
  outcome := if outcome.error = none then "ok" else "failed"
  details := aclAuditHead approval current proposed ++
    [("old_sha256", .str (sha256Text old)), ("new_sha256", .str (sha256Text new)),
      ("reload_exit_code", exitCodeJson outcome.reloadExit),
      ("verify_exit_code", exitCodeJson outcome.verifyExit)]
    ++ (outcome.error.map fun message => ("error", Json.str message)).toList
  createdAt

theorem aclEvent_auditsChange (approval : ApprovalRequest) (current proposed old new : String)
    {outcome : AclOutcome} (createdAt : Timestamp) {succeeded : Prop}
    (hok : outcome.error = none ↔ succeeded)
    (herror : ∀ message, outcome.error = some message → ∃ rest, message = "Headscale " ++ rest) :
    AuditsChange (aclEvent approval current proposed old new outcome createdAt) current new
      succeeded where
  action := rfl
  subjectId := rfl
  newSha256 := rfl
  outcome := by
    rw [← hok, aclEvent]
    by_cases h : outcome.error = none <;> simp [h]
  noMismatch := by
    cases h : outcome.error with
    | none => simp [aclEvent, aclAuditHead, h, Dict.get?_cons]
    | some message =>
      obtain ⟨rest, rfl⟩ := herror message h
      simp only [aclEvent, aclAuditHead, h, Option.map_some, Option.toList_some, List.cons_append,
        List.nil_append, Dict.get?_cons]
      intro heq
      have hhead := congrArg (fun s => s.toList.head?) (Json.str.inj (Option.some.inj heq))
      simp at hhead

/-- **What follows the write records one event when the commands come to
their end, and none otherwise.** -/
theorem finishAclApply_cases (env : Env) (approval : ApprovalRequest)
    (current proposed old new : String) (w : World) :
    (CommandsEnd env approval.reloadCommand approval.verifyCommand w.commands ∧ ∃ event,
        ((finishAclApply approval current proposed old new).run (exec env) w).2.store.audit
          = w.store.audit ++ [event]
        ∧ AuditsChange event current new
            (CommandsSucceed env approval.reloadCommand approval.verifyCommand w.commands)
        ∧ (((finishAclApply approval current proposed old new).run (exec env) w).1 = .ok true
          ∨ ∃ message, ((finishAclApply approval current proposed old new).run (exec env) w).1
              = .error (.networkProvider ("Headscale " ++ message))))
    ∨ (¬ CommandsEnd env approval.reloadCommand approval.verifyCommand w.commands ∧
        (∃ e, ((finishAclApply approval current proposed old new).run (exec env) w).1 = .error e)
        ∧ ((finishAclApply approval current proposed old new).run (exec env) w).2.store.audit
          = w.store.audit) := by
  have hcases := reloadAndVerify_cases env approval.reloadCommand approval.verifyCommand w
  unfold finishAclApply
  rw [Prog.run_bind]
  generalize hrun : (reloadAndVerify approval.reloadCommand approval.verifyCommand).run (exec env) w
    = run at hcases
  obtain ⟨result, w'⟩ := run
  rw [ApprovalRequest.reloadCommand, ApprovalRequest.verifyCommand] at hrun
  rw [hrun]
  rcases hcases with ⟨hend, outcome, ⟨rfl, hstore, herror⟩, hok⟩ | ⟨hend, ⟨e, rfl⟩, hstore⟩
  · refine Or.inl ⟨hend, aclEvent approval current proposed old new outcome (w'.reading env 0), ?_,
      aclEvent_auditsChange approval current proposed old new _ hok herror, ?_⟩
    · rw [← hstore]
      dsimp only
      cases hmessage : outcome.error with
      | none =>
        rw [run_call_bind, aclEvent, if_pos hmessage, hmessage, Option.map_none, Option.toList_none,
          List.append_nil]
        rfl
      | some message =>
        rw [run_call_bind, aclEvent, if_neg (by simp [hmessage]), hmessage]
        rfl
    · dsimp only
      cases hmessage : outcome.error with
      | none => exact Or.inl rfl
      | some message =>
        obtain ⟨rest, rfl⟩ := herror message hmessage
        exact Or.inr ⟨rest, rfl⟩
  · exact Or.inr ⟨hend, ⟨e, rfl⟩, congrArg Store.audit hstore⟩

/-! ## §3. A whole call. -/

/-- The events a call recorded. -/
def aclEvents (env : Env) (approvalId : String) (w : World) : List AuditEvent :=
  ((dispatchApprovedNetworkAclApply approvalId).run (exec env) w).2.store.audit.drop
    w.store.audit.length

/-- What a call did to the outside world. -/
def aclEffects (env : Env) (approvalId : String) (w : World) : List Effect :=
  ((dispatchApprovedNetworkAclApply approvalId).run (exec env) w).2.effects.drop w.effects.length

/-- A call that returned `False`, raised the mismatch of the digests or
recorded it. -/
def SaysUntouched (env : Env) (approvalId : String) (w : World) : Prop :=
  ((dispatchApprovedNetworkAclApply approvalId).run (exec env) w).1 = .ok false
  ∨ ((dispatchApprovedNetworkAclApply approvalId).run (exec env) w).1
      = .error (.networkProvider "当前 ACL 已变化，请重新生成 diff 后再审批")
  ∨ ∃ event ∈ aclEvents env approvalId w,
      event.details.get? "error" = some (.str "current ACL sha256 mismatch")

/-- A call that writes the current file records exactly one event for the
change, and one that says it changed nothing changed no file. -/
structure AclAudited (env : Env) (approvalId : String) (w : World) : Prop where
  change : ∀ path new, .writeText path new ∈ aclEffects env approvalId w →
    ∃ approval event, w.store.approvals.find? approvalId = some approval
      ∧ (aclEvents env approvalId w).filter (fun e => e.action = "acl/apply") = [event]
      ∧ AuditsChange event path new
          (CommandsSucceed env approval.reloadCommand approval.verifyCommand w.commands)
  untouched : SaysUntouched env approvalId w →
    ((dispatchApprovedNetworkAclApply approvalId).run (exec env) w).2.files = w.files

/-- The call gets as far as writing `new` over `old` at `current`. -/
structure AclWrites (env : Env) (approvalId : String) (w : World) (approval : ApprovalRequest)
    (current proposed old new : String) : Prop where
  found : w.store.approvals.find? approvalId = some approval
  approved : approval.status = .approved
  kind : approval.isAclApply = true
  ready : AclReady env approval w current proposed old new
  accepted : env.write w.writes = .ok ()

/-- Whenever the call gets as far as the write, every command it then runs
comes to its end. -/
def AclCommandsEnd (env : Env) (approvalId : String) (w : World) : Prop :=
  ∀ approval current proposed old new, AclWrites env approvalId w approval current proposed old new →
    CommandsEnd env approval.reloadCommand approval.verifyCommand w.commands

/-- The world after the write. -/
def World.wrote (w : World) (path content : String) : World :=
  { w with
    files := Function.update w.files path (.text content)
    writes := w.writes + 1
    effects := w.effects ++ [.writeText path content] }

variable {approvalId : String}

/-- **A call writes the file and goes on, or it stops without effect.** -/
theorem dispatchAcl_cases (env : Env) (approvalId : String) (w : World) :
    (∃ approval current proposed old new,
        AclWrites env approvalId w approval current proposed old new
        ∧ (dispatchApprovedNetworkAclApply approvalId).run (exec env) w
          = (finishAclApply approval current proposed old new).run (exec env) (w.wrote current new))
    ∨ ((∀ approval current proposed old new,
          ¬ AclWrites env approvalId w approval current proposed old new)
        ∧ ((dispatchApprovedNetworkAclApply approvalId).run (exec env) w).2.effect = w.effect) := by
  unfold dispatchApprovedNetworkAclApply
  rw [run_call_bind]
  cases hfound : w.store.approvals.find? approvalId with
  | none =>
    refine Or.inr ⟨fun a c p o n h => ?_, by simp [exec, hfound]⟩
    simp [h.found] at hfound
  | some approval =>
    simp only [exec, hfound]
    -- every guard that fails contradicts a field of `AclWrites`
    have hstop : ∀ {c p o n}, (∀ a, ¬ AclWrites env approvalId w a c p o n)
        ↔ ¬ AclWrites env approvalId w approval c p o n := by
      intro c p o n
      refine ⟨fun h => h approval, fun h a ha => h ?_⟩
      obtain rfl : a = approval := Option.some.inj (ha.found.symm.trans hfound)
      exact ha
    by_cases hstatus : approval.status = .approved
    · by_cases hkind : approval.isAclApply = true
      · simp only [hstatus, hkind, ne_eq, not_true_eq_false, if_false]
        rcases applyAcl_cases env approval w with ⟨c, p, o, n, hready, heq⟩ | ⟨hno, heq⟩
        · rw [heq, writeAcl, run_call_bind, run_orRaise_bind]
          cases hwrite : env.write w.writes with
          | ok u =>
            refine Or.inl ⟨approval, c, p, o, n, ⟨hfound, hstatus, hkind, hready, hwrite⟩, ?_⟩
            simp only [exec, hwrite]
            rfl
          | error m =>
            refine Or.inr ⟨fun a c' p' o' n' h => ?_, by simp only [exec, hwrite]; rfl⟩
            simp [h.accepted] at hwrite
        · exact Or.inr ⟨fun a c p o n h => hstop.mpr (fun h => hno c p o n h.ready) a h, heq⟩
      · simp only [hstatus, hkind, ne_eq, not_true_eq_false, if_false]
        exact Or.inr ⟨fun a c p o n h => hstop.mpr (fun h => hkind h.kind) a h, rfl⟩
    · simp only [ne_eq, hstatus, not_false_eq_true, if_true]
      exact Or.inr ⟨fun a c p o n h => hstop.mpr (fun h => hstatus h.approved) a h, rfl⟩

theorem AclWrites.unique {a a' : ApprovalRequest} {c p o n c' p' o' n' : String}
    (h : AclWrites env approvalId w a c p o n) (h' : AclWrites env approvalId w a' c' p' o' n') :
    a = a' ∧ c = c' ∧ p = p' ∧ o = o' ∧ n = n' := by
  obtain rfl : a = a' := Option.some.inj (h.found.symm.trans h'.found)
  exact ⟨rfl, h.ready.unique h'.ready⟩

/-- What a call that writes did to the outside world. -/
theorem aclEffects_of_writes {a : ApprovalRequest} {c p o n : String}
    (heq : (dispatchApprovedNetworkAclApply approvalId).run (exec env) w
      = (finishAclApply a c p o n).run (exec env) (w.wrote c n)) :
    ∃ commands, aclEffects env approvalId w = .writeText c n :: commands
      ∧ ∀ e ∈ commands, ∃ command, e = .runCommand command := by
  obtain ⟨commands, heffects, hall⟩ := finishAclApply_effects env a c p o n (w.wrote c n)
  refine ⟨commands, ?_, hall⟩
  rw [aclEffects, heq, heffects]
  simp [World.wrote]

/-- **A change of the ACL file is audited exactly when every command run
after the write came to its end.** -/
theorem acl_audited_iff (env : Env) (approvalId : String) (w : World) :
    AclAudited env approvalId w ↔ AclCommandsEnd env approvalId w := by
  rcases dispatchAcl_cases env approvalId w with ⟨a, c, p, o, n, hwrites, heq⟩ | ⟨hno, hsame⟩
  · obtain ⟨commands, heffects, hall⟩ := aclEffects_of_writes heq
    have hend : AclCommandsEnd env approvalId w ↔
        CommandsEnd env a.reloadCommand a.verifyCommand w.commands := by
      refine ⟨fun h => h a c p o n hwrites, fun h a' c' p' o' n' h' => ?_⟩
      obtain ⟨rfl, -⟩ := hwrites.unique h'
      exact h
    rw [hend]
    rcases finishAclApply_cases env a c p o n (w.wrote c n) with
      ⟨hends, event, haudit, hevent, hresult⟩ | ⟨hends, -, haudit⟩
    · have hevents : aclEvents env approvalId w = [event] := by
        rw [aclEvents, heq, haudit]
        exact List.drop_left
      refine ⟨fun _ => hends, fun _ => ⟨fun path new hmem => ?_, fun h => ?_⟩⟩
      · rw [heffects] at hmem
        rcases List.mem_cons.mp hmem with hmem | hmem
        · cases hmem
          exact ⟨a, event, hwrites.found, by simp [hevents, hevent.action], hevent⟩
        · obtain ⟨command, hcommand⟩ := hall _ hmem
          cases hcommand
      · exfalso
        rcases h with h | h | ⟨e, he, h⟩
        · rw [heq] at h
          rcases hresult with hr | ⟨m, hr⟩
          · simp [hr] at h
          · simp [hr] at h
        · rw [heq] at h
          rcases hresult with hr | ⟨m, hr⟩
          · simp [hr] at h
          · rw [hr] at h
            simp only [Except.error.injEq, PyError.networkProvider.injEq] at h
            have hhead := congrArg (fun s => s.toList.head?) h
            simp at hhead
        · obtain rfl : e = event := by simpa [hevents] using he
          exact hevent.noMismatch h
    · refine ⟨fun h => ?_, fun h => absurd h hends⟩
      obtain ⟨-, event, -, hfilter, -⟩ := h.change c n (by rw [heffects]; exact List.mem_cons_self)
      have hevents : aclEvents env approvalId w = [] := by
        rw [aclEvents, heq, haudit]
        exact List.drop_length
      simp [hevents] at hfilter
  · refine ⟨fun _ a c p o n h => absurd h (hno a c p o n), fun _ => ⟨fun path new hmem => ?_, fun _ => ?_⟩⟩
    · have heffects : aclEffects env approvalId w = [] := by
        exact (congrArg (fun e => e.effects.drop w.effects.length) hsame).trans List.drop_length
      simp [heffects] at hmem
    · exact congrArg Effects.files hsame

/-! ## §4. A command that times out. -/

/-- The plan of `aclArgs`, approved in the database. -/
def aclApprovedWorld : World :=
  replay Env.quiet aclPlannedWorld [.decide (.store "appr_00000000000a" .approved "alice")]

/-- `systemctl reload headscale` takes longer than 60 seconds. -/
def reloadHangs : Env := { Env.quiet with command _ := .timedOut }

/-- **A change without an audit event.**  The file is overwritten, the
reload command times out, and nothing is recorded. -/
theorem acl_timeout_unaudited :
    ¬ AclAudited reloadHangs "appr_00000000000a" aclApprovedWorld := by
  intro h
  have hwrite : Effect.writeText "/etc/headscale/acl.hujson" "new"
      ∈ aclEffects reloadHangs "appr_00000000000a" aclApprovedWorld := by
    decide +kernel
  have hevents : aclEvents reloadHangs "appr_00000000000a" aclApprovedWorld = [] := by
    decide +kernel
  obtain ⟨-, event, -, hfilter, -⟩ := h.change _ _ hwrite
  simp [hevents] at hfilter

end Hmn
