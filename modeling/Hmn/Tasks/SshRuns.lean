/-
  Hmn.Tasks.SshRuns — is the command of an ssh task started only once?

  A worker task is claimed in a transaction that looks at its status.  An
  ssh task is not: `run_ssh_task` loads the row, saves its whole copy as
  running and starts the command, whatever became of the row meanwhile, and
  it never looks at the status of the copy either.

  Main results: `ssh_task_runs_once` — in every interleaving whose running
  copies are all saved over a pending row, the command of a task is started
  at most once and a finished task stays as it is; `ssh_task_runs_twice` —
  two runs without which it is not so.
-/
import Hmn.Tasks.Lifecycle
import Hmn.Tasks.Submit

namespace Hmn

open Framework Py

/-! ## §1. The callers. -/

/-- The calls that save a task or start an ssh command. -/
def Call.entersSsh : Call → Bool
  | .saveTask _ | .runSsh .. => true
  | _ => false

/-- Who runs ssh tasks, and any other program that neither saves a whole task
nor starts an ssh command. -/
inductive SshCaller where
  | sshRunNext
  | taskRun (options : TaskRunOptions)
  | runSshTask (taskId : String) (allowRisk : List String)
  | other (p : Py Unit) (h : p.Calls (fun op : Call => op.entersSsh = false))

/-- What a caller runs; its answer is left out. -/
def SshCaller.program : SshCaller → Py Unit
  | .sshRunNext => Hmn.sshRunNext
  | .taskRun options => createTaskCommand options
  | .runSshTask taskId allowRisk => do let _ ← Hmn.runSshTask taskId allowRisk
  | .other p _ => p

/-- The callers of a run. -/
def sshCallers {ι : Type} (callers : ι → SshCaller) (w : World) :
    Config ι callSig PyError Unit World :=
  ⟨w, fun i => (callers i).program⟩

/-! ## §2. What is started. -/

/-- What a run remembers: the task each caller saved last, and the tasks whose
command was started, in order.  A caller starts the command of the task it
saved last. -/
structure SshLog (ι : Type) where
  saved : ι → Option String
  started : List String

/-- Nothing was saved and nothing started. -/
def SshLog.start {ι : Type} : SshLog ι := ⟨fun _ => none, []⟩

/-- Remember what a call saves or starts. -/
def sshLog {ι : Type} [DecidableEq ι] (g : SshLog ι) (i : ι) (_ : World) : Call → SshLog ι
  | .saveTask t => { g with saved := Function.update g.saved i (some t.taskId) }
  | .runSsh .. => { g with started := g.started ++ (g.saved i).toList }
  | _ => g

/-- A new task is saved under a free identifier, and a running copy over a
pending row. -/
def SavesInTurn {ι : Type} (_ : ι) (w : World) : Call → Prop
  | .saveTask t =>
      if t.status = .pending then w.store.tasks.find? t.taskId = none
      else (w.store.tasks.find? t.taskId).map Task.status = some .pending
  | _ => True

instance {ι : Type} (i : ι) (w : World) (op : Call) : Decidable (SavesInTurn i w op) := by
  apply Call.casesOn (motive := fun op => Decidable (SavesInTurn i w op)) op <;>
    intros <;> dsimp only [SavesInTurn] <;> infer_instance

/-! ## §3. The discipline of a caller. -/

/-- How far a caller is with its task. -/
inductive SshHold where
  | free
  /-- It saved the running copy of a task. -/
  | marked (taskId : String)
  | started

/-- What a caller may call: it saves new tasks and one running copy, and
starts one command after that. -/
def maySsh : SshHold → Call → Prop
  | .free, .saveTask t => t.status = .pending ∨ t.status = .running
  | _, .saveTask _ => False
  | .marked _, .runSsh .. => True
  | _, .runSsh .. => False
  | _, _ => True

/-- How far a caller is after a call. -/
def afterSsh (h : SshHold) : (op : Call) → Call.Res op → SshHold
  | .saveTask t, _ => if t.status = .running then .marked t.taskId else h
  | .runSsh .., _ => .started
  | _, _ => h

/-- The discipline of the callers. -/
abbrev sshTypestate : Typestate callSig where
  Mode := SshHold
  may := maySsh
  after := afterSsh
  sees _ _ := True

/-- A caller that keeps the discipline and ends in a hold that satisfies `Q`. -/
def RunsInTurn {α : Type} (Q : SshHold → Prop) (h : SshHold) (p : Py α) : Prop :=
  p.wp sshTypestate (fun h' _ => Q h') (fun _ _ => True) h

section Callers

variable {α β : Type} {Q : SshHold → Prop} {h : SshHold}

theorem maySsh_other {op : Call} (hop : op.entersSsh = false) (h : SshHold) :
    maySsh h op ∧ ∀ r, afterSsh h op r = h := by
  cases op with
  | saveTask t => cases hop
  | runSsh port target command => cases hop
  | _ => cases h <;> exact ⟨trivial, fun _ => rfl⟩

/-- A program that saves and starts nothing leaves the hold as it is. -/
theorem runsInTurn_other {p : Py α} (hp : p.Calls (fun op : Call => op.entersSsh = false))
    (hQ : Q h) : RunsInTurn Q h p :=
  Prog.wp_of_calls (fun _ hop => maySsh_other hop h) (fun _ => hQ) (fun _ => trivial) hp

theorem runsInTurn_bind {p : Py α} {f : α → Py β} {R : SshHold → Prop}
    (hp : RunsInTurn R h p) (hf : ∀ a h', R h' → RunsInTurn Q h' (f a)) :
    RunsInTurn Q h (p >>= f) := by
  refine Prog.wp_bind (T := sshTypestate) p f h ?_
  exact Prog.wp_mono (T := sshTypestate) (fun h' a hR => hf a h' hR) (fun _ _ h => h) p h hp

theorem runsInTurn_call {op : Call} {f : Call.Res op → Py α} (hop : op.entersSsh = false)
    (hf : ∀ r, RunsInTurn Q h (f r)) : RunsInTurn Q h (call op >>= f) := by
  obtain ⟨hmay, hafter⟩ := maySsh_other hop h
  unfold RunsInTurn
  rw [call_bind, Prog.wp_call]
  refine ⟨hmay, fun r _ => ?_⟩
  have hr := hf r
  rwa [RunsInTurn, ← hafter r] at hr

theorem runsInTurn_raise (e : PyError) : RunsInTurn Q h (.raise e : Py α) :=
  Prog.wp_raise.mpr trivial

theorem runsInTurn_tryCatch {p : Py α} {handler : PyError → Py α}
    (hp : RunsInTurn (fun _ => True) h p)
    (hhandler : ∀ e, (handler e).Calls (fun op : Call => op.entersSsh = false)) :
    RunsInTurn (fun _ => True) h (p.tryCatch handler) := by
  refine Prog.wp_tryCatch (T := sshTypestate) p handler h ?_
  exact Prog.wp_mono (T := sshTypestate) (fun _ _ h => h)
    (fun _ e _ => runsInTurn_other (hhandler e) trivial) p h hp

/-! ## §4. The programs keep the discipline. -/

theorem reportSshTask_calls (task : Task) (target : SSHTarget) (durationMs : Nat)
    (returncode : Int) (stdout stderr : String) :
    (reportSshTask task target durationMs returncode stdout stderr).Calls
      (fun op : Call => op.entersSsh = false) := by
  unfold reportSshTask intOrRaise
  cases Text.parseInt target.port with
  | none => exact Prog.calls_raise
  | some port =>
    refine calls_call_bind.mpr ⟨rfl, fun _ => calls_call_bind.mpr ⟨rfl, fun r => ?_⟩⟩
    cases r with
    | none => exact Prog.calls_raise
    | some finished =>
      simp only
      split_ifs
      · exact Prog.calls_raise
      · exact Prog.calls_ret

/-- The running copy is saved before the command is started. -/
theorem executeSshTask_inTurn (task : Task) (target : SSHTarget) :
    RunsInTurn (fun _ => True) .free (executeSshTask task target) := by
  unfold executeSshTask
  refine runsInTurn_call rfl (fun now => ?_)
  unfold RunsInTurn
  rw [call_bind, Prog.wp_call]
  refine ⟨Or.inr rfl, fun _ _ => ?_⟩
  rw [call_bind, Prog.wp_call]
  refine ⟨trivial, fun r _ => ?_⟩
  obtain ⟨outcome, durationMs⟩ := r
  refine runsInTurn_other ?_ trivial
  cases outcome with
  | completed returncode stdout stderr => exact reportSshTask_calls _ _ _ _ _ _
  | timedOut => exact Prog.calls_raise
  | raised exception => exact Prog.calls_raise

theorem runSshTask_inTurn (taskId : String) (allowRisk : List String) :
    RunsInTurn (fun _ => True) .free (runSshTask taskId allowRisk) := by
  unfold runSshTask
  refine runsInTurn_call rfl (fun task => ?_)
  cases task with
  | none => exact runsInTurn_raise _
  | some task =>
    simp only
    by_cases hexecutor : task.executor ≠ "ssh"
    · rw [if_pos hexecutor]
      exact runsInTurn_raise _
    rw [if_neg hexecutor]
    by_cases hrisk : task.risk ∉ (if allowRisk = [] then safeRisks else allowRisk)
    · rw [if_pos hrisk]
      exact runsInTurn_raise _
    rw [if_neg hrisk]
    refine runsInTurn_call rfl (fun node => ?_)
    cases node with
    | none => exact runsInTurn_raise _
    | some node =>
      simp only
      by_cases hmanaged : node.status ≠ .managed
      · rw [if_pos hmanaged]
        exact runsInTurn_raise _
      rw [if_neg hmanaged]
      cases sshTargetDetailsForNode node with
      | none => exact runsInTurn_raise _
      | some target => exact executeSshTask_inTurn task target

theorem sshRunNext_inTurn : RunsInTurn (fun _ => True) .free sshRunNext := by
  unfold sshRunNext
  refine runsInTurn_call rfl (fun tasks => ?_)
  simp only
  cases (tasks.filter _).argmin Task.createdAt with
  | none => exact runsInTurn_call rfl (fun _ => runsInTurn_raise _)
  | some task =>
    refine runsInTurn_bind (runsInTurn_tryCatch (runSshTask_inTurn _ _) (fun e => ?_)) ?_
    · cases e with
      | sshExecution => exact calls_call_bind.mpr ⟨rfl, fun _ => Prog.calls_raise⟩
      | _ => exact Prog.calls_raise
    · intro completed h' _
      exact runsInTurn_other (Prog.calls_call.mpr ⟨rfl, fun _ => Prog.calls_ret⟩) trivial

theorem createTask_inTurn (nodeId command risk createdBy executor : String) :
    RunsInTurn (· = .free) .free (createTask nodeId command risk createdBy executor) := by
  unfold createTask
  refine runsInTurn_call rfl (fun uuid => runsInTurn_call rfl (fun createdAt => ?_))
  unfold RunsInTurn
  rw [call_bind, Prog.wp_call]
  refine ⟨Or.inl rfl, fun _ _ => ?_⟩
  exact runsInTurn_call rfl (fun _ => Prog.wp_ret.mpr rfl)

theorem runTask_inTurn (node : Node) (options : TaskRunOptions) :
    RunsInTurn (fun _ => True) .free (runTask node options) := by
  unfold runTask
  refine runsInTurn_bind (createTask_inTurn _ _ _ _ _) (fun task h' hfree => ?_)
  subst hfree
  cases options.wait with
  | false => exact Prog.wp_ret.mpr trivial
  | true =>
    rw [Prog.when_true]
    refine runsInTurn_bind (runsInTurn_tryCatch (runSshTask_inTurn _ _) (fun e => ?_))
      (fun _ _ _ => Prog.wp_ret.mpr trivial)
    cases e <;> exact Prog.calls_raise

theorem requestTask_calls (node : Node) (options : TaskRunOptions) :
    (requestTask node options).Calls (fun op : Call => op.entersSsh = false) := by
  unfold requestTask createApprovalRequest enqueueNotification
  simp only [bind_assoc]
  refine calls_call_bind.mpr ⟨rfl, fun _ => calls_call_bind.mpr ⟨rfl, fun _ => ?_⟩⟩
  refine calls_call_bind.mpr ⟨rfl, fun _ => calls_call_bind.mpr ⟨rfl, fun _ => ?_⟩⟩
  simp only [Prog.pure_eq, Prog.ret_bind]
  refine calls_call_bind.mpr ⟨rfl, fun _ => calls_call_bind.mpr ⟨rfl, fun _ => ?_⟩⟩
  refine calls_call_bind.mpr ⟨rfl, fun r => Prog.calls_bind (calls_orRaise r) (fun _ => ?_)⟩
  exact Prog.calls_raise

theorem selectManagedNode_calls (nodeId : Option String) (choice : Int) :
    (selectManagedNode nodeId choice).Calls (fun op : Call => op.entersSsh = false) := by
  unfold selectManagedNode
  cases nodeId with
  | some nodeId =>
    refine calls_call_bind.mpr ⟨rfl, fun r => ?_⟩
    cases r with
    | none => exact Prog.calls_raise
    | some node => exact Prog.calls_ret
  | none =>
    refine calls_call_bind.mpr ⟨rfl, fun nodes => ?_⟩
    cases selectFrom (nodes.filter (·.status = .managed)) choice with
    | none => exact Prog.calls_raise
    | some node => exact Prog.calls_ret

theorem createTaskCommand_inTurn (options : TaskRunOptions) :
    RunsInTurn (fun _ => True) .free (createTaskCommand options) := by
  unfold createTaskCommand
  refine runsInTurn_bind (R := (· = .free))
    (runsInTurn_other (selectManagedNode_calls _ _) rfl) (fun node h' hfree => ?_)
  subst hfree
  by_cases hexecutor : options.executor ∉ ["worker", "ssh"]
  · rw [if_pos hexecutor]
    exact runsInTurn_raise _
  rw [if_neg hexecutor]
  by_cases hwait : options.wait = true ∧ options.executor ≠ "ssh"
  · rw [if_pos hwait]
    exact runsInTurn_raise _
  rw [if_neg hwait]
  by_cases hrisk : options.risk ∈ ["high", "critical"]
  · rw [if_pos hrisk]
    exact runsInTurn_other (requestTask_calls node options) trivial
  rw [if_neg hrisk]
  by_cases hlow : options.risk ∉ ["low", "medium"]
  · rw [if_pos hlow]
    exact runsInTurn_raise _
  rw [if_neg hlow]
  exact runTask_inTurn node options

/-- **Every caller keeps the discipline.** -/
theorem sshCaller_inTurn (caller : SshCaller) :
    RunsInTurn (fun _ => True) .free caller.program := by
  cases caller with
  | sshRunNext => exact sshRunNext_inTurn
  | taskRun options => exact createTaskCommand_inTurn options
  | runSshTask taskId allowRisk =>
    exact runsInTurn_bind (runSshTask_inTurn taskId allowRisk) (fun _ _ _ => Prog.wp_ret.mpr trivial)
  | other p hp => exact runsInTurn_other hp trivial

end Callers

/-! ## §5. A run whose copies are saved in turn. -/

/-- The task is stored and not pending. -/
def Begun (id : String) (w : World) : Prop :=
  ∃ t, w.store.tasks.find? id = some t ∧ t.status ≠ .pending

section Step

variable {ι : Type} {env : Env} {w : World} {op : Call} {i : ι} {id : String}

theorem TaskStatus.not_next_pending {s : TaskStatus} : ¬ s.Next .pending := by
  rintro ⟨⟩

/-- A save in turn goes over a pending row, or over none. -/
theorem row_of_savesInTurn {t : Task} (h : SavesInTurn i w (.saveTask t)) :
    ∀ row, w.store.tasks.find? t.taskId = some row → row.status = .pending := by
  intro row hrow
  unfold SavesInTurn at h
  simp only [hrow] at h
  split_ifs at h
  simpa using h

/-- **A row that is not pending moves by the automaton of worker tasks.** -/
theorem rowStep_of_savesInTurn (hturn : SavesInTurn i w op) (hbegun : Begun id w) :
    RowStep id (claimedBy env w op) (w.store.tasks.find? id)
      ((exec env op w).2.store.tasks.find? id) := by
  cases op with
  | saveTask t =>
    obtain ⟨row, hrow, hstatus⟩ := hbegun
    have hother : t.taskId ≠ id := by
      intro heq
      subst heq
      exact hstatus (row_of_savesInTurn hturn row hrow)
    simp only [exec, World.after_store]
    rw [Table.find?_upsert_of_ne _ hother]
    exact .keep _ (Option.some_ne_none _).symm
  | _ => exact exec_rowStep (by trivial) id

theorem begun_exec (hturn : SavesInTurn i w op) (hbegun : Begun id w) :
    Begun id (exec env op w).2 := by
  obtain ⟨t, ht, hstatus⟩ := hbegun
  obtain ⟨t', ht', hmoves⟩ := (rowStep_of_savesInTurn hturn ⟨t, ht, hstatus⟩).moves ht
  refine ⟨t', ht', ?_⟩
  rcases hmoves with hsame | hnext
  · exact hsame ▸ hstatus
  · intro hpending
    rw [hpending] at hnext
    exact TaskStatus.not_next_pending hnext

/-- A finished task stays as it is. -/
theorem terminal_exec {t : Task} (hturn : SavesInTurn i w op)
    (ht : w.store.tasks.find? id = some t) (hterminal : t.status.terminal = true) :
    (exec env op w).2.store.tasks.find? id = some t := by
  have hbegun : Begun id w := by
    refine ⟨t, ht, fun hpending => ?_⟩
    rw [hpending] at hterminal
    cases hterminal
  exact (rowStep_of_savesInTurn hturn hbegun).final ht hterminal

/-- A caller that marked a task is its only one and has not started it yet;
what was marked or started is not pending, and nothing was started twice. -/
structure StartsOnce (w : World) (m : ι → SshHold) (g : SshLog ι) : Prop where
  marked : ∀ j id, m j = .marked id → g.saved j = some id ∧ id ∉ g.started ∧ Begun id w
  apart : ∀ j k id, m j = .marked id → m k = .marked id → j = k
  begun : ∀ id ∈ g.started, Begun id w
  once : g.started.Nodup

variable [DecidableEq ι] {m : ι → SshHold} {g : SshLog ι}

/-- A call that neither saves nor starts. -/
theorem startsOnce_other (h : StartsOnce w m g) (hturn : SavesInTurn i w op)
    (hop : op.entersSsh = false) :
    StartsOnce (exec env op w).2
      (Function.update m i (afterSsh (m i) op (exec env op w).1)) (sshLog g i w op) := by
  have hhold : Function.update m i (afterSsh (m i) op (exec env op w).1) = m := by
    rw [(maySsh_other hop (m i)).2]
    exact Function.update_eq_self i m
  have hlog : sshLog g i w op = g := by
    cases op with
    | saveTask t => cases hop
    | runSsh port target command => cases hop
    | _ => rfl
  rw [hhold, hlog]
  constructor
  case marked =>
    intro j id hj
    obtain ⟨hsaved, hnew, hbegun⟩ := h.marked j id hj
    exact ⟨hsaved, hnew, begun_exec hturn hbegun⟩
  case apart => exact h.apart
  case begun => exact fun id hid => begun_exec hturn (h.begun id hid)
  case once => exact h.once

/-- A task that is saved over a pending row is marked by the caller alone. -/
theorem startsOnce_save {t : Task} (h : StartsOnce w m g) (hmay : maySsh (m i) (.saveTask t))
    (hturn : SavesInTurn i w (.saveTask t)) :
    StartsOnce (exec env (.saveTask t) w).2
      (Function.update m i (afterSsh (m i) (.saveTask t) ())) (sshLog g i w (.saveTask t)) := by
  have hfree : m i = .free := by
    cases hm : m i with
    | free => rfl
    | marked id => simp [hm, maySsh] at hmay
    | started => simp [hm, maySsh] at hmay
  -- nobody marked or started a task whose row is pending
  have hnew : ∀ id, Begun id w → id ≠ t.taskId := by
    rintro id ⟨row, hrow, hstatus⟩ rfl
    exact hstatus (row_of_savesInTurn hturn row hrow)
  have hafter : ∀ j id, Function.update m i (afterSsh (m i) (.saveTask t) ()) j = .marked id →
      (j = i ∧ t.status = .running ∧ id = t.taskId) ∨ (j ≠ i ∧ m j = .marked id) := by
    intro j id hj
    by_cases hji : j = i
    · subst hji
      rw [Function.update_self, hfree] at hj
      simp only [afterSsh] at hj
      split_ifs at hj with hrunning
      exact Or.inl ⟨rfl, hrunning, (SshHold.marked.inj hj).symm⟩
    · rw [Function.update_of_ne hji] at hj
      exact Or.inr ⟨hji, hj⟩
  constructor
  case marked =>
    intro j id hj
    rcases hafter j id hj with ⟨rfl, hrunning, rfl⟩ | ⟨hji, hj⟩
    · refine ⟨Function.update_self _ _ _, fun hstarted => ?_, t, ?_, ?_⟩
      · exact hnew _ (h.begun _ hstarted) rfl
      · exact Table.find?_upsert_self _ _
      · rw [hrunning]
        exact nofun
    · obtain ⟨hsaved, hstarted, hbegun⟩ := h.marked j id hj
      exact ⟨(Function.update_of_ne hji _ _).trans hsaved, hstarted, begun_exec hturn hbegun⟩
  case apart =>
    intro j k id hj hk
    rcases hafter j id hj with ⟨rfl, -, rfl⟩ | ⟨-, hj⟩
    · rcases hafter k _ hk with ⟨rfl, -, -⟩ | ⟨-, hk⟩
      · rfl
      · exact absurd rfl (hnew _ (h.marked k _ hk).2.2)
    · rcases hafter k id hk with ⟨-, -, rfl⟩ | ⟨-, hk⟩
      · exact absurd rfl (hnew _ (h.marked j _ hj).2.2)
      · exact h.apart j k id hj hk
  case begun => exact fun id hid => begun_exec hturn (h.begun id hid)
  case once => exact h.once

/-- A caller starts the task it marked. -/
theorem startsOnce_start {port target command : String} (h : StartsOnce w m g)
    (hmay : maySsh (m i) (.runSsh port target command)) :
    StartsOnce (exec env (.runSsh port target command) w).2
      (Function.update m i .started) (sshLog g i w (.runSsh port target command)) := by
  obtain ⟨taskId, hm⟩ : ∃ taskId, m i = .marked taskId := by
    cases hm : m i with
    | marked taskId => exact ⟨taskId, rfl⟩
    | free => simp [hm, maySsh] at hmay
    | started => simp [hm, maySsh] at hmay
  obtain ⟨hsaved, hnew, hbegun⟩ := h.marked i taskId hm
  have hlog : (sshLog g i w (.runSsh port target command)).started = g.started ++ [taskId] := by
    simp [sshLog, hsaved]
  have hhold : ∀ j id, Function.update m i .started j = .marked id → j ≠ i ∧ m j = .marked id := by
    intro j id hj
    by_cases hji : j = i
    · subst hji
      rw [Function.update_self] at hj
      cases hj
    · rw [Function.update_of_ne hji] at hj
      exact ⟨hji, hj⟩
  constructor
  case marked =>
    intro j id hj
    obtain ⟨hji, hj⟩ := hhold j id hj
    obtain ⟨hsaved', hnew', hbegun'⟩ := h.marked j id hj
    refine ⟨hsaved', ?_, hbegun'⟩
    rw [hlog, List.mem_append, List.mem_singleton]
    rintro (hstarted | rfl)
    · exact hnew' hstarted
    · exact hji (h.apart j i _ hj hm)
  case apart =>
    intro j k id hj hk
    exact h.apart j k id (hhold j id hj).2 (hhold k id hk).2
  case begun =>
    intro id hid
    rw [hlog, List.mem_append, List.mem_singleton] at hid
    rcases hid with hid | rfl
    · exact h.begun id hid
    · exact hbegun
  case once =>
    rw [hlog]
    exact h.once.append (List.nodup_singleton _) (List.disjoint_singleton.mpr hnew)

/-- **One call starts no task a second time.** -/
theorem startsOnce_step (h : StartsOnce w m g) (hmay : maySsh (m i) op)
    (hturn : SavesInTurn i w op) :
    StartsOnce (exec env op w).2
      (Function.update m i (afterSsh (m i) op (exec env op w).1)) (sshLog g i w op) := by
  cases hop : op.entersSsh with
  | false => exact startsOnce_other h hturn hop
  | true =>
    cases op with
    | saveTask t => exact startsOnce_save h hmay hturn
    | runSsh port target command => exact startsOnce_start h hmay
    | _ => cases hop

end Step

/-! ## §6. Every interleaving. -/

section Runs

variable {ι : Type} [DecidableEq ι] {env : Env}

/-- A finished task is there, unchanged, after every run in turn. -/
theorem terminal_run {id : String} {t : Task} (hterminal : t.status.terminal = true)
    (sched : List ι) (c : Config ι callSig PyError Unit World)
    (ht : c.shared.store.tasks.find? id = some t)
    (hturn : c.Respects (exec env) SavesInTurn sched) :
    (c.run (exec env) sched).shared.store.tasks.find? id = some t := by
  refine Config.run_induct (f := fun (_ : Unit) _ _ _ => ())
    (fun c _ => c.shared.store.tasks.find? id = some t)
    (fun c _ i op k hc hp hop => ?_) sched c () ht hturn
  rw [Config.step_of_call hp]
  exact terminal_exec hop hc hterminal

/-- **The command of a task is started at most once, and a finished task
stays finished**, in every interleaving in which every running copy is saved
over a row that is still pending. -/
theorem ssh_task_runs_once (env : Env) (callers : ι → SshCaller) (w : World) (sched : List ι)
    (hturn : (sshCallers callers w).Respects (exec env) SavesInTurn sched) :
    ((sshCallers callers w).history (exec env) sshLog .start sched).started.Nodup
    ∧ ∀ pre post, sched = pre ++ post → ∀ id t,
        ((sshCallers callers w).run (exec env) pre).shared.store.tasks.find? id = some t →
        t.status.terminal = true →
        ((sshCallers callers w).run (exec env) sched).shared.store.tasks.find? id = some t := by
  constructor
  · have hstart : StartsOnce w (fun _ : ι => SshHold.free) .start := by
      constructor
      case marked => exact fun _ _ h => nomatch h
      case apart => exact fun _ _ _ h => nomatch h
      case begun => exact fun _ h => nomatch h
      case once => exact List.nodup_nil
    obtain ⟨m, hm, -⟩ := Config.run_typestate sshTypestate (Q := fun _ => True)
      (E := fun _ => True) StartsOnce
      (fun w m g i op hI hmay hop => ⟨trivial, startsOnce_step hI hmay hop⟩) sched
      (sshCallers callers w) .start
      ⟨fun _ => .free, hstart, fun i => sshCaller_inTurn (callers i)⟩ hturn
    exact hm.once
  · rintro pre post rfl id t ht hterminal
    rw [Config.run_append]
    exact terminal_run hterminal post _ ht ((Config.respects_append _ pre post).mp hturn).2

end Runs

/-! ## §7. Two runs of one task. -/

/-- A managed node with an address and a pending ssh task. -/
def sshWorld : World where
  store := { Store.empty with
    nodes := .single {
      nodeId := "node_000000000001"
      fingerprint := "fp"
      hostname := "web-1"
      addresses := ["192.0.2.7"]
      trustLevel := "B"
      labels := []
      status := .managed }
    tasks := .single {
      taskId := "task_000000000001"
      nodeId := "node_000000000001"
      command := "reboot"
      risk := "low"
      status := .pending
      createdBy := "hmn"
      createdAt := 0
      executor := "ssh" } }
  files _ := .missing

/-- One `hmn task ssh-run-next` after the other: the second finds nothing. -/
theorem ssh_task_runs_once_in_turn :
    ((sshCallers (fun _ : Bool => .sshRunNext) sshWorld).history (exec Env.quiet) sshLog .start
      [true, true, true, true, true, true, true, true, true, false, false]).started.Nodup :=
  (ssh_task_runs_once Env.quiet (fun _ : Bool => .sshRunNext) sshWorld
    [true, true, true, true, true, true, true, true, true, false, false] (by decide +kernel)).1

/-- The status of the task. -/
def sshStatus (w : World) : Option TaskStatus :=
  (w.store.tasks.find? "task_000000000001").map Task.status

/-- **A command that is started twice.**  Two `hmn task ssh-run-next` list the
same pending task and both start it; and a `run_ssh_task` of a task that
already succeeded sets it running again and starts its command. -/
theorem ssh_task_runs_twice :
    ((sshCallers (fun _ : Bool => .sshRunNext) sshWorld).history (exec Env.quiet) sshLog .start
      [true, false, true, true, true, true, true, false, false, false, false, false]).started
      = ["task_000000000001", "task_000000000001"]
    ∧ ((sshCallers (fun _ : Bool => .runSshTask "task_000000000001" []) sshWorld).history
      (exec Env.quiet) sshLog .start (List.replicate 8 true ++ List.replicate 5 false)).started
      = ["task_000000000001", "task_000000000001"]
    ∧ sshStatus ((sshCallers (fun _ : Bool => .runSshTask "task_000000000001" []) sshWorld).run
        (exec Env.quiet) (List.replicate 8 true)).shared = some .succeeded
    ∧ sshStatus ((sshCallers (fun _ : Bool => .runSshTask "task_000000000001" []) sshWorld).run
        (exec Env.quiet) (List.replicate 8 true ++ List.replicate 4 false)).shared
      = some .running := by
  decide +kernel

end Hmn
