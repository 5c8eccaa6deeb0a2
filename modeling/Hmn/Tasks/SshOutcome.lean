/-
  Hmn.Tasks.SshOutcome — does an ssh task always come to an end?

  The running copy is saved before the command is started.  Only a command
  that came to its end gets as far as the result, and the audit event before
  it takes the port as a number once more: a timeout, a failed start, output
  that is not text or a port label that is no number leave the row running,
  and the watchdog only looks at worker tasks.

  Main results: `ssh_task_settled_iff`, `ssh_timeout_leaves_running`.
-/
import Hmn.Store.Specs
import Hmn.Tasks.SshRuns

namespace Hmn

open Framework Py

/-! ## §1. A run that gets to the save. -/

/-- A pending task that passes every check before the running copy is
saved. -/
structure SshAccepted (taskId : String) (allowRisk : List String) (w : World) (task : Task)
    (node : Node) (target : SSHTarget) : Prop where
  found : w.store.tasks.find? taskId = some task
  pending : task.status = .pending
  executor : task.executor = "ssh"
  risk : task.risk ∈ (if allowRisk = [] then safeRisks else allowRisk)
  nodeFound : w.store.nodes.find? task.nodeId = some node
  managed : node.status = .managed
  target : sshTargetDetailsForNode node = some target

variable {env : Env} {w : World} {taskId : String} {allowRisk : List String} {task : Task}
  {node : Node} {target : SSHTarget}

/-- An accepted task is executed. -/
theorem runSshTask_run (h : SshAccepted taskId allowRisk w task node target) :
    (runSshTask taskId allowRisk).run (exec env) w
      = (executeSshTask task target).run (exec env) w := by
  have htask : exec env (.loadTask taskId) w = (some task, w) := by rw [← h.found]; rfl
  have hnode : exec env (.loadNode task.nodeId) w = (some node, w) := by rw [← h.nodeFound]; rfl
  unfold runSshTask
  rw [run_call_bind, htask]
  simp only [h.executor, ne_eq, not_true_eq_false, if_false, h.risk]
  rw [run_call_bind, hnode]
  simp only [h.managed, not_true_eq_false, if_false, h.target]

/-- The world when the command of the task has ended. -/
def World.sshRan (env : Env) (w : World) (task : Task) (target : SSHTarget) : World :=
  { w with
    store := { w.store with
      tasks := w.store.tasks.upsert (markRunning task (w.reading env 0)) }
    clock := w.clock + 1
    commands := w.commands + 1
    effects := w.effects
      ++ [.runSsh target.port (target.user ++ "@" ++ target.host) task.command] }

/-- **The running copy is saved and the command started, whatever becomes
of it.** -/
theorem executeSshTask_run (env : Env) (task : Task) (target : SSHTarget) (w : World) :
    (executeSshTask task target).run (exec env) w =
      match (env.ssh w.commands).1 with
      | .completed returncode stdout stderr =>
          (reportSshTask (markRunning task (w.reading env 0)) target (env.ssh w.commands).2
            returncode stdout stderr).run (exec env) (w.sshRan env task target)
      | .timedOut => (.error .timeout, w.sshRan env task target)
      | .raised exception => (.error exception, w.sshRan env task target) := by
  unfold executeSshTask
  rw [run_call_bind, run_call_bind, run_call_bind]
  cases houtcome : env.ssh w.commands with
  | mk outcome durationMs =>
    have hanswer : (exec env (.runSsh target.port (target.user ++ "@" ++ target.host) task.command)
        (exec env (.saveTask (markRunning task (exec env .now w).1)) (exec env .now w).2).2).1
        = (outcome, durationMs) := houtcome
    rw [hanswer]
    cases outcome <;> rfl

theorem sshRan_tasks : (w.sshRan env task target).store.tasks
    = w.store.tasks.upsert (markRunning task (w.reading env 0)) := rfl

/-! ## §2. The result. -/

/-- The stored task succeeded or failed. -/
def TaskSettled (taskId : String) (w : World) : Prop :=
  ∃ t, w.store.tasks.find? taskId = some t ∧ (t.status = .succeeded ∨ t.status = .failed)

/-- A row that is still running is not settled. -/
theorem not_taskSettled {t : Task} (hfound : w.store.tasks.find? taskId = some t)
    (hrunning : t.status = .running) : ¬ TaskSettled taskId w := by
  rintro ⟨t', hfound', hstatus⟩
  obtain rfl := Option.some.inj (hfound.symm.trans hfound')
  rcases hstatus with hstatus | hstatus <;> rw [hrunning] at hstatus <;> cases hstatus

/-- The command came to its end and the port reads as a number. -/
def SshComesBack (env : Env) (w : World) (target : SSHTarget) : Prop :=
  (∃ returncode stdout stderr, (env.ssh w.commands).1 = .completed returncode stdout stderr)
  ∧ (Text.parseInt target.port).isSome

/-- **The report settles a running task when the port reads as a number, and
leaves it running otherwise.** -/
theorem reportSshTask_settles {t : Task} (hfound : w.store.tasks.find? taskId = some t)
    (hrunning : t.status = .running) (durationMs : Nat) (returncode : Int)
    (stdout stderr : String) :
    TaskSettled taskId
        ((reportSshTask t target durationMs returncode stdout stderr).run (exec env) w).2
      ↔ (Text.parseInt target.port).isSome := by
  obtain rfl : t.taskId = taskId := Table.key_of_find? hfound
  unfold reportSshTask intOrRaise
  cases hport : Text.parseInt target.port with
  -- The port is read before anything is written.
  | none => exact iff_of_false (not_taskSettled hfound hrunning) (by simp)
  | some port =>
    refine iff_of_true ?_ rfl
    simp only [Prog.pure_eq, Prog.ret_bind]
    rw [run_call_bind, run_call_bind]
    -- The audit event before the result leaves the task as it is.
    generalize haudited : (exec env (.recordAudit _ _ _ _ _ _) w).2 = w'
    have hfound' : w'.store.tasks.find? t.taskId = some t := by
      rw [← haudited]
      exact hfound
    rcases w'.store.complete_cases t.taskId returncode stdout stderr (w'.reading env 0) with
      ⟨row, hrow, -, hanswer, es, hstore, -⟩ | ⟨hno, -⟩
    · obtain rfl := Option.some.inj (hfound'.symm.trans hrow)
      have hdone : TaskSettled t.taskId
          (exec env (.completeTask t.taskId returncode stdout stderr) w').2 := by
        refine ⟨Store.complete returncode stdout stderr (w'.reading env 0) t, ?_, ?_⟩
        · simp only [exec, World.after_store, hstore, Table.find?_update, hfound']
          simp [hrunning]
        · by_cases hcode : returncode = 0 <;> simp [Store.complete, hcode]
      rw [show (exec env (.completeTask t.taskId returncode stdout stderr) w').1
        = some _ from hanswer]
      dsimp only
      split_ifs <;> exact hdone
    · exact absurd hrunning (hno t hfound')

/-- **An ssh task is settled exactly when its command came to its end and its
port reads as a number.** -/
theorem ssh_task_settled_iff (env : Env) (w : World) (taskId : String) (allowRisk : List String)
    (task : Task) (node : Node) (target : SSHTarget)
    (h : SshAccepted taskId allowRisk w task node target) :
    TaskSettled taskId ((runSshTask taskId allowRisk).run (exec env) w).2
      ↔ SshComesBack env w target := by
  have hid : task.taskId = taskId := Table.key_of_find? h.found
  have hfound : (w.sshRan env task target).store.tasks.find? taskId
      = some (markRunning task (w.reading env 0)) := by
    rw [sshRan_tasks, ← hid]
    exact Table.find?_upsert_self _ (markRunning task (w.reading env 0))
  rw [runSshTask_run h, executeSshTask_run, SshComesBack]
  cases houtcome : (env.ssh w.commands).1 with
  | completed returncode stdout stderr =>
    refine (reportSshTask_settles hfound rfl (env.ssh w.commands).2 returncode stdout
      stderr).trans ?_
    simp
  | timedOut => exact iff_of_false (not_taskSettled hfound rfl) (by simp)
  | raised exception => exact iff_of_false (not_taskSettled hfound rfl) (by simp)

/-! ## §3. What is left running. -/

/-- The watchdog never takes an ssh task. -/
theorem ssh_never_stuck (cutoff : Timestamp) {t : Task} (h : t.executor = "ssh") :
    Store.stuck cutoff t = false := by
  simp [Store.stuck, h]

/-- The store that the watchdog leaves, sweep after sweep. -/
def Store.swept (s : Store) (sweeps : List (Option Int × Timestamp)) : Store :=
  sweeps.foldl (fun s sweep => (s.expireStuckTasks sweep.1 sweep.2).2) s

/-- No sweep changes an ssh task. -/
theorem swept_ssh {t : Task} (hssh : t.executor = "ssh") (sweeps : List (Option Int × Timestamp)) :
    ∀ {s : Store}, s.tasks.find? taskId = some t → (s.swept sweeps).tasks.find? taskId = some t := by
  induction sweeps with
  | nil => exact id
  | cons sweep sweeps ih =>
    intro s hfound
    obtain ⟨es, hes, -⟩ := s.expire_spec sweep.1 sweep.2
    refine ih (s := (s.expireStuckTasks sweep.1 sweep.2).2) ?_
    rw [hes, Table.find?_update, hfound, Option.map_some, ssh_never_stuck _ hssh]
    rfl

/-! ## §4. A command that times out. -/

/-- The task of `sshWorld` is settled when its command ends, also with an
error. -/
theorem ssh_failure_settled : TaskSettled "task_000000000001"
    ((runSshTask "task_000000000001" []).run
      (exec { Env.quiet with ssh _ := (.completed 255 "" "Permission denied", 40) }) sshWorld).2 :=
  (ssh_task_settled_iff { Env.quiet with ssh _ := (.completed 255 "" "Permission denied", 40) }
    sshWorld "task_000000000001" [] _ _
    { host := "192.0.2.7", user := "root", port := "22", source := "address" }
    ⟨rfl, rfl, rfl, by decide, rfl, rfl, by decide +kernel⟩).mpr
    ⟨⟨_, _, _, rfl⟩, by decide +kernel⟩

/-- **A task that is left running.**  Its command takes longer than the 120
seconds it is given, and no sweep of the watchdog settles it afterwards. -/
theorem ssh_timeout_leaves_running :
    let after := ((runSshTask "task_000000000001" []).run
      (exec { Env.quiet with ssh _ := (.timedOut, 120000) }) sshWorld).2
    ¬ TaskSettled "task_000000000001" after
      ∧ ∀ sweeps, ¬ TaskSettled "task_000000000001"
          { after with store := after.store.swept sweeps } := by
  intro after
  obtain ⟨t, hfound, hssh, hrunning⟩ : ∃ t, after.store.tasks.find? "task_000000000001" = some t
      ∧ t.executor = "ssh" ∧ t.status = .running := ⟨_, rfl, rfl, rfl⟩
  exact ⟨not_taskSettled hfound hrunning,
    fun sweeps => not_taskSettled (swept_ssh hssh sweeps hfound) hrunning⟩

end Hmn
