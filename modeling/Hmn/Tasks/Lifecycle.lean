/-
  Hmn.Tasks.Lifecycle — the life of a worker task.

  Three kinds of callers race for one row: workers that claim a task and
  report its result, and watchdogs that fail a task whose lease is over.
  Every transition is guarded by the status the row has in the same
  transaction, so the row is an automaton (`RowStep`) whatever the order of
  the calls, and all properties of a run follow from the automaton alone.

  Main results: `exec_rowStep` — every call moves every row by the automaton;
  `rowSteps_run` — so does every call of every interleaving;
  `worker_task_lifecycle` — statuses, attempts, claims, expiries and the
  permanence of a result.
-/
import Hmn.Approval.Approvals
import Hmn.Store.Frames
import Hmn.Tasks.Tasks

namespace Hmn

open Framework Py

/-! ## §1. The automaton of one row. -/

/-- The status changes of a task. -/
inductive TaskStatus.Next : TaskStatus → TaskStatus → Prop
  | claim : Next .pending .running
  | succeed : Next .running .succeeded
  | fail : Next .running .failed

/-- What one call does to the row of the task `id`; `claimed` is the task the
call claims, if it claims one. -/
inductive RowStep (id : String) (claimed : Option String) : Option Task → Option Task → Prop
  | keep (row : Option Task) (h : claimed ≠ some id) : RowStep id claimed row row
  | create (t : Task) (h : claimed ≠ some id) (hpending : t.status = .pending)
      (hnew : t.attemptCount = 0) : RowStep id claimed none (some t)
  | claim (t : Task) (now lease : Timestamp) (h : claimed = some id)
      (hpending : t.status = .pending) : RowStep id claimed (some t) (some (Store.claim now lease t))
  | complete (t : Task) (exitCode : Int) (stdout stderr : String) (now : Timestamp)
      (h : claimed ≠ some id) (hrunning : t.status = .running) :
      RowStep id claimed (some t) (some (Store.complete exitCode stdout stderr now t))
  | expire (t : Task) (now : Timestamp) (h : claimed ≠ some id) (hrunning : t.status = .running) :
      RowStep id claimed (some t) (some (Store.expire now t))

namespace RowStep

variable {id : String} {claimed : Option String} {before after : Option Task}

/-- A row stays, and its status stays or moves on. -/
theorem moves (h : RowStep id claimed before after) {t : Task} (ht : before = some t) :
    ∃ t', after = some t' ∧ (t'.status = t.status ∨ t.status.Next t'.status) := by
  cases h with
  | keep row _ => exact ⟨t, ht, Or.inl rfl⟩
  | create t' _ _ _ => cases ht
  | claim t' now lease _ hpending =>
    cases ht
    exact ⟨_, rfl, Or.inr (hpending ▸ .claim)⟩
  | complete t' exitCode stdout stderr now _ hrunning =>
    cases ht
    refine ⟨_, rfl, Or.inr ?_⟩
    rw [hrunning]
    unfold Store.complete
    by_cases hcode : exitCode = 0
    · simpa [hcode] using TaskStatus.Next.succeed
    · simpa [hcode] using TaskStatus.Next.fail
  | expire t' now _ hrunning =>
    cases ht
    exact ⟨_, rfl, Or.inr (hrunning ▸ .fail)⟩

/-- A new row is pending. -/
theorem starts (h : RowStep id claimed none after) {t : Task} (ht : after = some t) :
    t.status = .pending := by
  cases h with
  | keep _ _ => cases ht
  | create t' _ hpending _ =>
    cases ht
    exact hpending

/-- **A terminal row is final.** -/
theorem final (h : RowStep id claimed before after) {t : Task} (ht : before = some t)
    (hterminal : t.status.terminal = true) : after = some t := by
  cases h with
  | keep row _ => exact ht
  | create t' _ _ _ => cases ht
  | claim t' now lease _ hpending =>
    cases ht
    rw [hpending] at hterminal
    cases hterminal
  | complete t' exitCode stdout stderr now _ hrunning =>
    cases ht
    rw [hrunning] at hterminal
    cases hterminal
  | expire t' now _ hrunning =>
    cases ht
    rw [hrunning] at hterminal
    cases hterminal

end RowStep

/-- The attempts of a row agree with the `n` claims of its task: none while it
is pending, one from then on. -/
def Attempted (row : Option Task) (n : Nat) : Prop :=
  match row with
  | none => n = 0
  | some t => t.attemptCount = n ∧ n = if t.status = .pending then 0 else 1

/-- A step counts its claim. -/
theorem attempted_step {id : String} {claimed : Option String} {before after : Option Task} {n : Nat}
    (h : Attempted before n) (hstep : RowStep id claimed before after) :
    Attempted after (if claimed = some id then n + 1 else n) := by
  cases hstep with
  | keep row hother => rwa [if_neg hother]
  | create t hother hpending hnew =>
    rw [if_neg hother]
    subst h
    exact ⟨hnew, by rw [hpending]; rfl⟩
  | claim t now lease hclaim hpending =>
    obtain ⟨hcount, hn⟩ := h
    rw [if_pos hclaim]
    rw [hpending, if_pos rfl] at hn
    exact ⟨congrArg (· + 1) hcount, by rw [hn]; rfl⟩
  | complete t exitCode stdout stderr now hother hrunning =>
    obtain ⟨hcount, hn⟩ := h
    rw [if_neg hother]
    refine ⟨hcount, hn.trans ?_⟩
    rw [hrunning]
    by_cases hcode : exitCode = 0 <;> simp [Store.complete, hcode]
  | expire t now hother hrunning =>
    obtain ⟨hcount, hn⟩ := h
    rw [if_neg hother]
    exact ⟨hcount, hn.trans (by rw [hrunning]; rfl)⟩

/-! ## §2. Every call moves every row by the automaton. -/

/-- The task a call claims. -/
def claimedBy (env : Env) (w : World) : Call → Option String
  | .claimNextTask nodeId executor lease =>
      (exec env (.claimNextTask nodeId executor lease) w).1.map Task.taskId
  | _ => none

/-- A row that is saved under a free key, pending and without an attempt. -/
def SavesNewTask (w : World) : Call → Prop
  | .saveTask t =>
      w.store.tasks.find? t.taskId = none ∧ t.status = .pending ∧ t.attemptCount = 0
  | _ => True

section Calls

variable {env : Env} {w : World}

theorem dispatch_rowStep (approvalId id : String) :
    RowStep id none (w.store.tasks.find? id)
      ((exec env (.dispatchApprovedTaskRequest approvalId) w).2.store.tasks.find? id) := by
  simp only [exec, World.after_store]
  rcases w.store.dispatch_cases approvalId (env.uuid w.uuids) (w.reading env) with
    ⟨approval, tasks, h, heq⟩ | ⟨r, es, heq, -⟩
  · rw [heq]
    simp only [Store.dispatchedStore, Table.find?_insert h.inserted]
    split_ifs with hid
    · have hfree := (Table.insert?_eq_some.mp h.inserted).1
      rw [← hid, hfree]
      exact .create _ (Option.some_ne_none _).symm rfl rfl
    · exact .keep _ (Option.some_ne_none _).symm
  · rw [heq]
    exact .keep _ (Option.some_ne_none _).symm

theorem claim_rowStep (nodeId executor : String) (lease : Int) (id : String) :
    RowStep id (claimedBy env w (.claimNextTask nodeId executor lease)) (w.store.tasks.find? id)
      ((exec env (.claimNextTask nodeId executor lease) w).2.store.tasks.find? id) := by
  simp only [claimedBy, exec, World.after_store]
  rcases w.store.claim_cases nodeId executor lease (w.reading env 0) with
    ⟨row, hclaims, hanswer, es, heq, -⟩ | ⟨-, heq⟩
  · obtain ⟨hmem, -, -, hpending⟩ := Store.mem_pendingTasks.mp hclaims.pending
    rw [hanswer, heq, Option.map_some, Store.claim_taskId]
    simp only [Table.find?_update]
    -- The row of the answer is claimed, every other one is passed over by the UPDATE.
    by_cases hid : row.taskId = id
    · have hfound : w.store.tasks.find? id = some row := hid ▸ Table.find?_of_mem hmem
      rw [hfound, hid]
      simpa [hpending, hid] using RowStep.claim row _ _ rfl hpending
    · have hsame : (w.store.tasks.find? id).map (fun t =>
          if decide (t.taskId = row.taskId ∧ t.status = .pending) = true then
            Store.claim (w.reading env 0) (w.reading env 0 + seconds lease) t else t)
          = w.store.tasks.find? id := by
        cases hf : w.store.tasks.find? id with
        | none => rfl
        | some t =>
          have ht : t.taskId ≠ row.taskId := (Table.key_of_find? hf).symm ▸ Ne.symm hid
          simp [ht]
      rw [hsame]
      exact .keep _ (by simpa using hid)
  · rw [heq]
    exact .keep _ (Option.some_ne_none _).symm

theorem complete_rowStep (taskId : String) (exitCode : Int) (stdout stderr id : String) :
    RowStep id none (w.store.tasks.find? id)
      ((exec env (.completeTask taskId exitCode stdout stderr) w).2.store.tasks.find? id) := by
  simp only [exec, World.after_store]
  rcases w.store.complete_cases taskId exitCode stdout stderr (w.reading env 0) with
    ⟨row, -, -, -, es, heq, -⟩ | ⟨-, heq⟩
  · rw [heq]
    simp only [Table.find?_update]
    cases w.store.tasks.find? id with
    | none => exact .keep none (Option.some_ne_none _).symm
    | some t =>
      rw [Option.map_some]
      by_cases ht : t.taskId = taskId ∧ t.status = .running
      · rw [if_pos (decide_eq_true ht)]
        exact .complete t _ _ _ _ (Option.some_ne_none _).symm ht.2
      · rw [if_neg (by simpa using ht)]
        exact .keep _ (Option.some_ne_none _).symm
  · rw [heq]
    exact .keep _ (Option.some_ne_none _).symm

theorem expire_rowStep (olderThan : Option Int) (id : String) :
    RowStep id none (w.store.tasks.find? id)
      ((exec env (.expireStuckTasks olderThan) w).2.store.tasks.find? id) := by
  obtain ⟨es, heq, -⟩ := w.store.expire_spec olderThan (w.reading env 0)
  simp only [exec, World.after_store, heq, Table.find?_update]
  cases w.store.tasks.find? id with
  | none => exact .keep none (Option.some_ne_none _).symm
  | some t =>
    rw [Option.map_some]
    by_cases ht : Store.stuck (Store.cutoff olderThan (w.reading env 0)) t = true
    · rw [if_pos ht]
      exact .expire t _ (Option.some_ne_none _).symm (Store.running_of_stuck ht)
    · rw [if_neg ht]
      exact .keep _ (Option.some_ne_none _).symm

/-- **Every call moves every row by the automaton**, when a row that is
saved is a new one. -/
theorem exec_rowStep {op : Call} (hsave : SavesNewTask w op) (id : String) :
    RowStep id (claimedBy env w op) (w.store.tasks.find? id)
      ((exec env op w).2.store.tasks.find? id) := by
  -- A call that does not write tasks moves no row, and it is not a claim.
  cases hw : op.writesTasks with
  | false =>
    rw [exec_tasks hw]
    refine .keep _ ?_
    cases op with
    | claimNextTask _ _ _ => simp [Call.writesTasks] at hw
    | _ => exact (Option.some_ne_none id).symm
  | true =>
    cases op with
    | dispatchApprovedTaskRequest approvalId => exact dispatch_rowStep approvalId id
    | claimNextTask nodeId executor lease => exact claim_rowStep nodeId executor lease id
    | completeTask taskId exitCode stdout stderr =>
      exact complete_rowStep taskId exitCode stdout stderr id
    | expireStuckTasks olderThan => exact expire_rowStep olderThan id
    | saveTask t =>
      obtain ⟨hfree, hpending, hnew⟩ := hsave
      simp only [exec, World.after_store, Table.find?_upsert]
      split_ifs with hid
      · rw [← hid, hfree]
        exact .create t (Option.some_ne_none _).symm hpending hnew
      · exact .keep _ (Option.some_ne_none _).symm
    | _ => simp [Call.writesTasks] at hw

end Calls

/-! ## §3. The callers. -/

/-- The calls that save a whole task row. -/
def Call.savesTask : Call → Bool
  | .saveTask _ => true
  | _ => false

/-- The callers: the operations on tasks, and any other program that writes
tasks through their transactions only. -/
inductive TaskCaller where
  | createTask (nodeId command risk createdBy executor : String)
  | dispatchApprovedTaskRequest (approvalId : String)
  | claimNextTask (nodeId executor : String) (leaseSeconds : Int)
  | completeTask (taskId : String) (exitCode : Int) (stdout stderr : String)
  | expireStuckTasks (olderThanSeconds : Option Int)
  | other (p : Py Unit) (h : p.Calls (fun op : Call => op.savesTask = false))

/-- What a caller runs; its answer is left out. -/
def TaskCaller.program : TaskCaller → Py Unit
  | .createTask nodeId command risk createdBy executor => do
      let _ ← Hmn.createTask nodeId command risk createdBy executor
  | .dispatchApprovedTaskRequest approvalId => do
      let _ ← Hmn.dispatchApprovedTaskRequest approvalId
  | .claimNextTask nodeId executor leaseSeconds => do
      let _ ← call (.claimNextTask nodeId executor leaseSeconds)
  | .completeTask taskId exitCode stdout stderr => do
      let _ ← call (.completeTask taskId exitCode stdout stderr)
  | .expireStuckTasks olderThanSeconds => do
      let _ ← call (.expireStuckTasks olderThanSeconds)
  | .other p _ => p

/-- A saved task is a new one under the identifier that was drawn last. -/
def mayTask (drawn : Option String) : Call → Prop
  | .saveTask t => ∃ uuid, drawn = some uuid ∧ t.taskId = "task_" ++ uuid
      ∧ t.status = .pending ∧ t.attemptCount = 0
  | _ => True

/-- The identifier that was drawn last and not used yet. -/
def lastDrawn (drawn : Option String) : (op : Call) → Call.Res op → Option String
  | .uuid4, uuid => some uuid
  | .saveTask _, _ => none
  | _, _ => drawn

/-- The discipline of the callers. -/
abbrev taskTypestate : Typestate callSig where
  Mode := Option String
  may := mayTask
  after := lastDrawn
  sees _ _ := True

/-- A caller that keeps the discipline to its end. -/
def KeepsDraft (drawn : Option String) {α : Type} (p : Py α) : Prop :=
  p.wp taskTypestate (fun _ _ => True) (fun _ _ => True) drawn

section Keeps

variable {drawn : Option String} {α : Type}

theorem lastDrawn_other {op : Call} {r : Call.Res op} (hdraw : op ≠ .uuid4)
    (hsave : ∀ t, op ≠ .saveTask t) : lastDrawn drawn op r = drawn := by
  cases op with
  | uuid4 => exact absurd rfl hdraw
  | saveTask t => exact absurd rfl (hsave t)
  | _ => rfl

theorem keepsDraft_call {op : Call} {f : Call.Res op → Py α} (hop : mayTask drawn op)
    (hf : ∀ r, KeepsDraft (lastDrawn drawn op r) (f r)) : KeepsDraft drawn (call op >>= f) := by
  unfold KeepsDraft
  rw [call_bind, Prog.wp_call]
  exact ⟨hop, fun r _ => hf r⟩

theorem keepsDraft_ret (a : α) : KeepsDraft drawn (.ret a : Py α) := Prog.wp_ret.mpr trivial

theorem keepsDraft_other {p : Py α} (h : p.Calls (fun op : Call => op.savesTask = false)) :
    KeepsDraft drawn p := by
  refine Prog.wp_within (T := taskTypestate) (fun _ => True) (fun m op _ hop => ⟨?_, fun _ => trivial⟩)
    (fun _ _ _ => trivial) (fun _ _ _ => trivial) h drawn trivial
  cases op with
  | saveTask t => simp [Call.savesTask] at hop
  | _ => trivial

theorem createTask_keepsDraft (nodeId command risk createdBy executor : String) :
    KeepsDraft drawn (TaskCaller.createTask nodeId command risk createdBy executor).program := by
  unfold TaskCaller.program createTask
  simp only [bind_assoc]
  refine keepsDraft_call (by trivial) (fun uuid => keepsDraft_call (by trivial) (fun createdAt => ?_))
  refine keepsDraft_call ⟨uuid, rfl, rfl, rfl, rfl⟩ (fun _ => ?_)
  exact keepsDraft_call (by trivial) (fun _ => keepsDraft_ret _)

/-- **Every caller keeps the discipline.** -/
theorem taskCaller_keepsDraft (caller : TaskCaller) : KeepsDraft drawn caller.program := by
  cases caller with
  | createTask nodeId command risk createdBy executor =>
    exact createTask_keepsDraft nodeId command risk createdBy executor
  | dispatchApprovedTaskRequest approvalId =>
    show KeepsDraft drawn
      ((call (.dispatchApprovedTaskRequest approvalId) >>= orRaise) >>= fun _ => .ret ())
    rw [bind_assoc]
    refine keepsDraft_call (by trivial) (fun r => ?_)
    cases r with
    | ok task => exact keepsDraft_ret _
    | error e => exact Prog.wp_raise.mpr trivial
  | claimNextTask nodeId executor leaseSeconds =>
    exact keepsDraft_call (by trivial) (fun _ => keepsDraft_ret _)
  | completeTask taskId exitCode stdout stderr =>
    exact keepsDraft_call (by trivial) (fun _ => keepsDraft_ret _)
  | expireStuckTasks olderThanSeconds =>
    exact keepsDraft_call (by trivial) (fun _ => keepsDraft_ret _)
  | other p h => exact keepsDraft_other h

end Keeps

/-! ## §4. Every interleaving. -/

/-- Remember the claimed tasks. -/
def claimLog {ι : Type} (env : Env) (claims : List String) (_ : ι) (w : World) (op : Call) :
    List String :=
  claims ++ (claimedBy env w op).toList

theorem count_claimLog {ι : Type} (env : Env) (claims : List String) (i : ι) (w : World)
    (op : Call) (id : String) :
    (claimLog env claims i w op).count id
      = if claimedBy env w op = some id then claims.count id + 1 else claims.count id := by
  unfold claimLog
  rw [List.count_append]
  cases claimedBy env w op with
  | none => simp
  | some claimed => by_cases h : claimed = id <;> simp [h]

theorem taskId_inj {u v : String} (h : "task_" ++ u = "task_" ++ v) : u = v := by
  have hlist := congrArg String.toList h
  rw [String.toList_append, String.toList_append, List.append_cancel_left_eq] at hlist
  exact String.toList_inj.mp hlist

section Step

variable {ι : Type} {env : Env} {first last : Nat} {w : World}
  {m : ι → Option String} {g : List String} {i : ι} {op : Call}

/-- The attempts of every row agree with the claims, every stored task and
every identifier that is not used yet was drawn in this run, and no two
callers hold one identifier. -/
structure TasksWellFormed (env : Env) (first : Nat) (w : World) (m : ι → Option String)
    (g : List String) : Prop where
  since : first ≤ w.uuids
  attempted : ∀ id, Attempted (w.store.tasks.find? id) (g.count id)
  issued : ∀ id, w.store.tasks.find? id ≠ none →
    ∃ k, first ≤ k ∧ k < w.uuids ∧ id = "task_" ++ env.uuid k
  drawn : ∀ j u, m j = some u → (∃ k, first ≤ k ∧ k < w.uuids ∧ u = env.uuid k)
    ∧ w.store.tasks.find? ("task_" ++ u) = none
  apart : ∀ j l u, m j = some u → m l = some u → j = l

/-- A caller that keeps the discipline saves new tasks only. -/
theorem savesNewTask (h : TasksWellFormed env first w m g) (hmay : mayTask (m i) op) :
    SavesNewTask w op := by
  cases op with
  | saveTask t =>
    obtain ⟨u, hu, hid, hpending, hnew⟩ := hmay
    exact ⟨hid ▸ (h.drawn i u hu).2, hpending, hnew⟩
  | _ => trivial

variable [DecidableEq ι]

/-- Who holds an identifier after a call: a caller that held it before and
did not use it, or the caller that drew it. -/
theorem lastDrawn_eq_some {j : ι} {u : String}
    (h : Function.update m i (lastDrawn (m i) op (exec env op w).1) j = some u) :
    (m j = some u ∧ (j = i → ∀ t, op ≠ .saveTask t))
    ∨ (j = i ∧ op = .uuid4 ∧ u = env.uuid w.uuids) := by
  by_cases hj : j = i
  · subst hj
    rw [Function.update_self] at h
    by_cases hdraw : op = .uuid4
    · subst hdraw
      exact Or.inr ⟨rfl, rfl, (Option.some.inj h).symm⟩
    by_cases hsave : ∃ t, op = .saveTask t
    · obtain ⟨t, rfl⟩ := hsave
      cases h
    · rw [lastDrawn_other hdraw (not_exists.mp hsave)] at h
      exact Or.inl ⟨h, fun _ => not_exists.mp hsave⟩
  · rw [Function.update_of_ne hj] at h
    exact Or.inl ⟨h, fun e => absurd e hj⟩

/-- Which call puts a task under a free key. -/
theorem find?_new {id : String} (hfree : w.store.tasks.find? id = none)
    (hnew : (exec env op w).2.store.tasks.find? id ≠ none) :
    (∃ t, op = .saveTask t ∧ t.taskId = id)
    ∨ (id = "task_" ++ env.uuid w.uuids ∧ (exec env op w).2.uuids = w.uuids + 1) := by
  cases hw : op.writesTasks with
  | false =>
    rw [exec_tasks hw] at hnew
    exact absurd hfree hnew
  | true =>
    cases op with
    | saveTask t =>
      refine Or.inl ⟨t, rfl, ?_⟩
      simp only [exec, World.after_store, Table.find?_upsert] at hnew
      split_ifs at hnew with hid
      · exact hid
      · exact absurd hfree hnew
    | dispatchApprovedTaskRequest approvalId =>
      refine Or.inr ⟨?_, rfl⟩
      simp only [exec, World.after_store] at hnew
      rcases w.store.dispatch_cases approvalId (env.uuid w.uuids) (w.reading env) with
        ⟨approval, tasks, h, heq⟩ | ⟨r, es, heq, -⟩
      · rw [heq] at hnew
        simp only [Store.dispatchedStore, Table.find?_insert h.inserted] at hnew
        split_ifs at hnew with hid
        · exact hid.symm
        · exact absurd hfree hnew
      · rw [heq] at hnew
        exact absurd hfree hnew
    -- The three updates put no row under a key that is free.
    | claimNextTask nodeId executor lease =>
      simp only [exec, World.after_store] at hnew
      rcases w.store.claim_cases nodeId executor lease (w.reading env 0) with
        ⟨row, -, -, es, heq, -⟩ | ⟨-, heq⟩ <;> simp [heq, Table.find?_update, hfree] at hnew
    | completeTask taskId exitCode stdout stderr =>
      simp only [exec, World.after_store] at hnew
      rcases w.store.complete_cases taskId exitCode stdout stderr (w.reading env 0) with
        ⟨row, -, -, -, es, heq, -⟩ | ⟨-, heq⟩ <;> simp [heq, Table.find?_update, hfree] at hnew
    | expireStuckTasks olderThan =>
      obtain ⟨es, heq, -⟩ := w.store.expire_spec olderThan (w.reading env 0)
      simp [exec, heq, Table.find?_update, hfree] at hnew
    | _ => simp [Call.writesTasks] at hw

/-- **One call keeps the tasks well formed.** -/
theorem tasksWellFormed_step (hids : DistinctIds env first last)
    (h : TasksWellFormed env first w m g) (hmay : mayTask (m i) op)
    (hlast : (exec env op w).2.uuids ≤ last) :
    TasksWellFormed env first (exec env op w).2
      (Function.update m i (lastDrawn (m i) op (exec env op w).1)) (claimLog env g i w op) := by
  have hmono : w.uuids ≤ (exec env op w).2.uuids := exec_uuids env op w
  -- an identifier drawn before is not the one drawn now
  have hother : ∀ k, first ≤ k → k < w.uuids → w.uuids < (exec env op w).2.uuids →
      env.uuid k ≠ env.uuid w.uuids := fun k hk hlt hnow heq =>
    absurd (hids k (by omega) w.uuids (by omega) hk (by omega) heq) (by omega)
  constructor
  case since => exact h.since.trans hmono
  case attempted =>
    intro id
    rw [count_claimLog]
    exact attempted_step (h.attempted id) (exec_rowStep (savesNewTask h hmay) id)
  case issued =>
    intro id hid
    by_cases hfree : w.store.tasks.find? id = none
    -- A new row was saved under the identifier its caller had drawn, or dispatched under one
    -- drawn now.
    · rcases find?_new hfree hid with ⟨t, rfl, rfl⟩ | ⟨rfl, hnow⟩
      · obtain ⟨u, hu, hkey, -⟩ := hmay
        obtain ⟨⟨k, hk, hlt, rfl⟩, -⟩ := h.drawn i u hu
        exact ⟨k, hk, by omega, hkey⟩
      · exact ⟨w.uuids, h.since, by omega, rfl⟩
    · obtain ⟨k, hk, hlt, hkey⟩ := h.issued id hfree
      exact ⟨k, hk, by omega, hkey⟩
  case drawn =>
    intro j u hj
    rcases lastDrawn_eq_some hj with ⟨hheld, hkept⟩ | ⟨rfl, rfl, rfl⟩
    · obtain ⟨⟨k, hk, hlt, rfl⟩, hfree⟩ := h.drawn j u hheld
      refine ⟨⟨k, hk, by omega, rfl⟩, ?_⟩
      by_contra hnew
      rcases find?_new hfree hnew with ⟨t, rfl, hkey⟩ | ⟨hkey, hnow⟩
      · obtain ⟨u', hu', hkey', -⟩ := hmay
        have heq := taskId_inj (hkey.symm.trans hkey')
        exact hkept (h.apart j i _ hheld (heq ▸ hu')) t rfl
      · exact hother k hk hlt (by omega) (taskId_inj hkey)
    · refine ⟨⟨w.uuids, h.since, Nat.lt_succ_self _, rfl⟩, ?_⟩
      by_contra hstored
      obtain ⟨k, hk, hlt, hkey⟩ := h.issued _ hstored
      exact hother k hk hlt (Nat.lt_succ_self _) (taskId_inj hkey.symm)
  case apart =>
    intro j l u hj hl
    rcases lastDrawn_eq_some hj with ⟨hheld, -⟩ | ⟨rfl, rfl, rfl⟩
    · rcases lastDrawn_eq_some hl with ⟨hheld', -⟩ | ⟨-, rfl, rfl⟩
      · exact h.apart j l u hheld hheld'
      · obtain ⟨⟨k, hk, hlt, heq⟩, -⟩ := h.drawn j _ hheld
        exact absurd heq.symm (hother k hk hlt (Nat.lt_succ_self _))
    · rcases lastDrawn_eq_some hl with ⟨hheld', -⟩ | ⟨rfl, -, -⟩
      · obtain ⟨⟨k, hk, hlt, heq⟩, -⟩ := h.drawn l _ hheld'
        exact absurd heq.symm (hother k hk hlt (Nat.lt_succ_self _))
      · rfl

end Step

/-! ## §5. The properties of a run. -/

/-- A running worker task whose lease was over at `cutoff`. -/
def Overdue (cutoff : Timestamp) (t : Task) : Prop :=
  t.status = .running ∧ t.executor = "worker"
    ∧ ∃ lease, t.leaseExpiresAt = some lease ∧ lease ≤ cutoff

theorem stuck_iff {cutoff : Timestamp} {t : Task} :
    Store.stuck cutoff t = true ↔ Overdue cutoff t := by
  unfold Store.stuck Overdue
  cases t.leaseExpiresAt <;> simp [and_assoc]

/-- What a single call does to the tasks. -/
structure LifecycleStep (env : Env) (w : World) (op : Call) : Prop where
  /-- A stored task stays, and its status stays or moves on. -/
  moves : ∀ t ∈ w.store.tasks.rows, ∃ t', (exec env op w).2.store.tasks.find? t.taskId = some t'
    ∧ (t'.status = t.status ∨ t.status.Next t'.status)
  /-- A task that was not stored before is pending. -/
  starts : ∀ t ∈ (exec env op w).2.store.tasks.rows, w.store.tasks.find? t.taskId = none →
    t.status = .pending
  /-- A claim returns the oldest pending task of a managed node. -/
  claims : ∀ nodeId executor lease, op = .claimNextTask nodeId executor lease →
    ∀ t, (exec env (.claimNextTask nodeId executor lease) w).1 = some t →
      ∃ row, w.store.Claims nodeId executor row
        ∧ t = Store.claim (w.reading env 0) (w.reading env 0 + seconds lease) row
  /-- A claim for a managed node with a pending task returns one, and it runs. -/
  serves : ∀ nodeId executor lease, op = .claimNextTask nodeId executor lease →
    (w.store.nodes.find? nodeId).map Node.status = some .managed →
    ∀ t ∈ w.store.tasks.rows, t.nodeId = nodeId → t.executor = executor → t.status = .pending →
      ∃ t', (exec env (.claimNextTask nodeId executor lease) w).1 = some t'
        ∧ (exec env op w).2.store.tasks.find? t'.taskId = some t' ∧ t'.status = .running
  /-- The result of a running task is recorded. -/
  records : ∀ id exitCode stdout stderr, op = .completeTask id exitCode stdout stderr →
    ∀ t, w.store.tasks.find? id = some t → t.status = .running →
      ∃ t', (exec env (.completeTask id exitCode stdout stderr) w).1 = some t'
        ∧ (exec env op w).2.store.tasks.find? id = some t'
        ∧ t'.status = (if exitCode = 0 then .succeeded else .failed)
        ∧ t'.exitCode = some exitCode ∧ t'.completedAt = some (w.reading env 0)
        ∧ t'.stdout = Store.capTaskOutput stdout ∧ t'.stderr = Store.capTaskOutput stderr
  /-- An expiry fails the overdue tasks, names them and changes no other. -/
  expires : ∀ olderThan, op = .expireStuckTasks olderThan → ∀ t ∈ w.store.tasks.rows,
    (Overdue (Store.cutoff olderThan (w.reading env 0)) t →
      (exec env op w).2.store.tasks.find? t.taskId = some (Store.expire (w.reading env 0) t)
      ∧ t.taskId ∈ (exec env (.expireStuckTasks olderThan) w).1)
    ∧ (¬ Overdue (Store.cutoff olderThan (w.reading env 0)) t →
      (exec env op w).2.store.tasks.find? t.taskId = some t
      ∧ t.taskId ∉ (exec env (.expireStuckTasks olderThan) w).1)

/-- Every row moves by the automaton. -/
def MovesRows {ι : Type} (env : Env) (_ : ι) (w : World) (op : Call) : Prop :=
  ∀ id, RowStep id (claimedBy env w op) (w.store.tasks.find? id)
    ((exec env op w).2.store.tasks.find? id)

theorem claim_returns {env : Env} {w : World} {nodeId executor : String} {lease : Int} {t : Task}
    (h : (exec env (.claimNextTask nodeId executor lease) w).1 = some t) :
    ∃ row, w.store.Claims nodeId executor row
      ∧ t = Store.claim (w.reading env 0) (w.reading env 0 + seconds lease) row := by
  simp only [exec] at h
  rcases w.store.claim_cases nodeId executor lease (w.reading env 0) with
    ⟨row, hclaims, hanswer, -⟩ | ⟨-, heq⟩
  · rw [hanswer] at h
    exact ⟨row, hclaims, (Option.some.inj h).symm⟩
  · rw [heq] at h
    cases h

/-- A pending task of a managed node keeps a claim from coming back empty. -/
theorem claim_serves {env : Env} {w : World} {nodeId executor : String} {lease : Int} {t : Task}
    (hmanaged : (w.store.nodes.find? nodeId).map Node.status = some .managed)
    (ht : t ∈ w.store.pendingTasks nodeId executor) :
    ∃ t', (exec env (.claimNextTask nodeId executor lease) w).1 = some t'
      ∧ (exec env (.claimNextTask nodeId executor lease) w).2.store.tasks.find? t'.taskId = some t'
      ∧ t'.status = .running := by
  simp only [exec, World.after_store]
  rcases w.store.claim_cases nodeId executor lease (w.reading env 0) with
    ⟨row, hclaims, hanswer, es, hstore, -⟩ | ⟨hnone, -⟩
  · obtain ⟨hrow, -, -, hpending⟩ := Store.mem_pendingTasks.mp hclaims.pending
    refine ⟨_, hanswer, ?_, rfl⟩
    rw [hstore, Store.claim_taskId, Table.find?_update, Table.find?_of_mem hrow]
    simp [hpending]
  -- A claim comes back empty only for a node out of management or without a pending task.
  · rcases hnone with hnode | hempty
    · exact absurd hmanaged hnode
    · rw [hempty] at ht
      cases ht

/-- A running task takes its result. -/
theorem complete_records {env : Env} {w : World} {id : String} {t : Task}
    (ht : w.store.tasks.find? id = some t) (hrunning : t.status = .running) (exitCode : Int)
    (stdout stderr : String) :
    (exec env (.completeTask id exitCode stdout stderr) w).1
        = some (Store.complete exitCode stdout stderr (w.reading env 0) t)
      ∧ (exec env (.completeTask id exitCode stdout stderr) w).2.store.tasks.find? id
        = some (Store.complete exitCode stdout stderr (w.reading env 0) t) := by
  simp only [exec, World.after_store]
  rcases w.store.complete_cases id exitCode stdout stderr (w.reading env 0) with
    ⟨row, hrow, -, hanswer, es, hstore, -⟩ | ⟨hother, -⟩
  · obtain rfl := Option.some.inj (hrow.symm.trans ht)
    have hid : row.taskId = id := Table.key_of_find? ht
    refine ⟨hanswer, ?_⟩
    rw [hstore, Table.find?_update, ht]
    simp [hid, hrunning]
  · exact absurd hrunning (hother t ht)

theorem expire_exactly {env : Env} {w : World} {olderThan : Option Int} {t : Task}
    (ht : t ∈ w.store.tasks.rows) :
    (exec env (.expireStuckTasks olderThan) w).2.store.tasks.find? t.taskId
      = some (if Store.stuck (Store.cutoff olderThan (w.reading env 0)) t
          then Store.expire (w.reading env 0) t else t) := by
  obtain ⟨es, heq, -⟩ := w.store.expire_spec olderThan (w.reading env 0)
  simp only [exec, World.after_store, heq, Table.find?_update, Table.find?_of_mem ht,
    Option.map_some]

/-- The automaton and the two transactions give every property of a call. -/
theorem lifecycleStep_of_movesRows {env : Env} {w : World} {op : Call}
    (h : ∀ id, RowStep id (claimedBy env w op) (w.store.tasks.find? id)
      ((exec env op w).2.store.tasks.find? id)) : LifecycleStep env w op where
  moves t ht := (h t.taskId).moves (Table.find?_of_mem ht)
  starts t ht hfree := by
    have hstep := h t.taskId
    rw [hfree] at hstep
    exact hstep.starts (Table.find?_of_mem ht)
  claims _ _ _ _ _ ht := claim_returns ht
  serves nodeId executor lease hop hmanaged t ht hnode hexecutor hpending := by
    subst hop
    exact claim_serves hmanaged (Store.mem_pendingTasks.mpr ⟨ht, hnode, hexecutor, hpending⟩)
  records id exitCode stdout stderr hop t ht hrunning := by
    subst hop
    obtain ⟨hanswer, hstored⟩ := complete_records ht hrunning exitCode stdout stderr
    exact ⟨_, hanswer, hstored, rfl, rfl, rfl, rfl, rfl⟩
  expires olderThan hop t ht := by
    subst hop
    rw [expire_exactly ht, ← stuck_iff]
    have hnamed : t.taskId ∈ (exec env (.expireStuckTasks olderThan) w).1
        ↔ Store.stuck (Store.cutoff olderThan (w.reading env 0)) t = true := Store.mem_expired ht
    constructor
    · intro hstuck
      exact ⟨by rw [if_pos hstuck], hnamed.mpr hstuck⟩
    · intro hfine
      exact ⟨by rw [if_neg hfine], fun hmem => hfine (hnamed.mp hmem)⟩

/-- A result is refused once the task is terminal. -/
theorem completeTask_terminal {s : Store} {t : Task} (h : s.tasks.find? t.taskId = some t)
    (hterminal : t.status.terminal = true) (exitCode : Int) (stdout stderr : String)
    (now : Timestamp) : (s.completeTask t.taskId exitCode stdout stderr now).1 = none := by
  rcases s.complete_cases t.taskId exitCode stdout stderr now with
    ⟨row, hrow, hrunning, -⟩ | ⟨-, heq⟩
  · rw [h] at hrow
    cases hrow
    rw [hrunning] at hterminal
    cases hterminal
  · rw [heq]

section Runs

variable {ι : Type} [DecidableEq ι] {env : Env}

/-- The callers of a run on tasks. -/
def taskCallers (callers : ι → TaskCaller) (w : World) : Config ι callSig PyError Unit World :=
  ⟨w, fun i => (callers i).program⟩

/-- **Every call of every interleaving moves every row by the automaton.** -/
theorem rowSteps_run (callers : ι → TaskCaller) (w : World) (sched : List ι)
    (hempty : w.store.tasks = .empty)
    (hids : DistinctIds env w.uuids ((taskCallers callers w).run (exec env) sched).shared.uuids) :
    (taskCallers callers w).Respects (exec env) (MovesRows env) sched := by
  -- Without tasks nothing is issued, and no caller has drawn an identifier yet.
  have hstart : TasksWellFormed env w.uuids w (fun _ : ι => none) [] := by
    constructor
    case since => exact le_rfl
    case attempted =>
      intro id
      rw [hempty]
      rfl
    case issued =>
      intro id hid
      rw [hempty] at hid
      exact absurd rfl hid
    case drawn => exact fun _ _ h => nomatch h
    case apart => exact fun _ _ _ h => nomatch h
  refine Config.respects_typestate taskTypestate (Q := fun _ => True) (E := fun _ => True)
    (f := claimLog env) (TasksWellFormed env w.uuids)
    (fun w m g i op hI hmay hlast => ⟨trivial, tasksWellFormed_step hids hI hmay hlast⟩)
    (fun w m g i op hI hmay _ => exec_rowStep (savesNewTask hI hmay)) sched _ []
    ⟨fun _ => none, hstart, fun i => taskCaller_keepsDraft (callers i)⟩
    (Config.respects_le_run World.uuids (exec_uuids env) sched _).2

variable {c : Config ι callSig PyError Unit World} {sched : List ι}

/-- The attempts agree with the claims after every run that moves rows by the
automaton. -/
theorem attempted_run (hstart : ∀ id, Attempted (c.shared.store.tasks.find? id) 0)
    (h : c.Respects (exec env) (MovesRows env) sched) (id : String) :
    Attempted ((c.run (exec env) sched).shared.store.tasks.find? id)
      ((c.history (exec env) (claimLog env) [] sched).count id) := by
  refine Config.run_induct
    (fun c g => ∀ id, Attempted (c.shared.store.tasks.find? id) (g.count id))
    (fun c g i op k hc hp hmoves id => ?_) sched c [] (by simpa using hstart) h id
  rw [Config.step_of_call hp, count_claimLog]
  exact attempted_step (hc id) (hmoves id)

/-- A terminal row is there, unchanged, after every such run. -/
theorem final_run {t : Task} (hterminal : t.status.terminal = true)
    (ht : c.shared.store.tasks.find? t.taskId = some t)
    (h : c.Respects (exec env) (MovesRows env) sched) :
    (c.run (exec env) sched).shared.store.tasks.find? t.taskId = some t := by
  refine Config.run_induct (f := fun (_ : Unit) _ _ _ => ())
    (fun c _ => c.shared.store.tasks.find? t.taskId = some t)
    (fun c _ i op k hc hp hmoves => ?_) sched c () ht h
  rw [Config.step_of_call hp]
  exact (hmoves t.taskId).final hc hterminal

/-- A task was claimed once or never. -/
theorem attempts_of_attempted {t : Task} {claims : List String}
    (h : Attempted (some t) (claims.count t.taskId)) :
    t.attemptCount = if t.taskId ∈ claims then 1 else 0 := by
  obtain ⟨hcount, hn⟩ := h
  by_cases hmem : t.taskId ∈ claims
  · have hpos := List.count_pos_iff.mpr hmem
    rw [if_pos hmem, hcount]
    split_ifs at hn <;> omega
  · rw [if_neg hmem, hcount, List.count_eq_zero_of_not_mem hmem]

theorem count_le_one_of_attempted {row : Option Task} {n : Nat} (h : Attempted row n) :
    n ≤ 1 := by
  cases row with
  | none => exact h.le.trans (Nat.zero_le 1)
  | some t =>
    rw [h.2]
    split_ifs <;> omega

/-- **The life of a worker task.**  In every interleaving of the operations on
tasks that starts without tasks and draws distinct identifiers, every call
keeps to the life cycle, a task was attempted once if it was ever claimed and
never otherwise, no two claims return one task, and a task that succeeded or
failed stays as it is and takes no further result. -/
theorem worker_task_lifecycle (env : Env) (callers : ι → TaskCaller) (w : World) (sched : List ι)
    (hempty : w.store.tasks = .empty)
    (hids : DistinctIds env w.uuids ((taskCallers callers w).run (exec env) sched).shared.uuids) :
    (taskCallers callers w).Respects (exec env) (fun _ w op => LifecycleStep env w op) sched
    ∧ (∀ t ∈ ((taskCallers callers w).run (exec env) sched).shared.store.tasks.rows,
        t.attemptCount = if t.taskId ∈
          (taskCallers callers w).history (exec env) (claimLog env) [] sched then 1 else 0)
    ∧ ((taskCallers callers w).history (exec env) (claimLog env) [] sched).Nodup
    ∧ ∀ pre post, sched = pre ++ post →
        ∀ t ∈ ((taskCallers callers w).run (exec env) pre).shared.store.tasks.rows,
          t.status.terminal = true →
          ((taskCallers callers w).run (exec env) sched).shared.store.tasks.find? t.taskId = some t
          ∧ ∀ exitCode stdout stderr now,
            (((taskCallers callers w).run (exec env) sched).shared.store.completeTask
              t.taskId exitCode stdout stderr now).1 = none := by
  have hmoves := rowSteps_run callers w sched hempty hids
  have hattempted := attempted_run (fun id => by
    show Attempted (w.store.tasks.find? id) 0
    rw [hempty]
    rfl) hmoves
  refine ⟨?_, ?_, ?_, ?_⟩
  · exact Config.respects_mono (fun _ _ _ h => lifecycleStep_of_movesRows h) hmoves
  · intro t ht
    exact attempts_of_attempted (Table.find?_of_mem ht ▸ hattempted t.taskId)
  · exact List.nodup_iff_count_le_one.mpr (fun id => count_le_one_of_attempted (hattempted id))
  · rintro pre post rfl t ht hterminal
    -- From the moment the row is terminal, the rest of the run cannot move it.
    have hpost := ((Config.respects_append _ pre post).mp hmoves).2
    have hfinal := final_run hterminal (Table.find?_of_mem ht) hpost
    rw [Config.run_append]
    exact ⟨hfinal, completeTask_terminal hfinal hterminal⟩

end Runs

/-! ## §6. A late result. -/

/-- One managed node and no tasks. -/
def lateWorld : World where
  store := { Store.empty with
    nodes := .single {
      nodeId := "node_000000000001"
      fingerprint := "fp"
      hostname := "web-1"
      addresses := []
      trustLevel := "B"
      labels := []
      status := .managed } }
  files _ := .missing

/-- An operator, a worker that claims without a lease, a watchdog, and the
worker's result. -/
def lateCallers : Fin 4 → TaskCaller
  | 0 => .createTask "node_000000000001" "uptime" "low" "hmn" "worker"
  | 1 => .claimNextTask "node_000000000001" "worker" 0
  | 2 => .expireStuckTasks none
  | 3 => .completeTask "task_00000000000a" 0 "late" ""

/-- The watchdog comes first: the result of the worker is refused. -/
theorem worker_task_lifecycle_late_result :
    (taskCallers lateCallers lateWorld).Respects (exec Env.quiet)
        (fun _ w op => LifecycleStep Env.quiet w op) [0, 0, 0, 0, 1, 2, 3]
    ∧ ((taskCallers lateCallers lateWorld).run (exec Env.quiet)
        [0, 0, 0, 0, 1, 2, 3]).shared.store.tasks.rows.map
          (fun t => (t.status, t.attemptCount, t.failureReason))
      = [(.failed, 1, "worker_lease_expired")] :=
  ⟨(worker_task_lifecycle Env.quiet lateCallers lateWorld [0, 0, 0, 0, 1, 2, 3] rfl
    (by decide +kernel)).1, by decide +kernel⟩

end Hmn
