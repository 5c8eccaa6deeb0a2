/-
  Hmn.Orchestrator.Queue — the queue of the orchestrator over whole runs.

  A task row, its leased assignments and the failed dispatches of the task
  stay in step: `TaskInv` says so for one task, and every operation that runs
  alone keeps it for every task.

  Main result: `orchestrator_queue` — the queue invariant, the permanence of
  a pause, and the task each tick selects, in every run.
-/
import Hmn.Orchestrator.Tick
import Mathlib.Data.String.Basic

namespace Hmn.Orchestrator

open Framework

/-! ## §1. One task. -/

/-- The leased assignments of a task. -/
def leases (db : Db) (id : String) : List Assignment :=
  db.assignments.rows.filter (fun a => a.taskId = id ∧ a.status = .leased)

/-- The failed dispatches of a task. -/
def failures (dispatches : List Dispatch) (id : String) : Nat :=
  (dispatches.filter (fun d => d.task.taskId = id ∧ d.taken = false)).length

/-- What the row of a task says about its leases and its failed dispatches. -/
def TaskInv (maxRetries : Nat) (row : Option OrchestratorTask) (leases : List Assignment)
    (failures : Nat) : Prop :=
  match row with
  | none => leases = [] ∧ failures = 0
  | some t => t.attempts = failures ∧
      match t.status with
      | .queued => leases = [] ∧ failures < maxRetries
      | .leased => leases.length = 1 ∧ failures < maxRetries ∧ t.risk = "low"
      | .paused => leases = [] ∧ maxRetries ≤ failures

section Task

variable {db : Db} {id : String}

theorem leases_expireTasks (db : Db) (now : Timestamp) (ids : List String) (id : String) :
    leases (db.expireTasks now ids) id = if id ∈ ids then [] else leases db id := by
  unfold leases Db.expireTasks Table.update
  simp only
  induction db.assignments.rows with
  | nil => simp
  | cons a rows ih =>
    rw [List.map_cons]
    by_cases hin : a.taskId ∈ ids
    · rw [if_pos (decide_eq_true hin), List.filter_cons_of_neg (by simp [Assignment.withStatus]), ih]
      by_cases hid : id ∈ ids
      · rw [if_pos hid, if_pos hid]
      · have hne : a.taskId ≠ id := fun heq => hid (heq ▸ hin)
        rw [if_neg hid, if_neg hid, List.filter_cons_of_neg (by simp [hne])]
    · rw [if_neg (by simpa using hin), List.filter_cons, ih, List.filter_cons]
      by_cases hid : id ∈ ids
      · have hne : a.taskId ≠ id := fun heq => hin (heq ▸ hid)
        simp [hid, hne]
      · simp [hid]

theorem find?_expireTasks (db : Db) (now : Timestamp) (ids : List String) (id : String) :
    (db.expireTasks now ids).tasks.find? id
      = if id ∈ ids then (db.tasks.find? id).map (OrchestratorTask.withStatus .queued now)
        else db.tasks.find? id := by
  unfold Db.expireTasks
  simp only [Table.find?_update]
  cases hrow : db.tasks.find? id with
  | none => simp
  | some t =>
    have hkey : t.taskId = id := Table.key_of_find? hrow
    by_cases hid : id ∈ ids <;> simp [hkey, hid]

theorem leases_insert {a : Assignment} {assignments : Table Assignment.assignmentId}
    (h : db.assignments.insert? a = some assignments) (hstatus : a.status = .leased) (id : String) :
    leases { db with assignments } id = leases db id ++ if a.taskId = id then [a] else [] := by
  unfold leases
  simp only
  rw [(Table.insert?_eq_some.mp h).2, List.filter_append]
  congr 1
  by_cases hid : a.taskId = id <;> simp [hid, hstatus]

theorem find?_updateTask (db : Db) (taskId : String) (f : OrchestratorTask → OrchestratorTask) (hf)
    (id : String) : (db.updateTask taskId f hf).tasks.find? id
      = if id = taskId then (db.tasks.find? id).map f else db.tasks.find? id := by
  unfold Db.updateTask
  simp only [Table.find?_update]
  cases hrow : db.tasks.find? id with
  | none => simp
  | some t =>
    have hkey : t.taskId = id := Table.key_of_find? hrow
    by_cases hid : id = taskId <;> simp [hkey, hid]

theorem failures_append (dispatches more : List Dispatch) (id : String) :
    failures (dispatches ++ more) id = failures dispatches id + failures more id := by
  unfold failures
  rw [List.filter_append, List.length_append]

theorem failures_taken {dispatches : List Dispatch} (h : ∀ d ∈ dispatches, d.taken = true)
    (id : String) : failures dispatches id = 0 := by
  unfold failures
  rw [List.length_eq_zero_iff, List.filter_eq_nil_iff]
  intro d hd
  simp [h d hd]

end Task

/-! ## §2. Returning leases. -/

/-- The leases that are older than the timeout were returned to the queue. -/
def LeasesReturned (now : Timestamp) (leaseTimeoutSeconds : Int) (db db' : Db) : Prop :=
  ∀ id, ((∃ a ∈ leases db id, leaseIsOver now leaseTimeoutSeconds a.leasedAt = true) →
      (∃ t, db.tasks.find? id = some t
        ∧ db'.tasks.find? id = some (t.withStatus .queued now)) ∧ leases db' id = [])
    ∧ ((∀ a ∈ leases db id, leaseIsOver now leaseTimeoutSeconds a.leasedAt = false) →
      db'.tasks.find? id = db.tasks.find? id ∧ leases db' id = leases db id)

section Returned

variable {db : Db} {now : Timestamp} {timeout : Int} {id : String} {maxRetries n : Nat}

theorem mem_overdue : id ∈ db.overdue now timeout ↔
    (db.tasks.find? id).map OrchestratorTask.status = some .leased
      ∧ ∃ a ∈ leases db id, leaseIsOver now timeout a.leasedAt = true := by
  unfold Db.overdue Db.leasedRows leases
  simp only [List.mem_map, List.mem_filter, decide_eq_true_eq]
  constructor
  · rintro ⟨row, ⟨⟨a, ⟨ha, hleased, hstatus⟩, rfl⟩, hover⟩, rfl⟩
    exact ⟨hstatus, a, ⟨ha, rfl, hleased⟩, hover⟩
  · rintro ⟨hstatus, a, ⟨ha, rfl, hleased⟩, hover⟩
    exact ⟨(a.taskId, a.leasedAt), ⟨⟨a, ⟨ha, hleased, hstatus⟩, rfl⟩, hover⟩, rfl⟩

/-- A task with a lease is leased. -/
theorem leased_of_leases {row : Option OrchestratorTask} {as : List Assignment}
    (h : TaskInv maxRetries row as n) (hne : as ≠ []) :
    ∃ t, row = some t ∧ t.status = .leased := by
  cases row with
  | none => exact absurd h.1 hne
  | some t =>
    refine ⟨t, rfl, ?_⟩
    obtain ⟨-, h⟩ := h
    cases hs : t.status with
    | leased => rfl
    | queued =>
      rw [hs] at h
      exact absurd h.1 hne
    | paused =>
      rw [hs] at h
      exact absurd h.1 hne

/-- **The first statements of a tick return the leases that timed out.** -/
theorem leasesReturned (h : ∀ id, ∃ n, TaskInv maxRetries (db.tasks.find? id) (leases db id) n) :
    LeasesReturned now timeout db (db.returned now timeout) := by
  intro id
  unfold Db.returned
  rw [find?_expireTasks, leases_expireTasks]
  obtain ⟨n, hinv⟩ := h id
  constructor
  · rintro ⟨a, ha, hover⟩
    obtain ⟨t, ht, hleased⟩ := leased_of_leases hinv (List.ne_nil_of_mem ha)
    have hmem : id ∈ db.overdue now timeout := mem_overdue.mpr ⟨by rw [ht, ← hleased]; rfl, a, ha, hover⟩
    rw [if_pos hmem, if_pos hmem, ht]
    exact ⟨⟨t, rfl, rfl⟩, rfl⟩
  · intro hfine
    have hmem : id ∉ db.overdue now timeout := by
      intro hmem
      obtain ⟨-, a, ha, hover⟩ := mem_overdue.mp hmem
      rw [hfine a ha] at hover
      cases hover
    rw [if_neg hmem, if_neg hmem]
    exact ⟨rfl, rfl⟩

theorem taskInv_returned (h : TaskInv maxRetries (db.tasks.find? id) (leases db id) n) :
    TaskInv maxRetries ((db.returned now timeout).tasks.find? id)
      (leases (db.returned now timeout) id) n := by
  unfold Db.returned
  rw [find?_expireTasks, leases_expireTasks]
  by_cases hmem : id ∈ db.overdue now timeout
  · rw [if_pos hmem, if_pos hmem]
    obtain ⟨hstatus, -⟩ := mem_overdue.mp hmem
    cases hrow : db.tasks.find? id with
    | none => simp [hrow] at hstatus
    | some t =>
      rw [hrow] at h hstatus
      obtain ⟨hattempts, h⟩ := h
      rw [Option.map_some, Option.some.injEq] at hstatus
      rw [hstatus] at h
      exact ⟨hattempts, rfl, h.2.1⟩
  · rwa [if_neg hmem, if_neg hmem]

end Returned

/-! ## §3. The selected task. -/

/-- The queued task of low risk with the greatest priority, then the earliest
creation, then the least identifier. -/
structure Selected (db : Db) (t : OrchestratorTask) : Prop where
  mem : t ∈ db.tasks.rows
  queued : t.status = .queued
  low : t.risk = "low"
  first : ∀ u ∈ db.tasks.rows, u.status = .queued → u.risk = "low" → Db.taskOrder t u

theorem taskOrder_total (a b : OrchestratorTask) : Db.taskOrder a b ∨ Db.taskOrder b a := by
  unfold Db.taskOrder
  rcases lt_trichotomy a.priority b.priority with h | h | h
  · exact Or.inr (Or.inl h)
  · rcases lt_trichotomy a.createdAt b.createdAt with h' | h' | h'
    · exact Or.inl (Or.inr ⟨h.symm, Or.inl h'⟩)
    · rcases le_total a.taskId b.taskId with h'' | h''
      · exact Or.inl (Or.inr ⟨h.symm, Or.inr ⟨h', h''⟩⟩)
      · exact Or.inr (Or.inr ⟨h, Or.inr ⟨h'.symm, h''⟩⟩)
    · exact Or.inr (Or.inr ⟨h, Or.inl h'⟩)
  · exact Or.inl (Or.inl h)

theorem taskOrder_trans {a b c : OrchestratorTask} (hab : Db.taskOrder a b)
    (hbc : Db.taskOrder b c) : Db.taskOrder a c := by
  unfold Db.taskOrder at *
  rcases hab with h | ⟨h, hab⟩
  · rcases hbc with h' | ⟨h', -⟩
    · exact Or.inl (h'.trans h)
    · exact Or.inl (h' ▸ h)
  · rcases hbc with h' | ⟨h', hbc⟩
    · exact Or.inl (h ▸ h')
    · refine Or.inr ⟨h'.trans h, ?_⟩
      rcases hab with ht | ⟨ht, hid⟩
      · rcases hbc with ht' | ⟨ht', -⟩
        · exact Or.inl (ht.trans ht')
        · exact Or.inl (ht' ▸ ht)
      · rcases hbc with ht' | ⟨ht', hid'⟩
        · exact Or.inl (ht ▸ ht')
        · exact Or.inr ⟨ht.trans ht', hid.trans hid'⟩

instance : Std.Total Db.taskOrder := ⟨taskOrder_total⟩

instance : IsTrans OrchestratorTask Db.taskOrder := ⟨fun _ _ _ => taskOrder_trans⟩

theorem mem_queuedLow {db : Db} {t : OrchestratorTask} :
    t ∈ db.queuedLow ↔ t ∈ db.tasks.rows ∧ t.status = .queued ∧ t.risk = "low" := by
  simp [Db.queuedLow]

theorem nextTask_selected {db : Db} {t : OrchestratorTask} (h : db.nextTask = some t) :
    Selected db t := by
  unfold Db.nextTask at h
  have hsorted := List.pairwise_insertionSort Db.taskOrder db.queuedLow
  have hperm := List.perm_insertionSort Db.taskOrder db.queuedLow
  cases hlist : db.queuedLow.insertionSort Db.taskOrder with
  | nil => simp [hlist] at h
  | cons x rest =>
    rw [hlist] at h hsorted hperm
    obtain rfl : x = t := Option.some.inj h
    obtain ⟨hmem, hqueued, hlow⟩ := mem_queuedLow.mp (hperm.subset List.mem_cons_self)
    refine ⟨hmem, hqueued, hlow, fun u hu hu' hu'' => ?_⟩
    have hin : u ∈ x :: rest := hperm.symm.subset (mem_queuedLow.mpr ⟨hu, hu', hu''⟩)
    rcases List.mem_cons.mp hin with rfl | hrest
    · exact (taskOrder_total u u).elim id id
    · exact List.rel_of_pairwise_cons hsorted hrest

theorem nextTask_none {db : Db} (h : db.nextTask = none) (t : OrchestratorTask) :
    ¬ Selected db t := by
  intro ht
  have hmem : t ∈ db.queuedLow := mem_queuedLow.mpr ⟨ht.mem, ht.queued, ht.low⟩
  have hperm := List.perm_insertionSort Db.taskOrder db.queuedLow
  unfold Db.nextTask at h
  rw [List.head?_eq_none_iff] at h
  rw [h] at hperm
  exact List.not_mem_nil (hperm.symm.subset hmem)

/-- At most one task is selected. -/
theorem selected_unique {db : Db} {t u : OrchestratorTask} (ht : Selected db t)
    (hu : Selected db u) : t = u := by
  have htu := ht.first u hu.mem hu.queued hu.low
  have hut := hu.first t ht.mem ht.queued ht.low
  refine db.tasks.eq_of_key_eq ht.mem hu.mem ?_
  unfold Db.taskOrder at htu hut
  rcases htu with h | ⟨hp, h | ⟨hc, h⟩⟩
  · rcases hut with h' | ⟨h', -⟩ <;> omega
  · rcases hut with h' | ⟨-, h' | ⟨h', -⟩⟩
    · omega
    · exact absurd h' h.asymm
    · exact absurd h (h' ▸ lt_irrefl _)
  · rcases hut with h' | ⟨-, h' | ⟨-, h'⟩⟩
    · omega
    · exact absurd h' (hc ▸ lt_irrefl _)
    · exact le_antisymm h h'

/-! ## §4. What every operation keeps. -/

/-- Every identifier of an assignment or a report was drawn. -/
def IdsDrawn (env : Env) (db : Db) (drawn : Nat) : Prop :=
  (∀ id, db.assignments.find? id ≠ none → ∃ k < drawn, id = "orch_asg_" ++ env.uuid k)
  ∧ ∀ id, db.reports.find? id ≠ none → ∃ k < drawn, id = "orch_rep_" ++ env.uuid k

/-- The invariant of a world in which nobody is at work. -/
structure QueueInv (env : Env) (maxRetries : Nat) (w : World) : Prop where
  idle : w.journal.writer = none
  tasks : ∀ id, TaskInv maxRetries (w.journal.committed.tasks.find? id)
    (leases w.journal.committed id) (failures w.dispatches id)
  sent : ∀ d ∈ w.dispatches, d.task.risk = "low"
  ids : IdsDrawn env w.journal.committed w.uuids

/-- The dispatches of a task. -/
def dispatchesOf (w : World) (id : String) : List Dispatch :=
  w.dispatches.filter (fun d => d.task.taskId = id)

/-- A paused task stays as it is and is not dispatched. -/
def KeepsPaused (w w' : World) : Prop :=
  ∀ id t, w.journal.committed.tasks.find? id = some t → t.status = .paused →
    w'.journal.committed.tasks.find? id = some t ∧ dispatchesOf w' id = dispatchesOf w id

section Tick

variable {env : Env} {maxRetries : Nat} {w : World} {db db' : Db} {now : Timestamp}
  {task : OrchestratorTask} {worker : Worker} {n last : Nat}

theorem append_inj {start u v : String} (h : start ++ u = start ++ v) : u = v := by
  have hlist := congrArg String.toList h
  rw [String.toList_append, String.toList_append, List.append_cancel_left_eq] at hlist
  exact String.toList_inj.mp hlist

/-- A failed dispatch is counted. -/
theorem taskInv_countFailure (hselected : Selected db task) {failed : Nat} {id : String}
    (h : TaskInv maxRetries (db.tasks.find? id) (leases db id) failed) :
    TaskInv maxRetries ((db.countFailure now maxRetries task).tasks.find? id)
      (leases (db.countFailure now maxRetries task) id)
      (failed + if task.taskId = id then 1 else 0) := by
  have hleases : leases (db.countFailure now maxRetries task) id = leases db id := by
    unfold Db.countFailure
    split_ifs <;> rfl
  rw [hleases]
  have hrow : db.tasks.find? task.taskId = some task := Table.find?_of_mem hselected.mem
  by_cases hid : task.taskId = id
  · subst hid
    rw [hrow] at h
    obtain ⟨hattempts, h⟩ := h
    rw [hselected.queued] at h
    obtain ⟨hnone, hbelow⟩ := h
    unfold Db.countFailure
    by_cases hlast : maxRetries ≤ task.attempts + 1
    · rw [if_pos hlast, find?_updateTask, if_pos rfl, hrow, if_pos rfl]
      exact ⟨congrArg (· + 1) hattempts, hnone, by rw [← hattempts]; exact hlast⟩
    · rw [if_neg hlast, find?_updateTask, if_pos rfl, hrow, if_pos rfl]
      refine ⟨congrArg (· + 1) hattempts, ?_⟩
      show match task.status with | .queued => _ | .leased => _ | .paused => _
      rw [hselected.queued]
      exact ⟨hnone, by omega⟩
  · rw [if_neg hid, Nat.add_zero]
    unfold Db.countFailure
    split_ifs
    · rwa [find?_updateTask, if_neg (Ne.symm hid)]
    · rwa [find?_updateTask, if_neg (Ne.symm hid)]

/-- A task is leased. -/
theorem taskInv_setLeased (hselected : Selected db task) {uuid : String} {failed : Nat}
    {id : String} {assignments : Table Assignment.assignmentId} {reports : Table Report.reportId}
    (hassignment : db.assignments.insert? (newAssignment uuid task.taskId worker.workerId now)
      = some assignments)
    (h : TaskInv maxRetries (db.tasks.find? id) (leases db id) failed) :
    TaskInv maxRetries
      (({ db.setLeased now task with assignments, reports } : Db).tasks.find? id)
      (leases { db.setLeased now task with assignments, reports } id) failed := by
  have hleases : leases { db.setLeased now task with assignments, reports } id
      = leases db id ++ if task.taskId = id then
          [newAssignment uuid task.taskId worker.workerId now] else [] :=
    leases_insert hassignment rfl id
  rw [hleases]
  show TaskInv maxRetries ((db.setLeased now task).tasks.find? id) _ failed
  unfold Db.setLeased
  have hrow : db.tasks.find? task.taskId = some task := Table.find?_of_mem hselected.mem
  rw [find?_updateTask]
  by_cases hid : task.taskId = id
  · subst hid
    rw [hrow] at h ⊢
    obtain ⟨hattempts, h⟩ := h
    rw [hselected.queued] at h
    obtain ⟨hnone, hbelow⟩ := h
    rw [if_pos rfl, if_pos rfl, hnone]
    exact ⟨hattempts, rfl, hbelow, hselected.low⟩
  · rw [if_neg (Ne.symm hid), if_neg hid, List.append_nil]
    exact h

theorem idsDrawn_mono {m : Nat} (h : IdsDrawn env db n) (hle : n ≤ m) : IdsDrawn env db m := by
  refine ⟨fun id hid => ?_, fun id hid => ?_⟩
  · obtain ⟨k, hk, heq⟩ := h.1 id hid
    exact ⟨k, by omega, heq⟩
  · obtain ⟨k, hk, heq⟩ := h.2 id hid
    exact ⟨k, by omega, heq⟩

theorem idsDrawn_expireTasks (h : IdsDrawn env db n) (ids : List String) :
    IdsDrawn env (db.expireTasks now ids) n := by
  refine ⟨fun id hid => h.1 id ?_, h.2⟩
  intro hnone
  refine hid ?_
  unfold Db.expireTasks
  rw [Table.find?_update, hnone]
  rfl

/-- An identifier that is drawn now is free. -/
theorem not_taken (hids : DistinctIds env.toEnv 0 last) (h : IdsDrawn env db n) {k : Nat}
    (hk : n ≤ k) (hlast : k < last) :
    db.assignments.find? ("orch_asg_" ++ env.uuid k) = none
    ∧ db.reports.find? ("orch_rep_" ++ env.uuid k) = none := by
  constructor
  · by_contra htaken
    obtain ⟨k', hk', heq⟩ := h.1 _ htaken
    have := hids k hlast k' (by omega) (by omega) (by omega) (append_inj heq)
    omega
  · by_contra htaken
    obtain ⟨k', hk', heq⟩ := h.2 _ htaken
    have := hids k hlast k' (by omega) (by omega) (by omega) (append_inj heq)
    omega

theorem idsDrawn_reports {reports : Table Report.reportId} {report : Report} (h : IdsDrawn env db n)
    (hreport : db.reports.insert? report = some reports)
    (hid : ∃ k < n, report.reportId = "orch_rep_" ++ env.uuid k) :
    IdsDrawn env { db with reports } n := by
  refine ⟨h.1, fun id hne => ?_⟩
  simp only [Table.find?_insert hreport] at hne
  split_ifs at hne with heq
  · exact heq ▸ hid
  · exact h.2 id hne

theorem idsDrawn_assignments {assignments : Table Assignment.assignmentId}
    {assignment : Assignment} (h : IdsDrawn env db n)
    (hassignment : db.assignments.insert? assignment = some assignments)
    (hid : ∃ k < n, assignment.assignmentId = "orch_asg_" ++ env.uuid k) :
    IdsDrawn env { db with assignments } n := by
  refine ⟨fun id hne => ?_, h.2⟩
  simp only [Table.find?_insert hassignment] at hne
  split_ifs at hne with heq
  · exact heq ▸ hid
  · exact h.1 id hne

theorem failureReport_id (uuid : String) (message : String) :
    (failureReport uuid now maxRetries task message).reportId = "orch_rep_" ++ uuid := by
  unfold failureReport
  split_ifs <;> rfl

/-- What a tick that runs alone leaves: the invariant for the database `db'`
and the dispatches `sent`. -/
structure Kept (env : Env) (maxRetries : Nat) (db db' : Db) (w : World) (sent : List Dispatch)
    (drawn : Nat) : Prop where
  tasks : ∀ id, TaskInv maxRetries (db'.tasks.find? id) (leases db' id)
    (failures (w.dispatches ++ sent) id)
  selected : ∀ d ∈ sent, Selected db d.task
  ids : IdsDrawn env db' (w.uuids + drawn)
  paused : ∀ id t, db.tasks.find? id = some t → t.status = .paused → db'.tasks.find? id = some t

/-- A task that is paused is not the selected one. -/
theorem ne_of_paused {id : String} {t : OrchestratorTask} (hselected : Selected db task)
    (ht : db.tasks.find? id = some t) (hpaused : t.status = .paused) : id ≠ task.taskId := by
  rintro rfl
  rw [Table.find?_of_mem hselected.mem, Option.some.injEq] at ht
  rw [← ht, hselected.queued] at hpaused
  cases hpaused

/-- The task a tick names in its answer. -/
def TickResult.selected (result : TickResult) : Option String :=
  (result.dispatched.head?.map Prod.fst) <|> (result.blocked.head?.map Blocked.taskId)

theorem selected_failureResult (message : String) :
    (failureResult maxRetries task message).selected = some task.taskId := by
  unfold failureResult
  split_ifs <;> rfl

/-- A tick keeps the invariant, answers, and names the selected task. -/
theorem ticked_kept {bridge : Bool} {r : Except PyError TickResult} {sent : List Dispatch}
    (hids : DistinctIds env.toEnv 0 last) (hlast : w.uuids + n ≤ last)
    (htasks : ∀ id, TaskInv maxRetries (db.tasks.find? id) (leases db id)
      (failures w.dispatches id))
    (hdrawn : IdsDrawn env db w.uuids)
    (h : Ticked env bridge maxRetries now db w r db' sent n) :
    Kept env maxRetries db db' w sent n
    ∧ ∃ result, r = .ok result
      ∧ ∀ id, result.selected = some id ↔ ∃ t, Selected db t ∧ t.taskId = id := by
  have hone : ∀ {t}, Selected db t → ∀ id, some t.taskId = some id ↔
      ∃ u, Selected db u ∧ u.taskId = id := by
    intro t ht id
    constructor
    · intro heq
      exact ⟨t, ht, Option.some.inj heq⟩
    · rintro ⟨u, hu, rfl⟩
      rw [selected_unique ht hu]
  cases h with
  | noTask hnone =>
    refine ⟨⟨?_, nofun, hdrawn, fun _ _ h _ => h⟩, _, rfl, fun id => ?_⟩
    · simpa using htasks
    · refine iff_of_false (fun h => nomatch h) ?_
      rintro ⟨t, ht, -⟩
      exact nextTask_none hnone t ht
  | noWorker task hnext hnone =>
    refine ⟨⟨?_, nofun, hdrawn, fun _ _ h _ => h⟩, _, rfl, hone (nextTask_selected hnext)⟩
    simpa using htasks
  | failed task worker message reports hnext hworker hbridge hraised hreport =>
    have hselected := nextTask_selected hnext
    refine ⟨⟨fun id => ?_, ?_, ?_, ?_⟩, _, rfl, ?_⟩
    · rw [failures_append]
      have hcount : failures [⟨task, worker, false⟩] id = if task.taskId = id then 1 else 0 := by
        by_cases hid : task.taskId = id <;> simp [failures, hid]
      rw [hcount]
      exact taskInv_countFailure hselected (htasks id)
    · intro d hd
      rw [List.mem_singleton.mp hd]
      exact hselected
    · have hdb : IdsDrawn env (db.countFailure now maxRetries task) (w.uuids + 1) := by
        unfold Db.countFailure
        split_ifs <;> exact idsDrawn_mono hdrawn (Nat.le_succ _)
      have hsame : (db.countFailure now maxRetries task).reports = db.reports := by
        unfold Db.countFailure
        split_ifs <;> rfl
      refine idsDrawn_reports hdb (hsame ▸ hreport) ⟨w.uuids, Nat.lt_succ_self _, ?_⟩
      exact failureReport_id _ _
    · intro id t ht hpaused
      have hne := ne_of_paused hselected ht hpaused
      show (db.countFailure now maxRetries task).tasks.find? id = some t
      unfold Db.countFailure
      split_ifs
      · rwa [find?_updateTask, if_neg hne]
      · rwa [find?_updateTask, if_neg hne]
    · rw [selected_failureResult]
      exact hone hselected
  | leased task worker _ assignments reports hnext hworker hdispatches hassignment hreport =>
    have hselected := nextTask_selected hnext
    have htaken : ∀ d ∈ sent, d = ⟨task, worker, true⟩ := by
      intro d hd
      rw [hdispatches] at hd
      split_ifs at hd
      · exact List.mem_singleton.mp hd
      · exact absurd hd (List.not_mem_nil)
    refine ⟨⟨fun id => ?_, ?_, ?_, ?_⟩, _, rfl, hone hselected⟩
    · have hnone : failures sent id = 0 := failures_taken (fun d hd => by rw [htaken d hd]) id
      rw [failures_append, hnone, Nat.add_zero]
      exact taskInv_setLeased hselected hassignment (htasks id)
    · intro d hd
      rw [htaken d hd]
      exact hselected
    · have hdb : IdsDrawn env (db.setLeased now task) (w.uuids + 2) :=
        idsDrawn_mono hdrawn (Nat.le_add_right _ _)
      have hassigned := idsDrawn_assignments hdb hassignment ⟨w.uuids, by omega, rfl⟩
      exact idsDrawn_reports hassigned hreport ⟨w.uuids + 1, by omega, rfl⟩
    · intro id t ht hpaused
      have hne := ne_of_paused hselected ht hpaused
      show (db.setLeased now task).tasks.find? id = some t
      unfold Db.setLeased
      rwa [find?_updateTask, if_neg hne]
  | refused _ _ k hk htaken =>
    obtain ⟨hassignment, hreport⟩ := not_taken hids hdrawn hk.1 (by omega)
    exact absurd htaken (not_or.mpr ⟨not_not.mpr hassignment, not_not.mpr hreport⟩)

end Tick

/-! ## §5. Whole runs. -/

/-- The operations of the orchestrator, each with what it is given. -/
inductive Operation where
  | enqueue (title scope risk : String) (priority : Int) (workerHint source : String)
  | registerWorker (workerId transport status : String) (labels : List String)
  | updateWorker (workerId status : String) (transport : Option String)
      (labels : Option (List String))
  | tick (bridge : Bool) (leaseTimeoutSeconds : Int)

/-- The world after an operation that runs alone, with or without an
exception. -/
def Operation.happens (env : Env) (maxRetries : Nat) (w : World) : Operation → World
  | .enqueue title scope risk priority workerHint source =>
      ((Orchestrator.enqueue title scope risk priority workerHint source).run (exec env) w).2
  | .registerWorker workerId transport status labels =>
      ((Orchestrator.registerWorker workerId transport status labels).run (exec env) w).2
  | .updateWorker workerId status transport labels =>
      ((Orchestrator.updateWorker workerId status transport labels).run (exec env) w).2
  | .tick bridge leaseTimeoutSeconds =>
      ((Orchestrator.tick bridge maxRetries leaseTimeoutSeconds).run (exec env) w).2

/-- The world after a run. -/
def replay (env : Env) (maxRetries : Nat) (w : World) (operations : List Operation) : World :=
  operations.foldl (Operation.happens env maxRetries) w

/-- A freshly migrated database that nobody uses yet. -/
def World.fresh : World where
  journal := ⟨.empty, none⟩

/-- What a tick does with the task it selects. -/
structure TickSelects (env : Env) (bridge : Bool) (maxRetries : Nat) (leaseTimeoutSeconds : Int)
    (w : World) (db : Db) : Prop where
  returned : LeasesReturned (env.now w.clock) leaseTimeoutSeconds w.journal.committed db
  answers : ∃ result, ((tick bridge maxRetries leaseTimeoutSeconds).run (exec env) w).1 = .ok result
    ∧ ∀ id, result.selected = some id ↔ ∃ t, Selected db t ∧ t.taskId = id
  dispatches : ∃ more,
    ((tick bridge maxRetries leaseTimeoutSeconds).run (exec env) w).2.dispatches
      = w.dispatches ++ more ∧ ∀ d ∈ more, Selected db d.task

section Runs

variable {env : Env} {maxRetries last : Nat} {w : World}

theorem dispatchesOf_append {w' : World} {more : List Dispatch} {id : String}
    (h : w'.dispatches = w.dispatches ++ more) (hother : ∀ d ∈ more, d.task.taskId ≠ id) :
    dispatchesOf w' id = dispatchesOf w id := by
  unfold dispatchesOf
  have hnone : more.filter (fun d => d.task.taskId = id) = [] := by
    rw [List.filter_eq_nil_iff]
    intro d hd
    simpa using hother d hd
  rw [h, List.filter_append, hnone, List.append_nil]

/-- **A tick that runs alone keeps the queue and selects the first task.** -/
theorem tick_step (h : QueueInv env maxRetries w) (hids : DistinctIds env.toEnv 0 last)
    (bridge : Bool) (timeout : Int)
    (hlast : ((tick bridge maxRetries timeout).run (exec env) w).2.uuids ≤ last) :
    QueueInv env maxRetries ((tick bridge maxRetries timeout).run (exec env) w).2
    ∧ KeepsPaused w ((tick bridge maxRetries timeout).run (exec env) w).2
    ∧ ∃ db, TickSelects env bridge maxRetries timeout w db := by
  obtain ⟨r, db', sent, n, hticked, w', hrun, ⟨events, hjournal⟩, hsent, hdrawn⟩ :=
    tick_cases env bridge maxRetries timeout w h.idle
  rw [hrun] at hlast ⊢
  obtain ⟨hkept, result, rfl, hnames⟩ := ticked_kept hids (hdrawn ▸ hlast)
    (fun id => taskInv_returned (h.tasks id)) (idsDrawn_expireTasks h.ids _) hticked
  refine ⟨⟨?_, ?_, ?_, ?_⟩, ?_, _, ?_, ⟨result, ?_, hnames⟩, ?_⟩
  · rw [hjournal]
  · rw [hjournal, hsent]
    exact hkept.tasks
  · intro d hd
    rw [hsent] at hd
    rcases List.mem_append.mp hd with hd | hd
    · exact h.sent d hd
    · exact (hkept.selected d hd).low
  · rw [hjournal, hdrawn]
    exact hkept.ids
  · intro id t ht hpaused
    -- a paused task has no lease to return
    have hreturned : (w.journal.committed.returned (env.now w.clock) timeout).tasks.find? id
        = some t := by
      have hmem : id ∉ w.journal.committed.overdue (env.now w.clock) timeout := by
        intro hmem
        obtain ⟨hstatus, -⟩ := mem_overdue.mp hmem
        rw [ht, Option.map_some, hpaused] at hstatus
        cases hstatus
      unfold Db.returned
      rwa [find?_expireTasks, if_neg hmem]
    refine ⟨?_, dispatchesOf_append hsent (fun d hd => ?_)⟩
    · rw [hjournal]
      exact hkept.paused id t hreturned hpaused
    · exact Ne.symm (ne_of_paused (hkept.selected d hd) hreturned hpaused)
  · exact leasesReturned (fun id => ⟨_, h.tasks id⟩)
  · rw [hrun]
  · rw [hrun]
    exact ⟨sent, hsent, hkept.selected⟩

/-- A new task is queued, without leases and dispatches. -/
theorem enqueue_step (h : QueueInv env maxRetries w) (hretries : 1 ≤ maxRetries)
    (title scope risk : String) (priority : Int) (workerHint source : String) :
    QueueInv env maxRetries
      ((enqueue title scope risk priority workerHint source).run (exec env) w).2
    ∧ KeepsPaused w ((enqueue title scope risk priority workerHint source).run (exec env) w).2 := by
  obtain ⟨db, hdb, r, w', hrun, ⟨events, hjournal⟩, hsent, hdrawn⟩ :=
    enqueue_cases env title scope risk priority workerHint source w h.idle
  rw [hrun]
  have hrest : db.assignments = w.journal.committed.assignments
      ∧ db.reports = w.journal.committed.reports := by
    rcases hdb with rfl | ⟨tasks, -, rfl⟩ <;> exact ⟨rfl, rfl⟩
  have hrow : ∀ id, db.tasks.find? id = w.journal.committed.tasks.find? id
      ∨ (w.journal.committed.tasks.find? id = none ∧ ∃ t, db.tasks.find? id = some t
        ∧ t.status = .queued ∧ t.attempts = 0) := by
    intro id
    rcases hdb with rfl | ⟨tasks, hinsert, rfl⟩
    · exact Or.inl rfl
    · simp only [Table.find?_insert hinsert]
      split_ifs with hid
      · exact Or.inr ⟨hid ▸ (Table.insert?_eq_some.mp hinsert).1, _, rfl, rfl, rfl⟩
      · exact Or.inl rfl
  refine ⟨⟨?_, ?_, ?_, ?_⟩, ?_⟩
  · rw [hjournal]
  · intro id
    rw [hjournal, hsent]
    have hleases : leases { db with audit := db.audit ++ events } id
        = leases w.journal.committed id := by
      unfold leases
      simp only
      rw [hrest.1]
    rw [hleases]
    show TaskInv maxRetries (db.tasks.find? id) _ _
    have hinv := h.tasks id
    rcases hrow id with hsame | ⟨hnone, t, ht, hqueued, hattempts⟩
    · rwa [hsame]
    · rw [hnone] at hinv
      obtain ⟨hleases, hfailures⟩ := hinv
      rw [ht]
      refine ⟨hattempts.trans hfailures.symm, ?_⟩
      rw [hqueued]
      exact ⟨hleases, by rw [hfailures]; exact hretries⟩
  · rw [hsent]
    exact h.sent
  · rw [hjournal, hdrawn]
    unfold IdsDrawn
    simp only
    rw [hrest.1, hrest.2]
    exact idsDrawn_mono h.ids (Nat.le_succ _)
  · intro id t ht hpaused
    rw [hjournal]
    refine ⟨?_, by unfold dispatchesOf; rw [hsent]⟩
    show db.tasks.find? id = some t
    rcases hrow id with hsame | ⟨hnone, -⟩
    · rw [hsame, ht]
    · rw [ht] at hnone
      cases hnone

/-- The workers are not part of the queue. -/
theorem worker_step (h : QueueInv env maxRetries w) {w' : World} {workers : Table Worker.workerId}
    (hjournal : w'.journal = ⟨{ w.journal.committed with workers }, none⟩)
    (hsent : w'.dispatches = w.dispatches) (hdrawn : w'.uuids = w.uuids) :
    QueueInv env maxRetries w' ∧ KeepsPaused w w' := by
  refine ⟨⟨?_, ?_, ?_, ?_⟩, ?_⟩
  · rw [hjournal]
  · rw [hjournal, hsent]
    exact h.tasks
  · rw [hsent]
    exact h.sent
  · rw [hjournal, hdrawn]
    exact h.ids
  · intro id t ht hpaused
    rw [hjournal]
    exact ⟨ht, by unfold dispatchesOf; rw [hsent]⟩

/-- **Every operation keeps the queue.** -/
theorem happens_step (h : QueueInv env maxRetries w) (hretries : 1 ≤ maxRetries)
    (hids : DistinctIds env.toEnv 0 last) (operation : Operation)
    (hlast : (operation.happens env maxRetries w).uuids ≤ last) :
    QueueInv env maxRetries (operation.happens env maxRetries w)
    ∧ KeepsPaused w (operation.happens env maxRetries w) := by
  cases operation with
  | enqueue title scope risk priority workerHint source =>
    exact enqueue_step h hretries title scope risk priority workerHint source
  | registerWorker workerId transport status labels =>
    obtain ⟨workers, w', hrun, hjournal, hsent, hdrawn⟩ :=
      registerWorker_run env workerId transport status labels w h.idle
    have hw' : Operation.happens env maxRetries w
        (.registerWorker workerId transport status labels) = w' := congrArg Prod.snd hrun
    rw [hw']
    exact worker_step h hjournal hsent hdrawn
  | updateWorker workerId status transport labels =>
    obtain ⟨workers, r, w', hrun, hjournal, hsent, hdrawn⟩ :=
      updateWorker_run env workerId status transport labels w h.idle
    have hw' : Operation.happens env maxRetries w
        (.updateWorker workerId status transport labels) = w' := congrArg Prod.snd hrun
    rw [hw']
    exact worker_step h hjournal hsent hdrawn
  | tick bridge timeout =>
    obtain ⟨hinv, hpaused, -⟩ := tick_step h hids bridge timeout hlast
    exact ⟨hinv, hpaused⟩

theorem exec_uuids (env : Env) (op : SqlCall) (w : World) :
    w.uuids ≤ (exec env op w).2.uuids := by
  cases op with
  | execute conn statement =>
    simp only [exec]
    split_ifs
    · exact le_rfl
    · cases statement.apply (w.journal.view conn) <;> exact le_rfl
  | recordAudit =>
    simp only [exec]
    cases w.journal.writer <;> exact le_rfl
  | uuid4 => exact Nat.le_succ _
  | _ => exact le_rfl

theorem happens_uuids (operation : Operation) (w : World) :
    w.uuids ≤ (operation.happens env maxRetries w).uuids := by
  cases operation <;> exact (Prog.trace_le_run World.uuids (exec_uuids env) _ w).1

theorem replay_uuids (operations : List Operation) : ∀ w : World,
    w.uuids ≤ (replay env maxRetries w operations).uuids := by
  induction operations with
  | nil => exact fun w => le_rfl
  | cons operation operations ih => exact fun w => (happens_uuids operation w).trans (ih _)

theorem replay_append (pre post : List Operation) (w : World) :
    replay env maxRetries w (pre ++ post)
      = replay env maxRetries (replay env maxRetries w pre) post := List.foldl_append

/-- **The queue over a whole run.** -/
theorem replay_keeps (hretries : 1 ≤ maxRetries) (hids : DistinctIds env.toEnv 0 last)
    (operations : List Operation) : ∀ w : World, QueueInv env maxRetries w →
      (replay env maxRetries w operations).uuids ≤ last →
      QueueInv env maxRetries (replay env maxRetries w operations)
      ∧ KeepsPaused w (replay env maxRetries w operations) := by
  induction operations with
  | nil => exact fun w h _ => ⟨h, fun id t ht _ => ⟨ht, rfl⟩⟩
  | cons operation operations ih =>
    intro w h hlast
    obtain ⟨hinv, hpaused⟩ := happens_step h hretries hids operation
      ((replay_uuids operations _).trans hlast)
    obtain ⟨hinv', hpaused'⟩ := ih _ hinv hlast
    refine ⟨hinv', fun id t ht hp => ?_⟩
    obtain ⟨ht', hsame⟩ := hpaused id t ht hp
    obtain ⟨ht'', hsame'⟩ := hpaused' id t ht' hp
    exact ⟨ht'', hsame'.trans hsame⟩

theorem queueInv_fresh : QueueInv env maxRetries .fresh where
  idle := rfl
  tasks _ := ⟨rfl, rfl⟩
  sent := nofun
  ids := ⟨fun _ h => absurd rfl h, fun _ h => absurd rfl h⟩

/-- What the queue says of every stored task. -/
structure QueueSpec (maxRetries : Nat) (w : World) : Prop where
  leased : ∀ t ∈ w.journal.committed.tasks.rows,
    t.status = .leased ↔ (leases w.journal.committed t.taskId).length = 1
  idle : ∀ t ∈ w.journal.committed.tasks.rows, t.status = .queued ∨ t.status = .paused →
    leases w.journal.committed t.taskId = []
  leasedLow : ∀ t ∈ w.journal.committed.tasks.rows, t.status = .leased → t.risk = "low"
  dispatchedLow : ∀ d ∈ w.dispatches, d.task.risk = "low"
  attempts : ∀ t ∈ w.journal.committed.tasks.rows, t.attempts = failures w.dispatches t.taskId
  below : ∀ t ∈ w.journal.committed.tasks.rows, t.status = .queued ∨ t.status = .leased →
    t.attempts < maxRetries
  above : ∀ t ∈ w.journal.committed.tasks.rows, t.status = .paused → maxRetries ≤ t.attempts

theorem queueSpec_of_inv (h : QueueInv env maxRetries w) : QueueSpec maxRetries w := by
  have hrow : ∀ t ∈ w.journal.committed.tasks.rows, TaskInv maxRetries (some t)
      (leases w.journal.committed t.taskId) (failures w.dispatches t.taskId) := by
    intro t ht
    have hinv := h.tasks t.taskId
    rwa [Table.find?_of_mem ht] at hinv
  constructor
  case leased =>
    intro t ht
    obtain ⟨-, hinv⟩ := hrow t ht
    cases hs : t.status with
    | leased =>
      rw [hs] at hinv
      exact iff_of_true rfl hinv.1
    | _ =>
      rw [hs] at hinv
      exact iff_of_false nofun (by simp [hinv.1])
  case idle =>
    intro t ht hstatus
    obtain ⟨-, hinv⟩ := hrow t ht
    rcases hstatus with hs | hs <;> rw [hs] at hinv <;> exact hinv.1
  case leasedLow =>
    intro t ht hs
    obtain ⟨-, hinv⟩ := hrow t ht
    rw [hs] at hinv
    exact hinv.2.2
  case dispatchedLow => exact h.sent
  case attempts => exact fun t ht => (hrow t ht).1
  case below =>
    intro t ht hstatus
    obtain ⟨hattempts, hinv⟩ := hrow t ht
    rcases hstatus with hs | hs <;> rw [hs] at hinv
    · exact hattempts ▸ hinv.2
    · exact hattempts ▸ hinv.2.1
  case above =>
    intro t ht hs
    obtain ⟨hattempts, hinv⟩ := hrow t ht
    rw [hs] at hinv
    exact hattempts ▸ hinv.2

/-- **The queue of the orchestrator.**  In every run of operations taken as
atomic that draws distinct identifiers: leases, counters and risks agree with
the status of every task; a paused task stays paused and is not dispatched
again; and every tick returns the leases that timed out and then selects the
first queued task of low risk. -/
theorem orchestrator_queue (env : Env) (maxRetries : Nat) (hretries : 1 ≤ maxRetries)
    (operations : List Operation)
    (hids : DistinctIds env.toEnv 0 (replay env maxRetries .fresh operations).uuids) :
    QueueSpec maxRetries (replay env maxRetries .fresh operations)
    ∧ (∀ pre post, operations = pre ++ post → KeepsPaused (replay env maxRetries .fresh pre)
        (replay env maxRetries .fresh operations))
    ∧ ∀ pre bridge leaseTimeoutSeconds post,
        operations = pre ++ .tick bridge leaseTimeoutSeconds :: post →
        ∃ db, TickSelects env bridge maxRetries leaseTimeoutSeconds
          (replay env maxRetries .fresh pre) db := by
  have hpre : ∀ pre post, operations = pre ++ post →
      QueueInv env maxRetries (replay env maxRetries .fresh pre) := by
    rintro pre post rfl
    refine (replay_keeps hretries hids pre _ queueInv_fresh ?_).1
    rw [replay_append]
    exact replay_uuids _ _
  refine ⟨queueSpec_of_inv (hpre operations [] (List.append_nil _).symm), ?_, ?_⟩
  · rintro pre post rfl
    have hinv := hpre pre post rfl
    rw [replay_append] at hids ⊢
    exact (replay_keeps hretries hids post _ hinv le_rfl).2
  · rintro pre bridge timeout post rfl
    have hinv := hpre pre _ rfl
    rw [replay_append] at hids
    exact (tick_step hinv hids bridge timeout (replay_uuids post _)).2.2

end Runs

/-- A bridge that raises once. -/
def Env.flaky : Env where
  toEnv := Hmn.Env.quiet
  bridge n := if n = 0 then .error "No route to host" else .ok ()

/-- A failed dispatch, a lease, its return to the queue and another lease. -/
theorem orchestrator_queue_retry : QueueSpec 3 (replay Env.flaky 3 .fresh
    [.enqueue "backlog" "docs" "low" 3 "" "cli", .registerWorker "bridge-1" "bridge" "online" [],
      .tick true 1800, .tick true 1800, .tick false (-1)]) :=
  (orchestrator_queue Env.flaky 3 (by decide)
    [.enqueue "backlog" "docs" "low" 3 "" "cli", .registerWorker "bridge-1" "bridge" "online" [],
      .tick true 1800, .tick true 1800, .tick false (-1)] (by decide +kernel)).1

end Hmn.Orchestrator
