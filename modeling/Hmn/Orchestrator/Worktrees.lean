/-
  Hmn.Orchestrator.Worktrees — an isolated git worktree for every agent task.

  `prepare_agent_worktree` creates or reuses the worktree of a task and records
  it; `merge_queue` sorts the recorded branches by what git says of them and
  never touches the base.  Every statement and every command is a call of its
  own, and whatever lies outside (the clock, the file system, git) answers as
  it likes.

  Main results: `merge_queue_settles` and, by the discipline of the callers
  (`prepare_keeps`, `mergeQueue_keeps`), `worktrees_isolated` — in every run of
  any number of callers that interleave in any order.  What a caller may do is
  said by its own arguments (`PreparePermits`, `QueuePermits`), and what a
  verdict rests on by the answers of git (`Env.Backs`).
-/
import Hmn.Framework.Interleave
import Hmn.Framework.Lines
import Hmn.Framework.PosixPath
import Hmn.Framework.Table
import Hmn.Store.Records
import Hmn.Store.Time
import Mathlib.Data.List.Sort

namespace Hmn.Worktrees

open Framework

/-! ## §1. Records and calls. -/

inductive Status where
  | prepared
  | ready
  | conflict
  | missing
  deriving DecidableEq

/-- A row of `orchestrator_worktrees`. -/
structure Worktree where
  taskId : String
  workerId : String
  repoPath : String
  path : String
  branch : String
  base : String
  status : Status
  createdAt : String
  updatedAt : String
  deriving DecidableEq

/-- What the two operations raise; a call from outside may raise anything. -/
inductive Failure where
  | value (message : String)
  | runtime (message : String)
  | calledProcess (args : List String) (returncode : Int)
  | integrity
  | other (message : String)
  deriving DecidableEq

/-- `subprocess.CompletedProcess`, without the stderr that nothing reads. -/
structure Completed where
  returncode : Int
  stdout : String
  deriving DecidableEq

inductive Call where
  | now
  | resolve (path : PosixPath)
  | exists_ (path : PosixPath)
  | mkdir (path : PosixPath)
  /-- `subprocess.run(["git", *args], cwd=repo)`. -/
  | git (repo : Option PosixPath) (args : List String)
  | selectWorktree (taskId : String)
  | insertWorktree (row : Worktree)
  | selectQueue (repoPath base : String)
  | updateStatuses (updates : List (Status × String)) (now : String)
  | recordAudit (subjectId action outcome : String) (details : Dict)

@[reducible] def Call.Res : Call → Type
  | .now => Timestamp
  | .resolve _ => Except Failure PosixPath
  | .exists_ _ => Except Failure Bool
  | .mkdir _ => Except Failure Unit
  | .git _ _ => Except Failure Completed
  | .selectWorktree _ => Option Worktree
  | .insertWorktree _ => Except Failure Unit
  | .selectQueue _ _ => List Worktree
  | .updateStatuses _ _ => Unit
  | .recordAudit .. => Unit

abbrev worktreeSig : Sig := ⟨Call, Call.Res⟩

abbrev Script (α : Type) := Prog worktreeSig Failure α

/-- One call. -/
def call (op : Call) : Script (Call.Res op) := Prog.lift (S := worktreeSig) op

/-- Raise what a call answered with, if it answered with an exception. -/
def orRaise {α : Type} : Except Failure α → Script α
  | .ok a => .ret a
  | .error e => .raise e

def resolve (path : PosixPath) : Script PosixPath := .call (.resolve path) orRaise

def pathExists (path : PosixPath) : Script Bool := .call (.exists_ path) orRaise

def mkdir (path : PosixPath) : Script Unit := .call (.mkdir path) orRaise

/-- `subprocess.run(["git", ...], check=False)`. -/
def git (repo : Option PosixPath) (args : List String) : Script Completed :=
  .call (.git repo args) orRaise

/-- `_git` with `check=True`. -/
def checkedGit (repo : PosixPath) (args : List String) : Script Unit := do
  let done ← git (some repo) args
  if done.returncode = 0 then return () else throw (.calledProcess args done.returncode)

/-! ## §2. The names. -/

def taskIdChars : List Char :=
  "abcdefghijklmnopqrstuvwxyzABCDEFGHIJKLMNOPQRSTUVWXYZ0123456789-_".toList

/-- `_safe_task_id`. -/
def safeTaskId (value : String) : Except Failure String :=
  let parts := (value.toList.splitOnP fun c => c = '\\' || c = '/').map String.ofList
  if value = "" ∨ parts.any (fun part => part ∈ ["", ".", ".."]) = true then
    throw (.value "task_id must not contain path separators or traversal segments")
  else if value.toList.any (fun c => c ∉ taskIdChars) = true then
    throw (.value "task_id may only contain letters, digits, '-' and '_'")
  else
    pure value

/-- `f"hmn/agent/{safe_task}"`. -/
def branchOf (taskId : String) : String := "hmn/agent/" ++ taskId

/-- `git worktree add -b`. -/
def addWorktree (taskId : String) (path : PosixPath) (base : String) : List String :=
  ["worktree", "add", "-b", branchOf taskId, path.text, base]

/-! ## §3. The two operations. -/

/-- `_worktree_paths`. -/
def worktreePaths (repo : PosixPath) : Script (List PosixPath) := do
  let output ← git (some repo) ["worktree", "list", "--porcelain"]
  ((Text.splitLines output.stdout).filter fun line => Text.startsWith line "worktree ").mapM
    fun line => resolve (.ofString (Text.removePrefix line "worktree "))

/-- `_validate_worktree`. -/
def validateWorktree (repo path : PosixPath) (branch : String) : Script Unit := do
  if !(← pathExists path) then
    throw (.runtime ("worktree path missing: " ++ path.text))
  else
    let branchCheck ← git none ["-C", path.text, "rev-parse", "--abbrev-ref", "HEAD"]
    if branchCheck.returncode ≠ 0 ∨ Text.strip branchCheck.stdout ≠ branch then
      throw (.runtime ("worktree path already exists but is not branch " ++ branch ++ ": "
        ++ path.text))
    else
      let here ← resolve path
      let paths ← worktreePaths repo
      if here ∈ paths then return ()
      else throw (.runtime ("worktree path is not registered for repo " ++ repo.text ++ ": "
        ++ path.text))

/-- What `prepare_agent_worktree` returns. -/
structure Prepared where
  taskId : String
  workerId : String
  branch : String
  path : String
  base : String
  status : Status
  deriving DecidableEq

def Prepared.ofRow (row : Worktree) : Prepared :=
  { taskId := row.taskId, workerId := row.workerId, branch := row.branch, path := row.path
    base := row.base, status := row.status }

/-- The worktree of a task that is recorded already. -/
def reuseWorktree (repo : PosixPath) (base workerId : String) (current : Worktree) :
    Script Prepared := do
  let currentRepo ← resolve (.ofString current.repoPath)
  let currentPath ← resolve (.ofString current.path)
  if currentRepo ≠ repo ∨ current.base ≠ base ∨ current.workerId ≠ workerId then
    throw (.runtime "existing worktree record does not match requested repo/base/worker")
  else
    validateWorktree repo currentPath current.branch
    return .ofRow current

/-- The row of a new worktree. -/
def newWorktree (taskId workerId : String) (repo path : PosixPath) (base now : String) : Worktree where
  taskId := taskId
  workerId := workerId
  repoPath := repo.text
  path := path.text
  branch := branchOf taskId
  base := base
  status := .prepared
  createdAt := now
  updatedAt := now

/-- The worktree at a path, which is added when nothing is there. -/
def ensureWorktree (taskId : String) (repo path : PosixPath) (base : String) : Script Unit := do
  if ← pathExists path then
    validateWorktree repo path (branchOf taskId)
  else
    checkedGit repo (addWorktree taskId path base)

/-- The details of the audit event of a worktree that was prepared. -/
def prepareDetails (row : Worktree) : Dict :=
  [("worker_id", .str row.workerId), ("repo_path", .str row.repoPath), ("path", .str row.path),
    ("branch", .str row.branch), ("base", .str row.base)]

/-- A worktree for a task without a record. -/
def createWorktree (taskId workerId : String) (repo path : PosixPath) (base now : String) :
    Script Prepared := do
  ensureWorktree taskId repo path base
  -- Another caller may have recorded the task since it was looked up.
  let row := newWorktree taskId workerId repo path base now
  .call (.insertWorktree row) orRaise
  call (.recordAudit taskId "worktree/prepare" "prepared" (prepareDetails row))
  return .ofRow row

/-- The directory of the worktrees of a repository. -/
def rootOf (repo : PosixPath) : Option PosixPath → Script PosixPath
  | some worktreeRoot => resolve worktreeRoot
  | none => .ret (repo.parent.join ".hmn-worktrees")

/-- `prepare_agent_worktree`, on persistent storage. -/
def prepareAgentWorktree (taskId workerId : String) (repoPath : PosixPath) (base : String)
    (worktreeRoot : Option PosixPath) : Script Prepared := do
  let safeTask ← orRaise (safeTaskId taskId)
  let repo ← resolve repoPath
  let root ← rootOf repo worktreeRoot
  -- A symbolic link below the root may lead anywhere.
  let path ← resolve (root.join safeTask)
  if path.relativeTo? root = none then
    throw (.value "worktree path must stay under worktree_root")
  else
    let now ← call .now
    mkdir root
    match ← call (.selectWorktree taskId) with
    | some current => reuseWorktree repo base workerId current
    | none => createWorktree taskId workerId repo path base now.isoformat

/-- What `merge_queue` says of a branch, with the reason. -/
inductive Verdict where
  | mergeReady
  | conflict (reason : String)
  | missing (reason : String)
  deriving DecidableEq

def Verdict.status : Verdict → Status
  | .mergeReady => .ready
  | .conflict _ => .conflict
  | .missing _ => .missing

/-- The reason why a worktree is not valid; `except RuntimeError`. -/
def invalidReason (repo : PosixPath) (row : Worktree) : Script (Option String) :=
  Prog.tryCatch (do
    let path ← resolve (.ofString row.path)
    validateWorktree repo path row.branch
    return none) fun e =>
      match e with
      | .runtime message => .ret (some message)
      | e => .raise e

/-- One turn of the loop of `merge_queue`. -/
def judge (repo : PosixPath) (base : String) (row : Worktree) : Script (Worktree × Verdict) := do
  -- Asked for first, looked at only when the worktree is valid.
  let branchExists ← git (some repo) ["rev-parse", "--verify", "refs/heads/" ++ row.branch]
  match ← invalidReason repo row with
  | some reason => return (row, .missing reason)
  | none =>
    if branchExists.returncode ≠ 0 then return (row, .missing "branch missing")
    else
      let mergeBase ← git (some repo) ["merge-base", base, row.branch]
      if mergeBase.returncode ≠ 0 ∨ Text.strip mergeBase.stdout = "" then
        return (row, .conflict "merge-base failed")
      else
        let mergeTree ← git (some repo)
          ["merge-tree", Text.strip mergeBase.stdout, base, row.branch]
        if Text.contains mergeTree.stdout "<<<<<<<"
            ∨ Text.contains mergeTree.stdout "changed in both" then
          return (row, .conflict "merge-tree conflict")
        else
          return (row, .mergeReady)

/-- The end of `merge_queue`: the verdicts are written, if there are any. -/
def writeVerdicts (judged : List (Worktree × Verdict)) : Script (List (Worktree × Verdict)) :=
  let updates := judged.map fun entry => (entry.2.status, entry.1.taskId)
  if updates = [] then return judged
  else do
    let now ← call .now
    call (.updateStatuses updates now.isoformat)
    return judged

/-- `merge_queue` in a resolved repository. -/
def mergeQueueIn (base : String) (repo : PosixPath) : Script (List (Worktree × Verdict)) := do
  let rows ← call (.selectQueue repo.text base)
  rows.mapM (judge repo base) >>= writeVerdicts

/-- `merge_queue`, on persistent storage: the rows with their verdicts, in the
order of the queue. -/
def mergeQueue (repoPath : PosixPath) (base : String) : Script (List (Worktree × Verdict)) :=
  resolve repoPath >>= mergeQueueIn base

/-- One caller. -/
inductive WorktreeCaller where
  | prepare (taskId workerId : String) (repoPath : PosixPath) (base : String)
      (worktreeRoot : Option PosixPath)
  | mergeQueue (repoPath : PosixPath) (base : String)

def WorktreeCaller.program : WorktreeCaller → Script Unit
  | prepare taskId workerId repoPath base worktreeRoot =>
      prepareAgentWorktree taskId workerId repoPath base worktreeRoot >>= fun _ => .ret ()
  | mergeQueue repoPath base => Worktrees.mergeQueue repoPath base >>= fun _ => .ret ()

/-! ## §4. The database and what lies outside. -/

/-- The answers of the clock, the file system and git. -/
structure Env where
  now : Nat → Timestamp
  resolve : Nat → PosixPath → Except Failure PosixPath
  exists_ : Nat → PosixPath → Except Failure Bool
  mkdir : Nat → PosixPath → Except Failure Unit
  git : Nat → Option PosixPath → List String → Except Failure Completed

/-- The tables, and how many answers were used so far. -/
structure World where
  worktrees : Table Worktree.taskId
  audit : List AuditEvent := []
  asked : Nat := 0

def World.empty : World := { worktrees := .empty }

def World.next (w : World) : World := { w with asked := w.asked + 1 }

/-- `ORDER BY created_at ASC, task_id ASC`. -/
def queueOrder (row row' : Worktree) : Prop :=
  row.createdAt < row'.createdAt ∨ row.createdAt = row'.createdAt ∧ row.taskId ≤ row'.taskId

instance : DecidableRel queueOrder := fun row row' =>
  inferInstanceAs (Decidable (row.createdAt < row'.createdAt
    ∨ row.createdAt = row'.createdAt ∧ row.taskId ≤ row'.taskId))

/-- The rows that `merge_queue` selects. -/
def World.queue (w : World) (repoPath base : String) : List Worktree :=
  (w.worktrees.rows.filter fun row => row.repoPath = repoPath ∧ row.base = base
    ∧ row.status ∈ [.prepared, .ready, .conflict]).insertionSort queueOrder

def Worktree.withStatus (status : Status) (now : String) (row : Worktree) : Worktree :=
  { row with status, updatedAt := now }

/-- One UPDATE of `merge_queue`. -/
def setStatus (now : String) (t : Table Worktree.taskId) (update : Status × String) :
    Table Worktree.taskId :=
  t.update (fun row => row.taskId = update.2) (Worktree.withStatus update.1 now) fun _ => rfl

def exec (env : Env) : Prog.Exec worktreeSig World
  | .now, w => (env.now w.asked, w.next)
  | .resolve path, w => (env.resolve w.asked path, w.next)
  | .exists_ path, w => (env.exists_ w.asked path, w.next)
  | .mkdir path, w => (env.mkdir w.asked path, w.next)
  | .git repo args, w => (env.git w.asked repo args, w.next)
  | .selectWorktree taskId, w => (w.worktrees.find? taskId, w)
  | .insertWorktree row, w =>
      match w.worktrees.insert? row with
      | some worktrees => (.ok (), { w with worktrees })
      | none => (.error .integrity, w)
  | .selectQueue repoPath base, w => (w.queue repoPath base, w)
  | .updateStatuses updates now, w =>
      ((), { w with worktrees := updates.foldl (setStatus now) w.worktrees })
  | .recordAudit subjectId action outcome details, w =>
      ((), { w.next with
        audit := w.audit ++ [{
          eventType := "orchestrator", subjectType := "orchestrator_task", subjectId, action
          outcome, details, createdAt := env.now w.asked }] })

/-! ## §5. What a record is. -/

/-- What never changes of a row. -/
def Worktree.record (row : Worktree) : Worktree := { row with status := .prepared, updatedAt := "" }

/-- The record of a safe task, on the branch of its own. -/
def Worktree.WellNamed (row : Worktree) : Prop :=
  safeTaskId row.taskId = .ok row.taskId ∧ row.branch = branchOf row.taskId

def World.records (w : World) : List Worktree := w.worktrees.rows.map Worktree.record

theorem branchOf_injective {taskId taskId' : String} (h : branchOf taskId = branchOf taskId') :
    taskId = taskId' := by
  have hchars := congrArg String.toList h
  unfold branchOf at hchars
  rw [String.toList_append, String.toList_append] at hchars
  exact String.toList_inj.mp (List.append_cancel_left hchars)

theorem records_setStatus (now : String) (t : Table Worktree.taskId) (update : Status × String) :
    (setStatus now t update).rows.map Worktree.record = t.rows.map Worktree.record := by
  unfold setStatus Table.update
  rw [List.map_map]
  refine List.map_congr_left fun row _ => ?_
  show Worktree.record (if decide (row.taskId = update.2) then row.withStatus update.1 now else row)
    = row.record
  split_ifs
  · rfl
  · rfl

theorem records_foldl (now : String) (updates : List (Status × String)) :
    ∀ t : Table Worktree.taskId, (updates.foldl (setStatus now) t).rows.map Worktree.record
      = t.rows.map Worktree.record := by
  induction updates with
  | nil => exact fun _ => rfl
  | cons update updates ih =>
    intro t
    rw [List.foldl_cons, ih, records_setStatus]

/-- **What a call adds**: an INSERT adds its row behind the others, and no
other call adds or takes away anything. -/
theorem records_exec (env : Env) (op : Call) (w : World) :
    ∃ new, (exec env op w).2.records = w.records ++ new
      ∧ ∀ row ∈ new, ∃ inserted, op = .insertWorktree inserted ∧ row = inserted.record := by
  have hsame : ∀ w' : World, w'.records = w.records → ∃ new, w'.records = w.records ++ new
      ∧ ∀ row ∈ new, ∃ inserted, op = .insertWorktree inserted ∧ row = inserted.record :=
    fun w' h => ⟨[], by rw [List.append_nil, h], fun row hrow => absurd hrow List.not_mem_nil⟩
  cases op with
  | insertWorktree row =>
    cases hinsert : w.worktrees.insert? row with
    | none =>
      refine hsame _ ?_
      simp only [exec, hinsert]
    | some worktrees =>
      refine ⟨[row.record], ?_, fun row' hrow' => ⟨row, rfl, List.mem_singleton.mp hrow'⟩⟩
      simp only [exec, hinsert]
      unfold Table.insert? at hinsert
      split_ifs at hinsert with hnew
      obtain rfl := Option.some.inj hinsert
      unfold World.records
      rw [Table.rows_append, List.map_append]
      rfl
  -- An update sets the status and its time, which are no part of a record.
  | updateStatuses updates now => exact hsame _ (records_foldl now updates w.worktrees)
  | _ => exact hsame _ rfl

/-! ## §6. What lies outside has answered. -/

/-- What a call may be answered with.  The clock, the file system and git give
an answer they have at some moment; a task is looked up by its id. -/
def Env.Answers (env : Env) : (op : Call) → Call.Res op → Prop
  | .now, r => ∃ n, env.now n = r
  | .resolve path, r => ∃ n, env.resolve n path = r
  | .exists_ path, r => ∃ n, env.exists_ n path = r
  | .mkdir path, r => ∃ n, env.mkdir n path = r
  | .git repo args, r => ∃ n, env.git n repo args = r
  | .selectWorktree taskId, r => ∀ row, r = some row → row.taskId = taskId
  | _, _ => True

theorem answers_exec (env : Env) (op : Call) (w : World) : env.Answers op (exec env op w).1 := by
  cases op with
  | now => exact ⟨w.asked, rfl⟩
  | resolve path => exact ⟨w.asked, rfl⟩
  | exists_ path => exact ⟨w.asked, rfl⟩
  | mkdir path => exact ⟨w.asked, rfl⟩
  | git repo args => exact ⟨w.asked, rfl⟩
  | selectWorktree taskId => exact fun row hrow => (Table.find?_eq_some.mp hrow).2
  | _ => trivial

def Env.Resolves (env : Env) (path resolved : PosixPath) : Prop :=
  env.Answers (.resolve path) (.ok resolved)

def Env.Git (env : Env) (repo : Option PosixPath) (args : List String) (done : Completed) : Prop :=
  env.Answers (.git repo args) (.ok done)

/-- The file system or git has raised `e`. -/
inductive Env.Raises (env : Env) (e : Failure) : Prop where
  | resolve {path : PosixPath} (h : env.Answers (.resolve path) (.error e))
  | exists_ {path : PosixPath} (h : env.Answers (.exists_ path) (.error e))
  | git {repo : Option PosixPath} {args : List String} (h : env.Answers (.git repo args) (.error e))

/-- The worktrees that git has listed for a repository. -/
def Env.Lists (env : Env) (repo : PosixPath) (paths : List PosixPath) : Prop :=
  ∃ output, env.Git (some repo) ["worktree", "list", "--porcelain"] output
    ∧ List.Forall₂
        (fun line path => env.Resolves (.ofString (Text.removePrefix line "worktree ")) path)
        ((Text.splitLines output.stdout).filter fun line => Text.startsWith line "worktree ") paths

/-- A worktree is there, on its branch, and registered for the repository. -/
structure Env.Valid (env : Env) (repo path : PosixPath) (branch : String) : Prop where
  found : env.Answers (.exists_ path) (.ok true)
  onBranch : ∃ head, env.Git none ["-C", path.text, "rev-parse", "--abbrev-ref", "HEAD"] head
    ∧ head.returncode = 0 ∧ Text.strip head.stdout = branch
  registered : ∃ here paths, env.Resolves path here ∧ env.Lists repo paths ∧ here ∈ paths

/-- Why a worktree is not valid, with the message that says so. -/
inductive Env.Invalid (env : Env) (repo path : PosixPath) (branch : String) : String → Prop where
  | missing (h : env.Answers (.exists_ path) (.ok false)) :
      Invalid env repo path branch ("worktree path missing: " ++ path.text)
  | otherBranch {head : Completed}
      (h : env.Git none ["-C", path.text, "rev-parse", "--abbrev-ref", "HEAD"] head)
      (hother : head.returncode ≠ 0 ∨ Text.strip head.stdout ≠ branch) :
      Invalid env repo path branch ("worktree path already exists but is not branch " ++ branch
        ++ ": " ++ path.text)
  | unregistered {here : PosixPath} {paths : List PosixPath} (h : env.Resolves path here)
      (hlists : env.Lists repo paths) (hhere : here ∉ paths) :
      Invalid env repo path branch ("worktree path is not registered for repo " ++ repo.text
        ++ ": " ++ path.text)

/-- What `merge-tree` prints of a conflict. -/
def Completed.Conflicts (mergeTree : Completed) : Prop :=
  Text.contains mergeTree.stdout "<<<<<<<" ∨ Text.contains mergeTree.stdout "changed in both"

def Env.ValidRow (env : Env) (repo : PosixPath) (row : Worktree) : Prop :=
  ∃ path, env.Resolves (.ofString row.path) path ∧ env.Valid repo path row.branch

/-- `rev-parse --verify` of the branch of a row. -/
def Env.Verifies (env : Env) (repo : PosixPath) (row : Worktree) (verify : Completed) : Prop :=
  env.Git (some repo) ["rev-parse", "--verify", "refs/heads/" ++ row.branch] verify

/-- The branch of a row is there and its worktree valid, and `merge-base` has
answered. -/
structure Env.Compared (env : Env) (repo : PosixPath) (base : String) (row : Worktree)
    (mergeBase : Completed) : Prop where
  valid : env.ValidRow repo row
  verified : ∃ verify, env.Verifies repo row verify ∧ verify.returncode = 0
  compared : env.Git (some repo) ["merge-base", base, row.branch] mergeBase

/-- Why a row gets its verdict. -/
inductive Env.Backs (env : Env) (repo : PosixPath) (base : String) (row : Worktree) :
    Verdict → Prop where
  | ready {mergeBase mergeTree : Completed} (h : env.Compared repo base row mergeBase)
      (hbase : mergeBase.returncode = 0 ∧ Text.strip mergeBase.stdout ≠ "")
      (htree : env.Git (some repo) ["merge-tree", Text.strip mergeBase.stdout, base, row.branch]
        mergeTree)
      (hclean : ¬ mergeTree.Conflicts) : Backs env repo base row .mergeReady
  | treeConflict {mergeBase mergeTree : Completed} (h : env.Compared repo base row mergeBase)
      (hbase : mergeBase.returncode = 0 ∧ Text.strip mergeBase.stdout ≠ "")
      (htree : env.Git (some repo) ["merge-tree", Text.strip mergeBase.stdout, base, row.branch]
        mergeTree)
      (hconflict : mergeTree.Conflicts) :
      Backs env repo base row (.conflict "merge-tree conflict")
  | noMergeBase {mergeBase : Completed} (h : env.Compared repo base row mergeBase)
      (hbase : mergeBase.returncode ≠ 0 ∨ Text.strip mergeBase.stdout = "") :
      Backs env repo base row (.conflict "merge-base failed")
  | noBranch {verify : Completed} (hvalid : env.ValidRow repo row)
      (hverify : env.Verifies repo row verify) (hfailed : verify.returncode ≠ 0) :
      Backs env repo base row (.missing "branch missing")
  | invalid {path : PosixPath} {message : String}
      (hpath : env.Resolves (.ofString row.path) path)
      (hinvalid : env.Invalid repo path row.branch message) :
      Backs env repo base row (.missing message)
  -- A `RuntimeError` of the file system is caught like one of the check.
  | raised {message : String} (h : env.Raises (.runtime message)) :
      Backs env repo base row (.missing message)

/-! ## §7. The discipline of a caller. -/

/-- Commands of git that look and change nothing. -/
inductive Query : List String → Prop where
  | worktreeList : Query ["worktree", "list", "--porcelain"]
  | head (path : String) : Query ["-C", path, "rev-parse", "--abbrev-ref", "HEAD"]
  | verify (ref : String) : Query ["rev-parse", "--verify", ref]
  | mergeBase (base branch : String) : Query ["merge-base", base, branch]
  | mergeTree (ancestor base branch : String) : Query ["merge-tree", ancestor, base, branch]

/-- How far a caller is. -/
inductive Stage where
  | start
  /-- It has made the directory of the worktrees. -/
  | rooted (root : PosixPath)
  /-- It has found the record of its task, or inserted it. -/
  | recorded (row : Worktree)
  /-- It has selected the rows of a repository and a base. -/
  | queued (repoPath base : String) (rows : List Worktree)
  /-- It has written its verdicts. -/
  | settled

/-- The directory of the worktrees that a caller has asked for. -/
def Env.IsRoot (env : Env) (repo : PosixPath) : Option PosixPath → PosixPath → Prop
  | some worktreeRoot, root => env.Resolves worktreeRoot root
  | none, root => root = repo.parent.join ".hmn-worktrees"

/-- Where the worktree of a task is: every path is what the file system has
made of the arguments of the caller. -/
structure Env.Places (env : Env) (taskId : String) (repoPath : PosixPath)
    (worktreeRoot : Option PosixPath) (repo root path : PosixPath) : Prop where
  safe : safeTaskId taskId = .ok taskId
  asked : env.Resolves repoPath repo
  rooted : env.IsRoot repo worktreeRoot root
  placed : env.Resolves (root.join taskId) path
  within : path.relativeTo? root ≠ none

/-- The worktree of a task is at a path: git has added it, or has answered for
the one that was there. -/
def Env.Made (env : Env) (repo path : PosixPath) (taskId base : String) : Prop :=
  (∃ added, env.Git (some repo) (addWorktree taskId path base) added ∧ added.returncode = 0)
    ∨ env.Valid repo path (branchOf taskId)

/-- The worktree of a record was made for the repository, or was found valid
when the record was used again. -/
def Env.Stands (env : Env) (repo : PosixPath) (row : Worktree) : Prop :=
  (row.repoPath = repo.text
      ∧ ∃ path : PosixPath, row.path = path.text ∧ env.Made repo path row.taskId row.base)
    ∨ (env.Resolves (.ofString row.repoPath) repo ∧ env.ValidRow repo row)

/-- What `prepare_agent_worktree` may do at a stage.  The one command that
changes anything adds the worktree of the caller's task to the caller's
repository, within the caller's root; the one row that is inserted is of that
worktree, once it is made. -/
def PreparePermits (env : Env) (taskId workerId : String) (repoPath : PosixPath) (base : String)
    (worktreeRoot : Option PosixPath) (stage : Stage) : Call → Prop
  | .mkdir root => stage = .start
      ∧ ∃ repo path, env.Places taskId repoPath worktreeRoot repo root path
  | .selectWorktree asked => asked = taskId
  | .git repo? args => Query args ∨ ∃ repo root path, stage = .rooted root
      ∧ env.Places taskId repoPath worktreeRoot repo root path
      ∧ repo? = some repo ∧ args = addWorktree taskId path base
  | .insertWorktree row => ∃ repo root path now, stage = .rooted root
      ∧ env.Places taskId repoPath worktreeRoot repo root path
      ∧ env.Made repo path taskId base
      ∧ row = newWorktree taskId workerId repo path base now
  | .recordAudit subjectId action outcome details => ∃ row, stage = .recorded row
      ∧ row.taskId = taskId ∧ subjectId = taskId ∧ action = "worktree/prepare"
      ∧ outcome = "prepared" ∧ details = prepareDetails row
  | .selectQueue _ _ | .updateStatuses _ _ => False
  | _ => True

/-- What `merge_queue` may do at a stage.  Its commands look only, and the
statuses it sets are those of the rows it has selected, which are of its own
repository and base. -/
def QueuePermits (env : Env) (repoPath : PosixPath) (base : String) (stage : Stage) : Call → Prop
  | .git _ args => Query args
  | .selectQueue selected base' => stage = .start ∧ base' = base
      ∧ ∃ repo, env.Resolves repoPath repo ∧ selected = repo.text
  | .updateStatuses updates _ => ∃ repo rows, env.Resolves repoPath repo
      ∧ stage = .queued repo.text base rows ∧ updates.map Prod.snd = rows.map Worktree.taskId
      ∧ ∀ update ∈ updates, update.1 ≠ .prepared
  | .mkdir _ | .selectWorktree _ | .insertWorktree _ | .recordAudit .. => False
  | _ => True

def Call.Permitted (env : Env) (caller : WorktreeCaller) (stage : Stage) (op : Call) : Prop :=
  match caller with
  | .prepare taskId workerId repoPath base worktreeRoot =>
      PreparePermits env taskId workerId repoPath base worktreeRoot stage op
  | .mergeQueue repoPath base => QueuePermits env repoPath base stage op

def afterCall (stage : Stage) : (op : Call) → Call.Res op → Stage
  | .mkdir root, _ => .rooted root
  | .selectWorktree _, some row => .recorded row
  | .insertWorktree row, .ok _ => .recorded row
  | .selectQueue repoPath base, rows => .queued repoPath base rows
  | .updateStatuses _ _, _ => .settled
  | _, _ => stage

/-- The record that a caller is served with when it returns. -/
def WorktreeCaller.Served (env : Env) : WorktreeCaller → Stage → Prop
  | .prepare taskId workerId repoPath base _, stage => ∃ row repo, stage = .recorded row
      ∧ row.taskId = taskId ∧ row.workerId = workerId ∧ row.base = base
      ∧ env.Resolves repoPath repo ∧ env.Stands repo row
  | .mergeQueue _ _, _ => True

abbrev worktreeTypestate (env : Env) : Typestate worktreeSig where
  Mode := WorktreeCaller × Stage
  may m op := op.Permitted env m.1 m.2
  after m op r := (m.1, afterCall m.2 op r)
  sees := env.Answers

/-- A call that leaves a caller where it is. -/
def Call.Passive : Call → Prop
  | .git _ args => Query args
  | .now | .resolve _ | .exists_ _ => True
  | _ => False

section Discipline

variable {env : Env} {caller : WorktreeCaller} {stage : Stage} {α β : Type}
  {Q : Stage → α → Prop} {E : Stage → Failure → Prop}

/-- A program of a caller that keeps the discipline, returns as `Q` says and
raises as `E` says. -/
def Keeps (env : Env) (caller : WorktreeCaller) (Q : Stage → α → Prop)
    (E : Stage → Failure → Prop) (stage : Stage) (p : Script α) : Prop :=
  p.wp (worktreeTypestate env) (fun m a => m.1 = caller ∧ Q m.2 a)
    (fun m e => m.1 = caller ∧ E m.2 e) (caller, stage)

theorem permitted_of_passive {op : Call} (h : op.Passive) :
    op.Permitted env caller stage ∧ ∀ r, afterCall stage op r = stage := by
  cases op with
  | git repo args =>
    refine ⟨?_, fun _ => rfl⟩
    cases caller with
    | prepare taskId workerId repoPath base worktreeRoot => exact Or.inl h
    | mergeQueue repoPath base => exact h
  | now => exact ⟨by cases caller <;> trivial, fun _ => rfl⟩
  | resolve path => exact ⟨by cases caller <;> trivial, fun _ => rfl⟩
  | exists_ path => exact ⟨by cases caller <;> trivial, fun _ => rfl⟩
  | _ => exact h.elim

theorem keeps_ret {a : α} (h : Q stage a) : Keeps env caller Q E stage (.ret a) :=
  Prog.wp_ret.mpr ⟨rfl, h⟩

theorem keeps_raise {e : Failure} (h : E stage e) : Keeps env caller Q E stage (.raise e) :=
  Prog.wp_raise.mpr ⟨rfl, h⟩

theorem keeps_call {op : Call} {f : Call.Res op → Script α}
    (hmay : op.Permitted env caller stage)
    (hf : ∀ r, env.Answers op r → Keeps env caller Q E (afterCall stage op r) (f r)) :
    Keeps env caller Q E stage (.call op f) :=
  Prog.wp_call.mpr ⟨hmay, hf⟩

theorem keeps_ask {op : Call} {f : Call.Res op → Script α}
    (hmay : op.Permitted env caller stage)
    (hf : ∀ r, env.Answers op r → Keeps env caller Q E (afterCall stage op r) (f r)) :
    Keeps env caller Q E stage (call op >>= f) :=
  keeps_call hmay hf

theorem keeps_bind {p : Script β} {f : β → Script α} {R : Stage → β → Prop}
    (hp : Keeps env caller R E stage p)
    (hf : ∀ b stage', R stage' b → Keeps env caller Q E stage' (f b)) :
    Keeps env caller Q E stage (p >>= f) := by
  refine Prog.wp_bind (T := worktreeTypestate env) p f _ ?_
  refine Prog.wp_mono (T := worktreeTypestate env) (fun m b hb => ?_) (fun _ _ h => h) p _ hp
  obtain ⟨caller', stage'⟩ := m
  obtain ⟨rfl, hR⟩ := hb
  exact hf b stage' hR

theorem keeps_mono {p : Script α} {Q' : Stage → α → Prop} {E' : Stage → Failure → Prop}
    (hQ : ∀ stage' a, Q stage' a → Q' stage' a) (hE : ∀ stage' e, E stage' e → E' stage' e)
    (hp : Keeps env caller Q E stage p) : Keeps env caller Q' E' stage p :=
  Prog.wp_mono (T := worktreeTypestate env) (fun m a h => ⟨h.1, hQ m.2 a h.2⟩)
    (fun m e h => ⟨h.1, hE m.2 e h.2⟩) p _ hp

theorem keeps_tryCatch (E' : Stage → Failure → Prop) {p : Script α} {f : Failure → Script α}
    (hp : Keeps env caller Q E' stage p)
    (hf : ∀ e stage', E' stage' e → Keeps env caller Q E stage' (f e)) :
    Keeps env caller Q E stage (Prog.tryCatch p f) := by
  refine Prog.wp_tryCatch (T := worktreeTypestate env) p f _ ?_
  refine Prog.wp_mono (T := worktreeTypestate env) (fun _ _ h => h) (fun m e he => ?_) p _ hp
  obtain ⟨caller', stage'⟩ := m
  obtain ⟨rfl, hE'⟩ := he
  exact hf e stage' hE'

/-- One program after another for the items of a list. -/
theorem keeps_mapM {R : β → α → Prop} {f : β → Script α}
    (hf : ∀ b, Keeps env caller (fun stage' a => stage' = stage ∧ R b a) E stage (f b))
    (bs : List β) :
    Keeps env caller (fun stage' as => stage' = stage ∧ List.Forall₂ R bs as) E stage
      (bs.mapM f) := by
  induction bs with
  | nil => exact keeps_ret ⟨rfl, .nil⟩
  | cons b bs ih =>
    rw [List.mapM_cons]
    refine keeps_bind (hf b) fun a stage' ha => ?_
    obtain ⟨rfl, ha⟩ := ha
    refine keeps_bind ih fun as stage' has => ?_
    obtain ⟨rfl, has⟩ := has
    exact keeps_ret ⟨rfl, .cons ha has⟩

section Outside

variable (hE : ∀ e, env.Raises e → E stage e)
include hE

theorem keeps_resolve {path : PosixPath} {f : PosixPath → Script α}
    (hf : ∀ resolved, env.Resolves path resolved → Keeps env caller Q E stage (f resolved)) :
    Keeps env caller Q E stage (resolve path >>= f) := by
  have hpassive : Call.Passive (.resolve path) := trivial
  refine keeps_call (permitted_of_passive hpassive).1 fun r hr => ?_
  cases r with
  | ok resolved => exact hf resolved hr
  | error e => exact keeps_raise (hE e (.resolve hr))

theorem keeps_pathExists {path : PosixPath} {f : Bool → Script α}
    (hf : ∀ found, env.Answers (.exists_ path) (.ok found) → Keeps env caller Q E stage (f found)) :
    Keeps env caller Q E stage (pathExists path >>= f) := by
  have hpassive : Call.Passive (.exists_ path) := trivial
  refine keeps_call (permitted_of_passive hpassive).1 fun r hr => ?_
  cases r with
  | ok found => exact hf found hr
  | error e => exact keeps_raise (hE e (.exists_ hr))

theorem keeps_git {repo : Option PosixPath} {args : List String} {f : Completed → Script α}
    (hquery : Query args)
    (hf : ∀ done, env.Git repo args done → Keeps env caller Q E stage (f done)) :
    Keeps env caller Q E stage (git repo args >>= f) := by
  have hpassive : Call.Passive (.git repo args) := hquery
  refine keeps_call (permitted_of_passive hpassive).1 fun r hr => ?_
  cases r with
  | ok done => exact hf done hr
  | error e => exact keeps_raise (hE e (.git hr))

theorem worktreePaths_keeps (repo : PosixPath) :
    Keeps env caller (fun stage' paths => stage' = stage ∧ env.Lists repo paths) E stage
      (worktreePaths repo) := by
  unfold worktreePaths
  refine keeps_git hE .worktreeList fun output houtput => ?_
  refine keeps_mono (fun stage' paths h => ⟨h.1, output, houtput, h.2⟩) (fun _ _ h => h)
    (keeps_mapM (fun line => ?_) _)
  rw [← Prog.bind_ret (resolve _)]
  exact keeps_resolve hE fun path hpath => keeps_ret ⟨rfl, hpath⟩

/-- **The check of a worktree**: it returns for a valid one, and raises what
an outside call raised or the reason why the worktree is not valid. -/
theorem validateWorktree_keeps {repo path : PosixPath} {branch : String}
    (hinvalid : ∀ message, env.Invalid repo path branch message → E stage (.runtime message)) :
    Keeps env caller (fun stage' _ => stage' = stage ∧ env.Valid repo path branch) E stage
      (validateWorktree repo path branch) := by
  unfold validateWorktree
  refine keeps_pathExists hE fun found hfound => ?_
  cases found with
  | false => exact keeps_raise (hinvalid _ (.missing hfound))
  | true =>
    refine keeps_git hE (.head _) fun branchCheck hcheck => ?_
    split_ifs with hother
    · exact keeps_raise (hinvalid _ (.otherBranch hcheck hother))
    · rw [not_or, not_not, not_not] at hother
      refine keeps_resolve hE fun here hhere => ?_
      refine keeps_bind (worktreePaths_keeps hE repo) fun paths stage' hpaths => ?_
      obtain ⟨rfl, hpaths⟩ := hpaths
      split_ifs with hmem
      · exact keeps_ret ⟨rfl, hfound, ⟨branchCheck, hcheck, hother⟩, here, paths, hhere, hpaths,
          hmem⟩
      · exact keeps_raise (hinvalid _ (.unregistered hhere hpaths hmem))

end Outside

theorem safeTaskId_ok {value safe : String} (h : safeTaskId value = .ok safe) : safe = value := by
  unfold safeTaskId at h
  simp only at h
  split_ifs at h
  cases h
  rfl

/-- How a worktree is prepared may fail in any way. -/
def anyFailure : Stage → Failure → Prop := fun _ _ => True

theorem rootOf_keeps {repo : PosixPath} {worktreeRoot : Option PosixPath} {f : PosixPath → Script α}
    (hf : ∀ root, env.IsRoot repo worktreeRoot root → Keeps env caller Q anyFailure stage (f root)) :
    Keeps env caller Q anyFailure stage (rootOf repo worktreeRoot >>= f) := by
  cases worktreeRoot with
  | none => exact hf _ rfl
  | some asked => exact keeps_resolve (fun _ _ => trivial) hf

section Prepare

variable {taskId workerId base : String} {repoPath : PosixPath} {worktreeRoot : Option PosixPath}
  {repo root path : PosixPath}

/-- A worktree is made where the caller's own arguments place it. -/
theorem ensureWorktree_keeps (hplaces : env.Places taskId repoPath worktreeRoot repo root path) :
    Keeps env (.prepare taskId workerId repoPath base worktreeRoot)
      (fun stage' _ => stage' = .rooted root ∧ env.Made repo path taskId base) anyFailure
      (.rooted root) (ensureWorktree taskId repo path base) := by
  unfold ensureWorktree
  refine keeps_pathExists (fun _ _ => trivial) fun found _ => ?_
  cases found with
  | true =>
    exact keeps_mono (fun stage' _ h => ⟨h.1, Or.inr h.2⟩) (fun _ _ h => h)
      (validateWorktree_keeps (fun _ _ => trivial) fun _ _ => trivial)
  | false =>
    refine keeps_call (Or.inr ⟨repo, root, path, rfl, hplaces, rfl, rfl⟩) fun r hr => ?_
    cases r with
    | error e => exact keeps_raise trivial
    | ok done =>
      show Keeps _ _ _ _ _ (if done.returncode = 0 then _ else _)
      split_ifs with hadded
      · exact keeps_ret ⟨rfl, Or.inl ⟨done, hr, hadded⟩⟩
      · exact keeps_raise trivial

theorem createWorktree_keeps (hplaces : env.Places taskId repoPath worktreeRoot repo root path)
    (now : String) :
    Keeps env (.prepare taskId workerId repoPath base worktreeRoot)
      (fun stage' _ => WorktreeCaller.Served env
        (.prepare taskId workerId repoPath base worktreeRoot) stage')
      anyFailure (.rooted root) (createWorktree taskId workerId repo path base now) := by
  unfold createWorktree
  refine keeps_bind (ensureWorktree_keeps hplaces) fun _ stage' hmade => ?_
  obtain ⟨rfl, hmade⟩ := hmade
  refine keeps_call ⟨repo, root, path, now, rfl, hplaces, hmade, rfl⟩ fun r _ => ?_
  cases r with
  | error e => exact keeps_raise trivial
  | ok u =>
    refine keeps_ask ⟨_, rfl, rfl, rfl, rfl, rfl, rfl⟩ fun _ _ => keeps_ret ?_
    -- The row that has just been inserted is the one the caller is served with.
    exact ⟨_, repo, rfl, rfl, rfl, rfl, hplaces.asked, Or.inl ⟨rfl, path, rfl, hmade⟩⟩

/-- The record that is there is reused when it is of the same request. -/
theorem reuseWorktree_keeps (hrepo : env.Resolves repoPath repo) {current : Worktree}
    (hcurrent : current.taskId = taskId) :
    Keeps env (.prepare taskId workerId repoPath base worktreeRoot)
      (fun stage' _ => WorktreeCaller.Served env
        (.prepare taskId workerId repoPath base worktreeRoot) stage')
      anyFailure (.recorded current) (reuseWorktree repo base workerId current) := by
  unfold reuseWorktree
  refine keeps_resolve (fun _ _ => trivial) fun currentRepo hcurrentRepo => ?_
  refine keeps_resolve (fun _ _ => trivial) fun currentPath hcurrentPath => ?_
  split_ifs with hother
  · exact keeps_raise trivial
  · rw [not_or, not_or, not_not, not_not, not_not] at hother
    -- The record is of the same repository, base and worker.
    obtain ⟨rfl, hbase, hworker⟩ := hother
    refine keeps_bind (validateWorktree_keeps (fun _ _ => trivial) fun _ _ => trivial)
      fun _ stage' hvalid => ?_
    obtain ⟨rfl, hvalid⟩ := hvalid
    exact keeps_ret ⟨current, currentRepo, rfl, hcurrent, hworker, hbase, hrepo,
      Or.inr ⟨hcurrentRepo, currentPath, hcurrentPath, hvalid⟩⟩

/-- **Preparing a worktree** keeps the discipline, and serves its caller. -/
theorem prepare_keeps :
    Keeps env (.prepare taskId workerId repoPath base worktreeRoot)
      (fun stage' _ => WorktreeCaller.Served env
        (.prepare taskId workerId repoPath base worktreeRoot) stage')
      anyFailure .start (prepareAgentWorktree taskId workerId repoPath base worktreeRoot) := by
  unfold prepareAgentWorktree
  cases htask : safeTaskId taskId with
  | error e => exact keeps_raise trivial
  | ok safeTask =>
    obtain rfl := safeTaskId_ok htask
    -- The places are resolved before anything is written.
    show Keeps _ _ _ _ _ (resolve repoPath >>= _)
    refine keeps_resolve (fun _ _ => trivial) fun repo hrepo => ?_
    refine rootOf_keeps fun root hroot => ?_
    refine keeps_resolve (fun _ _ => trivial) fun path hpath => ?_
    split_ifs with hwithin
    · exact keeps_raise trivial
    · have hplaces : env.Places safeTask repoPath worktreeRoot repo root path :=
        ⟨htask, hrepo, hroot, hpath, hwithin⟩
      refine keeps_ask trivial fun now _ => ?_
      refine keeps_call ⟨rfl, repo, path, hplaces⟩ fun made _ => ?_
      cases made with
      | error e => exact keeps_raise trivial
      | ok u =>
        refine keeps_ask rfl fun current hcurrent => ?_
        -- A record of the task is reused or refused; without one a worktree is created.
        cases current with
        | some current => exact reuseWorktree_keeps hrepo (hcurrent current rfl)
        | none => exact createWorktree_keeps hplaces _

end Prepare

/-- Only what an outside call has raised ends a check, at its stage. -/
def outsideFailure (env : Env) (stage : Stage) : Stage → Failure → Prop :=
  fun stage' e => stage' = stage ∧ env.Raises e

/-- **The check of a row**: no reason for a valid worktree, and otherwise one
that backs the verdict. -/
theorem invalidReason_keeps (repo : PosixPath) (base : String) (row : Worktree) :
    Keeps env caller (fun stage' reason => stage' = stage
        ∧ (reason = none → env.ValidRow repo row)
        ∧ ∀ message, reason = some message → env.Backs repo base row (.missing message))
      (outsideFailure env stage) stage (invalidReason repo row) := by
  unfold invalidReason
  refine keeps_tryCatch (fun stage' e => stage' = stage
    ∧ (env.Raises e ∨ ∃ message, e = .runtime message ∧ env.Backs repo base row (.missing message)))
    ?_ fun e stage' he => ?_
  -- The path resolves and the worktree is valid, or one of the two steps raises.
  · refine keeps_resolve (fun e he => ⟨rfl, Or.inl he⟩) fun path hpath => ?_
    refine keeps_bind (validateWorktree_keeps (fun e he => ⟨rfl, Or.inl he⟩)
      fun message hmessage => ⟨rfl, Or.inr ⟨message, rfl, .invalid hpath hmessage⟩⟩)
      fun _ stage' hvalid => ?_
    obtain ⟨rfl, hvalid⟩ := hvalid
    refine keeps_ret ⟨rfl, fun _ => ⟨path, hpath, hvalid⟩, fun message hmessage => ?_⟩
    cases hmessage
  · obtain ⟨rfl, he⟩ := he
    -- Only a runtime error is caught, and its message is the reason.
    cases e with
    | runtime message =>
      refine keeps_ret ⟨rfl, (fun hnone => by cases hnone), fun message' hmessage => ?_⟩
      obtain rfl := Option.some.inj hmessage
      rcases he with hraised | ⟨message', hsame, hbacks⟩
      · exact .raised hraised
      · obtain rfl := Failure.runtime.inj hsame
        exact hbacks
    | _ =>
      rcases he with hraised | ⟨message, hsame, -⟩
      · exact keeps_raise ⟨rfl, hraised⟩
      · cases hsame

/-- **One turn of the loop**: the verdict is on the row, and backed. -/
theorem judge_keeps (repo : PosixPath) (base : String) (row : Worktree) :
    Keeps env caller (fun stage' judged => stage' = stage
        ∧ row = judged.1 ∧ env.Backs repo base row judged.2)
      (outsideFailure env stage) stage (judge repo base row) := by
  have hraises : ∀ e, env.Raises e → outsideFailure env stage stage e := fun _ h => ⟨rfl, h⟩
  unfold judge
  refine keeps_git hraises (.verify _) fun branchExists hverify => ?_
  refine keeps_bind (invalidReason_keeps repo base row) fun reason stage' hreason => ?_
  obtain ⟨rfl, hvalid, hmissing⟩ := hreason
  -- The checks in their order: worktree, branch, merge base, merge tree.
  cases reason with
  | some reason => exact keeps_ret ⟨rfl, rfl, hmissing reason rfl⟩
  | none =>
    have hvalid := hvalid rfl
    dsimp only
    split_ifs with hfound
    · exact keeps_ret ⟨rfl, rfl, .noBranch hvalid hverify hfound⟩
    · refine keeps_git hraises (.mergeBase _ _) fun mergeBase hmergeBase => ?_
      have hcompared : env.Compared repo base row mergeBase :=
        ⟨hvalid, ⟨branchExists, hverify, not_not.mp hfound⟩, hmergeBase⟩
      split_ifs with hbase
      · exact keeps_ret ⟨rfl, rfl, .noMergeBase hcompared hbase⟩
      · rw [not_or, not_not] at hbase
        refine keeps_git hraises (.mergeTree _ _ _) fun mergeTree hmergeTree => ?_
        split_ifs with hconflict
        · exact keeps_ret ⟨rfl, rfl, .treeConflict hcompared hbase hmergeTree hconflict⟩
        · exact keeps_ret ⟨rfl, rfl, .ready hcompared hbase hmergeTree hconflict⟩

theorem Verdict.status_ne (verdict : Verdict) : verdict.status ≠ .prepared := by
  cases verdict with
  | mergeReady => exact fun h => by cases h
  | conflict reason => exact fun h => by cases h
  | missing reason => exact fun h => by cases h

/-- The rows that are judged, each with a verdict that is backed. -/
def Env.Judges (env : Env) (repo : PosixPath) (base : String) (rows : List Worktree)
    (judged : List (Worktree × Verdict)) : Prop :=
  List.Forall₂ (fun row entry => row = entry.1 ∧ env.Backs repo base row entry.2) rows judged

theorem judges_rows {repo : PosixPath} {base : String} {rows : List Worktree}
    {judged : List (Worktree × Verdict)} (h : env.Judges repo base rows judged) :
    judged.map Prod.fst = rows := by
  unfold Env.Judges at h
  induction h with
  | nil => rfl
  | cons hentry _ ih => rw [List.map_cons, ih, hentry.1]

theorem judges_backed {repo : PosixPath} {base : String} {rows : List Worktree}
    {judged : List (Worktree × Verdict)} (h : env.Judges repo base rows judged) :
    ∀ entry ∈ judged, env.Backs repo base entry.1 entry.2 := by
  unfold Env.Judges at h
  induction h with
  | nil => exact fun entry hentry => absurd hentry List.not_mem_nil
  | cons hentry _ ih =>
    intro entry hmem
    rcases List.mem_cons.mp hmem with rfl | hmem
    · exact hentry.1 ▸ hentry.2
    · exact ih entry hmem

/-- The rows of a queue are judged one after another. -/
theorem judgeAll_keeps (repo : PosixPath) (base : String) (rows : List Worktree) :
    Keeps env caller (fun stage' judged => stage' = stage ∧ env.Judges repo base rows judged)
      (outsideFailure env stage) stage (rows.mapM (judge repo base)) :=
  keeps_mapM (judge_keeps repo base) rows

/-- **The merge queue** keeps the discipline. -/
theorem mergeQueue_keeps (repoPath : PosixPath) (base : String) :
    Keeps env (.mergeQueue repoPath base) (fun _ _ => True) anyFailure .start
      (mergeQueue repoPath base) := by
  unfold mergeQueue
  refine keeps_resolve (fun _ _ => trivial) fun repo hrepo => ?_
  unfold mergeQueueIn
  refine keeps_ask ⟨rfl, rfl, repo, hrepo, rfl⟩ fun rows _ => ?_
  refine keeps_bind (keeps_mono (fun _ _ h => h) (fun _ _ _ => trivial)
    (judgeAll_keeps repo base rows)) fun judged stage' hjudged => ?_
  obtain ⟨rfl, hjudged⟩ := hjudged
  unfold writeVerdicts
  dsimp only
  split_ifs
  · exact keeps_ret trivial
  · refine keeps_ask trivial fun now _ => ?_
    refine keeps_ask ⟨repo, rows, hrepo, rfl, ?_, ?_⟩ fun _ _ => keeps_ret trivial
    · rw [List.map_map, ← judges_rows hjudged, List.map_map]
      rfl
    · intro update hupdate
      obtain ⟨entry, -, rfl⟩ := List.mem_map.mp hupdate
      exact entry.2.status_ne

theorem program_keeps (caller : WorktreeCaller) :
    Keeps env caller (fun stage' _ => caller.Served env stage') anyFailure .start
      caller.program := by
  cases caller with
  | prepare taskId workerId repoPath base worktreeRoot =>
    exact keeps_bind prepare_keeps fun _ _ hserved => keeps_ret hserved
  | mergeQueue repoPath base =>
    exact keeps_bind (mergeQueue_keeps repoPath base) fun _ _ _ => keeps_ret trivial

end Discipline

/-! ## §8. Any number of callers. -/

section Runs

variable {ι : Type} [DecidableEq ι]

/-- The stages of the callers, as the answers they get lead to them. -/
def remember (env : Env) (stages : ι → Stage) (i : ι) (w : World) (op : Call) : ι → Stage :=
  Function.update stages i (afterCall (stages i) op (exec env op w).1)

/-- Every record is well named, and what a caller has found, inserted or
selected is recorded. -/
structure Isolated (w : World) (stages : ι → Stage) : Prop where
  named : ∀ row ∈ w.records, row.WellNamed
  recorded : ∀ i row, stages i = .recorded row → row.record ∈ w.records
  selected : ∀ i repoPath base rows, stages i = .queued repoPath base rows →
    ∀ row ∈ rows, row.record ∈ w.records ∧ row.repoPath = repoPath ∧ row.base = base

theorem mem_queue {w : World} {repoPath base : String} {row : Worktree}
    (h : row ∈ w.queue repoPath base) :
    row.record ∈ w.records ∧ row.repoPath = repoPath ∧ row.base = base := by
  unfold World.queue at h
  obtain ⟨hrow, hselected⟩ := List.mem_filter.mp ((List.mem_insertionSort queueOrder).mp h)
  rw [decide_eq_true_eq] at hselected
  exact ⟨List.mem_map_of_mem hrow, hselected.1, hselected.2.1⟩

/-- What a call leads its caller to is recorded. -/
theorem recorded_after (env : Env) (op : Call) {w : World} {stage : Stage} {row : Worktree}
    (hstage : stage = .recorded row → row.record ∈ (exec env op w).2.records)
    (h : afterCall stage op (exec env op w).1 = .recorded row) :
    row.record ∈ (exec env op w).2.records := by
  cases op with
  | mkdir root => cases h
  | selectQueue repoPath base => cases h
  | updateStatuses updates now => cases h
  | selectWorktree taskId =>
    cases hfound : w.worktrees.find? taskId with
    | none =>
      simp only [exec, hfound, afterCall] at h
      exact hstage h
    | some found =>
      simp only [exec, hfound, afterCall] at h
      obtain rfl := Stage.recorded.inj h
      exact List.mem_map_of_mem (Table.find?_eq_some.mp hfound).1
  | insertWorktree inserted =>
    cases hinsert : w.worktrees.insert? inserted with
    | none =>
      simp only [exec, hinsert, afterCall] at h hstage ⊢
      exact hstage h
    | some worktrees =>
      simp only [exec, hinsert, afterCall] at h ⊢
      obtain rfl := Stage.recorded.inj h
      exact List.mem_map_of_mem ((Table.mem_insert hinsert).mpr (Or.inr rfl))
  | _ => exact hstage h

/-- A row that is inserted is well named. -/
theorem named_of_permitted {env : Env} {caller : WorktreeCaller} {stage : Stage} {row : Worktree}
    (h : Call.Permitted env caller stage (.insertWorktree row)) : row.WellNamed := by
  cases caller with
  | prepare taskId workerId repoPath base worktreeRoot =>
    obtain ⟨repo, root, path, now, -, hplaces, -, rfl⟩ := h
    exact ⟨hplaces.safe, rfl⟩
  | mergeQueue repoPath base => exact h.elim

theorem isolated_step (env : Env) {w : World} {stages : ι → Stage} (h : Isolated w stages) {i : ι}
    {caller : WorktreeCaller} {op : Call} (hop : op.Permitted env caller (stages i)) :
    Isolated (exec env op w).2 (remember env stages i w op) := by
  obtain ⟨new, hrecords, hnew⟩ := records_exec env op w
  have hkept : ∀ row ∈ w.records, row ∈ (exec env op w).2.records := fun row hrow =>
    hrecords ▸ List.mem_append_left new hrow
  have hselected : ∀ j repoPath base rows, stages j = .queued repoPath base rows →
      ∀ row ∈ rows, row.record ∈ (exec env op w).2.records
        ∧ row.repoPath = repoPath ∧ row.base = base := fun j repoPath base rows hj row hrow =>
    ⟨hkept _ (h.selected j repoPath base rows hj row hrow).1,
      (h.selected j repoPath base rows hj row hrow).2⟩
  refine ⟨fun row hrow => ?_, fun j row hj => ?_, fun j repoPath base rows hj => ?_⟩
  · rw [hrecords] at hrow
    rcases List.mem_append.mp hrow with hrow | hrow
    · exact h.named row hrow
    · obtain ⟨inserted, rfl, rfl⟩ := hnew row hrow
      have hnamed : inserted.WellNamed := named_of_permitted hop
      exact hnamed
  · -- Only the caller that made the call is at another stage.
    unfold remember at hj
    by_cases hij : j = i
    · subst hij
      rw [Function.update_self] at hj
      exact recorded_after env op (fun hstage => hkept _ (h.recorded j row hstage)) hj
    · rw [Function.update_of_ne hij] at hj
      exact hkept _ (h.recorded j row hj)
  · unfold remember at hj
    by_cases hij : j = i
    · subst hij
      rw [Function.update_self] at hj
      cases op with
      | mkdir root => cases hj
      | updateStatuses updates now => cases hj
      | selectWorktree taskId =>
        cases hfound : w.worktrees.find? taskId with
        | none =>
          simp only [exec, hfound, afterCall] at hj
          exact hselected j repoPath base rows hj
        | some found =>
          simp only [exec, hfound, afterCall] at hj
          cases hj
      | insertWorktree inserted =>
        cases hinsert : w.worktrees.insert? inserted with
        | none =>
          simp only [exec, hinsert, afterCall] at hj
          exact hselected j repoPath base rows hj
        | some worktrees =>
          simp only [exec, hinsert, afterCall] at hj
          cases hj
      -- What it has just selected is recorded.
      | selectQueue repoPath' base' =>
        obtain ⟨rfl, rfl, rfl⟩ := Stage.queued.inj hj
        exact fun row hrow => mem_queue hrow
      | _ => exact hselected j repoPath base rows hj
    · rw [Function.update_of_ne hij] at hj
      exact hselected j repoPath base rows hj

/-- Records stay in their places. -/
theorem records_run {α : Type} (env : Env) (later : List ι)
    (c : Config ι worktreeSig Failure α World) :
    c.shared.records <+: (c.run (exec env) later).shared.records := by
  refine Config.run_rel (R := fun w w' : World => w.records <+: w'.records)
    (fun w => List.prefix_refl _) (fun _ _ _ h h' => h.trans h') (fun op w => ?_) later c
  obtain ⟨new, hrecords, -⟩ := records_exec env op w
  rw [hrecords]
  exact List.prefix_append _ _

/-- The branches of well-named records are distinct. -/
theorem branches_nodup {t : Table Worktree.taskId} (h : ∀ row ∈ t.rows, row.WellNamed) :
    (t.rows.map Worktree.branch).Nodup := by
  have hbranches : t.rows.map Worktree.branch = (t.rows.map Worktree.taskId).map branchOf := by
    rw [List.map_map]
    exact List.map_congr_left fun row hrow => (h row hrow).2
  rw [hbranches]
  exact t.nodup.map fun _ _ => branchOf_injective

/-- The callers with their stages. -/
def modesOf (callers : ι → WorktreeCaller) (stages : ι → Stage) : ι → WorktreeCaller × Stage :=
  fun i => (callers i, stages i)

theorem update_modesOf (env : Env) (callers : ι → WorktreeCaller) (stages : ι → Stage) (i : ι)
    (w : World) (op : Call) :
    Function.update (modesOf callers stages) i
        (callers i, afterCall (stages i) op (exec env op w).1)
      = modesOf callers (remember env stages i w op) := by
  funext j
  unfold modesOf remember
  by_cases hij : j = i
  · subst hij
    rw [Function.update_self, Function.update_self]
  · rw [Function.update_of_ne hij, Function.update_of_ne hij]

/-- What holds of a record holds of its row, which may have another status by
now. -/
theorem stored_of_record {w : World} {row : Worktree} (h : row.record ∈ w.records)
    {P : Worktree → Prop} (hrow : P row.record) :
    ∃ stored ∈ w.worktrees.rows, P stored.record := by
  obtain ⟨stored, hstored, hsame⟩ := List.mem_map.mp h
  exact ⟨stored, hstored, hsame ▸ hrow⟩

/-- **Agents work apart from each other.**  Any number of callers prepare
worktrees and sort the merge queue, from the empty table on, in any order of
their statements and commands and whatever the clock, the file system and git
answer.  At every moment each record is of a safe task and on the branch of
that task, so that no two records share a branch; what is recorded keeps its
place and all but its status for ever; the next call of every caller is one
that its own arguments permit; a merge queue sets the statuses of recorded rows
of its own repository and base; and a caller whose worktree is prepared has a
record of its task, its worker, its base and its repository, and git has added
that worktree or answered for it. -/
theorem worktrees_isolated (env : Env) (callers : ι → WorktreeCaller) (earlier later : List ι) :
    let start : Config ι worktreeSig Failure Unit World :=
      ⟨.empty, fun i => (callers i).program⟩
    let c := start.run (exec env) earlier
    let stages := Config.history (exec env) (remember env) (fun _ => .start) start earlier
    (∀ row ∈ c.shared.worktrees.rows, row.WellNamed)
      ∧ (c.shared.worktrees.rows.map Worktree.branch).Nodup
      ∧ c.shared.records <+: (start.run (exec env) (earlier ++ later)).shared.records
      ∧ (∀ i op, (c.callers i).next? = some op → op.Permitted env (callers i) (stages i))
      ∧ (∀ i repoPath base updates now, callers i = .mergeQueue repoPath base →
          (c.callers i).next? = some (.updateStatuses updates now) →
          ∃ repo, env.Resolves repoPath repo
            ∧ ∀ update ∈ updates, ∃ row ∈ c.shared.worktrees.rows, row.taskId = update.2
              ∧ row.repoPath = repo.text ∧ row.base = base)
      ∧ ∀ i taskId workerId repoPath base worktreeRoot,
          callers i = .prepare taskId workerId repoPath base worktreeRoot →
          c.callers i = .ret () →
          ∃ row ∈ c.shared.worktrees.rows, row.taskId = taskId ∧ row.workerId = workerId
            ∧ row.base = base ∧ ∃ repo, env.Resolves repoPath repo ∧ env.Stands repo row := by
  intro start c stages
  have hstart : Config.Governed (worktreeTypestate env) (fun m => m.1.Served env m.2)
      (fun _ => True) (fun w m g => m = modesOf callers g ∧ Isolated w g) start
      (fun _ => Stage.start) := by
    refine ⟨modesOf callers fun _ => .start,
      ⟨rfl, fun row hrow => absurd hrow List.not_mem_nil, ?_, ?_⟩, fun i => ?_⟩
    · intro i row h
      cases h
    · intro i repoPath base rows h
      cases h
    · refine Prog.wp_mono (T := worktreeTypestate env) (fun m u h => ?_) (fun _ _ _ => trivial) _ _
        (program_keeps (callers i))
      show m.1.Served env m.2
      rw [h.1]
      exact h.2
  obtain ⟨m, ⟨rfl, hisolated⟩, hkeeps⟩ := Config.run_typestate (P := fun _ _ _ => True)
    (worktreeTypestate env) (fun w m g => m = modesOf callers g ∧ Isolated w g)
    (fun w m g i op hw hop _ => by
      obtain ⟨rfl, hw⟩ := hw
      exact ⟨answers_exec env op w, update_modesOf env callers g i w op, isolated_step env hw hop⟩)
    earlier start _ hstart (Config.respects_true start earlier)
  -- The discipline, read at the call a caller is about to make.
  have hpermitted : ∀ i op, (c.callers i).next? = some op →
      op.Permitted env (callers i) (stages i) := by
    intro i op hop
    have hi := hkeeps i
    cases hprogram : c.callers i with
    | ret a => rw [hprogram] at hop; cases hop
    | raise e => rw [hprogram] at hop; cases hop
    | call op' k =>
      rw [hprogram] at hop hi
      cases hop
      exact (Prog.wp_call.mp hi).1
  -- What the invariant says of the records, read off the rows.
  have hnamed : ∀ row ∈ c.shared.worktrees.rows, row.WellNamed := fun row hrow =>
    hisolated.named row.record (List.mem_map_of_mem hrow)
  refine ⟨hnamed, branches_nodup hnamed, ?_, hpermitted, ?_, ?_⟩
  · rw [Config.run_append]
    exact records_run env later c
  · intro i repoPath base updates now hi hop
    have hmay := hpermitted i _ hop
    rw [hi] at hmay
    obtain ⟨repo, rows, hrepo, hstage, hids, -⟩ := hmay
    refine ⟨repo, hrepo, fun update hupdate => ?_⟩
    -- The ids of the updates are those of the rows that the caller has selected.
    have hid : update.2 ∈ rows.map Worktree.taskId := hids ▸ List.mem_map_of_mem hupdate
    obtain ⟨row, hrow, hrowId⟩ := List.mem_map.mp hid
    obtain ⟨hrecorded, hrowRepo, hrowBase⟩ :=
      hisolated.selected i repo.text base rows hstage row hrow
    exact stored_of_record hrecorded
      (P := fun stored => stored.taskId = update.2 ∧ stored.repoPath = repo.text
        ∧ stored.base = base) ⟨hrowId, hrowRepo, hrowBase⟩
  · intro i taskId workerId repoPath base worktreeRoot hi hreturned
    -- The postcondition of a program that has returned.
    have hserved := hkeeps i
    rw [show (start.run (exec env) earlier).callers i = .ret () from hreturned] at hserved
    have hserved := Prog.wp_ret.mp hserved
    unfold modesOf at hserved
    dsimp only at hserved
    rw [hi] at hserved
    obtain ⟨row, repo, hstage, htask, hworker, hbase, hrepo, hstands⟩ := hserved
    exact stored_of_record (hisolated.recorded i row hstage)
      (P := fun stored => stored.taskId = taskId ∧ stored.workerId = workerId
        ∧ stored.base = base ∧ ∃ repo, env.Resolves repoPath repo ∧ env.Stands repo stored)
      ⟨htask, hworker, hbase, repo, hrepo, hstands⟩

end Runs

/-! ## §9. A merge queue that runs alone. -/

section Alone

variable {α β : Type}

/-- A row after the verdicts of a merge queue. -/
def settle (now : String) (judged : List (Worktree × Verdict)) (row : Worktree) : Worktree :=
  match judged.find? fun entry => entry.1.taskId = row.taskId with
  | some entry => row.withStatus entry.2.status now
  | none => row

/-- The statuses that are set one after another, said at once. -/
theorem foldl_setStatus (now : String) (updates : List (Status × String)) :
    (updates.map Prod.snd).Nodup → ∀ t : Table Worktree.taskId,
      (updates.foldl (setStatus now) t).rows = t.rows.map fun row =>
        match updates.find? fun update => update.2 = row.taskId with
        | some update => row.withStatus update.1 now
        | none => row := by
  induction updates with
  | nil => exact fun _ t => (List.map_id' t.rows).symm
  | cons update updates ih =>
    intro hnodup t
    rw [List.map_cons, List.nodup_cons] at hnodup
    rw [List.foldl_cons, ih hnodup.2]
    unfold setStatus Table.update
    rw [List.map_map]
    refine List.map_congr_left fun row _ => ?_
    by_cases hrow : update.2 = row.taskId
    · -- No later update is of the same row.
      have hlater : updates.find? (fun later => later.2 = row.taskId) = none := by
        rw [List.find?_eq_none]
        intro later hlater heq
        rw [decide_eq_true_eq] at heq
        exact hnodup.1 (hrow ▸ heq ▸ List.mem_map_of_mem hlater)
      have hset : Worktree.taskId (row.withStatus update.1 now) = row.taskId := rfl
      simp only [Function.comp, hrow, decide_true, if_true, hset, hlater, List.find?_cons]
    · have hother : ¬ row.taskId = update.2 := fun h => hrow h.symm
      simp only [Function.comp, hother, hrow, decide_false, Bool.false_eq_true, if_false,
        List.find?_cons]

theorem queue_nodup (w : World) (repoPath base : String) :
    ((w.queue repoPath base).map Worktree.taskId).Nodup := by
  unfold World.queue
  have hperm := (List.perm_insertionSort queueOrder (w.worktrees.rows.filter fun row =>
    row.repoPath = repoPath ∧ row.base = base
      ∧ row.status ∈ [.prepared, .ready, .conflict])).map Worktree.taskId
  refine hperm.nodup_iff.mpr ?_
  exact w.worktrees.nodup.sublist (List.filter_sublist.map Worktree.taskId)

/-- A merge queue that has not settled has left the table as it was. -/
theorem queue_run (env : Env) {repoPath : PosixPath} {base : String} {Q : Stage → α → Prop}
    {E : Stage → Failure → Prop} {stage : Stage} {p : Script α}
    (h : Keeps env (.mergeQueue repoPath base) Q E stage p) (w : World) :
    ∃ stage', (stage' = .settled ∨ (p.run (exec env) w).2.worktrees = w.worktrees)
      ∧ (∀ a, (p.run (exec env) w).1 = .ok a → Q stage' a)
      ∧ ∀ e, (p.run (exec env) w).1 = .error e → E stage' e := by
  let I : World → WorktreeCaller × Stage → Prop := fun w' m =>
    m.1 = .mergeQueue repoPath base ∧ (m.2 = .settled ∨ w'.worktrees = w.worktrees)
  have hstep : ∀ w' m op, I w' m → (worktreeTypestate env).may m op →
      (worktreeTypestate env).sees op (exec env op w').1
        ∧ I (exec env op w').2 ((worktreeTypestate env).after m op (exec env op w').1) := by
    intro w' m op hI hmay
    obtain ⟨caller, stage'⟩ := m
    obtain ⟨rfl, hI⟩ := hI
    refine ⟨answers_exec env op w', rfl, ?_⟩
    cases op with
    | mkdir root => exact hmay.elim
    | selectWorktree taskId => exact hmay.elim
    | insertWorktree row => exact hmay.elim
    | recordAudit subjectId action outcome details => exact hmay.elim
    | updateStatuses updates now => exact Or.inl rfl
    -- Nothing is settled when the rows are selected.
    | selectQueue selected base' =>
      obtain ⟨rfl, -⟩ := hmay
      rcases hI with hI | hI
      · cases hI
      · exact Or.inr hI
    | _ => exact hI
  obtain ⟨m, ⟨-, hI⟩, hQ, hE⟩ :=
    Prog.wp_run_post (T := worktreeTypestate env) hstep p _ w ⟨rfl, Or.inr rfl⟩ h
  exact ⟨m.2, hI, fun a ha => (hQ a ha).2, fun e he => (hE e he).2⟩

/-- The row of an update is the row of a verdict. -/
theorem find?_updates (judged : List (Worktree × Verdict)) (taskId : String) :
    (judged.map fun entry => (entry.2.status, entry.1.taskId)).find?
        (fun update => update.2 = taskId)
      = (judged.find? fun entry => entry.1.taskId = taskId).map
          fun entry => (entry.2.status, entry.1.taskId) := by
  rw [List.find?_map]
  rfl

/-- What `merge_queue` writes once the branches are judged. -/
theorem settle_rows (now : String) {judged : List (Worktree × Verdict)} {w : World}
    {repoPath base : String} (hjudged : judged.map Prod.fst = w.queue repoPath base) :
    ((judged.map fun entry => (entry.2.status, entry.1.taskId)).foldl (setStatus now)
        w.worktrees).rows = w.worktrees.rows.map (settle now judged) := by
  have hnodup : ((judged.map fun entry => (entry.2.status, entry.1.taskId)).map Prod.snd).Nodup := by
    have hids : (judged.map fun entry => (entry.2.status, entry.1.taskId)).map Prod.snd
        = (w.queue repoPath base).map Worktree.taskId := by
      rw [← hjudged, List.map_map, List.map_map]
      rfl
    rw [hids]
    exact queue_nodup w repoPath base
  rw [foldl_setStatus now _ hnodup]
  refine List.map_congr_left fun row _ => ?_
  rw [find?_updates]
  unfold settle
  cases judged.find? fun entry => entry.1.taskId = row.taskId with
  | none => rfl
  | some entry => rfl

/-- A row that is not in the queue stays as it is. -/
theorem settle_missing (now : String) {judged : List (Worktree × Verdict)} {w : World}
    {repoPath base : String} (hjudged : judged.map Prod.fst = w.queue repoPath base)
    {row : Worktree} (hrow : row ∈ w.worktrees.rows) (hmissing : row.status = .missing) :
    settle now judged row = row := by
  have hnone : judged.find? (fun entry => entry.1.taskId = row.taskId) = none := by
    rw [List.find?_eq_none]
    intro entry hentry heq
    rw [decide_eq_true_eq] at heq
    have hqueued : entry.1 ∈ w.queue repoPath base := hjudged ▸ List.mem_map_of_mem hentry
    unfold World.queue at hqueued
    obtain ⟨hstored, hselected⟩ :=
      List.mem_filter.mp ((List.mem_insertionSort queueOrder).mp hqueued)
    have hsame : entry.1 = row := w.worktrees.eq_of_key_eq hstored hrow heq
    rw [decide_eq_true_eq, hsame, hmissing] at hselected
    exact absurd hselected.2.2 (by decide)
  unfold settle
  rw [hnone]

theorem queue_congr {w w' : World} (h : w'.worktrees = w.worktrees) (repoPath base : String) :
    w'.queue repoPath base = w.queue repoPath base := by
  unfold World.queue
  rw [h]

/-- What is written of the verdicts on a queue. -/
theorem run_writeVerdicts (env : Env) {judged : List (Worktree × Verdict)} {w : World}
    {repoPath base : String} (hjudged : judged.map Prod.fst = w.queue repoPath base) :
    ∃ n w', (writeVerdicts judged).run (exec env) w = (.ok judged, w')
      ∧ w'.worktrees.rows = w.worktrees.rows.map (settle (env.now n).isoformat judged) := by
  by_cases hnone : (judged.map fun entry => (entry.2.status, entry.1.taskId)) = []
  · obtain rfl := List.map_eq_nil_iff.mp hnone
    exact ⟨w.asked, w, rfl, (List.map_id' w.worktrees.rows).symm⟩
  · refine ⟨w.asked, { w.next with
      worktrees := (judged.map fun entry => (entry.2.status, entry.1.taskId)).foldl
        (setStatus (env.now w.asked).isoformat) w.worktrees }, ?_, settle_rows _ hjudged⟩
    unfold writeVerdicts
    dsimp only
    rw [if_neg hnone]
    rfl

/-- What a merge queue does in a repository: it ends with what an outside call
has raised and the table as it was, or with the verdicts, backed and written. -/
theorem run_mergeQueueIn (env : Env) (repo : PosixPath) (base : String) (w : World) :
    (∃ e w', (mergeQueueIn base repo).run (exec env) w = (.error e, w') ∧ env.Raises e
        ∧ w'.worktrees = w.worktrees)
      ∨ ∃ judged w' n, (mergeQueueIn base repo).run (exec env) w = (.ok judged, w')
          ∧ env.Judges repo base (w.queue repo.text base) judged
          ∧ w'.worktrees.rows
              = w.worktrees.rows.map (settle (env.now n).isoformat judged) := by
  have hselected : (mergeQueueIn base repo).run (exec env) w
      = ((w.queue repo.text base).mapM (judge repo base) >>= writeVerdicts).run (exec env) w := rfl
  have hkeeps : Keeps env (.mergeQueue repo base) _ _ .start
      ((w.queue repo.text base).mapM (judge repo base)) := judgeAll_keeps repo base _
  obtain ⟨stage', hsame, hok, herr⟩ := queue_run env hkeeps w
  rw [hselected, Prog.run_bind]
  -- Judging only looks, so the table is the one the rows were selected from.
  cases hrun : ((w.queue repo.text base).mapM (judge repo base)).run (exec env) w with
  | mk result w' =>
    rw [hrun] at hsame hok herr
    cases result with
    | error e =>
      obtain ⟨rfl, hraises⟩ := herr e rfl
      exact Or.inl ⟨e, w', rfl, hraises, hsame.resolve_left fun h => by cases h⟩
    | ok judged =>
      obtain ⟨rfl, hjudged⟩ := hok judged rfl
      have hsame : w'.worktrees = w.worktrees := hsame.resolve_left fun h => by cases h
      have hrows : judged.map Prod.fst = w'.queue repo.text base := by
        rw [judges_rows hjudged, queue_congr hsame]
      obtain ⟨n, w'', hwritten, hsettled⟩ := run_writeVerdicts env hrows
      rw [hsame] at hsettled
      exact Or.inr ⟨judged, w'', n, hwritten, hjudged, hsettled⟩

/-- **A merge queue settles all of its rows or none.**  A run ends with an
exception only when the file system or git has raised it, and then the table is
as it was.  Otherwise the rows that were in the queue of the repository asked
for are judged, each once and in its order, with verdicts that git and the file
system have answered for, and the verdict of each is written; the rows outside
the queue are as they were, and so are those that were missing. -/
theorem merge_queue_settles (env : Env) (repoPath : PosixPath) (base : String) (w : World) :
    let result := (mergeQueue repoPath base).run (exec env) w
    (∀ e, result.1 = .error e → env.Raises e ∧ result.2.worktrees = w.worktrees)
      ∧ (∀ judged, result.1 = .ok judged → ∃ repo n,
          env.resolve w.asked repoPath = .ok repo
            ∧ judged.map Prod.fst = w.queue repo.text base
            ∧ (∀ entry ∈ judged, env.Backs repo base entry.1 entry.2)
            ∧ result.2.worktrees.rows
                = w.worktrees.rows.map (settle (env.now n).isoformat judged))
      ∧ ∀ row ∈ w.worktrees.rows, row.status = .missing → row ∈ result.2.worktrees.rows := by
  intro result
  -- The run begins with the resolution of the path asked for, which is its only way to a
  -- repository.
  have herror : ∀ e, env.resolve w.asked repoPath = .error e → result = (.error e, w.next) := by
    intro e hresolve
    show (resolve repoPath >>= mergeQueueIn base).run (exec env) w = _
    unfold resolve
    rw [Prog.call_bind, Prog.run_call]
    simp only [exec, hresolve]
    rfl
  have hok : ∀ repo, env.resolve w.asked repoPath = .ok repo →
      result = (mergeQueueIn base repo).run (exec env) w.next := by
    intro repo hresolve
    show (resolve repoPath >>= mergeQueueIn base).run (exec env) w = _
    unfold resolve
    rw [Prog.call_bind, Prog.run_call]
    simp only [exec, hresolve]
    rfl
  cases hresolve : env.resolve w.asked repoPath with
  | error e =>
    rw [herror e hresolve]
    refine ⟨fun e' he' => ?_, (fun judged h => by cases h), fun row hrow _ => hrow⟩
    cases he'
    exact ⟨.resolve ⟨w.asked, hresolve⟩, rfl⟩
  | ok repo =>
    rw [hok repo hresolve]
    rcases run_mergeQueueIn env repo base w.next with
      ⟨e, w', hrun, hraises, hsame⟩ | ⟨judged, w', n, hrun, hjudged, hsettled⟩
    · rw [hrun]
      refine ⟨fun e' he' => ?_, (fun judged h => by cases h), fun row hrow _ => ?_⟩
      · cases he'
        exact ⟨hraises, hsame⟩
      · show row ∈ w'.worktrees.rows
        rw [hsame]
        exact hrow
    · rw [hrun]
      refine ⟨(fun e h => by cases h), fun judged' h => ?_, fun row hrow hmissing => ?_⟩
      · cases h
        exact ⟨repo, n, rfl, judges_rows hjudged, judges_backed hjudged, hsettled⟩
      · show row ∈ w'.worktrees.rows
        rw [hsettled]
        exact List.mem_map.mpr
          ⟨row, hrow, settle_missing _ (judges_rows hjudged) hrow hmissing⟩

end Alone

end Hmn.Worktrees
