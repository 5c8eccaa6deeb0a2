/-
  Hmn.Store.Calls — the atomic calls of the control plane and the world
  they act on.

  Every call is one database transaction, one clock reading, one drawn
  identifier, one file operation, one subprocess or one request to the
  network provider.  The programs of the source (`Py`) are trees of these
  calls; `exec` says what each call does.

  What the outside world answers (clock readings, identifiers, provider
  replies, exit codes) is an `Env`: one stream per kind, indexed by how many
  answers of that kind were used so far.  A theorem for every `Env` is a
  theorem for every answer at every point of every run.
-/
import Hmn.Framework.Interleave
import Hmn.Store.Store

namespace Hmn

open Framework

/-! ## §1. The world. -/

/-- What is at a path. -/
inductive FileState where
  | missing
  | text (content : String)
  /-- A directory, or a file that is not UTF-8 text or may not be read. -/
  | unreadable
  deriving DecidableEq

/-- `NetworkNodeRecord`, without the raw reply that nothing here reads. -/
structure NetworkNodeRecord where
  providerNodeId : String
  hostname : String
  ip : String
  tags : List String := []
  online : Bool := false
  deriving DecidableEq

/-- How a subprocess ended. -/
inductive CommandOutcome where
  | completed (returncode : Int) (stdout stderr : String)
  | timedOut
  /-- It could not be started, or its output is not text. -/
  | raised (exception : PyError)
  deriving DecidableEq

/-- What a run did outside the database. -/
inductive Effect where
  | writeText (path content : String)
  | setNodeTags (providerNodeId : String) (tags : List String)
  | runCommand (command : String)
  | runSsh (port target command : String)
  deriving DecidableEq

/-- The answers of the outside world. -/
structure Env where
  now : Nat → Timestamp
  uuid : Nat → String
  /-- `str(Path(p).expanduser())`; a home directory may be unknown. -/
  expanduser : String → Except String String
  /-- Creating the parent directories and writing a file may be refused. -/
  write : Nat → Except String Unit
  /-- `get_network_provider()`: an error, no provider, or its name. -/
  provider : Nat → Except String (Option String)
  listNodes : Nat → Except String (List NetworkNodeRecord)
  setNodeTags : Nat → Except String Unit
  command : Nat → CommandOutcome
  /-- How an ssh command ended and how many milliseconds it took. -/
  ssh : Nat → CommandOutcome × Nat

/-- A quiet outside world: the clock ticks once a reading, identifiers are
twelve hexadecimal digits, no provider is configured, every write and every
command succeeds. -/
def Env.quiet : Env where
  now n := n
  uuid n := String.ofList (List.replicate (11 - n) '0' ++ List.replicate (n + 1) 'a')
  expanduser := .ok
  write _ := .ok ()
  provider _ := .ok none
  listNodes _ := .ok []
  setNodeTags _ := .ok ()
  command _ := .completed 0 "" ""
  ssh _ := (.completed 0 "" "", 0)

/-- The database, the files, and how many answers were used so far. -/
structure World where
  store : Store
  files : String → FileState
  clock : Nat := 0
  uuids : Nat := 0
  writes : Nat := 0
  requests : Nat := 0
  commands : Nat := 0
  effects : List Effect := []

/-- `read_text` with universal newlines: `\r\n` and `\r` become `\n`. -/
def universalNewlines : List Char → List Char
  | [] => []
  | '\r' :: '\n' :: cs => '\n' :: universalNewlines cs
  | '\r' :: cs => '\n' :: universalNewlines cs
  | c :: cs => c :: universalNewlines cs

/-- A text with line feeds only is read as it is. -/
theorem universalNewlines_eq {cs : List Char} (h : '\r' ∉ cs) : universalNewlines cs = cs := by
  fun_induction universalNewlines cs with
  | case1 => rfl
  | case2 cs => exact absurd List.mem_cons_self h
  | case3 cs => exact absurd List.mem_cons_self h
  | case4 c cs _ _ ih => rw [ih fun hcs => h (List.mem_cons_of_mem c hcs)]

/-! ## §2. The calls. -/

inductive Call where
  | now
  | uuid4
  | loadApprovalRequest (approvalId : String)
  | saveApprovalRequest (approval : ApprovalRequest)
  | dispatchApprovedTaskRequest (approvalId : String)
  | dispatchApprovedComponentAction (approvalId : String)
  | recordAudit (eventType subjectType subjectId action outcome : String) (details : Dict)
  | insertNotification (notification : Notification)
  | loadTask (taskId : String)
  | listTasks
  | saveTask (task : Task)
  | claimNextTask (nodeId executor : String) (leaseSeconds : Int)
  | expireStuckTasks (olderThanSeconds : Option Int)
  | completeTask (taskId : String) (exitCode : Int) (stdout stderr : String)
  | loadNode (nodeId : String)
  | listNodes
  | saveNode (node : Node)
  | latestNodeHeartbeatFacts (nodeId : String)
  | loadToken (value : String)
  | saveToken (token : JoinToken)
  | expanduser (path : String)
  | exists_ (path : String)
  | readText (path : String)
  | writeText (path content : String)
  | runCommand (command : String)
  | getNetworkProvider
  | listNetworkNodes
  | setNodeTags (providerNodeId : String) (tags : List String)
  | runSsh (port target command : String)

/-- What each call answers with. -/
@[reducible] def Call.Res : Call → Type
  | .now => Timestamp
  | .uuid4 => String
  | .loadApprovalRequest _ => Option ApprovalRequest
  | .saveApprovalRequest _ => Unit
  | .dispatchApprovedTaskRequest _ => Except PyError (Option Task)
  | .dispatchApprovedComponentAction _ => Option ComponentRun
  | .recordAudit .. => Unit
  | .insertNotification _ => Except PyError Unit
  | .loadTask _ => Option Task
  | .listTasks => List Task
  | .saveTask _ => Unit
  | .claimNextTask .. => Option Task
  | .expireStuckTasks _ => List String
  | .completeTask .. => Option Task
  | .loadNode _ => Option Node
  | .listNodes => List Node
  | .saveNode _ => Unit
  | .latestNodeHeartbeatFacts _ => Dict
  | .loadToken _ => Option JoinToken
  | .saveToken _ => Unit
  | .expanduser _ => Except PyError String
  | .exists_ _ => Bool
  | .readText _ => Except PyError String
  | .writeText .. => Except PyError Unit
  | .runCommand _ => CommandOutcome
  | .getNetworkProvider => Except PyError (Option String)
  | .listNetworkNodes => Except PyError (List NetworkNodeRecord)
  | .setNodeTags .. => Except PyError Unit
  | .runSsh .. => CommandOutcome × Nat

/-- The signature of the control plane's programs. -/
abbrev callSig : Sig := ⟨Call, Call.Res⟩

/-- A program of the control plane. -/
abbrev Py (α : Type) := Prog callSig PyError α

namespace Py

/-- One call. -/
def call (op : Call) : Py (Call.Res op) := Prog.lift (S := callSig) op

/-- Raise what a call answered with, if it answered with an exception. -/
def orRaise {α : Type} : Except PyError α → Py α
  | .ok a => .ret a
  | .error e => .raise e

@[simp] theorem orRaise_ok {α : Type} (a : α) : orRaise (.ok a) = .ret a := rfl

@[simp] theorem orRaise_error {α : Type} (e : PyError) :
    (orRaise (.error e) : Py α) = .raise e := rfl

@[simp] theorem call_bind {α : Type} (op : Call) (f : Call.Res op → Py α) :
    (call op >>= f) = Prog.call (S := callSig) op f := rfl

end Py

namespace World

/-- The `j`-th clock reading from now on. -/
def reading (env : Env) (w : World) (j : Nat) : Timestamp := env.now (w.clock + j)

/-- The world after `n` clock readings, with a new store. -/
def after (w : World) (n : Nat) (s : Store) : World :=
  { w with store := s, clock := w.clock + n }

@[simp] theorem after_store (w : World) (n : Nat) (s : Store) : (w.after n s).store = s := rfl

@[simp] theorem after_files (w : World) (n : Nat) (s : Store) :
    (w.after n s).files = w.files := rfl

@[simp] theorem after_effects (w : World) (n : Nat) (s : Store) :
    (w.after n s).effects = w.effects := rfl

end World

/-- An error of the outside world reaches the caller as an exception. -/
def raising {α : Type} (exception : String → PyError) : Except String α → Except PyError α
  | .ok a => .ok a
  | .error message => .error (exception message)

/-- What each call does. -/
def exec (env : Env) : Prog.Exec callSig World
  | .now, w => (w.reading env 0, w.after 1 w.store)
  | .uuid4, w => (env.uuid w.uuids, { w with uuids := w.uuids + 1 })
  | .loadApprovalRequest id, w => (w.store.approvals.find? id, w)
  | .saveApprovalRequest a, w =>
      ((), w.after 0 { w.store with approvals := w.store.approvals.upsert a })
  | .dispatchApprovedTaskRequest id, w =>
      let (r, s) := w.store.dispatchApprovedTaskRequest id (env.uuid w.uuids) (w.reading env)
      (r, { w.after 3 s with uuids := w.uuids + 1 })
  | .dispatchApprovedComponentAction id, w =>
      let (r, s) := w.store.dispatchApprovedComponentAction id (w.reading env)
      (r, w.after 2 s)
  | .recordAudit eventType subjectType subjectId action outcome details, w =>
      ((), w.after 1 (w.store.addAudit
        { eventType, subjectType, subjectId, action, outcome, details,
          createdAt := w.reading env 0 }))
  | .insertNotification n, w =>
      match w.store.notifications.insert? n with
      | none => (.error .integrity, w)
      | some notifications => (.ok (), w.after 0 { w.store with notifications })
  | .loadTask id, w => (w.store.tasks.find? id, w)
  | .listTasks, w => (w.store.tasks.rows.insertionSort (fun a b => b.createdAt ≤ a.createdAt), w)
  | .saveTask t, w => ((), w.after 0 { w.store with tasks := w.store.tasks.upsert t })
  | .claimNextTask nodeId executor leaseSeconds, w =>
      let (r, s) := w.store.claimNextTask nodeId executor leaseSeconds (w.reading env 0)
      (r, w.after 1 s)
  | .expireStuckTasks olderThan, w =>
      let (r, s) := w.store.expireStuckTasks olderThan (w.reading env 0)
      (r, w.after 1 s)
  | .completeTask taskId exitCode stdout stderr, w =>
      let (r, s) := w.store.completeTask taskId exitCode stdout stderr (w.reading env 0)
      (r, w.after 1 s)
  | .loadNode id, w => (w.store.nodes.find? id, w)
  | .listNodes, w => (w.store.nodes.rows.insertionSort (fun a b => a.hostname ≤ b.hostname), w)
  | .saveNode n, w => ((), w.after 0 { w.store with nodes := w.store.nodes.upsert n })
  | .latestNodeHeartbeatFacts id, w => (w.store.latestNodeHeartbeatFacts id, w)
  | .loadToken value, w => (w.store.tokens.find? value, w)
  | .saveToken t, w => ((), w.after 0 { w.store with tokens := w.store.tokens.upsert t })
  | .expanduser path, w => (raising .runtime (env.expanduser path), w)
  | .exists_ path, w => ((decide (w.files path ≠ .missing) : Bool), w)
  | .readText path, w =>
      match w.files path with
      | .text content => (.ok (String.ofList (universalNewlines content.toList)), w)
      | _ => (.error (.unreadable path), w)
  | .writeText path content, w =>
      match env.write w.writes with
      | .error message => (.error (.os message), { w with writes := w.writes + 1 })
      | .ok () =>
        (.ok (), { w with
          files := Function.update w.files path (.text content)
          writes := w.writes + 1
          effects := w.effects ++ [.writeText path content] })
  | .runCommand command, w =>
      (env.command w.commands,
        { w with commands := w.commands + 1, effects := w.effects ++ [.runCommand command] })
  | .getNetworkProvider, w =>
      (raising .networkProvider (env.provider w.requests), { w with requests := w.requests + 1 })
  | .listNetworkNodes, w =>
      (raising .networkProvider (env.listNodes w.requests), { w with requests := w.requests + 1 })
  | .setNodeTags providerNodeId tags, w =>
      (raising .networkProvider (env.setNodeTags w.requests),
        { w with
          requests := w.requests + 1
          effects := match env.setNodeTags w.requests with
            | .ok () => w.effects ++ [.setNodeTags providerNodeId tags]
            | .error _ => w.effects })
  | .runSsh port target command, w =>
      (env.ssh w.commands,
        { w with
          commands := w.commands + 1
          effects := w.effects ++ [.runSsh port target command] })

section Run

open Py

variable {env : Env} {α β : Type}

theorem run_call_bind (op : Call) (f : Call.Res op → Py α) (w : World) :
    (call op >>= f).run (exec env) w = (f (exec env op w).1).run (exec env) (exec env op w).2 := rfl

theorem run_orRaise_bind (r : Except PyError α) (f : α → Py β) (w : World) :
    (orRaise r >>= f).run (exec env) w =
      match r with
      | .ok a => (f a).run (exec env) w
      | .error e => (.error e, w) := by
  cases r <;> rfl

variable {ok : Call → Prop}

theorem calls_orRaise (r : Except PyError α) : (orRaise r).Calls ok := by
  cases r <;> simp

theorem calls_call_bind {op : Call} {f : Call.Res op → Py α} :
    (call op >>= f).Calls ok ↔ ok op ∧ ∀ r, (f r).Calls ok := by
  rw [call_bind, Prog.calls_call]

theorem calls_when {c : Bool} {p : Py Unit} (h : p.Calls ok) : (Prog.when c p).Calls ok := by
  cases c
  · exact Prog.calls_ret
  · exact h

end Run

end Hmn
