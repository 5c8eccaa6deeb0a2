/-
  Hmn.Worker.Rotation — does the rotation of a fingerprint lock a node out?

  The controller and the node's file both hold the fingerprint.  The script
  asks the controller to replace it and then rewrites the file.  A request or
  its answer may be lost, a program of the script may fail, and the script may
  be stopped between any two of its calls; other callers use the controller
  meanwhile.  Every run of the script starts from the file.

  Main results: `rotation_usable_iff` — after any number of steps the node can
  still authenticate, or is about to rewrite its file, exactly when no step
  lost a rotation that the controller had carried out; a node that cannot
  authenticate is refused whatever it asks for, and never recovers by itself.
-/
import Hmn.Nodes.Fingerprints
import Hmn.Worker.EnvFile
import Hmn.Worker.Signature

namespace Hmn.Worker

open Framework

/-! ## §1. The controller and the node. -/

/-- The store of the controller, the file of the node, and what the run of the
script that is going on still has to do. -/
structure Link where
  world : World
  file : String
  script : Script Unit

/-- The fingerprint that a run of the script starts with. -/
def fileFingerprint (file : String) : Option String :=
  ((sourceEnv file).bind (valueOf fingerprintName)).filter (· ≠ "")

/-- What the timer starts; the script ends at once when the file holds no
fingerprint. -/
def startScript (host : Host) (node : NodeEnv) (file : String) : Script Unit :=
  match fileFingerprint file with
  | none => throw .failed
  | some fingerprint => runOnce host { node with fingerprint }

/-- The request that a call sends to the controller. -/
def requestOf : WorkerCall → Option NodeRequest
  | .heartbeat nodeId fingerprint facts => some (.heartbeat nodeId (some { fingerprint, facts }))
  | .nextTask nodeId fingerprint version =>
      some (.nextTask nodeId (some { fingerprint, workerProtocolVersion := some version }))
  | .rotateFingerprint nodeId fingerprint newFingerprint =>
      some (.rotateFingerprint nodeId (some { fingerprint, newFingerprint }))
  | .submitResult taskId fingerprint exitCode stdout stderr =>
      some (.taskResult taskId (some { fingerprint, exitCode, stdout, stderr }))
  | _ => none

/-- What a call does when it reaches the controller or the file. -/
def carriedOut (env : Env) (op : WorkerCall) (s : Link) : Link :=
  match op with
  | .writeFingerprintEnv new => { s with file := writeFingerprintEnv s.file new }
  | op =>
    match requestOf op with
    | none => s
    | some request => { s with world := (request.program.run (exec env) s.world).2 }

/-- The controller does what the call asks for. -/
def accepts (env : Env) (op : WorkerCall) (w : World) : Bool :=
  match requestOf op with
  | none => true
  | some request => (request.program.run (exec env) w).1.isOk

/-- What can happen to a call: it may not get through, and its answer may not
get back.  Anything may answer the calls other than the two of a rotation. -/
structure Fate where
  reaches : Bool
  returns : Bool
  answers : (op : WorkerCall) → op.Res

/-- What the script gets as an answer. -/
def Fate.answer (fate : Fate) (env : Env) (w : World) : (op : WorkerCall) → op.Res
  | .rotateFingerprint nodeId fingerprint new =>
      fate.reaches && fate.returns && accepts env (.rotateFingerprint nodeId fingerprint new) w
  | .writeFingerprintEnv _ => fate.reaches && fate.returns
  | op => fate.answers op

/-- One step. -/
inductive Step where
  /-- The timer starts the script; a run that is going on is dropped. -/
  | start
  /-- The run that is going on is stopped. -/
  | stop
  /-- The next call of the script. -/
  | call (fate : Fate)
  /-- Another caller of the controller. -/
  | others (program : Py Unit)

/-- What a step does. -/
def step (env : Env) (host : Host) (node : NodeEnv) (s : Link) : Step → Link
  | .start => { s with script := startScript host node s.file }
  | .stop => { s with script := throw .failed }
  | .others program => { s with world := (program.run (exec env) s.world).2 }
  | .call fate =>
    match s.script with
    | .ret _ => s
    | .raise _ => s
    | .call op k =>
      { (if fate.reaches then carriedOut env op s else s) with
        script := k (fate.answer env s.world op) }

/-- A run. -/
def runSteps (env : Env) (host : Host) (node : NodeEnv) (s : Link) (steps : List Step) : Link :=
  steps.foldl (step env host node) s

/-! ## §2. Who can authenticate. -/

/-- The row of the node. -/
def nodeRow (node : NodeEnv) (w : World) : Option Node := w.store.nodes.find? node.nodeId

/-- The node is managed under this fingerprint. -/
def Managed (node : NodeEnv) (fingerprint : String) (w : World) : Prop :=
  ∃ row, nodeRow node w = some row ∧ row.status = .managed ∧ row.fingerprint = fingerprint

/-- A run of the script that starts from the file authenticates. -/
def Authenticates (node : NodeEnv) (s : Link) : Prop :=
  ∃ fingerprint, fileFingerprint s.file = some fingerprint
    ∧ Managed node (jsonValue fingerprint) s.world

/-- The script is about to rewrite the file. -/
def Rewriting (s : Link) : Prop := ∃ new, s.script.next? = some (.writeFingerprintEnv new)

/-- The node can authenticate, or will as soon as the file is rewritten. -/
def Usable (node : NodeEnv) (s : Link) : Prop := Authenticates node s ∨ Rewriting s

/-- A step that loses a rotation: the controller carries it out and the answer
does not get back, or the script does not get to rewrite the file.  Nothing is
lost when the fingerprint stays the same. -/
def Loses (env : Env) (node : NodeEnv) (s : Link) : Step → Prop
  | .others _ => False
  | .start => Rewriting s ∧ ¬ Authenticates node s
  | .stop => Rewriting s ∧ ¬ Authenticates node s
  | .call fate =>
    match s.script.next? with
    | some (.rotateFingerprint nodeId fingerprint new) =>
        fate.reaches = true ∧ accepts env (.rotateFingerprint nodeId fingerprint new) s.world = true
          ∧ fate.returns = false ∧ new ≠ fingerprint
    | some (.writeFingerprintEnv _) => fate.reaches = false ∧ ¬ Authenticates node s
    | _ => False

/-- The steps that are looked at: another caller leaves the node managed under
its fingerprint, and a fingerprint that is asked for stands for itself between
double quotes. -/
def Regular (env : Env) (node : NodeEnv) (s : Link) : Step → Prop
  | .others program => ∀ fingerprint, Managed node fingerprint s.world →
      Managed node fingerprint (program.run (exec env) s.world).2
  | .call _ => ∀ nodeId fingerprint new,
      s.script.next? = some (.rotateFingerprint nodeId fingerprint new) → Plain new
  | _ => True

/-- A condition that every step of a run meets in the state that it finds. -/
def Throughout (env : Env) (host : Host) (node : NodeEnv) (P : Link → Step → Prop) :
    Link → List Step → Prop
  | _, [] => True
  | s, e :: steps => P s e ∧ Throughout env host node P (step env host node s e) steps

/-! ## §3. What the script does in a rotation. -/

/-- A call that is not one of the two of a rotation. -/
def WorkerCall.Quiet : WorkerCall → Prop
  | .rotateFingerprint .. | .writeFingerprintEnv _ => False
  | _ => True

/-- Where a run of the script is. -/
inductive Phase where
  | before
  /-- The controller has answered that it has replaced the fingerprint. -/
  | rotated (new : String)
  | ended

/-- The calls of a run that started with the fingerprint of `node`. -/
abbrev rotationTypestate (node : NodeEnv) : Typestate workerSig where
  Mode := Phase
  may m op :=
    match m, op with
    | .before, .rotateFingerprint nodeId fingerprint _ =>
        nodeId = node.nodeId ∧ fingerprint = jsonValue node.fingerprint
    | .rotated new, op => ∃ fingerprint, op = .writeFingerprintEnv fingerprint
        ∧ jsonValue fingerprint = new
    | _, op => op.Quiet
  after m op r :=
    match m, op, r with
    | .before, .rotateFingerprint _ _ new, r => if r = true then .rotated new else .ended
    | .rotated _, _, _ => .ended
    | m, _, _ => m
  sees _ _ := True

/-- A run does not end between the two calls. -/
def Phase.Settled (m : Phase) : Prop := ∀ new, m ≠ .rotated new

/-- What a run still does, from a phase on. -/
def Proceeds {α : Type} (node : NodeEnv) (m : Phase) (p : Script α) : Prop :=
  p.wp (rotationTypestate node) (fun m _ => m.Settled) (fun m _ => m.Settled) m

section Proceeds

variable {α β : Type} {node : NodeEnv} {m : Phase}

theorem settled_before : Phase.before.Settled := fun _ h => by cases h

theorem settled_ended : Phase.ended.Settled := fun _ h => by cases h

theorem proceeds_ret (h : m.Settled) (a : α) : Proceeds node m (.ret a : Script α) :=
  Prog.wp_ret.mpr h

theorem proceeds_raise (h : m.Settled) (e : Exit) : Proceeds node m (.raise e : Script α) :=
  Prog.wp_raise.mpr h

/-- Quiet calls leave the phase as it is. -/
theorem proceeds_quiet (hm : m.Settled) {p : Script α} (hp : p.Calls WorkerCall.Quiet) :
    Proceeds node m p := by
  refine Prog.wp_of_calls (fun op hop => ?_) (fun _ => hm) (fun _ => hm) hp
  cases m with
  | rotated new => exact (hm new rfl).elim
  | before =>
    cases op with
    | rotateFingerprint nodeId fingerprint new => exact hop.elim
    | writeFingerprintEnv new => exact hop.elim
    | _ => exact ⟨trivial, fun _ => rfl⟩
  | ended => exact ⟨hop, fun _ => rfl⟩

/-- The phase is the same when a quiet program goes on. -/
theorem proceeds_quiet_bind (hm : m.Settled) {p : Script α} (hp : p.Calls WorkerCall.Quiet)
    {f : α → Script β} (hf : ∀ a, Proceeds node m (f a)) : Proceeds node m (p >>= f) := by
  refine @Prog.wp_bind _ _ _ _ (rotationTypestate node) _ _ p f m ?_
  refine Prog.wp_of_calls (fun op hop => ?_) hf (fun _ => hm) hp
  cases m with
  | rotated new => exact (hm new rfl).elim
  | before =>
    cases op with
    | rotateFingerprint nodeId fingerprint new => exact hop.elim
    | writeFingerprintEnv new => exact hop.elim
    | _ => exact ⟨trivial, fun _ => rfl⟩
  | ended => exact ⟨hop, fun _ => rfl⟩

theorem quiet_of_passive {op : WorkerCall} (h : op.Passive) : op.Quiet := by
  cases op with
  | rotateFingerprint nodeId fingerprint new => cases h
  | writeFingerprintEnv new => cases h
  | _ => trivial

theorem submitResult_quiet (env : NodeEnv) (taskId : String) (exitCode : Int)
    (stdout stderr : String) :
    (submitResult env taskId exitCode stdout stderr).Calls WorkerCall.Quiet :=
  Prog.calls_mono (fun _ => quiet_of_passive) (submitResult_passive env taskId exitCode stdout stderr)

theorem execute_quiet (host : Host) (env : NodeEnv) (command : String) :
    (execute host env command).Calls WorkerCall.Quiet := by
  unfold execute
  cases host.refusal (commandLine env command) with
  | some message => exact Prog.calls_ret
  | none =>
    refine calls_call_bind.mpr ⟨trivial, fun result => ?_⟩
    cases taskTimeout env with
    | none => exact Prog.calls_ret
    | some seconds =>
      dsimp only
      split_ifs
      · exact Prog.calls_ret
      · exact Prog.calls_ret

theorem executeTask_quiet (host : Host) (env : NodeEnv) (taskId command : String) :
    (executeTask host env taskId command).Calls WorkerCall.Quiet := by
  unfold executeTask
  refine calls_call_bind.mpr ⟨trivial, fun _ => Prog.calls_bind calls_check fun _ => ?_⟩
  refine calls_call_bind.mpr ⟨trivial, fun _ => Prog.calls_bind calls_check fun _ => ?_⟩
  refine Prog.calls_bind (execute_quiet host env command) fun result => ?_
  refine Prog.calls_bind calls_orFail fun _ => Prog.calls_bind calls_orFail fun _ => ?_
  exact submitResult_quiet env taskId _ _ _

/-- **The rotation**: the file is rewritten as soon as the controller answers
that it has replaced the fingerprint. -/
theorem rotateFingerprintFromTask_proceeds (taskId new : String) {f : Unit → Script Unit}
    (hf : ∀ a, (f a).Calls WorkerCall.Quiet) :
    Proceeds node .before (rotateFingerprintFromTask node taskId new >>= f) := by
  unfold rotateFingerprintFromTask
  refine Prog.wp_call.mpr ⟨⟨rfl, rfl⟩, fun answer _ => ?_⟩
  cases answer with
  | false => exact proceeds_raise settled_ended .failed
  | true =>
    refine Prog.wp_call.mpr ⟨⟨new, rfl, rfl⟩, fun answer _ => ?_⟩
    cases answer with
    | false => exact proceeds_raise settled_ended .failed
    | true =>
      exact proceeds_quiet settled_ended (Prog.calls_bind (submitResult_quiet _ taskId _ _ _) hf)

theorem act_proceeds (host : Host) (taskId command : String) :
    Proceeds node .before (act host node taskId command) := by
  unfold act
  split_ifs with hrotate henable
  · exact rotateFingerprintFromTask_proceeds taskId _ fun _ => Prog.calls_raise
  · exact proceeds_quiet settled_before
      (Prog.calls_bind (submitResult_quiet node taskId _ _ _) fun _ => Prog.calls_raise)
  · exact proceeds_quiet settled_before (executeTask_quiet host node taskId command)

theorem handleResponse_proceeds (host : Host) (response : String) :
    Proceeds node .before (handleResponse host node response) := by
  unfold handleResponse
  cases readTaskId host response with
  | none => exact proceeds_raise settled_before _
  | some taskId =>
    show Proceeds node .before (if taskId = "" then throw .done else _ : Script Unit)
    split_ifs with hnone
    · exact proceeds_raise settled_before _
    · cases readAssignment host response taskId with
      | none => exact proceeds_raise settled_before _
      | some a =>
        show Proceeds node .before (if signatureMismatch host node a = true then _ else _ : Script Unit)
        split_ifs with hmismatch
        · exact proceeds_quiet settled_before
            (Prog.calls_bind (submitResult_quiet node a.taskId _ _ _) fun _ => Prog.calls_raise)
        · exact act_proceeds host a.taskId a.command

/-- **A run of the script** asks for the fingerprint it started with to be
replaced, and rewrites the file when that was done. -/
theorem runOnce_proceeds (host : Host) (node : NodeEnv) :
    Proceeds node .before (runOnce host node) := by
  unfold runOnce
  refine proceeds_quiet_bind settled_before
    (Prog.calls_mono (fun _ => quiet_of_passive) (heartbeat_passive node)) fun _ => ?_
  split_ifs with hbeacon
  · exact proceeds_raise settled_before _
  · unfold pollTask
    refine proceeds_quiet_bind settled_before ?_ fun response => handleResponse_proceeds host response
    exact calls_call_bind.mpr ⟨trivial, fun _ => Prog.calls_bind calls_orFail fun _ => Prog.calls_ret⟩

end Proceeds

/-! ## §4. What the controller does. -/

section Controller

variable {env : Env} {node : NodeEnv} {s s' : Link} {w w' : World} {fingerprint : String}

theorem managed_unique {other : String} (h : Managed node fingerprint w)
    (h' : Managed node other w) : fingerprint = other := by
  obtain ⟨row, hrow, -, rfl⟩ := h
  obtain ⟨row', hrow', -, rfl⟩ := h'
  rw [Option.some.inj (hrow.symm.trans hrow')]

theorem managed_congr (h : w'.store.nodes = w.store.nodes) :
    Managed node fingerprint w' ↔ Managed node fingerprint w := by
  unfold Managed nodeRow
  rw [h]

theorem authenticates_congr (hfile : s'.file = s.file)
    (hnodes : s'.world.store.nodes = s.world.store.nodes) :
    Authenticates node s' ↔ Authenticates node s := by
  unfold Authenticates
  rw [hfile]
  exact exists_congr fun fingerprint => and_congr_right fun _ => managed_congr hnodes

/-- With a file that is read, to authenticate is to be managed under its
fingerprint. -/
theorem authenticates_iff (hfile : fileFingerprint s.file = some fingerprint) :
    Authenticates node s ↔ Managed node (jsonValue fingerprint) s.world := by
  constructor
  · rintro ⟨other, hother, hmanaged⟩
    rw [Option.some.inj (hfile.symm.trans hother)]
    exact hmanaged
  · exact fun hmanaged => ⟨fingerprint, hfile, hmanaged⟩

theorem requireManaged_keeps (nodeId fingerprint : String) :
    (requireManaged nodeId fingerprint).Calls fun op : Call => op.writesNodes = false := by
  refine Hmn.calls_call_bind.mpr ⟨rfl, fun row => ?_⟩
  cases row with
  | none => exact Prog.calls_raise
  | some row =>
    dsimp only
    split_ifs
    · exact Prog.calls_raise
    · exact Prog.calls_raise
    · exact Prog.calls_raise
    · exact Prog.calls_ret

/-- A request other than a rotation leaves the nodes as they are. -/
theorem request_nodes {request : NodeRequest}
    (h : ∀ nodeId body, request ≠ .rotateFingerprint nodeId body) (w : World) :
    (request.program.run (exec env) w).2.store.nodes = w.store.nodes := by
  refine run_nodes ?_ w
  cases request with
  | rotateFingerprint nodeId body => exact absurd rfl (h nodeId body)
  | heartbeat nodeId body =>
    cases body with
    | none => exact Prog.calls_raise
    | some body =>
      refine Prog.calls_bind (requireManaged_keeps _ _) fun row => ?_
      refine Prog.calls_bind (Hmn.calls_orRaise _) fun compatible => ?_
      exact Hmn.calls_call_bind.mpr ⟨rfl, fun _ => Prog.calls_ret⟩
  | nextTask nodeId body =>
    cases body with
    | none => exact Prog.calls_raise
    | some body =>
      refine Prog.calls_bind (requireManaged_keeps _ _) fun row => ?_
      split
      · exact Prog.calls_raise
      · refine Hmn.calls_call_bind.mpr ⟨rfl, fun _ => Hmn.calls_call_bind.mpr ⟨rfl, fun task => ?_⟩⟩
        cases task with
        | none => exact Prog.calls_ret
        | some task => exact Prog.calls_ret
  | taskResult taskId body =>
    cases body with
    | none => exact Prog.calls_raise
    | some body =>
      refine Hmn.calls_call_bind.mpr ⟨rfl, fun task => ?_⟩
      cases task with
      | none => exact Prog.calls_raise
      | some task =>
        refine Prog.calls_bind (requireManaged_keeps _ _) fun row => ?_
        refine Hmn.calls_call_bind.mpr ⟨rfl, fun updated => ?_⟩
        cases updated with
        | none => exact Prog.calls_raise
        | some updated => exact Prog.calls_ret

theorem carriedOut_quiet {op : WorkerCall} (h : op.Quiet) :
    (carriedOut env op s).file = s.file
      ∧ (carriedOut env op s).world.store.nodes = s.world.store.nodes := by
  cases op with
  | rotateFingerprint nodeId fingerprint new => exact h.elim
  | writeFingerprintEnv new => exact h.elim
  | heartbeat nodeId fingerprint facts => exact ⟨rfl, request_nodes (fun _ _ h => by cases h) _⟩
  | nextTask nodeId fingerprint version => exact ⟨rfl, request_nodes (fun _ _ h => by cases h) _⟩
  | submitResult taskId fingerprint exitCode stdout stderr =>
    exact ⟨rfl, request_nodes (fun _ _ h => by cases h) _⟩
  | _ => exact ⟨rfl, rfl⟩

theorem carriedOut_write (text : String) :
    carriedOut env (.writeFingerprintEnv text) s
      = { s with file := writeFingerprintEnv s.file text } := by
  rw [carriedOut]

/-- The controller replaces the fingerprint when it is the one it holds. -/
theorem rotate_carriedOut {old new : String} (h : Managed node fingerprint s.world) :
    (accepts env (.rotateFingerprint node.nodeId old new) s.world = true ↔ fingerprint = old)
      ∧ (carriedOut env (.rotateFingerprint node.nodeId old new) s).file = s.file
      ∧ (fingerprint = old →
        Managed node new (carriedOut env (.rotateFingerprint node.nodeId old new) s).world)
      ∧ (fingerprint ≠ old →
        (carriedOut env (.rotateFingerprint node.nodeId old new) s).world = s.world) := by
  obtain ⟨row, hrow, hstatus, rfl⟩ := h
  have hnodeId : row.nodeId = node.nodeId := Table.key_of_find? hrow
  -- The endpoint compares the stored fingerprint and nothing else.
  by_cases hold : row.fingerprint = old
  · have hok := @rotateFingerprint_rotates s.world env _ ⟨old, new⟩ _ hrow hold
    have hnodes := @rotateFingerprint_nodes s.world env _ ⟨old, new⟩ _ hrow hold
    refine ⟨iff_of_true ?_ hold, rfl, fun _ => ?_, fun hne => absurd hold hne⟩
    · show ((rotateFingerprint node.nodeId ⟨old, new⟩).run (exec env) s.world).1.isOk = true
      rw [hok]
      rfl
    · refine ⟨withFingerprint new row, ?_, hstatus, rfl⟩
      show Table.find? (((rotateFingerprint node.nodeId ⟨old, new⟩).run (exec env)
        s.world).2.store.nodes) node.nodeId = _
      rw [hnodes, Table.find?_upsert]
      exact if_pos hnodeId
  · have hrefused := rotateFingerprint_refuses env s.world node.nodeId ⟨old, new⟩ (by
      rintro ⟨found, hfound, hfingerprint⟩
      obtain rfl := Option.some.inj (hrow.symm.trans hfound)
      exact hold hfingerprint)
    obtain ⟨e, he⟩ := hrefused
    refine ⟨iff_of_false ?_ hold, rfl, fun heq => absurd heq hold, fun _ => ?_⟩
    · show ¬ ((rotateFingerprint node.nodeId ⟨old, new⟩).run (exec env) s.world).1.isOk = true
      rw [he]
      exact Bool.false_ne_true
    · show ((rotateFingerprint node.nodeId ⟨old, new⟩).run (exec env) s.world).2 = s.world
      rw [he]

/-- The text that a program reads from its input is the text itself, when it
is on one line. -/
theorem eq_of_jsonValue {text value : String} (h : jsonValue text = value)
    (hvalue : '\n' ∉ value.toList) : text = value := by
  have hmem : ∀ cs : List Char, '\r' ∈ cs → '\n' ∈ universalNewlines cs := by
    intro cs
    fun_induction universalNewlines cs with
    | case1 => exact fun h => absurd h List.not_mem_nil
    | case2 cs ih => exact fun _ => List.mem_cons_self
    | case3 cs hnewline ih => exact fun _ => List.mem_cons_self
    | case4 c cs _ hreturn ih =>
      intro h
      rcases List.mem_cons.mp h with h | h
      · exact absurd h.symm (by simpa using hreturn)
      · exact List.mem_cons_of_mem _ (ih h)
  have hreturn : '\r' ∉ text.toList := by
    intro hr
    have hnewline := hmem _ hr
    rw [← h, jsonValue, String.toList_ofList] at hvalue
    exact hvalue hnewline
  rw [← h, jsonValue, universalNewlines_eq hreturn, String.ofList_toList]

end Controller

/-! ## §5. What every step keeps. -/

/-- What holds between the script, the file and the controller in a phase. -/
def Coherent (node : NodeEnv) (s : Link) : Phase → Prop
  | .before => ∃ fingerprint, fileFingerprint s.file = some fingerprint
      ∧ Proceeds { node with fingerprint } .before s.script
  | .rotated new => Plain new ∧ Managed node new s.world
      ∧ ∃ fingerprint, Proceeds { node with fingerprint } (.rotated new) s.script
  | .ended => ∃ fingerprint, Proceeds { node with fingerprint } .ended s.script

/-- The file can be read and rewritten, the node is managed, and the script is
in some phase. -/
structure Inv (node : NodeEnv) (s : Link) : Prop where
  lines : NewlinesOnly s.file
  sourced : ∃ vs, sourceEnv s.file = some vs
  managed : ∃ fingerprint, Managed node fingerprint s.world
  phase : ∃ m, Coherent node s m

section Step

variable {env : Env} {host : Host} {node : NodeEnv} {s : Link}

/-- Between the two calls of a rotation the script is about to rewrite the
file, and in no other phase. -/
theorem next?_rewriting {p : Script Unit} {m : Phase} (h : Proceeds node m p) :
    (∃ new, p.next? = some (.writeFingerprintEnv new)) ↔ ¬ m.Settled := by
  constructor
  · rintro ⟨new, hnext⟩ hm
    cases p with
    | ret a => cases hnext
    | raise e => cases hnext
    | call op k =>
      obtain rfl := Option.some.inj hnext
      have hmay := (Prog.wp_call.mp h).1
      -- Only in the middle of a rotation may the script write the file.
      cases m with
      | before => exact hmay.elim
      | rotated new => exact hm new rfl
      | ended => exact hmay.elim
  · intro hm
    cases m with
    | before => exact absurd settled_before hm
    | ended => exact absurd settled_ended hm
    | rotated new =>
      cases p with
      -- There it cannot have ended, so the call that is next is the write.
      | ret a => exact absurd rfl (Prog.wp_ret.mp h new)
      | raise e => exact absurd rfl (Prog.wp_raise.mp h new)
      | call op k =>
        obtain ⟨fingerprint, rfl, -⟩ := (Prog.wp_call.mp h).1
        exact ⟨fingerprint, rfl⟩

theorem usable_iff_settled {fingerprint : String} {m : Phase} (hm : m.Settled)
    (h : Proceeds { node with fingerprint } m s.script) :
    Usable node s ↔ Authenticates node s :=
  or_iff_left fun hrewriting => (next?_rewriting h).mp hrewriting hm

/-- What a step keeps, and when the node stays usable. -/
def Kept (env : Env) (host : Host) (node : NodeEnv) (s : Link) (e : Step) : Prop :=
  Inv node (step env host node s e)
    ∧ (Usable node (step env host node s e) ↔ Usable node s ∧ ¬ Loses env node s e)

/-- A step after which the file and the nodes are as they were, outside a
rotation. -/
theorem kept_same (h : Inv node s) {e : Step} {m : Phase} {fingerprint : String} (hm : m.Settled)
    (hfile : (step env host node s e).file = s.file)
    (hnodes : (step env host node s e).world.store.nodes = s.world.store.nodes)
    (hproceeds : Proceeds { node with fingerprint } m (step env host node s e).script)
    (hbefore : m = .before → fileFingerprint s.file = some fingerprint)
    (hiff : Authenticates node s ↔ Usable node s ∧ ¬ Loses env node s e) :
    Kept env host node s e := by
  refine ⟨⟨?_, ?_, ?_, m, ?_⟩, ?_⟩
  · rw [hfile]
    exact h.lines
  · rw [hfile]
    exact h.sourced
  · obtain ⟨stored, hstored⟩ := h.managed
    exact ⟨stored, (managed_congr hnodes).mpr hstored⟩
  · cases m with
    | rotated new => exact absurd rfl (hm new)
    | before => exact ⟨fingerprint, hfile ▸ hbefore rfl, hproceeds⟩
    | ended => exact ⟨fingerprint, hproceeds⟩
  · rw [usable_iff_settled hm hproceeds, authenticates_congr hfile hnodes, hiff]

/-- A call that is not one of the rotation's. -/
theorem kept_quiet (h : Inv node s) {op : WorkerCall} {k : op.Res → Script Unit}
    (hscript : s.script = .call op k) (hop : op.Quiet) {m : Phase} {fingerprint : String}
    (hm : m.Settled) (hproceeds : Proceeds { node with fingerprint } m s.script)
    (hbefore : m = .before → fileFingerprint s.file = some fingerprint) (fate : Fate) :
    Kept env host node s (.call fate) := by
  have hstep : step env host node s (.call fate)
      = { (if fate.reaches then carriedOut env op s else s) with
          script := k (fate.answer env s.world op) } := by
    unfold step
    rw [hscript]
  have hsame : (step env host node s (.call fate)).file = s.file
      ∧ (step env host node s (.call fate)).world.store.nodes = s.world.store.nodes := by
    rw [hstep]
    split_ifs
    · exact carriedOut_quiet hop
    · exact ⟨rfl, rfl⟩
  -- Only the two calls of a rotation can lose one.
  have hloses : ¬ Loses env node s (.call fate) := by
    unfold Loses
    rw [hscript]
    cases op with
    | rotateFingerprint nodeId fingerprint new => exact hop.elim
    | writeFingerprintEnv new => exact hop.elim
    | _ => exact fun h => h
  refine kept_same h hm hsame.1 hsame.2 ?_ hbefore ?_
  · rw [hscript] at hproceeds
    rw [hstep]
    have hnext := (Prog.wp_call.mp hproceeds).2 (fate.answer env s.world op) trivial
    cases m with
    | rotated new => exact absurd rfl (hm new)
    | ended => exact hnext
    | before =>
      cases op with
      | rotateFingerprint nodeId fingerprint new => exact hop.elim
      | writeFingerprintEnv new => exact hop.elim
      | _ => exact hnext
  · rw [usable_iff_settled hm hproceeds, and_iff_left hloses]

/-- **The request to replace the fingerprint.**  The file stays as it is; the
controller holds the new fingerprint when it was asked with its own one. -/
theorem kept_rotate (h : Inv node s) {nodeId old new fingerprint : String}
    {k : Bool → Script Unit} (hscript : s.script = .call (.rotateFingerprint nodeId old new) k)
    (hfile : fileFingerprint s.file = some fingerprint)
    (hproceeds : Proceeds { node with fingerprint } .before s.script) (hplain : Plain new)
    (fate : Fate) : Kept env host node s (.call fate) := by
  have hproceeds' := hproceeds
  rw [hscript] at hproceeds'
  obtain ⟨⟨hnodeId, hold⟩, hnext⟩ := Prog.wp_call.mp hproceeds'
  obtain rfl : nodeId = node.nodeId := hnodeId
  obtain rfl : old = jsonValue fingerprint := hold
  obtain ⟨stored, hstored⟩ := h.managed
  obtain ⟨haccepts, hkeeps, hreplaces, hrefuses⟩ :=
    @rotate_carriedOut env node s stored (jsonValue fingerprint) new hstored
  -- Before the call the file has a fingerprint, and the node authenticates if the controller has
  -- it too.
  have hauth : Authenticates node s ↔ stored = jsonValue fingerprint :=
    (authenticates_iff hfile).trans ⟨fun hm => managed_unique hstored hm, fun heq => heq ▸ hstored⟩
  have husable : Usable node s ↔ stored = jsonValue fingerprint :=
    (usable_iff_settled settled_before hproceeds).trans hauth
  have hstep : step env host node s (.call fate)
      = { (if fate.reaches then
            carriedOut env (.rotateFingerprint node.nodeId (jsonValue fingerprint) new) s else s) with
          script := k (fate.reaches && fate.returns && accepts env
            (.rotateFingerprint node.nodeId (jsonValue fingerprint) new) s.world) } := by
    unfold step
    rw [hscript]
    rfl
  have hloses : Loses env node s (.call fate)
      ↔ fate.reaches = true ∧ stored = jsonValue fingerprint ∧ fate.returns = false
        ∧ new ≠ jsonValue fingerprint := by
    unfold Loses
    rw [hscript]
    show (fate.reaches = true ∧ accepts env _ s.world = true ∧ _) ↔ _
    rw [haccepts]
  -- Without effect, or without an answer, the run is over.
  have hover : (fate.reaches && fate.returns && accepts env
      (.rotateFingerprint node.nodeId (jsonValue fingerprint) new) s.world) = false →
      Proceeds { node with fingerprint } .ended (step env host node s (.call fate)).script := by
    intro hanswer
    rw [hstep, hanswer]
    exact hnext false trivial
  by_cases hreaches : fate.reaches = true
  · by_cases heq : stored = jsonValue fingerprint
    · have hworld : (step env host node s (.call fate)).world
          = (carriedOut env (.rotateFingerprint node.nodeId (jsonValue fingerprint) new) s).world := by
        rw [hstep, if_pos hreaches]
      have hfile' : (step env host node s (.call fate)).file = s.file := by
        rw [hstep, if_pos hreaches]
        exact hkeeps
      have hmanaged : Managed node new (step env host node s (.call fate)).world := by
        rw [hworld]
        exact hreplaces heq
      have hlines : NewlinesOnly (step env host node s (.call fate)).file := by
        rw [hfile']
        exact h.lines
      have hsourced : ∃ vs, sourceEnv (step env host node s (.call fate)).file = some vs := by
        rw [hfile']
        exact h.sourced
      -- The controller has replaced the fingerprint. With the answer the script goes on to the
      -- file.
      by_cases hreturns : fate.returns = true
      · have hscript' : Proceeds { node with fingerprint } (.rotated new)
            (step env host node s (.call fate)).script := by
          rw [hstep, hreaches, hreturns, haccepts.mpr heq]
          exact hnext true trivial
        refine ⟨⟨hlines, hsourced, ⟨new, hmanaged⟩, .rotated new, hplain, hmanaged, fingerprint,
          hscript'⟩, iff_of_true (.inr ?_) ⟨husable.mpr heq, fun hlost => ?_⟩⟩
        · exact (next?_rewriting hscript').mpr fun hsettled => hsettled new rfl
        · exact absurd (hreturns.symm.trans (hloses.mp hlost).2.2.1) (by decide)
      · have hreturns : fate.returns = false := Bool.eq_false_iff.mpr hreturns
        have hscript' := hover (by rw [hreturns, Bool.and_false, Bool.false_and])
        refine ⟨⟨hlines, hsourced, ⟨new, hmanaged⟩, .ended, fingerprint, hscript'⟩, ?_⟩
        rw [usable_iff_settled settled_ended hscript', hloses,
          authenticates_iff (by rw [hfile']; exact hfile)]
        -- Without it the run ends with the old file, which still serves if the new fingerprint is
        -- the old one.
        constructor
        · intro hjson
          exact ⟨husable.mpr heq, fun hlost => hlost.2.2.2 (managed_unique hmanaged hjson)⟩
        · rintro ⟨-, hkept⟩
          have hnew : new = jsonValue fingerprint := by
            by_contra hne
            exact hkept ⟨hreaches, heq, hreturns, hne⟩
          exact hnew ▸ hmanaged
    -- The controller holds another fingerprint and refuses.
    · have hanswer : accepts env
          (.rotateFingerprint node.nodeId (jsonValue fingerprint) new) s.world = false :=
        Bool.eq_false_iff.mpr fun haccepted => heq (haccepts.mp haccepted)
      refine kept_same h settled_ended ?_ ?_ (hover ?_) (fun heq => by cases heq) ?_
      · rw [hstep, if_pos hreaches]
        exact hkeeps
      · rw [hstep, if_pos hreaches]
        exact congrArg (fun w : World => w.store.nodes) (hrefuses heq)
      · rw [hanswer, Bool.and_false]
      · rw [hauth, husable]
        exact iff_of_false heq fun hboth => heq hboth.1
  -- The request does not reach the controller.
  · have hnot : fate.reaches = false := Bool.eq_false_iff.mpr hreaches
    refine kept_same h settled_ended ?_ ?_ (hover ?_) (fun heq => by cases heq) ?_
    · rw [hstep, if_neg hreaches]
    · rw [hstep, if_neg hreaches]
    · rw [hnot, Bool.false_and, Bool.false_and]
    · rw [hauth, husable]
      exact (and_iff_left fun hlost => hreaches (hloses.mp hlost).1).symm

/-- **The file is rewritten**, or the program that does it fails and the file
stays as it is. -/
theorem kept_write (h : Inv node s) {text new fingerprint : String} {k : Bool → Script Unit}
    (hscript : s.script = .call (.writeFingerprintEnv text) k) (hplain : Plain new)
    (hmanaged : Managed node new s.world)
    (hproceeds : Proceeds { node with fingerprint } (.rotated new) s.script) (fate : Fate) :
    Kept env host node s (.call fate) := by
  have hrewriting : Rewriting s := ⟨text, by rw [hscript]; rfl⟩
  have hproceeds' := hproceeds
  rw [hscript] at hproceeds'
  obtain ⟨⟨other, hother, hjson⟩, hnext⟩ := Prog.wp_call.mp hproceeds'
  obtain rfl : text = other := WorkerCall.writeFingerprintEnv.inj hother
  obtain rfl : text = new := eq_of_jsonValue hjson fun hnewline =>
    absurd (hplain.2 '\n' hnewline).2 (by decide)
  have hstep : step env host node s (.call fate)
      = { (if fate.reaches then carriedOut env (.writeFingerprintEnv text) s else s) with
          script := k (fate.reaches && fate.returns) } := by
    unfold step
    rw [hscript]
    rfl
  have hloses : Loses env node s (.call fate) ↔ fate.reaches = false ∧ ¬ Authenticates node s := by
    unfold Loses
    rw [hscript]
    rfl
  have hover : Proceeds { node with fingerprint } .ended (step env host node s (.call fate)).script := by
    rw [hstep]
    exact hnext _ trivial
  by_cases hreaches : fate.reaches = true
  · have hfile : (step env host node s (.call fate)).file = writeFingerprintEnv s.file text := by
      rw [hstep, if_pos hreaches, carriedOut_write]
    have hworld : (step env host node s (.call fate)).world = s.world := by
      rw [hstep, if_pos hreaches, carriedOut_write]
    obtain ⟨vs, hvs⟩ := h.sourced
    have hsourced := sourceEnv_write hplain h.lines hvs
    -- A plain fingerprint is read back as it was written.
    have hread : fileFingerprint (writeFingerprintEnv s.file text) = some text := by
      unfold fileFingerprint
      rw [hsourced, Option.bind_some, (valueOf_withFingerprintVariable text vs).1]
      exact Option.filter_some_pos (decide_eq_true hplain.1)
    refine ⟨⟨?_, ?_, ⟨text, hworld ▸ hmanaged⟩, .ended, fingerprint, hover⟩,
      iff_of_true (.inl ⟨text, hfile ▸ hread, ?_⟩) ⟨.inr hrewriting, fun hlost => ?_⟩⟩
    · rw [hfile]
      exact newlinesOnly_write hplain
    · rw [hfile]
      exact ⟨_, hsourced⟩
    · rw [hjson, hworld]
      exact hmanaged
    · exact absurd (hreaches.symm.trans (hloses.mp hlost).1) (by decide)
  -- The program that writes the file has failed.
  · have hnot : fate.reaches = false := Bool.eq_false_iff.mpr hreaches
    refine kept_same h settled_ended ?_ ?_ hover (fun heq => by cases heq) ?_
    · rw [hstep, if_neg hreaches]
    · rw [hstep, if_neg hreaches]
    · rw [hloses]
      constructor
      · exact fun hauth => ⟨.inl hauth, fun hlost => hlost.2 hauth⟩
      · rintro ⟨-, hkept⟩
        by_contra hauth
        exact hkept ⟨hnot, hauth⟩

/-- A run that starts is in its first phase; without a fingerprint in the file
it ends at once, and nothing authenticates. -/
theorem kept_start (h : Inv node s) : Kept env host node s .start := by
  have hiff : Authenticates node s ↔ Usable node s ∧ ¬ Loses env node s .start := by
    show _ ↔ (Authenticates node s ∨ Rewriting s) ∧ ¬ (Rewriting s ∧ ¬ Authenticates node s)
    tauto
  cases hfile : fileFingerprint s.file with
  | none =>
    refine @kept_same env host node s h .start .ended "" settled_ended rfl rfl ?_
      (fun heq => by cases heq) hiff
    show Proceeds _ _ (startScript host node s.file)
    unfold startScript
    rw [hfile]
    exact proceeds_raise settled_ended _
  | some fingerprint =>
    refine kept_same h settled_before rfl rfl ?_ (fun _ => hfile) hiff
    show Proceeds _ _ (startScript host node s.file)
    unfold startScript
    rw [hfile]
    exact runOnce_proceeds host _

theorem kept_stop (h : Inv node s) : Kept env host node s .stop := by
  refine @kept_same env host node s h .stop .ended "" settled_ended rfl rfl
    (proceeds_raise settled_ended _) (fun heq => by cases heq) ?_
  show _ ↔ (Authenticates node s ∨ Rewriting s) ∧ ¬ (Rewriting s ∧ ¬ Authenticates node s)
  tauto

/-- Another caller leaves the node managed under its fingerprint. -/
theorem kept_others (h : Inv node s) {program : Py Unit}
    (hregular : Regular env node s (.others program)) :
    Kept env host node s (.others program) := by
  have hregular : ∀ fingerprint, Managed node fingerprint s.world →
      Managed node fingerprint (program.run (exec env) s.world).2 := hregular
  obtain ⟨stored, hstored⟩ := h.managed
  have hmanaged : ∀ fingerprint, Managed node fingerprint (program.run (exec env) s.world).2
      ↔ Managed node fingerprint s.world := fun fingerprint =>
    ⟨fun hlater => managed_unique (hregular stored hstored) hlater ▸ hstored, hregular fingerprint⟩
  have hauth : Authenticates node (step env host node s (.others program))
      ↔ Authenticates node s :=
    exists_congr fun fingerprint => and_congr_right fun _ => hmanaged _
  refine ⟨⟨h.lines, h.sourced, ⟨stored, hregular stored hstored⟩, ?_⟩, ?_⟩
  · obtain ⟨m, hm⟩ := h.phase
    refine ⟨m, ?_⟩
    cases m with
    | before => exact hm
    | ended => exact hm
    | rotated new => exact ⟨hm.1, hregular new hm.2.1, hm.2.2⟩
  · show (Authenticates node _ ∨ Rewriting s) ↔ (Authenticates node s ∨ Rewriting s) ∧ ¬ False
    rw [hauth, not_false_eq_true, and_true]

/-- **Every step** keeps the invariant, and leaves the node usable exactly when
it was and no rotation is lost. -/
theorem kept_step (h : Inv node s) {e : Step} (hregular : Regular env node s e) :
    Kept env host node s e := by
  cases e with
  | start => exact kept_start h
  | stop => exact kept_stop h
  | others program => exact kept_others h hregular
  | call fate =>
    -- A script that has ended makes no call.
    have hidle : step env host node s (.call fate) = s → s.script.next? = none →
        Kept env host node s (.call fate) := by
      intro hsame hnext
      unfold Kept Loses
      rw [hsame, hnext]
      exact ⟨h, (and_iff_left fun hlost => hlost).symm⟩
    cases hscript : s.script with
    | ret a => exact hidle (by unfold step; rw [hscript]) (by rw [hscript]; rfl)
    | raise e => exact hidle (by unfold step; rw [hscript]) (by rw [hscript]; rfl)
    | call op k =>
      obtain ⟨m, hm⟩ := h.phase
      -- In each phase the discipline says which call may come next.
      cases m with
      | ended =>
        obtain ⟨fingerprint, hproceeds⟩ := hm
        have hop : op.Quiet := (Prog.wp_call.mp (hscript ▸ hproceeds)).1
        exact kept_quiet h hscript hop settled_ended hproceeds (fun heq => by cases heq) fate
      | rotated new =>
        obtain ⟨hplain, hmanaged, fingerprint, hproceeds⟩ := hm
        obtain ⟨text, rfl, -⟩ := (Prog.wp_call.mp (hscript ▸ hproceeds)).1
        exact kept_write h hscript hplain hmanaged hproceeds fate
      | before =>
        obtain ⟨fingerprint, hfile, hproceeds⟩ := hm
        have hmay := (Prog.wp_call.mp (hscript ▸ hproceeds)).1
        cases op with
        | rotateFingerprint nodeId old new =>
          have hplain : Plain new := hregular nodeId old new (by rw [hscript]; rfl)
          exact kept_rotate h hscript hfile hproceeds hplain fate
        | writeFingerprintEnv text => exact hmay.elim
        | _ => exact kept_quiet h hscript trivial settled_before hproceeds (fun _ => hfile) fate

end Step

/-! ## §6. Runs. -/

section Runs

variable {env : Env} {host : Host} {node : NodeEnv} {s : Link}

/-- The steps after the first ones are met in the state that these lead to. -/
theorem throughout_append {P : Link → Step → Prop} (steps more : List Step)
    (h : Throughout env host node P s (steps ++ more)) :
    Throughout env host node P s steps
      ∧ Throughout env host node P (runSteps env host node s steps) more := by
  induction steps generalizing s with
  | nil => exact ⟨trivial, h⟩
  | cons e steps ih =>
    obtain ⟨hrest, hmore⟩ := ih h.2
    exact ⟨⟨h.1, hrest⟩, hmore⟩

/-- A run keeps the invariant, and leaves the node usable exactly when it was
and no step lost a rotation. -/
theorem kept_run (h : Inv node s) (steps : List Step)
    (hregular : Throughout env host node (Regular env node) s steps) :
    Inv node (runSteps env host node s steps)
      ∧ (Usable node (runSteps env host node s steps)
        ↔ Usable node s ∧ Throughout env host node (fun s e => ¬ Loses env node s e) s steps) := by
  induction steps generalizing s with
  | nil => exact ⟨h, (and_iff_left trivial).symm⟩
  | cons e steps ih =>
    obtain ⟨hinv, husable⟩ := @kept_step env host node s h e hregular.1
    obtain ⟨hend, hrun⟩ := ih hinv hregular.2
    refine ⟨hend, ?_⟩
    show Usable node (runSteps env host node (step env host node s e) steps)
      ↔ Usable node s ∧ ¬ Loses env node s e ∧ _
    rw [hrun, husable, and_assoc]

/-- Nothing that the script asks for with the fingerprint of the file is
granted. -/
theorem refused_of_not_authenticates {fingerprint : String}
    (hfile : fileFingerprint s.file = some fingerprint) (h : ¬ Authenticates node s)
    (hmanaged : ∃ stored, Managed node stored s.world) {request : NodeRequest}
    (hrow : request.node s.world = nodeRow node s.world)
    (hkey : request.fingerprint = some (jsonValue fingerprint)) :
    RefusedUnchanged env request s.world := by
  obtain ⟨stored, row, hstored, hstatus, rfl⟩ := hmanaged
  have hother : row.fingerprint ≠ jsonValue fingerprint := fun heq =>
    h ⟨fingerprint, hfile, row, hstored, hstatus, heq⟩
  -- The row that is checked is the node's, and it has another fingerprint.
  have hrefuses : ∀ found : Node, request.node s.world = some found →
      found.fingerprint ≠ jsonValue fingerprint := by
    intro found hfound
    rw [hrow, hstored] at hfound
    rw [← Option.some.inj hfound]
    exact hother
  cases request with
  | heartbeat nodeId body =>
    cases body with
    | none => cases hkey
    | some body =>
      obtain ⟨e, he⟩ := requireManaged_refuses env s.world _ (by
        rintro ⟨found, hfound, -, heq⟩
        exact hrefuses found hfound (heq.trans (Option.some.inj hkey)))
      exact refused_of_run he
  | rotateFingerprint nodeId body =>
    cases body with
    | none => cases hkey
    | some body =>
      obtain ⟨e, he⟩ := rotateFingerprint_refuses env s.world nodeId body (by
        rintro ⟨found, hfound, heq⟩
        exact hrefuses found hfound (heq.trans (Option.some.inj hkey)))
      exact refused_of_run he
  | nextTask nodeId body =>
    cases body with
    | none => cases hkey
    | some body =>
      obtain ⟨e, he⟩ := requireManaged_refuses env s.world _ (by
        rintro ⟨found, hfound, -, heq⟩
        exact hrefuses found hfound (heq.trans (Option.some.inj hkey)))
      exact refused_of_run he
  | taskResult taskId body =>
    cases body with
    | none => cases hkey
    | some body =>
      obtain ⟨e, he⟩ := taskResult_refuses env s.world taskId body (by
        rintro ⟨task, found, htask, hfound, -, heq⟩
        refine hrefuses found ?_ (heq.trans (Option.some.inj hkey))
        simp [NodeRequest.node, htask, hfound])
      exact refused_of_run he

/-- **Does a rotation lock the node out?**  After any number of regular steps
the node authenticates, or is about to rewrite its file, exactly when no step
lost a rotation that the controller had carried out.  Otherwise all it asks for
is refused, and no later regular step makes it usable again.  A step that
delivers a fingerprint which the shell would not read back, such as one with a
double quote in it, is not regular. -/
theorem rotation_usable_iff (hlines : NewlinesOnly s.file) (hsourced : ∃ vs, sourceEnv s.file = some vs)
    (hauth : Authenticates node s) (hidle : s.script = .ret ()) (steps : List Step)
    (hregular : Throughout env host node (Regular env node) s steps) :
    let later := runSteps env host node s steps
    (Usable node later ↔ Throughout env host node (fun s e => ¬ Loses env node s e) s steps)
      ∧ (¬ Usable node later → ∀ fingerprint, fileFingerprint later.file = some fingerprint →
        (∀ request : NodeRequest, request.node later.world = nodeRow node later.world →
          request.fingerprint = some (jsonValue fingerprint) →
          RefusedUnchanged env request later.world))
      ∧ (¬ Usable node later → ∀ more, Throughout env host node (Regular env node) later more →
        ¬ Usable node (runSteps env host node later more)) := by
  intro later
  -- Between two runs the script has ended, and any phase that is settled will do.
  have hinv : Inv node s := by
    refine ⟨hlines, hsourced, ?_, .ended, "", ?_⟩
    · obtain ⟨fingerprint, -, hmanaged⟩ := hauth
      exact ⟨_, hmanaged⟩
    · rw [hidle]
      exact proceeds_ret settled_ended _
  obtain ⟨hend, hrun⟩ := kept_run hinv steps hregular
  refine ⟨?_, ?_, ?_⟩
  · rw [hrun]
    exact and_iff_right (.inl hauth)
  · intro hlocked fingerprint hfile request hrow hkey
    exact refused_of_not_authenticates hfile (fun h => hlocked (.inl h)) hend.managed hrow hkey
  · intro hlocked more hmore husable
    exact hlocked ((kept_run hend more hmore).2.mp husable).1

theorem loses_of_next {s : Link} {nodeId old new : String} {fate : Fate}
    (hnext : s.script.next? = some (.rotateFingerprint nodeId old new))
    (hreaches : fate.reaches = true)
    (haccepts : accepts env (.rotateFingerprint nodeId old new) s.world = true)
    (hreturns : fate.returns = false) (hne : new ≠ old) : Loses env node s (.call fate) := by
  unfold Loses
  rw [hnext]
  exact ⟨hreaches, haccepts, hreturns, hne⟩

end Runs

/-- A node whose file and row agree. -/
def joinedLink : Link where
  world := {
    store := { Store.empty with nodes := .single {
      nodeId := "node_1"
      fingerprint := "fp"
      hostname := "web-1"
      addresses := []
      trustLevel := "B"
      labels := []
      status := .managed } }
    files := fun _ => .missing }
  file := "HERMES_NODE_ID=node_1\nHERMES_NODE_FINGERPRINT=fp\n"
  script := .ret ()

/-- A task that asks for a rotation. -/
def rotationResponse : String :=
  "\x7b\"task_id\":\"task_1\",\"command\":\"hmn:rotate-fingerprint sha256:cc\"\x7d"

/-- A call that gets through and is answered. -/
def delivered : Fate where
  reaches := true
  returns := true
  answers op := (answering rotationResponse op ()).1

/-- The answer to the request of the rotation is lost. -/
def lostRun : List Step :=
  [.start, .call delivered, .call delivered, .call delivered, .call { delivered with returns := false }]

/-- A lost answer locks the node out. -/
theorem lost_answer_locks_out :
    ¬ Usable executingNode (runSteps Env.quiet plainHost executingNode joinedLink lostRun) := by
  have hnext : ∀ n, n < 4 → ((runSteps Env.quiet plainHost executingNode joinedLink
      (lostRun.take (n + 1))).script.next?)
        = [some .collectWorkerFacts, some (.heartbeat "node_1" "fp" []),
          some (.nextTask "node_1" "fp" "0.1"),
          some (.rotateFingerprint "node_1" "fp" "sha256:cc")].getD n none := by
    decide +kernel
  have hauth : Authenticates executingNode joinedLink :=
    ⟨"fp", by decide +kernel, _, rfl, rfl, by decide +kernel⟩
  have hplain : ∀ n, n < 4 → ∀ fate, Regular Env.quiet executingNode
      (runSteps Env.quiet plainHost executingNode joinedLink (lostRun.take (n + 1))) (.call fate) := by
    intro n hn fate nodeId fingerprint new hrotate
    rw [hnext n hn] at hrotate
    obtain rfl | rfl | rfl | rfl : n = 0 ∨ n = 1 ∨ n = 2 ∨ n = 3 := by omega
    · cases hrotate
    · cases hrotate
    · cases hrotate
    · cases hrotate
      decide +kernel
  have hregular : Throughout Env.quiet plainHost executingNode (Regular Env.quiet executingNode)
      joinedLink lostRun :=
    ⟨trivial, hplain 0 (by decide) _, hplain 1 (by decide) _, hplain 2 (by decide) _,
      hplain 3 (by decide) _, trivial⟩
  intro husable
  have haccepts : accepts Env.quiet (.rotateFingerprint "node_1" "fp" "sha256:cc")
      (runSteps Env.quiet plainHost executingNode joinedLink (lostRun.take 4)).world = true := by
    decide +kernel
  have hsourced : sourceEnv joinedLink.file = some [("HERMES_NODE_ID".toList, "node_1".toList),
      (fingerprintName.toList, "fp".toList)] := by
    decide +kernel
  have hlines : NewlinesOnly joinedLink.file := by decide +kernel
  have hkept : Throughout Env.quiet plainHost executingNode
      (fun s e => ¬ Loses Env.quiet executingNode s e) joinedLink lostRun := by
    have hboth := @rotation_usable_iff Env.quiet plainHost executingNode joinedLink hlines
      ⟨_, hsourced⟩ hauth rfl lostRun hregular
    exact hboth.1.mp husable
  have hsplit : lostRun = lostRun.take 4 ++ [.call { delivered with returns := false }] := rfl
  rw [hsplit] at hkept
  have hlast := (throughout_append _ _ hkept).2
  have hrotate := hnext 3 (by decide)
  -- The run is not to be evaluated any more.
  generalize runSteps Env.quiet plainHost executingNode joinedLink (lostRun.take 4) = late
    at hlast hrotate haccepts
  exact hlast.1 (loses_of_next hrotate rfl haccepts rfl (by decide))

end Hmn.Worker
