/-
  Hmn.Worker.Signature — what does the worker carry out?

  The channel may deliver any answer to the worker.  The worker compares the
  signature of an answer with the one the node's fingerprint gives, unless
  the signature is empty.

  Main results: `worker_signature_policy` — what a run executes or rotates is
  the command of an answer whose signature is empty or right;
  `unsigned_task_executed` — an answer without a signature is executed.
-/
import Hmn.Worker.Worker

namespace Hmn.Worker

open Framework JsonText

/-! ## §1. The policy. -/

/-- The calls that execute a command or rotate the fingerprint. -/
def WorkerCall.acts : WorkerCall → Bool
  | .bash .. | .rotateFingerprint .. | .writeFingerprintEnv _ => true
  | _ => false

/-- The call executes the command, or makes the rotation that it names. -/
def WorkerCall.CarriesOut (command : String) : WorkerCall → Prop
  | .bash _ executed => executed = command
  | .rotateFingerprint _ _ new => ∃ n, command = rotatePrefix ++ n ∧ new = jsonValue n
  | .writeFingerprintEnv new => command = rotatePrefix ++ new
  | _ => True

/-- The variables that the script reads from an answer. -/
def readTask (host : Host) (response : String) : Option Assignment := do
  readAssignment host response (← readTaskId host response)

/-- The signature is the one of the task under the node's fingerprint. -/
def Signed (env : NodeEnv) (a : Assignment) : Prop :=
  a.signature = signTaskPayload env.fingerprint a.taskId a.command a.risk

/-- Whatever a run executes or rotates, it carries out the command of an
answer to its poll whose variables satisfy `ok`. -/
def Policy (ok : NodeEnv → Assignment → Prop) {σ : Type} (host : Host) (env : NodeEnv)
    (exec : Prog.Exec workerSig σ) (s : σ) : Prop :=
  ∀ c ∈ (runOnce host env).trace exec s, c.2.acts = true →
    ∃ s' response a,
      (s', WorkerCall.nextTask env.nodeId (jsonValue env.fingerprint)
        (jsonValue env.protocolVersion)) ∈ (runOnce host env).trace exec s
      ∧ (exec (.nextTask env.nodeId (jsonValue env.fingerprint)
          (jsonValue env.protocolVersion)) s').1 = some response
      ∧ readTask host (substituted response) = some a
      ∧ c.2.CarriesOut a.command ∧ ok env a

/-! ## §2. What the functions of the script may do. -/

/-- The call does not act. -/
def WorkerCall.Passive (op : WorkerCall) : Prop := op.acts = false

/-- The call acts on the command only. -/
def WorkerCall.ActsOn (command : String) (op : WorkerCall) : Prop :=
  op.acts = true → op.CarriesOut command

section

variable {α : Type} {ok : WorkerCall → Prop}

theorem calls_call_bind {op : WorkerCall} {f : op.Res → Script α} :
    (call op >>= f).Calls ok ↔ ok op ∧ ∀ r, (f r).Calls ok := Prog.calls_call

theorem calls_check {succeeded : Bool} : (check succeeded).Calls ok := by
  cases succeeded
  · exact Prog.calls_raise
  · exact Prog.calls_ret

theorem calls_orFail {β : Type} {r : Option β} : (orFail r).Calls ok := by
  cases r
  · exact Prog.calls_raise
  · exact Prog.calls_ret

theorem actsOn_of_passive {command : String} {op : WorkerCall} (h : op.Passive) :
    op.ActsOn command := fun hacts => absurd (h.symm.trans hacts) (by decide)

theorem heartbeat_passive (env : NodeEnv) : (heartbeat env).Calls WorkerCall.Passive :=
  calls_call_bind.mpr ⟨rfl, fun _ => Prog.calls_bind calls_orFail fun _ =>
    calls_call_bind.mpr ⟨rfl, fun _ => calls_check⟩⟩

theorem submitResult_passive (env : NodeEnv) (taskId : String) (exitCode : Int)
    (stdout stderr : String) :
    (submitResult env taskId exitCode stdout stderr).Calls WorkerCall.Passive :=
  calls_call_bind.mpr ⟨rfl, fun _ => calls_check⟩

theorem submitResult_actsOn (command : String) (env : NodeEnv) (taskId : String) (exitCode : Int)
    (stdout stderr : String) :
    (submitResult env taskId exitCode stdout stderr).Calls (WorkerCall.ActsOn command) :=
  Prog.calls_mono (fun _ h => actsOn_of_passive h) (submitResult_passive env taskId exitCode stdout stderr)

theorem execute_actsOn (host : Host) (env : NodeEnv) (command : String) :
    (execute host env command).Calls (WorkerCall.ActsOn command) := by
  unfold execute
  cases host.refusal (commandLine env command) with
  | some message => exact Prog.calls_ret
  | none =>
    refine calls_call_bind.mpr ⟨fun _ => rfl, fun result => ?_⟩
    cases taskTimeout env with
    | none => exact Prog.calls_ret
    | some seconds =>
      dsimp only
      split_ifs
      · exact Prog.calls_ret
      · exact Prog.calls_ret

theorem executeTask_actsOn (host : Host) (env : NodeEnv) (taskId command : String) :
    (executeTask host env taskId command).Calls (WorkerCall.ActsOn command) := by
  unfold executeTask
  refine calls_call_bind.mpr ⟨nofun, fun _ => Prog.calls_bind calls_check fun _ => ?_⟩
  refine calls_call_bind.mpr ⟨nofun, fun _ => Prog.calls_bind calls_check fun _ => ?_⟩
  refine Prog.calls_bind (execute_actsOn host env command) fun result => ?_
  refine Prog.calls_bind calls_orFail fun _ => Prog.calls_bind calls_orFail fun _ => ?_
  exact submitResult_actsOn command env taskId _ _ _

theorem rotateFingerprintFromTask_actsOn (env : NodeEnv) (taskId new : String) :
    (rotateFingerprintFromTask env taskId new).Calls
      (WorkerCall.ActsOn (rotatePrefix ++ new)) := by
  unfold rotateFingerprintFromTask
  refine calls_call_bind.mpr ⟨fun _ => ⟨new, rfl, rfl⟩, fun _ => ?_⟩
  refine Prog.calls_bind calls_check fun _ => ?_
  refine calls_call_bind.mpr ⟨fun _ => rfl, fun _ => Prog.calls_bind calls_check fun _ => ?_⟩
  exact submitResult_actsOn _ _ taskId _ _ _

/-- **Once the signature was checked** the script acts on the command only. -/
theorem act_actsOn (host : Host) (env : NodeEnv) (taskId command : String) :
    (act host env taskId command).Calls (WorkerCall.ActsOn command) := by
  unfold act
  split_ifs with hrotate henable
  · have hcommand : command = rotatePrefix ++ Text.removePrefix command rotatePrefix :=
      (Text.removePrefix_eq_iff hrotate).mp rfl
    have hcalls := rotateFingerprintFromTask_actsOn env taskId
      (Text.removePrefix command rotatePrefix)
    rw [← hcommand] at hcalls
    exact Prog.calls_bind hcalls fun _ => Prog.calls_raise
  · exact Prog.calls_bind (submitResult_actsOn command env taskId _ _ _) fun _ => Prog.calls_raise
  · exact executeTask_actsOn host env taskId command

theorem signed_of_not_mismatch {host : Host} {env : NodeEnv} {a : Assignment}
    (h : ¬ signatureMismatch host env a = true) : a.signature = "" ∨ Signed env a := by
  by_cases hempty : a.signature = ""
  · exact Or.inl hempty
  · right
    have hverified : verifyTaskSignature host env a.taskId a.risk a.command a.signature = true := by
      simpa [signatureMismatch, hempty] using h
    unfold verifyTaskSignature at hverified
    exact (of_decide_eq_true (Bool.and_eq_true_iff.mp hverified).2).symm

/-- **What the script does with an answer**: it acts on the command that it
reads, and only when the signature is empty or right. -/
theorem handleResponse_acts (host : Host) (env : NodeEnv) (response : String) :
    (handleResponse host env response).Calls fun op : WorkerCall => op.acts = true →
      ∃ a, readTask host response = some a ∧ op.CarriesOut a.command
        ∧ (a.signature = "" ∨ Signed env a) := by
  unfold handleResponse readTask
  cases readTaskId host response with
  | none => exact Prog.calls_raise
  | some taskId =>
    show (if taskId = "" then throw .done else _ : Script Unit).Calls _
    split_ifs with hnone
    · exact Prog.calls_raise
    · show (orFail (readAssignment host response taskId) >>= _).Calls
        fun op : WorkerCall => op.acts = true → ∃ a, readAssignment host response taskId = some a
          ∧ op.CarriesOut a.command ∧ (a.signature = "" ∨ Signed env a)
      cases readAssignment host response taskId with
      | none => exact Prog.calls_raise
      | some a =>
        show (if signatureMismatch host env a = true then _ else _ : Script Unit).Calls _
        split_ifs with hmismatch
        · refine Prog.calls_bind ?_ fun _ => Prog.calls_raise
          refine Prog.calls_mono (fun op h hacts => ?_) (submitResult_passive env a.taskId 127 "" _)
          exact absurd (h.symm.trans hacts) (by decide)
        · refine Prog.calls_mono (fun op h hacts => ?_) (act_actsOn host env a.taskId a.command)
          exact ⟨a, rfl, h hacts, signed_of_not_mismatch hmismatch⟩

end

/-! ## §3. Runs. -/

theorem pollTask_passive (env : NodeEnv) : (pollTask env).Calls WorkerCall.Passive :=
  calls_call_bind.mpr ⟨rfl, fun _ => Prog.calls_bind calls_orFail fun _ => Prog.calls_ret⟩

/-- A poll that returns has asked for a task and got an answer. -/
theorem pollTask_run {σ : Type} {exec : Prog.Exec workerSig σ} {env : NodeEnv} {s s' : σ}
    {response : String} (h : (pollTask env).run exec s = (.ok response, s')) :
    ∃ text, (exec (.nextTask env.nodeId (jsonValue env.fingerprint)
        (jsonValue env.protocolVersion)) s).1 = some text
      ∧ response = substituted text
      ∧ (s, WorkerCall.nextTask env.nodeId (jsonValue env.fingerprint)
          (jsonValue env.protocolVersion)) ∈ (pollTask env).trace exec s := by
  have hrun : (orFail (exec (.nextTask env.nodeId (jsonValue env.fingerprint)
      (jsonValue env.protocolVersion)) s).1 >>= fun r => (pure (substituted r) : Script String)).run
      exec _ = (.ok response, s') := h
  cases htext : (exec (.nextTask env.nodeId (jsonValue env.fingerprint)
      (jsonValue env.protocolVersion)) s).1 with
  | none =>
    rw [htext] at hrun
    exact absurd (congrArg Prod.fst hrun) nofun
  | some text =>
    rw [htext] at hrun
    have hok : Except.ok (substituted text) = (.ok response : Except Exit String) :=
      congrArg Prod.fst hrun
    exact ⟨text, rfl, (Except.ok.inj hok).symm, List.mem_cons_self⟩

/-- **The worker's signature policy.**  For every network, every answer to the
poll and every node, a run executes or rotates only what an answer commands
whose signature is empty or the one of the task under the node's
fingerprint. -/
theorem worker_signature_policy {σ : Type} (host : Host) (env : NodeEnv)
    (exec : Prog.Exec workerSig σ) (s : σ) :
    Policy (fun env a => a.signature = "" ∨ Signed env a) host env exec s := by
  intro c hc hacts
  have hpassive : c.2.acts ≠ false := fun h => absurd (h.symm.trans hacts) (by decide)
  unfold runOnce at hc ⊢
  rcases (Prog.mem_trace_bind exec _ _ c s).mp hc with hc | ⟨⟨⟩, s₁, hrun, hc⟩
  · exact absurd (Prog.trace_calls (heartbeat_passive env) s c hc) hpassive
  split_ifs at hc with hbeacon
  · exact absurd hc List.not_mem_nil
  rcases (Prog.mem_trace_bind exec _ _ c s₁).mp hc with hc' | ⟨response, s₂, hpoll, hc'⟩
  · exact absurd (Prog.trace_calls (pollTask_passive env) s₁ c hc') hpassive
  obtain ⟨text, htext, rfl, hmem⟩ := pollTask_run hpoll
  obtain ⟨a, hread, hcarries, hsigned⟩ :=
    Prog.trace_calls (handleResponse_acts host env (substituted text)) s₂ c hc' hacts
  refine ⟨s₁, text, a, ?_, htext, hread, hcarries, hsigned⟩
  refine (Prog.mem_trace_bind exec _ _ _ s).mpr (Or.inr ⟨(), s₁, hrun, ?_⟩)
  rw [if_neg hbeacon]
  exact (Prog.mem_trace_bind exec _ _ _ s₁).mpr (Or.inl hmem)

theorem signTaskPayload_ne_empty (fingerprint taskId command risk : String) :
    signTaskPayload fingerprint taskId command risk ≠ "" := by
  intro h
  have hlist := congrArg String.toList h
  simp [signTaskPayload] at hlist

/-- An answer without a signature. -/
def unsignedResponse : String := "\x7b\"task_id\":\"task_1\",\"command\":\"id\"\x7d"

/-- A host, and a node that executes commands. -/
def plainHost : Host where
  repr _ := []
  refusal _ := none

def executingNode : NodeEnv where
  nodeId := "node_1"
  fingerprint := "fp"
  enableExec := "1"

/-- A channel that answers every poll with the text. -/
def answering (response : String) : Prog.Exec workerSig Unit
  | .collectWorkerFacts, s => (some [], s)
  | .nextTask .., s => (some response, s)
  | .bash .., s => ({ exitCode := 0, stdout := some "", stderr := some "" }, s)
  | .heartbeat .., s | .rotateFingerprint .., s | .writeFingerprintEnv _, s
  | .submitResult .., s | .mktemp, s => (true, s)

/-- **An answer without a signature is executed.** -/
theorem unsigned_task_executed :
    ¬ Policy Signed plainHost executingNode (answering unsignedResponse) () := by
  intro h
  have hread : readTask plainHost (substituted unsignedResponse)
      = some { taskId := "task_1", command := "id", risk := "unknown", signature := "" } := by
    decide +kernel
  have hexecutes : ((), WorkerCall.bash none "id")
      ∈ (runOnce plainHost executingNode).trace (answering unsignedResponse) () := by
    decide +kernel
  obtain ⟨_, response, a, -, hresponse, ha, -, hsigned⟩ := h _ hexecutes rfl
  obtain rfl : unsignedResponse = response := Option.some.inj hresponse
  obtain rfl := Option.some.inj (hread.symm.trans ha)
  exact signTaskPayload_ne_empty _ _ _ _ hsigned.symm

end Hmn.Worker
