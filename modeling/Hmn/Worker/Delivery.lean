/-
  Hmn.Worker.Delivery — does the worker get the command that is stored?

  The controller signs a task and answers with a JSON object.  On the node
  every field is decoded and printed by a program, and the shell drops the
  newlines at the end of what was printed.

  Main results: `command_agreement_iff` — the worker verifies the signature
  and goes on with the stored command exactly when the command does not end
  in a newline and the program that verifies it can be started;
  `trailing_newline_refused` — a command that ends in a newline.
-/
import Hmn.Nodes.AuthGate
import Hmn.Store.Specs
import Hmn.Worker.Signature

namespace Hmn.Worker

open Framework JsonText Py

/-! ## §1. From the controller to the script. -/

/-- The body of the answer that hands out a task. -/
def taskResponseText (taskId command risk signature : String) : String :=
  dumps [("task_id", taskId), ("command", command), ("risk", risk), ("signature", signature)]

/-- The verification succeeds, the variable holds the stored command, and the
script goes on with it. -/
def Agrees (host : Host) (node : NodeEnv) (body command : String) : Prop :=
  ∃ a, readTask host (substituted body) = some a
    ∧ verifyTaskSignature host node a.taskId a.risk a.command a.signature = true
    ∧ a.command = command
    ∧ handleResponse host node (substituted body) = act host node a.taskId command

/-- A text that a shell variable can hold when it is printed. -/
def Printable (text : String) : Prop := '\x00' ∉ text.toList ∧ text.toList.getLast? ≠ some '\n'

instance (text : String) : Decidable (Printable text) := by
  unfold Printable
  infer_instance

/-- The arguments and variables of the program that verifies a task. -/
def verifyArguments (node : NodeEnv) (taskId risk command signature : String) : List String :=
  ["python3", "-", "TASK_ID=" ++ taskId, "TASK_RISK=" ++ risk, "TASK_COMMAND=" ++ command,
    "TASK_SIGNATURE=" ++ signature, "NODE_FINGERPRINT=" ++ node.fingerprint]

/-! ## §2. What the shell takes up. -/

theorem getLast?_ne_newline {cs : List Char} :
    cs.getLast? ≠ some '\n' ↔ ∀ h : cs ≠ [], cs.getLast h ≠ '\n' := by
  cases cs with
  | nil => simp
  | cons c cs => simp [List.getLast?_eq_some_getLast]

/-- No newline is left at the end. -/
theorem getLast?_substituted (output : String) :
    (substituted output).toList.getLast? ≠ some '\n' := by
  rw [substituted, String.toList_ofList, getLast?_ne_newline]
  intro h
  simpa using List.rdropWhile_last_not (fun c : Char => decide (c = '\n'))
    (output.toList.filter (· ≠ '\x00')) h

theorem filter_nul {cs : List Char} (h : '\x00' ∉ cs) : cs.filter (· ≠ '\x00') = cs :=
  List.filter_eq_self.mpr fun c hc => by
    have hne : c ≠ '\x00' := fun e => h (e ▸ hc)
    simpa using hne

/-- A printable text is taken up as it is. -/
theorem substituted_of_printable {text : String} (h : Printable text) : substituted text = text := by
  unfold substituted
  rw [filter_nul h.1, List.rdropWhile_eq_self_iff.mpr, String.ofList_toList]
  intro hne
  simpa using getLast?_ne_newline.mp h.2 hne

/-- The newline that `print` adds is dropped. -/
theorem substituted_newline (text : String) : substituted (text ++ "\n") = substituted text := by
  unfold substituted
  have hnewline : "\n".toList = ['\n'] := rfl
  rw [String.toList_append, List.filter_append, hnewline]
  exact congrArg String.ofList (List.rdropWhile_concat_pos _ _ _ rfl)

/-- A text without NUL is taken up as it is exactly when it does not end in a
newline. -/
theorem substituted_eq_iff {text : String} (hnul : '\x00' ∉ text.toList) :
    substituted text = text ↔ text.toList.getLast? ≠ some '\n' :=
  ⟨fun h => h ▸ getLast?_substituted text, fun h => substituted_of_printable ⟨hnul, h⟩⟩

theorem encodable_codePoints (s : String) : encodable (codePoints s) = some s := by
  have hvalid : (codePoints s).all (fun n => decide n.isValidChar) = true := by
    rw [List.all_eq_true]
    intro n hn
    obtain ⟨c, -, rfl⟩ := List.mem_map.mp hn
    exact decide_eq_true c.valid
  have hchars : (codePoints s).map Char.ofNat = s.toList := by
    simp [codePoints, List.map_map, Function.comp_def]
  rw [encodable, if_pos hvalid, hchars, String.ofList_toList]

/-- What the shell gets of a printed text. -/
theorem printed_str (host : Host) (s : String) :
    host.printed (.str (codePoints s)) = some (substituted s) := by
  unfold Host.printed Host.str
  rw [encodable_codePoints, Option.map_some, substituted_newline]

/-! ## §3. The body of an answer. -/

/-- The body is taken up as it is. -/
theorem substituted_taskResponseText (taskId command risk signature : String) :
    substituted (taskResponseText taskId command risk signature)
      = taskResponseText taskId command risk signature := by
  apply substituted_of_printable
  have hchars : ∀ d ∈ (taskResponseText taskId command risk signature).toList, 32 ≤ d.toNat := by
    unfold taskResponseText dumps
    rw [String.toList_ofList]
    exact List.forall_mem_cons.mpr ⟨by decide, dumpsMembers_ge _⟩
  constructor
  · exact fun hnul => absurd (hchars _ hnul) (by decide)
  · exact fun hlast => absurd (hchars _ (List.mem_of_getLast? hlast)) (by decide)

/-- A field is taken up under its name. -/
theorem readField_taskResponseText (host : Host) {taskId command risk signature name value : String}
    (default : Option String)
    (hvalue : [("signature", signature), ("risk", risk), ("command", command),
      ("task_id", taskId)].lookup name = some value) :
    readField host (taskResponseText taskId command risk signature) name default
      = some (substituted value) := by
  unfold readField taskResponseText
  rw [loads_dumps]
  show (((get? (textMembers _) name).or _).bind host.printed) = _
  rw [get?_textMembers]
  have hreverse : [("task_id", taskId), ("command", command), ("risk", risk),
      ("signature", signature)].reverse
    = [("signature", signature), ("risk", risk), ("command", command), ("task_id", taskId)] := rfl
  rw [hreverse, hvalue]
  exact printed_str host value

/-- **What the script reads from an answer**: every field as the shell takes
it up. -/
theorem readTask_taskResponseText (host : Host) (taskId command risk signature : String) :
    readTask host (taskResponseText taskId command risk signature)
      = some { taskId := substituted taskId, command := substituted command,
               risk := substituted risk, signature := substituted signature } := by
  unfold readTask readTaskId readAssignment
  rw [readField_taskResponseText host (some "") rfl]
  simp only [Option.bind_eq_bind, Option.bind_some]
  rw [readField_taskResponseText host none rfl, readField_taskResponseText host (some "unknown") rfl,
    readField_taskResponseText host (some "") rfl]
  rfl

theorem hexdigest_ge (bytes : List Nat) : ∀ d ∈ (Sha256.hexdigest bytes).toList, 32 ≤ d.toNat := by
  unfold Sha256.hexdigest Sha256.hex
  rw [String.toList_ofList]
  intro d hd
  obtain ⟨b, -, hb⟩ := List.mem_flatMap.mp hd
  rcases List.mem_pair.mp hb with rfl | rfl <;> exact digitChar_ge _

/-- A signature is printable. -/
theorem printable_signature (fingerprint taskId command risk : String) :
    Printable (signTaskPayload fingerprint taskId command risk) := by
  have hchars : ∀ d ∈ (signTaskPayload fingerprint taskId command risk).toList, 32 ≤ d.toNat := by
    unfold signTaskPayload
    rw [String.toList_append]
    exact List.forall_mem_append.mpr ⟨by decide, hexdigest_ge _⟩
  constructor
  · exact fun hnul => absurd (hchars _ hnul) (by decide)
  · exact fun hlast => absurd (hchars _ (List.mem_of_getLast? hlast)) (by decide)

/-! ## §4. The task that is handed out. -/

/-- **What a poll answers with** is a stored task, signed with the fingerprint
of the request. -/
theorem nextTask_answers {env : Env} {w w' : World} {nodeId : String} {request : NodeAuthRequest}
    {taskId command risk signature : String}
    (h : (nextTask nodeId request).run (exec env) w
      = (.ok (.task taskId command risk signature), w')) :
    signature = signTaskPayload request.fingerprint taskId command risk
    ∧ ∃ task ∈ w.store.tasks.rows, task.taskId = taskId ∧ task.command = command
      ∧ task.risk = risk := by
  unfold nextTask at h
  rw [Prog.run_bind] at h
  cases hmanaged : (requireManaged nodeId request.fingerprint).run (exec env) w with
  | mk r w₁ =>
  rw [hmanaged] at h
  cases r with
  | error e => cases h
  | ok node =>
    obtain ⟨hw, -, -, hfingerprint⟩ := requireManaged_run hmanaged
    rw [hw] at h
    dsimp only at h
    split_ifs at h with hversion
    · cases h
    rw [run_call_bind, run_call_bind] at h
    obtain ⟨es, hexpired, -⟩ := w.store.expire_spec none (w.reading env 0)
    have hstore : (exec env (.expireStuckTasks none) w).2.store = _ := hexpired
    generalize (exec env (.expireStuckTasks none) w).2 = w₁ at h hstore
    rcases w₁.store.claim_cases nodeId "worker" 900 (w₁.reading env 0) with
      ⟨row, hclaims, hanswer, -⟩ | ⟨-, hnone⟩
    · have hclaimed : (exec env (.claimNextTask nodeId "worker" 900) w₁).1 = _ := hanswer
      rw [hclaimed] at h
      obtain ⟨⟨⟩, -⟩ := Prod.mk.inj h
      obtain ⟨hrow, -, -, hpending⟩ := Store.mem_pendingTasks.mp hclaims.pending
      simp only [hstore, Table.mem_update] at hrow
      obtain ⟨task, htask, rfl⟩ := hrow
      refine ⟨by rw [hfingerprint], task, htask, ?_⟩
      split_ifs <;> exact ⟨rfl, rfl, rfl⟩
    · have hclaimed : (exec env (.claimNextTask nodeId "worker" 900) w₁).1 = none :=
        congrArg Prod.fst hnone
      rw [hclaimed] at h
      cases h

/-! ## §5. Agreement. -/

theorem readAssignment_taskId {host : Host} {response taskId : String} {a : Assignment}
    (h : readAssignment host response taskId = some a) : a.taskId = taskId := by
  unfold readAssignment at h
  simp only [Option.bind_eq_bind, Option.bind_eq_some_iff] at h
  obtain ⟨command, -, risk, -, signature, -, heq⟩ := h
  obtain rfl := Option.some.inj heq
  rfl

/-- A task whose signature was verified is acted on. -/
theorem handleResponse_of_readTask {host : Host} {node : NodeEnv} {response : String}
    {a : Assignment} (h : readTask host response = some a) (hne : a.taskId ≠ "")
    (hverified : verifyTaskSignature host node a.taskId a.risk a.command a.signature = true) :
    handleResponse host node response = act host node a.taskId a.command := by
  obtain ⟨taskId, hid, hassignment⟩ := Option.bind_eq_some_iff.mp h
  have hmismatch : signatureMismatch host node a = false := by
    unfold signatureMismatch
    rw [hverified]
    exact Bool.and_false _
  rw [readAssignment_taskId hassignment] at hne
  unfold handleResponse
  rw [hid]
  show (if taskId = "" then throw .done else _ : Script Unit) = _
  rw [if_neg hne, hassignment]
  show (if signatureMismatch host node a = true then _ else _ : Script Unit) = _
  rw [hmismatch, if_neg Bool.false_ne_true]

/-- **An answer to a poll agrees with the worker** exactly when the command
does not end in a newline and the verification can be started. -/
theorem agrees_iff (host : Host) (node : NodeEnv) {taskId command risk : String}
    (hid : Printable taskId) (hne : taskId ≠ "") (hrisk : Printable risk)
    (hnul : '\x00' ∉ command.toList) :
    Agrees host node (taskResponseText taskId command risk
        (signTaskPayload node.fingerprint taskId command risk)) command
      ↔ command.toList.getLast? ≠ some '\n'
        ∧ host.refusal (verifyArguments node taskId risk command
            (signTaskPayload node.fingerprint taskId command risk)) = none := by
  have hread := readTask_taskResponseText host taskId command risk
    (signTaskPayload node.fingerprint taskId command risk)
  rw [substituted_of_printable hid, substituted_of_printable hrisk,
    substituted_of_printable (printable_signature node.fingerprint taskId command risk)] at hread
  unfold Agrees
  rw [substituted_taskResponseText, hread]
  constructor
  · rintro ⟨a, ⟨⟩, hverified, hcommand, -⟩
    have hcommand : substituted command = command := hcommand
    rw [hcommand] at hverified
    refine ⟨(substituted_eq_iff hnul).mp hcommand, ?_⟩
    exact Option.isNone_iff_eq_none.mp (Bool.and_eq_true_iff.mp hverified).1
  · rintro ⟨hlast, hstarts⟩
    have hcommand : substituted command = command := (substituted_eq_iff hnul).mpr hlast
    rw [hcommand] at hread ⊢
    have hverified : verifyTaskSignature host node taskId risk command
        (signTaskPayload node.fingerprint taskId command risk) = true := by
      unfold verifyTaskSignature
      rw [Bool.and_eq_true_iff]
      exact ⟨Option.isNone_iff_eq_none.mpr hstarts, decide_eq_true rfl⟩
    exact ⟨_, rfl, hverified, rfl, handleResponse_of_readTask hread hne hverified⟩

/-- **Controller and worker agree on a command** exactly when it does not end
in a newline and the node can start the verification.  The worker polls with
its fingerprint; the task is whatever the controller hands out. -/
theorem command_agreement_iff (host : Host) (node : NodeEnv) (env : Env) (w w' : World)
    (nodeId : String) (request : NodeAuthRequest) (taskId command risk signature : String)
    (hanswer : (nextTask nodeId request).run (exec env) w
      = (.ok (.task taskId command risk signature), w'))
    (hkey : request.fingerprint = node.fingerprint)
    (hid : Printable taskId) (hne : taskId ≠ "") (hrisk : Printable risk)
    (hnul : '\x00' ∉ command.toList) :
    (∃ task ∈ w.store.tasks.rows, task.taskId = taskId ∧ task.command = command)
    ∧ (Agrees host node (taskResponseText taskId command risk signature) command
      ↔ command.toList.getLast? ≠ some '\n'
        ∧ host.refusal (verifyArguments node taskId risk command signature) = none) := by
  obtain ⟨rfl, task, htask, htaskId, hcommand, -⟩ := nextTask_answers hanswer
  rw [hkey]
  exact ⟨⟨task, htask, htaskId, hcommand⟩, agrees_iff host node hid hne hrisk hnul⟩

/-! ## §6. A command that ends in a newline. -/

/-- The managed node of `executingNode`. -/
def managedNode : Node where
  nodeId := "node_1"
  fingerprint := "fp"
  hostname := "web-1"
  addresses := []
  trustLevel := "B"
  labels := []
  status := .managed

/-- A stored task for that node. -/
def storedTask (command : String) : Task where
  taskId := "task_1"
  nodeId := "node_1"
  command
  risk := "low"
  status := .pending
  createdBy := "hmn"
  createdAt := 0

/-- The store with the node and the task. -/
def taskWorld (command : String) : World where
  store := { Store.empty with nodes := .single managedNode, tasks := .single (storedTask command) }
  files _ := .missing

/-- The poll of that node. -/
def poll : NodeAuthRequest where
  fingerprint := "fp"
  workerProtocolVersion := some "0.1"

/-- A command with blanks around it and quotes in it agrees. -/
theorem command_agreement_quoted :
    (∃ task ∈ (taskWorld " echo \"é\" ").store.tasks.rows, task.taskId = "task_1"
      ∧ task.command = " echo \"é\" ")
    ∧ (Agrees plainHost executingNode (taskResponseText "task_1" " echo \"é\" " "low"
        (signTaskPayload "fp" "task_1" " echo \"é\" " "low")) " echo \"é\" "
      ↔ " echo \"é\" ".toList.getLast? ≠ some '\n'
        ∧ plainHost.refusal (verifyArguments executingNode "task_1" "low" " echo \"é\" "
            (signTaskPayload "fp" "task_1" " echo \"é\" " "low")) = none) :=
  command_agreement_iff plainHost executingNode Env.quiet (taskWorld " echo \"é\" ")
    ((nextTask "node_1" poll).run (exec Env.quiet) (taskWorld " echo \"é\" ")).2
    "node_1" poll "task_1" " echo \"é\" " "low" _ (Prod.ext (by decide +kernel) rfl) rfl
    (by decide +kernel) (by decide +kernel) (by decide +kernel) (by decide +kernel)

/-- **A command that ends in a newline** is handed out and signed, and the
worker does not get it. -/
theorem trailing_newline_refused :
    ((nextTask "node_1" poll).run (exec Env.quiet) (taskWorld "id\n")).1
      = .ok (.task "task_1" "id\n" "low" (signTaskPayload "fp" "task_1" "id\n" "low"))
    ∧ ¬ Agrees plainHost executingNode (taskResponseText "task_1" "id\n" "low"
        (signTaskPayload "fp" "task_1" "id\n" "low")) "id\n" := by
  refine ⟨by decide +kernel, ?_⟩
  rintro ⟨a, hread, -, hcommand, -⟩
  rw [substituted_taskResponseText, readTask_taskResponseText] at hread
  obtain rfl := Option.some.inj hread
  exact absurd hcommand (by decide +kernel)

end Hmn.Worker
