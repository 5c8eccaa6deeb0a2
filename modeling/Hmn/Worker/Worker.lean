/-
  Hmn.Worker.Worker — one run of the worker script on a node.

  The script sends a heartbeat, asks for a task and reads four fields of the
  answer, each with a program of its own whose output the shell takes up.
  Then it checks the signature, and either rotates the fingerprint of the
  node or executes the command.  A program that fails ends the script.

  The programs and the shell use UTF-8; an answer that is not UTF-8 text
  ends the script like one that is not JSON.
-/
import Hmn.Framework.JsonText
import Hmn.Nodes.Endpoints
import Mathlib.Data.List.DropRight

namespace Hmn.Worker

open Framework JsonText

/-! ## §1. The node. -/

/-- What the script relies on that is not in its text. -/
structure Host where
  /-- `repr` of a float, a list or a dictionary. -/
  repr : Value → CodePoints
  /-- What is reported when a program is not started with these arguments and
  variables, because they are too long. -/
  refusal : List String → Option String

/-- The variables of a run. -/
structure NodeEnv where
  nodeId : String
  fingerprint : String
  enableExec : String := "0"
  workerMode : String := "worker"
  beaconOnly : String := "0"
  taskTimeoutSec : String := "0"
  protocolVersion : String := "0.1"
  /-- `command -v timeout`. -/
  hasTimeout : Bool := true

/-- How a command ended; there is no text when an output is not UTF-8. -/
structure CommandResult where
  exitCode : Int
  stdout : Option String
  stderr : Option String

/-- What the script does outside the shell. -/
inductive WorkerCall where
  | collectWorkerFacts
  | heartbeat (nodeId fingerprint : String) (facts : Dict)
  | nextTask (nodeId fingerprint protocolVersion : String)
  | rotateFingerprint (nodeId fingerprint newFingerprint : String)
  | writeFingerprintEnv (newFingerprint : String)
  | submitResult (taskId fingerprint : String) (exitCode : Int) (stdout stderr : String)
  | mktemp
  | bash (timeout : Option String) (command : String)
  deriving DecidableEq

/-- What each call answers with: the body of an answer, or whether the
program succeeded. -/
@[reducible] def WorkerCall.Res : WorkerCall → Type
  | .collectWorkerFacts => Option Dict
  | .heartbeat .. => Bool
  | .nextTask .. => Option String
  | .rotateFingerprint .. => Bool
  | .writeFingerprintEnv _ => Bool
  | .submitResult .. => Bool
  | .mktemp => Bool
  | .bash .. => CommandResult

abbrev workerSig : Sig := ⟨WorkerCall, WorkerCall.Res⟩

/-- How the script ends before its last line. -/
inductive Exit where
  /-- `exit 0`. -/
  | done
  /-- A program failed. -/
  | failed
  deriving DecidableEq

abbrev Script (α : Type) := Prog workerSig Exit α

/-- One call. -/
def call (op : WorkerCall) : Script op.Res := Prog.lift (S := workerSig) op

/-- The script ends when a program fails. -/
def check (succeeded : Bool) : Script Unit := if succeeded then .ret () else .raise .failed

/-- The script ends where there is nothing to go on with. -/
def orFail {α : Type} : Option α → Script α
  | some a => .ret a
  | none => .raise .failed

/-! ## §2. Texts between programs. -/

/-- What `$(…)` keeps of an output. -/
def substituted (output : String) : String :=
  String.ofList ((output.toList.filter (· ≠ '\x00')).rdropWhile (· = '\n'))

/-- `str(value)`. -/
def Host.str (host : Host) : Value → CodePoints
  | .null => codePoints "None"
  | .bool true => codePoints "True"
  | .bool false => codePoints "False"
  | .int n => codePoints (toString n)
  | .str s => s
  | v => host.repr v

/-- A text as UTF-8 can hold it; a surrogate has no encoding. -/
def encodable (s : CodePoints) : Option String :=
  if s.all (fun n => decide n.isValidChar) then some (String.ofList (s.map Char.ofNat)) else none

/-- What the shell gets of `print(value)`. -/
def Host.printed (host : Host) (v : Value) : Option String :=
  (encodable (host.str v)).map fun text => substituted (text ++ "\n")

/-- One field of an answer: `json.load(sys.stdin).get(name, default)`, or
`json.load(sys.stdin)[name]` where there is no default.  Reading the input
turns a carriage return into a newline; between tokens both are blanks, in a
text both are errors. -/
def readField (host : Host) (response name : String) (default : Option String) : Option String := do
  match ← loads response with
  | .obj members =>
    host.printed (← (get? members name).or (default.map fun text => .str (codePoints text)))
  | _ => none

/-- `json_value`: the text that arrives; reading a program's input turns
every line end into a newline. -/
def jsonValue (text : String) : String := String.ofList (universalNewlines text.toList)

/-! ## §3. The functions of the script. -/

/-- `is_beacon_only`. -/
def isBeaconOnly (env : NodeEnv) : Bool :=
  env.beaconOnly = "1" || env.workerMode = "beacon" || env.workerMode = "beacon-only"

/-- `heartbeat`. -/
def heartbeat (env : NodeEnv) : Script Unit := do
  let facts ← orFail (← call .collectWorkerFacts)
  check (← call (.heartbeat env.nodeId (jsonValue env.fingerprint) facts))

/-- `poll_task`, and what the shell takes up of the answer. -/
def pollTask (env : NodeEnv) : Script String := do
  let response ← orFail
    (← call (.nextTask env.nodeId (jsonValue env.fingerprint) (jsonValue env.protocolVersion)))
  return substituted response

/-- `submit_result`. -/
def submitResult (env : NodeEnv) (taskId : String) (exitCode : Int) (stdout stderr : String) :
    Script Unit := do
  check (← call (.submitResult taskId (jsonValue env.fingerprint) exitCode (jsonValue stdout)
    (jsonValue stderr)))

/-- `verify_task_signature`.  A program that is not started verifies nothing. -/
def verifyTaskSignature (host : Host) (env : NodeEnv) (taskId risk command signature : String) :
    Bool :=
  (host.refusal ["python3", "-", "TASK_ID=" ++ taskId, "TASK_RISK=" ++ risk,
    "TASK_COMMAND=" ++ command, "TASK_SIGNATURE=" ++ signature,
    "NODE_FINGERPRINT=" ++ env.fingerprint]).isNone
  && signTaskPayload env.fingerprint taskId command risk = signature

/-- `rotate_fingerprint_from_task`. -/
def rotateFingerprintFromTask (env : NodeEnv) (taskId newFingerprint : String) : Script Unit := do
  check (← call (.rotateFingerprint env.nodeId (jsonValue env.fingerprint)
    (jsonValue newFingerprint)))
  check (← call (.writeFingerprintEnv newFingerprint))
  submitResult { env with fingerprint := newFingerprint } taskId 0 "fingerprint rotated" ""

/-- The timeout around a command. -/
def taskTimeout (env : NodeEnv) : Option String :=
  if env.taskTimeoutSec ≠ "0" ∧ env.hasTimeout then some env.taskTimeoutSec else none

/-- The program that executes a command, with its arguments. -/
def commandLine (env : NodeEnv) (command : String) : List String :=
  match taskTimeout env with
  | some seconds => ["timeout", "--kill-after=5s", seconds, "bash", "-lc", command]
  | none => ["bash", "-lc", command]

/-- Executing a command. -/
def execute (host : Host) (env : NodeEnv) (command : String) : Script CommandResult :=
  match host.refusal (commandLine env command) with
  | some message => return { exitCode := 126, stdout := some "", stderr := some message }
  | none => do
    let result ← call (.bash (taskTimeout env) command)
    match taskTimeout env with
    | none => return result
    | some seconds =>
      if result.exitCode = 124 ∨ result.exitCode = 137 then
        return { result with
          stderr := result.stderr.map (· ++ "hmn worker timeout after " ++ seconds ++ "s\n") }
      else return result

/-- Executing a command and submitting what came of it. -/
def executeTask (host : Host) (env : NodeEnv) (taskId command : String) : Script Unit := do
  check (← call .mktemp)
  check (← call .mktemp)
  let result ← execute host env command
  let stdout ← orFail result.stdout
  let stderr ← orFail result.stderr
  submitResult env taskId result.exitCode (substituted stdout) (substituted stderr)

/-! ## §4. One run. -/

/-- What a command starts with that the script carries out itself. -/
def rotatePrefix : String := "hmn:rotate-fingerprint "

/-- The end of `run_once`, once the signature was checked. -/
def act (host : Host) (env : NodeEnv) (taskId command : String) : Script Unit := do
  if Text.startsWith command rotatePrefix then
    rotateFingerprintFromTask env taskId (Text.removePrefix command rotatePrefix)
    throw .done
  else if env.enableExec ≠ "1" then
    submitResult env taskId 126 "" "execution disabled; set HMN_ENABLE_EXEC=1"
    throw .done
  else executeTask host env taskId command

/-- The four variables that the script reads from an answer. -/
structure Assignment where
  taskId : String
  command : String
  risk : String
  signature : String
  deriving DecidableEq

/-- The variables of an answer that names a task. -/
def readAssignment (host : Host) (response taskId : String) : Option Assignment := do
  let command ← readField host response "command" none
  let risk ← readField host response "risk" (some "unknown")
  let signature ← readField host response "signature" (some "")
  return { taskId, command, risk, signature }

/-- The signature is there and is not the one of the task. -/
def signatureMismatch (host : Host) (env : NodeEnv) (a : Assignment) : Bool :=
  a.signature ≠ "" && !verifyTaskSignature host env a.taskId a.risk a.command a.signature

/-- The identifier of the task in an answer; it is empty without a task. -/
def readTaskId (host : Host) (response : String) : Option String :=
  readField host response "task_id" (some "")

/-- `run_once`, from the answer on. -/
def handleResponse (host : Host) (env : NodeEnv) (response : String) : Script Unit := do
  let taskId ← orFail (readTaskId host response)
  if taskId = "" then throw .done
  else
    let a ← orFail (readAssignment host response taskId)
    if signatureMismatch host env a then
      submitResult env a.taskId 127 "" "task signature mismatch"
      throw .done
    else act host env a.taskId a.command

/-- `run_once`. -/
def runOnce (host : Host) (env : NodeEnv) : Script Unit := do
  heartbeat env
  if isBeaconOnly env then throw .done
  else handleResponse host env (← pollTask env)

end Hmn.Worker
