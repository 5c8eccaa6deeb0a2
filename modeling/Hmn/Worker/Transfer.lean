/-
  Hmn.Worker.Transfer — a signature belongs to one task.

  What is signed is the task identifier, the risk and the command, each but
  the last followed by a newline.  The command may hold newlines itself; the
  first two fields may not, so that the text says where each field ends.
  Where two messages are no collision of the keyed digest, a signature of the
  one task verifies for the other only if they are the same task.

  Main results: `taskMessage_inj`, `signature_transfers_iff`.
-/
import Hmn.Web.Session
import Hmn.Worker.Worker

namespace Hmn.Signing

open Framework

/-! ## §1. Signing and verifying. -/

/-- What a signature speaks of. -/
structure TaskPayload where
  taskId : String
  risk : String
  command : String
  deriving DecidableEq

/-- `_task_message`. -/
def taskMessage (task : TaskPayload) : List Nat :=
  Sha256.encode (task.taskId ++ "\n" ++ task.risk ++ "\n" ++ task.command)

/-- `sign_task_payload`, of what it signs. -/
def sign (nodeFingerprint : String) (task : TaskPayload) : String :=
  signTaskPayload nodeFingerprint task.taskId task.command task.risk

/-- `verify_task_signature`. -/
def verifyTaskSignature (nodeFingerprint : String) (task : TaskPayload) (signature : String) :
    Except PyError Bool :=
  Web.compareDigest (sign nodeFingerprint task) signature

/-- A task identifier and a risk as the controller generates them. -/
structure TaskPayload.OneLine (task : TaskPayload) : Prop where
  taskId : '\n' ∉ task.taskId.toList
  risk : '\n' ∉ task.risk.toList

/-- Two messages of one keyed digest. -/
def Collision (key message message' : List Nat) : Prop :=
  message ≠ message' ∧ Sha256.hmacHexdigest key message = Sha256.hmacHexdigest key message'

instance (key message message' : List Nat) : Decidable (Collision key message message') := by
  unfold Collision
  infer_instance

/-! ## §2. The message. -/

/-- UTF-8 encodes different texts differently. -/
theorem encode_inj {s t : String} (h : Sha256.encode s = Sha256.encode t) : s = t := by
  have hdecoded := congrArg Codec.decode h
  rwa [Codec.decode_encode, Codec.decode_encode, Option.some_inj] at hdecoded

/-- A text without the separator is found again before the first one. -/
theorem before_sep_inj {sep : Char} {a a' b b' : List Char} (ha : sep ∉ a) (ha' : sep ∉ a')
    (h : a ++ sep :: b = a' ++ sep :: b') : a = a' ∧ b = b' := by
  induction a generalizing a' with
  | nil =>
    cases a' with
    | nil => exact ⟨rfl, (List.cons.inj h).2⟩
    | cons c a' =>
      obtain ⟨rfl, -⟩ := List.cons.inj h
      exact absurd List.mem_cons_self ha'
  | cons c a ih =>
    cases a' with
    | nil =>
      obtain ⟨rfl, -⟩ := List.cons.inj h
      exact absurd List.mem_cons_self ha
    | cons d a' =>
      obtain ⟨rfl, htail⟩ := List.cons.inj h
      obtain ⟨rfl, hb⟩ := ih (fun hc => ha (List.mem_cons_of_mem _ hc))
        (fun hc => ha' (List.mem_cons_of_mem _ hc)) htail
      exact ⟨rfl, hb⟩

/-- **The message tells the task**, whatever lines the command has. -/
theorem taskMessage_inj {task task' : TaskPayload} (h : task.OneLine) (h' : task'.OneLine)
    (hmessage : taskMessage task = taskMessage task') : task = task' := by
  have htext := congrArg String.toList (encode_inj hmessage)
  have hnewline : "\n".toList = ['\n'] := rfl
  simp only [String.toList_append, hnewline, List.append_assoc, List.singleton_append] at htext
  obtain ⟨hid, hrest⟩ := before_sep_inj h.taskId h'.taskId htext
  obtain ⟨hrisk, hcommand⟩ := before_sep_inj h.risk h'.risk hrest
  obtain ⟨taskId, risk, command⟩ := task
  obtain ⟨taskId', risk', command'⟩ := task'
  rw [TaskPayload.mk.injEq]
  exact ⟨String.toList_inj.mp hid, String.toList_inj.mp hrisk, String.toList_inj.mp hcommand⟩

/-! ## §3. Verifying a signature of another task. -/

theorem isAscii_sign (nodeFingerprint : String) (task : TaskPayload) :
    Web.isAscii (sign nodeFingerprint task) = true := by
  refine Web.isAscii_iff.mpr fun c hc => ?_
  rw [sign, signTaskPayload, String.toList_append] at hc
  rcases List.mem_append.mp hc with hc | hc
  · exact (by decide : ∀ c ∈ "hmac-sha256:".toList, c.toNat < 128) c hc
  · rw [Sha256.hmacHexdigest, Sha256.hexdigest, Sha256.hex, String.toList_ofList] at hc
    obtain ⟨b, -, hc⟩ := List.mem_flatMap.mp hc
    rcases List.mem_pair.mp hc with rfl | rfl
    · exact (Web.digitChar_hex _).1
    · exact (Web.digitChar_hex _).1

/-- A signature of one task verifies for another when it is the one of the
other, too. -/
theorem verifyTaskSignature_sign (nodeFingerprint : String) (task task' : TaskPayload) :
    verifyTaskSignature nodeFingerprint task' (sign nodeFingerprint task) = .ok true
      ↔ sign nodeFingerprint task' = sign nodeFingerprint task := by
  rw [verifyTaskSignature, Web.compareDigest, isAscii_sign, isAscii_sign]
  simp

/-- Tasks of one signature are one task, or their messages a collision. -/
theorem sign_inj {nodeFingerprint : String} {task task' : TaskPayload} (h : task.OneLine)
    (h' : task'.OneLine)
    (hfree : ¬ Collision (Sha256.encode nodeFingerprint) (taskMessage task) (taskMessage task'))
    (hsign : sign nodeFingerprint task' = sign nodeFingerprint task) : task = task' := by
  by_contra hne
  refine hfree ⟨fun hmessage => hne (taskMessage_inj h h' hmessage), ?_⟩
  rw [sign, sign, signTaskPayload, signTaskPayload, String.append_right_inj] at hsign
  exact hsign.symm

/-- **Task signatures do not transfer.**  For messages that are no collision of
the keyed digest, a signature made for one task verifies for the other exactly
when they are the same, with the function of the package as on the worker. -/
theorem signature_transfers_iff (nodeFingerprint : String) (task task' : TaskPayload)
    (h : task.OneLine) (h' : task'.OneLine)
    (hfree : ¬ Collision (Sha256.encode nodeFingerprint) (taskMessage task) (taskMessage task')) :
    (verifyTaskSignature nodeFingerprint task' (sign nodeFingerprint task) = .ok true
      ↔ task = task')
    ∧ ∀ (host : Worker.Host) (env : Worker.NodeEnv), env.fingerprint = nodeFingerprint →
      Worker.verifyTaskSignature host env task'.taskId task'.risk task'.command
        (sign nodeFingerprint task) = true → task = task' := by
  refine ⟨⟨fun hverified => ?_, ?_⟩, ?_⟩
  · exact sign_inj h h' hfree ((verifyTaskSignature_sign _ _ _).mp hverified)
  · rintro rfl
    exact (verifyTaskSignature_sign _ _ _).mpr rfl
  · rintro host env rfl hverified
    rw [Worker.verifyTaskSignature, Bool.and_eq_true] at hverified
    exact sign_inj h h' hfree (of_decide_eq_true hverified.2)

/-- A task of a low risk. -/
def lowRiskTask : TaskPayload := ⟨"task_1", "low", "uptime\nid"⟩

/-- The same command under a high risk. -/
def highRiskTask : TaskPayload := ⟨"task_1", "high", "uptime\nid"⟩

/-- The signature of the one is none of the other. -/
theorem lowRisk_signature_kept :
    verifyTaskSignature "fp" highRiskTask (sign "fp" lowRiskTask) ≠ .ok true := by
  have htransfer := signature_transfers_iff "fp" lowRiskTask highRiskTask
    ⟨by decide, by decide⟩ ⟨by decide, by decide⟩ (by decide +kernel)
  exact fun hverified => absurd (htransfer.1.mp hverified) (by decide)

end Hmn.Signing
