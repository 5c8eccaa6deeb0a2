/-
  Hmn.Approval.CallbackPoll — the decisions that come back from the chat.

  A poll takes the updates from the offset on, hands the callback of each
  approval to the controller and answers it.  The decision is counted before
  it is answered, so an answer that fails counts the callback once more.  The
  model is `process_telegram_callbacks`, as a program of calls of a chat and
  of the controller, and the polls of `poll-once` one after the other.

  Main result: `telegram_callbacks_iff`.
-/
import Hmn.Framework.Number
import Hmn.Nodes.Endpoints

namespace Hmn

open Framework

/-! ## §1. Calls. -/

inductive TelegramCall where
  | getUpdates (offset : Option Int)
  | handleCallback (callbackData decidedBy : String)
  | answerCallbackQuery (callbackId : String) (text : Option String)
  | clearInlineKeyboard (chatId messageId : Json)

@[reducible] def TelegramCall.Res : TelegramCall → Type
  | .getUpdates _ => Except PyError (List Json)
  | .handleCallback .. => Except PyError Json
  | .answerCallbackQuery .. => Except PyError Unit
  | .clearInlineKeyboard .. => Except PyError Unit

abbrev telegramSig : Sig := ⟨TelegramCall, TelegramCall.Res⟩

abbrev Telegram (α : Type) := Prog telegramSig PyError α

namespace Telegram

/-- `Except` as a program that makes no call. -/
def orRaise {α : Type} : Except PyError α → Telegram α
  | .ok a => .ret a
  | .error e => .raise e

def getUpdates (offset : Option Int) : Telegram (List Json) :=
  .call (.getUpdates offset) orRaise

def handleCallback (callbackData decidedBy : String) : Telegram Json :=
  .call (.handleCallback callbackData decidedBy) orRaise

def answerCallbackQuery (callbackId : String) (text : Option String) : Telegram Unit :=
  .call (.answerCallbackQuery callbackId text) orRaise

def clearInlineKeyboard (chatId messageId : Json) : Telegram Unit :=
  .call (.clearInlineKeyboard chatId messageId) orRaise

/-- What a program returns or raises. -/
def attempt {α : Type} (p : Telegram α) : Telegram (Except PyError α) :=
  (p >>= fun a => return .ok a).tryCatch fun e => return .error e

end Telegram

open Telegram

/-! ## §2. What is read of an update. -/

/-- `value.get`, for any value. -/
def asDict : Json → Except PyError Dict
  | .obj kvs => .ok kvs
  | v => .error (.attribute ("'" ++ typeName v ++ "' object has no attribute 'get'"))

/-- `d.get(key) or {}`, of which something is to be read. -/
def dictUnder (d : Dict) (key : String) : Except PyError Dict :=
  match (d.get? key).filter Json.truthy with
  | none => .ok []
  | some v => asDict v

/-- `int(value)`. -/
def jsonInt : Json → Except PyError Int
  | .int n => .ok n
  | .bool b => .ok (if b then 1 else 0)
  | .float x =>
    match x.value.toInteger FloatValue.truncate with
    | .ok n => .ok n
    | .error (.overflow message) => .error (.overflow message)
    | .error _ => .error (.value "cannot convert float NaN to integer")
  | .str s =>
    match Text.parseInt s with
    | some n => .ok n
    | none => .error (.value ("invalid literal for int() with base 10: " ++ (Json.str s).repr))
  | v => .error (.type ("int() argument must be a string, a bytes-like object or a real number, not '"
      ++ typeName v ++ "'"))

/-- What the loop reads of an update before it looks at the callback. -/
structure Callback where
  updateId : Int
  callback : Dict
  data : String
  id : String
  username : String
  deriving DecidableEq

/-- The reads of the loop. -/
def readUpdate (update : Json) : Except PyError Callback := do
  let update ← asDict update
  let updateId ← jsonInt ((update.get? "update_id").getD (.int 0))
  let callback ← dictUnder update "callback_query"
  let user ← dictUnder callback "from"
  return {
    updateId := updateId
    callback := callback
    data := callback.getStr "data" ""
    id := callback.getStr "id" ""
    username := user.getStr "username" (user.getStr "id" "unknown") }

/-- The callback decides an approval. -/
def Callback.isApproval (c : Callback) : Bool := Text.startsWith c.data "hmn:approval:"

/-- The chat and the message of the card, if they can be read. -/
def Callback.card (c : Callback) : Except PyError (Option (Json × Json)) := do
  let msg ← dictUnder c.callback "message"
  let chat ← dictUnder msg "chat"
  match chat.get? "id", msg.get? "message_id" with
  | some chatId, some messageId =>
    return if chatId ≠ .null ∧ messageId ≠ .null then some (chatId, messageId) else none
  | _, _ => return none

/-! ## §3. Processing. -/

/-- `TelegramUpdateResult`. -/
structure TelegramUpdateResult where
  processed : Nat := 0
  approved : Nat := 0
  rejected : Nat := 0
  failed : Nat := 0
  nextOffset : Option Int := none
  deriving DecidableEq

/-- The message and the status that the controller answers with. -/
def decideCallback (decidedByPrefix : String) (c : Callback) : Telegram (String × String) := do
  let result ← handleCallback c.data (decidedByPrefix ++ ":" ++ c.username)
  let result ← orRaise (asDict result)
  return (result.getStr "message" "已处理。", result.getStr "status" "")

/-- The text that a callback is answered with. -/
def Callback.answer (c : Callback) (message : String) : Option String :=
  if c.id ≠ "" then some (String.ofList (message.toList.take 180)) else none

/-- Taking the buttons from the card, which may fail. -/
def clearCard : Option (Json × Json) → Telegram Unit
  | none => return ()
  | some (chatId, messageId) => (clearInlineKeyboard chatId messageId).tryCatch fun _ => return ()

/-- What follows the decision. -/
def acknowledge (c : Callback) (message : String) : Telegram Unit := do
  answerCallbackQuery c.id (c.answer message)
  clearCard (← orRaise c.card)

/-- The counts with the decision. -/
def TelegramUpdateResult.decided (result : TelegramUpdateResult) (status : String) :
    TelegramUpdateResult :=
  if status = "approved" then { result with approved := result.approved + 1 }
  else if status = "rejected" then { result with rejected := result.rejected + 1 }
  else result

/-- The handler of the guarded part. -/
def reportFailure (c : Callback) (result : TelegramUpdateResult) :
    Telegram TelegramUpdateResult := do
  if c.id ≠ "" then
    (answerCallbackQuery c.id (some "审批处理失败，请查看 HMN 日志。")).tryCatch fun _ => return ()
  return { result with failed := result.failed + 1 }

/-- The guarded part of the loop behind the controller's answer: what was
counted stays counted when something after it raises. -/
def settleCallback (c : Callback) (result : TelegramUpdateResult) :
    Except PyError (String × String) → Telegram TelegramUpdateResult
  | .error _ => reportFailure c result
  | .ok (message, status) => do
    match ← attempt (acknowledge c message) with
    | .error _ => reportFailure c (result.decided status)
    | .ok () => return result.decided status

/-- The guarded part of the loop. -/
def processCallback (decidedByPrefix : String) (c : Callback) (result : TelegramUpdateResult) :
    Telegram TelegramUpdateResult := do
  settleCallback c result (← attempt (decideCallback decidedByPrefix c))

/-- The loop. -/
def processUpdates (decidedByPrefix : String) :
    List Json → TelegramUpdateResult → Telegram TelegramUpdateResult
  | [], result => return result
  | update :: updates, result => do
    let c ← orRaise (readUpdate update)
    let result := { result with
      nextOffset := some (max (result.nextOffset.getD 0) (c.updateId + 1)) }
    if c.isApproval then
      let result ← processCallback decidedByPrefix c { result with processed := result.processed + 1 }
      processUpdates decidedByPrefix updates result
    else processUpdates decidedByPrefix updates result

/-- `process_telegram_callbacks`. -/
def processTelegramCallbacks (decidedByPrefix : String) (offset : Option Int) :
    Telegram TelegramUpdateResult := do
  let updates ← getUpdates offset
  processUpdates decidedByPrefix updates { nextOffset := offset }

/-! ## §4. One callback. -/

section Run

variable {σ : Type} (exec : Prog.Exec telegramSig σ) (decidedByPrefix : String)

theorem Telegram.run_orRaise_bind {α β : Type} (r : Except PyError α) (f : α → Telegram β) (s : σ) :
    (Telegram.orRaise r >>= f).run exec s =
      match r with
      | .ok a => (f a).run exec s
      | .error e => (.error e, s) := by
  cases r <;> rfl

/-- An attempt returns what the program does. -/
theorem run_attempt {α : Type} (p : Telegram α) (s : σ) :
    (attempt p).run exec s = (.ok (p.run exec s).1, (p.run exec s).2) := by
  rw [attempt, Prog.run_tryCatch, Prog.run_bind]
  rcases p.run exec s with ⟨_ | _, s'⟩ <;> rfl

/-- The status that the controller reports for a callback. -/
def reported (c : Callback) (s : σ) : Option String :=
  match ((decideCallback decidedByPrefix c).run exec s).1 with
  | .ok (_, status) => some status
  | .error _ => none

/-- Something was raised after the callback was handed over. -/
def raised (c : Callback) (s : σ) : Bool :=
  match (decideCallback decidedByPrefix c).run exec s with
  | (.ok (message, _), s') =>
    match ((acknowledge c message).run exec s').1 with
    | .ok _ => false
    | .error _ => true
  | (.error _, _) => true

/-- The state behind a callback. -/
def afterCallback (c : Callback) (s : σ) : σ :=
  ((processCallback decidedByPrefix c {}).run exec s).2

/-- The counts behind a callback. -/
def counted (c : Callback) (s : σ) (result : TelegramUpdateResult) : TelegramUpdateResult :=
  let result := result.decided ((reported exec decidedByPrefix c s).getD "")
  if raised exec decidedByPrefix c s then { result with failed := result.failed + 1 } else result

/-- Reporting a failure never fails. -/
theorem run_reportFailure (c : Callback) (s : σ) :
    ∃ s', ∀ result', (reportFailure c result').run exec s =
      (.ok { result' with failed := result'.failed + 1 }, s') := by
  by_cases hid : c.id ≠ ""
  · refine ⟨(exec (.answerCallbackQuery c.id (some "审批处理失败，请查看 HMN 日志。")) s).2,
      fun result' => ?_⟩
    rw [reportFailure, if_pos hid, Prog.run_bind, Prog.run_tryCatch, answerCallbackQuery,
      Prog.run_call]
    cases (exec (.answerCallbackQuery c.id (some "审批处理失败，请查看 HMN 日志。")) s).1 <;> rfl
  · refine ⟨s, fun result' => ?_⟩
    rw [reportFailure, if_neg hid]
    rfl

/-- What processing a callback does. -/
theorem run_processCallback (c : Callback) (result : TelegramUpdateResult) (s : σ) :
    (processCallback decidedByPrefix c result).run exec s =
      (.ok (counted exec decidedByPrefix c s result), afterCallback exec decidedByPrefix c s) := by
  have hrun : ∃ s', ∀ result', (processCallback decidedByPrefix c result').run exec s =
      (.ok (counted exec decidedByPrefix c s result'), s') := by
    obtain ⟨decision, s₁, hdecide⟩ : ∃ decision s₁,
        (decideCallback decidedByPrefix c).run exec s = (decision, s₁) := ⟨_, _, rfl⟩
    have hprocess : ∀ result', (processCallback decidedByPrefix c result').run exec s =
        (settleCallback c result' decision).run exec s₁ := by
      intro result'
      rw [processCallback, Prog.run_bind, run_attempt, hdecide]
    rcases decision with e | ⟨message, status⟩
    · have hreported : reported exec decidedByPrefix c s = none := by
        rw [reported, hdecide]
      have hraised : raised exec decidedByPrefix c s = true := by
        rw [raised, hdecide]
      obtain ⟨s', hs'⟩ := run_reportFailure exec c s₁
      refine ⟨s', fun result' => ?_⟩
      rw [hprocess, settleCallback, hs', counted, hreported, hraised]
      rfl
    · have hreported : reported exec decidedByPrefix c s = some status := by
        rw [reported, hdecide]
      obtain ⟨ack, s₂, hack⟩ : ∃ ack s₂, (acknowledge c message).run exec s₁ = (ack, s₂) :=
        ⟨_, _, rfl⟩
      cases ack with
      | error e =>
        have hraised : raised exec decidedByPrefix c s = true := by
          simp only [raised, hdecide, hack]
        obtain ⟨s', hs'⟩ := run_reportFailure exec c s₂
        refine ⟨s', fun result' => ?_⟩
        rw [hprocess, settleCallback, Prog.run_bind, run_attempt, hack]
        simp only
        rw [hs', counted, hreported, hraised]
        rfl
      | ok u =>
        have hraised : raised exec decidedByPrefix c s = false := by
          simp only [raised, hdecide, hack]
        refine ⟨s₂, fun result' => ?_⟩
        rw [hprocess, settleCallback, Prog.run_bind, run_attempt, hack, counted, hreported, hraised]
        rfl
  obtain ⟨s', hs'⟩ := hrun
  rw [hs', afterCallback, hs']

theorem run_clearCard (card : Option (Json × Json)) (s : σ) :
    ∃ u, ((clearCard card).run exec s).1 = .ok u := by
  rcases card with _ | ⟨chatId, messageId⟩
  · exact ⟨(), rfl⟩
  · rw [clearCard, Prog.run_tryCatch, clearInlineKeyboard, Prog.run_call]
    cases (exec (.clearInlineKeyboard chatId messageId) s).1 <;> exact ⟨(), rfl⟩

/-- Answering succeeds when the chat takes the answer and the card can be read. -/
theorem run_acknowledge (c : Callback) (message : String) (s : σ) :
    (∃ u, ((acknowledge c message).run exec s).1 = .ok u) ↔
      (∃ u, (exec (.answerCallbackQuery c.id (c.answer message)) s).1 = .ok u)
        ∧ ∃ card, c.card = .ok card := by
  rw [acknowledge, answerCallbackQuery, Prog.call_bind, Prog.run_call]
  rcases (exec (.answerCallbackQuery c.id (c.answer message)) s).1 with e | u
  · exact iff_of_false (by rintro ⟨u, hu⟩; cases hu) (by rintro ⟨⟨u, hu⟩, -⟩; cases hu)
  · rcases c.card with e | card
    · exact iff_of_false (by rintro ⟨u, hu⟩; cases hu) (by rintro ⟨-, card, hcard⟩; cases hcard)
    · exact iff_of_true (run_clearCard exec card _) ⟨⟨u, rfl⟩, card, rfl⟩

/-- The chat takes the answer to a callback that the controller decided, and
the card can be read. -/
def Answered (c : Callback) (s : σ) : Prop :=
  ∀ message status s₁, (decideCallback decidedByPrefix c).run exec s = (.ok (message, status), s₁) →
    (∃ u, (exec (.answerCallbackQuery c.id (c.answer message)) s₁).1 = .ok u)
      ∧ ∃ card, c.card = .ok card

/-- Behind a reported decision nothing is raised exactly when it is answered. -/
theorem raised_iff {c : Callback} {s : σ} {status : String}
    (h : reported exec decidedByPrefix c s = some status) :
    raised exec decidedByPrefix c s = false ↔ Answered exec decidedByPrefix c s := by
  obtain ⟨decision, s₁, hdecide⟩ : ∃ decision s₁,
      (decideCallback decidedByPrefix c).run exec s = (decision, s₁) := ⟨_, _, rfl⟩
  rcases decision with e | ⟨message, status'⟩
  · rw [reported, hdecide] at h
    cases h
  · have hanswered : Answered exec decidedByPrefix c s ↔
        ∃ u, ((acknowledge c message).run exec s₁).1 = .ok u := by
      rw [run_acknowledge]
      constructor
      · exact fun hall => hall message status' s₁ hdecide
      · rintro hok message' status'' s₂ hdecide'
        rw [hdecide] at hdecide'
        cases hdecide'
        exact hok
    rw [hanswered, raised, hdecide]
    simp only
    rcases ((acknowledge c message).run exec s₁).1 with e | u <;> simp

/-! ## §5. One poll. -/

/-- The callbacks that are processed, each with the state in which it is. -/
def visits : List Json → σ → List (Callback × σ)
  | [], _ => []
  | update :: updates, s =>
    match readUpdate update with
    | .error _ => []
    | .ok c =>
      if c.isApproval then (c, s) :: visits updates (afterCallback exec decidedByPrefix c s)
      else visits updates s

/-- The identifiers of the updates. -/
def updateIds (updates : List Json) : List Int :=
  updates.filterMap fun update =>
    match readUpdate update with
    | .ok c => some c.updateId
    | .error _ => none

/-- The updates can be read. -/
def UpdatesReadable (updates : List Json) : Prop := ∀ update ∈ updates, ∃ c, readUpdate update = .ok c

/-- The counts behind the loop. -/
def tally (visited : List (Callback × σ)) (result : TelegramUpdateResult) (nextOffset : Option Int) :
    TelegramUpdateResult where
  processed := result.processed + visited.length
  approved := result.approved
    + visited.countP fun v => reported exec decidedByPrefix v.1 v.2 = some "approved"
  rejected := result.rejected
    + visited.countP fun v => reported exec decidedByPrefix v.1 v.2 = some "rejected"
  failed := result.failed + visited.countP fun v => raised exec decidedByPrefix v.1 v.2
  nextOffset := nextOffset

/-- The offset behind the loop. -/
def advance (offset : Option Int) (ids : List Int) : Option Int :=
  ids.foldl (fun offset id => some (max (offset.getD 0) (id + 1))) offset

/-- One callback more. -/
theorem tally_cons (c : Callback) (s : σ) (visited : List (Callback × σ))
    (result : TelegramUpdateResult) (offset nextOffset : Option Int) :
    tally exec decidedByPrefix visited
        (counted exec decidedByPrefix c s
          { result with processed := result.processed + 1, nextOffset := offset })
        nextOffset =
      tally exec decidedByPrefix ((c, s) :: visited) result nextOffset := by
  have hstatus : ∀ status : String, status ≠ "" →
      ((reported exec decidedByPrefix c s).getD "" = status ↔
        reported exec decidedByPrefix c s = some status) := by
    intro status hne
    cases reported exec decidedByPrefix c s with
    | none => simp [hne.symm]
    | some status' => simp
  have happroved := hstatus "approved" (by decide)
  have hrejected := hstatus "rejected" (by decide)
  have hstep : counted exec decidedByPrefix c s
      { result with processed := result.processed + 1, nextOffset := offset } = {
      processed := result.processed + 1
      approved := result.approved
        + if reported exec decidedByPrefix c s = some "approved" then 1 else 0
      rejected := result.rejected
        + if reported exec decidedByPrefix c s = some "rejected" then 1 else 0
      failed := result.failed + if raised exec decidedByPrefix c s then 1 else 0
      nextOffset := offset } := by
    rw [counted, TelegramUpdateResult.decided]
    by_cases h₁ : reported exec decidedByPrefix c s = some "approved"
    · cases hraised : raised exec decidedByPrefix c s <;> simp [h₁]
    · by_cases h₂ : reported exec decidedByPrefix c s = some "rejected"
      · cases hraised : raised exec decidedByPrefix c s <;> simp [h₂]
      · cases hraised : raised exec decidedByPrefix c s <;>
          simp [happroved.not.mpr h₁, hrejected.not.mpr h₂, h₁, h₂]
  rw [hstep, tally, tally]
  simp only [List.length_cons, List.countP_cons, decide_eq_true_eq, Nat.add_assoc, Nat.add_comm 1]
  simp [Nat.add_comm]

theorem counted_nextOffset (c : Callback) (s : σ) (result : TelegramUpdateResult) :
    (counted exec decidedByPrefix c s result).nextOffset = result.nextOffset := by
  rw [counted, TelegramUpdateResult.decided]
  split_ifs <;> rfl

/-- What the loop does with updates that can be read. -/
theorem run_processUpdates {updates : List Json} (h : UpdatesReadable updates) :
    ∀ (result : TelegramUpdateResult) (s : σ),
      ((processUpdates decidedByPrefix updates result).run exec s).1 =
        .ok (tally exec decidedByPrefix (visits exec decidedByPrefix updates s) result
          (advance result.nextOffset (updateIds updates))) := by
  induction updates with
  | nil => exact fun _ _ => rfl
  | cons update updates ih =>
    intro result s
    obtain ⟨⟨c, hc⟩, hupdates⟩ := List.forall_mem_cons.mp h
    have hids : updateIds (update :: updates) = c.updateId :: updateIds updates := by
      rw [updateIds, List.filterMap_cons, hc]
      rfl
    rw [processUpdates, hc, Telegram.run_orRaise_bind, hids]
    simp only
    by_cases happroval : c.isApproval = true
    · rw [if_pos happroval, Prog.run_bind, run_processCallback]
      simp only
      rw [ih hupdates, counted_nextOffset, visits, hc]
      simp only
      rw [if_pos happroval, tally_cons]
      rfl
    · rw [if_neg happroval, ih hupdates, visits, hc]
      simp only
      rw [if_neg happroval]
      rfl

/-- An update that cannot be read stops the loop. -/
theorem readable_of_run {updates : List Json} : ∀ {result result' : TelegramUpdateResult} {s : σ},
    ((processUpdates decidedByPrefix updates result).run exec s).1 = .ok result' →
      UpdatesReadable updates := by
  induction updates with
  | nil => exact fun _ => nofun
  | cons update updates ih =>
    intro result result' s h
    rw [processUpdates, Telegram.run_orRaise_bind] at h
    cases hread : readUpdate update with
    | error e =>
      rw [hread] at h
      cases h
    | ok c =>
      rw [hread] at h
      refine List.forall_mem_cons.mpr ⟨⟨c, hread⟩, ?_⟩
      simp only at h
      by_cases happroval : c.isApproval = true
      · rw [if_pos happroval, Prog.run_bind, run_processCallback] at h
        exact ih h
      · rw [if_neg happroval] at h
        exact ih h

/-- A callback is counted in one of the counts at most. -/
def CountedOnce (c : Callback) (s : σ) : Prop :=
  reported exec decidedByPrefix c s = some "approved"
      ∨ reported exec decidedByPrefix c s = some "rejected" →
    raised exec decidedByPrefix c s = false

/-- What a poll is to return for its updates: the greatest of the offset and
what follows the identifiers, and counts of the callbacks, each in one at
most. -/
structure Accounted (offset : Option Int) (updates : List Json) (s : σ)
    (result : TelegramUpdateResult) : Prop where
  nextOffset : result.nextOffset = (offset.toList ++ (updateIds updates).map (· + 1)).max?
  processed : result.processed = (visits exec decidedByPrefix updates s).length
  approved : result.approved = (visits exec decidedByPrefix updates s).countP fun v =>
    reported exec decidedByPrefix v.1 v.2 = some "approved"
  rejected : result.rejected = (visits exec decidedByPrefix updates s).countP fun v =>
    reported exec decidedByPrefix v.1 v.2 = some "rejected"
  failed : result.failed = (visits exec decidedByPrefix updates s).countP fun v =>
    raised exec decidedByPrefix v.1 v.2
  once : ∀ v ∈ visits exec decidedByPrefix updates s, CountedOnce exec decidedByPrefix v.1 v.2

/-- The updates can be read, the offset is not taken from zero, and every
decision that is reported is answered. -/
structure Undisturbed (offset : Option Int) (updates : List Json) (s : σ) : Prop where
  readable : UpdatesReadable updates
  fromOffset : offset.isSome ∨ updates = [] ∨ ∃ id ∈ updateIds updates, -1 ≤ id
  answered : ∀ v ∈ visits exec decidedByPrefix updates s,
    reported exec decidedByPrefix v.1 v.2 = some "approved"
        ∨ reported exec decidedByPrefix v.1 v.2 = some "rejected" →
      Answered exec decidedByPrefix v.1 v.2

theorem advance_some (ids : List Int) : ∀ offset : Int,
    advance (some offset) ids = some ((ids.map (· + 1)).foldl max offset) := by
  induction ids with
  | nil => exact fun _ => rfl
  | cons id ids ih => exact fun offset => ih (max offset (id + 1))

theorem foldl_max (xs : List Int) : ∀ a b : Int, xs.foldl max (max a b) = max a (xs.foldl max b) := by
  induction xs with
  | nil => exact fun _ _ => rfl
  | cons x xs ih =>
    intro a b
    rw [List.foldl_cons, List.foldl_cons, max_assoc, ih]

theorem le_foldl_max {a : Int} (xs : List Int) : ∀ {b : Int},
    a ≤ xs.foldl max b ↔ a ≤ b ∨ ∃ x ∈ xs, a ≤ x := by
  induction xs with
  | nil => simp
  | cons x xs ih =>
    intro b
    rw [List.foldl_cons, ih, le_max_iff, or_assoc, List.exists_mem_cons_iff]

/-- The loop takes the greatest, unless it starts without an offset and all
identifiers are below minus one. -/
theorem advance_eq_max (offset : Option Int) (ids : List Int) :
    advance offset ids = (offset.toList ++ ids.map (· + 1)).max? ↔
      offset.isSome ∨ ids = [] ∨ ∃ id ∈ ids, -1 ≤ id := by
  cases offset with
  | some offset =>
    refine iff_of_true ?_ (Or.inl rfl)
    rw [advance_some]
    exact List.max?_cons'.symm
  | none =>
    cases ids with
    | nil => exact iff_of_true rfl (Or.inr (Or.inl rfl))
    | cons id ids =>
      have hadvance : advance none (id :: ids) =
          some (max 0 ((ids.map (· + 1)).foldl max (id + 1))) := by
        rw [← foldl_max]
        exact advance_some ids (max 0 (id + 1))
      have hmax : (((none : Option Int).toList ++ (id :: ids).map (· + 1)).max? : Option Int) =
          some ((ids.map (· + 1)).foldl max (id + 1)) := List.max?_cons'
      rw [hadvance, hmax, Option.some.injEq, max_eq_right_iff, le_foldl_max]
      simp only [Option.isSome_none, Bool.false_eq_true, reduceCtorEq, false_or,
        List.exists_mem_cons_iff]
      constructor
      · rintro (h | ⟨_, hother, h⟩)
        · exact Or.inl (by omega)
        · obtain ⟨other, hmem, rfl⟩ := List.mem_map.mp hother
          exact Or.inr ⟨other, hmem, by omega⟩
      · rintro (h | ⟨other, hother, h⟩)
        · exact Or.inl (by omega)
        · exact Or.inr ⟨other + 1, List.mem_map_of_mem hother, by omega⟩

/-- **The counts and the offset of a poll are right exactly when nothing disturbs it.** -/
theorem accounted_iff (offset : Option Int) (updates : List Json) (s : σ) :
    (∃ result, ((processUpdates decidedByPrefix updates { nextOffset := offset }).run exec s).1 =
        .ok result ∧ Accounted exec decidedByPrefix offset updates s result) ↔
      Undisturbed exec decidedByPrefix offset updates s := by
  have honce : (∀ v ∈ visits exec decidedByPrefix updates s,
      CountedOnce exec decidedByPrefix v.1 v.2) ↔
      ∀ v ∈ visits exec decidedByPrefix updates s,
        reported exec decidedByPrefix v.1 v.2 = some "approved"
            ∨ reported exec decidedByPrefix v.1 v.2 = some "rejected" →
          Answered exec decidedByPrefix v.1 v.2 := by
    refine forall₂_congr fun v _ => forall_congr' fun hreported => ?_
    rcases hreported with hreported | hreported <;> exact raised_iff exec decidedByPrefix hreported
  have hempty : updateIds updates = [] → UpdatesReadable updates → updates = [] := by
    intro hids hreadable
    cases updates with
    | nil => rfl
    | cons update updates =>
      obtain ⟨c, hc⟩ := hreadable update List.mem_cons_self
      rw [updateIds, List.filterMap_cons, hc] at hids
      cases hids
  constructor
  · rintro ⟨result, hrun, haccounted⟩
    have hreadable := readable_of_run exec decidedByPrefix hrun
    obtain rfl := Except.ok.inj
      ((run_processUpdates exec decidedByPrefix hreadable { nextOffset := offset } s).symm.trans hrun)
    refine ⟨hreadable, ?_, honce.mp haccounted.once⟩
    rcases (advance_eq_max offset (updateIds updates)).mp haccounted.nextOffset with h | h | h
    · exact Or.inl h
    · exact Or.inr (Or.inl (hempty h hreadable))
    · exact Or.inr (Or.inr h)
  · rintro ⟨hreadable, hoffset, hanswered⟩
    refine ⟨_, run_processUpdates exec decidedByPrefix hreadable { nextOffset := offset } s, ?_⟩
    exact {
      nextOffset := (advance_eq_max offset (updateIds updates)).mpr (by
        rcases hoffset with h | rfl | h
        · exact Or.inl h
        · exact Or.inr (Or.inl rfl)
        · exact Or.inr (Or.inr h))
      processed := Nat.zero_add _
      approved := Nat.zero_add _
      rejected := Nat.zero_add _
      failed := Nat.zero_add _
      once := honce.mpr hanswered }

/-! ## §6. Polls one after the other. -/

/-- The offset that is kept, and the state. -/
structure Poller (σ : Type) where
  offset : Option Int
  state : σ

/-- One poll: what it returns as the next offset is written back, unless it raises. -/
def Poller.poll (p : Poller σ) : Poller σ :=
  match (processTelegramCallbacks decidedByPrefix p.offset).run exec p.state with
  | (.ok result, s) => ⟨result.nextOffset, s⟩
  | (.error _, s) => ⟨p.offset, s⟩

/-- The poller behind some polls. -/
def Poller.polls (p : Poller σ) : Nat → Poller σ
  | 0 => p
  | k + 1 => (p.polls k).poll exec decidedByPrefix

/-- The updates that the next poll gets, none when it gets no answer. -/
def Poller.updates (p : Poller σ) : List Json :=
  match (exec (.getUpdates p.offset) p.state).1 with
  | .ok updates => updates
  | .error _ => []

/-- The state in which they are processed. -/
def Poller.processing (p : Poller σ) : σ := (exec (.getUpdates p.offset) p.state).2

/-- The next poll returns what it is to return for the updates it gets. -/
def Poller.Accounts (p : Poller σ) : Prop :=
  ∀ updates, (exec (.getUpdates p.offset) p.state).1 = .ok updates →
    ∃ result, ((processTelegramCallbacks decidedByPrefix p.offset).run exec p.state).1 = .ok result
      ∧ Accounted exec decidedByPrefix p.offset updates (p.processing exec) result

/-- Nothing disturbs the next poll. -/
def Poller.Calm (p : Poller σ) : Prop :=
  Undisturbed exec decidedByPrefix p.offset (p.updates exec) (p.processing exec)

theorem Poller.run_of_updates {p : Poller σ} {updates : List Json}
    (h : (exec (.getUpdates p.offset) p.state).1 = .ok updates) :
    (processTelegramCallbacks decidedByPrefix p.offset).run exec p.state =
      (processUpdates decidedByPrefix updates { nextOffset := p.offset }).run exec
        (p.processing exec) := by
  rw [processTelegramCallbacks, getUpdates, Prog.call_bind, Prog.run_call, h]
  rfl

theorem Poller.accounts_iff (p : Poller σ) :
    p.Accounts exec decidedByPrefix ↔ p.Calm exec decidedByPrefix := by
  rw [Accounts, Calm, updates]
  cases hget : (exec (.getUpdates p.offset) p.state).1 with
  | error e =>
    exact iff_of_true (fun updates h => by cases h) ⟨nofun, Or.inr (Or.inl rfl), nofun⟩
  | ok updates =>
    rw [← accounted_iff]
    constructor
    · intro hall
      rw [← Poller.run_of_updates exec decidedByPrefix hget]
      exact hall updates rfl
    · rintro hone updates' h
      obtain rfl := Except.ok.inj h
      rwa [Poller.run_of_updates exec decidedByPrefix hget]

/-- The offset behind a poll that nothing disturbs. -/
theorem Poller.offset_poll {p : Poller σ} (h : p.Calm exec decidedByPrefix) :
    (p.poll exec decidedByPrefix).offset = advance p.offset (updateIds (p.updates exec)) := by
  rw [Calm, updates] at h
  rw [poll, updates]
  cases hget : (exec (.getUpdates p.offset) p.state).1 with
  | error e =>
    rw [processTelegramCallbacks, getUpdates, Prog.call_bind, Prog.run_call, hget]
    rfl
  | ok updates =>
    rw [hget] at h
    have hrun := run_processUpdates exec decidedByPrefix h.readable { nextOffset := p.offset }
      (p.processing exec)
    rw [Poller.run_of_updates exec decidedByPrefix hget]
    obtain ⟨r, s', heq⟩ : ∃ r s', (processUpdates decidedByPrefix updates
        { nextOffset := p.offset }).run exec (p.processing exec) = (r, s') := ⟨_, _, rfl⟩
    rw [heq] at hrun ⊢
    obtain rfl : r = _ := hrun
    rfl

/-- The offset never falls. -/
theorem le_advance {offset : Int} (ids : List Int) :
    ∃ next, advance (some offset) ids = some next ∧ offset ≤ next :=
  ⟨_, advance_some ids offset, (le_foldl_max _).mpr (Or.inl le_rfl)⟩

/-- The offset is above every identifier. -/
theorem lt_advance {offset : Option Int} {ids : List Int} {id : Int} (h : id ∈ ids) :
    ∃ next, advance offset ids = some next ∧ id < next := by
  cases ids with
  | nil => cases h
  | cons first ids =>
    refine ⟨_, advance_some ids (max (offset.getD 0) (first + 1)), ?_⟩
    refine Int.lt_of_add_one_le ((le_foldl_max _).mpr ?_)
    rcases List.mem_cons.mp h with rfl | h
    · exact Or.inl (le_max_right _ _)
    · exact Or.inr ⟨_, List.mem_map_of_mem h, le_rfl⟩

/-- Behind polls that nothing disturbs the offset is above the identifiers of all of them. -/
theorem Poller.lt_offset {p : Poller σ} {k : Nat}
    (h : ∀ i < k, (p.polls exec decidedByPrefix i).Calm exec decidedByPrefix) :
    ∀ i < k, ∀ id ∈ updateIds ((p.polls exec decidedByPrefix i).updates exec),
      ∃ offset, (p.polls exec decidedByPrefix k).offset = some offset ∧ id < offset := by
  induction k with
  | zero => exact fun i hi => absurd hi (Nat.not_lt_zero i)
  | succ k ih =>
    intro i hi id hid
    have hoffset := Poller.offset_poll exec decidedByPrefix (h k (Nat.lt_succ_self k))
    rw [polls, hoffset]
    rcases Nat.lt_succ_iff_lt_or_eq.mp hi with hi | rfl
    · obtain ⟨offset, heq, hlt⟩ := ih (fun j hj => h j (Nat.lt_succ_of_lt hj)) i hi id hid
      rw [heq]
      obtain ⟨next, hnext, hle⟩ := @le_advance offset
        (updateIds ((p.polls exec decidedByPrefix k).updates exec))
      exact ⟨next, hnext, lt_of_lt_of_le hlt hle⟩
    · exact lt_advance hid

/-- **Every poll accounts for its callbacks, and no update comes in two polls,
exactly when nothing disturbs the polls**, for a chat that from an offset on
gives updates with identifiers from that offset on. -/
theorem telegram_callbacks_iff
    (hchat : ∀ offset s updates, (exec (.getUpdates (some offset)) s).1 = .ok updates →
      ∀ id ∈ updateIds updates, offset ≤ id)
    (p : Poller σ) (n : Nat) :
    ((∀ k < n, (p.polls exec decidedByPrefix k).Accounts exec decidedByPrefix)
        ∧ ∀ i j, i < j → j < n →
          ∀ id ∈ updateIds ((p.polls exec decidedByPrefix i).updates exec),
            id ∉ updateIds ((p.polls exec decidedByPrefix j).updates exec)) ↔
      ∀ k < n, (p.polls exec decidedByPrefix k).Calm exec decidedByPrefix := by
  constructor
  · rintro ⟨haccounts, -⟩ k hk
    exact (Poller.accounts_iff exec decidedByPrefix _).mp (haccounts k hk)
  · intro hcalm
    refine ⟨fun k hk => (Poller.accounts_iff exec decidedByPrefix _).mpr (hcalm k hk), ?_⟩
    intro i j hij hj id hid hid'
    obtain ⟨offset, hoffset, hlt⟩ := Poller.lt_offset exec decidedByPrefix
      (fun k hk => hcalm k (lt_trans hk hj)) i hij id hid
    rw [Poller.updates, hoffset] at hid'
    cases hget : (exec (.getUpdates (some offset)) (p.polls exec decidedByPrefix j).state).1 with
    | error e =>
      rw [hget] at hid'
      cases hid'
    | ok updates =>
      rw [hget] at hid'
      exact absurd (hchat offset _ updates hget id hid') (not_le.mpr hlt)

end Run

/-- A chat with some updates and a controller that approves. -/
def approvingChat (updates : List Json) (answer : Except PyError Unit) :
    Prog.Exec telegramSig Unit
  | .getUpdates offset, s =>
    (.ok (updates.filter fun update => (updateIds [update]).all fun id => offset.getD id ≤ id), s)
  | .handleCallback _ _, s => (.ok (.obj [("status", .str "approved")]), s)
  | .answerCallbackQuery _ _, s => (answer, s)
  | .clearInlineKeyboard _ _, s => (.ok (), s)

theorem approvingChat_offset (all : List Json) (answer : Except PyError Unit) :
    ∀ offset s updates, (approvingChat all answer (.getUpdates (some offset)) s).1 = .ok updates →
      ∀ id ∈ updateIds updates, offset ≤ id := by
  intro offset s updates h id hid
  obtain rfl := Except.ok.inj h
  obtain ⟨update, hupdate, hread⟩ := List.mem_filterMap.mp hid
  have hall := (List.mem_filter.mp hupdate).2
  have hone : id ∈ updateIds [update] :=
    List.mem_filterMap.mpr ⟨update, List.mem_singleton.mpr rfl, hread⟩
  simpa using List.all_eq_true.mp hall id hone

/-- An update with the callback of an approval. -/
def approvalUpdate : Json := .obj [("update_id", .int 7), ("callback_query", .obj [
  ("id", .str "q1"), ("from", .obj [("username", .str "ops")]),
  ("data", .str "hmn:approval:approve:approval_1")])]

def approvalCallback : Callback where
  updateId := 7
  callback := [("id", .str "q1"), ("from", .obj [("username", .str "ops")]),
    ("data", .str "hmn:approval:approve:approval_1")]
  data := "hmn:approval:approve:approval_1"
  id := "q1"
  username := "ops"

theorem visits_approvalUpdate (answer : Except PyError Unit) :
    visits (approvingChat [approvalUpdate] answer) "telegram" [approvalUpdate] () =
      [(approvalCallback, ())] := by
  have hread : readUpdate approvalUpdate = .ok approvalCallback := by
    decide +kernel
  rw [visits, hread]
  simp only
  rw [if_pos (by decide +kernel), visits]

/-- One approval, answered. -/
theorem approval_accounted :
    ((⟨some 0, ()⟩ : Poller Unit).polls (approvingChat [approvalUpdate] (.ok ())) "telegram" 0).Accounts
      (approvingChat [approvalUpdate] (.ok ())) "telegram" := by
  have hall := (telegram_callbacks_iff (approvingChat [approvalUpdate] (.ok ())) "telegram"
    (approvingChat_offset _ _) ⟨some 0, ()⟩ 1).mpr ?_
  · exact hall.1 0 Nat.zero_lt_one
  · intro k hk
    obtain rfl := Nat.lt_one_iff.mp hk
    have hupdates : Poller.updates (approvingChat [approvalUpdate] (.ok ())) ⟨some 0, ()⟩ =
        [approvalUpdate] := by
      decide +kernel
    refine ⟨?_, Or.inl rfl, ?_⟩
    · rw [Poller.polls, hupdates]
      exact List.forall_mem_singleton.mpr ⟨approvalCallback, by decide +kernel⟩
    · rw [Poller.polls, hupdates]
      intro v hv _ message status s₁ _
      obtain rfl := List.mem_singleton.mp (visits_approvalUpdate (.ok ()) ▸ hv)
      exact ⟨⟨(), rfl⟩, none, by decide +kernel⟩

/-- An approval whose answer fails is counted twice. -/
theorem approval_counted_twice :
    ¬ ((∀ k < 1, ((⟨some 0, ()⟩ : Poller Unit).polls
          (approvingChat [approvalUpdate] (.error (.runtime "HTTP 400"))) "telegram" k).Accounts
            (approvingChat [approvalUpdate] (.error (.runtime "HTTP 400"))) "telegram")
        ∧ ∀ i j, i < j → j < 1 → ∀ id ∈ updateIds (((⟨some 0, ()⟩ : Poller Unit).polls
            (approvingChat [approvalUpdate] (.error (.runtime "HTTP 400"))) "telegram" i).updates
              (approvingChat [approvalUpdate] (.error (.runtime "HTTP 400")))),
          id ∉ updateIds (((⟨some 0, ()⟩ : Poller Unit).polls
            (approvingChat [approvalUpdate] (.error (.runtime "HTTP 400"))) "telegram" j).updates
              (approvingChat [approvalUpdate] (.error (.runtime "HTTP 400"))))) := by
  rintro ⟨haccounts, -⟩
  have hupdates : Poller.updates (approvingChat [approvalUpdate] (.error (.runtime "HTTP 400")))
      ⟨some 0, ()⟩ = [approvalUpdate] := by
    decide +kernel
  have hcalm := (Poller.accounts_iff _ _ _).mp (haccounts 0 Nat.zero_lt_one)
  have hanswered := hcalm.answered (approvalCallback, ())
  rw [Poller.polls, hupdates, visits_approvalUpdate] at hanswered
  obtain ⟨⟨u, hu⟩, -⟩ := hanswered (List.mem_singleton.mpr rfl) (Or.inl rfl) "已处理。" "approved" () rfl
  cases hu

end Hmn
