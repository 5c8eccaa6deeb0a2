/-
  Hmn.Join.OneTime — a join token is one-time.

  Consuming a token is a one-shot right: the save of the `used` row grabs
  it, and the two saves of the new node use it.  The check before the save
  is made on a copy loaded in another transaction, so two joins can both
  consume the token; but no caller ever saves a pending token, so a token
  that was revoked or is too old is never consumed again.

  Main results: `join_token_one_time` — in every interleaving in which every
  consume finds the stored token pending, at most one node is registered
  with it, and in EVERY interleaving a request whose consume step begins
  after a revocation or after the expiry registers none;
  `two_joins_one_token` — an interleaving in which two nodes are registered.
-/
import Hmn.Framework.OneShot
import Hmn.Join.Join
import Hmn.Store.Frames

namespace Hmn

open Framework Py

/-! ## §1. The token and the nodes registered with it. -/

/-- The stored token. -/
def storedToken (value : String) (w : World) : Option JoinToken := w.store.tokens.find? value

/-- The save of a consumed token. -/
def consumes (value : String) : Call → Bool
  | .saveToken t => t.value = value && t.status = .used
  | _ => false

/-- The save of a revoked token. -/
def commitsRevoke (value : String) : Call → Bool
  | .saveToken t => t.value = value && t.status = .revoked
  | _ => false

/-- The node a call saves. -/
def savedNode : Call → Option String
  | .saveNode n => some n.nodeId
  | _ => none

/-- The condition on a run: the token is consumed only while the stored
status is `pending`. -/
def ConsumesPending {ι : Type} (value : String) (_ : ι) (w : World) (op : Call) : Prop :=
  consumes value op = true → (storedToken value w).map JoinToken.status = some .pending

instance {ι : Type} (value : String) (i : ι) (w : World) (op : Call) :
    Decidable (ConsumesPending value i w op) := by
  unfold ConsumesPending
  infer_instance

/-- Collect the nodes saved by the callers `part`. -/
def registered {ι : Type} (part : ι → Bool) (nodes : List String) (i : ι) (_ : World)
    (op : Call) : List String :=
  match part i, savedNode op with
  | true, some nodeId => nodes ++ [nodeId]
  | _, _ => nodes

/-- The status of the stored token is not `pending`. -/
def Spent (value : String) (w : World) : Prop :=
  (storedToken value w).map JoinToken.status ≠ some .pending

/-! ## §2. What a call does to the token. -/

section Calls

variable {env : Env} {value : String} {e : Timestamp} {w : World} {op : Call}

theorem storedToken_save (t : JoinToken) :
    storedToken value (exec env (.saveToken t) w).2
      = if t.value = value then some t else storedToken value w := by
  simp [storedToken, exec, Table.find?_upsert]

theorem storedToken_keep (h : op.writesTokens = false) :
    storedToken value (exec env op w).2 = storedToken value w := by
  rw [storedToken, exec_tokens h]
  rfl

/-- The token, if it is stored, expires at `e`. -/
def Expires (value : String) (e : Timestamp) (w : World) : Prop :=
  ∀ t, storedToken value w = some t → t.expiresAt = e

/-- Callers never save a pending token, nor another expiry for this one. -/
def savesSpent (value : String) (e : Timestamp) : Call → Prop
  | .saveToken t => t.status ≠ .pending ∧ (t.value = value → t.expiresAt = e)
  | _ => True

/-- A loaded token is the one that was asked for, with its expiry. -/
def loadsToken (value : String) (e : Timestamp) : (op : Call) → Call.Res op → Prop
  | .loadToken id, r => ∀ t, r = some t → t.value = id ∧ (id = value → t.expiresAt = e)
  | _, _ => True

theorem loadsToken_exec (h : Expires value e w) : loadsToken value e op (exec env op w).1 := by
  cases op with
  | loadToken id =>
    intro t ht
    exact ⟨Table.key_of_find? ht, fun hid => h t (hid ▸ ht)⟩
  | _ => trivial

theorem expires_exec (h : Expires value e w) (hop : savesSpent value e op) :
    Expires value e (exec env op w).2 := by
  cases hw : op.writesTokens with
  | false => rwa [Expires, storedToken_keep hw]
  | true =>
    cases op with
    | saveToken t =>
      intro t' ht'
      rw [storedToken_save] at ht'
      split_ifs at ht' with hvalue
      · cases ht'
        exact hop.2 hvalue
      · exact h t' ht'
    | _ => simp [Call.writesTokens] at hw

/-- **A spent token stays spent.** -/
theorem spent_exec (h : Spent value w) (hop : savesSpent value e op) :
    Spent value (exec env op w).2 := by
  cases hw : op.writesTokens with
  | false => rwa [Spent, storedToken_keep hw]
  | true =>
    cases op with
    | saveToken t =>
      rw [Spent, storedToken_save]
      split_ifs
      · simpa using hop.1
      · exact h
    | _ => simp [Call.writesTokens] at hw

/-- A revocation spends the token. -/
theorem spent_revoke (h : commitsRevoke value op = true) : Spent value (exec env op w).2 := by
  cases op with
  | saveToken t =>
    simp only [commitsRevoke, Bool.and_eq_true, decide_eq_true_eq] at h
    simp [Spent, storedToken_save, h.1, h.2]
  | _ => simp [commitsRevoke] at h

/-- Consuming a token: the gate is the stored status `pending`. -/
def tokenShot (env : Env) (value : String) (e : Timestamp) : OneShot callSig World String (exec env) where
  isOpen w := (storedToken value w).map JoinToken.status = some .pending
  inv := Expires value e
  ok := savesSpent value e
  sees := loadsToken value e
  grabs := consumes value
  acts := savedNode
  free op := op = .uuid4
  again := True
  strict := False
  answers h _ := loadsToken_exec h
  keeps h hop _ := expires_exec h hop
  grab_closes := by
    intro w op _ hop hgrab
    cases op with
    | saveToken t =>
      simp only [consumes, Bool.and_eq_true, decide_eq_true_eq] at hgrab
      simp [storedToken_save, hgrab.1, hgrab.2]
    | _ => simp [consumes] at hgrab
  stays_closed _ hop hclosed := spent_exec hclosed hop
  stays_open h := h.elim

end Calls

/-! ## §3. Every caller obeys the discipline. -/

section Obeys

variable {env : Env} {value : String} {e : Timestamp}

/-- A call that neither saves a token nor a node. -/
def Call.neutral : Call → Prop
  | .saveToken _ | .saveNode _ => False
  | _ => True

/-- A neutral call is possible for every caller that does not hold an unused
right, and leaves it what it holds. -/
theorem neutral_step (env : Env) (value : String) (e : Timestamp) {h : Hold String} (hs : h ≠ .armed) {op : Call} (hop : op.neutral) :
    (tokenShot env value e).may h op ∧ (tokenShot env value e).after h op = h := by
  have hok : savesSpent value e op := by
    cases op with
    | saveToken t => exact absurd hop id
    | _ => trivial
  have hgrab : consumes value op = false := by
    cases op with
    | saveToken t => exact absurd hop id
    | _ => rfl
  have hact : savedNode op = none := by
    cases op with
    | saveNode n => exact absurd hop id
    | _ => rfl
  cases h with
  | outside => exact ⟨⟨hok, hgrab⟩, rfl⟩
  | idle => exact ⟨⟨hok, hact⟩, by simp [OneShot.after, tokenShot, hgrab]⟩
  | armed => exact absurd rfl hs
  | fired x => exact ⟨⟨hok, hgrab, Or.inl hact⟩, rfl⟩

/-- A caller that makes one call and goes on. -/
theorem obeys_call (h' : Hold String) {h : Hold String} {op : Call} (hmay : (tokenShot env value e).may h op)
    (hafter : (tokenShot env value e).after h op = h') {α : Type} {f : Call.Res op → Py α}
    (hf : ∀ r, loadsToken value e op r → (tokenShot env value e).Obeys False h' (f r)) :
    (tokenShot env value e).Obeys False h (call op >>= f) := by
  unfold OneShot.Obeys
  rw [call_bind, OneShot.wp_call]
  refine ⟨hmay, fun r hr => ?_⟩
  rw [hafter]
  exact hf r hr

/-- A caller that makes a neutral call first. -/
theorem obeys_neutral {h : Hold String} (hs : h ≠ .armed) {op : Call} (hop : op.neutral)
    {α : Type} {f : Call.Res op → Py α}
    (hf : ∀ r, loadsToken value e op r → (tokenShot env value e).Obeys False h (f r)) :
    (tokenShot env value e).Obeys False h (call op >>= f) :=
  have ⟨hmay, hafter⟩ := neutral_step env value e hs hop
  obeys_call h hmay hafter hf

theorem obeys_ret {α : Type} (h : Hold String) (a : α) :
    (tokenShot env value e).Obeys False h (.ret a : Py α) := Prog.wp_ret.mpr False.elim

theorem obeys_raise {α : Type} (h : Hold String) (x : PyError) :
    (tokenShot env value e).Obeys False h (.raise x : Py α) := Prog.wp_raise.mpr False.elim

/-- What a caller holds before its first call. -/
def startHold (competes : Bool) : Hold String := if competes then .idle else .outside

theorem startHold_ne_armed (competes : Bool) : startHold competes ≠ .armed := by
  cases competes <;> simp [startHold]

/-- The save of a token that is neither pending nor used. -/
theorem save_unused (env : Env) (competes : Bool) {t : JoinToken}
    (hspent : savesSpent value e (.saveToken t)) (hused : t.status ≠ .used) :
    (tokenShot env value e).may (startHold competes) (.saveToken t)
    ∧ (tokenShot env value e).after (startHold competes) (.saveToken t) = startHold competes := by
  have hgrab : consumes value (.saveToken t) = false := by simp [consumes, hused]
  cases competes with
  | false => exact ⟨⟨hspent, hgrab⟩, rfl⟩
  | true => exact ⟨⟨hspent, rfl⟩, by simp [startHold, OneShot.after, tokenShot, hgrab]⟩

theorem joinAnswer_obeys {h : Hold String} (hs : h ≠ .armed) (node : Node)
    (request : JoinRequest) : (tokenShot env value e).Obeys False h (joinAnswer node request) :=
  obeys_neutral hs (by trivial) (fun _ _ => obeys_ret h _)

theorem joinRefused_obeys {h : Hold String} (hs : h ≠ .armed) (request : JoinRequest) :
    (tokenShot env value e).Obeys False h (joinRefused request) := by
  refine obeys_neutral hs (by trivial) (fun r _ => ?_)
  cases r with
  | none => exact obeys_raise h _
  | some refreshed => exact obeys_raise h _

/-- The holder of the right registers one node; a caller with another token
registers whatever it likes. -/
theorem registerJoin_obeys {h : Hold String} (hh : h = .armed ∨ h = .outside)
    (request : JoinRequest) (consumed : JoinToken) :
    (tokenShot env value e).Obeys False h (registerJoin request consumed) := by
  unfold registerJoin
  rcases hh with rfl | rfl
  · refine obeys_call .armed ?_ ?_ (fun uuid _ => ?_)
    · exact ⟨trivial, rfl, fun _ => rfl⟩
    · rfl
    refine obeys_call (.fired ("node_" ++ uuid)) ?_ ?_ (fun _ _ => ?_)
    · exact ⟨trivial, rfl, fun h => absurd h (by simp [tokenShot, savedNode])⟩
    · rfl
    -- the second save, of the confirmed node, carries the same identifier
    split_ifs
    · refine obeys_call _ ?_ rfl (fun _ _ => joinAnswer_obeys (by simp) _ request)
      exact ⟨trivial, rfl, Or.inr ⟨trivial, rfl⟩⟩
    · exact joinAnswer_obeys (by simp) _ request
  · refine obeys_neutral (by simp) (by trivial) (fun uuid _ => ?_)
    refine obeys_call .outside ?_ rfl (fun _ _ => ?_)
    · exact ⟨trivial, rfl⟩
    split_ifs
    · refine obeys_call .outside ?_ rfl (fun _ _ => joinAnswer_obeys (by simp) _ request)
      exact ⟨trivial, rfl⟩
    · exact joinAnswer_obeys (by simp) _ request

theorem consumeAndRegister_obeys (request : JoinRequest) :
    (tokenShot env value e).Obeys False (startHold (request.token = value))
      (consumeAndRegister request) := by
  unfold consumeAndRegister consumeToken
  rw [bind_assoc]
  refine obeys_neutral (startHold_ne_armed _) (by trivial) (fun loaded hloaded => ?_)
  cases loaded with
  | none => exact joinRefused_obeys (startHold_ne_armed _) request
  | some token =>
    obtain ⟨hvalue, hexpires⟩ := hloaded token rfl
    have hkept : token.value = value → token.expiresAt = e := fun h => hexpires (hvalue ▸ h)
    simp only [bind_assoc]
    refine obeys_neutral (startHold_ne_armed _) (by trivial) (fun now _ => ?_)
    split_ifs with hold hspent
    · -- the token is too old: its expired copy is saved, which grabs nothing
      obtain ⟨hmay, hafter⟩ := save_unused env (request.token = value) (t := withExpired token)
        ⟨by simp [withExpired], hkept⟩ (by simp [withExpired])
      rw [bind_assoc]
      exact obeys_call _ hmay hafter (fun _ _ => joinRefused_obeys (startHold_ne_armed _) request)
    · exact joinRefused_obeys (startHold_ne_armed _) request
    · have hspends : savesSpent value e (.saveToken (withUsed now request.fingerprint token)) :=
        ⟨by simp [withUsed], hkept⟩
      rw [bind_assoc]
      -- A join with another token may consume its own; it does not compete for this right.
      by_cases hcompetes : request.token = value
      · -- the save of the used row grabs the right
        simp only [hcompetes, decide_true, startHold, if_true]
        refine obeys_call .armed ?_ ?_ (fun _ _ => registerJoin_obeys (Or.inl rfl) request _)
        · exact ⟨hspends, rfl⟩
        · simp [OneShot.after, tokenShot, consumes, withUsed, hvalue, hcompetes]
      · simp only [hcompetes, decide_false, startHold, Bool.false_eq_true, if_false]
        refine obeys_call .outside ?_ rfl (fun _ _ => registerJoin_obeys (Or.inr rfl) request _)
        exact ⟨hspends, by simp [tokenShot, consumes, withUsed, hvalue, hcompetes]⟩

theorem joinListed_obeys (request : JoinRequest) (nodes : List Node) :
    (tokenShot env value e).Obeys False (startHold (request.token = value))
      (joinListed request nodes) := by
  unfold joinListed
  cases findDuplicateJoinNode nodes request with
  | some duplicate => exact obeys_raise _ _
  | none => exact consumeAndRegister_obeys request

theorem join_obeys (request : JoinRequest) :
    (tokenShot env value e).Obeys False (startHold (request.token = value)) (join request) := by
  unfold join
  refine obeys_neutral (startHold_ne_armed _) (by trivial) (fun loaded _ => ?_)
  cases loaded with
  | none => exact obeys_raise _ _
  | some token =>
    exact obeys_neutral (startHold_ne_armed _) (by trivial) (fun nodes _ => joinListed_obeys _ nodes)

theorem revokeToken_obeys (tokenValue : String) :
    (tokenShot env value e).Obeys False .outside (revokeToken tokenValue) := by
  unfold revokeToken
  refine obeys_neutral (by simp) (by trivial) (fun loaded hloaded => ?_)
  cases loaded with
  | none => exact obeys_raise _ _
  | some token =>
    obtain ⟨hvalue, hexpires⟩ := hloaded token rfl
    refine obeys_call .outside ?_ rfl
      (fun _ _ => obeys_neutral (by simp) (by trivial) (fun _ _ => obeys_ret _ _))
    exact ⟨⟨by simp [withTokenRevoked], fun h => hexpires (hvalue ▸ h)⟩,
      by simp [tokenShot, consumes, withTokenRevoked]⟩

/-- **Every caller obeys the discipline**: those that join with the token
compete for it, the others stand outside. -/
theorem tokenCaller_obeys (env : Env) (caller : TokenCaller) :
    (tokenShot env value e).Obeys False (startHold (caller.joins value)) caller.program := by
  cases caller with
  | join request =>
    exact Prog.wp_bind _ _ _ (Prog.wp_mono (fun h _ _ => obeys_ret h ()) (fun _ _ h => h) _ _
      (join_obeys request))
  | revoke tokenValue => exact revokeToken_obeys tokenValue

end Obeys

/-! ## §4. Requests that come too late. -/

section Late

variable {env : Env} {value : String} {e : Timestamp} {expired : Prop} {w : World} {op : Call}

/-- What is known about the answers once the token is spent or too old: a
token that is loaded pending is too old, and then so is every reading. -/
def loadsLate (value : String) (e : Timestamp) (expired : Prop) :
    (op : Call) → Call.Res op → Prop
  | .loadToken id, r => ∀ t, r = some t →
      t.value = id ∧ (id = value → t.expiresAt = e ∧ (t.status = .pending → expired))
  | .now, r => expired → e < r
  | _, _ => True

/-- A late request registers no node; the other callers keep the token. -/
abbrev lateTypestate (value : String) (e : Timestamp) (expired : Prop) : Typestate callSig where
  Mode := Bool
  may late op := savesSpent value e op ∧ (late = true → savedNode op = none)
  after late _ _ := late
  sees := loadsLate value e expired

/-- A caller that registers no node from here on. -/
def Late (value : String) (e : Timestamp) (expired : Prop) {α : Type} (p : Py α) : Prop :=
  p.wp (lateTypestate value e expired) (fun _ _ => True) (fun _ _ => True) true

theorem late_raise {α : Type} (x : PyError) : Late value e expired (.raise x : Py α) :=
  Prog.wp_raise.mpr trivial

theorem late_call {α : Type} {op : Call} {f : Call.Res op → Py α}
    (hop : savesSpent value e op ∧ savedNode op = none)
    (hf : ∀ r, loadsLate value e expired op r → Late value e expired (f r)) :
    Late value e expired (call op >>= f) := by
  unfold Late
  rw [call_bind, Prog.wp_call]
  exact ⟨⟨hop.1, fun _ => hop.2⟩, hf⟩

theorem joinRefused_late (request : JoinRequest) :
    Late value e expired (joinRefused request) := by
  refine late_call ⟨by trivial, rfl⟩ (fun r _ => ?_)
  cases r with
  | none => exact late_raise _
  | some refreshed => exact late_raise _

/-- **A late consume step registers nothing.** -/
theorem consumeAndRegister_late (request : JoinRequest) (htoken : request.token = value) :
    Late value e expired (consumeAndRegister request) := by
  unfold consumeAndRegister consumeToken
  rw [bind_assoc]
  refine late_call ⟨by trivial, rfl⟩ (fun loaded hloaded => ?_)
  cases loaded with
  | none => exact joinRefused_late request
  | some token =>
    obtain ⟨hvalue, hrest⟩ := hloaded token rfl
    obtain ⟨hexpires, hlate⟩ := hrest htoken
    simp only [bind_assoc]
    refine late_call ⟨by trivial, rfl⟩ (fun now hnow => ?_)
    split_ifs with hold hspent
    · rw [bind_assoc]
      refine late_call ⟨?_, rfl⟩ (fun _ _ => joinRefused_late request)
      exact ⟨by simp [withExpired], fun _ => hexpires⟩
    · exact joinRefused_late request
    · -- a token that is still pending is too old
      rw [not_not] at hspent
      exact absurd ⟨hspent, hexpires ▸ hnow (hlate hspent)⟩ hold

/-- What a caller answers does not matter. -/
theorem late_discard {α : Type} {p : Py α} (h : Late value e expired p) :
    Late value e expired (do let _ ← p : Py Unit) :=
  Prog.wp_bind _ _ _ (Prog.wp_mono (fun _ _ _ => Prog.wp_ret.mpr trivial) (fun _ _ h => h)
    _ _ h)

theorem joinListed_late (request : JoinRequest) (htoken : request.token = value)
    (nodes : List Node) : Late value e expired (joinListed request nodes) := by
  unfold joinListed
  cases findDuplicateJoinNode nodes request with
  | some duplicate => exact late_raise _
  | none => exact consumeAndRegister_late request htoken

theorem join_late (request : JoinRequest) (htoken : request.token = value) :
    Late value e expired (join request) := by
  unfold join
  refine late_call ⟨by trivial, rfl⟩ (fun loaded _ => ?_)
  cases loaded with
  | none => exact late_raise _
  | some token => exact late_call ⟨by trivial, rfl⟩ (fun nodes _ => joinListed_late _ htoken nodes)

/-- **A join can still become late after its first two calls**, which come
before its consume step. -/
theorem join_late_upto (request : JoinRequest) (htoken : request.token = value) :
    Config.Upto (Late value e expired) 2 (TokenCaller.join request).program := by
  refine Config.upto_call (late_discard (join_late request htoken)) (fun loaded => ?_)
  cases loaded with
  | none => exact Config.upto_raise (late_raise _)
  | some token =>
    refine Config.upto_call (late_discard (p := do joinListed request (← call .listNodes)) ?_)
      (fun nodes => late_discard (joinListed_late request htoken nodes))
    exact late_call ⟨by trivial, rfl⟩ (fun nodes _ => joinListed_late _ htoken nodes)

/-- What holds from the moment a request is late. -/
structure LateWorld (env : Env) (value : String) (e : Timestamp) (expired : Prop) (w : World) :
    Prop where
  expires : Expires value e w
  spent : ¬ expired → Spent value w
  old : expired → ∀ n, w.clock ≤ n → e < env.now n

theorem lateWorld_exec (h : LateWorld env value e expired w) (hop : savesSpent value e op) :
    loadsLate value e expired op (exec env op w).1
      ∧ LateWorld env value e expired (exec env op w).2 := by
  refine ⟨?_, expires_exec h.expires hop,
    fun hx => spent_exec (h.spent hx) hop,
    fun hx n hn => h.old hx n ((exec_clock env op w).trans hn)⟩
  cases op with
  | loadToken id =>
    intro t ht
    refine ⟨Table.key_of_find? ht, fun hid => ⟨h.expires t (hid ▸ ht), fun hpending => ?_⟩⟩
    by_contra hx
    refine h.spent hx ?_
    have ht' : storedToken value w = some t := hid ▸ ht
    rw [ht', Option.map_some, hpending]
  | now => exact fun hx => h.old hx _ le_rfl
  | _ => trivial

theorem late_next {α : Type} {p : Py α} (h : Late value e expired p) (hp : p.next? = some op) :
    savedNode op = none := by
  cases p with
  | ret a => cases hp
  | raise x => cases hp
  | call op' k =>
    cases hp
    exact (Prog.wp_call.mp h).1.2 rfl

/-- Every other caller goes on as before. -/
theorem others_obey {α : Type} {p : Py α}
    (hp : Config.OnlyCalls (S := callSig) (savesSpent value e) (loadsToken value e) p) :
    p.wp (lateTypestate value e expired) (fun _ _ => True) (fun _ _ => True) false := by
  unfold Config.OnlyCalls at hp
  refine Prog.wp_refine (Config.onlyCalls (S := callSig) (savesSpent value e) (loadsToken value e))
    (lateTypestate value e expired) (fun _ => false) ?_ ?_ ?_ ?_ ?_ p () hp
  · exact fun _ _ hm => ⟨hm, nofun⟩
  · exact fun _ _ _ => rfl
  · intro op r hr
    cases op with
    | loadToken id =>
      intro t ht
      obtain ⟨hvalue, hrest⟩ := hr t ht
      exact ⟨hvalue, fun hid => (hrest hid).1⟩
    | _ => trivial
  · exact fun _ _ _ => trivial
  · exact fun _ _ _ => trivial

end Late

/-! ## §5. Every interleaving. -/

section Run

variable {ι : Type} [DecidableEq ι] {env : Env} {value : String} {e : Timestamp} {expired : Prop}

/-- The callers of a run of joins and revocations. -/
def tokenCallers (callers : ι → TokenCaller) (w : World) : Config ι callSig PyError Unit World :=
  ⟨w, fun i => (callers i).program⟩

/-- The nodes that the callers `part` register in a run. -/
def registeredIn (env : Env) (part : ι → Bool) (c : Config ι callSig PyError Unit World)
    (sched : List ι) : List String :=
  c.history (exec env) (registered part) [] sched

omit [DecidableEq ι] in
theorem record_eq_registered (part : ι → Bool) :
    (tokenShot env value e).record part = registered part := by
  funext acts i w op
  simp only [OneShot.record, registered, tokenShot]
  cases part i <;> cases savedNode op <;> rfl

/-- After any run the token still has its expiry, and it is spent once a
revocation was committed. -/
theorem expires_run (sched : List ι) (c : Config ι callSig PyError Unit World)
    (hobey : ∀ i, Config.OnlyCalls (savesSpent value e) (loadsToken value e) (c.callers i))
    (h : Expires value e c.shared) :
    (Expires value e (c.run (exec env) sched).shared
      ∧ (1 ≤ c.tally (exec env) (fun _ => commitsRevoke value) sched →
          Spent value (c.run (exec env) sched).shared))
    ∧ ∀ i, Config.OnlyCalls (savesSpent value e) (loadsToken value e)
        ((c.run (exec env) sched).callers i) := by
  refine Config.run_shared (I := fun w n => Expires value e w ∧ (1 ≤ n → Spent value w)) ?_ sched c 0
    ⟨h, by simp⟩ hobey (Config.respects_true c sched)
  rintro w n i op ⟨hexp, hspent⟩ hop -
  refine ⟨loadsToken_exec hexp, expires_exec hexp hop, fun hn => ?_⟩
  by_cases hrevoke : commitsRevoke value op = true
  · exact spent_revoke hrevoke
  · exact spent_exec (hspent (by simpa [hrevoke] using hn)) hop

/-- **A request that is late registers nothing.** -/
theorem late_run (sched : List ι) (c : Config ι callSig PyError Unit World) (i : ι)
    (hobey : ∀ j, Config.OnlyCalls (savesSpent value e) (loadsToken value e) (c.callers j))
    (hlate : Late value e expired (c.callers i)) (h : LateWorld env value e expired c.shared) :
    registeredIn env (fun j => decide (j = i)) c sched = [] := by
  let modes : ι → Bool := fun j => decide (j = i)
  let I : World → (ι → Bool) → List String → Prop :=
    fun w m nodes => m = modes ∧ LateWorld env value e expired w ∧ nodes = []
  -- Only the late request is in the mode that is watched.
  have hgov : Config.Governed (lateTypestate value e expired) (fun _ => True) (fun _ => True) I
      c [] := by
    refine ⟨modes, ⟨rfl, h, rfl⟩, fun j => ?_⟩
    by_cases hj : j = i
    · rw [show modes j = true by simp [modes, hj], hj]
      exact hlate
    · rw [show modes j = false by simp [modes, hj]]
      exact others_obey (hobey j)
  -- A step of another caller keeps the world late, and the late request registers nothing.
  have hstep : ∀ w m nodes j op, I w m nodes → (lateTypestate value e expired).may (m j) op →
      True → loadsLate value e expired op (exec env op w).1
        ∧ I (exec env op w).2 (Function.update m j (m j)) (registered modes nodes j w op) := by
    rintro w m nodes j op ⟨rfl, hw, rfl⟩ ⟨hop, hquiet⟩ -
    obtain ⟨hsees, hw'⟩ := lateWorld_exec hw hop
    refine ⟨hsees, Function.update_eq_self _ _, hw', ?_⟩
    cases hj : modes j with
    | false => simp [registered, hj]
    | true => simp [registered, hj, hquiet hj]
  obtain ⟨m, ⟨-, -, hnodes⟩, -⟩ := Config.run_typestate (lateTypestate value e expired) I hstep
    sched c [] hgov (Config.respects_true c sched)
  exact hnodes

/-- A request registers nothing in its first calls. -/
theorem first_calls_run (pre : List ι) (c : Config ι callSig PyError Unit World) (i : ι)
    (h : c.Respects (exec env)
      (fun j _ op => j = i → ∃ p : Py Unit, p.next? = some op ∧ Late value e expired p) pre) :
    registeredIn env (fun j => decide (j = i)) c pre = [] := by
  refine Config.run_induct (f := registered (fun j => decide (j = i)))
    (fun _ nodes => nodes = []) ?_ pre c [] rfl h
  rintro c nodes j op k rfl - hop
  by_cases hj : j = i
  · obtain ⟨p, hp, hlate⟩ := hop hj
    simp [registered, late_next hlate hp]
  · simp [registered, hj]

/-- **A join token is one-time.**  In every interleaving of joins and
revocations in which every consume finds the stored token pending, at most
one node is registered with the token.  In every interleaving, without that
condition, a request whose consume step begins (after its first two calls)
when a revocation of the token has been committed, or when every reading of
the clock is past the token's expiry, registers no node. -/
theorem join_token_one_time (env : Env) (callers : ι → TokenCaller) (w : World) (value : String)
    (sched : List ι) :
    ((tokenCallers callers w).Respects (exec env) (ConsumesPending value) sched →
      ∀ x ∈ registeredIn env (fun i => (callers i).joins value) (tokenCallers callers w) sched,
      ∀ y ∈ registeredIn env (fun i => (callers i).joins value) (tokenCallers callers w) sched,
        x = y)
    ∧ ∀ pre post i, sched = pre ++ post → (callers i).joins value = true → pre.count i ≤ 2 →
        (1 ≤ (tokenCallers callers w).tally (exec env) (fun _ => commitsRevoke value) pre
          ∨ ∃ token, storedToken value w = some token
            ∧ ∀ n, ((tokenCallers callers w).run (exec env) pre).shared.clock ≤ n →
                token.expiresAt < env.now n) →
        registeredIn env (fun j => decide (j = i)) (tokenCallers callers w) sched = [] := by
  obtain ⟨e, he⟩ : ∃ e, Expires value e w := by
    cases h : storedToken value w with
    | none => exact ⟨0, by simp [Expires, h]⟩
    | some token => exact ⟨token.expiresAt, by simp [Expires, h]⟩
  have hobey : ∀ i, Config.OnlyCalls (S := callSig) (savesSpent value e) (loadsToken value e)
      ((tokenCallers callers w).callers i) := fun i =>
    (tokenCaller_obeys env (callers i)).onlyCalls
  -- First half: whoever saves the used row holds the right, and the right is given once.
  constructor
  · intro hconsumes
    have hstart : (tokenShot env value e).InPhase (fun i => (callers i).joins value) False
        (tokenCallers callers w) [] .unclaimed := by
      refine ⟨fun i => ?_, he, rfl, fun _ => rfl, fun h => h.elim⟩
      exact tokenCaller_obeys env (callers i)
    obtain ⟨ph, -, -, hlab, -⟩ := OneShot.oneShot_run (tokenShot env value e) _ False _ sched [] _
      hstart hconsumes
    rw [record_eq_registered] at hlab
    exact (OneShot.labels_unique hlab).1
  · rintro pre post i rfl hjoins hcount hwhen
    obtain ⟨⟨hexp, hspent⟩, hobey'⟩ := expires_run pre (tokenCallers callers w) hobey he
    -- Second half: from the moment the consume step begins the token is revoked or expired.
    have hworld : ∃ expired, LateWorld env value e expired
        ((tokenCallers callers w).run (exec env) pre).shared := by
      rcases hwhen with hrevoked | ⟨token, htoken, hold⟩
      · exact ⟨False, hexp, fun _ => hspent hrevoked, False.elim⟩
      · exact ⟨True, hexp, fun h => absurd trivial h, fun _ n hn => he token htoken ▸ hold n hn⟩
    obtain ⟨expired, hworld⟩ := hworld
    -- Before that moment the request has made two calls at most, and these only look.
    have hupto : Config.Upto (Late value e expired) 2 ((tokenCallers callers w).callers i) := by
      show Config.Upto _ 2 (callers i).program
      cases hc : callers i with
      | join request => exact join_late_upto request (by simpa [hc, TokenCaller.joins] using hjoins)
      | revoke tokenValue => simp [hc, TokenCaller.joins] at hjoins
    obtain ⟨hlate, hfirst⟩ := Config.upto_run pre (tokenCallers callers w) 2 hupto hcount
    unfold registeredIn
    rw [Config.history_append]
    show Config.history _ _ (registeredIn env _ _ pre) _ _ = _
    rw [first_calls_run pre _ i hfirst]
    exact late_run post _ i hobey' hlate hworld

end Run

/-! ## §6. The race. -/

/-- A pending join token. -/
def raceToken : JoinToken where
  value := "j_one"
  trustLevel := "B"
  labels := []
  expiresAt := 1000
  createdAt := 0

/-- The store with that token. -/
def tokenWorld : World where
  store := { Store.empty with tokens := .single raceToken }
  files _ := .missing

/-- Two machines join with the token, and an operator revokes it. -/
def raceTokenCallers (i : Fin 3) : TokenCaller :=
  match i with
  | 0 => .join { token := "j_one", fingerprint := "fp-0", hostname := "web-0" }
  | 1 => .join { token := "j_one", fingerprint := "fp-1", hostname := "web-1" }
  | 2 => .revoke "j_one"

/-- One machine joins, the token is revoked, and the other one is refused. -/
theorem join_token_one_time_in_turn :
    registeredIn Env.quiet (fun j => decide (j = 1)) (tokenCallers raceTokenCallers tokenWorld)
        ([0, 0, 0, 0, 0, 0, 0, 0, 0, 2, 2] ++ [1, 1, 1, 1, 1]) = []
    ∧ ∀ x ∈ registeredIn Env.quiet (fun i => (raceTokenCallers i).joins "j_one")
        (tokenCallers raceTokenCallers tokenWorld)
        ([0, 0, 0, 0, 0, 0, 0, 0, 0, 2, 2] ++ [1, 1, 1, 1, 1]),
      ∀ y ∈ registeredIn Env.quiet (fun i => (raceTokenCallers i).joins "j_one")
        (tokenCallers raceTokenCallers tokenWorld)
        ([0, 0, 0, 0, 0, 0, 0, 0, 0, 2, 2] ++ [1, 1, 1, 1, 1]), x = y := by
  have h := join_token_one_time Env.quiet raceTokenCallers tokenWorld "j_one"
    ([0, 0, 0, 0, 0, 0, 0, 0, 0, 2, 2] ++ [1, 1, 1, 1, 1])
  exact ⟨h.2 _ _ 1 rfl rfl (by decide) (Or.inl (by decide +kernel)), h.1 (by decide +kernel)⟩

/-- **Two joins, one token.**  Both machines load the pending token before
either saves it; both consume it, and two nodes are registered. -/
theorem two_joins_one_token :
    registeredIn Env.quiet (fun i => (raceTokenCallers i).joins "j_one")
        (tokenCallers raceTokenCallers tokenWorld)
        [0, 0, 0, 0, 1, 1, 1, 1, 0, 0, 0, 0, 1, 1, 1, 1]
      = ["node_00000000000a", "node_00000000000a", "node_0000000000aa", "node_0000000000aa"]
    ∧ ¬ ∀ x ∈ registeredIn Env.quiet (fun i => (raceTokenCallers i).joins "j_one")
        (tokenCallers raceTokenCallers tokenWorld)
        [0, 0, 0, 0, 1, 1, 1, 1, 0, 0, 0, 0, 1, 1, 1, 1],
      ∀ y ∈ registeredIn Env.quiet (fun i => (raceTokenCallers i).joins "j_one")
        (tokenCallers raceTokenCallers tokenWorld)
        [0, 0, 0, 0, 1, 1, 1, 1, 0, 0, 0, 0, 1, 1, 1, 1], x = y := by
  decide +kernel

end Hmn
