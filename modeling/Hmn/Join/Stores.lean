/-
  Hmn.Join.Stores — the two stores of join tokens.

  `JoinTokenStore` keeps its tokens in a dict and expires a token when it is
  read; the database expires the rows a sweep finds by comparing the stored
  texts, and `consume_token` checks the row once more.  A token that lapsed
  may thus be marked in one store and not yet in the other.  What a token
  amounts to at an instant (`settled`) is the same in both.

  Main results: `consume_eq`, `consumeToken_run`, `settled_expirePendingTokens`
  (what each operation does to settled tokens) and `token_stores_agree`.
-/
import Hmn.Framework.Lockstep
import Hmn.Join.Alone
import Hmn.Store.IsoOrder

namespace Hmn

open Framework Py

/-! ## §1. The store in memory. -/

/-- `VALID_TRUST_LEVELS`. -/
def validTrustLevels : List String := ["A", "B", "C"]

/-- `JoinTokenStore._tokens`. -/
abbrev JoinTokenStore := Table JoinToken.value

/-- The token `create` builds. -/
def createdToken (now : Timestamp) (value trustLevel : String) (labels : List String) (ttl : Int) :
    JoinToken where
  value
  trustLevel
  labels
  expiresAt := now + ttl
  createdAt := now

namespace JoinTokenStore

/-- `create`; `value` is the text that was drawn. -/
def create (now : Timestamp) (value trustLevel : String) (labels : List String) (ttl : Int)
    (tokens : JoinTokenStore) : Except PyError JoinToken × JoinTokenStore :=
  if trustLevel ∉ validTrustLevels then
    (.error (.value "trust_level must be one of A, B, C"), tokens)
  else if ¬ Timestamp.Representable (now + ttl) then
    (.error (.overflow "date value out of range"), tokens)
  else
    let token := createdToken now value trustLevel labels ttl
    (.ok token, tokens.upsert token)

/-- `get`. -/
def get (now : Timestamp) (value : String) (tokens : JoinTokenStore) :
    Option JoinToken × JoinTokenStore :=
  match tokens.find? value with
  | none => (none, tokens)
  | some token =>
    if token.status = .pending ∧ now > token.expiresAt then
      (some (withExpired token), tokens.upsert (withExpired token))
    else (some token, tokens)

/-- `consume`; one clock reading serves `get` and `used_at`. -/
def consume (now : Timestamp) (value nodeFingerprint : String) (tokens : JoinTokenStore) :
    Option JoinToken × JoinTokenStore :=
  match get now value tokens with
  | (none, tokens) => (none, tokens)
  | (some token, tokens) =>
    if token.status ≠ .pending then (none, tokens)
    else
      (some (withUsed now nodeFingerprint token), tokens.upsert (withUsed now nodeFingerprint token))

/-- Every token is read once. -/
def sweep (now : Timestamp) (tokens : JoinTokenStore) : JoinTokenStore :=
  (tokens.rows.map JoinToken.value).foldl (fun tokens value => (get now value tokens).2) tokens

end JoinTokenStore

/-! ## §2. The store in the database. -/

namespace Store

/-- The rows `expire_pending_tokens` selects. -/
def lapsedRow (now : Timestamp) (token : JoinToken) : Bool :=
  token.status = .pending ∧ token.expiresAt.isoformat < now.isoformat

/-- Newest first, by the stored texts. -/
def newestFirst (tokens : List JoinToken) : List JoinToken :=
  tokens.insertionSort (fun a b => b.createdAt.isoformat ≤ a.createdAt.isoformat)

/-- `expire_pending_tokens`. -/
def expirePendingTokens (now : Timestamp) (s : Store) : List String × Store :=
  let values := (newestFirst (s.tokens.rows.filter (lapsedRow now))).map JoinToken.value
  (values,
    { s with tokens := s.tokens.update (fun row => row.value ∈ values) withExpired (fun _ => rfl) })

/-- `list_tokens`. -/
def listTokens (now : Timestamp) (s : Store) : List JoinToken × Store :=
  let s := (s.expirePendingTokens now).2
  ((newestFirst s.tokens.rows).filterMap (fun row => s.tokens.find? row.value), s)

end Store

/-! ## §3. Runs of the two stores. -/

/-- A reading of the UTC clock. -/
structure UtcNow where
  instant : Timestamp
  representable : instant.Representable

instance : Preorder UtcNow := Preorder.lift UtcNow.instant

instance (t u : UtcNow) : Decidable (t ≤ u) :=
  inferInstanceAs (Decidable (t.instant ≤ u.instant))

/-- An operation on a token store. -/
inductive TokenOp where
  | create (value trustLevel : String) (labels : List String) (ttl : Int)
  | consume (value nodeFingerprint : String)
  | get (value : String)
  | expirePendingTokens
  | listTokens
  deriving DecidableEq

/-- An operation and the clock reading it uses. -/
structure TokenStep where
  now : UtcNow
  op : TokenOp

/-- The answers of an operation that the two stores have in common. -/
inductive TokenAnswer where
  | created (token : Except PyError JoinToken)
  | consumed (token : Except PyError (Option JoinToken))
  | unanswered
  deriving DecidableEq

/-- A step of the store in memory, which has no sweep of its own. -/
def JoinTokenStore.step : Component JoinTokenStore TokenStep TokenAnswer := fun tokens step =>
  match step.op with
  | .create value trustLevel labels ttl =>
    let (token, tokens) := create step.now.instant value trustLevel labels ttl tokens
    (.created token, tokens)
  | .consume value nodeFingerprint =>
    let (token, tokens) := consume step.now.instant value nodeFingerprint tokens
    (.consumed (.ok token), tokens)
  | .get value => (.unanswered, (get step.now.instant value tokens).2)
  | .expirePendingTokens | .listTokens => (.unanswered, tokens)

/-- Everything outside is as in `env`, but the clock shows one instant. -/
def Env.at_ (env : Env) (now : UtcNow) : Env := { env with now := fun _ => now.instant }

/-- A step of the store in the database.  A token is created by a
`JoinTokenStore` of its own and saved. -/
def Store.tokenStep (env : Env) : Component World TokenStep TokenAnswer := fun w step =>
  match step.op with
  | .create value trustLevel labels ttl =>
    match (JoinTokenStore.create step.now.instant value trustLevel labels ttl .empty).1 with
    | .error e => (.created (.error e), w)
    | .ok token => (.created (.ok token), (exec (env.at_ step.now) (.saveToken token) w).2)
  | .consume value nodeFingerprint =>
    let (token, w) := (consumeToken value nodeFingerprint).run (exec (env.at_ step.now)) w
    (.consumed token, w)
  | .get value => (.unanswered, (exec (env.at_ step.now) (.loadToken value) w).2)
  | .expirePendingTokens =>
    (.unanswered, w.after 1 (w.store.expirePendingTokens step.now.instant).2)
  | .listTokens => (.unanswered, w.after 1 (w.store.listTokens step.now.instant).2)

/-! ## §4. What a token amounts to. -/

/-- A token with its expiry brought up to date. -/
def settled (now : Timestamp) (token : JoinToken) : JoinToken :=
  if token.status = .pending ∧ now > token.expiresAt then withExpired token else token

@[simp] theorem value_withExpired (token : JoinToken) : (withExpired token).value = token.value := rfl

@[simp] theorem value_withUsed (now : Timestamp) (fingerprint : String) (token : JoinToken) :
    (withUsed now fingerprint token).value = token.value := rfl

@[simp] theorem value_settled (now : Timestamp) (token : JoinToken) :
    (settled now token).value = token.value := by
  unfold settled
  split <;> rfl

theorem settled_of_not_pending {now : Timestamp} {token : JoinToken} (h : token.status ≠ .pending) :
    settled now token = token := if_neg (fun hp => h hp.1)

/-- Settling again, now or later, settles no less. -/
theorem settled_settled {now later : Timestamp} (h : now ≤ later) (token : JoinToken) :
    settled later (settled now token) = settled later token := by
  by_cases hnow : token.status = .pending ∧ now > token.expiresAt
  · have hlater : token.status = .pending ∧ later > token.expiresAt :=
      ⟨hnow.1, lt_of_lt_of_le hnow.2 h⟩
    rw [settled, settled, settled, if_pos hnow, if_pos hlater]
    exact if_neg (fun hp => by cases hp.1)
  · rw [settled, settled, settled, if_neg hnow]

/-- What a SELECT sees of settled tokens. -/
def settledAt (now : Timestamp) (tokens : Table JoinToken.value) (value : String) :
    Option JoinToken :=
  (tokens.find? value).map (settled now)

/-- An upsert of a settled token is seen as the token. -/
theorem settledAt_upsert (now : Timestamp) (tokens : Table JoinToken.value) (token : JoinToken)
    (value : String) :
    settledAt now (tokens.upsert token) value
      = if token.value = value then some (settled now token) else settledAt now tokens value := by
  unfold settledAt
  rw [Table.find?_upsert]
  split <;> rfl

/-- Writing a token as it amounts to changes nothing of what is seen. -/
theorem settledAt_upsert_settled {now : Timestamp} {tokens : Table JoinToken.value}
    {token : JoinToken} {value : String} (h : tokens.find? value = some token) (k : String) :
    settledAt now (tokens.upsert (settled now token)) k = settledAt now tokens k := by
  rw [settledAt_upsert]
  by_cases hk : (settled now token).value = k
  · rw [if_pos hk, settled_settled (le_refl now), settledAt]
    rw [value_settled, Table.key_of_find? h] at hk
    rw [← hk, h]
    rfl
  · rw [if_neg hk]

theorem settledAt_mono {now later : Timestamp} (h : now ≤ later) {T S : Table JoinToken.value}
    {value : String} (hsame : settledAt now T value = settledAt now S value) :
    settledAt later T value = settledAt later S value := by
  have hcompose : settled later = settled later ∘ settled now :=
    funext fun token => (settled_settled h token).symm
  unfold settledAt at *
  rw [hcompose, ← Option.map_map, ← Option.map_map, hsame]

/-! ## §5. What the operations do. -/

namespace JoinTokenStore

/-- `get` writes the token as it amounts to. -/
theorem get_eq (now : Timestamp) (value : String) (tokens : JoinTokenStore) :
    (get now value tokens).1 = settledAt now tokens value
      ∧ ∀ k, settledAt now (get now value tokens).2 k = settledAt now tokens k := by
  cases h : tokens.find? value with
  | none => simp [get, settledAt, h]
  | some token =>
    by_cases hlapsed : token.status = .pending ∧ now > token.expiresAt
    · have hsettled : settled now token = withExpired token := if_pos hlapsed
      have hget : get now value tokens
          = (some (withExpired token), tokens.upsert (withExpired token)) := by
        simp only [get, h]
        exact if_pos hlapsed
      rw [hget, ← hsettled]
      refine ⟨?_, fun k => settledAt_upsert_settled h k⟩
      rw [settledAt, h]
      rfl
    · have hsettled : settled now token = token := if_neg hlapsed
      have hget : get now value tokens = (some token, tokens) := by
        simp only [get, h]
        exact if_neg hlapsed
      rw [hget]
      refine ⟨?_, fun k => rfl⟩
      rw [settledAt, h, Option.map_some, hsettled]

end JoinTokenStore

/-- What consuming a token answers, by what the token amounts to. -/
def consumedAnswer (now : Timestamp) (nodeFingerprint : String) (token : Option JoinToken) :
    Option JoinToken :=
  (token.filter (fun token => token.status = .pending)).map (withUsed now nodeFingerprint)

/-- What is seen of settled tokens after a token was consumed. -/
def afterConsume (answer : Option JoinToken) (seen : String → Option JoinToken) (k : String) :
    Option JoinToken :=
  match answer with
  | none => seen k
  | some token => if token.value = k then some token else seen k

/-- **`consume` in memory**, by what the token amounts to. -/
theorem consume_eq (now : Timestamp) (value nodeFingerprint : String) (tokens : JoinTokenStore) :
    (JoinTokenStore.consume now value nodeFingerprint tokens).1
        = consumedAnswer now nodeFingerprint (settledAt now tokens value)
      ∧ ∀ k, settledAt now (JoinTokenStore.consume now value nodeFingerprint tokens).2 k
        = afterConsume (consumedAnswer now nodeFingerprint (settledAt now tokens value))
            (settledAt now tokens) k := by
  obtain ⟨hanswer, hsame⟩ := JoinTokenStore.get_eq now value tokens
  rw [← hanswer]
  unfold JoinTokenStore.consume
  -- What `get` answers is the settled token, so only its status is looked at from here on.
  generalize JoinTokenStore.get now value tokens = got at hsame ⊢
  rcases got with ⟨_ | token, tokens'⟩
  · exact ⟨rfl, hsame⟩
  · by_cases hpending : token.status = .pending
    · simp only [hpending, ne_eq, not_true, if_false, consumedAnswer, Option.filter_some,
        decide_true, if_true, Option.map_some, afterConsume, true_and]
      intro k
      rw [settledAt_upsert, hsame, settled_of_not_pending (fun h => by cases h)]
    · simp only [ne_eq, hpending, not_false_eq_true, if_true, consumedAnswer, Option.filter_some,
        decide_false, Bool.false_eq_true, if_false, Option.map_none, afterConsume, true_and]
      exact hsame

/-- **`consume_token` in the database**, by what the token amounts to. -/
theorem consumeToken_run (env : Env) (now : UtcNow) (value nodeFingerprint : String) (w : World) :
    ((consumeToken value nodeFingerprint).run (exec (env.at_ now)) w).1
        = .ok (consumedAnswer now.instant nodeFingerprint
            (settledAt now.instant w.store.tokens value))
      ∧ ∀ k, settledAt now.instant
          ((consumeToken value nodeFingerprint).run (exec (env.at_ now)) w).2.store.tokens k
        = afterConsume (consumedAnswer now.instant nodeFingerprint
            (settledAt now.instant w.store.tokens value)) (settledAt now.instant w.store.tokens) k := by
  have hreading : w.reading (env.at_ now) 0 = now.instant := rfl
  cases h : w.store.tokens.find? value with
  | none =>
    have hrun : (consumeToken value nodeFingerprint).run (exec (env.at_ now)) w = (.ok none, w) := by
      rw [consumeToken, run_call_bind]
      simp only [exec, h]
      rfl
    rw [hrun]
    simp [settledAt, h, consumedAnswer, afterConsume]
  | some token =>
    have hseen : settledAt now.instant w.store.tokens value = some (settled now.instant token) := by
      rw [settledAt, h]
      rfl
    rw [hseen]
    -- The three ends of the statement are the three ways a token can be settled.
    rcases consumeToken_cases (env.at_ now) nodeFingerprint h with
      ⟨hpending, hlate, hrun⟩ | ⟨hpending, hrun⟩ | ⟨hpending, hlate, hrun⟩
    · have hsettled : settled now.instant token = withExpired token := if_pos ⟨hpending, hlate⟩
      rw [hrun, hsettled]
      refine ⟨rfl, fun k => ?_⟩
      have hsame := @settledAt_upsert_settled now.instant _ _ _ h k
      rw [hsettled] at hsame
      exact hsame
    · have hanswer : consumedAnswer now.instant nodeFingerprint (some token) = none := by
        simp [consumedAnswer, hpending]
      rw [hrun, settled_of_not_pending hpending, hanswer]
      exact ⟨rfl, fun k => rfl⟩
    · have hsettled : settled now.instant token = token := if_neg (fun hp => hlate hp.2)
      have hanswer : consumedAnswer now.instant nodeFingerprint (some token)
          = some (withUsed now.instant nodeFingerprint token) := by
        simp [consumedAnswer, hpending]
      rw [hrun, hsettled, hanswer]
      refine ⟨rfl, fun k => ?_⟩
      have hused := settledAt_upsert now.instant w.store.tokens
        (withUsed now.instant nodeFingerprint token) k
      rw [settled_of_not_pending (fun hp => by cases hp)] at hused
      exact hused

/-! ## §6. Agreement. -/

/-- The expiry can be stored, only a lapsed token is marked as expired, and
no operation here revokes a token. -/
structure SoundToken (now : Timestamp) (token : JoinToken) : Prop where
  representable : token.expiresAt.Representable
  lapsed : token.status = .expired → token.expiresAt < now
  unrevoked : token.status ≠ .revoked

theorem SoundToken.settled {now later : Timestamp} {token : JoinToken} (h : SoundToken now token)
    (hle : now ≤ later) : SoundToken later (settled later token) := by
  by_cases hlapsed : token.status = .pending ∧ later > token.expiresAt
  · rw [Hmn.settled, if_pos hlapsed]
    exact ⟨h.representable, fun _ => hlapsed.2, fun hr => by cases hr⟩
  · rw [Hmn.settled, if_neg hlapsed]
    exact ⟨h.representable, fun he => lt_of_lt_of_le (h.lapsed he) hle, h.unrevoked⟩

theorem SoundToken.used {now : Timestamp} {token : JoinToken} (h : SoundToken now token)
    (fingerprint : String) : SoundToken now (withUsed now fingerprint token) :=
  ⟨h.representable, fun he => (by cases he), fun hr => (by cases hr)⟩

/-- A token is sound if what it amounts to is. -/
theorem SoundToken.of_settled {now : Timestamp} {token : JoinToken}
    (h : SoundToken now (Hmn.settled now token)) : SoundToken now token := by
  by_cases hlapsed : token.status = .pending ∧ now > token.expiresAt
  · rw [Hmn.settled, if_pos hlapsed] at h
    exact ⟨h.representable, fun he => hlapsed.2, fun hr => by rw [hlapsed.1] at hr; cases hr⟩
  · rwa [Hmn.settled, if_neg hlapsed] at h

/-- **The relation between the two stores**: every token amounts to the same
in both. -/
structure TokensAgree (now : Timestamp) (memory database : Table JoinToken.value) : Prop where
  same : ∀ value, settledAt now memory value = settledAt now database value
  sound : ∀ value token, settledAt now memory value = some token → SoundToken now token

namespace TokensAgree

variable {now later : Timestamp} {T S : Table JoinToken.value}

theorem mono (h : TokensAgree now T S) (hle : now ≤ later) : TokensAgree later T S := by
  refine ⟨fun value => settledAt_mono hle (h.same value), fun value token htoken => ?_⟩
  obtain ⟨row, hrow, rfl⟩ := Option.map_eq_some_iff.mp htoken
  have hsound := h.sound value (settled now row) (by rw [settledAt, hrow]; rfl)
  exact hsound.of_settled.settled hle

theorem symm (h : TokensAgree now T S) : TokensAgree now S T :=
  ⟨fun value => (h.same value).symm, fun value token htoken =>
    h.sound value token ((h.same value).trans htoken)⟩

/-- Every stored token is sound, not only what it amounts to. -/
theorem sound_row (h : TokensAgree now T S) {value : String} {row : JoinToken}
    (hrow : T.find? value = some row) : SoundToken now row :=
  (h.sound value (settled now row) (by rw [settledAt, hrow]; rfl)).of_settled

/-- The two stores are compared by what is seen of them. -/
theorem congr (h : TokensAgree now T S) {T' S' : Table JoinToken.value}
    (hT : ∀ k, settledAt now T' k = settledAt now T k)
    (hS : ∀ k, settledAt now S' k = settledAt now S k) : TokensAgree now T' S' :=
  ⟨fun k => by rw [hT, hS, h.same], fun k token htoken => h.sound k token (by rw [← hT, htoken])⟩

theorem upsert (h : TokensAgree now T S) {token : JoinToken} (htoken : SoundToken now token) :
    TokensAgree now (T.upsert token) (S.upsert token) := by
  refine ⟨fun k => ?_, fun k row hrow => ?_⟩
  · rw [settledAt_upsert, settledAt_upsert, h.same]
  · rw [settledAt_upsert] at hrow
    split at hrow
    · obtain rfl := Option.some.inj hrow
      exact htoken.settled (le_refl now)
    · exact h.sound k row hrow

/-- Consuming one token in both stores. -/
theorem consume (h : TokensAgree now T S) (value nodeFingerprint : String)
    {T' S' : Table JoinToken.value}
    (hT : ∀ k, settledAt now T' k
      = afterConsume (consumedAnswer now nodeFingerprint (settledAt now T value)) (settledAt now T) k)
    (hS : ∀ k, settledAt now S' k
      = afterConsume (consumedAnswer now nodeFingerprint (settledAt now S value)) (settledAt now S) k) :
    TokensAgree now T' S' := by
  have hseen : settledAt now S = settledAt now T := funext fun k => (h.same k).symm
  refine ⟨fun k => by rw [hT, hS, hseen], fun k row hrow => ?_⟩
  rw [hT] at hrow
  cases hanswer : consumedAnswer now nodeFingerprint (settledAt now T value) with
  | none =>
    rw [hanswer] at hrow
    exact h.sound k row hrow
  | some used =>
    rw [hanswer, afterConsume] at hrow
    split at hrow
    · obtain rfl := Option.some.inj hrow
      obtain ⟨token, htoken, rfl⟩ := Option.map_eq_some_iff.mp hanswer
      exact (h.sound value token (Option.filter_eq_some_iff.mp htoken).1).used nodeFingerprint
    · exact h.sound k row hrow

end TokensAgree

/-! ## §7. Sweeps. -/

/-- What reading one token leaves of every token. -/
theorem find?_get (now : Timestamp) (value : String) (tokens : JoinTokenStore) (k : String) :
    (JoinTokenStore.get now value tokens).2.find? k
      = if k = value then settledAt now tokens k else tokens.find? k := by
  -- `get` writes at most the row that it reads.
  by_cases hk : k = value
  · subst hk
    rw [if_pos rfl]
    unfold JoinTokenStore.get settledAt
    cases h : tokens.find? k with
    | none => simpa using h
    | some token =>
      by_cases hlapsed : token.status = .pending ∧ now > token.expiresAt
      · have hkey : (withExpired token).value = k := by
          rw [value_withExpired, Table.key_of_find? h]
        simp only [if_pos hlapsed, Option.map_some, settled]
        rw [Table.find?_upsert, if_pos hkey]
      · simp only [if_neg hlapsed, Option.map_some, settled, h]
  · rw [if_neg hk]
    unfold JoinTokenStore.get
    cases h : tokens.find? value with
    | none => rfl
    | some token =>
      have hkey : (withExpired token).value ≠ k := by
        rw [value_withExpired, Table.key_of_find? h]
        exact fun hv => hk hv.symm
      dsimp only
      split
      · exact Table.find?_upsert_of_ne tokens hkey
      · rfl

/-- Reading tokens one after the other brings each of them up to date. -/
theorem find?_gets (now : Timestamp) (values : List String) (tokens : JoinTokenStore) (k : String) :
    (values.foldl (fun tokens value => (JoinTokenStore.get now value tokens).2) tokens).find? k
      = if k ∈ values then settledAt now tokens k else tokens.find? k := by
  induction values generalizing tokens with
  | nil => rfl
  | cons value values ih =>
    rw [List.foldl_cons, ih]
    have hseen := (JoinTokenStore.get_eq now value tokens).2 k
    by_cases hk : k ∈ values
    · rw [if_pos hk, if_pos (List.mem_cons_of_mem _ hk), hseen]
    · rw [if_neg hk, find?_get]
      by_cases hv : k = value
      · rw [if_pos hv, if_pos (by simp [hv])]
      · rw [if_neg hv, if_neg (by simp [hv, hk])]

/-- **A sweep in memory** leaves what each token amounts to. -/
theorem find?_sweep (now : Timestamp) (tokens : JoinTokenStore) (value : String) :
    (tokens.sweep now).find? value = settledAt now tokens value := by
  rw [JoinTokenStore.sweep, find?_gets]
  by_cases hvalue : value ∈ tokens.rows.map JoinToken.value
  · rw [if_pos hvalue]
  · rw [if_neg hvalue]
    have hnone : tokens.find? value = none := by
      rw [Table.find?_eq_none]
      exact fun row hrow hkey => hvalue (List.mem_map.mpr ⟨row, hrow, hkey⟩)
    rw [settledAt, hnone]
    rfl

/-- The texts select the rows that lapsed. -/
theorem lapsedRow_iff {now : Timestamp} (hnow : now.Representable) {token : JoinToken}
    (htoken : token.expiresAt.Representable) :
    Store.lapsedRow now token = true ↔ token.status = .pending ∧ now > token.expiresAt := by
  rw [Store.lapsedRow, decide_eq_true_iff, Timestamp.isoformat_lt_iff htoken hnow]

theorem mem_expirePendingTokens {now : Timestamp} {s : Store} {value : String} :
    value ∈ (s.expirePendingTokens now).1
      ↔ ∃ row ∈ s.tokens.rows, Store.lapsedRow now row = true ∧ row.value = value := by
  simp only [Store.expirePendingTokens, Store.newestFirst, List.mem_map,
    (List.perm_insertionSort _ _).mem_iff, List.mem_filter, and_assoc]

/-- **A sweep in the database** leaves what each token amounts to. -/
theorem find?_expirePendingTokens {now : UtcNow} {s : Store}
    (hsound : ∀ row ∈ s.tokens.rows, row.expiresAt.Representable) (value : String) :
    (s.expirePendingTokens now.instant).2.tokens.find? value
      = settledAt now.instant s.tokens value := by
  have hupdate := s.tokens.find?_update
    (fun row => row.value ∈ (s.expirePendingTokens now.instant).1) withExpired (fun _ => rfl) value
  refine hupdate.trans ?_
  rw [settledAt]
  cases h : s.tokens.find? value with
  | none => rfl
  | some row =>
    have hrow := Table.mem_of_find? h
    -- The value of a row is its key, so being listed by value is being selected itself.
    have hselected : row.value ∈ (s.expirePendingTokens now.instant).1
        ↔ row.status = .pending ∧ now.instant > row.expiresAt := by
      rw [mem_expirePendingTokens, ← lapsedRow_iff now.representable (hsound row hrow)]
      constructor
      · rintro ⟨other, hother, hlapsed, hkey⟩
        rwa [← s.tokens.eq_of_key_eq hother hrow hkey]
      · exact fun hlapsed => ⟨row, hrow, hlapsed, rfl⟩
    rw [Option.map_some, Option.map_some, settled]
    by_cases hlapsed : row.status = .pending ∧ now.instant > row.expiresAt
    · rw [if_pos hlapsed, if_pos (decide_eq_true (hselected.mpr hlapsed))]
    · rw [if_neg hlapsed, if_neg (fun hv => hlapsed (hselected.mp (of_decide_eq_true hv)))]

/-! ## §8. Every sequence of operations. -/

/-- The two stores, as the steps see them. -/
def StoresAgree (now : UtcNow) (tokens : JoinTokenStore) (w : World) : Prop :=
  TokensAgree now.instant tokens w.store.tokens

/-- A sweep of the database changes nothing of what is seen. -/
theorem StoresAgree.expirePendingTokens {now : UtcNow} {tokens : JoinTokenStore} {w : World}
    (h : StoresAgree now tokens w) :
    TokensAgree now.instant tokens (w.store.expirePendingTokens now.instant).2.tokens := by
  refine TokensAgree.congr h (fun k => rfl) (fun k => ?_)
  rw [settledAt, find?_expirePendingTokens
    (fun row hrow => (h.symm.sound_row (Table.find?_of_mem hrow)).representable), settledAt,
    Option.map_map]
  congr 1
  exact funext fun token => settled_settled (le_refl _) token

/-- **One operation**: the stores give one answer and agree afterwards. -/
theorem StoresAgree.step (env : Env) {step : TokenStep} {tokens : JoinTokenStore} {w : World}
    (h : StoresAgree step.now tokens w) :
    (JoinTokenStore.step tokens step).1 = (Store.tokenStep env w step).1
      ∧ StoresAgree step.now (JoinTokenStore.step tokens step).2 (Store.tokenStep env w step).2 := by
  obtain ⟨now, op⟩ := step
  cases op with
  | create value trustLevel labels ttl =>
    -- Both stores refuse the same arguments, before either of them has written.
    by_cases htrust : trustLevel ∉ validTrustLevels
    · simp only [JoinTokenStore.step, Store.tokenStep, JoinTokenStore.create, if_pos htrust]
      exact ⟨trivial, h⟩
    · by_cases hrange : ¬ Timestamp.Representable (now.instant + ttl)
      · simp only [JoinTokenStore.step, Store.tokenStep, JoinTokenStore.create, if_neg htrust,
          if_pos hrange]
        exact ⟨trivial, h⟩
      · simp only [JoinTokenStore.step, Store.tokenStep, JoinTokenStore.create, if_neg htrust,
          if_neg hrange]
        refine ⟨trivial, TokensAgree.upsert h ⟨not_not.mp hrange, fun he => ?_, fun hr => ?_⟩⟩
        · cases he
        · cases hr
  | consume value nodeFingerprint =>
    obtain ⟨hmemory, hT⟩ := consume_eq now.instant value nodeFingerprint tokens
    obtain ⟨hdatabase, hS⟩ := consumeToken_run env now value nodeFingerprint w
    refine ⟨?_, TokensAgree.consume h value nodeFingerprint hT hS⟩
    simp only [JoinTokenStore.step, Store.tokenStep]
    rw [hmemory, hdatabase, h.same]
  | get value =>
    exact ⟨rfl, TokensAgree.congr h (JoinTokenStore.get_eq now.instant value tokens).2 (fun k => rfl)⟩
  | expirePendingTokens => exact ⟨rfl, h.expirePendingTokens⟩
  | listTokens => exact ⟨rfl, h.expirePendingTokens⟩

/-- A token that was not consumed and is not past its expiry. -/
def Consumable (now : Timestamp) (tokens : Table JoinToken.value) (value : String) : Prop :=
  ∃ token, tokens.find? value = some token ∧ token.status ≠ .used ∧ now ≤ token.expiresAt

/-- A token is taken up to the instant of its expiry. -/
theorem TokensAgree.consumedAnswer_isSome {now : Timestamp} {T S : Table JoinToken.value}
    (h : TokensAgree now T S) (value nodeFingerprint : String) :
    (consumedAnswer now nodeFingerprint (settledAt now T value)).isSome
      ↔ Consumable now T value := by
  unfold Consumable settledAt
  cases hrow : T.find? value with
  | none => simp [consumedAnswer]
  | some row =>
    have hsound := h.sound_row hrow
    by_cases hlapsed : row.status = .pending ∧ now > row.expiresAt
    · have hlate : ¬ now ≤ row.expiresAt := not_le.mpr hlapsed.2
      simp [consumedAnswer, settled, if_pos hlapsed, withExpired, hlate]
    · rw [Option.map_some, settled, if_neg hlapsed]
      -- A sound token that is not lapsed is pending exactly if it is unused and in time.
      have hiff : row.status = .pending ↔ row.status ≠ .used ∧ now ≤ row.expiresAt := by
        constructor
        · intro hpending
          exact ⟨by simp [hpending], not_lt.mp (fun hlt => hlapsed ⟨hpending, hlt⟩)⟩
        · rintro ⟨hunused, hle⟩
          cases hstatus : row.status with
          | pending => rfl
          | used => exact absurd hstatus hunused
          | expired => exact absurd (hsound.lapsed hstatus) (not_lt.mpr hle)
          | revoked => exact absurd hstatus hsound.unrevoked
      simp [consumedAnswer, Option.filter_some, hiff]

/-- A world before any token was created. -/
def World.withoutTokens (w : World) : World :=
  { w with store := { w.store with tokens := .empty } }

/-- Two stores of one initial clock that agree on no tokens at all. -/
theorem agree_withoutTokens (w : World) (now : UtcNow) :
    StoresAgree now .empty w.withoutTokens :=
  ⟨fun _ => rfl, fun _ _ htoken => by cases htoken⟩

/-- `list_tokens` answers with the tokens its sweep left. -/
theorem mem_listTokens {now : Timestamp} {s : Store} {token : JoinToken} :
    token ∈ (s.listTokens now).1 ↔ token ∈ (s.expirePendingTokens now).2.tokens.rows := by
  simp only [Store.listTokens, Store.newestFirst, List.mem_filterMap,
    (List.perm_insertionSort _ _).mem_iff]
  constructor
  · rintro ⟨row, hrow, hfind⟩
    exact Table.mem_of_find? hfind
  · exact fun htoken => ⟨token, htoken, Table.find?_of_mem htoken⟩

/-- **The stores of join tokens agree.**  After any operations, each made at
one clock reading and at readings that do not decrease, the stores gave the
same answers; at any later reading each of them takes exactly the tokens that
were not consumed and are not past their expiry; and a sweep of both leaves
the same tokens. -/
theorem token_stores_agree (env : Env) (w : World) (steps : List TokenStep) (now : UtcNow)
    (hclock : (steps.map TokenStep.now ++ [now]).Pairwise (· ≤ ·)) :
    let memory := Component.run JoinTokenStore.step steps .empty
    let database := Component.run (Store.tokenStep env) steps w.withoutTokens
    memory.1 = database.1
      ∧ (∀ value nodeFingerprint,
        let inMemory := (JoinTokenStore.consume now.instant value nodeFingerprint memory.2).1
        let inDatabase :=
          ((consumeToken value nodeFingerprint).run (exec (env.at_ now)) database.2).1
        inDatabase = .ok inMemory
          ∧ (inMemory.isSome ↔ Consumable now.instant memory.2 value)
          ∧ (inMemory.isSome ↔ Consumable now.instant database.2.store.tokens value))
      ∧ (∀ value, (memory.2.sweep now.instant).find? value
          = (database.2.store.expirePendingTokens now.instant).2.tokens.find? value)
      ∧ ∀ token, token ∈ (database.2.store.listTokens now.instant).1
          ↔ token ∈ (memory.2.sweep now.instant).rows := by
  intro memory database
  have hrun : memory.1 = database.1 ∧ StoresAgree now memory.2 database.2 :=
    Component.run_lockstep TokenStep.now StoresAgree (fun hle h => TokensAgree.mono h hle)
      (fun h => h.step env) steps now hclock (agree_withoutTokens w)
  obtain ⟨hanswers, hagree⟩ := hrun
  -- The sweep brings each store to what its tokens amount to, on which they agree.
  have hsweep : ∀ value, (memory.2.sweep now.instant).find? value
      = (database.2.store.expirePendingTokens now.instant).2.tokens.find? value := by
    intro value
    rw [find?_sweep, find?_expirePendingTokens
      (fun row hrow => (hagree.symm.sound_row (Table.find?_of_mem hrow)).representable)]
    exact hagree.same value
  refine ⟨hanswers, fun value nodeFingerprint => ?_, hsweep, fun token => ?_⟩
  · have hmemory := (consume_eq now.instant value nodeFingerprint memory.2).1
    have hdatabase := (consumeToken_run env now value nodeFingerprint database.2).1
    have hsame : settledAt now.instant memory.2 value
        = settledAt now.instant database.2.store.tokens value := hagree.same value
    refine ⟨?_, ?_, ?_⟩
    · rw [hmemory, hdatabase, hsame]
    · rw [hmemory]
      exact TokensAgree.consumedAnswer_isSome hagree value nodeFingerprint
    · rw [hmemory, hsame]
      exact TokensAgree.consumedAnswer_isSome hagree.symm value nodeFingerprint
  · rw [mem_listTokens]
    constructor
    · intro htoken
      exact Table.mem_of_find? ((hsweep token.value).trans (Table.find?_of_mem htoken))
    · intro htoken
      exact Table.mem_of_find? ((hsweep token.value).symm.trans (Table.find?_of_mem htoken))

/-- A minute after the first instant. -/
def firstMinute : UtcNow := ⟨seconds 60, by decide⟩

/-- A token that lives for a minute, read and swept in its last instant. -/
def lastInstantSteps : List TokenStep :=
  [⟨⟨0, by decide⟩, .create "j_one" "B" [] (seconds 60)⟩, ⟨firstMinute, .get "j_one"⟩,
    ⟨firstMinute, .expirePendingTokens⟩]

theorem taken_in_last_instant :
    (JoinTokenStore.consume firstMinute.instant "j_one" "sha256:abc"
      (Component.run JoinTokenStore.step lastInstantSteps .empty).2).1.isSome
    ∧ ∀ w : World, ((consumeToken "j_one" "sha256:abc").run (exec (Env.quiet.at_ firstMinute))
        (Component.run (Store.tokenStep Env.quiet) lastInstantSteps w.withoutTokens).2).1
      = .ok (JoinTokenStore.consume firstMinute.instant "j_one" "sha256:abc"
          (Component.run JoinTokenStore.step lastInstantSteps .empty).2).1 :=
  ⟨by decide, fun w =>
    ((token_stores_agree Env.quiet w lastInstantSteps firstMinute (by decide)).2.1
      "j_one" "sha256:abc").1⟩

end Hmn
