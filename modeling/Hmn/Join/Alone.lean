/-
  Hmn.Join.Alone — what a join does when nothing else happens.

  A join that is handled alone either fails, and then at most the token it
  presented expires, or it takes the token and registers one node.

  Main result: `join_all_or_nothing`.
-/
import Hmn.Join.Join
import Hmn.Store.Frames

namespace Hmn

open Framework Py

/-! ## §1. Duplicates. -/

/-- The nodes in the order in which they are listed. -/
def listedNodes (w : World) : List Node :=
  w.store.nodes.rows.insertionSort (fun a b => a.hostname ≤ b.hostname)

theorem mem_listedNodes {w : World} {node : Node} :
    node ∈ listedNodes w ↔ node ∈ w.store.nodes.rows :=
  (List.perm_insertionSort _ _).mem_iff

/-- The node is not revoked, and it has the fingerprint of the request or its
hostname and one of its addresses. -/
def Duplicates (request : JoinRequest) (node : Node) : Prop :=
  node.status ≠ .revoked ∧ (node.fingerprint = request.fingerprint
    ∨ node.hostname = request.hostname ∧ ∃ a ∈ request.addresses, a ≠ "" ∧ a ∈ node.addresses)

/-- **The search for a duplicate finds none** exactly when there is none. -/
theorem findDuplicateJoinNode_eq_none {request : JoinRequest} {w : World} :
    findDuplicateJoinNode (listedNodes w) request = none
      ↔ ∀ node ∈ w.store.nodes.rows, ¬ Duplicates request node := by
  unfold findDuplicateJoinNode Duplicates
  rw [List.find?_eq_none]
  simp only [mem_listedNodes, Bool.and_eq_true, Bool.or_eq_true, decide_eq_true_eq,
    List.any_eq_true]

theorem duplicates_of_found {request : JoinRequest} {w : World} {duplicate : Node}
    (h : findDuplicateJoinNode (listedNodes w) request = some duplicate) :
    duplicate ∈ w.store.nodes.rows ∧ Duplicates request duplicate := by
  have hcheck := List.find?_some h
  refine ⟨mem_listedNodes.mp (List.mem_of_find?_eq_some h), ?_⟩
  simpa only [Duplicates, Bool.and_eq_true, Bool.or_eq_true, decide_eq_true_eq,
    List.any_eq_true] using hcheck

/-! ## §2. The parts of a join. -/

/-- The row a join leaves behind. -/
def registeredNode (uuid : String) (request : JoinRequest) (consumed : JoinToken) : Node :=
  if request.autoConfirm then autoConfirmed (joinedNode ("node_" ++ uuid) request consumed)
  else joinedNode ("node_" ++ uuid) request consumed

/-- The answer of a join that registered a node. -/
def joinResponse (node : Node) : JoinResponse where
  nodeId := node.nodeId
  status := node.status
  trustLevel := node.trustLevel
  labels := node.labels

section

variable (env : Env) (request : JoinRequest) (w : World)

/-- **Registering writes one row**, and no token. -/
theorem registerJoin_run (consumed : JoinToken) :
    ((registerJoin request consumed).run (exec env) w).1
        = .ok (joinResponse (registeredNode (env.uuid w.uuids) request consumed))
    ∧ ((registerJoin request consumed).run (exec env) w).2.store.nodes
        = w.store.nodes.upsert (registeredNode (env.uuid w.uuids) request consumed)
    ∧ ((registerJoin request consumed).run (exec env) w).2.store.tokens = w.store.tokens := by
  unfold registerJoin registeredNode
  rw [run_call_bind]
  cases request.autoConfirm with
  | false => exact ⟨rfl, rfl, rfl⟩
  | true => exact ⟨rfl, Table.upsert_upsert _ rfl, rfl⟩

variable {request w}

theorem join_unknown (htoken : w.store.tokens.find? request.token = none) :
    (join request).run (exec env) w = (.error (.http 404 "join token not found"), w) := by
  unfold join
  rw [run_call_bind]
  simp only [exec, htoken]
  rfl

/-- A join with a known token goes on with the listed nodes. -/
theorem join_listed {token : JoinToken} (htoken : w.store.tokens.find? request.token = some token) :
    (join request).run (exec env) w = (joinListed request (listedNodes w)).run (exec env) w := by
  unfold join
  rw [run_call_bind]
  simp only [exec, htoken]
  rfl

theorem join_duplicate {token : JoinToken} {duplicate : Node}
    (htoken : w.store.tokens.find? request.token = some token)
    (hdup : findDuplicateJoinNode (listedNodes w) request = some duplicate) :
    (join request).run (exec env) w
      = (.error (.http 409 ("node already exists: " ++ duplicate.nodeId)), w) := by
  rw [join_listed env htoken, joinListed, hdup]
  rfl

/-- A join without a duplicate goes on to the token. -/
theorem join_consumes {token : JoinToken}
    (htoken : w.store.tokens.find? request.token = some token)
    (hdup : findDuplicateJoinNode (listedNodes w) request = none) :
    (join request).run (exec env) w = (consumeAndRegister request).run (exec env) w := by
  rw [join_listed env htoken, joinListed, hdup]

/-- The three ends of `consume_token` for a token that is known. -/
theorem consumeToken_cases {value : String} {token : JoinToken} (fingerprint : String)
    (htoken : w.store.tokens.find? value = some token) :
    (token.status = .pending ∧ w.reading env 0 > token.expiresAt
      ∧ (consumeToken value fingerprint).run (exec env) w
          = (.ok none, w.after 1 { w.store with tokens := w.store.tokens.upsert (withExpired token) }))
    ∨ (token.status ≠ .pending
      ∧ (consumeToken value fingerprint).run (exec env) w = (.ok none, w.after 1 w.store))
    ∨ (token.status = .pending ∧ ¬ w.reading env 0 > token.expiresAt
      ∧ (consumeToken value fingerprint).run (exec env) w
          = (.ok (some (withUsed (w.reading env 0) fingerprint token)),
              w.after 1 { w.store with
                tokens := w.store.tokens.upsert (withUsed (w.reading env 0) fingerprint token) })) := by
  unfold consumeToken
  rw [run_call_bind]
  simp only [exec, htoken]
  rw [run_call_bind]
  -- Pending and late: the expiry is saved. Pending and in time: the use is. Otherwise nothing is.
  by_cases hpending : token.status = .pending
  · by_cases hlate : w.reading env 0 > token.expiresAt
    · have hboth : token.status = .pending ∧ (exec env .now w).1 > token.expiresAt :=
        ⟨hpending, hlate⟩
      refine Or.inl ⟨hpending, hlate, ?_⟩
      rw [if_pos hboth]
      rfl
    · have hboth : ¬ (token.status = .pending ∧ (exec env .now w).1 > token.expiresAt) :=
        fun h => hlate h.2
      refine Or.inr (Or.inr ⟨hpending, hlate, ?_⟩)
      rw [if_neg hboth, if_neg (not_not.mpr hpending)]
      rfl
  · have hboth : ¬ (token.status = .pending ∧ (exec env .now w).1 > token.expiresAt) :=
      fun h => hpending h.1
    refine Or.inr (Or.inl ⟨hpending, ?_⟩)
    rw [if_neg hboth, if_pos hpending]
    rfl

/-- The answer to a join whose token could not be consumed. -/
theorem joinRefused_run {token : JoinToken}
    (htoken : w.store.tokens.find? request.token = some token) :
    (joinRefused request).run (exec env) w
      = (.error (.http 409 ("join token is " ++ token.status.text)), w) := by
  unfold joinRefused
  rw [run_call_bind]
  simp only [exec, htoken]
  rfl

/-! ## §3. All or nothing. -/

/-- The refusals of a join. -/
def RefusesJoin (request : JoinRequest) (w : World) (e : PyError) : Prop :=
  (e = .http 404 "join token not found" ∧ w.store.tokens.find? request.token = none)
  ∨ (∃ node ∈ w.store.nodes.rows, Duplicates request node
      ∧ e = .http 409 ("node already exists: " ++ node.nodeId))
  ∨ ∃ status, status ≠ TokenStatus.pending ∧ e = .http 409 ("join token is " ++ status.text)

/-- The nodes are the same, and so are the tokens, except that the presented
one may have expired in time. -/
def JoinFails (env : Env) (request : JoinRequest) (w w' : World) : Prop :=
  w'.store.nodes = w.store.nodes
  ∧ (w'.store.tokens = w.store.tokens
    ∨ ∃ token, w.store.tokens.find? request.token = some token ∧ token.status = .pending
      ∧ w.reading env 0 > token.expiresAt
      ∧ w'.store.tokens = w.store.tokens.upsert (withExpired token))

/-- **What a join that succeeds has done** with the token it presented: one
row comes in and the others stay, and the token is used. -/
structure JoinAdds (env : Env) (request : JoinRequest) (w w' : World) (response : JoinResponse)
    (token : JoinToken) (node : Node) : Prop where
  presented : w.store.tokens.find? request.token = some token
  pending : token.status = .pending
  inTime : ¬ w.reading env 0 > token.expiresAt
  noDuplicate : ∀ n ∈ w.store.nodes.rows, ¬ Duplicates request n
  added : w'.store.nodes.rows = w.store.nodes.rows ++ [node]
  used : w'.store.tokens
    = w.store.tokens.upsert (withUsed (w.reading env 0) request.fingerprint token)
  consumed : ∃ row, w'.store.tokens.find? request.token = some row ∧ row.status = .used
    ∧ row.usedAt = some (w.reading env 0) ∧ row.nodeFingerprint = some request.fingerprint
  otherTokens : ∀ value, value ≠ request.token →
    w'.store.tokens.find? value = w.store.tokens.find? value
  fingerprint : node.fingerprint = request.fingerprint
  hostname : node.hostname = request.hostname
  addresses : node.addresses = request.addresses
  trustLevel : node.trustLevel = token.trustLevel
  labels : node.labels = token.labels
  status : node.status = if request.autoConfirm then .managed else .pending
  bundles : node.permissionBundles = if request.autoConfirm then ["observe", "task"] else []
  response : response = joinResponse node

/-- The tokens after a failed join: each keeps its status, or it is the
presented one and expired. -/
theorem JoinFails.status {w' : World} (h : JoinFails env request w w') (value : String) :
    (w'.store.tokens.find? value).map JoinToken.status
        = (w.store.tokens.find? value).map JoinToken.status
    ∨ value = request.token
      ∧ (w.store.tokens.find? value).map JoinToken.status = some .pending
      ∧ (w'.store.tokens.find? value).map JoinToken.status = some .expired := by
  obtain ⟨-, hsame | ⟨token, htoken, hpending, -, htokens⟩⟩ := h
  · exact Or.inl (by rw [hsame])
  · have hkey : (withExpired token).value = request.token :=
      show token.value = request.token from Table.key_of_find? htoken
    rw [htokens, Table.find?_upsert]
    by_cases hvalue : (withExpired token).value = value
    · rw [if_pos hvalue]
      obtain rfl := hvalue.symm.trans hkey
      rw [htoken]
      exact Or.inr ⟨rfl, congrArg some hpending, rfl⟩
    · rw [if_neg hvalue]
      exact Or.inl rfl

/-- What a run of a join has done, by its answer. -/
def JoinOutcome (env : Env) (request : JoinRequest) (w w' : World) :
    Except PyError JoinResponse → Prop
  | .error e => RefusesJoin request w e ∧ JoinFails env request w w'
  | .ok response => ∃ token node, JoinAdds env request w w' response token node

/-- A join that takes a token registers its node. -/
theorem join_adds {token : JoinToken} {w₁ : World}
    (htoken : w.store.tokens.find? request.token = some token)
    (hdup : findDuplicateJoinNode (listedNodes w) request = none)
    (hfresh : w.store.nodes.find? ("node_" ++ env.uuid w.uuids) = none)
    (hpending : token.status = .pending) (hlate : ¬ w.reading env 0 > token.expiresAt)
    (hw₁ : w₁ = w.after 1 { w.store with
      tokens := w.store.tokens.upsert (withUsed (w.reading env 0) request.fingerprint token) }) :
    JoinOutcome env request w
      ((registerJoin request (withUsed (w.reading env 0) request.fingerprint token)).run
        (exec env) w₁).2
      ((registerJoin request (withUsed (w.reading env 0) request.fingerprint token)).run
        (exec env) w₁).1 := by
  obtain ⟨hanswer, hnodes, htokens⟩ := registerJoin_run env request w₁
    (withUsed (w.reading env 0) request.fingerprint token)
  rw [hanswer]
  subst hw₁
  -- The registered node carries the drawn identifier, confirmed at once or not.
  have hid : (registeredNode (env.uuid w.uuids) request
      (withUsed (w.reading env 0) request.fingerprint token)).nodeId = "node_" ++ env.uuid w.uuids := by
    unfold registeredNode
    split <;> rfl
  refine ⟨token, registeredNode (env.uuid w.uuids) request
    (withUsed (w.reading env 0) request.fingerprint token), ?_⟩
  constructor
  case presented => exact htoken
  case pending => exact hpending
  case inTime => exact hlate
  case noDuplicate => exact findDuplicateJoinNode_eq_none.mp hdup
  case added => exact (congrArg Table.rows hnodes).trans (Table.rows_upsert_new (hid.symm ▸ hfresh))
  case used => exact htokens
  case consumed =>
    have hvalue : token.value = request.token := Table.key_of_find? htoken
    refine ⟨withUsed (w.reading env 0) request.fingerprint token, ?_, rfl, rfl, rfl⟩
    rw [htokens, ← hvalue]
    exact Table.find?_upsert_self _ _
  case otherTokens =>
    intro value hother
    have hvalue : token.value = request.token := Table.key_of_find? htoken
    rw [htokens]
    exact Table.find?_upsert_of_ne _ fun h => hother (h.symm.trans hvalue)
  case response => rfl
  -- The fields of the row that comes in.
  all_goals
    unfold registeredNode
    cases request.autoConfirm <;> rfl

/-- **A join that is handled alone is all or nothing.** -/
theorem join_all_or_nothing (env : Env) (request : JoinRequest) (w : World)
    (hfresh : w.store.nodes.find? ("node_" ++ env.uuid w.uuids) = none) :
    JoinOutcome env request w ((join request).run (exec env) w).2
      ((join request).run (exec env) w).1 := by
  cases htoken : w.store.tokens.find? request.token with
  | none =>
    rw [join_unknown env htoken]
    exact ⟨Or.inl ⟨rfl, htoken⟩, rfl, Or.inl rfl⟩
  | some token =>
    cases hdup : findDuplicateJoinNode (listedNodes w) request with
    | some duplicate =>
      rw [join_duplicate env htoken hdup]
      obtain ⟨hmem, hcheck⟩ := duplicates_of_found hdup
      exact ⟨Or.inr (Or.inl ⟨duplicate, hmem, hcheck, rfl⟩), rfl, Or.inl rfl⟩
    | none =>
      rw [join_consumes env htoken hdup, consumeAndRegister, Prog.run_bind]
      -- The refusal reads the token again, after the expiry may have been saved.
      rcases consumeToken_cases env request.fingerprint htoken with
        ⟨hpending, hlate, hrun⟩ | ⟨hstatus, hrun⟩ | ⟨hpending, hlate, hrun⟩
      · have hkey : (withExpired token).value = request.token :=
          show token.value = request.token from Table.key_of_find? htoken
        have hfound : (w.store.tokens.upsert (withExpired token)).find? request.token
            = some (withExpired token) := by
          rw [Table.find?_upsert, if_pos hkey]
        have hrefused : (joinRefused request).run (exec env)
            (w.after 1 { w.store with tokens := w.store.tokens.upsert (withExpired token) })
            = (.error (.http 409 ("join token is " ++ (withExpired token).status.text)), _) :=
          joinRefused_run env hfound
        rw [hrun]
        dsimp only
        rw [hrefused]
        exact ⟨Or.inr (Or.inr ⟨.expired, nofun, rfl⟩), rfl,
          Or.inr ⟨token, htoken, hpending, hlate, rfl⟩⟩
      · have hrefused : (joinRefused request).run (exec env) (w.after 1 w.store)
            = (.error (.http 409 ("join token is " ++ token.status.text)), _) :=
          joinRefused_run env htoken
        rw [hrun]
        dsimp only
        rw [hrefused]
        exact ⟨Or.inr (Or.inr ⟨token.status, hstatus, rfl⟩), rfl, Or.inl rfl⟩
      · rw [hrun]
        exact join_adds env htoken hdup hfresh hpending hlate rfl

end

/-! ## §4. A join that succeeds. -/

/-- A pending token. -/
def joinToken (value : String) : JoinToken where
  value
  trustLevel := "B"
  labels := []
  createdAt := 0
  expiresAt := 100

/-- A registry without nodes and two join tokens. -/
def twoTokens : World where
  store := { Store.empty with tokens := (Table.single (joinToken "t1")).upsert (joinToken "t2") }
  files _ := .missing

/-- The request of a host to join. -/
def joinRequest (token host : String) : JoinRequest where
  token
  fingerprint := "fp-" ++ host
  hostname := host

/-- **The first join** of an empty registry succeeds, and it is all or
nothing. -/
theorem first_join :
    ((join (joinRequest "t1" "web-1")).run (exec Env.quiet) twoTokens).1 = .ok
        { nodeId := "node_00000000000a", status := .managed, trustLevel := "B", labels := [] }
    ∧ JoinOutcome Env.quiet (joinRequest "t1" "web-1") twoTokens
      ((join (joinRequest "t1" "web-1")).run (exec Env.quiet) twoTokens).2
      ((join (joinRequest "t1" "web-1")).run (exec Env.quiet) twoTokens).1 :=
  ⟨by decide +kernel, join_all_or_nothing Env.quiet (joinRequest "t1" "web-1") twoTokens
    (by decide +kernel)⟩

end Hmn
