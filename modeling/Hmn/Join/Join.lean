/-
  Hmn.Join.Join — joining the network with a join token.

  `join` loads the token, looks for a node that already joined, consumes
  the token and registers the node; `consumeToken` is itself a load, a check
  and a save of the whole row in separate transactions, and so is
  `revokeToken`.
-/
import Hmn.Store.Calls

namespace Hmn

open Framework Py

/-- `JoinRequest`. -/
structure JoinRequest where
  token : String
  fingerprint : String
  hostname : String
  addresses : List String := []
  autoConfirm : Bool := true
  deriving DecidableEq

/-- `JoinResponse`. -/
structure JoinResponse where
  nodeId : String
  status : NodeStatus
  trustLevel : String
  labels : List String
  deriving DecidableEq

/-! ## §1. Consuming a token. -/

/-- What `consume_token` writes into its copy of a token that is too old. -/
def withExpired (token : JoinToken) : JoinToken := { token with status := .expired }

/-- What `consume_token` writes into its copy of the token it takes. -/
def withUsed (now : Timestamp) (nodeFingerprint : String) (token : JoinToken) : JoinToken :=
  { token with status := .used, usedAt := some now, nodeFingerprint := some nodeFingerprint }

/-- `consume_token`. -/
def consumeToken (value nodeFingerprint : String) : Py (Option JoinToken) := do
  match ← call (.loadToken value) with
  | none => return none
  | some token =>
    let now ← call .now
    if token.status = .pending ∧ now > token.expiresAt then
      call (.saveToken (withExpired token))
      return none
    else if token.status ≠ .pending then return none
    else
      call (.saveToken (withUsed now nodeFingerprint token))
      return some (withUsed now nodeFingerprint token)

/-! ## §2. Registering a node. -/

/-- `_find_duplicate_join_node` over the listed nodes. -/
def findDuplicateJoinNode (nodes : List Node) (request : JoinRequest) : Option Node :=
  nodes.find? fun node =>
    node.status ≠ .revoked &&
      (node.fingerprint = request.fingerprint ||
        (node.hostname = request.hostname &&
          request.addresses.any (fun a => a ≠ "" && a ∈ node.addresses)))

/-- The node `register_pending_node` builds for a request. -/
def joinedNode (nodeId : String) (request : JoinRequest) (consumed : JoinToken) : Node where
  nodeId
  fingerprint := request.fingerprint
  hostname := request.hostname
  addresses := request.addresses
  trustLevel := consumed.trustLevel
  labels := consumed.labels

/-- What an automatic confirmation writes into the new node. -/
def autoConfirmed (node : Node) : Node :=
  { node with status := .managed, permissionBundles := ["observe", "task"] }

/-- The audit event of a join. -/
def joinDetails (node : Node) (request : JoinRequest) : Dict :=
  [("hostname", .str node.hostname), ("addresses", .arr (node.addresses.map .str)),
    ("trust_level", .str node.trustLevel), ("labels", .arr (node.labels.map .str)),
    ("auto_confirm", .bool request.autoConfirm),
    ("permission_bundles", .arr (node.permissionBundles.map .str))]

/-- The last part of `join`: the audit event and the answer. -/
def joinAnswer (node : Node) (request : JoinRequest) : Py JoinResponse := do
  call (.recordAudit "node" "node" node.nodeId "join" "ok" (joinDetails node request))
  return { nodeId := node.nodeId, status := node.status, trustLevel := node.trustLevel,
           labels := node.labels }

/-- The part of `join` after a token was consumed. -/
def registerJoin (request : JoinRequest) (consumed : JoinToken) : Py JoinResponse := do
  let uuid ← call .uuid4
  let node := joinedNode ("node_" ++ uuid) request consumed
  call (.saveNode node)
  if request.autoConfirm then
    call (.saveNode (autoConfirmed node))
    joinAnswer (autoConfirmed node) request
  else joinAnswer node request

/-- The answer to a request whose token could not be consumed. -/
def joinRefused (request : JoinRequest) : Py JoinResponse := do
  match ← call (.loadToken request.token) with
  | some refreshed => throw (.http 409 ("join token is " ++ refreshed.status.text))
  | none => throw (.http 409 "join token is unknown")

/-- The part of `join` from its consume step on. -/
def consumeAndRegister (request : JoinRequest) : Py JoinResponse := do
  match ← consumeToken request.token request.fingerprint with
  | none => joinRefused request
  | some consumed => registerJoin request consumed

/-- The part of `join` after the nodes were listed. -/
def joinListed (request : JoinRequest) (nodes : List Node) : Py JoinResponse :=
  match findDuplicateJoinNode nodes request with
  | some duplicate => throw (.http 409 ("node already exists: " ++ duplicate.nodeId))
  | none => consumeAndRegister request

/-- `join`. -/
def join (request : JoinRequest) : Py JoinResponse := do
  match ← call (.loadToken request.token) with
  | none => throw (.http 404 "join token not found")
  | some _ => joinListed request (← call .listNodes)

/-! ## §3. Revoking a token. -/

/-- What a revocation writes into its copy of a token. -/
def withTokenRevoked (token : JoinToken) : JoinToken := { token with status := .revoked }

/-- `revoke_token`. -/
def revokeToken (tokenValue : String) : Py Unit := do
  match ← call (.loadToken tokenValue) with
  | none => throw (.typerExit 1)
  | some token =>
    call (.saveToken (withTokenRevoked token))
    call (.recordAudit "token" "join_token" token.value "revoke" "ok" [])

/-- The callers that use a join token. -/
inductive TokenCaller where
  | join (request : JoinRequest)
  | revoke (tokenValue : String)

/-- What a caller runs; the answer of a join is left out. -/
def TokenCaller.program : TokenCaller → Py Unit
  | .join request => do let _ ← Hmn.join request
  | .revoke tokenValue => revokeToken tokenValue

/-- The caller joins with the token `value`. -/
def TokenCaller.joins (value : String) : TokenCaller → Bool
  | .join request => request.token = value
  | .revoke _ => false

end Hmn
