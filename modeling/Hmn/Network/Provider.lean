/-
  Hmn.Network.Provider — what the control plane does with the network
  provider: the synchronisation of its nodes with ours and the update of a
  node's tags after an approval.

  Both load whole node rows, talk to the provider, and write the rows back
  in later transactions.
-/
import Hmn.Approval.Approvals

namespace Hmn

open Framework Py

/-- `_require_network_provider`: the provider's name. -/
def requireNetworkProvider : Py String := do
  match ← orRaise (← call .getNetworkProvider) with
  | some name => return name
  | none => throw (.typerExit 1)

/-! ## §1. Synchronisation. -/

/-- `_network_node_matches_hmn`. -/
def networkNodeMatchesHmn (networkNode : NetworkNodeRecord) (node : Node) : Bool :=
  node.hostname = networkNode.hostname || node.hostname = networkNode.providerNodeId
    || node.nodeId = networkNode.hostname || node.nodeId = networkNode.providerNodeId

/-- What a synchronisation writes into its copy of a node. -/
def withNetwork (provider : String) (networkNode : NetworkNodeRecord) (node : Node) : Node :=
  { node with
    networkProvider := provider
    networkNodeId := networkNode.providerNodeId
    networkIp := networkNode.ip
    networkTags := networkNode.tags
    networkOnline := networkNode.online }

/-- `NetworkSyncResult`. -/
structure NetworkSyncResult where
  provider : String
  linked : Nat := 0
  updated : Nat := 0
  unmatched : List String := []
  deriving DecidableEq

/-- The loop of `_sync_network_nodes` over the provider's nodes.  A node of
ours is matched at most once, so its copy in `nodes` is read at most once
and the changes made to it are not seen again. -/
def syncLoop (provider : String) (nodes : List Node) :
    List NetworkNodeRecord → List String → NetworkSyncResult → Py NetworkSyncResult
  | [], _, result => return result
  | networkNode :: rest, matched, result => do
    match nodes.find? (fun n => n.nodeId ∉ matched && networkNodeMatchesHmn networkNode n) with
    | none =>
      let name := if networkNode.hostname = "" then networkNode.providerNodeId
        else networkNode.hostname
      syncLoop provider nodes rest matched
        { result with unmatched := result.unmatched ++ [name] }
    | some target =>
      let changed := withNetwork provider networkNode target
      if changed ≠ target then
        call (.saveNode changed)
        syncLoop provider nodes rest (target.nodeId :: matched)
          { result with linked := result.linked + 1, updated := result.updated + 1 }
      else
        syncLoop provider nodes rest (target.nodeId :: matched)
          { result with linked := result.linked + 1 }

/-- `_sync_network_nodes`. -/
def syncNetworkNodes : Py NetworkSyncResult := do
  let provider ← requireNetworkProvider
  let networkNodes ← orRaise (← call .listNetworkNodes)
  let nodes ← call .listNodes
  let result ← syncLoop provider nodes networkNodes [] { provider }
  call (.recordAudit "network" "provider" provider "sync" "ok"
    [("linked", .int result.linked), ("updated", .int result.updated),
      ("unmatched", .arr (result.unmatched.map .str))])
  return result

/-! ## §2. Updating the tags of a node. -/

/-- The name of the type of a value that cannot be iterated. -/
def notIterable : Json → String
  | .null => "NoneType"
  | .bool _ => "bool"
  | .int _ => "int"
  | .float _ => "float"
  | _ => ""

/-- `[str(tag) for tag in details.get("requested_tags", [])]`. -/
def requestedTags (details : Dict) : Except PyError (List String) :=
  match details.get? "requested_tags" with
  | none => .ok []
  | some (.arr tags) => .ok (tags.map Json.asStr)
  | some (.str s) => .ok (s.toList.map fun c => String.ofList [c])
  | some (.obj kvs) => .ok (kvs.map Prod.fst)
  | some v => .error (.type ("'" ++ notIterable v ++ "' object is not iterable"))

/-- What a tag update writes into its copy of a node. -/
def withTags (provider providerNodeId : String) (tags : List String) (node : Node) : Node :=
  { node with
    networkTags := tags
    networkProvider := if node.networkProvider = "" then provider else node.networkProvider
    networkNodeId := providerNodeId }

/-- The details every audit event of a tag update starts with. -/
def tagsAuditHead (approval : ApprovalRequest) (nodeId providerNodeId : String)
    (tags : List String) (node : Node) : Dict :=
  [("node_id", .str nodeId), ("provider_node_id", .str providerNodeId),
    ("old_tags", .arr (node.networkTags.map .str)), ("requested_tags", .arr (tags.map .str)),
    ("approval_id", .str approval.approvalId)]

/-- The provider refused the tags: audit it and raise again. -/
def tagsRefused (approval : ApprovalRequest) (nodeId providerNodeId : String)
    (tags : List String) (node : Node) : PyError → Py Bool
  | .networkProvider message => do
      call (.recordAudit "network" "network_node" nodeId "tags/update" "failed"
        (tagsAuditHead approval nodeId providerNodeId tags node ++ [("error", .str message)]))
      throw (.networkProvider message)
  | e => throw e

/-- The provider took the tags: write them into the loaded copy of the node. -/
def tagsTaken (approval : ApprovalRequest) (provider nodeId providerNodeId : String)
    (tags : List String) (node : Node) : Py Bool := do
  call (.saveNode (withTags provider providerNodeId tags node))
  call (.recordAudit "network" "network_node" nodeId "tags/update" "ok"
    (tagsAuditHead approval nodeId providerNodeId tags node ++ [("provider", .str provider)]))
  return true

/-- The part of `_dispatch_approved_network_tag_update` that talks to the
provider. -/
def updateTags (approval : ApprovalRequest) (nodeId providerNodeId : String)
    (tags : List String) (node : Node) : Py Bool := do
  let provider ← requireNetworkProvider
  match ← call (.setNodeTags providerNodeId tags) with
  | .error e => tagsRefused approval nodeId providerNodeId tags node e
  | .ok () => tagsTaken approval provider nodeId providerNodeId tags node

/-- `_dispatch_approved_network_tag_update` once the approval is known to be
an approved tag update. -/
def dispatchTags (approval : ApprovalRequest) : Py Bool := do
  let nodeId := approval.details.getStr "node_id" approval.subjectId
  let providerNodeId := approval.details.getStr "provider_node_id" ""
  let tags ← orRaise (requestedTags approval.details)
  if nodeId = "" ∨ providerNodeId = "" then return false
  else
    match ← call (.loadNode nodeId) with
    | none => return false
    | some node =>
      if node.status ≠ .managed then return false
      else updateTags approval nodeId providerNodeId tags node

/-- `_dispatch_approved_network_tag_update`. -/
def dispatchApprovedNetworkTagUpdate (approvalId : String) : Py Bool := do
  match ← call (.loadApprovalRequest approvalId) with
  | none => return false
  | some approval =>
    if approval.status ≠ .approved then return false
    else if ¬ approval.isTagsSet then return false
    else dispatchTags approval

end Hmn
