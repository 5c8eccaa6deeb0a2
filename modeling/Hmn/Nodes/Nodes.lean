/-
  Hmn.Nodes.Nodes — confirming, revoking and rekeying a node.

  Each operation loads a whole node row in one transaction, changes a field
  or two of its copy and writes all of it back in another one.
-/
import Hmn.Framework.Sha256
import Hmn.Store.Calls

namespace Hmn

open Framework Py

/-! ## §1. Selecting a node. -/

/-- The node a prompt's answer picks from a list, counted from 1. -/
def pickNode (nodes : List Node) (choice : Int) : Option Node :=
  if choice < 1 then none else nodes[(choice - 1).toNat]?

/-- The only node of a list, or the one the prompt's answer picks. -/
def selectFrom (nodes : List Node) (choice : Int) : Option Node :=
  match nodes with
  | [node] => some node
  | nodes => pickNode nodes choice

theorem mem_of_selectFrom {nodes : List Node} {choice : Int} {node : Node}
    (h : selectFrom nodes choice = some node) : node ∈ nodes := by
  unfold selectFrom at h
  split at h
  · obtain rfl := Option.some.inj h
    exact List.mem_singleton_self _
  · unfold pickNode at h
    split_ifs at h
    exact List.mem_of_getElem? h

/-- The selection of a pending node in `confirm_node`; `choice` is the
answer to its prompt. -/
def selectPendingNode (choice : Int) : Py String := do
  let nodes ← call .listNodes
  match selectFrom (nodes.filter (·.status = .pending)) choice with
  | some node => return node.nodeId
  | none => throw (.typerExit 1)

/-- `_select_managed_node`; a node that is named need not be managed. -/
def selectManagedNode (nodeId : Option String) (choice : Int) : Py Node := do
  match nodeId with
  | some nodeId =>
    match ← call (.loadNode nodeId) with
    | some node => return node
    | none => throw (.typerExit 1)
  | none =>
    let nodes ← call .listNodes
    match selectFrom (nodes.filter (·.status = .managed)) choice with
    | some node => return node
    | none => throw (.typerExit 1)

/-! ## §2. Confirming and revoking. -/

/-- `NodeRegistry.confirm` on the loaded copy. -/
def confirmed (permissionBundles : List String) (node : Node) : Option Node :=
  if node.status = .revoked then none
  else some { node with status := .managed, permissionBundles }

/-- `NodeRegistry.revoke` on the loaded copy. -/
def revoked (node : Node) : Node := { node with status := .revoked }

/-- `confirm_node` once the node is known. -/
def confirmNodeById (nodeId : String) (bundle : List String) : Py Unit := do
  match ← call (.loadNode nodeId) with
  | none => throw (.typerExit 1)
  | some node =>
    match confirmed bundle node with
    | none => throw (.typerExit 1)
    | some updated =>
      call (.saveNode updated)
      call (.recordAudit "node" "node" updated.nodeId "confirm" "ok"
        [("bundles", .arr (bundle.map .str))])

/-- `confirm_node`. -/
def confirmNode (nodeId : Option String) (choice : Int) (bundle : List String) : Py Unit := do
  match nodeId with
  | some nodeId => confirmNodeById nodeId bundle
  | none => confirmNodeById (← selectPendingNode choice) bundle

/-- `revoke_node`. -/
def revokeNode (nodeId : String) : Py Unit := do
  match ← call (.loadNode nodeId) with
  | none => throw (.typerExit 1)
  | some node =>
    call (.saveNode (revoked node))
    call (.recordAudit "node" "node" node.nodeId "revoke" "ok" [])

/-! ## §3. Rotating the fingerprint. -/

/-- What a rotation writes into its copy of a node. -/
def withFingerprint (fingerprint : String) (node : Node) : Node := { node with fingerprint }

/-- The details of the event `rotate_fingerprint`. -/
def rotationDetails (currentFingerprint : Option String) (newFingerprint : String) : Dict :=
  let old := currentFingerprint.getD ""
  [("old_fingerprint_sha256", .str (if old = "" then "operator-forced" else old)),
    ("new_fingerprint_sha256", .str newFingerprint)]

/-- `rotate_node_fingerprint`; without a current fingerprint the rotation is
forced by an operator. -/
def rotateNodeFingerprint (nodeId : String) (currentFingerprint : Option String)
    (newFingerprint : String) : Py (Option Node) := do
  match ← call (.loadNode nodeId) with
  | none => return none
  | some node =>
    if currentFingerprint.any (· ≠ node.fingerprint) then return none
    else
      call (.saveNode (withFingerprint newFingerprint node))
      call (.recordAudit "node" "node" node.nodeId "rotate_fingerprint" "ok"
        (rotationDetails currentFingerprint newFingerprint))
      return some (withFingerprint newFingerprint node)

/-- The fingerprint of a rotation by an operator: the one that is given, or
the digest of random bytes. -/
def generatedFingerprint (newFingerprint : Option String) (tokenBytes : List Nat) : String :=
  if newFingerprint.getD "" = "" then "sha256:" ++ Sha256.hexdigest tokenBytes
  else newFingerprint.getD ""

/-- `rotate_fingerprint_command`; `tokenBytes` are the random bytes. -/
def rotateFingerprintCommand (nodeId : Option String) (choice : Int)
    (newFingerprint : Option String) (tokenBytes : List Nat) : Py Unit := do
  let node ← selectManagedNode nodeId choice
  match ← rotateNodeFingerprint node.nodeId none
      (generatedFingerprint newFingerprint tokenBytes) with
  | none => throw (.typerExit 1)
  | some _ => return ()

end Hmn
