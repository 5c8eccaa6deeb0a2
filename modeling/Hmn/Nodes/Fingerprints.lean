/-
  Hmn.Nodes.Fingerprints — does a fingerprint name one node?

  A join looks for a node with the fingerprint of the request before it
  registers another one; the two ways to rotate a fingerprint do not look.
  The operations on the registry are taken one at a time, in any order.

  Main results: `fingerprints_unique_iff` — in every state of a run the nodes
  that are not revoked have different fingerprints exactly when they have at
  its start and every rotation finds its fingerprint free;
  `rotation_doubles_fingerprint` — two joins and a rotation that does not.
-/
import Hmn.Join.Alone
import Hmn.Nodes.AuthGate
import Hmn.Store.Frames

namespace Hmn

open Framework Py

/-! ## §1. The operations on the registry. -/

/-- The operations. -/
inductive RegistryOp where
  | join (request : JoinRequest)
  | confirm (nodeId : Option String) (choice : Int) (bundle : List String)
  | revoke (nodeId : String)
  | rotate (nodeId : String) (body : RotateFingerprintRequest)
  | rotateCommand (nodeId : Option String) (choice : Int) (newFingerprint : Option String)
      (tokenBytes : List Nat)

namespace RegistryOp

/-- What an operation runs; its answer is left out. -/
def program : RegistryOp → Py Unit
  | .join request => do let _ ← Hmn.join request
  | .confirm nodeId choice bundle => confirmNode nodeId choice bundle
  | .revoke nodeId => revokeNode nodeId
  | .rotate nodeId body => do let _ ← rotateFingerprint nodeId body
  | .rotateCommand nodeId choice new tokenBytes =>
      rotateFingerprintCommand nodeId choice new tokenBytes

/-- The world after an operation. -/
def after (env : Env) (op : RegistryOp) (w : World) : World := (op.program.run (exec env) w).2

end RegistryOp

/-- The states that a sequence of operations goes through. -/
def registryStates (env : Env) : World → List RegistryOp → List World
  | w, [] => [w]
  | w, op :: ops => w :: registryStates env (op.after env w) ops

/-- A node takes part in the network. -/
def Node.Live (node : Node) : Prop := node.status ≠ .revoked

instance : DecidablePred Node.Live := fun node => inferInstanceAs (Decidable (node.status ≠ .revoked))

/-- No two nodes that are not revoked have the same fingerprint. -/
def UniqueFingerprints (w : World) : Prop := w.store.nodes.Distinguishes Node.Live Node.fingerprint

instance (w : World) : Decidable (UniqueFingerprints w) :=
  inferInstanceAs (Decidable (w.store.nodes.Distinguishes Node.Live Node.fingerprint))

/-! ## §2. The rotations that an operation carries out. -/

/-- The node that `_select_managed_node` returns. -/
def selectedNode (nodeId : Option String) (choice : Int) (w : World) : Option Node :=
  match nodeId with
  | some nodeId => w.store.nodes.find? nodeId
  | none => selectFrom ((listedNodes w).filter (·.status = .managed)) choice

namespace RegistryOp

/-- The node whose fingerprint an operation rotates, and the new one; there
is none when the rotation is refused. -/
def rotation (op : RegistryOp) (w : World) : Option (Node × String) :=
  match op with
  | .rotate nodeId body =>
      ((w.store.nodes.find? nodeId).filter (·.fingerprint = body.fingerprint)).map
        (·, body.newFingerprint)
  | .rotateCommand nodeId choice new tokenBytes =>
      (selectedNode nodeId choice w).map (·, generatedFingerprint new tokenBytes)
  | _ => none

/-- The fingerprint that a rotation gives to a node that is not revoked
belongs to another such node. -/
def Collides (op : RegistryOp) (w : World) : Prop :=
  ∃ r ∈ op.rotation w, r.1.Live
    ∧ ∃ other ∈ w.store.nodes.rows, other.Live ∧ other.fingerprint = r.2 ∧ other.nodeId ≠ r.1.nodeId

end RegistryOp

/-- No rotation of the sequence gives a node another one's fingerprint. -/
def RotatesFree (env : Env) : World → List RegistryOp → Prop
  | _, [] => True
  | w, op :: ops => ¬ op.Collides w ∧ RotatesFree env (op.after env w) ops

/-! ## §3. What the operations write. -/

section

variable {env : Env} {w : World}

/-- A join that is not refused found no live node with its fingerprint. -/
theorem not_duplicate {request : JoinRequest} (h : findDuplicateJoinNode (listedNodes w) request = none)
    {node : Node} (hnode : node ∈ w.store.nodes.rows) (hlive : node.Live) :
    node.fingerprint ≠ request.fingerprint := by
  have hcheck := List.find?_eq_none.mp h node (mem_listedNodes.mpr hnode)
  intro hf
  exact hcheck (by simp [hf, show node.status ≠ .revoked from hlive])

theorem registeredNode_fingerprint (uuid : String) (request : JoinRequest) (consumed : JoinToken) :
    (registeredNode uuid request consumed).fingerprint = request.fingerprint := by
  unfold registeredNode
  split <;> rfl

theorem consumeToken_calls (value fingerprint : String) :
    (consumeToken value fingerprint).Calls fun op : Call => op.writesNodes = false := by
  unfold consumeToken
  refine calls_call_bind.mpr ⟨rfl, fun token => ?_⟩
  cases token with
  | none => exact Prog.calls_ret
  | some token =>
    refine calls_call_bind.mpr ⟨rfl, fun now => ?_⟩
    split_ifs
    · exact calls_call_bind.mpr ⟨rfl, fun _ => Prog.calls_ret⟩
    · exact Prog.calls_ret
    · exact calls_call_bind.mpr ⟨rfl, fun _ => Prog.calls_ret⟩

theorem joinRefused_calls (request : JoinRequest) :
    (joinRefused request).Calls fun op : Call => op.writesNodes = false := by
  unfold joinRefused
  refine calls_call_bind.mpr ⟨rfl, fun token => ?_⟩
  cases token <;> exact Prog.calls_raise

theorem consumeAndRegister_nodes (env : Env) (request : JoinRequest) (w : World) :
    ((consumeAndRegister request).run (exec env) w).2.store.nodes = w.store.nodes
    ∨ ∃ uuid consumed, ((consumeAndRegister request).run (exec env) w).2.store.nodes
        = w.store.nodes.upsert (registeredNode uuid request consumed) := by
  have hkeep := @run_nodes env _ _ (consumeToken_calls request.token request.fingerprint) w
  unfold consumeAndRegister
  rw [Prog.run_bind]
  generalize (consumeToken request.token request.fingerprint).run (exec env) w = r at hkeep
  obtain ⟨r, w'⟩ := r
  rw [← hkeep]
  match r with
  | .error e => exact Or.inl rfl
  | .ok none => exact Or.inl (run_nodes (joinRefused_calls request) w')
  | .ok (some consumed) => exact Or.inr ⟨_, consumed, (registerJoin_run env request w' consumed).2.1⟩

/-- **A join leaves the nodes as they are, or it writes one row** and no live
node had its fingerprint. -/
theorem join_nodes (env : Env) (request : JoinRequest) (w : World) :
    ((join request).run (exec env) w).2.store.nodes = w.store.nodes
    ∨ ∃ uuid consumed, findDuplicateJoinNode (listedNodes w) request = none
      ∧ ((join request).run (exec env) w).2.store.nodes
          = w.store.nodes.upsert (registeredNode uuid request consumed) := by
  unfold join
  rw [run_call_bind]
  cases (exec env (.loadToken request.token) w).1 with
  | none => exact Or.inl rfl
  | some token =>
    show ((joinListed request (listedNodes w)).run (exec env) w).2.store.nodes = w.store.nodes
      ∨ ∃ uuid consumed, _
        ∧ ((joinListed request (listedNodes w)).run (exec env) w).2.store.nodes = _
    unfold joinListed
    cases hdup : findDuplicateJoinNode (listedNodes w) request with
    | some duplicate => exact Or.inl rfl
    | none =>
      rcases consumeAndRegister_nodes env request w with h | ⟨uuid, consumed, h⟩
      · exact Or.inl h
      · exact Or.inr ⟨uuid, consumed, rfl, h⟩

theorem confirmNodeById_nodes (env : Env) (nodeId : String) (bundle : List String) (w : World) :
    ((confirmNodeById nodeId bundle).run (exec env) w).2.store.nodes = w.store.nodes
    ∨ ∃ node ∈ w.store.nodes.rows, node.Live
      ∧ ((confirmNodeById nodeId bundle).run (exec env) w).2.store.nodes
          = w.store.nodes.upsert { node with status := .managed, permissionBundles := bundle } := by
  unfold confirmNodeById
  rw [run_call_bind]
  cases hnode : w.store.nodes.find? nodeId with
  | none =>
    simp only [exec, hnode]
    exact Or.inl rfl
  | some node =>
    simp only [exec, hnode, confirmed]
    by_cases hrevoked : node.status = .revoked
    · rw [if_pos hrevoked]
      exact Or.inl rfl
    · rw [if_neg hrevoked]
      exact Or.inr ⟨node, Table.mem_of_find? hnode, hrevoked, rfl⟩

/-- **A confirmation leaves the nodes as they are, or it rewrites a live
one** under its fingerprint. -/
theorem confirmNode_nodes (env : Env) (nodeId : Option String) (choice : Int)
    (bundle : List String) (w : World) :
    ((confirmNode nodeId choice bundle).run (exec env) w).2.store.nodes = w.store.nodes
    ∨ ∃ node ∈ w.store.nodes.rows, node.Live
      ∧ ((confirmNode nodeId choice bundle).run (exec env) w).2.store.nodes
          = w.store.nodes.upsert { node with status := .managed, permissionBundles := bundle } := by
  unfold confirmNode
  cases nodeId with
  | some nodeId => exact confirmNodeById_nodes env nodeId bundle w
  | none =>
    show ((selectPendingNode choice >>= fun id => confirmNodeById id bundle).run _ w).2.store.nodes = _
      ∨ ∃ node ∈ w.store.nodes.rows, node.Live
        ∧ ((selectPendingNode choice >>= fun id => confirmNodeById id bundle).run _ w).2.store.nodes = _
    unfold selectPendingNode
    rw [bind_assoc, run_call_bind]
    simp only [exec]
    cases selectFrom _ choice with
    | none => exact Or.inl rfl
    | some node => exact confirmNodeById_nodes env node.nodeId bundle w

theorem revokeNode_nodes (env : Env) (nodeId : String) (w : World) :
    ((revokeNode nodeId).run (exec env) w).2.store.nodes = w.store.nodes
    ∨ ∃ node, ((revokeNode nodeId).run (exec env) w).2.store.nodes
        = w.store.nodes.upsert (revoked node) := by
  unfold revokeNode
  rw [run_call_bind]
  cases hnode : w.store.nodes.find? nodeId with
  | none =>
    simp only [exec, hnode]
    exact Or.inl rfl
  | some node =>
    simp only [exec, hnode]
    exact Or.inr ⟨node, rfl⟩

/-- What a rotation in the store does to a node it finds. -/
theorem rotateNodeFingerprint_run (env : Env) {nodeId : String} {current : Option String}
    {new : String} {node : Node} (hnode : w.store.nodes.find? nodeId = some node)
    (hcurrent : current.any (· ≠ node.fingerprint) = false) :
    ((rotateNodeFingerprint nodeId current new).run (exec env) w).1
        = .ok (some (withFingerprint new node))
    ∧ ((rotateNodeFingerprint nodeId current new).run (exec env) w).2.store.nodes
        = w.store.nodes.upsert (withFingerprint new node) := by
  unfold rotateNodeFingerprint
  rw [run_call_bind]
  simp only [exec, hnode, hcurrent, Bool.false_eq_true, if_false]
  exact ⟨rfl, rfl⟩

/-- A rotation through the endpoint that the fingerprint of the request
permits. -/
theorem rotateFingerprint_nodes (env : Env) {nodeId : String} {body : RotateFingerprintRequest}
    {node : Node} (hnode : w.store.nodes.find? nodeId = some node)
    (hf : node.fingerprint = body.fingerprint) :
    ((rotateFingerprint nodeId body).run (exec env) w).2.store.nodes
      = w.store.nodes.upsert (withFingerprint body.newFingerprint node) := by
  have hrun := @rotateNodeFingerprint_run _ env _ (some body.fingerprint)
    body.newFingerprint _ hnode (by simp [hf])
  unfold rotateFingerprint
  rw [run_call_bind]
  simp only [exec, hnode, hf, ne_eq, not_true_eq_false, if_false]
  rw [Prog.run_bind]
  generalize (rotateNodeFingerprint nodeId (some body.fingerprint) body.newFingerprint).run
    (exec env) w = r at hrun
  obtain ⟨r, w'⟩ := r
  obtain ⟨rfl, hnodes⟩ := hrun
  exact hnodes

/-- The node that is selected is a row of the table. -/
theorem selectedNode_mem {nodeId : Option String} {choice : Int} {node : Node}
    (h : selectedNode nodeId choice w = some node) : node ∈ w.store.nodes.rows := by
  cases nodeId with
  | some nodeId => exact Table.mem_of_find? h
  | none => exact mem_listedNodes.mp (List.mem_filter.mp (mem_of_selectFrom h)).1

/-- A rotation on the command line. -/
theorem rotateFingerprintCommand_nodes (env : Env) (nodeId : Option String) (choice : Int)
    (new : Option String) (tokenBytes : List Nat) (w : World) :
    ((rotateFingerprintCommand nodeId choice new tokenBytes).run (exec env) w).2.store.nodes
      = match selectedNode nodeId choice w with
        | none => w.store.nodes
        | some node =>
          w.store.nodes.upsert (withFingerprint (generatedFingerprint new tokenBytes) node) := by
  -- Selecting a node writes nothing.
  have hselect : (selectManagedNode nodeId choice).run (exec env) w
      = (match selectedNode nodeId choice w with
          | none => .error (.typerExit 1)
          | some node => .ok node, w) := by
    unfold selectManagedNode selectedNode
    cases nodeId with
    | some nodeId =>
      show ((call (.loadNode nodeId) >>= _).run (exec env) w) = _
      rw [run_call_bind]
      simp only [exec]
      cases w.store.nodes.find? nodeId <;> rfl
    | none =>
      show ((call .listNodes >>= _).run (exec env) w) = _
      rw [run_call_bind]
      simp only [exec, listedNodes]
      cases selectFrom _ choice <;> rfl
  unfold rotateFingerprintCommand
  rw [Prog.run_bind, hselect]
  cases hnode : selectedNode nodeId choice w with
  | none => rfl
  | some node =>
    obtain ⟨hresult, hnodes⟩ := @rotateNodeFingerprint_run _ env _ none
      (generatedFingerprint new tokenBytes) _
      (Table.find?_of_mem (selectedNode_mem hnode)) rfl
    show (((rotateNodeFingerprint _ _ _ >>= _).run (exec env) w).2).store.nodes
      = w.store.nodes.upsert (withFingerprint (generatedFingerprint new tokenBytes) node)
    rw [← hnodes, Prog.run_bind]
    generalize (rotateNodeFingerprint _ _ _).run (exec env) w = r at hresult ⊢
    obtain ⟨r, w'⟩ := r
    obtain rfl : r = _ := hresult
    rfl

/-- **A rotation, through the endpoint or on the command line,** rewrites the
node it rotates or leaves the nodes as they are. -/
theorem rotation_nodes (env : Env) (op : RegistryOp) (w : World)
    (h : (∃ nodeId body, op = .rotate nodeId body)
      ∨ ∃ nodeId choice new bytes, op = .rotateCommand nodeId choice new bytes) :
    (op.rotation w = none ∧ (op.after env w).store.nodes = w.store.nodes)
    ∨ ∃ node new, op.rotation w = some (node, new) ∧ node ∈ w.store.nodes.rows
      ∧ (op.after env w).store.nodes = w.store.nodes.upsert (withFingerprint new node) := by
  rcases h with ⟨nodeId, body, rfl⟩ | ⟨nodeId, choice, new, bytes, rfl⟩
  · have hafter : (RegistryOp.after env (.rotate nodeId body) w)
        = ((rotateFingerprint nodeId body).run (exec env) w).2 := Prog.run_discard _ _ _
    rw [hafter]
    -- The endpoint rotates a known node whose fingerprint was given, and refuses otherwise.
    by_cases hfound : ∃ node, w.store.nodes.find? nodeId = some node
        ∧ node.fingerprint = body.fingerprint
    · obtain ⟨node, hnode, hf⟩ := hfound
      exact Or.inr ⟨node, body.newFingerprint, by simp [RegistryOp.rotation, hnode, hf],
        Table.mem_of_find? hnode, rotateFingerprint_nodes env hnode hf⟩
    · obtain ⟨e, he⟩ := rotateFingerprint_refuses env w nodeId body hfound
      refine Or.inl ⟨?_, by rw [he]⟩
      cases hnode : w.store.nodes.find? nodeId with
      | none => simp [RegistryOp.rotation, hnode]
      | some node =>
        have hf : node.fingerprint ≠ body.fingerprint := fun hf => hfound ⟨node, hnode, hf⟩
        simp [RegistryOp.rotation, hnode, hf]
  · have hafter := rotateFingerprintCommand_nodes env nodeId choice new bytes w
    cases hnode : selectedNode nodeId choice w with
    | none =>
      rw [hnode] at hafter
      exact Or.inl ⟨by simp [RegistryOp.rotation, hnode], hafter⟩
    | some node =>
      rw [hnode] at hafter
      exact Or.inr ⟨node, _, by simp [RegistryOp.rotation, hnode], selectedNode_mem hnode, hafter⟩

/-- No other live node has the fingerprint of this one. -/
def OwnFingerprint (w : World) (node : Node) : Prop :=
  node.Live → ∀ x ∈ w.store.nodes.rows, x.Live → x.fingerprint = node.fingerprint →
    x.nodeId = node.nodeId

/-- **What an operation does to the registry**: nothing, or it writes one row.
The row of a join, a confirmation or a revocation has a fingerprint of its
own; a rotation writes whatever fingerprint it is given. -/
theorem registry_cases (env : Env) (op : RegistryOp) {w : World} (h : UniqueFingerprints w) :
    (op.rotation w = none ∧ (op.after env w).store.nodes = w.store.nodes)
    ∨ (∃ node, op.rotation w = none ∧ OwnFingerprint w node
        ∧ (op.after env w).store.nodes = w.store.nodes.upsert node)
    ∨ ∃ node new, op.rotation w = some (node, new) ∧ node ∈ w.store.nodes.rows
        ∧ (op.after env w).store.nodes = w.store.nodes.upsert (withFingerprint new node) := by
  cases op with
  | join request =>
    have hafter : (RegistryOp.after env (.join request) w)
        = ((join request).run (exec env) w).2 := Prog.run_discard _ _ _
    rw [hafter]
    -- A join that registers has found no live node with the fingerprint it registers.
    rcases join_nodes env request w with hsame | ⟨uuid, consumed, hdup, hnodes⟩
    · exact Or.inl ⟨rfl, hsame⟩
    · refine Or.inr (Or.inl ⟨_, rfl, fun _ x hx hlive hf => ?_, hnodes⟩)
      rw [registeredNode_fingerprint] at hf
      exact absurd hf (not_duplicate hdup hx hlive)
  | confirm nodeId choice bundle =>
    rcases confirmNode_nodes env nodeId choice bundle w with hsame | ⟨node, hmem, hlive, hnodes⟩
    · exact Or.inl ⟨rfl, hsame⟩
    · have hown : OwnFingerprint w { node with status := .managed, permissionBundles := bundle } :=
        fun _ x hx hx' hf => h x hx node hmem hx' hlive hf
      exact Or.inr (Or.inl ⟨_, rfl, hown, hnodes⟩)
  | revoke nodeId =>
    rcases revokeNode_nodes env nodeId w with hsame | ⟨node, hnodes⟩
    · exact Or.inl ⟨rfl, hsame⟩
    · have hown : OwnFingerprint w (revoked node) := fun hlive => absurd rfl hlive
      exact Or.inr (Or.inl ⟨_, rfl, hown, hnodes⟩)
  | rotate nodeId body =>
    exact (rotation_nodes env _ w (Or.inl ⟨nodeId, body, rfl⟩)).imp id Or.inr
  | rotateCommand nodeId choice new bytes =>
    exact (rotation_nodes env _ w (Or.inr ⟨nodeId, choice, new, bytes, rfl⟩)).imp id Or.inr

end

/-! ## §4. Runs. -/

/-- **One operation** keeps the fingerprints apart exactly when it is no
rotation to the fingerprint of another live node. -/
theorem unique_after_iff (env : Env) (op : RegistryOp) {w : World} (h : UniqueFingerprints w) :
    UniqueFingerprints (op.after env w) ↔ ¬ op.Collides w := by
  unfold UniqueFingerprints RegistryOp.Collides
  rcases registry_cases env op h with ⟨hrotation, hnodes⟩ | ⟨node, hrotation, hown, hnodes⟩
    | ⟨node, new, hrotation, -, hnodes⟩
  · rw [hnodes, hrotation]
    exact iff_of_true h (by simp)
  · rw [hnodes, hrotation]
    exact iff_of_true ((Table.distinguishes_upsert h node).mpr hown) (by simp)
  · rw [hnodes, hrotation, Table.distinguishes_upsert h]
    constructor
    · rintro hfree ⟨_, ⟨⟩, hlive, other, hother, hlive', hf, hne⟩
      exact hne (hfree hlive other hother hlive' hf)
    · intro hfree hlive other hother hlive' hf
      by_contra hne
      exact hfree ⟨(node, new), rfl, hlive, other, hother, hlive', hf, hne⟩

/-- **Fingerprints stay apart in every state of a run** exactly when they are
at its start and no rotation takes the fingerprint of another live node. -/
theorem fingerprints_unique_iff (env : Env) (ops : List RegistryOp) (w : World) :
    (∀ w' ∈ registryStates env w ops, UniqueFingerprints w')
      ↔ UniqueFingerprints w ∧ RotatesFree env w ops := by
  induction ops generalizing w with
  | nil => simp [registryStates, RotatesFree]
  | cons op ops ih =>
    rw [registryStates, RotatesFree, List.forall_mem_cons, ih]
    constructor
    · rintro ⟨h, hafter, hrest⟩
      exact ⟨h, (unique_after_iff env op h).mp hafter, hrest⟩
    · rintro ⟨h, hfree, hrest⟩
      exact ⟨h, (unique_after_iff env op h).mpr hfree, hrest⟩

/-! ## §5. A rotation to a fingerprint in use. -/

/-- Two hosts join, and the second takes the fingerprint of the first. -/
def doublingOps : List RegistryOp := [
  .join (joinRequest "t1" "web-1"), .join (joinRequest "t2" "web-2"),
  .rotate "node_0000000000aa"
    { fingerprint := "fp-web-2", newFingerprint := "fp-web-1" }]

/-- **Two joins and a rotation** leave two managed nodes with one
fingerprint, although the registry was empty. -/
theorem rotation_doubles_fingerprint :
    UniqueFingerprints twoTokens
    ∧ ¬ ∀ w ∈ registryStates Env.quiet twoTokens doublingOps, UniqueFingerprints w := by
  decide +kernel

end Hmn
