/-
  Hmn.Nodes.Revocation — is a revoked node revoked for good?

  Revoking, confirming and rekeying a node, synchronising the nodes with the
  network provider and updating a node's tags all save a whole row that was
  loaded in an earlier transaction.  A copy that was loaded before a
  revocation brings the node back, a copy that was loaded before a rotation
  brings the old fingerprint back.

  Main results: `revocation_absorbing` — in every interleaving in which no
  save finds a node that was revoked since its copy was loaded, and no save
  of a synchronisation or a tag update finds another fingerprint than the one
  it loaded, a revoked node stays revoked and neither a synchronisation nor a
  tag update changes a fingerprint;
  `sync_undoes_revocation_and_rotation` — an interleaving in which a
  synchronisation undoes both.
-/
import Hmn.Network.Provider
import Hmn.Nodes.Nodes
import Hmn.Store.Frames

namespace Hmn

open Framework Py

/-! ## §1. The callers that save nodes. -/

/-- What a caller does to the nodes it saves. -/
inductive NodeActor where
  | revokes
  /-- A synchronisation or a tag update: it changes network fields only. -/
  | links
  | rotates
  | confirms
  deriving DecidableEq

/-- The callers. -/
inductive NodeCaller where
  | revoke (nodeId : String)
  | sync
  | setTags (approvalId : String)
  | rotate (nodeId : String) (currentFingerprint : Option String) (newFingerprint : String)
  | confirm (nodeId : Option String) (choice : Int) (bundle : List String)

def NodeCaller.actor : NodeCaller → NodeActor
  | .revoke _ => .revokes
  | .sync | .setTags _ => .links
  | .rotate .. => .rotates
  | .confirm .. => .confirms

/-- What a caller runs; its answer is left out. -/
def NodeCaller.program : NodeCaller → Py Unit
  | .revoke nodeId => revokeNode nodeId
  | .sync => do let _ ← syncNetworkNodes
  | .setTags approvalId => do let _ ← dispatchApprovedNetworkTagUpdate approvalId
  | .rotate nodeId current new => do let _ ← rotateNodeFingerprint nodeId current new
  | .confirm nodeId choice bundle => confirmNode nodeId choice bundle

/-- The status and the fingerprint of a node in a table. -/
def statusIn (nodeId : String) (nodes : Table Node.nodeId) : Option NodeStatus :=
  (nodes.find? nodeId).map Node.status

def fingerprintIn (nodeId : String) (nodes : Table Node.nodeId) : Option String :=
  (nodes.find? nodeId).map Node.fingerprint

/-! ## §2. What a run remembers. -/

/-- The nodes as every caller last read them, and the nodes for which the
save of a revocation was committed. -/
structure NodeLog (ι : Type) where
  seen : ι → Table Node.nodeId
  revoked : List String

/-- Remember what a call read or revoked. -/
def watchNodes {ι : Type} [DecidableEq ι] (actor : ι → NodeActor) (g : NodeLog ι) (i : ι)
    (w : World) : Call → NodeLog ι
  | .loadNode _ | .listNodes => { g with seen := Function.update g.seen i w.store.nodes }
  | .saveNode n => if actor i = .revokes then { g with revoked := n.nodeId :: g.revoked } else g
  | _ => g

/-- The condition on a run.  A save, other than a revocation's, does not
find the node revoked unless it already was when the caller read it; the
save of a synchronisation or a tag update finds the fingerprint the caller
read. -/
def SavesFresh {ι : Type} (actor : ι → NodeActor) (g : NodeLog ι) (i : ι) (w : World) :
    Call → Prop
  | .saveNode n =>
      (actor i ≠ .revokes → statusIn n.nodeId w.store.nodes = some .revoked →
        statusIn n.nodeId (g.seen i) = some .revoked)
      ∧ (actor i = .links →
        fingerprintIn n.nodeId w.store.nodes = fingerprintIn n.nodeId (g.seen i))
  | _ => True

instance {ι : Type} (actor : ι → NodeActor) (g : NodeLog ι) (i : ι) (w : World) (op : Call) :
    Decidable (SavesFresh actor g i w op) := by
  apply Call.casesOn (motive := fun op => Decidable (SavesFresh actor g i w op)) op <;>
    intros <;> dsimp only [SavesFresh] <;> infer_instance

/-! ## §3. What a caller may save. -/

/-- How a saved row differs from the row it is a copy of. -/
def NodeActor.saves : NodeActor → Node → Node → Prop
  | .revokes, _, n => n.status = .revoked
  | .links, row, n => n.status = row.status ∧ n.fingerprint = row.fingerprint
  | .rotates, row, n => n.status = row.status
  | .confirms, row, _ => row.status ≠ .revoked

/-- A caller saves changed copies of the rows it read last. -/
def mayNode (m : NodeActor × List Node) : Call → Prop
  | .saveNode n => ∃ row ∈ m.2, row.nodeId = n.nodeId ∧ m.1.saves row n
  | _ => True

/-- The rows a call reads. -/
def readRows (rows : List Node) : (op : Call) → Call.Res op → List Node
  | .loadNode _, r => r.toList
  | .listNodes, r => r
  | _, _ => rows

/-- The discipline of the callers: what they do to nodes and what they read
last. -/
abbrev nodeTypestate : Typestate callSig where
  Mode := NodeActor × List Node
  may := mayNode
  after m op r := (m.1, readRows m.2 op r)
  sees _ _ := True

section Obeys

variable {α β : Type} {m : NodeActor × List Node}

/-- A caller that keeps the discipline to its end. -/
def KeepsRows (m : NodeActor × List Node) (p : Py α) : Prop :=
  p.wp nodeTypestate (fun _ _ => True) (fun _ _ => True) m

theorem keepsRows_ret (a : α) : KeepsRows m (.ret a : Py α) := Prog.wp_ret.mpr trivial

theorem keepsRows_raise (e : PyError) : KeepsRows m (.raise e : Py α) := Prog.wp_raise.mpr trivial

/-- A caller that makes one call and goes on. -/
theorem keepsRows_call {op : Call} {f : Call.Res op → Py α} (hop : mayNode m op)
    (hf : ∀ r, KeepsRows (m.1, readRows m.2 op r) (f r)) : KeepsRows m (call op >>= f) := by
  unfold KeepsRows
  rw [call_bind, Prog.wp_call]
  exact ⟨hop, fun r _ => hf r⟩

theorem keepsRows_orRaise {r : Except PyError α} {f : α → Py β} (hf : ∀ a, KeepsRows m (f a)) :
    KeepsRows m (orRaise r >>= f) := by
  cases r with
  | ok a => exact hf a
  | error e => exact keepsRows_raise e

theorem keepsRows_discard {p : Py α} (h : KeepsRows m p) :
    KeepsRows m (do let _ ← p : Py Unit) :=
  Prog.wp_bind _ _ _ (Prog.wp_mono (fun _ _ _ => Prog.wp_ret.mpr trivial) (fun _ _ h => h) _ _ h)

theorem revokeNode_keepsRows (nodeId : String) (rows : List Node) :
    KeepsRows (.revokes, rows) (revokeNode nodeId) := by
  unfold revokeNode
  refine keepsRows_call (by trivial) (fun r => ?_)
  cases r with
  | none => exact keepsRows_raise _
  | some node =>
    refine keepsRows_call ?_ (fun _ => keepsRows_call (by trivial) (fun _ => keepsRows_ret _))
    exact ⟨node, by simp [readRows], rfl, rfl⟩

theorem requireNetworkProvider_keepsRows {f : String → Py α} (hf : ∀ name, KeepsRows m (f name)) :
    KeepsRows m (requireNetworkProvider >>= f) := by
  unfold requireNetworkProvider
  rw [bind_assoc]
  refine keepsRows_call (by trivial) (fun r => ?_)
  rw [bind_assoc]
  refine keepsRows_orRaise (fun name => ?_)
  cases name with
  | none => exact keepsRows_raise _
  | some name => exact hf name

/-- The loop of a synchronisation saves copies of listed nodes. -/
theorem syncLoop_keepsRows (provider : String) (nodes : List Node) {f : NetworkSyncResult → Py α}
    (hf : ∀ result, KeepsRows (.links, nodes) (f result)) (records : List NetworkNodeRecord) :
    ∀ matched result, KeepsRows (.links, nodes)
      (syncLoop provider nodes records matched result >>= f) := by
  induction records with
  | nil => exact fun _ result => hf result
  | cons networkNode rest ih =>
    intro matched result
    unfold syncLoop
    cases htarget : nodes.find?
        (fun n => n.nodeId ∉ matched && networkNodeMatchesHmn networkNode n) with
    | none => exact ih _ _
    | some target =>
      simp only
      split_ifs
      · rw [bind_assoc]
        refine keepsRows_call ?_ (fun _ => ih _ _)
        exact ⟨target, List.mem_of_find?_eq_some htarget, rfl, rfl, rfl⟩
      · exact ih _ _

theorem syncNetworkNodes_keepsRows (rows : List Node) :
    KeepsRows (.links, rows) syncNetworkNodes := by
  unfold syncNetworkNodes
  refine requireNetworkProvider_keepsRows (fun provider => ?_)
  refine keepsRows_call (by trivial) (fun r => keepsRows_orRaise (fun networkNodes => ?_))
  refine keepsRows_call (by trivial) (fun nodes => ?_)
  refine syncLoop_keepsRows provider nodes (fun result => ?_) networkNodes _ _
  exact keepsRows_call (by trivial) (fun _ => keepsRows_ret _)

theorem updateTags_keepsRows (approval : ApprovalRequest) (nodeId providerNodeId : String)
    (tags : List String) (node : Node) :
    KeepsRows (.links, [node]) (updateTags approval nodeId providerNodeId tags node) := by
  unfold updateTags
  refine requireNetworkProvider_keepsRows (fun provider => keepsRows_call (by trivial) (fun r => ?_))
  cases r with
  | error e =>
    cases e with
    | networkProvider m => exact keepsRows_call (by trivial) (fun _ => keepsRows_raise _)
    | _ => exact keepsRows_raise _
  | ok u =>
    refine keepsRows_call ?_ (fun _ => keepsRows_call (by trivial) (fun _ => keepsRows_ret _))
    exact ⟨node, by simp [readRows], rfl, rfl, rfl⟩

theorem dispatchTags_keepsRows (approval : ApprovalRequest) (rows : List Node) :
    KeepsRows (.links, rows) (dispatchTags approval) := by
  unfold dispatchTags
  refine keepsRows_orRaise (fun tags => ?_)
  split_ifs
  · exact keepsRows_ret _
  · refine keepsRows_call (by trivial) (fun r => ?_)
    cases r with
    | none => exact keepsRows_ret _
    | some node =>
      simp only
      split_ifs
      · exact keepsRows_ret _
      · exact updateTags_keepsRows _ _ _ _ node

theorem dispatchApprovedNetworkTagUpdate_keepsRows (approvalId : String) (rows : List Node) :
    KeepsRows (.links, rows) (dispatchApprovedNetworkTagUpdate approvalId) := by
  unfold dispatchApprovedNetworkTagUpdate
  refine keepsRows_call (by trivial) (fun r => ?_)
  cases r with
  | none => exact keepsRows_ret _
  | some approval =>
    simp only
    split_ifs
    · exact keepsRows_ret _
    · exact dispatchTags_keepsRows approval _
    · exact keepsRows_ret _

theorem rotateNodeFingerprint_keepsRows (nodeId : String) (current : Option String)
    (new : String) (rows : List Node) :
    KeepsRows (.rotates, rows) (rotateNodeFingerprint nodeId current new) := by
  unfold rotateNodeFingerprint
  refine keepsRows_call (by trivial) (fun r => ?_)
  cases r with
  | none => exact keepsRows_ret _
  | some node =>
    simp only
    split_ifs
    · exact keepsRows_ret _
    · refine keepsRows_call ?_ (fun _ => keepsRows_call (by trivial) (fun _ => keepsRows_ret _))
      exact ⟨node, by simp [readRows], rfl, rfl⟩

theorem confirmNodeById_keepsRows (nodeId : String) (bundle : List String) (rows : List Node) :
    KeepsRows (.confirms, rows) (confirmNodeById nodeId bundle) := by
  unfold confirmNodeById
  refine keepsRows_call (by trivial) (fun r => ?_)
  cases r with
  | none => exact keepsRows_raise _
  | some node =>
    simp only
    by_cases hrevoked : node.status = .revoked
    · simp only [confirmed, hrevoked, if_true]
      exact keepsRows_raise _
    · simp only [confirmed, hrevoked, if_false]
      refine keepsRows_call ?_ (fun _ => keepsRows_call (by trivial) (fun _ => keepsRows_ret _))
      exact ⟨node, by simp [readRows], rfl, hrevoked⟩

/-- **Every caller keeps the discipline.** -/
theorem nodeCaller_keepsRows (caller : NodeCaller) (rows : List Node) :
    KeepsRows (caller.actor, rows) caller.program := by
  cases caller with
  | revoke nodeId => exact revokeNode_keepsRows nodeId rows
  | sync => exact keepsRows_discard (syncNetworkNodes_keepsRows rows)
  | setTags approvalId =>
    exact keepsRows_discard (dispatchApprovedNetworkTagUpdate_keepsRows approvalId rows)
  | rotate nodeId current new =>
    exact keepsRows_discard (rotateNodeFingerprint_keepsRows nodeId current new rows)
  | confirm nodeId choice bundle =>
    cases nodeId with
    | some nodeId => exact confirmNodeById_keepsRows nodeId bundle rows
    | none =>
      show KeepsRows _ (do confirmNodeById (← selectPendingNode choice) bundle)
      unfold selectPendingNode
      rw [bind_assoc]
      refine keepsRows_call (by trivial) (fun nodes => ?_)
      cases selectFrom (nodes.filter (·.status = .pending)) choice with
      | none => exact keepsRows_raise _
      | some node => exact confirmNodeById_keepsRows node.nodeId bundle _

end Obeys

/-! ## §4. One call. -/

section Step

variable {env : Env} {w : World}

theorem statusIn_save (nodeId : String) (n : Node) :
    statusIn nodeId (exec env (.saveNode n) w).2.store.nodes
      = if n.nodeId = nodeId then some n.status else statusIn nodeId w.store.nodes := by
  simp only [statusIn, exec, World.after_store, Table.find?_upsert]
  split_ifs <;> rfl

theorem fingerprintIn_save (nodeId : String) (n : Node) :
    fingerprintIn nodeId (exec env (.saveNode n) w).2.store.nodes
      = if n.nodeId = nodeId then some n.fingerprint else fingerprintIn nodeId w.store.nodes := by
  simp only [fingerprintIn, exec, World.after_store, Table.find?_upsert]
  split_ifs <;> rfl

variable {ι : Type} {actor : ι → NodeActor} {g : NodeLog ι} {m : ι → NodeActor × List Node} {i : ι}
  {op : Call}

/-- The rows a caller holds are those it read last, and every node whose
revocation was committed is revoked. -/
structure Watched (actor : ι → NodeActor) (w : World) (m : ι → NodeActor × List Node)
    (g : NodeLog ι) : Prop where
  acts : ∀ i, (m i).1 = actor i
  read : ∀ i, ∀ row ∈ (m i).2, (g.seen i).find? row.nodeId = some row
  stays : ∀ nodeId ∈ g.revoked, statusIn nodeId w.store.nodes = some .revoked

/-- The row a save is a copy of, as the caller read it. -/
theorem Watched.saved_row (h : Watched actor w m g) {n : Node} (hop : mayNode (m i) (.saveNode n)) :
    ∃ row, (g.seen i).find? n.nodeId = some row ∧ (actor i).saves row n := by
  obtain ⟨row, hrow, hid, hsaves⟩ := hop
  exact ⟨row, hid ▸ h.read i row hrow, h.acts i ▸ hsaves⟩

/-- **A synchronisation or a tag update keeps every fingerprint.** -/
theorem Watched.fingerprint (h : Watched actor w m g) (hlinks : actor i = .links)
    (hop : mayNode (m i) op) (hP : SavesFresh actor g i w op) (nodeId : String) :
    fingerprintIn nodeId (exec env op w).2.store.nodes = fingerprintIn nodeId w.store.nodes := by
  cases hw : op.writesNodes with
  | false => rw [exec_nodes hw]
  | true =>
    cases op with
    | saveNode n =>
      obtain ⟨row, hrow, hsaves⟩ := h.saved_row hop
      rw [fingerprintIn_save]
      split_ifs with hid
      · subst hid
        rw [hlinks] at hsaves
        rw [hP.2 hlinks, fingerprintIn, hrow, Option.map_some, hsaves.2]
      · rfl
    | _ => simp [Call.writesNodes] at hw

variable [DecidableEq ι]

/-- **A save keeps revoked nodes revoked**: a copy of a row that was not
revoked does not find a revoked one. -/
theorem Watched.saveNode (h : Watched actor w m g) {n : Node}
    (hop : mayNode (m i) (.saveNode n)) (hP : SavesFresh actor g i w (.saveNode n)) :
    ∀ nodeId ∈ (watchNodes actor g i w (.saveNode n)).revoked,
      statusIn nodeId (exec env (.saveNode n) w).2.store.nodes = some .revoked := by
  obtain ⟨row, hrow, hsaves⟩ := h.saved_row hop
  intro nodeId hmem
  rw [statusIn_save]
  by_cases hrevokes : actor i = .revokes
  · have hstatus : n.status = .revoked := by simpa [hrevokes, NodeActor.saves] using hsaves
    simp only [watchNodes, hrevokes, if_true, List.mem_cons] at hmem
    split_ifs with hid
    · rw [hstatus]
    · exact h.stays nodeId (hmem.resolve_left (Ne.symm hid))
  · simp only [watchNodes, hrevokes, if_false] at hmem
    have hstays := h.stays nodeId hmem
    split_ifs with hid
    · subst hid
      -- the caller read the row when it was already revoked
      have hread : row.status = .revoked := by
        simpa [statusIn, hrow] using hP.1 hrevokes hstays
      cases hactor : actor i with
      | revokes => exact absurd hactor hrevokes
      | links => rw [hactor] at hsaves; rw [hsaves.1, hread]
      | rotates => rw [hactor] at hsaves; rw [show n.status = row.status from hsaves, hread]
      | confirms => rw [hactor] at hsaves; exact absurd hread hsaves
    · exact hstays

/-- What the caller of a call reads and what the run remembers of it agree. -/
theorem Watched.read_step (h : Watched actor w m g) (rows : List Node)
    (hrows : ∀ row ∈ rows, w.store.nodes.find? row.nodeId = some row) :
    ∀ j, ∀ row ∈ (Function.update m i ((m i).1, rows) j).2,
      (Function.update g.seen i w.store.nodes j).find? row.nodeId = some row := by
  intro j row hrow
  by_cases hj : j = i
  · subst hj
    simp only [Function.update_self] at hrow ⊢
    exact hrows row hrow
  · simp only [Function.update_of_ne hj] at hrow ⊢
    exact h.read j row hrow

theorem Watched.step (h : Watched actor w m g) (hop : mayNode (m i) op)
    (hP : SavesFresh actor g i w op) :
    Watched actor (exec env op w).2
      (Function.update m i ((m i).1, readRows (m i).2 op (exec env op w).1))
      (watchNodes actor g i w op) := by
  have hacts : ∀ rows j, (Function.update m i ((m i).1, rows) j).1 = actor j := by
    intro rows j
    by_cases hj : j = i
    · subst hj
      simpa using h.acts j
    · simpa [Function.update_of_ne hj] using h.acts j
  have hkeep : Function.update m i ((m i).1, (m i).2) = m := Function.update_eq_self i m
  cases op with
  | loadNode id =>
    refine ⟨hacts _, h.read_step _ (fun row hrow => ?_), h.stays⟩
    exact Table.find?_of_mem (Table.mem_of_find? (by simpa [readRows, exec] using hrow))
  | listNodes =>
    refine ⟨hacts _, h.read_step _ (fun row hrow => ?_), h.stays⟩
    exact Table.find?_of_mem ((List.perm_insertionSort _ _).mem_iff.mp hrow)
  | saveNode n =>
    refine ⟨hacts _, ?_, h.saveNode hop hP⟩
    have hseen : (watchNodes actor g i w (.saveNode n)).seen = g.seen := by
      unfold watchNodes
      split_ifs <;> rfl
    rw [hseen]
    simpa only [readRows, hkeep] using h.read
  | _ =>
    refine ⟨hacts _, ?_, ?_⟩
    · simp only [readRows, hkeep]
      exact h.read
    · intro nodeId hmem
      rw [statusIn, exec_nodes rfl]
      exact h.stays nodeId hmem

end Step

/-! ## §5. Every interleaving. -/

section Run

variable {ι : Type} [DecidableEq ι] {env : Env}

/-- The callers of a run. -/
def nodeCallers (callers : ι → NodeCaller) (w : World) : Config ι callSig PyError Unit World :=
  ⟨w, fun i => (callers i).program⟩

/-- What a run remembers before its first call. -/
def NodeLog.start (w : World) : NodeLog ι := ⟨fun _ => w.store.nodes, []⟩

/-- What a run remembers of the calls of its callers. -/
def nodeLog (env : Env) (callers : ι → NodeCaller) (w : World) (sched : List ι) : NodeLog ι :=
  (nodeCallers callers w).history (exec env) (watchNodes fun i => (callers i).actor)
    (NodeLog.start w) sched

/-- Every save of a run finds what its caller read. -/
def RunsFresh (env : Env) (callers : ι → NodeCaller) (w : World) (sched : List ι) : Prop :=
  (nodeCallers callers w).Heeds (exec env) (watchNodes fun i => (callers i).actor)
    (SavesFresh fun i => (callers i).actor) (NodeLog.start w) sched

instance (env : Env) (callers : ι → NodeCaller) (w : World) (sched : List ι) :
    Decidable (RunsFresh env callers w sched) := by
  unfold RunsFresh
  infer_instance

/-- After a fresh run every caller still keeps the discipline. -/
theorem watched_run (callers : ι → NodeCaller) (w : World) (sched : List ι)
    (hfresh : RunsFresh env callers w sched) :
    Config.Governed nodeTypestate (fun _ => True) (fun _ => True)
      (Watched fun i => (callers i).actor) ((nodeCallers callers w).run (exec env) sched)
      (nodeLog env callers w sched) := by
  refine Config.heeds_typestate nodeTypestate (Watched fun i => (callers i).actor)
    (fun w m g i op h hop hP => ⟨trivial, h.step hop hP⟩) sched (nodeCallers callers w)
    (NodeLog.start w) ⟨fun i => ((callers i).actor, []), ?_, ?_⟩ hfresh
  · exact ⟨fun _ => rfl, fun _ _ h => absurd h (List.not_mem_nil), fun _ h => absurd h (List.not_mem_nil)⟩
  · exact fun i => nodeCaller_keepsRows (callers i) []

/-- **Revocation is absorbing.**  In every interleaving of revocations,
synchronisations, tag updates, rotations and confirmations in which every
save finds what its caller read, a node whose revocation was committed is
revoked in every later state, and no step of a synchronisation or of a tag
update changes a stored fingerprint. -/
theorem revocation_absorbing (env : Env) (callers : ι → NodeCaller) (w : World) (sched : List ι)
    (hfresh : RunsFresh env callers w sched) (nodeId : String) :
    (nodeId ∈ (nodeLog env callers w sched).revoked →
      statusIn nodeId ((nodeCallers callers w).run (exec env) sched).shared.store.nodes
        = some .revoked)
    ∧ ∀ pre i post, sched = pre ++ i :: post → (callers i).actor = .links →
        fingerprintIn nodeId ((nodeCallers callers w).run (exec env) (pre ++ [i])).shared.store.nodes
          = fingerprintIn nodeId ((nodeCallers callers w).run (exec env) pre).shared.store.nodes := by
  constructor
  · obtain ⟨m, hw, -⟩ := watched_run callers w sched hfresh
    exact hw.stays nodeId
  · rintro pre i post rfl hlinks
    obtain ⟨hpre, hpost⟩ := (Config.heeds_append _ _ pre (i :: post)).mp hfresh
    obtain ⟨m, hw, hobey⟩ := watched_run callers w pre hpre
    rw [Config.run_append]
    have hi := hobey i
    show fingerprintIn nodeId (Config.step (exec env) _ i).shared.store.nodes = _
    cases hp : ((nodeCallers callers w).run (exec env) pre).callers i with
    | ret a => rw [Config.step_of_next?_none (by rw [hp]; rfl)]
    | raise e => rw [Config.step_of_next?_none (by rw [hp]; rfl)]
    | call op k =>
      rw [hp, Prog.wp_call] at hi
      rw [Config.step_of_call hp]
      exact hw.fingerprint hlinks hi.1 (hpost.1 op (by rw [hp]; rfl)) nodeId

end Run

/-! ## §6. The race. -/

/-- A managed node that the provider knows under its hostname. -/
def staleNode : Node where
  nodeId := "node_000000000001"
  fingerprint := "fp"
  hostname := "web-1"
  addresses := []
  trustLevel := "B"
  labels := []
  status := .managed

/-- The store with that node. -/
def nodeWorld : World where
  store := { Store.empty with nodes := .single staleNode }
  files _ := .missing

/-- A quiet outside world whose provider lists that node. -/
def Env.linked : Env :=
  { Env.quiet with
    provider := fun _ => .ok (some "headscale")
    listNodes := fun _ => .ok [{ providerNodeId := "7", hostname := "web-1", ip := "100.64.0.7" }] }

/-- A synchronisation, a revocation and a rotation. -/
def raceNodeCallers (i : Fin 3) : NodeCaller :=
  match i with
  | 0 => .sync
  | 1 => .revoke "node_000000000001"
  | 2 => .rotate "node_000000000001" none "fp-new"

/-- A revocation, and then a rotation and a synchronisation that both read
the revoked node. -/
theorem revocation_absorbing_in_turn :
    statusIn "node_000000000001" ((nodeCallers raceNodeCallers nodeWorld).run (exec Env.linked)
        [1, 1, 2, 2, 0, 0, 0, 0]).shared.store.nodes = some .revoked
    ∧ fingerprintIn "node_000000000001" ((nodeCallers raceNodeCallers nodeWorld).run
        (exec Env.linked) ([1, 1, 2, 2, 0, 0, 0] ++ [0])).shared.store.nodes
      = fingerprintIn "node_000000000001" ((nodeCallers raceNodeCallers nodeWorld).run
        (exec Env.linked) [1, 1, 2, 2, 0, 0, 0]).shared.store.nodes := by
  have h := revocation_absorbing Env.linked raceNodeCallers nodeWorld [1, 1, 2, 2, 0, 0, 0, 0]
    (by decide +kernel) "node_000000000001"
  exact ⟨h.1 (by decide +kernel), h.2 [1, 1, 2, 2, 0, 0, 0] 0 [] rfl rfl⟩

/-- **A synchronisation undoes a revocation and a rotation.**  It lists the
nodes, the node is revoked (or its fingerprint rotated), and it saves its
copy: the node is managed again, or has its old fingerprint back. -/
theorem sync_undoes_revocation_and_rotation :
    ("node_000000000001" ∈ (nodeLog Env.linked raceNodeCallers nodeWorld
        [0, 0, 0, 1, 1, 0]).revoked
      ∧ statusIn "node_000000000001" ((nodeCallers raceNodeCallers nodeWorld).run
          (exec Env.linked) [0, 0, 0, 1, 1]).shared.store.nodes = some .revoked
      ∧ statusIn "node_000000000001" ((nodeCallers raceNodeCallers nodeWorld).run
          (exec Env.linked) [0, 0, 0, 1, 1, 0]).shared.store.nodes = some .managed)
    ∧ (fingerprintIn "node_000000000001" ((nodeCallers raceNodeCallers nodeWorld).run
          (exec Env.linked) [0, 0, 0, 2, 2]).shared.store.nodes = some "fp-new"
      ∧ fingerprintIn "node_000000000001" ((nodeCallers raceNodeCallers nodeWorld).run
          (exec Env.linked) [0, 0, 0, 2, 2, 0]).shared.store.nodes = some "fp") := by
  decide +kernel

end Hmn
