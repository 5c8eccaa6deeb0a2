/-
  Hmn.Network.SyncRuns — what synchronising with the network provider makes
  of the stored nodes.

  A synchronisation gives the stored nodes out to the nodes of the provider
  and writes into each what its node says of it.  Nodes that no node of the
  provider takes stay as they are, with the flag `network_online` of an
  earlier time.

  Main results: `network_sync_join` and, over sequences of synchronisations,
  `no_stale_online_iff`.
-/
import Hmn.Framework.Greedy
import Hmn.Network.Specs

namespace Hmn

open Framework Py

/-! ## §1. The loop over the provider's nodes. -/

/-- The stored nodes in the order in which they are listed. -/
def Store.nodesListed (s : Store) : List Node :=
  s.nodes.rows.insertionSort fun a b => a.hostname ≤ b.hostname

/-- The stored nodes given out to the nodes of the provider. -/
def assignments (s : Store) (networkNodes : List NetworkNodeRecord) :
    List (NetworkNodeRecord × Option Node) :=
  greedy Node.nodeId networkNodeMatchesHmn s.nodesListed networkNodes []

/-- The nodes that are written. -/
def saved (provider : String) (pairs : List (NetworkNodeRecord × Option Node)) : List Node :=
  ((granted pairs).filter fun p => withNetwork provider p.1 p.2 ≠ p.2).map fun p =>
    withNetwork provider p.1 p.2

/-- The names of the nodes of the provider that take none. -/
def unmatchedNames (pairs : List (NetworkNodeRecord × Option Node)) : List String :=
  (pairs.filter (·.2.isNone)).map fun p =>
    if p.1.hostname = "" then p.1.providerNodeId else p.1.hostname

/-- What the loop does. -/
theorem run_syncLoop (env : Env) (provider : String) (nodes : List Node)
    (networkNodes : List NetworkNodeRecord) :
    ∀ (taken : List String) (result : NetworkSyncResult) (w : World),
      (syncLoop provider nodes networkNodes taken result).run (exec env) w =
        let pairs := greedy Node.nodeId networkNodeMatchesHmn nodes networkNodes taken
        (.ok { result with
            linked := result.linked + (granted pairs).length
            updated := result.updated + (saved provider pairs).length
            unmatched := result.unmatched ++ unmatchedNames pairs },
          w.after 0 { w.store with
            nodes := (saved provider pairs).foldl Table.upsert w.store.nodes }) := by
  induction networkNodes with
  | nil =>
    intro taken result w
    simp [syncLoop, greedy, granted, saved, unmatchedNames, World.after]
  | cons networkNode rest ih =>
    intro taken result w
    rw [syncLoop, greedy]
    cases nodes.find? fun n => n.nodeId ∉ taken && networkNodeMatchesHmn networkNode n with
    | none =>
      simp only [ih]
      simp [granted, saved, unmatchedNames]
    | some target =>
      simp only
      -- A node that is taken is written only when its values change.
      by_cases hchanged : withNetwork provider networkNode target ≠ target
      · rw [if_pos hchanged, run_call_bind, ih]
        simp [granted, saved, unmatchedNames, hchanged, exec, World.after, Nat.add_assoc,
          Nat.add_comm]
      · rw [if_neg hchanged, ih]
        rw [not_not] at hchanged
        simp [granted, saved, unmatchedNames, hchanged, Nat.add_assoc, Nat.add_comm]

/-! ## §2. The nodes behind the loop. -/

/-- A selection under distinct keys is selected from or not found. -/
theorem find?_filter_key {α κ : Type} [DecidableEq κ] {key : α → κ} {xs : List α}
    (h : (xs.map key).Nodup) (q : α → Bool) (k : κ) :
    (xs.filter q).find? (fun x => key x = k) = (xs.find? fun x => key x = k).filter q := by
  induction xs with
  | nil => rfl
  | cons x xs ih =>
    obtain ⟨hnew, hrest⟩ := List.nodup_cons.mp h
    by_cases hk : key x = k
    · rw [List.find?_cons_of_pos (by simpa using hk), Option.filter_some, List.filter_cons]
      split_ifs with hq
      · exact List.find?_cons_of_pos (by simpa using hk)
      · rw [List.find?_eq_none]
        intro y hy hyk
        have hkey : key y = key x := (of_decide_eq_true hyk).trans hk.symm
        exact hnew (hkey ▸ List.mem_map_of_mem (List.mem_filter.mp hy).1)
    · rw [List.find?_cons_of_neg (by simpa using hk), ← ih hrest, List.filter_cons]
      split_ifs
      · exact List.find?_cons_of_neg (by simpa using hk)
      · rfl

/-- **Rows put in under keys that are taken replace the rows there.** -/
theorem rows_foldl_upsert_old {ρ κ : Type} {key : ρ → κ} [DecidableEq κ] {rs : List ρ} :
    ∀ {t : Table key}, (rs.map key).Nodup → (∀ r ∈ rs, t.find? (key r) ≠ none) →
      (rs.foldl Table.upsert t).rows =
        t.rows.map fun x => (rs.find? fun r => key r = key x).getD x := by
  induction rs with
  | nil => exact fun _ _ => by simp
  | cons r rs ih =>
    intro t hnodup hold
    obtain ⟨hnew, hrest⟩ := List.nodup_cons.mp hnodup
    obtain ⟨hr, hrs⟩ := List.forall_mem_cons.mp hold
    have hold' : ∀ r' ∈ rs, (t.upsert r).find? (key r') ≠ none := by
      intro r' hr'
      rw [Table.find?_upsert_of_ne t fun heq => hnew (heq ▸ List.mem_map_of_mem hr')]
      exact hrs r' hr'
    rw [List.foldl_cons, ih hrest hold', Table.rows_upsert_old hr, List.map_map]
    refine List.map_congr_left fun x _ => ?_
    -- The row put in first is of another key than the rest, so no later one replaces it.
    by_cases hx : key x = key r
    · have hnone : rs.find? (fun r' => key r' = key r) = none := by
        rw [List.find?_eq_none]
        intro r' hr' hkey
        exact hnew (of_decide_eq_true hkey ▸ List.mem_map_of_mem hr')
      simp [hx, hnone]
    · rw [List.find?_cons_of_neg (by simpa using fun heq : key r = key x => hx heq.symm)]
      simp [hx]

/-- The node of the provider that takes a stored node. -/
def taker (pairs : List (NetworkNodeRecord × Option Node)) (node : Node) :
    Option NetworkNodeRecord :=
  ((granted pairs).find? fun p => p.2.nodeId = node.nodeId).map Prod.fst

/-- A stored node behind a synchronisation. -/
def synced (provider : String) (pairs : List (NetworkNodeRecord × Option Node)) (node : Node) :
    Node :=
  match taker pairs node with
  | some networkNode => withNetwork provider networkNode node
  | none => node

section Loop

variable (s : Store) (networkNodes : List NetworkNodeRecord) (provider : String)

theorem mem_nodesListed {node : Node} : node ∈ s.nodesListed ↔ node ∈ s.nodes.rows :=
  List.mem_insertionSort _

theorem granted_mem {p : NetworkNodeRecord × Node}
    (h : p ∈ granted (assignments s networkNodes)) :
    p.2 ∈ s.nodes.rows ∧ networkNodeMatchesHmn p.1 p.2 = true := by
  obtain ⟨hmem, hmatch, -⟩ := greedy_sound (mem_granted.mp h)
  exact ⟨(mem_nodesListed s).mp hmem, hmatch⟩

theorem granted_nodup :
    ((granted (assignments s networkNodes)).map fun p => p.2.nodeId).Nodup :=
  greedy_nodup networkNodes []

theorem taker_eq_some {node : Node} (hnode : node ∈ s.nodes.rows)
    {networkNode : NetworkNodeRecord} :
    taker (assignments s networkNodes) node = some networkNode ↔
      (networkNode, node) ∈ granted (assignments s networkNodes) := by
  have hnodup := granted_nodup s networkNodes
  rw [taker, Option.map_eq_some_iff]
  constructor
  · rintro ⟨⟨_, other⟩, hfind, rfl⟩
    have hmem := List.mem_of_find?_eq_some hfind
    have hkey : other.nodeId = node.nodeId := by simpa using List.find?_some hfind
    obtain rfl := s.nodes.eq_of_key_eq (granted_mem s networkNodes hmem).1 hnode hkey
    exact hmem
  · intro hmem
    have hsome : ((granted (assignments s networkNodes)).find? fun p =>
        p.2.nodeId = node.nodeId).isSome :=
      List.find?_isSome.mpr ⟨(networkNode, node), hmem, by simp⟩
    obtain ⟨p, hp⟩ := Option.isSome_iff_exists.mp hsome
    have hkey : p.2.nodeId = node.nodeId := by simpa using List.find?_some hp
    obtain rfl := List.inj_on_of_nodup_map hnodup (List.mem_of_find?_eq_some hp) hmem hkey
    exact ⟨_, hp, rfl⟩

/-- **Every stored node behind the loop.** -/
theorem rows_synced :
    ((saved provider (assignments s networkNodes)).foldl Table.upsert s.nodes).rows =
      s.nodes.rows.map (synced provider (assignments s networkNodes)) := by
  have hnodup := granted_nodup s networkNodes
  have hkeys : ((saved provider (assignments s networkNodes)).map Node.nodeId) =
      ((granted (assignments s networkNodes)).filter fun p =>
        withNetwork provider p.1 p.2 ≠ p.2).map fun p => p.2.nodeId := by
    rw [saved, List.map_map]
    rfl
  rw [rows_foldl_upsert_old]
  · refine List.map_congr_left fun node hnode => ?_
    -- Looking a node up among the written ones is looking up its taker, when that changes it.
    have hfind : (saved provider (assignments s networkNodes)).find? (fun r =>
        r.nodeId = node.nodeId) = (((granted (assignments s networkNodes)).find? fun p =>
          p.2.nodeId = node.nodeId).filter fun p => withNetwork provider p.1 p.2 ≠ p.2).map
            fun p => withNetwork provider p.1 p.2 := by
      rw [saved, List.find?_map, ← find?_filter_key hnodup]
      rfl
    rw [hfind, synced, taker]
    cases hp : (granted (assignments s networkNodes)).find? fun p => p.2.nodeId = node.nodeId with
    | none => rfl
    | some p =>
      have hkey : p.2.nodeId = node.nodeId := by simpa using List.find?_some hp
      have hsame : p.2 = node := s.nodes.eq_of_key_eq
        (granted_mem s networkNodes (List.mem_of_find?_eq_some hp)).1 hnode hkey
      rw [Option.filter_some, Option.map_some, hsame]
      split_ifs with hchanged
      · exact congrArg (withNetwork provider p.1) hsame
      · rw [decide_eq_true_eq, not_not] at hchanged
        exact hchanged.symm
  · rw [hkeys]
    exact hnodup.sublist (List.filter_sublist.map _)
  · intro r hr
    obtain ⟨p, hp, rfl⟩ := List.mem_map.mp hr
    have hmem := (granted_mem s networkNodes (List.mem_filter.mp hp).1).1
    exact Option.ne_none_iff_exists'.mpr ⟨p.2, Table.find?_of_mem hmem⟩

/-- A node changes exactly when it is written. -/
theorem length_saved :
    (saved provider (assignments s networkNodes)).length =
      (s.nodes.rows.filter fun node =>
        synced provider (assignments s networkNodes) node ≠ node).length := by
  have hnodes : (((granted (assignments s networkNodes)).filter fun p =>
      withNetwork provider p.1 p.2 ≠ p.2).map Prod.snd).Nodup := by
    refine List.Nodup.of_map Node.nodeId ?_
    rw [List.map_map]
    exact (granted_nodup s networkNodes).sublist (List.filter_sublist.map _)
  -- Both lists are without repetition and hold the same nodes.
  have hperm : (((granted (assignments s networkNodes)).filter fun p =>
      withNetwork provider p.1 p.2 ≠ p.2).map Prod.snd).Perm (s.nodes.rows.filter fun node =>
        synced provider (assignments s networkNodes) node ≠ node) := by
    refine (List.perm_ext_iff_of_nodup hnodes ((List.Nodup.of_map _ s.nodes.nodup).filter _)).mpr
      fun node => ?_
    rw [List.mem_filter, decide_eq_true_iff]
    constructor
    · intro hmem
      obtain ⟨p, hp, rfl⟩ := List.mem_map.mp hmem
      obtain ⟨hgranted, hchanged⟩ := List.mem_filter.mp hp
      have hrow := (granted_mem s networkNodes hgranted).1
      refine ⟨hrow, ?_⟩
      rw [synced, (taker_eq_some s networkNodes hrow).mpr hgranted]
      exact of_decide_eq_true hchanged
    · rintro ⟨hrow, hchanged⟩
      rw [synced] at hchanged
      cases htaker : taker (assignments s networkNodes) node with
      | none =>
        rw [htaker] at hchanged
        exact absurd rfl hchanged
      | some networkNode =>
        rw [htaker] at hchanged
        exact List.mem_map.mpr ⟨(networkNode, node), List.mem_filter.mpr
          ⟨(taker_eq_some s networkNodes hrow).mp htaker, decide_eq_true hchanged⟩, rfl⟩
  rw [← hperm.length_eq, List.length_map, saved, List.length_map]

end Loop

/-! ## §3. A synchronisation. -/

/-- The provider is there and answers with its nodes. -/
def NetworkAnswers (env : Env) (w : World) (provider : String)
    (networkNodes : List NetworkNodeRecord) : Prop :=
  env.provider w.requests = .ok (some provider)
    ∧ env.listNodes (w.requests + 1) = .ok networkNodes

/-- What a synchronisation makes of the stored nodes. -/
theorem run_syncNetworkNodes {env : Env} {w : World} {provider : String}
    {networkNodes : List NetworkNodeRecord} (h : NetworkAnswers env w provider networkNodes) :
    ∃ result, (syncNetworkNodes.run (exec env) w).1 = .ok result
      ∧ result.provider = provider
      ∧ result.linked = (granted (assignments w.store networkNodes)).length
      ∧ result.updated = (saved provider (assignments w.store networkNodes)).length
      ∧ result.unmatched = unmatchedNames (assignments w.store networkNodes)
      ∧ (syncNetworkNodes.run (exec env) w).2.store.nodes.rows =
        w.store.nodes.rows.map (synced provider (assignments w.store networkNodes)) := by
  obtain ⟨hprovider, hnodes⟩ := h
  let listed : World := { w with requests := w.requests + 1 + 1 }
  have hloop := run_syncLoop env provider w.store.nodesListed networkNodes [] { provider } listed
  -- Two requests to the provider, the loop, and the event behind it.
  have hrun : syncNetworkNodes.run (exec env) w =
      ((syncLoop provider w.store.nodesListed networkNodes [] { provider }) >>= fun result => do
        call (.recordAudit "network" "provider" provider "sync" "ok"
          [("linked", .int result.linked), ("updated", .int result.updated),
            ("unmatched", .arr (result.unmatched.map .str))])
        return result).run (exec env) listed := by
    rw [syncNetworkNodes, run_requireNetworkProvider_bind, hprovider]
    have hanswer : exec env .listNetworkNodes { w with requests := w.requests + 1 } =
        (.ok networkNodes, listed) := by
      simp only [exec, hnodes, raising]
      rfl
    dsimp only
    rw [run_call_bind, hanswer]
    rfl
  rw [hrun, Prog.run_bind, hloop]
  exact ⟨_, rfl, rfl, Nat.zero_add _, Nat.zero_add _, List.nil_append _,
    rows_synced w.store networkNodes provider⟩

/-- What a synchronisation is to be: each node of the provider takes one
stored node of its name at most and each stored node goes to one at most,
the counts are those of the nodes, and the nodes that are taken have the
values of their takers and nothing else changes. -/
structure NetworkJoin (provider : String) (networkNodes : List NetworkNodeRecord)
    (before after : Store) (result : NetworkSyncResult)
    (pairs : List (NetworkNodeRecord × Option Node)) : Prop where
  each : pairs.map Prod.fst = networkNodes
  matching : ∀ p ∈ granted pairs,
    p.2 ∈ before.nodes.rows ∧ networkNodeMatchesHmn p.1 p.2 = true
  once : ((granted pairs).map fun p => p.2.nodeId).Nodup
  linked : result.linked = (granted pairs).length
  accounts : result.linked + result.unmatched.length = networkNodes.length
  taken : after.nodes.rows = before.nodes.rows.map (synced provider pairs)
  takers : ∀ p ∈ granted pairs, synced provider pairs p.2 = withNetwork provider p.1 p.2
  others : ∀ node ∈ before.nodes.rows, (∀ p ∈ granted pairs, p.2 ≠ node) →
    synced provider pairs node = node
  updated : result.updated =
    (before.nodes.rows.filter fun node => synced provider pairs node ≠ node).length

/-- Of the nodes of the provider some take a node and the others do not. -/
theorem length_granted (pairs : List (NetworkNodeRecord × Option Node)) :
    (granted pairs).length + (unmatchedNames pairs).length = pairs.length := by
  induction pairs with
  | nil => rfl
  | cons p pairs ih =>
    obtain ⟨networkNode, none | node⟩ := p
    · exact congrArg Nat.succ ih
    · exact (Nat.add_right_comm _ 1 _).trans (congrArg Nat.succ ih)

/-- Writing a node's values again changes nothing. -/
theorem withNetwork_again (provider : String) (networkNode : NetworkNodeRecord) (node : Node) :
    withNetwork provider networkNode (withNetwork provider networkNode node) =
      withNetwork provider networkNode node := rfl

theorem nodeId_synced (provider : String) (pairs : List (NetworkNodeRecord × Option Node))
    (node : Node) : (synced provider pairs node).nodeId = node.nodeId := by
  rw [synced]
  split <;> rfl

theorem hostname_synced (provider : String) (pairs : List (NetworkNodeRecord × Option Node))
    (node : Node) : (synced provider pairs node).hostname = node.hostname := by
  rw [synced]
  split <;> rfl

/-- Nothing is written the second time. -/
theorem saved_again (s s' : Store) (networkNodes : List NetworkNodeRecord) (provider : String)
    (h : s'.nodes.rows = s.nodes.rows.map (synced provider (assignments s networkNodes))) :
    saved provider (assignments s' networkNodes) = [] := by
  have hlisted : s'.nodesListed =
      s.nodesListed.map (synced provider (assignments s networkNodes)) := by
    rw [Store.nodesListed, h]
    refine (List.map_insertionSort (fun a b : Node => a.hostname ≤ b.hostname) _ _ _
      fun a _ b _ => ?_).symm
    rw [hostname_synced, hostname_synced]
  -- Name and identifier, which the matching goes by, are as before: the same nodes are taken
  -- again.
  have hagain : assignments s' networkNodes = (assignments s networkNodes).map fun p =>
      (p.1, p.2.map (synced provider (assignments s networkNodes))) := by
    rw [assignments, hlisted, greedy_map (nodeId_synced _ _)]
    · rfl
    · intro networkNode node
      rw [networkNodeMatchesHmn, networkNodeMatchesHmn, hostname_synced, nodeId_synced]
  rw [saved, List.map_eq_nil_iff, List.filter_eq_nil_iff]
  rintro ⟨networkNode, node⟩ hgranted hchanged
  rw [hagain] at hgranted
  obtain ⟨⟨networkNode', node'⟩, hmem, heq⟩ := List.mem_map.mp (mem_granted.mp hgranted)
  obtain ⟨rfl, hnode⟩ := Prod.mk.inj heq
  obtain ⟨old, rfl, rfl⟩ := Option.map_eq_some_iff.mp hnode
  have hold := mem_granted.mpr hmem
  have hrow := (granted_mem s networkNodes hold).1
  rw [synced, (taker_eq_some s networkNodes hrow).mpr hold, withNetwork_again] at hchanged
  exact absurd rfl (of_decide_eq_true hchanged)

/-- **A synchronisation is a join, and the same one again changes nothing.** -/
theorem network_sync_join (env : Env) (w : World) (provider : String)
    (networkNodes : List NetworkNodeRecord) (h : NetworkAnswers env w provider networkNodes) :
    ∃ result, (syncNetworkNodes.run (exec env) w).1 = .ok result
      ∧ NetworkJoin provider networkNodes w.store (syncNetworkNodes.run (exec env) w).2.store result
        (assignments w.store networkNodes)
      ∧ ∀ env', NetworkAnswers env' (syncNetworkNodes.run (exec env) w).2 provider networkNodes →
        ∃ again, (syncNetworkNodes.run (exec env') (syncNetworkNodes.run (exec env) w).2).1 = .ok again
          ∧ again.updated = 0
          ∧ (syncNetworkNodes.run (exec env') (syncNetworkNodes.run (exec env) w).2).2.store.nodes =
            (syncNetworkNodes.run (exec env) w).2.store.nodes := by
  obtain ⟨result, hresult, -, hlinked, hupdated, hunmatched, hrows⟩ := run_syncNetworkNodes h
  refine ⟨result, hresult, ?_, fun env' h' => ?_⟩
  · exact {
      each := map_fst_greedy networkNodes []
      matching := fun p hp => granted_mem w.store networkNodes hp
      once := granted_nodup w.store networkNodes
      linked := hlinked
      accounts := by
        rw [hlinked, hunmatched, length_granted, ← List.length_map (f := Prod.fst)]
        exact congrArg List.length (map_fst_greedy networkNodes [])
      taken := hrows
      takers := fun p hp => by
        rw [synced, (taker_eq_some w.store networkNodes
          (granted_mem w.store networkNodes hp).1).mpr hp]
      others := fun node hnode hfree => by
        rw [synced]
        cases htaker : taker (assignments w.store networkNodes) node with
        | none => rfl
        | some networkNode =>
          exact absurd rfl (hfree _ ((taker_eq_some w.store networkNodes hnode).mp htaker))
      updated := hupdated.trans (length_saved w.store networkNodes provider) }
  -- The second answer is the same, and the values are there already.
  · obtain ⟨again, hagain, -, -, hupdated', -, hrows'⟩ := run_syncNetworkNodes h'
    have hsaved := saved_again w.store _ networkNodes provider hrows
    refine ⟨again, hagain, by rw [hupdated', hsaved]; rfl, Table.ext ?_⟩
    rw [hrows', ← rows_synced, hsaved]
    rfl

/-- A stored node, and the node of the provider with its name. -/
def webNode : Node where
  nodeId := "node_000000000001"
  fingerprint := "fp"
  hostname := "web-1"
  addresses := []
  trustLevel := "low"
  labels := []

def webWorld : World where
  store := { Store.empty with nodes := .single webNode }
  files _ := .missing

def webOnline : NetworkNodeRecord where
  providerNodeId := "7"
  hostname := "web-1"
  ip := "100.64.0.7"
  online := true

/-- A provider that answers with some nodes. -/
def Env.listing (networkNodes : List NetworkNodeRecord) : Env :=
  { Env.quiet with
    provider := fun _ => .ok (some "headscale")
    listNodes := fun _ => .ok networkNodes }

/-- A store with a second node. -/
def webAndDb : World where
  store := { Store.empty with
    nodes := (Table.single webNode).upsert
      { webNode with nodeId := "node_000000000002", hostname := "db-1" } }
  files _ := .missing

/-- The node of the first name, another one of that name, the node of the
second name, and one that the store has not. -/
def competing : List NetworkNodeRecord :=
  [webOnline, { webOnline with providerNodeId := "8" },
    { webOnline with providerNodeId := "9", hostname := "db-1", online := false },
    { webOnline with providerNodeId := "10", hostname := "cache-1" }]

/-- Two nodes are taken, once each, and two are left over. -/
theorem competing_joined : ∃ result,
    (syncNetworkNodes.run (exec (.listing competing)) webAndDb).1 = .ok result
    ∧ result.linked = 2 ∧ result.updated = 2 ∧ result.unmatched.length = 2
    ∧ ∃ again, (syncNetworkNodes.run (exec (.listing competing))
        (syncNetworkNodes.run (exec (.listing competing)) webAndDb).2).1 = .ok again
      ∧ again.updated = 0 := by
  obtain ⟨result, hrun, hjoin, hagain⟩ := network_sync_join (.listing competing) webAndDb "headscale"
    competing ⟨rfl, rfl⟩
  have hlinked : result.linked = 2 := by
    rw [hjoin.linked]
    decide +kernel
  have hupdated : result.updated = 2 := by
    rw [hjoin.updated]
    decide +kernel
  have haccounts : result.linked + result.unmatched.length = 4 := hjoin.accounts
  obtain ⟨again, hrunAgain, hnone, -⟩ := hagain (.listing competing) ⟨rfl, rfl⟩
  exact ⟨result, hrun, hlinked, hupdated, by omega, again, hrunAgain, hnone⟩

/-! ## §4. Sequences of synchronisations. -/

/-- After a synchronisation a stored node is online for the provider only if
it is taken by a node that the provider reports online. -/
def NoStaleOnline (provider : String) (pairs : List (NetworkNodeRecord × Option Node))
    (after : Store) : Prop :=
  ∀ node ∈ after.nodes.rows, node.networkProvider = provider → node.networkOnline = true →
    ∃ p ∈ granted pairs, p.2.nodeId = node.nodeId ∧ p.1.online = true

/-- Every stored node that is online for the provider is taken. -/
def OnlineTaken (provider : String) (pairs : List (NetworkNodeRecord × Option Node))
    (before : Store) : Prop :=
  ∀ node ∈ before.nodes.rows, node.networkProvider = provider → node.networkOnline = true →
    ∃ p ∈ granted pairs, p.2 = node

/-- One synchronisation leaves no stale flag exactly when every node that is online is taken. -/
theorem noStaleOnline_iff {env : Env} {w : World} {provider : String}
    {networkNodes : List NetworkNodeRecord} (h : NetworkAnswers env w provider networkNodes) :
    NoStaleOnline provider (assignments w.store networkNodes)
        (syncNetworkNodes.run (exec env) w).2.store ↔
      OnlineTaken provider (assignments w.store networkNodes) w.store := by
  obtain ⟨-, -, -, -, -, -, hrows⟩ := run_syncNetworkNodes h
  rw [NoStaleOnline, hrows, List.forall_mem_map]
  refine forall₂_congr fun node hnode => ?_
  rw [nodeId_synced, synced]
  -- A node that nobody takes keeps its flag; one that is taken has that of its taker.
  cases htaker : taker (assignments w.store networkNodes) node with
  | none =>
    refine imp_congr_right fun _ => imp_congr_right fun _ => ?_
    constructor
    · rintro ⟨p, hp, hid, -⟩
      exact ⟨p, hp, w.store.nodes.eq_of_key_eq (granted_mem w.store networkNodes hp).1 hnode hid⟩
    · rintro ⟨⟨networkNode, _⟩, hp, rfl⟩
      rw [(taker_eq_some w.store networkNodes hnode).mpr hp] at htaker
      cases htaker
  | some networkNode =>
    have hgranted := (taker_eq_some w.store networkNodes hnode).mp htaker
    constructor
    · exact fun _ _ _ => ⟨_, hgranted, rfl⟩
    · exact fun _ _ honline => ⟨_, hgranted, rfl, honline⟩

/-- The worlds behind a sequence of synchronisations, with what the provider
answers to each. -/
def afterSyncs (w : World) (envs : List Env) : World :=
  envs.foldl (fun w env => (syncNetworkNodes.run (exec env) w).2) w

/-- **No sequence of synchronisations leaves a stale flag behind one of them
exactly when each takes every node that is online before it.** -/
theorem no_stale_online_iff (w : World) (envs : List Env) :
    (∀ earlier env later, envs = earlier ++ env :: later → ∀ provider networkNodes,
      NetworkAnswers env (afterSyncs w earlier) provider networkNodes →
        NoStaleOnline provider (assignments (afterSyncs w earlier).store networkNodes)
          (afterSyncs w (earlier ++ [env])).store) ↔
      ∀ earlier env later, envs = earlier ++ env :: later → ∀ provider networkNodes,
        NetworkAnswers env (afterSyncs w earlier) provider networkNodes →
          OnlineTaken provider (assignments (afterSyncs w earlier).store networkNodes)
            (afterSyncs w earlier).store := by
  have hstep : ∀ earlier env, afterSyncs w (earlier ++ [env]) =
      (syncNetworkNodes.run (exec env) (afterSyncs w earlier)).2 := by
    intro earlier env
    rw [afterSyncs, List.foldl_append]
    rfl
  refine forall₄_congr fun earlier env later _ => forall₃_congr fun provider networkNodes h => ?_
  rw [hstep]
  exact noStaleOnline_iff h

/-- A node that the provider no longer lists stays online. -/
theorem delisted_node_online :
    ¬ ∀ earlier env later, [Env.listing [webOnline], Env.listing []] = earlier ++ env :: later →
      ∀ provider networkNodes, NetworkAnswers env (afterSyncs webWorld earlier) provider networkNodes →
        NoStaleOnline provider (assignments (afterSyncs webWorld earlier).store networkNodes)
          (afterSyncs webWorld (earlier ++ [env])).store := by
  intro hall
  have hstale := hall [.listing [webOnline]] (.listing []) [] rfl "headscale" [] ⟨rfl, rfl⟩
  obtain ⟨p, hp, -⟩ := hstale (withNetwork "headscale" webOnline webNode) (by decide +kernel) rfl rfl
  cases hp

end Hmn
