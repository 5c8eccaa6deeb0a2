/-
  Hmn.Store.History — what the database never loses.

  No statement of the program deletes a row, and an upsert keeps the row's
  place.  So the keys of every table stay where they are, new ones come behind
  them, and the audit log is only appended to.  A component run whose state is
  recorded is final for all but `save_component_run`, which has no guard.

  Main results: `history_grows` — whatever programs run against the database
  and however their calls interleave; the calls are those of the control plane
  and the other statements that write these tables (`StoreCall`).
-/
import Hmn.Approval.Outbox
import Hmn.Framework.Interleave
import Hmn.Join.Stores
import Hmn.Store.Frames

namespace Hmn.Framework.Table

/-! ## §1. The keys of a table. -/

/-- The keys, in the order in which their rows were inserted. -/
def keys {ρ κ : Type} {key : ρ → κ} (t : Table key) : List κ := t.rows.map key

theorem extended_of_eq {κ : Type} {ks ks' : List κ} (h : ks' = ks) : ks <+: ks' :=
  h ▸ List.prefix_refl _

/-- An update keeps the keys. -/
theorem keys_update {ρ κ : Type} {key : ρ → κ} {t : Table key} {p : ρ → Bool} {f : ρ → ρ}
    (hf : ∀ r, key (f r) = key r) : t.keys <+: (t.update p f hf).keys := by
  refine extended_of_eq ?_
  unfold keys update
  rw [List.map_map]
  refine List.map_congr_left fun r _ => ?_
  show key (if p r then f r else r) = key r
  split_ifs
  · exact hf r
  · rfl

/-- An update passes over the rows that are not selected. -/
theorem mem_update_of_not {ρ κ : Type} {key : ρ → κ} {t : Table key} {p : ρ → Bool} {f : ρ → ρ}
    (hf : ∀ r, key (f r) = key r) {r : ρ} (hr : r ∈ t.rows) (hp : p r = false) :
    r ∈ (t.update p f hf).rows := by
  unfold update
  refine List.mem_map.mpr ⟨r, hr, ?_⟩
  rw [hp]
  rfl

variable {ρ κ : Type} [DecidableEq κ] {key : ρ → κ}

theorem keys_append (t : Table key) (r : ρ) (h : t.find? (key r) = none) :
    (t.append r h).keys = t.keys ++ [key r] := by
  unfold keys
  rw [rows_append, List.map_append]
  rfl

/-- An upsert keeps the keys, or adds one behind them. -/
theorem keys_upsert (t : Table key) (r : ρ) : t.keys <+: (t.upsert r).keys := by
  unfold upsert
  split_ifs with h
  · rw [keys_append]
    exact List.prefix_append _ _
  · refine extended_of_eq ?_
    unfold keys
    rw [List.map_map]
    refine List.map_congr_left fun x _ => ?_
    show key (if key x = key r then r else x) = key x
    split_ifs with hx
    · exact hx.symm
    · rfl

theorem keys_insert {t u : Table key} {r : ρ} (h : t.insert? r = some u) : t.keys <+: u.keys := by
  unfold insert? at h
  split_ifs at h with hnew
  obtain rfl := Option.some.inj h
  rw [keys_append]
  exact List.prefix_append _ _

end Hmn.Framework.Table

namespace Hmn

open Framework

/-! ## §2. What one call adds. -/

/-- A component run that is final. -/
def ComponentRun.Final (run : ComponentRun) : Prop := run.status = "state_recorded"

/-- The later store has the keys and the audit log of the earlier one. -/
structure Store.Grows (s s' : Store) : Prop where
  nodes : s.nodes.keys <+: s'.nodes.keys
  tokens : s.tokens.keys <+: s'.tokens.keys
  tasks : s.tasks.keys <+: s'.tasks.keys
  approvals : s.approvals.keys <+: s'.approvals.keys
  notifications : s.notifications.keys <+: s'.notifications.keys
  componentRuns : s.componentRuns.keys <+: s'.componentRuns.keys
  nodeComponents : s.nodeComponents.keys <+: s'.nodeComponents.keys
  audit : s.audit <+: s'.audit

/-- The later store holds the history of the earlier one. -/
structure Store.Extends (s s' : Store) : Prop extends Store.Grows s s' where
  finalRuns : ∀ run ∈ s.componentRuns.rows, run.Final → run ∈ s'.componentRuns.rows

namespace Store.Grows

theorem refl (s : Store) : s.Grows s where
  nodes := List.prefix_refl _
  tokens := List.prefix_refl _
  tasks := List.prefix_refl _
  approvals := List.prefix_refl _
  notifications := List.prefix_refl _
  componentRuns := List.prefix_refl _
  nodeComponents := List.prefix_refl _
  audit := List.prefix_refl _

theorem trans {s s' s'' : Store} (h : s.Grows s') (h' : s'.Grows s'') : s.Grows s'' where
  nodes := h.nodes.trans h'.nodes
  tokens := h.tokens.trans h'.tokens
  tasks := h.tasks.trans h'.tasks
  approvals := h.approvals.trans h'.approvals
  notifications := h.notifications.trans h'.notifications
  componentRuns := h.componentRuns.trans h'.componentRuns
  nodeComponents := h.nodeComponents.trans h'.nodeComponents
  audit := h.audit.trans h'.audit

end Store.Grows

namespace Store.Extends

theorem refl (s : Store) : s.Extends s where
  toGrows := .refl s
  finalRuns _ h _ := h

/-- Events are appended. -/
theorem addAudit (s : Store) (es : List AuditEvent) : s.Extends { s with audit := s.audit ++ es } where
  __ := refl s
  audit := List.prefix_append _ _

/-- Tasks are changed under their keys, and events are appended. -/
theorem updateTasks (s : Store) (p : Task → Bool) (f : Task → Task) (hf : ∀ t, (f t).taskId = t.taskId)
    (es : List AuditEvent) :
    s.Extends { s with tasks := s.tasks.update p f hf, audit := s.audit ++ es } where
  __ := refl s
  tasks := Table.keys_update hf
  audit := List.prefix_append _ _

end Store.Extends

/-- The dispatch of an approved task. -/
theorem Store.extends_dispatch (s : Store) (approvalId uuid : String) (clock : Nat → Timestamp) :
    s.Extends (s.dispatchApprovedTaskRequest approvalId uuid clock).2 := by
  rcases s.dispatch_cases approvalId uuid clock with ⟨approval, tasks, hdispatches, heq⟩ | ⟨r, es, heq, -⟩
  · rw [heq]
    exact {
      Store.Extends.refl s with
      tasks := Table.keys_insert hdispatches.inserted
      approvals := Table.keys_update (setMarker_approvalId _)
      audit := List.prefix_append _ _ }
  · rw [heq]
    exact .addAudit s es

/-- **The dispatch of a component action** leaves the final runs alone. -/
theorem Store.extends_componentAction (s : Store) (approvalId : String) (clock : Nat → Timestamp) :
    s.Extends (s.dispatchApprovedComponentAction approvalId clock).2 := by
  have hfail : ∀ approval reason details at_,
      s.Extends (s.addAudit (componentDispatchFailure approval reason details at_)) :=
    fun approval reason details at_ => .addAudit s [_]
  unfold dispatchApprovedComponentAction
  cases hfound : s.approvals.find? approvalId with
  | none => exact .refl s
  | some approval =>
    simp only
    by_cases hstatus : approval.status ≠ .approved
    · rw [if_pos hstatus]
      exact .refl s
    rw [if_neg hstatus]
    by_cases hkind : ¬ approval.isComponentAction = true
    · rw [if_pos hkind]
      exact .refl s
    rw [if_neg hkind]
    cases hrun : s.componentRuns.find? approval.subjectId with
    | none => exact .refl s
    | some run =>
      simp only
      by_cases hrecorded : run.status = "state_recorded"
      · rw [if_pos hrecorded]
        exact .refl s
      rw [if_neg hrecorded]
      -- A dispatch that fails from here on only adds its event.
      by_cases hmismatch : componentMismatches approval run ≠ []
      · rw [if_pos hmismatch]
        exact hfail _ _ _ _
      rw [if_neg hmismatch]
      by_cases hpending : run.status ≠ "pending_approval"
      · rw [if_pos hpending]
        exact hfail _ _ _ _
      rw [if_neg hpending]
      by_cases haction : componentAction approval run ∉ ["apply", "uninstall"]
      · rw [if_pos haction]
        exact hfail _ _ _ _
      rw [if_neg haction]
      refine {
        Store.Extends.refl s with
        nodeComponents := Table.keys_upsert _ _
        componentRuns := Table.keys_update (writeRun_runId _)
        audit := List.prefix_append _ _
        finalRuns := fun row hrow hfinal => ?_ }
      -- The guard of the UPDATE passes over a final run.
      have hguard : decide (row.runId = run.runId ∧ row.status ≠ "state_recorded") = false := by
        rw [decide_eq_false_iff_not]
        exact fun hguard => hguard.2 hfinal
      exact Table.mem_update_of_not (writeRun_runId _) hrow hguard

/-- **Every call of the control plane** keeps the history. -/
theorem exec_extends (env : Env) (op : Call) (w : World) :
    w.store.Extends (exec env op w).2.store := by
  cases op with
  | saveApprovalRequest a =>
    exact { Store.Extends.refl w.store with approvals := Table.keys_upsert _ _ }
  | saveTask t => exact { Store.Extends.refl w.store with tasks := Table.keys_upsert _ _ }
  | saveNode n => exact { Store.Extends.refl w.store with nodes := Table.keys_upsert _ _ }
  | saveToken t => exact { Store.Extends.refl w.store with tokens := Table.keys_upsert _ _ }
  | recordAudit eventType subjectType subjectId action outcome details =>
    exact .addAudit w.store [_]
  | dispatchApprovedTaskRequest id => exact w.store.extends_dispatch id _ _
  | dispatchApprovedComponentAction id => exact w.store.extends_componentAction id _
  | insertNotification n =>
    simp only [exec]
    cases hinsert : w.store.notifications.insert? n with
    | none => exact .refl _
    | some notifications =>
      exact { Store.Extends.refl w.store with notifications := Table.keys_insert hinsert }
  | claimNextTask nodeId executor lease =>
    show w.store.Extends (w.store.claimNextTask nodeId executor lease (w.reading env 0)).2
    rcases w.store.claim_cases nodeId executor lease (w.reading env 0) with
      ⟨row, -, -, es, heq, -⟩ | ⟨-, heq⟩
    · rw [heq]
      exact .updateTasks _ _ _ _ es
    · rw [heq]
      exact .refl _
  | expireStuckTasks older =>
    obtain ⟨es, heq, -⟩ := w.store.expire_spec older (w.reading env 0)
    show w.store.Extends (w.store.expireStuckTasks older (w.reading env 0)).2
    rw [heq]
    exact .updateTasks _ _ _ _ es
  | completeTask id code out err =>
    show w.store.Extends (w.store.completeTask id code out err (w.reading env 0)).2
    rcases w.store.complete_cases id code out err (w.reading env 0) with
      ⟨row, -, -, -, es, heq, -⟩ | ⟨-, heq⟩
    · rw [heq]
      exact .updateTasks _ _ _ _ es
    · rw [heq]
      exact .refl _
  | readText path =>
    simp only [exec]
    cases w.files path <;> exact .refl _
  | writeText path content =>
    simp only [exec]
    cases env.write w.writes <;> exact .refl _
  | _ => exact .refl _

/-! ## §3. Every statement that writes the tables. -/

/-- A call against the database: one of the control plane, or one of the other
operations that write the tables. -/
inductive StoreCall where
  | plane (op : Call)
  | markNotificationDelivered (notificationId : String)
  | expirePendingTokens
  /-- The INSERT of `record_component_run`. -/
  | insertComponentRun (run : ComponentRun)
  | setNodeComponent (item : NodeComponent)
  | saveComponentRun (run : ComponentRun)

@[reducible] def StoreCall.Res : StoreCall → Type
  | .plane op => op.Res
  | .markNotificationDelivered _ => Option Notification
  | .expirePendingTokens => List String
  | .insertComponentRun _ => Except PyError Unit
  | .setNodeComponent _ => Unit
  | .saveComponentRun _ => Unit

abbrev storeSig : Sig := ⟨StoreCall, StoreCall.Res⟩

def execStore (env : Env) : Prog.Exec storeSig World
  | .plane op, w => exec env op w
  | .markNotificationDelivered id, w =>
      let (r, s) := w.store.markNotificationDelivered id (w.reading env 0)
      (r, w.after 1 s)
  | .expirePendingTokens, w =>
      let (r, s) := w.store.expirePendingTokens (w.reading env 0)
      (r, w.after 1 s)
  | .insertComponentRun run, w =>
      match w.store.componentRuns.insert? run with
      | none => (.error .integrity, w)
      | some componentRuns => (.ok (), w.after 0 { w.store with componentRuns })
  | .setNodeComponent item, w =>
      ((), w.after 0 { w.store with nodeComponents := w.store.nodeComponents.upsert item })
  | .saveComponentRun run, w =>
      ((), w.after 0 { w.store with
        componentRuns := w.store.componentRuns.update (fun r => r.runId = run.runId)
          (Store.writeRun run) (Store.writeRun_runId run) })

/-- The call saves a run without looking at what is stored. -/
def StoreCall.Overwrites (runId : String) : StoreCall → Prop
  | .saveComponentRun run => run.runId = runId
  | _ => False

theorem Store.extends_delivered (s : Store) (notificationId : String) (now : Timestamp) :
    s.Extends (s.markNotificationDelivered notificationId now).2 := by
  unfold markNotificationDelivered
  cases hfound : s.notifications.find? notificationId with
  | none => exact .refl s
  | some n =>
    exact {
      Store.Extends.refl s with
      notifications := Table.keys_update (Store.deliver_notificationId now) }

theorem Store.extends_inserted {s : Store} {run : ComponentRun} {runs : Table ComponentRun.runId}
    (h : s.componentRuns.insert? run = some runs) :
    s.Extends { s with componentRuns := runs } where
  __ := Store.Extends.refl s
  componentRuns := Table.keys_insert h
  finalRuns _ hrow _ := (Table.mem_insert h).mpr (Or.inl hrow)

/-- **Every statement** keeps the keys and the audit log, and all but an
overwriting one keep a final run. -/
theorem execStore_grows (env : Env) (op : StoreCall) (w : World) :
    w.store.Grows (execStore env op w).2.store
      ∧ ∀ run ∈ w.store.componentRuns.rows, run.Final → ¬ op.Overwrites run.runId →
          run ∈ (execStore env op w).2.store.componentRuns.rows := by
  have hextends : w.store.Extends (execStore env op w).2.store →
      w.store.Grows (execStore env op w).2.store
        ∧ ∀ run ∈ w.store.componentRuns.rows, run.Final → ¬ op.Overwrites run.runId →
            run ∈ (execStore env op w).2.store.componentRuns.rows :=
    fun h => ⟨h.toGrows, fun run hrun hfinal _ => h.finalRuns run hrun hfinal⟩
  -- Only the overwriting call needs the second half; the others keep every final run.
  cases op with
  | plane op => exact hextends (exec_extends env op w)
  | markNotificationDelivered id => exact hextends (w.store.extends_delivered id _)
  | expirePendingTokens =>
    have hvalue : ∀ token : JoinToken, (withExpired token).value = token.value := fun _ => rfl
    refine hextends ?_
    exact { Store.Extends.refl w.store with tokens := Table.keys_update hvalue }
  | insertComponentRun run =>
    refine hextends ?_
    simp only [execStore]
    cases hinsert : w.store.componentRuns.insert? run with
    | none => exact .refl _
    | some runs => exact Store.extends_inserted hinsert
  | setNodeComponent item =>
    refine hextends ?_
    exact { Store.Extends.refl w.store with nodeComponents := Table.keys_upsert _ _ }
  | saveComponentRun saved =>
    constructor
    · exact {
        Store.Grows.refl w.store with
        componentRuns := Table.keys_update (Store.writeRun_runId saved) }
    · intro run hrun _ hother
      have hskipped : decide (run.runId = saved.runId) = false :=
        decide_eq_false fun h => hother h.symm
      exact Table.mem_update_of_not (Store.writeRun_runId saved) hrun hskipped

/-! ## §4. Runs. -/

/-- **The database never forgets.**  Any number of callers run any programs,
and their calls interleave in any order: from every moment of the run to every
later one, the keys of each table stay in their places and new ones come behind
them, the audit log is only appended to, and a component run whose state is
recorded is not written again, unless `save_component_run` is called for it. -/
theorem history_grows {ι α : Type} [DecidableEq ι] (env : Env)
    (c : Config ι storeSig PyError α World) (earlier later : List ι) :
    let before := c.run (execStore env) earlier
    let after := c.run (execStore env) (earlier ++ later)
    before.shared.store.Grows after.shared.store
      ∧ ∀ run ∈ before.shared.store.componentRuns.rows, run.Final →
          before.Respects (execStore env) (fun _ _ op => ¬ op.Overwrites run.runId) later →
          run ∈ after.shared.store.componentRuns.rows := by
  intro before after
  have hafter : after = before.run (execStore env) later := Config.run_append _ _ _
  rw [hafter]
  constructor
  -- The growth of the tables is a preorder that each statement respects.
  · exact Config.run_rel (R := fun w w' : World => w.store.Grows w'.store)
      (fun w => .refl w.store) (fun _ _ _ h h' => h.trans h')
      (fun op w => (execStore_grows env op w).1) later before
  · intro run hrun hfinal hkept
    -- Along the run, the row stays where every call but an overwriting one leaves it.
    exact Config.run_induct (f := fun (_ : Unit) _ _ _ => ())
      (fun c' _ => run ∈ c'.shared.store.componentRuns.rows)
      (fun c' _ i op k hrow hcall hop => by
        have hstep := (execStore_grows env op c'.shared).2 run hrow hfinal hop
        rw [Config.step_of_call hcall]
        exact hstep)
      later before () hrun hkept

end Hmn
