/-
  Hmn.Network.Specs — what the network dispatches do to the outside world.

  An ACL dispatch that passes every check overwrites the current ACL file
  with the text it read from the proposed one, a tag update that passes
  every check changes the tags at the provider and in the node; every other
  dispatch leaves tasks, components, nodes, files and the outside world as
  they were.

  Main results: `applyAcl_cases`, `writeAcl_effects`, `dispatchTags_cases`.
-/
import Hmn.Approval.Discipline
import Hmn.Store.Frames

namespace Hmn

open Framework Py

/-! ## §1. The effect of a program. -/

/-- What carrying out approved work can change: rows and the outside world,
but not the audit log or how many answers were used. -/
structure Effects where
  tasks : Table Task.taskId
  componentRuns : Table ComponentRun.runId
  nodeComponents : Table NodeComponent.key
  nodes : Table Node.nodeId
  files : String → FileState
  effects : List Effect

/-- The effect so far. -/
def World.effect (w : World) : Effects where
  tasks := w.store.tasks
  componentRuns := w.store.componentRuns
  nodeComponents := w.store.nodeComponents
  nodes := w.store.nodes
  files := w.files
  effects := w.effects

section Run

variable {env : Env} {α β : Type}

theorem effect_recordAudit (w : World) (eventType subjectType subjectId action outcome : String)
    (details : Dict) :
    (exec env (.recordAudit eventType subjectType subjectId action outcome details) w).2.effect
      = w.effect := rfl

/-- The log of outside effects only grows. -/
theorem exec_effects_grow (op : Call) (w : World) :
    w.effects <+: (exec env op w).2.effects := by
  cases op with
  | writeText path content =>
    simp only [exec]
    cases env.write w.writes with
    | error m => exact List.prefix_rfl
    | ok u => exact List.prefix_append _ _
  | setNodeTags id tags =>
    simp only [exec]
    cases env.setNodeTags w.requests with
    | error m => exact List.prefix_rfl
    | ok u => exact List.prefix_append _ _
  | runCommand command => exact List.prefix_append _ _
  | runSsh port target command => exact List.prefix_append _ _
  | insertNotification n =>
    simp only [exec]
    cases w.store.notifications.insert? n <;> exact List.prefix_rfl
  | readText path => simp only [exec]; cases w.files path <;> exact List.prefix_rfl
  | _ => exact List.prefix_rfl

/-- A run only adds outside effects. -/
theorem run_effects_grow (env : Env) (p : Py α) (w : World) :
    w.effects <+: (p.run (exec env) w).2.effects := by
  induction p generalizing w with
  | ret a => exact List.prefix_rfl
  | raise e => exact List.prefix_rfl
  | call op k ih => exact (exec_effects_grow op w).trans (ih _ _)

end Run

/-! ## §2. A dispatch that passes every check. -/

/-- The text `read_text` finds at a path. -/
def FileState.readText : FileState → Option String
  | .text content => some (String.ofList (universalNewlines content.toList))
  | _ => none

/-- The text of the current file: none at a missing one. -/
def FileState.readTextOrEmpty : FileState → Option String
  | .missing => some ""
  | f => f.readText

/-- Both files can be read and the current one has the recorded digest: the
dispatch goes on to write `new` over `old` at `current`. -/
structure AclReady (env : Env) (approval : ApprovalRequest) (w : World)
    (current proposed old new : String) : Prop where
  currentPath : env.expanduser (approval.details.getStr "current_path" "") = .ok current
  proposedPath : env.expanduser (approval.details.getStr "proposed_path" "") = .ok proposed
  replaced : (w.files current).readTextOrEmpty = some old
  written : (w.files proposed).readText = some new
  unchanged : aclChanged approval old = false

variable {env : Env} {approval : ApprovalRequest} {w : World}

theorem AclReady.unique {c p o n c' p' o' n' : String} (h : AclReady env approval w c p o n)
    (h' : AclReady env approval w c' p' o' n') : c = c' ∧ p = p' ∧ o = o' ∧ n = n' := by
  have hc : c = c' := by
    have := h.currentPath.symm.trans h'.currentPath
    simpa using this
  have hp : p = p' := by
    have := h.proposedPath.symm.trans h'.proposedPath
    simpa using this
  subst hc
  subst hp
  exact ⟨rfl, rfl, Option.some.inj (h.replaced.symm.trans h'.replaced),
    Option.some.inj (h.written.symm.trans h'.written)⟩

/-- What reading the current file does. -/
theorem run_readTextOrEmpty_bind {α : Type} (path : String) (f : String → Py α) :
    (readTextOrEmpty path >>= f).run (exec env) w =
      match (w.files path).readTextOrEmpty with
      | some old => (f old).run (exec env) w
      | none => (.error (.unreadable path), w) := by
  rw [Prog.run_bind]
  unfold readTextOrEmpty
  rw [run_call_bind]
  cases hf : w.files path <;> simp [exec, hf, FileState.readTextOrEmpty, FileState.readText, orRaise,
    call, Prog.lift]

/-- What reading the proposed file does. -/
theorem run_readText_bind {α : Type} (path : String) (f : String → Py α) :
    (do f (← orRaise (← call (.readText path)))).run (exec env) w =
      match (w.files path).readText with
      | some new => (f new).run (exec env) w
      | none => (.error (.unreadable path), w) := by
  rw [run_call_bind, run_orRaise_bind]
  cases hf : w.files path <;> simp [exec, hf, FileState.readText]

/-- A dispatch whose files are known goes on to the write or stops. -/
theorem applyAclFiles_cases (env : Env) (approval : ApprovalRequest) (w : World)
    (current proposed : String) :
    (∃ old new, (w.files current).readTextOrEmpty = some old
        ∧ (w.files proposed).readText = some new ∧ aclChanged approval old = false
        ∧ (applyAclFiles approval current proposed).run (exec env) w
            = (writeAcl approval current proposed old new).run (exec env) w)
    ∨ ((∀ old new, (w.files current).readTextOrEmpty = some old →
          (w.files proposed).readText = some new → aclChanged approval old = true)
        ∧ ((applyAclFiles approval current proposed).run (exec env) w).2.effect = w.effect) := by
  unfold applyAclFiles
  rw [run_call_bind]
  by_cases hmissing : w.files proposed = .missing
  · refine Or.inr ⟨fun old new _ hnew => ?_, ?_⟩
    · simp [hmissing, FileState.readText] at hnew
    · simp [exec, hmissing]
  · simp only [exec, hmissing, ne_eq, not_false_eq_true, decide_true, Bool.not_true,
      Bool.false_eq_true, if_false]
    rw [run_readTextOrEmpty_bind]
    cases hold : (w.files current).readTextOrEmpty with
    | none => exact Or.inr ⟨by simp, rfl⟩
    | some old =>
      simp only
      rw [run_readText_bind]
      cases hnew : (w.files proposed).readText with
      | none => exact Or.inr ⟨by simp, rfl⟩
      | some new =>
        simp only
        cases hchanged : aclChanged approval old with
        | true =>
          refine Or.inr ⟨by simp [hchanged], ?_⟩
          rw [if_pos rfl]
          exact effect_recordAudit _ _ _ _ _ _ _
        | false => exact Or.inl ⟨old, new, rfl, rfl, hchanged, rfl⟩

/-- **A dispatch either goes on to the write or stops without effect.** -/
theorem applyAcl_cases (env : Env) (approval : ApprovalRequest) (w : World) :
    (∃ current proposed old new, AclReady env approval w current proposed old new
      ∧ (applyAcl approval).run (exec env) w
          = (writeAcl approval current proposed old new).run (exec env) w)
    ∨ ((∀ current proposed old new, ¬ AclReady env approval w current proposed old new)
      ∧ ((applyAcl approval).run (exec env) w).2.effect = w.effect) := by
  unfold applyAcl
  rw [run_call_bind, run_orRaise_bind]
  cases hc : env.expanduser (approval.details.getStr "current_path" "") with
  | error m =>
    refine Or.inr ⟨fun c p o n h => ?_, by simp [exec, hc, raising]⟩
    simp [h.currentPath] at hc
  | ok current =>
    simp only [exec, hc, raising]
    rw [run_call_bind, run_orRaise_bind]
    cases hp : env.expanduser (approval.details.getStr "proposed_path" "") with
    | error m =>
      refine Or.inr ⟨fun c p o n h => ?_, by simp [exec, hp, raising]⟩
      simp [h.proposedPath] at hp
    | ok proposed =>
      simp only [exec, hp, raising]
      rcases applyAclFiles_cases env approval w current proposed with
        ⟨old, new, hold, hnew, hsame, heq⟩ | ⟨hstop, heq⟩
      · exact Or.inl ⟨current, proposed, old, new, ⟨hc, hp, hold, hnew, hsame⟩, heq⟩
      · refine Or.inr ⟨fun c p o n h => ?_, heq⟩
        obtain rfl : current = c := by simpa [hc] using h.currentPath
        obtain rfl : proposed = p := by simpa [hp] using h.proposedPath
        have := hstop o n h.replaced h.written
        rw [h.unchanged] at this
        cases this

/-! ## §3. The write. -/

/-- The calls after the write. -/
def isCommandOrAudit : Call → Prop
  | .runCommand _ | .recordAudit .. => True
  | _ => False

/-- What follows the write only adds commands to the outside effects. -/
theorem finishAclApply_effects (env : Env) (approval : ApprovalRequest)
    (current proposed old new : String) (w : World) :
    ∃ commands, ((finishAclApply approval current proposed old new).run (exec env) w).2.effects
        = w.effects ++ commands ∧ ∀ e ∈ commands, ∃ command, e = .runCommand command := by
  have hcalls : (finishAclApply approval current proposed old new).Calls isCommandOrAudit :=
    finishAclApply_calls (fun _ => trivial) (fun _ _ _ => trivial) _ _ _ _ _
  refine Prog.run_keeps (I := fun w' => ∃ commands, w'.effects = w.effects ++ commands
    ∧ ∀ e ∈ commands, ∃ command, e = .runCommand command) ?_ hcalls w ⟨[], by simp, by simp⟩
  rintro op w' hop ⟨commands, heq, hall⟩
  cases op with
  | runCommand command =>
    refine ⟨commands ++ [.runCommand command], ?_, ?_⟩
    · simp [exec, heq]
    · intro e he
      rcases List.mem_append.mp he with he | he
      · exact hall e he
      · exact ⟨command, List.mem_singleton.mp he⟩
  | recordAudit eventType subjectType subjectId action outcome details =>
    exact ⟨commands, heq, hall⟩
  | _ => exact absurd hop id

/-- **A dispatch that passes every check writes the proposed text**, and
nothing else, to the current file; a refused write stops it. -/
theorem writeAcl_effects (env : Env) (approval : ApprovalRequest)
    (current proposed old new : String) (w : World) :
    (env.write w.writes = .ok () ∧ ∃ commands,
        ((writeAcl approval current proposed old new).run (exec env) w).2.effects
          = w.effects ++ .writeText current new :: commands
        ∧ ∀ e ∈ commands, ∃ command, e = .runCommand command)
    ∨ ((∃ m, env.write w.writes = .error m)
        ∧ ((writeAcl approval current proposed old new).run (exec env) w).2.effect = w.effect) := by
  unfold writeAcl
  rw [run_call_bind, run_orRaise_bind]
  cases hw : env.write w.writes with
  | error m => exact Or.inr ⟨⟨m, rfl⟩, by simp only [exec, hw]; rfl⟩
  | ok u =>
    refine Or.inl ⟨rfl, ?_⟩
    simp only [exec, hw]
    obtain ⟨commands, heq, hall⟩ := finishAclApply_effects env approval
      current proposed old new { w with
        files := Function.update w.files current (.text new)
        writes := w.writes + 1
        effects := w.effects ++ [.writeText current new] }
    exact ⟨commands, by rw [heq, List.append_assoc, List.singleton_append], hall⟩

/-! ## §4. A tag update. -/

/-- Every check of a tag update passes and the provider accepts the tags. -/
structure TagsReady (env : Env) (approval : ApprovalRequest) (w : World) (tags : List String)
    (node : Node) (provider : String) : Prop where
  requested : requestedTags approval.details = .ok tags
  nodeId : approval.details.getStr "node_id" approval.subjectId ≠ ""
  providerNodeId : approval.details.getStr "provider_node_id" "" ≠ ""
  found : w.store.nodes.find? (approval.details.getStr "node_id" approval.subjectId) = some node
  managed : node.status = .managed
  configured : env.provider w.requests = .ok (some provider)
  accepted : env.setNodeTags (w.requests + 1) = .ok ()

/-- What asking for the provider does. -/
theorem run_requireNetworkProvider_bind {α : Type} (f : String → Py α) :
    (requireNetworkProvider >>= f).run (exec env) w =
      match env.provider w.requests with
      | .ok (some name) => (f name).run (exec env) { w with requests := w.requests + 1 }
      | .ok none => (.error (.typerExit 1), { w with requests := w.requests + 1 })
      | .error m => (.error (.networkProvider m), { w with requests := w.requests + 1 }) := by
  rw [Prog.run_bind]
  unfold requireNetworkProvider
  rw [run_call_bind, run_orRaise_bind]
  rcases hp : env.provider w.requests with m | (_ | name) <;> simp [exec, hp, raising]

/-- **A tag update reaches the provider and the node, or it stops without
effect.** -/
theorem updateTags_cases (env : Env) (approval : ApprovalRequest) (w : World)
    (nodeId providerNodeId : String) (tags : List String) (node : Node) :
    ((∃ provider, env.provider w.requests = .ok (some provider))
        ∧ env.setNodeTags (w.requests + 1) = .ok ()
        ∧ w.effects.length
            < ((updateTags approval nodeId providerNodeId tags node).run (exec env) w).2.effects.length)
    ∨ (¬ ((∃ provider, env.provider w.requests = .ok (some provider))
          ∧ env.setNodeTags (w.requests + 1) = .ok ())
        ∧ ((updateTags approval nodeId providerNodeId tags node).run (exec env) w).2.effect
            = w.effect) := by
  unfold updateTags
  rw [run_requireNetworkProvider_bind]
  rcases hp : env.provider w.requests with m | (_ | name)
  · exact Or.inr ⟨by simp, rfl⟩
  · exact Or.inr ⟨by simp, rfl⟩
  · simp only
    rw [run_call_bind]
    cases hs : env.setNodeTags (w.requests + 1) with
    | error m =>
      refine Or.inr ⟨by simp, ?_⟩
      simp only [exec, hs, raising]
      rfl
    | ok u =>
      refine Or.inl ⟨⟨name, rfl⟩, rfl, ?_⟩
      simp only [exec, hs, raising]
      have hgrow := (run_effects_grow env
        (tagsTaken approval name nodeId providerNodeId tags node)
        { w with
          requests := w.requests + 1 + 1
          effects := w.effects ++ [.setNodeTags providerNodeId tags] }).length_le
      simp only [List.length_append, List.length_singleton] at hgrow
      omega

theorem dispatchTags_cases (env : Env) (approval : ApprovalRequest) (w : World) :
    ((∃ tags node provider, TagsReady env approval w tags node provider)
        ∧ w.effects.length < ((dispatchTags approval).run (exec env) w).2.effects.length)
    ∨ ((∀ tags node provider, ¬ TagsReady env approval w tags node provider)
        ∧ ((dispatchTags approval).run (exec env) w).2.effect = w.effect) := by
  unfold dispatchTags
  simp only
  rw [run_orRaise_bind]
  cases htags : requestedTags approval.details with
  | error e =>
    refine Or.inr ⟨fun tags node provider h => ?_, rfl⟩
    simp [h.requested] at htags
  | ok tags =>
    simp only
    split_ifs with hempty
    · refine Or.inr ⟨fun tags' node provider h => ?_, rfl⟩
      rcases hempty with h' | h'
      · exact h.nodeId h'
      · exact h.providerNodeId h'
    · rw [not_or] at hempty
      rw [run_call_bind]
      cases hnode : w.store.nodes.find?
          (approval.details.getStr "node_id" approval.subjectId) with
      | none =>
        refine Or.inr ⟨fun tags' node provider h => ?_, ?_⟩
        · simp [h.found] at hnode
        · simp only [exec, hnode]
          rfl
      | some node =>
        simp only [exec, hnode]
        have hready : ∀ {tags' node' provider}, TagsReady env approval w tags' node' provider →
            node'.status = .managed → node.status = .managed := by
          intro tags' node' provider h hm
          obtain rfl : node' = node := by simpa [h.found] using hnode
          exact hm
        split_ifs with hmanaged
        · refine Or.inr ⟨fun tags' node' provider h => ?_, rfl⟩
          exact hmanaged (hready h h.managed)
        · rcases updateTags_cases env approval w
            (approval.details.getStr "node_id" approval.subjectId)
            (approval.details.getStr "provider_node_id" "") tags node with
            ⟨⟨provider, hprov⟩, hset, hlt⟩ | ⟨hno, hsame⟩
          · exact Or.inl ⟨⟨tags, node, provider, htags, hempty.1, hempty.2, hnode,
              not_not.mp hmanaged, hprov, hset⟩, hlt⟩
          · exact Or.inr ⟨fun tags' node' provider h => hno ⟨⟨provider, h.configured⟩, h.accepted⟩,
              hsame⟩

end Hmn
