/-
  Hmn.Docs.RenameActions — what renaming a host takes.

  The actions are built at the first service of a renamed host, from the
  entries so far: of the host's own services that is the first alone.  Hosts
  whose safe names agree are one host to the actions.

  Main result: `rename_actions_iff`.
-/
import Hmn.Docs.SyncPlan

namespace Hmn.Docs

open Framework Framework.Regex

/-! ## §1. The paths of the actions. -/

section Renames

variable (alnum : Char → Bool) (serverDocRoot serviceDocRoot : PosixPath)
  (renames : List (String × String))

/-- The safe name that a host is to have. -/
def targetHost (node : String) : String := safeHostSegment ((renames.lookup node).getD node)

/-- The documents that every renaming changes. -/
def indexPaths : List String :=
  [(serverDocRoot.join "README.md").text, (serviceDocRoot.join "README.md").text,
    (serviceDocRoot.join "domain-mapping.json").text,
    (serviceDocRoot.join "runbook-mapping.json").text]

/-- The path of a service's document. -/
def documentPath (service : RegistryService) : String :=
  serviceDocPath serviceDocRoot
    (safeServiceSlug (if service.serviceId ≠ "" then service.serviceId else service.name))

/-- The services up to the first on a host. -/
def upToFirst (node : String) : List RegistryService → List RegistryService
  | [] => []
  | service :: services =>
    if service.node = node then [service] else service :: upToFirst node services

theorem upToFirst_subset {node : String} {services : List RegistryService} :
    upToFirst node services ⊆ services := by
  induction services with
  | nil => exact List.Subset.refl _
  | cons service services ih =>
    rw [upToFirst]
    split_ifs
    · exact List.cons_subset_cons service (List.nil_subset services)
    · exact List.cons_subset_cons service ih

theorem upToFirst_append {node : String} {services more : List RegistryService}
    (h : ∃ service ∈ services, service.node = node) :
    upToFirst node (services ++ more) = upToFirst node services := by
  induction services with
  | nil =>
    obtain ⟨_, hmem, -⟩ := h
    cases hmem
  | cons service services ih =>
    rw [List.cons_append, upToFirst, upToFirst]
    split_ifs with hnode
    · rfl
    · obtain ⟨first, hfirst, hfirst_node⟩ := h
      rcases List.mem_cons.mp hfirst with rfl | hfirst
      · exact absurd hfirst_node hnode
      · rw [ih ⟨first, hfirst, hfirst_node⟩]

theorem upToFirst_snoc {node : String} {services : List RegistryService} {service : RegistryService}
    (h : ∀ earlier ∈ services, earlier.node ≠ node) (hservice : service.node = node) :
    upToFirst node (services ++ [service]) = services ++ [service] := by
  induction services with
  | nil => exact if_pos hservice
  | cons earlier services ih =>
    obtain ⟨hearlier, hservices⟩ := List.forall_mem_cons.mp h
    rw [List.cons_append, upToFirst, if_neg hearlier, ih hservices]

/-- Of the host itself there is only the first. -/
theorem mem_upToFirst {node : String} {services : List RegistryService} {service : RegistryService} :
    service ∈ upToFirst node services ∧ service.node = node ↔
      services.find? (fun s => s.node = node) = some service := by
  induction services with
  | nil => simp [upToFirst]
  | cons first services ih =>
    rw [upToFirst, List.find?_cons]
    by_cases hnode : first.node = node
    · simp only [hnode, if_true, decide_true, List.mem_singleton, Option.some.injEq]
      constructor
      · rintro ⟨rfl, -⟩
        rfl
      · rintro rfl
        exact ⟨rfl, hnode⟩
    · rw [if_neg hnode, decide_eq_false hnode, ← ih]
      constructor
      · rintro ⟨hmem, hservice⟩
        rcases List.mem_cons.mp hmem with rfl | hmem
        · exact absurd hservice hnode
        · exact ⟨hmem, hservice⟩
      · rintro ⟨hmem, hservice⟩
        exact ⟨List.mem_cons_of_mem first hmem, hservice⟩

/-- The paths are those of the indexes and of the affected services. -/
theorem mem_foldl_paths {path : String} (items : List ServiceDoc) : ∀ paths : List String,
    path ∈ items.foldl (fun paths item =>
        if item.targetPath ∈ paths then paths else paths ++ [item.targetPath]) paths ↔
      path ∈ paths ∨ ∃ item ∈ items, item.targetPath = path := by
  induction items with
  | nil => simp
  | cons item items ih =>
    intro paths
    rw [List.foldl_cons, ih]
    split_ifs with hmem
    · constructor
      · rintro (hpath | ⟨other, hother, rfl⟩)
        · exact Or.inl hpath
        · exact Or.inr ⟨other, List.mem_cons_of_mem item hother, rfl⟩
      · rintro (hpath | ⟨other, hother, rfl⟩)
        · exact Or.inl hpath
        · rcases List.mem_cons.mp hother with rfl | hother
          · exact Or.inl hmem
          · exact Or.inr ⟨other, hother, rfl⟩
    · simp [or_assoc, @eq_comm _ path]

/-! ## §2. The actions of a plan. -/

/-- The actions of a host, as the plan lists them. -/
def hostActions (services : List RegistryService) (node : String) : List RenameAction :=
  buildRenameActions (safeHostSegment node) (targetHost renames node) serverDocRoot serviceDocRoot
    (((upToFirst node services).map (serviceEntry alnum serverDocRoot serviceDocRoot renames)).filter
      fun item => item.sourceHost = some (safeHostSegment node))

/-- What the loop has planned behind some services. -/
structure Planned (services : List RegistryService) (state : PlanState) : Prop where
  entries : state.serviceEntries =
    services.map (serviceEntry alnum serverDocRoot serviceDocRoot renames)
  nodup : state.touchedHosts.Nodup
  touched : ∀ node, node ∈ state.touchedHosts ↔
    (renames.lookup node).isSome ∧ ∃ service ∈ services, service.node = node
  actions : state.renameActions =
    state.touchedHosts.flatMap (hostActions alnum serverDocRoot serviceDocRoot renames services)

theorem serviceEntry_host (service : RegistryService) :
    (serviceEntry alnum serverDocRoot serviceDocRoot renames service).host =
      targetHost renames service.node := by
  rw [serviceEntry, targetHost]

theorem serviceEntry_targetPath (service : RegistryService) :
    (serviceEntry alnum serverDocRoot serviceDocRoot renames service).targetPath =
      documentPath serviceDocRoot service := by
  rw [serviceEntry, documentPath]

theorem serviceEntry_sourceHost (service : RegistryService) :
    (serviceEntry alnum serverDocRoot serviceDocRoot renames service).sourceHost =
      if safeHostSegment service.node ≠ targetHost renames service.node then
        some (safeHostSegment service.node)
      else none := by
  rw [serviceEntry, targetHost]

/-- What is planned for a host that was seen does not change. -/
theorem hostActions_append {services : List RegistryService} {node : String}
    (h : ∃ service ∈ services, service.node = node) (more : List RegistryService) :
    hostActions alnum serverDocRoot serviceDocRoot renames (services ++ more) node =
      hostActions alnum serverDocRoot serviceDocRoot renames services node := by
  rw [hostActions, upToFirst_append h, hostActions]

theorem planned_planService {services : List RegistryService} {state : PlanState}
    (h : Planned alnum serverDocRoot serviceDocRoot renames services state)
    (service : RegistryService) :
    Planned alnum serverDocRoot serviceDocRoot renames (services ++ [service])
      (planService alnum serverDocRoot serviceDocRoot renames state service) := by
  have hentries : state.serviceEntries ++
      [serviceEntry alnum serverDocRoot serviceDocRoot renames service] =
      (services ++ [service]).map (serviceEntry alnum serverDocRoot serviceDocRoot renames) := by
    rw [h.entries, List.map_append, List.map_singleton]
  have hactions : state.renameActions = state.touchedHosts.flatMap
      (hostActions alnum serverDocRoot serviceDocRoot renames (services ++ [service])) := by
    rw [h.actions]
    exact List.flatMap_congr fun node hnode =>
      (hostActions_append alnum serverDocRoot serviceDocRoot renames
        ((h.touched node).mp hnode).2 [service]).symm
  by_cases hrenamed : (renames.lookup service.node).isSome ∧ service.node ∉ state.touchedHosts
  · have hnew : ∀ earlier ∈ services, earlier.node ≠ service.node := fun earlier hearlier heq =>
      hrenamed.2 ((h.touched service.node).mpr ⟨hrenamed.1, earlier, hearlier, heq⟩)
    have htouched : (planService alnum serverDocRoot serviceDocRoot renames state
        service).touchedHosts = state.touchedHosts ++ [service.node] := if_pos hrenamed
    have hbuilt : (planService alnum serverDocRoot serviceDocRoot renames state
        service).renameActions = state.renameActions ++ buildRenameActions
          (safeHostSegment service.node)
          (serviceEntry alnum serverDocRoot serviceDocRoot renames service).host serverDocRoot
          serviceDocRoot ((state.serviceEntries ++
            [serviceEntry alnum serverDocRoot serviceDocRoot renames service]).filter
              fun item => item.sourceHost = some (safeHostSegment service.node)) := by
      rw [planService]
      exact if_pos hrenamed
    refine ⟨hentries, ?_, fun node => ?_, ?_⟩
    · rw [htouched]
      refine List.nodup_append.mpr ⟨h.nodup, List.nodup_singleton _, ?_⟩
      rintro node hnode _ hsingle rfl
      exact hrenamed.2 (List.mem_singleton.mp hsingle ▸ hnode)
    · rw [htouched, List.mem_append, List.mem_singleton, h.touched]
      constructor
      · rintro (⟨hsome, earlier, hearlier, hnode⟩ | rfl)
        · exact ⟨hsome, earlier, List.mem_append_left _ hearlier, hnode⟩
        · exact ⟨hrenamed.1, service, List.mem_append_right _ List.mem_cons_self, rfl⟩
      · rintro ⟨hsome, earlier, hearlier, hnode⟩
        rcases List.mem_append.mp hearlier with hearlier | hearlier
        · exact Or.inl ⟨hsome, earlier, hearlier, hnode⟩
        · exact Or.inr (List.mem_singleton.mp hearlier ▸ hnode.symm)
    · rw [hbuilt, htouched, List.flatMap_append, List.flatMap_singleton, ← hactions, hostActions,
        upToFirst_snoc hnew rfl, ← hentries, serviceEntry_host]
  · have htouched : (planService alnum serverDocRoot serviceDocRoot renames state
        service).touchedHosts = state.touchedHosts := if_neg hrenamed
    refine ⟨hentries, htouched ▸ h.nodup, fun node => ?_, ?_⟩
    · rw [htouched, h.touched]
      constructor
      · rintro ⟨hsome, earlier, hearlier, hnode⟩
        exact ⟨hsome, earlier, List.mem_append_left _ hearlier, hnode⟩
      · rintro ⟨hsome, earlier, hearlier, rfl⟩
        rcases List.mem_append.mp hearlier with hearlier | hearlier
        · exact ⟨hsome, earlier, hearlier, rfl⟩
        · rw [List.mem_singleton.mp hearlier] at hsome ⊢
          exact (h.touched _).mp (not_not.mp fun hnot => hrenamed ⟨hsome, hnot⟩)
    · rw [htouched, ← hactions]
      exact if_neg hrenamed

/-- **What the loop has planned behind all services.** -/
theorem planned_foldl (services : List RegistryService) :
    Planned alnum serverDocRoot serviceDocRoot renames services
      (services.foldl (planService alnum serverDocRoot serviceDocRoot renames) .empty) := by
  induction services using List.reverseRecOn with
  | nil => exact ⟨rfl, List.nodup_nil, by simp [PlanState.empty], rfl⟩
  | append_singleton services service ih =>
    rw [List.foldl_append, List.foldl_cons, List.foldl_nil]
    exact planned_planService alnum serverDocRoot serviceDocRoot renames ih service

/-! ## §3. The actions of one host. -/

/-- A move of a host. -/
def isMoveOf (host : String) : RenameAction → Bool
  | .move _ _ old _ => old = host
  | .updateReferences _ _ _ => false

/-- An update of the references to a host. -/
def isUpdateOf (host : String) : RenameAction → Bool
  | .move _ _ _ _ => false
  | .updateReferences _ old _ => old = host

/-- What is selected of lists of which each has at most one element that counts. -/
theorem filter_flatMap_single {α β : Type _} {f : α → List β} {p : β → Bool} {q : α → Bool}
    {g : α → β} (h : ∀ a, (f a).filter p = if q a then [g a] else []) (as : List α) :
    (as.flatMap f).filter p = (as.filter q).map g := by
  induction as with
  | nil => rfl
  | cons a as ih =>
    rw [List.flatMap_cons, List.filter_append, ih, h, List.filter_cons]
    cases q a <;> rfl

/-- The one element that counts. -/
theorem filter_eq_single_iff {α β : Type _} {as : List α} {q : α → Bool} {a : α} (g : α → β)
    (hnodup : as.Nodup) (ha : a ∈ as) (hq : q a = true) :
    (as.filter q).map g = [g a] ↔ ∀ b ∈ as, q b = true → b = a := by
  constructor
  · intro hsingle b hb hqb
    obtain ⟨c, hc, -⟩ := List.map_eq_singleton_iff.mp hsingle
    have hmem : ∀ {x}, x ∈ as → q x = true → x = c := fun hx hqx =>
      List.mem_singleton.mp (hc ▸ List.mem_filter.mpr ⟨hx, hqx⟩)
    exact (hmem hb hqb).trans (hmem ha hq).symm
  · intro hunique
    have hfilter : as.filter q = [a] := by
      refine List.perm_singleton.mp ((List.perm_ext_iff_of_nodup (hnodup.filter q)
        (List.nodup_singleton a)).mpr fun b => ?_)
      rw [List.mem_filter, List.mem_singleton]
      constructor
      · rintro ⟨hb, hqb⟩
        exact hunique b hb hqb
      · rintro rfl
        exact ⟨ha, hq⟩
    rw [hfilter, List.map_singleton]

/-- A safe name is not redacted. -/
theorem redactText_safeHostSegment (node : String) :
    redactText alnum (safeHostSegment node) = safeHostSegment node := by
  refine redactText_eq_self alnum fun c hc => ?_
  have hsegment := (isSegment_safeHostSegment node).chars c hc
  constructor
  · rintro rfl
    exact absurd hsegment (by decide)
  · rintro rfl
    exact absurd hsegment (by decide)

/-- The paths that the references to a host stand in, as the plan has them. -/
def updatedPaths (services : List RegistryService) (node : String) : List String :=
  ((sortedBy ServiceDoc.serviceId (((upToFirst node services).map
      (serviceEntry alnum serverDocRoot serviceDocRoot renames)).filter
        fun item => item.sourceHost = some (safeHostSegment node))).foldl
    (fun paths item => if item.targetPath ∈ paths then paths else paths ++ [item.targetPath])
    (indexPaths serverDocRoot serviceDocRoot)).map (redactText alnum)

/-- The move of a host, as the plan has it. -/
def moveOf (node : String) : RenameAction :=
  .move (redactText alnum (serverDocRoot.join (safeHostSegment node)).text)
    (redactText alnum (serverDocRoot.join (targetHost renames node)).text) (safeHostSegment node)
    (targetHost renames node)

/-- The update of the references to a host, as the plan has it. -/
def updateOf (services : List RegistryService) (node : String) : RenameAction :=
  .updateReferences (updatedPaths alnum serverDocRoot serviceDocRoot renames services node)
    (safeHostSegment node) (targetHost renames node)

/-- The actions of a host, redacted. -/
theorem hostActions_sanitize (services : List RegistryService) (node : String) :
    (hostActions alnum serverDocRoot serviceDocRoot renames services node).map
        (RenameAction.sanitize alnum) =
      [moveOf alnum serverDocRoot renames node,
        updateOf alnum serverDocRoot serviceDocRoot renames services node] := by
  have hold := redactText_safeHostSegment alnum node
  have hnew : redactText alnum (targetHost renames node) = targetHost renames node :=
    redactText_safeHostSegment alnum _
  rw [hostActions, buildRenameActions, List.map_cons, List.map_cons, List.map_nil,
    RenameAction.sanitize, RenameAction.sanitize, hold, hnew]
  rfl

/-! ## §4. What the actions cover. -/

/-- A host with services that is to have another safe name. -/
def IsRenamed (services : List RegistryService) (node : String) : Prop :=
  (∃ service ∈ services, service.node = node) ∧ safeHostSegment node ≠ targetHost renames node

/-- One move of the host, and one update that covers the documents of all its
services. -/
structure HostRenamed (plan : SyncPlan) (services : List RegistryService) (node : String) :
    Prop where
  moved : plan.renameActions.filter (isMoveOf (safeHostSegment node)) =
    [moveOf alnum serverDocRoot renames node]
  updated : ∃ paths, plan.renameActions.filter (isUpdateOf (safeHostSegment node)) =
      [.updateReferences paths (safeHostSegment node) (targetHost renames node)]
    ∧ ∀ service ∈ services, service.node = node →
      redactText alnum (documentPath serviceDocRoot service) ∈ paths

/-- No other renamed host has its safe name, and the documents of its services
are the one of the first, or indexes. -/
structure RenamedAtOnce (services : List RegistryService) (node : String) : Prop where
  alone : ∀ service ∈ services, (renames.lookup service.node).isSome →
    safeHostSegment service.node = safeHostSegment node → service.node = node
  documents : ∀ service ∈ services, service.node = node →
    ∀ first ∈ services.find? (fun s => s.node = node),
      redactText alnum (documentPath serviceDocRoot service) =
          redactText alnum (documentPath serviceDocRoot first)
        ∨ redactText alnum (documentPath serviceDocRoot service) ∈
          (indexPaths serverDocRoot serviceDocRoot).map (redactText alnum)

variable {renames}

theorem IsRenamed.isSome {services : List RegistryService} {node : String}
    (h : IsRenamed renames services node) : (renames.lookup node).isSome := by
  rw [Option.isSome_iff_ne_none]
  intro hnone
  rw [IsRenamed, targetHost, hnone] at h
  exact h.2 rfl

/-- The paths, when no other renamed host has the safe name. -/
theorem mem_updatedPaths {services : List RegistryService} {node : String}
    (h : IsRenamed renames services node)
    (halone : ∀ service ∈ services, (renames.lookup service.node).isSome →
      safeHostSegment service.node = safeHostSegment node → service.node = node) (path : String) :
    path ∈ updatedPaths alnum serverDocRoot serviceDocRoot renames services node ↔
      path ∈ (indexPaths serverDocRoot serviceDocRoot).map (redactText alnum)
        ∨ ∃ first ∈ services.find? (fun s => s.node = node),
          redactText alnum (documentPath serviceDocRoot first) = path := by
  have haffected : ∀ item, item ∈ ((upToFirst node services).map
      (serviceEntry alnum serverDocRoot serviceDocRoot renames)).filter
        (fun item => item.sourceHost = some (safeHostSegment node)) ↔
      ∃ first ∈ services.find? (fun s => s.node = node),
        serviceEntry alnum serverDocRoot serviceDocRoot renames first = item := by
    intro item
    rw [List.mem_filter, List.mem_map, decide_eq_true_iff]
    constructor
    · rintro ⟨⟨service, hservice, rfl⟩, hsource⟩
      rw [serviceEntry_sourceHost] at hsource
      split_ifs at hsource with hchanged
      have hsafe := Option.some.inj hsource
      have hmem : service ∈ services := upToFirst_subset hservice
      have hsome : (renames.lookup service.node).isSome :=
        @IsRenamed.isSome _ services _ ⟨⟨service, hmem, rfl⟩, hchanged⟩
      exact ⟨service, mem_upToFirst.mp ⟨hservice, halone service hmem hsome hsafe⟩, rfl⟩
    · rintro ⟨first, hfirst, rfl⟩
      obtain ⟨hmem, rfl⟩ := mem_upToFirst.mpr hfirst
      refine ⟨⟨first, hmem, rfl⟩, ?_⟩
      rw [serviceEntry_sourceHost, if_pos h.2]
  rw [updatedPaths, List.mem_map, List.mem_map]
  constructor
  · rintro ⟨path, hpath, rfl⟩
    rcases (mem_foldl_paths _ _).mp hpath with hindex | ⟨item, hitem, rfl⟩
    · exact Or.inl ⟨path, hindex, rfl⟩
    · obtain ⟨first, hfirst, rfl⟩ :=
        (haffected item).mp ((List.mem_insertionSort _).mp hitem)
      exact Or.inr ⟨first, hfirst, by rw [serviceEntry_targetPath]⟩
  · rintro (⟨path, hpath, rfl⟩ | ⟨first, hfirst, rfl⟩)
    · exact ⟨path, (mem_foldl_paths _ _).mpr (Or.inl hpath), rfl⟩
    · refine ⟨_, (mem_foldl_paths _ _).mpr (Or.inr ⟨_, (List.mem_insertionSort _).mpr
        ((haffected _).mpr ⟨first, hfirst, rfl⟩), rfl⟩), ?_⟩
      rw [serviceEntry_targetPath]

/-- The actions of the plan, host by host. -/
theorem renameActions_eq (renameHosts : RenameHosts) (registry : ServiceRegistry) :
    ∃ touched : List String, touched.Nodup
      ∧ (∀ node, node ∈ touched ↔ (renameHosts.usable.lookup node).isSome
          ∧ ∃ service ∈ registry.listServices, service.node = node)
      ∧ (buildDocsSyncPlanFromRegistry alnum serverDocRoot serviceDocRoot renameHosts
          registry).renameActions = touched.flatMap fun node =>
            [moveOf alnum serverDocRoot renameHosts.usable node,
              updateOf alnum serverDocRoot serviceDocRoot renameHosts.usable
                registry.listServices node] := by
  have hplanned := planned_foldl alnum serverDocRoot serviceDocRoot renameHosts.usable
    registry.listServices
  refine ⟨_, hplanned.nodup, hplanned.touched, ?_⟩
  rw [buildDocsSyncPlanFromRegistry, SyncPlan.sanitize, planPayload]
  dsimp only
  rw [hplanned.actions, List.map_flatMap]
  exact List.flatMap_congr fun node _ => hostActions_sanitize alnum serverDocRoot serviceDocRoot
    renameHosts.usable registry.listServices node

theorem filter_isMoveOf (touched : List String) (services : List RegistryService) (node : String) :
    (touched.flatMap fun other => [moveOf alnum serverDocRoot renames other,
        updateOf alnum serverDocRoot serviceDocRoot renames services other]).filter
        (isMoveOf (safeHostSegment node)) =
      (touched.filter fun other => safeHostSegment other = safeHostSegment node).map
        (moveOf alnum serverDocRoot renames) := by
  refine filter_flatMap_single (fun other => ?_) touched
  simp [moveOf, updateOf, isMoveOf, List.filter_cons]

theorem filter_isUpdateOf (touched : List String) (services : List RegistryService)
    (node : String) :
    (touched.flatMap fun other => [moveOf alnum serverDocRoot renames other,
        updateOf alnum serverDocRoot serviceDocRoot renames services other]).filter
        (isUpdateOf (safeHostSegment node)) =
      (touched.filter fun other => safeHostSegment other = safeHostSegment node).map
        (updateOf alnum serverDocRoot serviceDocRoot renames services) := by
  refine filter_flatMap_single (fun other => ?_) touched
  simp [moveOf, updateOf, isUpdateOf, List.filter_cons]

/-- The actions of one renamed host are complete exactly when the condition holds of it. -/
theorem hostRenamed_iff (renameHosts : RenameHosts) (registry : ServiceRegistry) {node : String}
    (h : IsRenamed renameHosts.usable registry.listServices node) :
    HostRenamed alnum serverDocRoot serviceDocRoot renameHosts.usable
        (buildDocsSyncPlanFromRegistry alnum serverDocRoot serviceDocRoot renameHosts registry)
        registry.listServices node ↔
      RenamedAtOnce alnum serverDocRoot serviceDocRoot renameHosts.usable registry.listServices
        node := by
  obtain ⟨touched, hnodup, htouched, hactions⟩ :=
    renameActions_eq alnum serverDocRoot serviceDocRoot renameHosts registry
  have hnode : node ∈ touched := (htouched node).mpr ⟨h.isSome, h.1⟩
  have halone_iff : (∀ other ∈ touched,
      decide (safeHostSegment other = safeHostSegment node) = true → other = node) ↔
      ∀ service ∈ registry.listServices, (renameHosts.usable.lookup service.node).isSome →
        safeHostSegment service.node = safeHostSegment node → service.node = node := by
    constructor
    · intro hunique service hservice hsome hname
      exact hunique _ ((htouched _).mpr ⟨hsome, service, hservice, rfl⟩) (decide_eq_true hname)
    · intro halone other hother hname
      obtain ⟨hsome, service, hservice, rfl⟩ := (htouched other).mp hother
      exact halone service hservice hsome (of_decide_eq_true hname)
  have hone : ∀ g : String → RenameAction, (touched.filter fun other =>
      safeHostSegment other = safeHostSegment node).map g = [g node] ↔ _ := fun g =>
    (filter_eq_single_iff g hnodup hnode (decide_eq_true rfl)).trans halone_iff
  constructor
  · rintro ⟨hmoved, paths, hupdated, hpaths⟩
    rw [hactions, filter_isMoveOf] at hmoved
    have halone := (hone _).mp hmoved
    refine ⟨halone, fun service hservice hhost first hfirst => ?_⟩
    rw [hactions, filter_isUpdateOf, (hone _).mpr halone] at hupdated
    have hpath := hpaths service hservice hhost
    rw [updateOf] at hupdated
    injection hupdated with hupdated
    injection hupdated with hupdated
    rw [← hupdated, mem_updatedPaths alnum serverDocRoot serviceDocRoot h halone] at hpath
    rcases hpath with hindex | ⟨first', hfirst', heq⟩
    · exact Or.inr hindex
    · obtain rfl := Option.some.inj (hfirst'.symm.trans hfirst)
      exact Or.inl heq.symm
  · rintro ⟨halone, hdocuments⟩
    refine ⟨?_, updatedPaths alnum serverDocRoot serviceDocRoot renameHosts.usable
      registry.listServices node, ?_, fun service hservice hhost => ?_⟩
    · rw [hactions, filter_isMoveOf, (hone _).mpr halone]
    · rw [hactions, filter_isUpdateOf, (hone _).mpr halone, updateOf]
    · rw [mem_updatedPaths alnum serverDocRoot serviceDocRoot h halone]
      obtain ⟨first, hfirst⟩ : ∃ first, registry.listServices.find? (fun s => s.node = node) =
          some first := by
        rw [← Option.isSome_iff_exists, List.find?_isSome]
        exact ⟨service, hservice, decide_eq_true hhost⟩
      rcases hdocuments service hservice hhost first hfirst with heq | hindex
      · exact Or.inr ⟨first, hfirst, heq.symm⟩
      · exact Or.inl hindex

/-- **The plan covers every renamed host exactly when the documents of each are
known at its first service.** -/
theorem rename_actions_iff (renameHosts : RenameHosts) (registry : ServiceRegistry) :
    (∀ node, IsRenamed renameHosts.usable registry.listServices node →
      HostRenamed alnum serverDocRoot serviceDocRoot renameHosts.usable
        (buildDocsSyncPlanFromRegistry alnum serverDocRoot serviceDocRoot renameHosts registry)
        registry.listServices node) ↔
      ∀ node, IsRenamed renameHosts.usable registry.listServices node →
        RenamedAtOnce alnum serverDocRoot serviceDocRoot renameHosts.usable registry.listServices
          node :=
  forall₂_congr fun _ h => hostRenamed_iff alnum serverDocRoot serviceDocRoot renameHosts registry h

end Renames

/-- A service on a host that is to be renamed. -/
def serviceOn (serviceId node : String) : RegistryService where
  serviceId := serviceId
  name := serviceId
  node := node
  kind := "docker"

/-- Two services on one host, which is to be renamed. -/
def twoOnOld : ServiceRegistry := .ofList [serviceOn "a" "old", serviceOn "b" "old"]

def oldToNew : RenameHosts := .single ("old", "new")

/-- Of two services on a renamed host the document of the second is left out. -/
theorem second_document_left :
    ¬ ∀ node, IsRenamed oldToNew.usable twoOnOld.listServices node →
      HostRenamed isAlnum (.ofString "/srv/files/docs/server") (.ofString "/srv/files/service")
        oldToNew.usable
        (buildDocsSyncPlanFromRegistry isAlnum (.ofString "/srv/files/docs/server")
          (.ofString "/srv/files/service") oldToNew twoOnOld)
        twoOnOld.listServices node := by
  intro hall
  have hrenamed : IsRenamed oldToNew.usable twoOnOld.listServices "old" := by
    refine ⟨⟨serviceOn "a" "old", ?_, rfl⟩, ?_⟩ <;> decide +kernel
  have hcondition := (hostRenamed_iff isAlnum (.ofString "/srv/files/docs/server")
    (.ofString "/srv/files/service") oldToNew twoOnOld hrenamed).mp (hall "old" hrenamed)
  exact absurd (hcondition.documents (serviceOn "b" "old") (by decide +kernel) rfl
    (serviceOn "a" "old") (by decide +kernel)) (by decide +kernel)

end Hmn.Docs
