/-
  Hmn.Services.InventoryBindings — what the inventory says of domains and
  ports, and what of it the registry keeps.

  A domain replaces the record of its service, ports and domains with it.  On
  the rows of the registry this is a replacement of the first row that has
  the port (`rows_bindMapping`); what it takes away is never given back
  (`Narrowed`).

  Main result: `inventory_bindings_kept_iff`.
-/
import Hmn.Framework.Lexical
import Hmn.Services.Curated
import Hmn.Services.Inventory

namespace Hmn

open Framework Framework.Fallible

/-! ## §1. Containers by name. -/

/-- The ports a container publishes, read off its mappings. -/
def published (container : ContainerRecord) : List Int :=
  (containerHostPorts container).toOption.getD []

/-- The containers of a name: the first has the place, the last counts. -/
def namedContainers (inventory : NodeInventory) : Table ContainerRecord.name :=
  inventory.containers.foldl Table.upsert .empty

/-- The service of a container. -/
def serviceOf (node : String) (container : ContainerRecord) : RegistryService :=
  containerService node container (published container)

theorem dockerServiceId_inj {node a b : String} :
    dockerServiceId node a = dockerServiceId node b ↔ a = b := by
  simp [dockerServiceId, String.append_right_inj]

theorem mapM_serviceFromContainer {inventory : NodeInventory} {services : List RegistryService}
    (h : inventory.containers.mapM (serviceFromContainer inventory.node) = .ok services) :
    services = inventory.containers.map (serviceOf inventory.node) := by
  refine (List.forall₂_eq_eq_eq ▸ List.forall₂_map_left_iff.mpr ((mapM_eq_ok.mp h).imp ?_) :
    inventory.containers.map (serviceOf inventory.node) = services).symm
  intro container service hservice
  obtain ⟨ports, hports, hservice⟩ := bind_eq_ok.mp hservice
  rw [serviceOf, published, hports, ← pure_eq_ok.mp hservice]
  rfl

theorem sorted_published (container : ContainerRecord) :
    (published container).Pairwise (· < ·) := by
  rw [published]
  cases h : containerHostPorts container with
  | error e => exact List.Pairwise.nil
  | ok ports =>
    obtain ⟨found, -, hports⟩ := bind_eq_ok.mp h
    rw [Except.toOption, Option.getD_some, ← pure_eq_ok.mp hports]
    exact mergeUniqueInts_sorted found.flatten []

/-- The registry of the containers. -/
theorem rows_containers (inventory : NodeInventory) :
    (ServiceRegistry.ofList (inventory.containers.map (serviceOf inventory.node))).rows
      = (namedContainers inventory).rows.map (serviceOf inventory.node) := by
  have hstart : (Table.empty : ServiceRegistry).rows
      = (Table.empty : Table ContainerRecord.name).rows.map (serviceOf inventory.node) := rfl
  have hkey : ∀ x y : ContainerRecord, (serviceOf inventory.node x).serviceId
      = (serviceOf inventory.node y).serviceId ↔ x.name = y.name := fun _ _ => dockerServiceId_inj
  exact Table.rows_foldl_upsert_map hkey inventory.containers hstart

/-! ## §2. A binding, on the rows. -/

section Rows

variable (inventory : NodeInventory) (mapping : String × Int)

/-- A domain replaces the first row that has its port. -/
def bindRows : List RegistryService → List RegistryService
  | [] => [boundService (unknownServiceForUpstreamPort inventory mapping.2) mapping.1 mapping.2]
  | service :: rows =>
    if mapping.2 ∈ service.ports then boundService service mapping.1 mapping.2 :: rows
    else service :: bindRows rows

end Rows

variable {inventory : NodeInventory} {mapping : String × Int} {rows : List RegistryService}
  {mappings : List (String × Int)} {service : RegistryService}

theorem mem_bindRows {s : RegistryService} (h : s ∈ bindRows inventory mapping rows) :
    s ∈ rows ∨ (∃ target ∈ rows, mapping.2 ∈ target.ports
        ∧ s = boundService target mapping.1 mapping.2)
      ∨ s = boundService (unknownServiceForUpstreamPort inventory mapping.2) mapping.1 mapping.2 := by
  induction rows with
  | nil => exact Or.inr (Or.inr (List.mem_singleton.mp h))
  | cons head rows ih =>
    rw [bindRows] at h
    split at h
    · rename_i hport
      rcases List.mem_cons.mp h with rfl | h
      · exact Or.inr (Or.inl ⟨head, List.mem_cons_self, hport, rfl⟩)
      · exact Or.inl (List.mem_cons_of_mem head h)
    · rcases List.mem_cons.mp h with rfl | h
      · exact Or.inl List.mem_cons_self
      · rcases ih h with hrow | ⟨target, htarget, hbound⟩ | hnew
        · exact Or.inl (List.mem_cons_of_mem head hrow)
        · exact Or.inr (Or.inl ⟨target, List.mem_cons_of_mem head htarget, hbound⟩)
        · exact Or.inr (Or.inr hnew)

/-- A row without the port stays. -/
theorem mem_bindRows_of_not_mem (h : service ∈ rows) (hport : mapping.2 ∉ service.ports) :
    service ∈ bindRows inventory mapping rows := by
  induction rows with
  | nil => cases h
  | cons head rows ih =>
    rw [bindRows]
    rcases List.mem_cons.mp h with rfl | h
    · rw [if_neg hport]
      exact List.mem_cons_self
    · split
      · exact List.mem_cons_of_mem _ h
      · exact List.mem_cons_of_mem _ (ih h)

/-- The domain is bound. -/
theorem bound_mem_bindRows (inventory : NodeInventory) (mapping : String × Int)
    (rows : List RegistryService) :
    ∃ s ∈ bindRows inventory mapping rows, s.domains = [mapping.1] ∧ s.ports = [mapping.2] := by
  induction rows with
  | nil => exact ⟨_, List.mem_singleton_self _, rfl, rfl⟩
  | cons head rows ih =>
    rw [bindRows]
    split
    · exact ⟨_, List.mem_cons_self, rfl, rfl⟩
    · obtain ⟨s, hs, hbound⟩ := ih
      exact ⟨s, List.mem_cons_of_mem head hs, hbound⟩

/-- A service of a port has that port, and no other. -/
def NamedByPort (node : String) (rows : List RegistryService) : Prop :=
  ∀ s ∈ rows, ∀ port, s.serviceId = unknownPortId node port → s.ports = [port]

theorem unknownPortId_inj {node : String} {p q : Int} :
    unknownPortId node p = unknownPortId node q ↔ p = q := by
  rw [unknownPortId, unknownPortId, String.append_right_inj, Lexical.toString_int_inj]

theorem NamedByPort.bindRows (h : NamedByPort inventory.node rows) :
    NamedByPort inventory.node (bindRows inventory mapping rows) := by
  intro s hs port hid
  rcases mem_bindRows hs with hs | ⟨target, htarget, hport, rfl⟩ | rfl
  · exact h s hs port hid
  · rw [h target htarget port hid] at hport
    rw [← List.mem_singleton.mp hport]
    rfl
  · rw [← unknownPortId_inj.mp hid]
    rfl

theorem bindRows_of_find?_none (h : rows.find? (fun s => mapping.2 ∈ s.ports) = none) :
    bindRows inventory mapping rows = rows ++
      [boundService (unknownServiceForUpstreamPort inventory mapping.2) mapping.1 mapping.2] := by
  induction rows with
  | nil => rfl
  | cons head rows ih =>
    obtain ⟨hhead, hrows⟩ := List.forall_mem_cons.mp (List.find?_eq_none.mp h)
    rw [bindRows, if_neg (by simpa using hhead), ih (List.find?_eq_none.mpr hrows),
      List.cons_append]

theorem bindRows_of_find?_some {target : RegistryService}
    (hnodup : (rows.map RegistryService.serviceId).Nodup)
    (h : rows.find? (fun s => mapping.2 ∈ s.ports) = some target) :
    bindRows inventory mapping rows = rows.map (fun s =>
      if s.serviceId = target.serviceId then boundService target mapping.1 mapping.2 else s) := by
  induction rows with
  | nil => cases h
  | cons head rows ih =>
    obtain ⟨hnew, hrest⟩ := List.nodup_cons.mp hnodup
    rw [bindRows, List.map_cons]
    by_cases hport : mapping.2 ∈ head.ports
    · rw [List.find?_cons_of_pos (by simpa using hport)] at h
      obtain rfl := Option.some.inj h
      have hrows : rows.map (fun s => if s.serviceId = head.serviceId
          then boundService head mapping.1 mapping.2 else s) = rows :=
        (List.map_congr_left (g := id) fun s hs =>
          if_neg fun heq => hnew (List.mem_map.mpr ⟨s, hs, heq⟩)).trans (List.map_id rows)
      rw [if_pos hport, if_pos rfl, hrows]
    · rw [List.find?_cons_of_neg (by simpa using hport)] at h
      have hne : head.serviceId ≠ target.serviceId := fun heq =>
        hnew (List.mem_map.mpr ⟨target, List.mem_of_find?_eq_some h, heq.symm⟩)
      rw [if_neg hport, if_neg hne, ih hrest h]

/-- **What a binding does to the rows.** -/
theorem rows_bindMapping (registry : ServiceRegistry)
    (hnamed : NamedByPort inventory.node registry.rows) :
    (bindMapping inventory registry mapping).rows = bindRows inventory mapping registry.rows := by
  rw [bindMapping]
  cases hfind : findServiceByPort registry mapping.2 with
  | none =>
    have hfree : registry.find? (unknownPortId inventory.node mapping.2) = none := by
      refine Table.find?_eq_none.mpr fun s hs hid => ?_
      have hnone := List.find?_eq_none.mp hfind s hs
      rw [hnamed s hs mapping.2 hid] at hnone
      simp at hnone
    have hrows : bindRows inventory mapping registry.rows = _ := bindRows_of_find?_none hfind
    rw [hrows, Option.getD_none]
    exact Table.rows_upsert_new hfree
  | some target =>
    have hold : registry.find? target.serviceId ≠ none := by
      rw [Table.find?_of_mem (List.mem_of_find?_eq_some hfind)]
      exact nofun
    rw [bindRows_of_find?_some registry.nodup hfind, Option.getD_some]
    exact Table.rows_upsert_old hold

/-- The rows after all mappings. -/
theorem rows_bindReverseProxyDomains (registry : ServiceRegistry) (mappings : List (String × Int))
    (hnamed : NamedByPort inventory.node registry.rows) :
    (mappings.foldl (bindMapping inventory) registry).rows
      = mappings.foldl (fun rows mapping => bindRows inventory mapping rows) registry.rows := by
  induction mappings generalizing registry with
  | nil => rfl
  | cons mapping mappings ih =>
    rw [List.foldl_cons, ih _ (by rw [rows_bindMapping registry hnamed]; exact hnamed.bindRows),
      rows_bindMapping registry hnamed, List.foldl_cons]

/-- The rows after the mappings. -/
def bindAll (inventory : NodeInventory) (rows : List RegistryService)
    (mappings : List (String × Int)) : List RegistryService :=
  mappings.foldl (fun rows mapping => bindRows inventory mapping rows) rows

theorem bindAll_append (mappings : List (String × Int)) (mapping : String × Int) :
    bindAll inventory rows (mappings ++ [mapping])
      = bindRows inventory mapping (bindAll inventory rows mappings) := by
  rw [bindAll, List.foldl_append]
  rfl

/-! ## §3. The domains. -/

/-- No service owns a port of a later one with domains, and a service with a
domain has the port the domain was bound to. -/
structure BoundRows (mappings : List (String × Int)) (rows : List RegistryService) : Prop where
  first : rows.Pairwise fun a b => b.domains ≠ [] → ∀ port ∈ b.ports, port ∉ a.ports
  mapped : ∀ s ∈ rows, ∀ domain ∈ s.domains, ∃ port, (domain, port) ∈ mappings ∧ s.ports = [port]

theorem first_bindRows
    (h : rows.Pairwise fun a b => b.domains ≠ [] → ∀ port ∈ b.ports, port ∉ a.ports) :
    (bindRows inventory mapping rows).Pairwise
      fun a b => b.domains ≠ [] → ∀ port ∈ b.ports, port ∉ a.ports := by
  induction rows with
  | nil => exact List.pairwise_singleton _ _
  | cons head rows ih =>
    obtain ⟨hhead, hrows⟩ := List.pairwise_cons.mp h
    rw [bindRows]
    split
    · rename_i hport
      refine List.pairwise_cons.mpr ⟨fun b hb hdomains port hpb hmem => ?_, hrows⟩
      rw [List.mem_singleton.mp hmem] at hpb
      exact hhead b hb hdomains mapping.2 hpb hport
    · rename_i hport
      refine List.pairwise_cons.mpr ⟨fun b hb hdomains port hpb => ?_, ih hrows⟩
      rcases mem_bindRows hb with hb | ⟨target, -, -, rfl⟩ | rfl
      · exact hhead b hb hdomains port hpb
      · rwa [List.mem_singleton.mp hpb]
      · rwa [List.mem_singleton.mp hpb]

theorem BoundRows.bindRows (h : BoundRows mappings rows) :
    BoundRows (mappings ++ [mapping]) (bindRows inventory mapping rows) := by
  refine ⟨first_bindRows h.first, fun s hs domain hdomain => ?_⟩
  rcases mem_bindRows hs with hs | ⟨target, -, -, rfl⟩ | rfl
  · obtain ⟨port, hmem, hports⟩ := h.mapped s hs domain hdomain
    exact ⟨port, List.mem_append_left _ hmem, hports⟩
  · obtain rfl := List.mem_singleton.mp hdomain
    exact ⟨mapping.2, List.mem_append_right _ (List.mem_singleton_self _), rfl⟩
  · obtain rfl := List.mem_singleton.mp hdomain
    exact ⟨mapping.2, List.mem_append_right _ (List.mem_singleton_self _), rfl⟩

theorem BoundRows.bindAll (h : ∀ s ∈ rows, s.domains = []) (mappings : List (String × Int)) :
    BoundRows mappings (bindAll inventory rows mappings) := by
  induction mappings using List.reverseRecOn with
  | nil =>
    refine ⟨List.pairwise_iff_forall_sublist.mpr fun {a b} hab hdomains => ?_, fun s hs => ?_⟩
    · exact absurd (h b (hab.subset (by simp))) hdomains
    · rw [h s hs]
      exact nofun
  | append_singleton mappings mapping ih =>
    rw [bindAll_append]
    exact ih.bindRows

/-- The first service of the port is the one that is replaced. -/
theorem not_mem_ports_of_mem_bindRows {s : RegistryService}
    (h : rows.Pairwise fun a b => b.domains ≠ [] → ∀ port ∈ b.ports, port ∉ a.ports)
    (hs : s ∈ bindRows inventory mapping rows) (hdomains : s.domains ≠ [])
    (hne : s.domains ≠ [mapping.1]) : mapping.2 ∉ s.ports := by
  induction rows with
  | nil =>
    rw [List.mem_singleton.mp hs] at hne
    exact absurd rfl hne
  | cons head rows ih =>
    obtain ⟨hhead, hrows⟩ := List.pairwise_cons.mp h
    rw [bindRows] at hs
    split at hs
    · rename_i hport
      rcases List.mem_cons.mp hs with rfl | hs
      · exact absurd rfl hne
      · exact fun hmem => hhead s hs hdomains _ hmem hport
    · rename_i hport
      rcases List.mem_cons.mp hs with rfl | hs
      · exact hport
      · exact ih hrows hs

/-- The domains of the mappings are domains of services that own their ports. -/
def AllBound (mappings : List (String × Int)) (rows : List RegistryService) : Prop :=
  ∀ mapping ∈ mappings, ∃ s ∈ rows, mapping.1 ∈ s.domains ∧ mapping.2 ∈ s.ports

theorem allBound_bindRows (hrows : BoundRows mappings rows)
    (hnew : ∀ m ∈ mappings, m.1 ≠ mapping.1) :
    AllBound (mappings ++ [mapping]) (bindRows inventory mapping rows)
      ↔ AllBound mappings rows ∧ mapping.2 ∉ mappings.map Prod.snd := by
  have hown : ∀ m ∈ mappings, ∀ s ∈ bindRows inventory mapping rows, m.1 ∈ s.domains → s ∈ rows := by
    intro m hm s hs hdomain
    rcases mem_bindRows hs with hs | ⟨target, -, -, rfl⟩ | rfl
    · exact hs
    · exact absurd (List.mem_singleton.mp hdomain) (hnew m hm)
    · exact absurd (List.mem_singleton.mp hdomain) (hnew m hm)
  constructor
  · intro h
    refine ⟨fun m hm => ?_, fun hport => ?_⟩
    · obtain ⟨s, hs, hdomain, hmem⟩ := h m (List.mem_append_left _ hm)
      exact ⟨s, hown m hm s hs hdomain, hdomain, hmem⟩
    · obtain ⟨m, hm, hsame⟩ := List.mem_map.mp hport
      obtain ⟨s, hs, hdomain, hmem⟩ := h m (List.mem_append_left _ hm)
      refine not_mem_ports_of_mem_bindRows hrows.first hs (List.ne_nil_of_mem hdomain) ?_
        (hsame ▸ hmem)
      intro hdomains
      rw [hdomains] at hdomain
      exact hnew m hm (List.mem_singleton.mp hdomain)
  · rintro ⟨h, hport⟩ m hm
    rcases List.mem_append.mp hm with hm | hm
    · obtain ⟨s, hs, hdomain, hmem⟩ := h m hm
      obtain ⟨port, hmapped, hports⟩ := hrows.mapped s hs m.1 hdomain
      refine ⟨s, mem_bindRows_of_not_mem hs fun hmapping => hport ?_, hdomain, hmem⟩
      rw [hports] at hmapping
      exact List.mem_map.mpr ⟨_, hmapped, (List.mem_singleton.mp hmapping).symm⟩
    · obtain ⟨s, hs, hdomains, hports⟩ := bound_mem_bindRows inventory mapping rows
      obtain rfl := List.mem_singleton.mp hm
      exact ⟨s, hs, by simp [hdomains], by simp [hports]⟩

/-- **Every domain is bound** exactly when no two domains have one port. -/
theorem allBound_bindAll (h : ∀ s ∈ rows, s.domains = [])
    (hdomains : (mappings.map Prod.fst).Nodup) :
    AllBound mappings (bindAll inventory rows mappings) ↔ (mappings.map Prod.snd).Nodup := by
  induction mappings using List.reverseRecOn with
  | nil => exact ⟨fun _ => List.nodup_nil, fun _ => nofun⟩
  | append_singleton mappings mapping ih =>
    rw [List.map_append, List.map_singleton, List.nodup_append_comm, List.singleton_append,
      List.nodup_cons] at hdomains
    rw [bindAll_append, allBound_bindRows (BoundRows.bindAll h mappings)
      (fun m hm heq => hdomains.1 (List.mem_map.mpr ⟨m, hm, heq⟩)), ih hdomains.2, List.map_append,
      List.map_singleton, List.nodup_append_comm, List.singleton_append, List.nodup_cons, and_comm]

/-! ## §4. The ports. -/

/-- What bindings may make of a service. -/
structure Narrowed (s s' : RegistryService) : Prop where
  serviceId : s'.serviceId = s.serviceId
  ports : s'.ports = s.ports ∨ ∃ port ∈ s.ports, s'.ports = [port]
  warnings : s'.warnings ⊆ s.warnings

theorem Narrowed.subset {s s' : RegistryService} (h : Narrowed s s') : s'.ports ⊆ s.ports := by
  rcases h.ports with heq | ⟨port, hport, heq⟩
  · rw [heq]
    exact List.Subset.refl s.ports
  · rw [heq]
    simpa using hport

theorem Narrowed.singleton {s s' : RegistryService} {port : Int} (h : Narrowed s s')
    (hs : s.ports = [port]) : s'.ports = [port] := by
  rcases h.ports with heq | ⟨q, hq, heq⟩
  · rw [heq, hs]
  · rw [hs] at hq
    rw [heq, List.mem_singleton.mp hq]

theorem Narrowed.refl (s : RegistryService) : Narrowed s s := ⟨rfl, Or.inl rfl, List.Subset.refl _⟩

theorem Narrowed.trans {s s' s'' : RegistryService} (h : Narrowed s s') (h' : Narrowed s' s'') :
    Narrowed s s'' := by
  refine ⟨h'.serviceId.trans h.serviceId, ?_, List.Subset.trans h'.warnings h.warnings⟩
  rcases h'.ports with heq | ⟨port, hport, heq⟩
  · rw [heq]
    exact h.ports
  · exact Or.inr ⟨port, h.subset hport, heq⟩

theorem narrowed_bindRows (h : service ∈ rows) :
    ∃ s ∈ bindRows inventory mapping rows, Narrowed service s := by
  induction rows with
  | nil => cases h
  | cons head rows ih =>
    rw [bindRows]
    rcases List.mem_cons.mp h with rfl | h
    · split
      · rename_i hport
        exact ⟨_, List.mem_cons_self, rfl, Or.inr ⟨mapping.2, hport, rfl⟩, List.nil_subset _⟩
      · exact ⟨service, List.mem_cons_self, Narrowed.refl service⟩
    · split
      · exact ⟨service, List.mem_cons_of_mem _ h, Narrowed.refl service⟩
      · obtain ⟨s, hs, hnarrowed⟩ := ih h
        exact ⟨s, List.mem_cons_of_mem _ hs, hnarrowed⟩

/-- **Bindings only take away.** -/
theorem narrowed_bindAll (mappings : List (String × Int)) (h : service ∈ rows) :
    ∃ s ∈ bindAll inventory rows mappings, Narrowed service s := by
  induction mappings generalizing rows service with
  | nil => exact ⟨service, h, Narrowed.refl service⟩
  | cons mapping mappings ih =>
    obtain ⟨s, hs, hnarrowed⟩ := @narrowed_bindRows inventory mapping _ _ h
    obtain ⟨s', hs', hnarrowed'⟩ := ih hs
    exact ⟨s', hs', hnarrowed.trans hnarrowed'⟩

/-- A service without ports stays as it is. -/
theorem mem_bindAll_of_ports_nil (mappings : List (String × Int)) (h : service ∈ rows)
    (hports : service.ports = []) : service ∈ bindAll inventory rows mappings := by
  induction mappings generalizing rows with
  | nil => exact h
  | cons mapping mappings ih =>
    exact ih (mem_bindRows_of_not_mem h (by rw [hports]; exact List.not_mem_nil))

/-- The ports of every service are kept. -/
def KeepsPorts (rows rows' : List RegistryService) : Prop :=
  ∀ s ∈ rows, ∃ s' ∈ rows', s'.serviceId = s.serviceId ∧ s.ports ⊆ s'.ports

/-- The first service of the port, if any, has no other port. -/
def SolePort (rows : List RegistryService) (port : Int) : Prop :=
  ∀ s, rows.find? (fun s => port ∈ s.ports) = some s → s.ports = [port]

theorem solePort_cons_of_mem {head : RegistryService} {port : Int} (h : port ∈ head.ports) :
    SolePort (head :: rows) port ↔ head.ports = [port] := by
  rw [SolePort, List.find?_cons_of_pos (by simpa using h)]
  exact ⟨fun hsole => hsole head rfl, fun heq s hs => Option.some.inj hs ▸ heq⟩

theorem solePort_cons_of_not_mem {head : RegistryService} {port : Int} (h : port ∉ head.ports) :
    SolePort (head :: rows) port ↔ SolePort rows port := by
  rw [SolePort, List.find?_cons_of_neg (by simpa using h), SolePort]

/-- The binding of a port that is the only one of its service is no loss for
the others. -/
theorem solePort_bindRows (h : SolePort rows mapping.2) (port : Int) :
    SolePort (bindRows inventory mapping rows) port ↔ SolePort rows port := by
  induction rows with
  | nil =>
    refine ⟨fun _ _ => nofun, fun _ => ?_⟩
    by_cases hport : port = mapping.2
    · rw [bindRows, solePort_cons_of_mem (by simp [boundService, hport]), hport]
      rfl
    · rw [bindRows, solePort_cons_of_not_mem (by simpa [boundService] using hport)]
      exact fun _ => nofun
  | cons head rows ih =>
    rw [bindRows]
    by_cases hmapped : mapping.2 ∈ head.ports
    · rw [if_pos hmapped]
      have hports : head.ports = [mapping.2] := (solePort_cons_of_mem hmapped).mp h
      by_cases hport : port ∈ head.ports
      · rw [solePort_cons_of_mem hport, solePort_cons_of_mem (by rwa [hports] at hport), hports]
        rfl
      · rw [solePort_cons_of_not_mem hport, solePort_cons_of_not_mem (by rwa [hports] at hport)]
    · rw [if_neg hmapped]
      have hsole := (solePort_cons_of_not_mem hmapped).mp h
      by_cases hport : port ∈ head.ports
      · rw [solePort_cons_of_mem hport, solePort_cons_of_mem hport]
      · rw [solePort_cons_of_not_mem hport, solePort_cons_of_not_mem hport, ih hsole]

theorem keepsPorts_bindRows (h : SolePort rows mapping.2) :
    KeepsPorts rows (bindRows inventory mapping rows) := by
  induction rows with
  | nil => exact nofun
  | cons head rows ih =>
    rw [bindRows]
    by_cases hmapped : mapping.2 ∈ head.ports
    · rw [if_pos hmapped]
      have hports : head.ports = [mapping.2] := (solePort_cons_of_mem hmapped).mp h
      intro s hs
      rcases List.mem_cons.mp hs with rfl | hs
      · exact ⟨_, List.mem_cons_self, rfl, hports ▸ List.Subset.refl _⟩
      · exact ⟨s, List.mem_cons_of_mem _ hs, rfl, List.Subset.refl _⟩
    · rw [if_neg hmapped]
      intro s hs
      rcases List.mem_cons.mp hs with rfl | hs
      · exact ⟨s, List.mem_cons_self, rfl, List.Subset.refl _⟩
      · obtain ⟨s', hs', hkept⟩ := ih ((solePort_cons_of_not_mem hmapped).mp h) s hs
        exact ⟨s', List.mem_cons_of_mem _ hs', hkept⟩

theorem KeepsPorts.trans {rows' rows'' : List RegistryService} (h : KeepsPorts rows rows')
    (h' : KeepsPorts rows' rows'') : KeepsPorts rows rows'' := by
  intro s hs
  obtain ⟨s', hs', hid, hports⟩ := h s hs
  obtain ⟨s'', hs'', hid', hports'⟩ := h' s' hs'
  exact ⟨s'', hs'', hid'.trans hid, List.Subset.trans hports hports'⟩

theorem bound_mem_of_find? {target : RegistryService}
    (h : rows.find? (fun s => mapping.2 ∈ s.ports) = some target) :
    boundService target mapping.1 mapping.2 ∈ bindRows inventory mapping rows := by
  induction rows with
  | nil => cases h
  | cons head rows ih =>
    rw [bindRows]
    by_cases hmapped : mapping.2 ∈ head.ports
    · rw [List.find?_cons_of_pos (by simpa using hmapped)] at h
      rw [if_pos hmapped, Option.some.inj h]
      exact List.mem_cons_self
    · rw [List.find?_cons_of_neg (by simpa using hmapped)] at h
      rw [if_neg hmapped]
      exact List.mem_cons_of_mem _ (ih h)

theorem nodup_bindRows (h : ∀ s ∈ rows, s.ports.Nodup) :
    ∀ s ∈ bindRows inventory mapping rows, s.ports.Nodup := by
  intro s hs
  rcases mem_bindRows hs with hs | ⟨target, -, -, rfl⟩ | rfl
  · exact h s hs
  · exact List.nodup_singleton _
  · exact List.nodup_singleton _

theorem eq_singleton_of_subset {ports : List Int} {port : Int} (hnodup : ports.Nodup)
    (hmem : port ∈ ports) (h : ports ⊆ [port]) : ports = [port] :=
  List.perm_singleton.mp ((List.perm_ext_iff_of_nodup hnodup (List.nodup_singleton port)).mpr
    fun _ => ⟨fun hq => h hq, fun hq => List.mem_singleton.mp hq ▸ hmem⟩)

/-- **All ports are kept** exactly when no domain is bound to a service with
another port. -/
theorem keepsPorts_bindAll (hnodup : ∀ s ∈ rows, s.ports.Nodup)
    (hids : ((bindAll inventory rows mappings).map RegistryService.serviceId).Nodup) :
    KeepsPorts rows (bindAll inventory rows mappings) ↔ ∀ m ∈ mappings, SolePort rows m.2 := by
  induction mappings generalizing rows with
  | nil =>
    exact ⟨fun _ => nofun, fun _ s hs => ⟨s, hs, rfl, List.Subset.refl s.ports⟩⟩
  | cons mapping mappings ih =>
    have hrest := @ih (bindRows inventory mapping rows) (nodup_bindRows hnodup) hids
    rw [List.forall_mem_cons]
    constructor
    · intro h
      have hsole : SolePort rows mapping.2 := by
        intro s hs
        have hmem := List.mem_of_find?_eq_some hs
        obtain ⟨bound, hbound, hnarrowed⟩ := narrowed_bindAll mappings
          (@bound_mem_of_find? inventory _ _ _ hs)
        obtain ⟨kept, hkept, hid, hports⟩ := h s hmem
        obtain rfl := List.inj_on_of_nodup_map hids hkept hbound
          (hid.trans hnarrowed.serviceId.symm)
        rw [hnarrowed.singleton rfl] at hports
        exact eq_singleton_of_subset (hnodup s hmem) (by simpa using List.find?_some hs) hports
      refine ⟨hsole, fun m hm => (solePort_bindRows hsole m.2).mp (hrest.mp ?_ m hm)⟩
      intro s hs
      rcases mem_bindRows hs with hrow | ⟨target, htarget, hmapped, rfl⟩ | rfl
      · exact h s hrow
      · obtain ⟨kept, hkept, hid, hports⟩ := h target htarget
        exact ⟨kept, hkept, hid, by simpa [boundService] using hports hmapped⟩
      · obtain ⟨kept, hkept, hnarrowed⟩ := narrowed_bindAll mappings hs
        refine ⟨kept, hkept, hnarrowed.serviceId, ?_⟩
        rw [hnarrowed.singleton rfl]
        exact List.Subset.refl _
    · rintro ⟨hsole, hothers⟩
      exact (keepsPorts_bindRows hsole).trans
        (hrest.mpr fun m hm => (solePort_bindRows hsole m.2).mpr (hothers m hm))

/-! ## §5. The services added afterwards. -/

/-- Identifiers of different kinds are different. -/
theorem id_ne {p q : String} (h : ¬ p.toList <+: q.toList ∧ ¬ q.toList <+: p.toList)
    (node x y : String) : node ++ p ++ x ≠ node ++ q ++ y := by
  intro heq
  rw [String.append_assoc, String.append_assoc, String.append_right_inj, String.ext_iff,
    String.toList_append, String.toList_append] at heq
  have hp : p.toList <+: q.toList ++ y.toList := heq ▸ List.prefix_append _ _
  rcases List.prefix_or_prefix_of_prefix hp (List.prefix_append _ y.toList) with hpq | hqp
  · exact h.1 hpq
  · exact h.2 hqp

theorem docker_ne_systemd (node x y : String) :
    dockerServiceId node x ≠ systemdServiceId node y := id_ne (by decide) node x y

theorem docker_ne_unknownPort (node x : String) (port : Int) :
    dockerServiceId node x ≠ unknownPortId node port := id_ne (by decide) node x _

theorem docker_ne_unknownDomain (node x y : String) :
    dockerServiceId node x ≠ unknownDomainId node y := id_ne (by decide) node x y

theorem unknownPort_ne_systemd (node y : String) (port : Int) :
    unknownPortId node port ≠ systemdServiceId node y := id_ne (by decide) node _ y

theorem unknownPort_ne_unknownDomain (node y : String) (port : Int) :
    unknownPortId node port ≠ unknownDomainId node y := id_ne (by decide) node _ y

/-- The services are those of containers and of ports. -/
def KnownIds (node : String) (rows : List RegistryService) : Prop :=
  ∀ s ∈ rows, (∃ name, s.serviceId = dockerServiceId node name)
    ∨ ∃ port, s.serviceId = unknownPortId node port ∧ s.ports = [port]

theorem KnownIds.bindRows (h : KnownIds inventory.node rows) :
    KnownIds inventory.node (bindRows inventory mapping rows) := by
  intro s hs
  rcases mem_bindRows hs with hs | ⟨target, htarget, hmapped, rfl⟩ | rfl
  · exact h s hs
  · refine (h target htarget).imp id ?_
    rintro ⟨port, hid, hports⟩
    rw [hports] at hmapped
    exact ⟨port, hid, by rw [← List.mem_singleton.mp hmapped]; rfl⟩
  · exact Or.inr ⟨mapping.2, rfl, rfl⟩

theorem KnownIds.bindAll (h : KnownIds inventory.node rows) (mappings : List (String × Int)) :
    KnownIds inventory.node (bindAll inventory rows mappings) := by
  induction mappings generalizing rows with
  | nil => exact h
  | cons mapping mappings ih => exact ih h.bindRows

theorem KnownIds.namedByPort {node : String} (h : KnownIds node rows) : NamedByPort node rows := by
  intro s hs port hid
  rcases h s hs with ⟨name, hdocker⟩ | ⟨q, hunknown, hports⟩
  · exact absurd (hdocker.symm.trans hid) (docker_ne_unknownPort node name port)
  · rw [hports, unknownPortId_inj.mp (hunknown.symm.trans hid)]

/-- A service that is not one of a container, with no domain or no port. -/
def AddedLater (node : String) (s : RegistryService) : Prop :=
  (∀ name, s.serviceId ≠ dockerServiceId node name) ∧ (s.domains = [] ∨ s.ports = [])

theorem systemdServices_added : ∀ s ∈ systemdServices inventory,
    AddedLater inventory.node s ∧ ∃ name, s.serviceId = systemdServiceId inventory.node name := by
  intro s hs
  obtain ⟨unit, -, rfl⟩ := List.mem_map.mp hs
  exact ⟨⟨fun name => (docker_ne_systemd _ name _).symm, Or.inl rfl⟩, unit.name, rfl⟩

theorem listenerServices_added {claimedPorts : List Int} :
    ∀ s ∈ listenerServices inventory claimedPorts, AddedLater inventory.node s
      ∧ ∃ port, port ∉ claimedPorts ∧ s.serviceId = unknownPortId inventory.node port := by
  intro s hs
  obtain ⟨listener, hlistener, rfl⟩ := List.mem_map.mp hs
  have hfree := (of_decide_eq_true (List.mem_filter.mp hlistener).2).2
  exact ⟨⟨fun name => (docker_ne_unknownPort _ name _).symm, Or.inl rfl⟩, listener.port, hfree, rfl⟩

theorem domainServices_added {knownDomains : List String} :
    ∀ s ∈ domainServices inventory knownDomains, AddedLater inventory.node s
      ∧ ∃ domain, s.serviceId = unknownDomainId inventory.node domain := by
  intro s hs
  obtain ⟨domain, -, rfl⟩ := List.mem_map.mp hs
  exact ⟨⟨fun name => (docker_ne_unknownDomain _ name _).symm, Or.inr rfl⟩, domain, rfl⟩

/-- The services of the containers. -/
def containerRows (inventory : NodeInventory) : List RegistryService :=
  (namedContainers inventory).rows.map (serviceOf inventory.node)

/-- The services after the domains were bound. -/
def boundRows (inventory : NodeInventory) : List RegistryService :=
  bindAll inventory (containerRows inventory) inventory.reverseProxyMappings.rows

theorem knownIds_boundRows (inventory : NodeInventory) :
    KnownIds inventory.node (boundRows inventory) := by
  refine KnownIds.bindAll (fun s hs => ?_) _
  obtain ⟨container, -, rfl⟩ := List.mem_map.mp hs
  exact Or.inl ⟨container.name, rfl⟩

theorem rows_boundRows (inventory : NodeInventory) :
    (bindReverseProxyDomains inventory (.ofList
      (inventory.containers.map (serviceOf inventory.node)))).rows = boundRows inventory := by
  rw [bindReverseProxyDomains, rows_bindReverseProxyDomains, rows_containers]
  · rfl
  · rw [rows_containers]
    refine KnownIds.namedByPort fun s hs => ?_
    obtain ⟨container, -, rfl⟩ := List.mem_map.mp hs
    exact Or.inl ⟨container.name, rfl⟩

theorem nodup_boundRows (inventory : NodeInventory) :
    ((boundRows inventory).map RegistryService.serviceId).Nodup := by
  rw [← rows_boundRows]
  exact Table.nodup _

/-- **What the discovery returns**: the services after the domains were bound,
and services added later. -/
theorem discoverServices_eq_ok {registry : ServiceRegistry}
    (h : discoverServices inventory = .ok registry) :
    (∀ s ∈ boundRows inventory, s ∈ registry.rows)
      ∧ ∀ s ∈ registry.rows, s ∈ boundRows inventory ∨ AddedLater inventory.node s := by
  obtain ⟨services, hservices, h⟩ := bind_eq_ok.mp h
  obtain rfl := mapM_serviceFromContainer hservices
  have hrows := rows_boundRows inventory
  obtain rfl := pure_eq_ok.mp h
  constructor
  · intro s hs
    have hknown := knownIds_boundRows inventory s hs
    refine Table.mem_foldl_upsert_of_ne (Table.mem_foldl_upsert_of_ne (hrows ▸ hs) ?_) ?_
    · intro r hr
      rcases List.mem_append.mp hr with hr | hr
      · obtain ⟨-, name, hid⟩ := systemdServices_added r hr
        rw [hid]
        rcases hknown with ⟨x, hs⟩ | ⟨port, hs, -⟩
        · rw [hs]
          exact docker_ne_systemd _ x name
        · rw [hs]
          exact unknownPort_ne_systemd _ name port
      · obtain ⟨-, port, hfree, hid⟩ := listenerServices_added r hr
        rw [hid]
        rcases hknown with ⟨x, hs'⟩ | ⟨q, hs', hports⟩
        · rw [hs']
          exact docker_ne_unknownPort _ x port
        · rw [hs']
          intro heq
          refine hfree (List.mem_flatMap.mpr ⟨s, List.mem_append_right _ ?_, ?_⟩)
          · rw [ServiceRegistry.listServices, hrows]
            exact hs
          rw [hports, unknownPortId_inj.mp heq]
          exact List.mem_singleton_self port
    · intro r hr
      obtain ⟨-, domain, hid⟩ := domainServices_added r hr
      rw [hid]
      rcases hknown with ⟨x, hs⟩ | ⟨port, hs, -⟩
      · rw [hs]
        exact docker_ne_unknownDomain _ x domain
      · rw [hs]
        exact unknownPort_ne_unknownDomain _ domain port
  · intro s hs
    rcases Table.mem_foldl_upsert hs with hs | hs
    · rcases Table.mem_foldl_upsert hs with hs | hs
      · exact Or.inl (hrows ▸ hs)
      · rcases List.mem_append.mp hs with hs | hs
        · exact Or.inr (systemdServices_added s hs).1
        · exact Or.inr (listenerServices_added s hs).1
    · exact Or.inr (domainServices_added s hs).1

/-! ## §6. Nothing is lost. -/

/-- Every domain of the reverse proxy is a domain of a service that owns its
upstream port, and the service of every container has all its published ports
and its warning. -/
structure KeepsInventory (inventory : NodeInventory) (services : List RegistryService) : Prop where
  domains : AllBound inventory.reverseProxyMappings.rows services
  containers : ∀ c ∈ inventory.containers, ∃ s ∈ services,
    s.serviceId = dockerServiceId inventory.node c.name ∧ published c ⊆ s.ports
      ∧ (published c = [] → noPublishedPorts c.name ∈ s.warnings)

/-- The inventories whose bindings do not get in each other's way. -/
structure Unentangled (inventory : NodeInventory) : Prop where
  /-- Every published port is small enough to be read. -/
  readable : ∀ c ∈ inventory.containers, ∃ ports, containerHostPorts c = .ok ports
  /-- No two domains have one upstream port. -/
  onePerPort : (inventory.reverseProxyMappings.rows.map Prod.snd).Nodup
  /-- The first container of an upstream port publishes no other port. -/
  solePort : ∀ m ∈ inventory.reverseProxyMappings.rows, ∀ c,
    (namedContainers inventory).rows.find? (fun c => m.2 ∈ published c) = some c →
      published c = [m.2]
  /-- The last container of a name publishes what the others of that name do. -/
  lastOfName : ∀ c ∈ inventory.containers, ∀ last,
    (namedContainers inventory).find? c.name = some last →
      published c ⊆ published last ∧ (published c = [] → published last = [])

theorem keepsInventory_bound_iff {registry : ServiceRegistry}
    (h : discoverServices inventory = .ok registry) :
    KeepsInventory inventory registry.listServices ↔ KeepsInventory inventory (boundRows inventory) := by
  obtain ⟨hkept, hadded⟩ := discoverServices_eq_ok h
  constructor
  · rintro ⟨hdomains, hcontainers⟩
    refine ⟨fun m hm => ?_, fun c hc => ?_⟩
    · obtain ⟨s, hs, hdomain, hport⟩ := hdomains m hm
      rcases hadded s hs with hs | ⟨-, hnil | hnil⟩
      · exact ⟨s, hs, hdomain, hport⟩
      · rw [hnil] at hdomain
        cases hdomain
      · rw [hnil] at hport
        cases hport
    · obtain ⟨s, hs, hid, hkeeps⟩ := hcontainers c hc
      rcases hadded s hs with hs | ⟨hother, -⟩
      · exact ⟨s, hs, hid, hkeeps⟩
      · exact absurd hid (hother c.name)
  · rintro ⟨hdomains, hcontainers⟩
    refine ⟨fun m hm => ?_, fun c hc => ?_⟩
    · obtain ⟨s, hs, hbound⟩ := hdomains m hm
      exact ⟨s, hkept s hs, hbound⟩
    · obtain ⟨s, hs, hkeeps⟩ := hcontainers c hc
      exact ⟨s, hkept s hs, hkeeps⟩

theorem solePort_containerRows {port : Int} : SolePort (containerRows inventory) port ↔
    ∀ c, (namedContainers inventory).rows.find? (fun c => port ∈ published c) = some c →
      published c = [port] := by
  have hfind : (containerRows inventory).find? (fun s => port ∈ s.ports)
      = ((namedContainers inventory).rows.find? (fun c => port ∈ published c)).map
        (serviceOf inventory.node) := by
    rw [containerRows, List.find?_map]
    rfl
  constructor
  · intro h c hc
    exact h (serviceOf inventory.node c) (by rw [hfind, hc]; rfl)
  · intro h s hs
    rw [hfind] at hs
    obtain ⟨c, hc, rfl⟩ := Option.map_eq_some_iff.mp hs
    exact h c hc

/-- The containers are kept when every service keeps its ports, and the last of
a name stands for the others. -/
theorem containers_kept_iff (inventory : NodeInventory) :
    (∀ c ∈ inventory.containers, ∃ s ∈ boundRows inventory,
      s.serviceId = dockerServiceId inventory.node c.name ∧ published c ⊆ s.ports
        ∧ (published c = [] → noPublishedPorts c.name ∈ s.warnings)) ↔
      KeepsPorts (containerRows inventory) (boundRows inventory)
      ∧ ∀ c ∈ inventory.containers, ∀ last, (namedContainers inventory).find? c.name = some last →
        published c ⊆ published last ∧ (published c = [] → published last = []) := by
  constructor
  · intro h
    refine ⟨fun s hs => ?_, fun c hc last hlast => ?_⟩
    · obtain ⟨c, hc, rfl⟩ := List.mem_map.mp hs
      rcases Table.mem_foldl_upsert hc with hnil | hc
      · cases hnil
      · obtain ⟨kept, hkept, hid, hports, -⟩ := h c hc
        exact ⟨kept, hkept, hid, hports⟩
    · obtain ⟨hmem, hname⟩ := Table.find?_eq_some.mp hlast
      obtain ⟨s, hs, hnarrowed⟩ := @narrowed_bindAll inventory _ _
        inventory.reverseProxyMappings.rows
        (List.mem_map_of_mem (f := serviceOf inventory.node) hmem)
      obtain ⟨kept, hkept, hid, hports, hwarning⟩ := h c hc
      have hsame : kept.serviceId = s.serviceId := by
        rw [hid, hnarrowed.serviceId, ← hname]
        rfl
      obtain rfl := List.inj_on_of_nodup_map (nodup_boundRows inventory) hkept hs hsame
      refine ⟨List.Subset.trans hports hnarrowed.subset, fun hnil => ?_⟩
      have hwarned := hnarrowed.warnings (hwarning hnil)
      by_contra hne
      simp [serviceOf, containerService, hne] at hwarned
  · rintro ⟨hkeeps, hlasts⟩ c hc
    obtain ⟨last, hlast⟩ := Table.exists_find?_foldl_upsert
      (t := (.empty : Table ContainerRecord.name)) (Or.inr ⟨c, hc, rfl⟩)
    obtain ⟨hmem, hname⟩ := Table.find?_eq_some.mp hlast
    obtain ⟨hsubset, hnone⟩ := hlasts c hc last hlast
    have hrow := List.mem_map_of_mem (f := serviceOf inventory.node) hmem
    by_cases hnil : published c = []
    · have hlastNil := hnone hnil
      refine ⟨_, mem_bindAll_of_ports_nil _ hrow hlastNil, ?_, ?_, fun _ => ?_⟩
      · rw [← hname]
        rfl
      · rw [hnil]
        exact List.nil_subset _
      · simp [serviceOf, containerService, hlastNil, hname]
    · obtain ⟨s, hs, hid, hports⟩ := hkeeps _ hrow
      refine ⟨s, hs, ?_, List.Subset.trans hsubset hports, fun h => absurd h hnil⟩
      rw [hid, ← hname]
      rfl

/-- **Inventory discovery loses no binding** exactly when the bindings do not
get in each other's way. -/
theorem inventory_bindings_kept_iff (inventory : NodeInventory) :
    (∃ registry, discoverServices inventory = .ok registry
      ∧ KeepsInventory inventory registry.listServices) ↔ Unentangled inventory := by
  have hbound : AllBound inventory.reverseProxyMappings.rows (boundRows inventory)
      ↔ (inventory.reverseProxyMappings.rows.map Prod.snd).Nodup := by
    refine allBound_bindAll (fun s hs => ?_) inventory.reverseProxyMappings.nodup
    obtain ⟨container, -, rfl⟩ := List.mem_map.mp hs
    rfl
  have hports : KeepsPorts (containerRows inventory) (boundRows inventory)
      ↔ ∀ m ∈ inventory.reverseProxyMappings.rows, SolePort (containerRows inventory) m.2 := by
    refine keepsPorts_bindAll (fun s hs => ?_) (nodup_boundRows inventory)
    obtain ⟨container, -, rfl⟩ := List.mem_map.mp hs
    exact (sorted_published container).imp ne_of_lt
  constructor
  · rintro ⟨registry, hok, hkeeps⟩
    obtain ⟨hdomains, hcontainers⟩ := (keepsInventory_bound_iff hok).mp hkeeps
    obtain ⟨hkept, hlast⟩ := (containers_kept_iff inventory).mp hcontainers
    refine ⟨fun c hc => ?_, hbound.mp hdomains,
      fun m hm => solePort_containerRows.mp (hports.mp hkept m hm), hlast⟩
    obtain ⟨services, hservices, -⟩ := bind_eq_ok.mp hok
    obtain ⟨service, -, hservice⟩ := exists_right (mapM_eq_ok.mp hservices) hc
    obtain ⟨ports, hread, -⟩ := bind_eq_ok.mp hservice
    exact ⟨ports, hread⟩
  · rintro ⟨hreadable, hone, hsole, hlast⟩
    obtain ⟨services, hservices⟩ := @mapM_total _ _ _ (serviceFromContainer inventory.node)
      inventory.containers fun c hc => by
        obtain ⟨ports, hread⟩ := hreadable c hc
        exact ⟨_, bind_eq_ok.mpr ⟨ports, hread, rfl⟩⟩
    obtain ⟨registry, hok⟩ : ∃ registry, discoverServices inventory = .ok registry :=
      ⟨_, bind_eq_ok.mpr ⟨services, hservices, rfl⟩⟩
    refine ⟨registry, hok, (keepsInventory_bound_iff hok).mpr ⟨hbound.mpr hone, ?_⟩⟩
    exact (containers_kept_iff inventory).mpr
      ⟨hports.mpr fun m hm => solePort_containerRows.mpr (hsole m hm), hlast⟩

/-- A node with two domains on the port of one container. -/
def sharedPort : NodeInventory where
  node := "node-a"
  containers := [⟨"web", "nginx:1.27", ["0.0.0.0:8080->80/tcp"]⟩]
  reverseProxyMappings := ⟨[("a.example.com", 8080), ("b.example.com", 8080)], by decide⟩

theorem first_domain_lost : ¬ ∃ registry, discoverServices sharedPort = .ok registry
    ∧ KeepsInventory sharedPort registry.listServices := by
  rintro ⟨registry, hok, hkeeps⟩
  have hafter : (discoverServices sharedPort).toOption.map
      (fun registry => registry.rows.map fun s => (s.serviceId, s.domains, s.ports))
        = some [("node-a:docker:web", ["b.example.com"], [8080])] := by
    decide +kernel
  rw [hok] at hafter
  have hrows : registry.rows.map (fun s => (s.serviceId, s.domains, s.ports)) = _ :=
    Option.some.inj hafter
  obtain ⟨s, hs, hdomain, -⟩ := hkeeps.domains ("a.example.com", 8080) List.mem_cons_self
  have hmem := List.mem_map_of_mem (f := fun s : RegistryService =>
    (s.serviceId, s.domains, s.ports)) hs
  rw [ServiceRegistry.listServices, hrows, List.mem_singleton] at hmem
  rw [(Prod.mk.inj (Prod.mk.inj hmem).2).1] at hdomain
  revert hdomain
  decide

end Hmn
