/-
  Hmn.Services.Registry — the service registry, and the view of it that the
  database gives.

  The planners work on the records of a registry.  Where no registry file is
  given the records come from the table of services: a monitor is put
  together from the metadata, and what the registry keeps of the metadata is
  sanitized.
-/
import Hmn.Docs.Redact
import Hmn.Services.Records

namespace Hmn

open Framework

/-! ## §1. The registry. -/

/-- `service_registry.ServiceRecord`. -/
structure RegistryService where
  serviceId : String
  name : String
  node : String
  kind : String
  domains : List String := []
  ports : List Int := []
  runtime : Option String := some ""
  deployPath : String := ""
  configPaths : List String := []
  envPaths : List String := []
  dataPaths : List String := []
  healthCheckUrl : String := ""
  source : String := "manual"
  docsPath : Option String := some ""
  monitor : Dict := []
  warnings : List String := []
  metadata : Dict := []
  deriving DecidableEq

/-- `ServiceRegistry`: a record for each identifier. -/
abbrev ServiceRegistry := Table RegistryService.serviceId

/-- `ServiceRegistry(services)`. -/
def ServiceRegistry.ofList (services : List RegistryService) : ServiceRegistry :=
  services.foldl Table.upsert .empty

/-- `registry.list_services()`. -/
def ServiceRegistry.listServices (registry : ServiceRegistry) : List RegistryService :=
  registry.rows

/-! ## §2. The registry of the database. -/

/-- `dict(d.get(key) or {}) if isinstance(d.get(key), dict) else {}`. -/
def dictAt (d : Dict) (key : String) : Dict :=
  match d.get? key with
  | some (.obj kvs) => kvs
  | _ => []

/-- `_provider_specs_from_metadata`. -/
def providerSpecsFromMetadata (metadata : Dict) : Dict :=
  [dictAt metadata "providers", dictAt (dictAt metadata "deploy") "providers",
    dictAt (dictAt metadata "monitor") "providers"].foldl Dict.merge []

/-- `sanitized_metadata`, with the URL of the health check. -/
def monitorMetadata (alnum : Char → Bool) (record : ServiceRecord) : Dict :=
  let sanitized : Dict := sanitizeFields alnum record.metadata
  if record.healthCheckUrl ≠ "" then sanitized.set "health_check_url" (.str record.healthCheckUrl)
  else sanitized

/-- `_monitor_payload_from_storage`. -/
def monitorPayloadFromStorage (alnum : Char → Bool) (record : ServiceRecord) : Dict :=
  let monitor := dictAt record.metadata "monitor"
  let providers := providerSpecsFromMetadata record.metadata
  let monitor :=
    if providers ≠ [] then
      monitor.set "providers" (.obj (Dict.merge (dictAt monitor "providers") providers))
    else monitor
  let monitor := setDefault monitor "enabled" (.bool record.monitorEnabled)
  let monitor := monitor.set "registry_status" (.str record.status)
  monitor.set "metadata" (.obj (monitorMetadata alnum record))

/-- `service_record_from_storage`. -/
def serviceRecordFromStorage (alnum : Char → Bool) (record : ServiceRecord) : RegistryService where
  serviceId := record.serviceId
  name := record.name
  node := record.nodeId
  kind := record.kind
  domains := record.domains
  ports := record.ports
  runtime := some record.runtime
  deployPath := record.deployPath
  configPaths := record.configPaths
  envPaths := record.envPaths
  dataPaths := record.dataPaths
  healthCheckUrl := record.healthCheckUrl
  source := record.source
  docsPath := some record.docsPath
  monitor := monitorPayloadFromStorage alnum record
  warnings :=
    match record.metadata.get? "warnings" with
    | some (.arr warnings) => warnings.map Json.asStr
    | _ => []
  metadata := sanitizeFields alnum record.metadata

/-- `registry_from_storage_records`. -/
def registryFromStorageRecords (alnum : Char → Bool) (records : List ServiceRecord) :
    ServiceRegistry :=
  ServiceRegistry.ofList (records.map (serviceRecordFromStorage alnum))

/-- `list_service_records()`. -/
def ServiceTable.listServiceRecords (services : ServiceTable) : List ServiceRecord :=
  services.rows.insertionSort (fun a b => a.serviceId ≤ b.serviceId)

/-! ## §3. Which services a registry holds. -/

theorem mem_ofList_aux (services : List RegistryService) (registry : ServiceRegistry)
    (hnodup : (registry.rows.map RegistryService.serviceId
      ++ services.map RegistryService.serviceId).Nodup) :
    (services.foldl Table.upsert registry).rows = registry.rows ++ services := by
  induction services generalizing registry with
  | nil => simp
  | cons service services ih =>
    have hfree : registry.find? service.serviceId = none := by
      refine Table.find?_eq_none.mpr (fun r hr heq => ?_)
      rw [List.map_cons, List.nodup_append] at hnodup
      exact hnodup.2.2 _ (List.mem_map.mpr ⟨r, hr, rfl⟩) _ List.mem_cons_self heq
    have hrows : (registry.upsert service).rows = registry.rows ++ [service] :=
      Table.rows_upsert_new hfree
    rw [List.foldl_cons, ih _ (by rw [hrows]; simpa using hnodup), hrows, List.append_assoc,
      List.singleton_append]

/-- **Records of different services are all listed**, in their order. -/
theorem listServices_ofList {services : List RegistryService}
    (h : (services.map RegistryService.serviceId).Nodup) :
    (ServiceRegistry.ofList services).listServices = services :=
  (mem_ofList_aux services .empty (by simpa using h)).trans (List.nil_append services)

/-- The registry of the database lists every stored service. -/
theorem listServices_fromStorage (alnum : Char → Bool) (services : ServiceTable) :
    (registryFromStorageRecords alnum services.listServiceRecords).listServices
      = services.listServiceRecords.map (serviceRecordFromStorage alnum) := by
  refine listServices_ofList ?_
  rw [List.map_map]
  exact ((List.perm_insertionSort _ services.rows).map _).nodup_iff.mpr services.nodup

end Hmn
