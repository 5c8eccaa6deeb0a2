/-
  Hmn.Services.Merge — merging discovered services into the stored ones.

  A discovered record never replaces what is stored: a field takes the
  discovered value only where the stored one is empty, ports are united, and
  metadata grows by keys, by members of nested objects and by entries of
  `listen_ports`.

  The model is `service_discovery.plan_discovered_services` and
  `apply_discovered_services`; that nothing curated is lost is
  `Hmn.Services.Curated`.
-/
import Hmn.Framework.Equality
import Hmn.Services.Records
import Hmn.Store.Store

namespace Hmn

open Framework

/-! ## §1. Metadata. -/

/-- `hash` of a value that has none. -/
def unhashable (typeName : String) : PyError := .type ("unhashable type: '" ++ typeName ++ "'")

/-- What a set compares a value by. -/
def hashKey : Json → Except PyError Json
  | .arr _ => .error (unhashable "list")
  | .obj _ => .error (unhashable "dict")
  | v => .ok v.canon

/-- Iterating over a value that cannot be iterated over. -/
def cannotIterate (typeName : String) : PyError :=
  .type ("'" ++ typeName ++ "' object is not iterable")

/-- `list(value)`. -/
def pyList : Json → Except PyError (List Json)
  | .null => .error (cannotIterate "NoneType")
  | .bool _ => .error (cannotIterate "bool")
  | .int _ => .error (cannotIterate "int")
  | .float _ => .error (cannotIterate "float")
  | .str s => .ok (s.toList.map (fun c => .str (String.ofList [c])))
  | .arr xs => .ok xs
  | .obj kvs => .ok (kvs.map (fun kv => .str kv.1))

/-- `(item.get("address"), item.get("port"), item.get("process"))`, hashed. -/
def portMarker (item : Dict) : Except PyError (Json × Json × Json) := do
  let address ← hashKey ((item.get? "address").getD .null)
  let port ← hashKey ((item.get? "port").getD .null)
  let process ← hashKey ((item.get? "process").getD .null)
  return (address, port, process)

/-- `seen`, before the loop. -/
def portMarkers : List Json → Except PyError (List (Json × Json × Json))
  | [] => .ok []
  | .obj item :: items => do
    let marker ← portMarker item
    let markers ← portMarkers items
    return marker :: markers
  | _ :: items => portMarkers items

/-- The loop over the discovered entries. -/
def appendPorts (current : List Json) (seen : List (Json × Json × Json)) :
    List Json → Except PyError (List Json)
  | [] => .ok current
  | .obj item :: items => do
    let marker ← portMarker item
    if marker ∈ seen then appendPorts current seen items
    else appendPorts (current ++ [.obj item]) (marker :: seen) items
  | _ :: items => appendPorts current seen items

/-- `value if isinstance(value, list) else []`. -/
def listOrEmpty : Json → List Json
  | .arr xs => xs
  | _ => []

/-- The entries of `listen_ports` after a merge. -/
def mergePorts (merged : Dict) (value : Json) : Except PyError (List Json) := do
  let current ← pyList ((merged.get? "listen_ports").getD (.arr []))
  let seen ← portMarkers current
  appendPorts current seen (listOrEmpty value)

/-- The members of a nested object after a merge. -/
def mergeNested (nested value : Dict) : Dict :=
  value.foldl (fun acc kv => setDefault acc kv.1 kv.2) nested

/-- One turn of the loop of `_merge_metadata`. -/
def mergeKey (merged : Dict) (kv : String × Json) : Except PyError Dict :=
  if kv.1 = "listen_ports" then do
    let current ← mergePorts merged kv.2
    return merged.set kv.1 (.arr current)
  else
    match merged.get? kv.1, kv.2 with
    | none, value => .ok (merged.set kv.1 value)
    | some (.obj nested), .obj value => .ok (merged.set kv.1 (.obj (mergeNested nested value)))
    | some _, _ => .ok merged

/-- `_merge_metadata`. -/
def mergeMetadata (existing incoming : Dict) : Except PyError Dict :=
  incoming.foldlM mergeKey existing

/-! ## §2. Fields. -/

/-- `_has_value`: the values without one are the empty text, the empty list
and `False`, the defaults of their types. -/
def hasValue {α : Type} [DecidableEq α] [Inhabited α] (value : α) : Bool := value ≠ default

/-- `_prefer_existing`. -/
def preferExisting {α : Type} [DecidableEq α] [Inhabited α] (existing incoming : α) : α :=
  if hasValue existing ∨ ¬ hasValue incoming then existing else incoming

/-- `_merge_unique_ints`. -/
def mergeUniqueInts (left right : List Int) : List Int :=
  (left ++ right).dedup.insertionSort (· ≤ ·)

/-! ## §3. Planning. -/

/-- `_service_snapshot`. -/
def serviceSnapshot (service : ServiceRecord) : Dict := [
  ("service_id", .str service.serviceId),
  ("name", .str service.name),
  ("node_id", .str service.nodeId),
  ("kind", .str service.kind),
  ("runtime", .str service.runtime),
  ("domains", .arr (service.domains.map .str)),
  ("ports", .arr (service.ports.map .int)),
  ("deploy_path", .str service.deployPath),
  ("config_paths", .arr (service.configPaths.map .str)),
  ("env_paths", .arr (service.envPaths.map .str)),
  ("data_paths", .arr (service.dataPaths.map .str)),
  ("health_check_url", .str service.healthCheckUrl),
  ("monitor_enabled", .bool service.monitorEnabled),
  ("docs_path", .str service.docsPath),
  ("source", .str service.source),
  ("status", .str service.status),
  ("metadata", .obj service.metadata)]

/-- `_service_diff`. -/
def serviceDiff (before : Option ServiceRecord) (after : ServiceRecord) : Dict :=
  let beforeSnapshot := (before.map serviceSnapshot).getD []
  (serviceSnapshot after).filterMap fun kv =>
    let beforeValue := (beforeSnapshot.get? kv.1).getD .null
    if Json.Same beforeValue kv.2 then none
    else some (kv.1, .obj [("before", beforeValue), ("after", kv.2)])

inductive ChangeType where
  | create
  | update
  | unchanged
  deriving DecidableEq

def ChangeType.text : ChangeType → String
  | .create => "create"
  | .update => "update"
  | .unchanged => "unchanged"

/-- An entry of `changes`. -/
structure Change where
  serviceId : String
  change : ChangeType
  before : Option Dict
  after : Dict
  diff : Dict
  deriving DecidableEq

/-- `discovered`: the record as it is planned. -/
def asDiscovered (nodeId source : String) (record : ServiceRecord) : ServiceRecord :=
  { record with
    nodeId := if record.nodeId ≠ "" then record.nodeId else nodeId
    source := source }

/-- The service planned for a stored one. -/
def mergedService (source : String) (existing discovered : ServiceRecord) :
    Except PyError ServiceRecord := do
  let metadata ← mergeMetadata existing.metadata discovered.metadata
  return { existing with
    name := preferExisting existing.name discovered.name
    nodeId := preferExisting existing.nodeId discovered.nodeId
    kind := preferExisting existing.kind discovered.kind
    runtime := preferExisting existing.runtime discovered.runtime
    domains := preferExisting existing.domains discovered.domains
    ports := mergeUniqueInts existing.ports discovered.ports
    deployPath := preferExisting existing.deployPath discovered.deployPath
    configPaths := preferExisting existing.configPaths discovered.configPaths
    envPaths := preferExisting existing.envPaths discovered.envPaths
    dataPaths := preferExisting existing.dataPaths discovered.dataPaths
    healthCheckUrl := preferExisting existing.healthCheckUrl discovered.healthCheckUrl
    monitorEnabled := preferExisting existing.monitorEnabled discovered.monitorEnabled
    docsPath := preferExisting existing.docsPath discovered.docsPath
    source := preferExisting existing.source discovered.source
    status := preferExisting existing.status discovered.status
    metadata := metadata.set "discovery_source" (.str source) }

/-- The service planned for one that is not stored. -/
def createdService (source : String) (discovered : ServiceRecord) : ServiceRecord :=
  { discovered with metadata := discovered.metadata.set "discovery_source" (.str source) }

/-- The entry of `changes` for a planned service. -/
def serviceChange (existing : Option ServiceRecord) (service : ServiceRecord) : Change where
  serviceId := service.serviceId
  change :=
    match existing with
    | some _ => if serviceDiff existing service ≠ [] then .update else .unchanged
    | none => .create
  before := existing.map serviceSnapshot
  after := serviceSnapshot service
  diff := serviceDiff existing service

/-- One turn of the loop of `plan_discovered_services`. -/
def planService (services : ServiceTable) (nodeId source : String) (record : ServiceRecord) :
    Except PyError (ServiceRecord × Change) := do
  let discovered := asDiscovered nodeId source record
  match services.loadServiceRecord discovered.serviceId with
  | some existing =>
    let service ← mergedService source existing discovered
    return (service, serviceChange (some existing) service)
  | none =>
    let service := createdService source discovered
    return (service, serviceChange none service)

/-- `plan_discovered_services`. -/
def planDiscoveredServices (services : ServiceTable) (nodeId source : String)
    (records : List ServiceRecord) : Except PyError (List (ServiceRecord × Change)) :=
  records.mapM (planService services nodeId source)

/-! ## §4. Applying. -/

/-- The tables a discovery works on. -/
structure ServiceStore where
  services : ServiceTable
  audit : List AuditEvent

/-- `[store.save_service_record(service) for service in planned]`, the clock
read for each of them. -/
def saveServices (clock : Nat → Timestamp) :
    Nat → List ServiceRecord → ServiceTable → List ServiceRecord × ServiceTable
  | _, [], services => ([], services)
  | i, service :: planned, services =>
    let (saved, services) := services.saveServiceRecord (clock i) service
    let (rest, services) := saveServices clock (i + 1) planned services
    (saved :: rest, services)

/-- The audit event of a discovery. -/
def discoveryEvent (nodeId source : String) (saved : List ServiceRecord) (changes : List Change)
    (createdAt : Timestamp) : AuditEvent where
  eventType := "service"
  subjectType := "node"
  subjectId := nodeId
  action := "service_discovery"
  outcome := "ok"
  details := [
    ("source", .str source),
    ("service_count", .int saved.length),
    ("service_ids", .arr (saved.map (fun record => .str record.serviceId))),
    ("changes", .arr (changes.map (fun change => .obj [
      ("service_id", .str change.serviceId),
      ("change", .str change.change.text),
      ("diff", .obj change.diff)])))]
  createdAt := createdAt

/-- `apply_discovered_services`: everything is planned before anything is
saved. -/
def applyDiscoveredServices (clock : Nat → Timestamp) (nodeId source : String)
    (records : List ServiceRecord) (store : ServiceStore) :
    Except PyError (List ServiceRecord) × ServiceStore :=
  match planDiscoveredServices store.services nodeId source records with
  | .error e => (.error e, store)
  | .ok plan =>
    let (saved, services) := saveServices clock 0 (plan.map Prod.fst) store.services
    (.ok saved,
      { services := services
        audit := store.audit ++ [discoveryEvent nodeId source saved (plan.map Prod.snd)
          (clock saved.length)] })

end Hmn
