/-
  Hmn.Uptime.Plan — the uptime plan and the monitors that are submitted.

  `build_uptime_plan` decides over the records of a registry which monitors
  are to be created; `_uptime_monitor_for_service` decides it again over the
  stored records, by a rule of its own, and its list is what is shown as the
  monitors and what is submitted for approval.
-/
import Hmn.Services.Registry

namespace Hmn

open Framework

/-! ## §1. The plan. -/

/-- The monitor of an entry of `create`. -/
inductive MonitorSpec where
  | ping (name host : String)
  | keyword (name url keyword : String)
  | http (name url : String)
  | tcp (name host : String) (port : Int)
  deriving DecidableEq

/-- `monitor.get("url")`. -/
def MonitorSpec.url? : MonitorSpec → Option String
  | .keyword _ url _ | .http _ url => some url
  | .ping _ _ | .tcp _ _ _ => none

/-- `monitor_priority`. -/
def MonitorSpec.priority : MonitorSpec → Nat
  | .keyword _ _ _ | .http _ _ => 0
  | .tcp _ _ _ => 1
  | .ping _ _ => 2

structure CreateEntry where
  serviceId : String
  name : String
  monitor : MonitorSpec
  deriving DecidableEq

structure SkipEntry where
  serviceId : String
  name : String
  reason : String
  deriving DecidableEq

structure UptimePlan where
  create : List CreateEntry
  update : List CreateEntry
  skip : List SkipEntry
  deriving DecidableEq

/-- `_first_domain`. -/
def firstDomain (domains : List String) : Option String :=
  (domains.map Text.strip).find? (· ≠ "")

/-- `scope`. -/
def exposureScope (metadata : Dict) : String :=
  Text.lower (Text.strip ((dictAt metadata "exposure").getStr "scope" ""))

/-- `strategy`. -/
def monitorStrategy (monitor : Dict) : String :=
  Text.lower (Text.strip (monitor.getStr "strategy" ""))

/-- `keyword`. -/
def monitorKeyword (monitor : Dict) : String := Text.strip (monitor.getStr "keyword" "")

/-- `health_check_url`. -/
def planHealthCheckUrl (metadata : Dict) : String :=
  Text.strip (metadata.getStr "health_check_url" "")

/-- One turn of the loop of `build_uptime_plan`: an entry of `create`, or one
of `skip`. -/
def uptimeEntry (service : RegistryService) : CreateEntry ⊕ SkipEntry :=
  let metadata := dictAt service.monitor "metadata"
  let scope := exposureScope metadata
  let create (monitor : MonitorSpec) : CreateEntry ⊕ SkipEntry :=
    .inl ⟨service.serviceId, service.name, monitor⟩
  let skip (reason : String) : CreateEntry ⊕ SkipEntry :=
    .inr ⟨service.serviceId, service.name, reason⟩
  let title := service.name ++ " (" ++ service.node ++ ")"
  let keyword := monitorKeyword service.monitor
  let healthCheckUrl := planHealthCheckUrl metadata
  if scope = "internal-only" then skip "internal-only service"
  else if scope = "status-page" then skip "status page service"
  else if monitorStrategy service.monitor = "ping" then create (.ping title service.node)
  else
    match firstDomain service.domains with
    | some domain =>
      let url := if healthCheckUrl ≠ "" then healthCheckUrl else "https://" ++ domain
      if keyword ≠ "" then create (.keyword title url keyword) else create (.http title url)
    | none =>
      if keyword ≠ "" ∧ healthCheckUrl ≠ "" then create (.keyword title healthCheckUrl keyword)
      else
        match service.ports with
        | port :: _ => create (.tcp title service.node port)
        | [] => skip "missing domain and port"

/-- `(item.node, item.name, item.service_id)`, in order. -/
def planOrder (a b : RegistryService) : Prop :=
  a.node < b.node
    ∨ (a.node = b.node ∧ (a.name < b.name ∨ (a.name = b.name ∧ a.serviceId ≤ b.serviceId)))

instance (a b : RegistryService) : Decidable (planOrder a b) := by
  unfold planOrder
  infer_instance

/-- `build_uptime_plan`. -/
def buildUptimePlan (registry : ServiceRegistry) : UptimePlan :=
  let entries := (registry.listServices.insertionSort planOrder).map uptimeEntry
  { create := (entries.filterMap Sum.getLeft?).insertionSort
      (fun a b => a.monitor.priority ≤ b.monitor.priority)
    update := []
    skip := entries.filterMap Sum.getRight? }

/-! ## §2. The monitors. -/

structure UptimeMonitor where
  serviceId : String
  name : String
  url : String
  tags : List String
  deriving DecidableEq

/-- The URL `_uptime_monitor_for_service` asks for, or the empty text. -/
def monitorTarget (service : ServiceRecord) : String :=
  if service.healthCheckUrl ≠ "" then service.healthCheckUrl
  else
    match service.domains with
    | domain :: _ => "https://" ++ domain
    | [] => ""

/-- `_uptime_monitor_for_service`. -/
def uptimeMonitorForService (service : ServiceRecord) : Option UptimeMonitor :=
  let url := monitorTarget service
  if url = "" ∨ service.monitorEnabled = false then none
  else some ⟨service.serviceId, service.name, url, ["hmn", "service:" ++ service.serviceId]⟩

/-- `payload["monitors"]`. -/
def uptimeMonitors (services : ServiceTable) : List UptimeMonitor :=
  services.listServiceRecords.filterMap uptimeMonitorForService

/-- What `uptime plan` shows without a registry file. -/
def uptimePlan (alnum : Char → Bool) (services : ServiceTable) : UptimePlan × List UptimeMonitor :=
  (buildUptimePlan (registryFromStorageRecords alnum services.listServiceRecords),
    uptimeMonitors services)

/-- The monitors `uptime sync` submits for approval without one. -/
def uptimeSync (services : ServiceTable) : List UptimeMonitor := uptimeMonitors services

end Hmn
