/-
  Hmn.Nodes.Facts — what the facts of a heartbeat are read as.

  The facts are any JSON object.  The platform probe, the numbers and texts
  of the console and the summary of the monitor read it key by key, each
  guarding its conversions with a test of the type alone.
-/
import Hmn.Framework.PyValue

namespace Hmn

open Framework JsonText

/-! ## §1. The platform probe. -/

/-- `NodeRuntimeProfile`. -/
inductive NodeRuntimeProfile where
  | fullWorker
  | liteWorker
  | beaconOnly
  | proxyManaged
  deriving DecidableEq

def NodeRuntimeProfile.text : NodeRuntimeProfile → String
  | .fullWorker => "full-worker"
  | .liteWorker => "lite-worker"
  | .beaconOnly => "beacon-only"
  | .proxyManaged => "proxy-managed"

/-- `ServiceManager`. -/
inductive ServiceManager where
  | systemd
  | openrc
  | procd
  | launchd
  | windowsTask
  | cron
  | loop
  | none
  deriving DecidableEq

def ServiceManager.text : ServiceManager → String
  | .systemd => "systemd"
  | .openrc => "openrc"
  | .procd => "procd"
  | .launchd => "launchd"
  | .windowsTask => "windows-task"
  | .cron => "cron"
  | .loop => "loop"
  | .none => "none"

/-- `CapabilityProbe`. -/
structure CapabilityProbe where
  osFamily : CodePoints
  hasSh : Bool
  hasBash : Bool
  hasCurl : Bool
  hasWget : Bool
  hasPython3 : Bool
  hasBusybox : Bool
  hasSystemctl : Bool
  hasOpenrc : Bool
  hasProcd : Bool
  hasLaunchctl : Bool
  hasPowershell : Bool
  hasCrond : Bool
  writableEtc : Bool
  writableTmp : Bool
  memoryMb : Option Int
  diskFreeMb : Option Int

/-- `CapabilityProbe.has_http_client`. -/
def CapabilityProbe.hasHttpClient (probe : CapabilityProbe) : Bool :=
  probe.hasCurl || probe.hasWget

/-- `RuntimeCapabilities`. -/
structure RuntimeCapabilities where
  runtime : NodeRuntimeProfile
  serviceManager : ServiceManager
  canReportHeartbeat : Bool
  canPollTasks : Bool
  canExecuteTasks : Bool
  requirements : List String
  notes : List String

/-- `_truthy`. -/
def factTruthy : PyValue → Bool
  | .bool b => b
  | .int n => n ≠ 0
  | .str s =>
    PyValue.lowerText (PyValue.stripText s) ∈ ["1", "true", "yes", "y", "on"].map codePoints
  | _ => false

/-- `_optional_int`. -/
def optionalInt : PyValue → Except ConversionError (Option Int)
  | .none | .str [] => .ok none
  | value => exceptTypeValue value.toInt

/-- The object that `probe_from_facts` reads. -/
def rawFacts (facts : PyDict) : PyDict := ((facts.get "capabilities").dict?).getD facts

/-- `probe_from_facts`. -/
def probeFromFacts (isprintable : Char → Bool) (facts : PyDict) :
    Except ConversionError CapabilityProbe := do
  let raw := rawFacts facts
  let osFamily ← ((raw.get "os_family").or (.text "unknown")).asText isprintable
  let memoryMb ← optionalInt (raw.get "memory_mb")
  let diskFreeMb ← optionalInt (raw.get "disk_free_mb")
  return {
    osFamily
    hasSh := factTruthy (raw.get "has_sh")
    hasBash := factTruthy (raw.get "has_bash")
    hasCurl := factTruthy (raw.get "has_curl")
    hasWget := factTruthy (raw.get "has_wget")
    hasPython3 := factTruthy (raw.get "has_python3")
    hasBusybox := factTruthy (raw.get "has_busybox")
    hasSystemctl := factTruthy (raw.get "has_systemctl")
    hasOpenrc := factTruthy (raw.get "has_openrc")
    hasProcd := factTruthy (raw.get "has_procd")
    hasLaunchctl := factTruthy (raw.get "has_launchctl")
    hasPowershell := factTruthy (raw.get "has_powershell")
    hasCrond := factTruthy (raw.get "has_crond")
    writableEtc := factTruthy (raw.get "writable_etc")
    writableTmp := factTruthy (raw.get "writable_tmp")
    memoryMb
    diskFreeMb }

/-- `detect_service_manager`. -/
def detectServiceManager (probe : CapabilityProbe) : ServiceManager :=
  let osFamily := PyValue.lowerText probe.osFamily
  if probe.hasSystemctl then .systemd
  else if probe.hasProcd || osFamily = codePoints "openwrt" then .procd
  else if probe.hasOpenrc then .openrc
  else if probe.hasLaunchctl || osFamily = codePoints "darwin" then .launchd
  else if probe.hasPowershell || osFamily = codePoints "windows" then .windowsTask
  else if probe.hasCrond then .cron
  else if probe.hasSh && probe.hasHttpClient then .loop
  else .none

/-- `classify_capabilities`. -/
def classifyCapabilities (probe : CapabilityProbe) : RuntimeCapabilities :=
  let serviceManager := detectServiceManager probe
  let http := probe.hasHttpClient
  if probe.hasSh && http && probe.hasPython3 && probe.writableEtc
      && serviceManager ∈ [.systemd, .openrc, .procd, .launchd, .windowsTask, .cron] then
    { runtime := .fullWorker, serviceManager
      canReportHeartbeat := true, canPollTasks := true, canExecuteTasks := true
      requirements := ["python3", "http-client", serviceManager.text]
      notes := ["task execution still requires explicit operator enablement"] }
  else if probe.hasPowershell && http && serviceManager = .windowsTask then
    { runtime := .fullWorker, serviceManager
      canReportHeartbeat := true, canPollTasks := true, canExecuteTasks := true
      requirements := ["powershell", "http-client", "Task Scheduler"]
      notes := ["Windows Task Scheduler worker supports signed task polling",
        "task execution still requires explicit operator enablement"] }
  else if probe.hasPowershell && serviceManager = .windowsTask then
    { runtime := .beaconOnly, serviceManager
      canReportHeartbeat := true, canPollTasks := false, canExecuteTasks := false
      requirements := ["powershell", "Task Scheduler"]
      notes := ["Windows 当前以计划任务心跳模式运行", "默认不执行远程下发命令"] }
  else if probe.hasSh && http
      && (probe.hasBusybox || probe.hasCrond || serviceManager ∈ [.procd, .openrc]) then
    { runtime := .liteWorker
      serviceManager := if serviceManager ≠ .loop then serviceManager else .cron
      canReportHeartbeat := true, canPollTasks := true, canExecuteTasks := false
      requirements := ["posix-sh", "http-client"]
      notes := ["no arbitrary shell execution by default", "fit for NAS/OpenWrt/BusyBox/old routers"] }
  else if probe.hasSh && http then
    { runtime := .beaconOnly, serviceManager := .none
      canReportHeartbeat := true, canPollTasks := false, canExecuteTasks := false
      requirements := ["posix-sh", "http-client"]
      notes := ["heartbeat only; use external proxy node for management"] }
  else
    { runtime := .proxyManaged, serviceManager := .none
      canReportHeartbeat := false, canPollTasks := false, canExecuteTasks := false
      requirements := ["nearby managed proxy node"]
      notes := ["device cannot host HMN agent safely"] }

/-! ## §2. The numbers and texts of the console. -/

/-- `_fact_number`. -/
def factNumber (facts : PyDict) : List String → Number
  | [] => .int 0
  | key :: keys => ((facts.get key).number?).getD (factNumber facts keys)

/-- `_percent`. -/
def percent (used total : Number) : Except ConversionError Int := do
  if !total.truthy then return 0
  else
    let ratio ← used.truediv total
    Number.round (.max (.int 0) (.min (.int 100) (.float (ratio.mul (.finite 100)))))

/-- The total and the available memory that `_memory_percent` takes. -/
def memorySizes (facts : PyDict) : Option (Number × Number) := do
  let memory ← (facts.get "memory").dict?
  let total ← ((memory.get "total_kb").or (memory.get "total_bytes")).number?
  let available ← (((memory.get "available_kb").or (memory.get "free_kb")).or
    (memory.get "available_bytes")).number?
  return (total, available)

/-- `_memory_percent`. -/
def memoryPercent (facts : PyDict) : Except ConversionError Number := do
  let value := factNumber facts ["memory_percent"]
  if value.truthy then return value
  else
    match memorySizes facts with
    | some (total, available) =>
      let used ← total.sub available
      return .int (← percent used total)
    | none => return factNumber facts ["memory"]

/-- The used and the total size of the disk. -/
def diskSizes (facts : PyDict) : Option (Number × Number) := do
  let disk ← (facts.get "disk").dict?
  let used ← (disk.get "used_bytes").number?
  let total ← (disk.get "total_bytes").number?
  return (used, total)

/-- `_disk_percent`. -/
def diskPercent (facts : PyDict) : Except ConversionError Number := do
  let value := factNumber facts ["disk_percent"]
  if value.truthy then return value
  else
    match diskSizes facts with
    | some (used, total) => return .int (← percent used total)
    | none => return factNumber facts ["disk"]

/-- `round(float(item), 2)`. -/
def loadItem (item : PyValue) : Except ConversionError FloatValue := do
  (← item.toFloat).round2

/-- The loop of `_load_value`: the first item that is a number. -/
def firstLoad : List PyValue → Except ConversionError Number
  | [] => .ok (.int 0)
  | item :: items => do
    match ← exceptTypeValue (loadItem item) with
    | some x => return .float x
    | none => firstLoad items

/-- The items that `_load_value` tries. -/
def loadItems (load : PyDict) : List PyValue := ["1m", "1", "one"].map load.get

/-- `_load_value`. -/
def loadValue (facts : PyDict) : Except ConversionError Number :=
  let value := (facts.get "load_average").or (facts.get "load")
  match value.number?, value.dict? with
  | some n, _ => .ok n
  | none, some load => firstLoad (loadItems load)
  | none, none => .ok (.int 0)

/-- The number of seconds that `_uptime_text` takes. -/
def uptimeNumber (facts : PyDict) : Option Number :=
  match facts.get "uptime" with
  | .dict uptime => (PyDict.get uptime "seconds").number?
  | value => value.number?

/-- Seconds in days, hours and minutes. -/
def durationText (seconds : Int) : Except ConversionError String := do
  let days := seconds / 86400
  let hours := seconds % 86400 / 3600
  let minutes := seconds % 86400 % 3600 / 60
  if days ≠ 0 then return (← PyValue.intText days) ++ "d " ++ toString hours ++ "h"
  else if hours ≠ 0 then return toString hours ++ "h " ++ toString minutes ++ "m"
  else return toString minutes ++ "m"

/-- `_uptime_text`. -/
def uptimeText (facts : PyDict) : Except ConversionError CodePoints :=
  match uptimeNumber facts, facts.get "uptime" with
  | some n, _ => do
    let seconds ← n.toInt
    return codePoints (← durationText seconds)
  | none, .str s => .ok s
  | none, _ => .ok (codePoints "-")

/-- The family of the operating system among the capabilities. -/
def osFamilyFact (facts : PyDict) : PyValue :=
  match (facts.get "capabilities").dict? with
  | some capabilities => capabilities.get "os_family"
  | none => .none

/-- The value that `_os_text` prints. -/
def osValue (facts : PyDict) : PyValue :=
  ((((facts.get "os_release").or (facts.get "os")).or (facts.get "platform")).or
    (osFamilyFact facts)).or (.text "unknown")

/-- `_os_text`. -/
def osText (isprintable : Char → Bool) (facts : PyDict) : Except ConversionError CodePoints :=
  (osValue facts).asText isprintable

/-! ## §3. The summary of the monitor. -/

/-- The keys of `_facts_summary` that were set. -/
structure FactsSummary where
  load1m : Option CodePoints
  load5m : Option CodePoints
  load15m : Option CodePoints
  memoryUsedPercent : Option Int
  diskUsedPercent : Option Int
  diskPath : Option CodePoints
  uptimeSeconds : Option PyValue

/-- `int(round((used / total) * 100))`. -/
def roundedPercent (used total : Number) : Except ConversionError Int := do
  let ratio ← used.truediv total
  Number.round (.float (ratio.mul (.finite 100)))

/-- A value that is there, as text. -/
def optionalText (isprintable : Char → Bool) : PyValue → Except ConversionError (Option CodePoints)
  | .none => .ok none
  | value => (value.asText isprintable).map some

/-- The total and the available memory that `_facts_summary` takes. -/
def summaryMemorySizes (facts : PyDict) : Option (Number × Number) := do
  let memory ← (facts.get "memory").dict?
  let total ← (memory.get "total_kb").number?
  let available ← (memory.get "available_kb").number?
  if Number.lt (.int 0) total then some (total, available) else none

/-- The used and the total size of the disk that `_facts_summary` takes. -/
def summaryDiskSizes (facts : PyDict) : Option (Number × Number) :=
  (diskSizes facts).filter fun sizes => Number.lt (.int 0) sizes.2

/-- `memory_used_percent`. -/
def memoryUsedPercent (facts : PyDict) : Except ConversionError (Option Int) := do
  match summaryMemorySizes facts with
  | none => return none
  | some (total, available) =>
    let used ← total.sub available
    return some (← roundedPercent used total)

/-- `disk_used_percent`. -/
def diskUsedPercent (facts : PyDict) : Except ConversionError (Option Int) := do
  match summaryDiskSizes facts with
  | none => return none
  | some (used, total) => return some (← roundedPercent used total)

/-- A key of the load averages, as text. -/
def loadText (isprintable : Char → Bool) (facts : PyDict) (key : String) :
    Except ConversionError (Option CodePoints) :=
  match (facts.get "load_average").dict? with
  | some load => optionalText isprintable (load.get key)
  | none => .ok none

/-- The path of the disk, when it is not empty. -/
def diskPathText (isprintable : Char → Bool) (facts : PyDict) :
    Except ConversionError (Option CodePoints) :=
  match (facts.get "disk").dict? with
  | some disk =>
    if (disk.get "path").truthy then optionalText isprintable (disk.get "path") else .ok none
  | none => .ok none

/-- The seconds of the uptime, as they are. -/
def uptimeSeconds (facts : PyDict) : Option PyValue := do
  let uptime ← (facts.get "uptime").dict?
  match uptime.get "seconds" with
  | .none => none
  | value => some value

/-- `_facts_summary`. -/
def factsSummary (isprintable : Char → Bool) (facts : PyDict) :
    Except ConversionError FactsSummary := do
  let load1m ← loadText isprintable facts "1m"
  let load5m ← loadText isprintable facts "5m"
  let load15m ← loadText isprintable facts "15m"
  let memoryUsedPercent ← memoryUsedPercent facts
  let diskUsedPercent ← diskUsedPercent facts
  let diskPath ← diskPathText isprintable facts
  return {
    load1m, load5m, load15m, memoryUsedPercent, diskUsedPercent, diskPath
    uptimeSeconds := uptimeSeconds facts }

end Hmn
