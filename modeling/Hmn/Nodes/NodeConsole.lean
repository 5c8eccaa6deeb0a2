/-
  Hmn.Nodes.NodeConsole — a node in the console, and the facts that break it.

  The console shows every node next to what its latest heartbeat reported.
  The facts are read with a test of the type before each conversion, and a
  handler for the wrong types and the wrong texts; an infinity, or an integer
  beyond the range of a double, passes both.

  Main results: when each reading of the facts returns (`percent_ok_iff`,
  `firstLoad_ok_iff`, `uptimeText_ok_iff`, `optionalInt_ok_iff`,
  `roundedPercent_ok_iff`), `consoleNodeResponse_live` and
  `monitorHealthSummary_health` (the response and the summary show what the
  ladders of the console and of the monitor say), and `heartbeat_shown_iff`.
-/
import Hmn.Framework.Fallible
import Hmn.Framework.JsonLine
import Hmn.Nodes.Endpoints
import Hmn.Nodes.Facts
import Hmn.Nodes.Liveness

namespace Hmn

open Framework Framework.Fallible JsonText

/-! ## §1. The response. -/

/-- A heartbeat event as it is read from its row: the details are a JSON
object that was stored, with integers that have a text and floats that are
doubles. -/
structure HeartbeatEvent where
  outcome : String
  createdAt : Timestamp
  details : PyDict
  readable : PyValue.readableFields details = true

namespace HeartbeatEvent

/-- `event.details.get("facts", {})`, or no facts when it is no object. -/
def facts (event : HeartbeatEvent) : PyDict := ((event.details.get "facts").dict?).getD []

theorem readable_facts (event : HeartbeatEvent) :
    PyValue.readableFields event.facts = true := by
  unfold facts
  cases h : (event.details.get "facts").dict? with
  | none => rfl
  | some facts =>
    have hread := PyDict.readable_get event.readable "facts"
    rw [PyValue.dict?_eq_some h] at hread
    exact hread

/-- The event of a row without surrogates. -/
def ofRow (row : AuditEvent)
    (readable : PyValue.readableFields (PyValue.ofJsonFields row.details) = true) :
    HeartbeatEvent where
  outcome := row.outcome
  createdAt := row.createdAt
  details := PyValue.ofJsonFields row.details
  readable

end HeartbeatEvent

/-- `ConsoleNodeResponse`. -/
structure ConsoleNodeResponse where
  id : String
  name : String
  status : NodeStatus
  live : Live
  trust : String
  role : String
  ip : String
  os : CodePoints
  uptime : CodePoints
  cpu : Number
  memory : Number
  disk : Number
  load : Number
  hb : String
  exec : Bool
  runtimeProfile : String
  serviceManager : String
  workerMode : CodePoints
  taskPolicy : CodePoints
  workerStatusHint : Option String
  workerStatusCommand : Option String
  workerInstallHint : Option String
  workerInstallCommand : Option String
  uninstallHint : Option String
  uninstallCommand : Option String
  nodeTypeLabel : Option String
  windowsBeaconOnly : Bool
  deriving DecidableEq

/-- `_heartbeat_label`. -/
def heartbeatLabel : Option Int → String
  | none => "无"
  | some age =>
    if age < 60 then "刚刚"
    else if age < 3600 then toString (age / 60) ++ " 分钟前"
    else toString (age / 3600) ++ " 小时前"

/-- What the console says about how a node runs. -/
structure NodePresentation where
  workerInstallHint : Option String := none
  workerInstallCommand : Option String := none
  uninstallHint : Option String := none
  uninstallCommand : Option String := none
  nodeTypeLabel : String
  windowsBeaconOnly : Bool := false

/-- The hints of `_console_node_response`, by how the node runs. -/
def nodePresentation (nodeId : String) (runtime : RuntimeCapabilities) : NodePresentation :=
  if runtime.serviceManager = .windowsTask then
    let uninstallHint := "可在主控执行节点级卸载命令，生成该 Windows 节点的卸载脚本"
    let uninstallCommand :=
      "hmn node uninstall-heartbeat " ++ nodeId ++ " --service-manager windows-task"
    let install := "hmn node install-heartbeat " ++ nodeId ++ " --service-manager windows-task"
    if runtime.runtime = .fullWorker then
      { workerInstallHint := some "可在主控重新生成该 Windows 节点的全功能 Worker 安装脚本"
        workerInstallCommand := some (install ++ " --runtime full-worker")
        uninstallHint, uninstallCommand
        nodeTypeLabel := "Windows full worker" }
    else
      { workerInstallHint := some "可在主控重新生成该 Windows 节点的 Worker/心跳安装脚本"
        workerInstallCommand := some (install ++ " --runtime beacon-only --beacon-only")
        uninstallHint, uninstallCommand
        nodeTypeLabel := "Windows beacon-only"
        windowsBeaconOnly := true }
  else
    match runtime.runtime with
    | .beaconOnly => { nodeTypeLabel := "Beacon-only" }
    | .fullWorker => { nodeTypeLabel := "Full worker" }
    | .liteWorker => { nodeTypeLabel := "Lite worker" }
    | profile => { nodeTypeLabel := profile.text }

/-- `_formal_node_status`; `successful` is whether a heartbeat of the node
was ever stored as `ok`. -/
def formalNodeStatus (successful : Bool) (node : Node) : NodeStatus :=
  if node.status = .managed ∧ !successful then .pending else node.status

/-- The field `live` of `_console_node_response`. -/
def heartbeatLive (node : Node) (now : Timestamp) (event : Option HeartbeatEvent) : Live :=
  if node.status = .pending then .unknown
  else
    match event with
    | some event =>
      let age := Timestamp.wholeSeconds (now - event.createdAt)
      if event.outcome = "ok" ∧ age ≤ 300 then .online
      else if age ≤ 900 then .stale
      else .offline
    | none => .offline

def invalidText : ConversionError :=
  .value "Input should be a valid string, unable to parse raw data as a unicode string"

/-- `_console_node_response`.  `accepts` is what the response model takes for
a text, `isprintable` the table of the characters that print; the texts that
are not reported facts come from the records of the store. -/
def consoleNodeResponse (accepts : CodePoints → Bool) (isprintable : Char → Bool)
    (successful : Bool) (node : Node) (now : Timestamp) (event : Option HeartbeatEvent) :
    Except ConversionError ConsoleNodeResponse := do
  let facts := (event.map HeartbeatEvent.facts).getD []
  let runtime := classifyCapabilities (← probeFromFacts isprintable facts)
  let workerMode ← ((facts.get "worker_mode").or (.text "unknown")).asText isprintable
  let policy := if runtime.canPollTasks then "poll-and-exec" else "heartbeat-only"
  let taskPolicy ← ((facts.get "task_policy").or (.text policy)).asText isprintable
  let presentation := nodePresentation node.nodeId runtime
  let age := event.map fun event => Timestamp.wholeSeconds (now - event.createdAt)
  let os ← osText isprintable facts
  let uptime ← uptimeText facts
  let memory ← memoryPercent facts
  let disk ← diskPercent facts
  let load ← loadValue facts
  if !([os, uptime, workerMode, taskPolicy].all accepts) then throw invalidText
  else return {
    id := node.nodeId
    name := node.hostname
    status := formalNodeStatus successful node
    live := heartbeatLive node now event
    trust := node.trustLevel
    role := node.labels.headD "node"
    ip := if node.networkIp ≠ "" then node.networkIp else node.addresses.headD "-"
    os, uptime
    cpu := factNumber facts ["cpu_percent", "cpu"]
    memory, disk, load
    hb := heartbeatLabel age
    exec := (facts.get "exec_enabled").truthy || "task" ∈ node.permissionBundles
    runtimeProfile := runtime.runtime.text
    serviceManager := runtime.serviceManager.text
    workerMode, taskPolicy
    workerStatusHint := some "可在主控执行节点级状态检查命令"
    workerStatusCommand := some ("hmn node worker-status " ++ node.nodeId)
    workerInstallHint := presentation.workerInstallHint
    workerInstallCommand := presentation.workerInstallCommand
    uninstallHint := presentation.uninstallHint
    uninstallCommand := presentation.uninstallCommand
    nodeTypeLabel := some presentation.nodeTypeLabel
    windowsBeaconOnly := presentation.windowsBeaconOnly }

/-- The response says of a node what the ladder of the console says of its
latest heartbeat. -/
theorem consoleNodeResponse_live {accepts : CodePoints → Bool} {isprintable : Char → Bool}
    {successful : Bool} {node : Node} {now : Timestamp} {event : HeartbeatEvent}
    {response : ConsoleNodeResponse} {s : Store} {row : AuditEvent}
    (hrow : s.latestNodeHeartbeatEvent node.nodeId = some row)
    (houtcome : event.outcome = row.outcome) (hcreated : event.createdAt = row.createdAt)
    (h : consoleNodeResponse accepts isprintable successful node now (some event)
      = .ok response) :
    response.live = consoleLive s node now := by
  have hlive : heartbeatLive node now (some event) = consoleLive s node now := by
    simp only [heartbeatLive, consoleLive, hrow, houtcome, hcreated]
    rfl
  rw [← hlive]
  -- None of the texts and numbers in between has a part in `live`.
  unfold consoleNodeResponse at h
  obtain ⟨_, -, h⟩ := bind_eq_ok.mp h
  obtain ⟨_, -, h⟩ := bind_eq_ok.mp h
  obtain ⟨_, -, h⟩ := bind_eq_ok.mp h
  obtain ⟨_, -, h⟩ := bind_eq_ok.mp h
  obtain ⟨_, -, h⟩ := bind_eq_ok.mp h
  obtain ⟨_, -, h⟩ := bind_eq_ok.mp h
  obtain ⟨_, -, h⟩ := bind_eq_ok.mp h
  obtain ⟨_, -, h⟩ := bind_eq_ok.mp h
  split at h
  · cases h
  · cases h
    rfl

/-! ## §2. The summary of the monitor. -/

/-- The keys of `_runtime_summary_from_facts`. -/
structure RuntimeSummary where
  runtimeProfile : String
  serviceManager : String
  canReportHeartbeat : Bool
  canPollTasks : Bool
  canExecuteTasks : Bool

/-- `_runtime_summary_from_facts`. -/
def runtimeSummaryFromFacts (isprintable : Char → Bool) (facts : PyDict) :
    Except ConversionError RuntimeSummary := do
  let profile := classifyCapabilities (← probeFromFacts isprintable facts)
  return {
    runtimeProfile := profile.runtime.text
    serviceManager := profile.serviceManager.text
    canReportHeartbeat := profile.canReportHeartbeat
    canPollTasks := profile.canPollTasks
    canExecuteTasks := profile.canExecuteTasks }

/-- The keys of `_monitor_summary`. -/
structure MonitorSummary where
  heartbeatSeen : Bool
  heartbeatOk : Bool
  heartbeatOutcome : String
  heartbeatAt : String
  workerProtocolVersion : PyValue
  workerVersion : PyValue
  workerCompatible : Bool
  execEnabled : Bool
  execMode : String
  facts : PyDict
  runtime : RuntimeSummary

/-- `bool(event.details.get("worker_compatible", True))`. -/
def HeartbeatEvent.workerCompatible (event : HeartbeatEvent) : Bool :=
  ((event.details.lookup (codePoints "worker_compatible")).getD (.bool true)).truthy

/-- `_monitor_summary`, of the heartbeat that the command line finds. -/
def monitorSummary (isprintable : Char → Bool) (event : Option HeartbeatEvent) :
    Except ConversionError MonitorSummary := do
  let facts := (event.map HeartbeatEvent.facts).getD []
  let compatible := (event.map HeartbeatEvent.workerCompatible).getD false
  let execEnabled := (facts.get "exec_enabled").truthy
  let runtime ← runtimeSummaryFromFacts isprintable facts
  return {
    heartbeatSeen := event.isSome
    heartbeatOk := event.any fun event => event.outcome = "ok" ∧ compatible
    heartbeatOutcome := (event.map HeartbeatEvent.outcome).getD "missing"
    heartbeatAt := (event.map fun event => event.createdAt.isoformat).getD ""
    workerProtocolVersion := (facts.get "worker_protocol_version").or (.text "unknown")
    workerVersion := (facts.get "worker_version").or (.text "unknown")
    workerCompatible := compatible
    execEnabled
    execMode := if execEnabled then "ENABLED" else "SAFE"
    facts, runtime }

/-- The keys of `_monitor_health_summary`: those of `_monitor_summary`, how
the node is, and the summary of its facts. -/
structure MonitorHealthSummary extends MonitorSummary where
  health : Health
  reason : String
  ageSeconds : Option Int
  heartbeatDatetime : Option Timestamp
  factsSummary : FactsSummary

/-- `_monitor_health_summary`. -/
def monitorHealthSummary (isprintable : Char → Bool) (event : Option HeartbeatEvent)
    (now : Timestamp) : Except ConversionError MonitorHealthSummary := do
  let summary ← monitorSummary isprintable event
  let ageSeconds := event.map fun event => Timestamp.wholeSeconds (now - event.createdAt)
  let (health, reason) :=
    match event with
    | none => (Health.critical, "missing_heartbeat")
    | some event =>
      if !summary.workerCompatible then (.critical, "worker_protocol_incompatible")
      else if event.outcome ≠ "ok" then (.warn, "heartbeat_warn")
      else if ageSeconds.any (· > 900) then (.critical, "heartbeat_timeout")
      else if ageSeconds.any (· > 300) then (.warn, "stale_heartbeat")
      else (.ok, "fresh_heartbeat")
  let factsSummary ← factsSummary isprintable summary.facts
  return {
    summary with
    health, reason, ageSeconds, factsSummary
    heartbeatDatetime := event.map HeartbeatEvent.createdAt }

/-- What the summary says about how the node is. -/
def MonitorHealthSummary.toMonitorHealth (summary : MonitorHealthSummary) : MonitorHealth where
  health := summary.health
  reason := summary.reason
  ageSeconds := summary.ageSeconds
  workerCompatible := summary.workerCompatible
  heartbeatDatetime := summary.heartbeatDatetime

/-- A heartbeat that was read from a row. -/
structure HeartbeatEvent.ReadFrom (event : HeartbeatEvent) (row : AuditEvent) : Prop where
  outcome : event.outcome = row.outcome
  createdAt : event.createdAt = row.createdAt
  workerCompatible : event.workerCompatible = Hmn.workerCompatible row

/-- The text of the details has their keys in order, which no look-up sees. -/
theorem HeartbeatEvent.readFrom_sorted (row : AuditEvent)
    (readable : PyValue.readableFields (PyValue.ofJsonFields row.details.sortKeys) = true) :
    HeartbeatEvent.ReadFrom ⟨row.outcome, row.createdAt, _, readable⟩ row := by
  refine ⟨rfl, rfl, ?_⟩
  have hsorted := Dict.get?_sortKeys row.details "worker_compatible"
  rw [Dict.get?] at hsorted
  simp only [HeartbeatEvent.workerCompatible, Hmn.workerCompatible, PyValue.lookup_ofJsonFields,
    hsorted]
  cases row.details.get? "worker_compatible" with
  | none => rfl
  | some v => exact (PyValue.truthy_ofJson v.sortKeys).trans (Json.truthy_sortKeys v)

/-- The summary says of a node what the ladder of the monitor says of its
latest heartbeat. -/
theorem monitorHealthSummary_health {isprintable : Char → Bool} {event : Option HeartbeatEvent}
    {now : Timestamp} {summary : MonitorHealthSummary} {s : Store} {nodeId : String}
    (hread : Option.Rel HeartbeatEvent.ReadFrom event (s.lastHeartbeatEvent nodeId))
    (h : monitorHealthSummary isprintable event now = .ok summary) :
    summary.toMonitorHealth = monitorHealth s nodeId now := by
  unfold monitorHealthSummary at h
  obtain ⟨base, hbase, h⟩ := bind_eq_ok.mp h
  obtain ⟨facts, -, h⟩ := bind_eq_ok.mp h
  -- The compatibility is the one field of the base summary that the ladder looks at.
  have hcompatible : base.workerCompatible
      = (event.map HeartbeatEvent.workerCompatible).getD false := by
    unfold monitorSummary at hbase
    obtain ⟨_, -, hbase⟩ := bind_eq_ok.mp hbase
    cases hbase
    rfl
  cases h
  unfold monitorHealth MonitorHealthSummary.toMonitorHealth
  cases hlast : s.lastHeartbeatEvent nodeId with
  | none =>
    rw [hlast] at hread
    cases hread
    rw [hcompatible]
    rfl
  | some row =>
    rw [hlast] at hread
    cases hread with
    | some hrow =>
      simp only [hcompatible, Option.map_some, Option.getD_some, Option.any_some, hrow.outcome,
        hrow.createdAt, hrow.workerCompatible, Hmn.ageSeconds, decide_eq_true_eq,
        Bool.not_eq_true', Bool.not_eq_true]
      rfl

/-- So it does of the heartbeat that the text of the stored details is read
as. -/
theorem monitorHealthSummary_stored (isprintable : Char → Bool) (now : Timestamp) {s : Store}
    {nodeId : String} {row : AuditEvent} (hlast : s.lastHeartbeatEvent nodeId = some row)
    {floatOf : List Char → PyFloat} (hwritable : Json.Writable floatOf (.obj row.details)) :
    ∃ v details, JsonText.read (Json.dumpsSorted (.obj row.details)) = .ok v
      ∧ JsonText.toJson? floatOf v = some (.obj details)
      ∧ ∀ readable summary,
        monitorHealthSummary isprintable
            (some ⟨row.outcome, row.createdAt, PyValue.ofJsonFields details, readable⟩) now
          = .ok summary →
        summary.toMonitorHealth = monitorHealth s nodeId now := by
  obtain ⟨v, hread, hvalue⟩ := Json.read_dumpsSorted hwritable
  refine ⟨v, row.details.sortKeys, hread, hvalue, fun readable summary h => ?_⟩
  exact monitorHealthSummary_health
    (hlast ▸ .some (HeartbeatEvent.readFrom_sorted row readable)) h

/-! ## §3. Percentages. -/

/-- The share of the total that is not available, as the console computes
it: of two integers exactly, otherwise in floats. -/
def ShareInRange : Number → Number → Prop
  | .int total, .int available =>
    total ≠ 0 → |((total - available : Int) / total : Rat)| < Double.bound
  | total, available => total.Fits ∧ available.Fits

/-- A ratio that is still finite as a percentage. -/
structure RatioInRange (ratio : Rat) : Prop where
  quotient : |ratio| < Double.bound
  percent : |Double.nearest ratio * 100| < Double.bound

/-- A used and a total size whose percentage is finite. -/
def PercentInRange : Number → Number → Prop
  | .int used, .int total => RatioInRange (used / total)
  | used, total =>
    total.Fits ∧ ∃ p, used.double? = some p ∧ ∀ q, total.double? = some q → RatioInRange (p / q)

/-- A total and an available size for which the percentage in use is
finite. -/
def UseInRange : Number → Number → Prop
  | .int total, .int available => RatioInRange ((total - available : Int) / total)
  | total, available =>
    ∃ p q, total.double? = some p ∧ available.double? = some q ∧ |p - q| < Double.bound
      ∧ RatioInRange (Double.nearest (p - q) / p)

/-- The console keeps a percentage between 0 and 100. -/
theorem isFinite_clamp (x : FloatValue) :
    (Number.max (.int 0) (.min (.int 100) (.float x))).isFinite = true := by
  cases x with
  | finite q =>
    simp only [Number.max, Number.min]
    split <;> split <;> rfl
  | _ => rfl

theorem percent_ok_iff {used total : Number} :
    (∃ n, percent used total = .ok n) ↔ (total.truthy = true → used.Divisible total) := by
  unfold percent
  cases htotal : total.truthy with
  | false => simp [pure, Except.pure]
  | true =>
    simp only [Bool.not_true, Bool.false_eq_true, if_false, forall_const]
    rw [← Number.truediv_ok_iff htotal]
    constructor
    · rintro ⟨n, h⟩
      obtain ⟨ratio, hratio, -⟩ := bind_eq_ok.mp h
      exact ⟨ratio, hratio⟩
    · rintro ⟨ratio, hratio⟩
      obtain ⟨n, hn⟩ := Number.round_ok_iff.mpr (isFinite_clamp (ratio.mul (.finite 100)))
      exact ⟨n, bind_eq_ok.mpr ⟨ratio, hratio, hn⟩⟩

/-- The subtraction and the percentage of `_memory_percent`. -/
theorem share_ok_iff {total available : Number} :
    (∃ n, (do let used ← total.sub available; percent used total) = Except.ok n)
      ↔ ShareInRange total available := by
  -- unless both are integers, the difference is a float, or there is none
  have hfloats (hints : ∀ m n, ¬ (total = .int m ∧ available = .int n))
      (hfits : total.Subtractable available ↔ total.Fits ∧ available.Fits) :
      (∃ n, (do let used ← total.sub available; percent used total) = Except.ok n)
        ↔ total.Fits ∧ available.Fits := by
    rw [← hfits, ← Number.sub_ok_iff]
    constructor
    · rintro ⟨n, h⟩
      obtain ⟨used, hused, -⟩ := bind_eq_ok.mp h
      exact ⟨used, hused⟩
    · rintro ⟨used, hused⟩
      obtain ⟨x, y, hx, -, rfl⟩ := (Number.sub_eq_floats hints).mp hused
      have hdivisible : (Number.float (x.sub y)).Divisible total :=
        ⟨trivial, Number.toFloat_ok_iff.mp ⟨x, hx⟩⟩
      obtain ⟨n, hn⟩ := percent_ok_iff.mpr fun _ => hdivisible
      exact ⟨n, bind_eq_ok.mpr ⟨_, hused, hn⟩⟩
  cases total with
  | int t =>
    cases available with
    | int a =>
      simp only [Number.sub, bind_ok]
      rw [percent_ok_iff]
      simp only [Number.truthy, decide_eq_true_eq, Number.Divisible, ShareInRange]
    | float y => exact hfloats (by simp) Iff.rfl
  | float x => exact hfloats (by simp) Iff.rfl

theorem memoryPercent_ok_iff {facts : PyDict} :
    (∃ n, memoryPercent facts = .ok n) ↔
      ((factNumber facts ["memory_percent"]).truthy = false →
        ∀ total available, memorySizes facts = some (total, available) →
          ShareInRange total available) := by
  unfold memoryPercent
  dsimp only
  by_cases hvalue : (factNumber facts ["memory_percent"]).truthy = true
  · simp [hvalue, pure, Except.pure]
  · simp only [hvalue, Bool.false_eq_true, if_false, forall_const]
    cases memorySizes facts with
    | none => simp [pure, Except.pure]
    | some sizes =>
      obtain ⟨total, available⟩ := sizes
      simp only [Option.some.injEq, Prod.mk.injEq, and_imp, forall_eq', forall_apply_eq_imp_iff]
      rw [← share_ok_iff]
      cases total.sub available with
      | error e => simp [bind, Except.bind]
      | ok used =>
        simp only [bind_ok]
        cases percent used total <;> simp [bind, Except.bind, pure, Except.pure]

theorem diskPercent_ok_iff {facts : PyDict} :
    (∃ n, diskPercent facts = .ok n) ↔
      ((factNumber facts ["disk_percent"]).truthy = false →
        ∀ used total, diskSizes facts = some (used, total) →
          total.truthy = true → used.Divisible total) := by
  unfold diskPercent
  dsimp only
  by_cases hvalue : (factNumber facts ["disk_percent"]).truthy = true
  · simp [hvalue, pure, Except.pure]
  · simp only [hvalue, Bool.false_eq_true, if_false, forall_const]
    cases diskSizes facts with
    | none => simp [pure, Except.pure]
    | some sizes =>
      obtain ⟨used, total⟩ := sizes
      simp only [Option.some.injEq, Prod.mk.injEq, and_imp, forall_eq', forall_apply_eq_imp_iff]
      rw [← percent_ok_iff]
      cases percent used total <;> simp [bind, Except.bind, pure, Except.pure]

/-! ## §4. The percentages of the monitor. -/

/-- A ratio as a percentage is finite. -/
theorem isFinite_hundred_iff {z : FloatValue} :
    (z.mul (.finite 100)).isFinite = true ↔ ∃ r, z = .finite r ∧ |r * 100| < Double.bound := by
  cases z with
  | finite r =>
    simp only [FloatValue.mul, FloatValue.isFinite_round_iff, FloatValue.finite.injEq,
      exists_eq_left']
  | nan => simp [FloatValue.mul, FloatValue.isFinite]
  | posInf =>
    have h : FloatValue.posInf.mul (.finite 100) = .posInf := by decide +kernel
    simp [h, FloatValue.isFinite]
  | negInf =>
    have h : FloatValue.negInf.mul (.finite 100) = .negInf := by decide +kernel
    simp [h, FloatValue.isFinite]

theorem isFinite_ratio_iff {ratio : Rat} :
    ((Double.round ratio).mul (.finite 100)).isFinite = true ↔ RatioInRange ratio := by
  rw [isFinite_hundred_iff]
  constructor
  · rintro ⟨r, hr, hpercent⟩
    have hquotient := Double.round_eq_finite_iff.mp ⟨r, hr⟩
    rw [Double.round_of_lt hquotient] at hr
    rw [← FloatValue.finite.inj hr] at hpercent
    exact ⟨hquotient, hpercent⟩
  · rintro ⟨hquotient, hpercent⟩
    exact ⟨_, Double.round_of_lt hquotient, hpercent⟩

/-- A percentage of floats is finite when what is divided is, and the ratio
is in range unless the divisor is an infinity. -/
theorem isFinite_percent_iff {x y : FloatValue} (hy : (FloatValue.finite 0).lt y = true) :
    ((x.div y).mul (.finite 100)).isFinite = true ↔
      ∃ p, x = .finite p ∧ ∀ q, y = .finite q → RatioInRange (p / q) := by
  have hzero : ((FloatValue.finite 0).mul (.finite 100)).isFinite = true := by
    refine isFinite_hundred_iff.mpr ⟨0, rfl, ?_⟩
    decide +kernel
  cases y with
  | nan => cases hy
  | negInf => cases hy
  | posInf =>
    cases x with
    | finite p => simp [FloatValue.div, hzero]
    | _ => simp [FloatValue.div, isFinite_hundred_iff]
  | finite q =>
    have hq : 0 < q := of_decide_eq_true hy
    have hsign : q.num.sign = 1 := Int.sign_eq_one_of_pos (Rat.num_pos.mpr hq)
    cases x with
    | finite p =>
      simp only [FloatValue.div, isFinite_ratio_iff, FloatValue.finite.injEq, forall_eq',
        exists_eq_left']
    | _ => simp [FloatValue.div, FloatValue.sign, FloatValue.infinity, hsign, isFinite_hundred_iff]

theorem roundedPercent_ok_iff_ratio {used total : Number} :
    (∃ n, roundedPercent used total = .ok n) ↔
      ∃ ratio, used.truediv total = .ok ratio ∧ (ratio.mul (.finite 100)).isFinite = true := by
  unfold roundedPercent
  constructor
  · rintro ⟨n, h⟩
    obtain ⟨ratio, hratio, h⟩ := bind_eq_ok.mp h
    exact ⟨ratio, hratio, Number.round_ok_iff.mp ⟨n, h⟩⟩
  · rintro ⟨ratio, hratio, hfinite⟩
    obtain ⟨n, hn⟩ := Number.round_ok_iff.mpr (show (Number.float _).isFinite = true from hfinite)
    exact ⟨n, bind_eq_ok.mpr ⟨ratio, hratio, hn⟩⟩

theorem roundedPercent_ok_iff {used total : Number} (htotal : Number.lt (.int 0) total = true) :
    (∃ n, roundedPercent used total = .ok n) ↔ PercentInRange used total := by
  rw [roundedPercent_ok_iff_ratio]
  have htruthy := Number.truthy_of_pos htotal
  -- Unless both are integers the quotient is that of two doubles.
  have hfloats (hints : ∀ m n, ¬ (used = .int m ∧ total = .int n)) :
      (∃ ratio, used.truediv total = .ok ratio ∧ (ratio.mul (.finite 100)).isFinite = true) ↔
        total.Fits ∧ ∃ p, used.double? = some p
          ∧ ∀ q, total.double? = some q → RatioInRange (p / q) := by
    constructor
    · rintro ⟨ratio, hratio, hfinite⟩
      obtain ⟨x, y, hx, hy, rfl⟩ := (Number.truediv_eq_floats hints htruthy).mp hratio
      obtain ⟨p, rfl, hrange⟩ := (isFinite_percent_iff (Number.toFloat_pos htotal hy)).mp hfinite
      refine ⟨Number.toFloat_ok_iff.mp ⟨y, hy⟩, p, Number.double?_eq_some.mpr hx, fun q hq => ?_⟩
      rw [Number.double?_eq_some, hy] at hq
      exact hrange q (Except.ok.inj hq)
    · rintro ⟨hfits, p, hp, hrange⟩
      obtain ⟨y, hy⟩ := Number.toFloat_ok_iff.mpr hfits
      refine ⟨_, (Number.truediv_eq_floats hints htruthy).mpr
        ⟨_, y, Number.double?_eq_some.mp hp, hy, rfl⟩, ?_⟩
      refine (isFinite_percent_iff (Number.toFloat_pos htotal hy)).mpr ⟨p, rfl, fun q hq => ?_⟩
      exact hrange q (Number.double?_eq_some.mpr (hq ▸ hy))
  cases used with
  | int u =>
    cases total with
    | int t =>
      have ht : t ≠ 0 := of_decide_eq_true htruthy
      simp only [Number.truediv, if_neg ht, PercentInRange]
      rw [← isFinite_ratio_iff]
      cases h : Double.round (u / t) with
      | finite q => simp [FloatValue.orOverflow]
      | _ => simp [FloatValue.orOverflow, isFinite_hundred_iff]
    | float y => exact hfloats (by simp)
  | float x => exact hfloats (by simp)

/-- The subtraction and the percentage of `_facts_summary`. -/
theorem use_ok_iff {total available : Number} (htotal : Number.lt (.int 0) total = true) :
    (∃ n, (do let used ← total.sub available; roundedPercent used total) = Except.ok n)
      ↔ UseInRange total available := by
  -- Unless both are integers the difference is that of two doubles, and may overflow itself.
  have hfloats (hints : ∀ m n, ¬ (total = .int m ∧ available = .int n)) :
      (∃ n, (do let used ← total.sub available; roundedPercent used total) = Except.ok n)
        ↔ ∃ p q, total.double? = some p ∧ available.double? = some q ∧ |p - q| < Double.bound
          ∧ RatioInRange (Double.nearest (p - q) / p) := by
    constructor
    · rintro ⟨n, h⟩
      obtain ⟨used, hused, hpercent⟩ := bind_eq_ok.mp h
      obtain ⟨x, y, hx, hy, rfl⟩ := (Number.sub_eq_floats hints).mp hused
      obtain ⟨-, r, hr, hrange⟩ := (roundedPercent_ok_iff htotal).mp ⟨n, hpercent⟩
      have hr := Except.ok.inj (Number.double?_eq_some.mp hr)
      obtain ⟨p, q, rfl, rfl, hlt, rfl⟩ := FloatValue.sub_eq_finite_iff.mp hr
      have hp := Number.double?_eq_some.mpr hx
      exact ⟨p, q, hp, Number.double?_eq_some.mpr hy, hlt, hrange p hp⟩
    · rintro ⟨p, q, hp, hq, hlt, hrange⟩
      have hx := Number.double?_eq_some.mp hp
      have hsub := FloatValue.sub_eq_finite_iff.mpr ⟨p, q, rfl, rfl, hlt, rfl⟩
      have hused := (Number.sub_eq_floats hints).mpr ⟨_, _, hx, Number.double?_eq_some.mp hq, rfl⟩
      have hpercent : PercentInRange
          (.float ((FloatValue.finite p).sub (.finite q))) total := by
        refine ⟨Number.toFloat_ok_iff.mp ⟨_, hx⟩, Double.nearest (p - q), ?_, fun p' hp' => ?_⟩
        · rw [hsub]
          rfl
        · rw [hp] at hp'
          exact Option.some.inj hp' ▸ hrange
      obtain ⟨n, hn⟩ := (roundedPercent_ok_iff htotal).mpr hpercent
      exact ⟨n, bind_eq_ok.mpr ⟨_, hused, hn⟩⟩
  cases total with
  | int t =>
    cases available with
    | int a => exact roundedPercent_ok_iff htotal
    | float y => exact hfloats (by simp)
  | float x => exact hfloats (by simp)

theorem summaryMemorySizes_pos {facts : PyDict} {total available : Number}
    (h : summaryMemorySizes facts = some (total, available)) :
    Number.lt (.int 0) total = true := by
  obtain ⟨memory, -, h⟩ := Option.bind_eq_some_iff.mp h
  obtain ⟨total', -, h⟩ := Option.bind_eq_some_iff.mp h
  obtain ⟨available', -, h⟩ := Option.bind_eq_some_iff.mp h
  split at h
  · rename_i hpos
    cases h
    exact hpos
  · cases h

theorem summaryDiskSizes_pos {facts : PyDict} {used total : Number}
    (h : summaryDiskSizes facts = some (used, total)) : Number.lt (.int 0) total = true :=
  (Option.filter_eq_some_iff.mp h).2

theorem memoryUsedPercent_ok_iff {facts : PyDict} :
    (∃ n, memoryUsedPercent facts = .ok n) ↔
      ∀ total available, summaryMemorySizes facts = some (total, available) →
        UseInRange total available := by
  unfold memoryUsedPercent
  cases h : summaryMemorySizes facts with
  | none => simp [pure, Except.pure]
  | some sizes =>
    obtain ⟨total, available⟩ := sizes
    simp only [Option.some.injEq, Prod.mk.injEq, and_imp, forall_eq', forall_apply_eq_imp_iff]
    rw [← use_ok_iff (summaryMemorySizes_pos h)]
    cases total.sub available with
    | error e => simp [bind, Except.bind]
    | ok used =>
      simp only [bind_ok]
      cases roundedPercent used total <;> simp [bind, Except.bind, pure, Except.pure]

theorem diskUsedPercent_ok_iff {facts : PyDict} :
    (∃ n, diskUsedPercent facts = .ok n) ↔
      ∀ used total, summaryDiskSizes facts = some (used, total) → PercentInRange used total := by
  unfold diskUsedPercent
  cases h : summaryDiskSizes facts with
  | none => simp [pure, Except.pure]
  | some sizes =>
    obtain ⟨used, total⟩ := sizes
    simp only [Option.some.injEq, Prod.mk.injEq, and_imp, forall_eq', forall_apply_eq_imp_iff]
    rw [← roundedPercent_ok_iff (summaryDiskSizes_pos h)]
    cases roundedPercent used total <;> simp [bind, Except.bind, pure, Except.pure]

theorem optionalText_ok (isprintable : Char → Bool) {v : PyValue} (h : v.readable = true) :
    ∃ t, optionalText isprintable v = .ok t := by
  obtain ⟨s, hs, -⟩ := PyValue.asText_ok isprintable h
  unfold optionalText
  split
  · exact ⟨_, rfl⟩
  · exact ⟨some s, by rw [hs]; rfl⟩

theorem readable_dict {facts d : PyDict} {name : String}
    (hread : PyValue.readableFields facts = true) (h : (facts.get name).dict? = some d) :
    PyValue.readableFields d = true := by
  have hvalue := PyDict.readable_get hread name
  rw [PyValue.dict?_eq_some h] at hvalue
  exact hvalue

theorem loadText_ok (isprintable : Char → Bool) {facts : PyDict}
    (hread : PyValue.readableFields facts = true) (key : String) :
    ∃ t, loadText isprintable facts key = .ok t := by
  unfold loadText
  split
  · rename_i load hload
    exact optionalText_ok isprintable (PyDict.readable_get (readable_dict hread hload) key)
  · exact ⟨_, rfl⟩

theorem diskPathText_ok (isprintable : Char → Bool) {facts : PyDict}
    (hread : PyValue.readableFields facts = true) :
    ∃ t, diskPathText isprintable facts = .ok t := by
  unfold diskPathText
  split
  · rename_i disk hdisk
    split
    · exact optionalText_ok isprintable (PyDict.readable_get (readable_dict hread hdisk) _)
    · exact ⟨_, rfl⟩
  · exact ⟨_, rfl⟩

/-- **When the summary of the monitor is built.** -/
theorem factsSummary_ok_iff (isprintable : Char → Bool) {facts : PyDict}
    (hread : PyValue.readableFields facts = true) :
    (∃ summary, factsSummary isprintable facts = .ok summary) ↔
      (∃ n, memoryUsedPercent facts = .ok n) ∧ (∃ n, diskUsedPercent facts = .ok n) := by
  obtain ⟨load1m, h1⟩ := loadText_ok isprintable hread "1m"
  obtain ⟨load5m, h5⟩ := loadText_ok isprintable hread "5m"
  obtain ⟨load15m, h15⟩ := loadText_ok isprintable hread "15m"
  obtain ⟨path, hpath⟩ := diskPathText_ok isprintable hread
  unfold factsSummary
  rw [h1, h5, h15, hpath]
  simp only [bind_ok]
  cases memoryUsedPercent facts with
  | error e => simp [bind, Except.bind]
  | ok memory =>
    cases diskUsedPercent facts with
    | error e => simp [bind, Except.bind]
    | ok disk => simp [bind, Except.bind, pure, Except.pure]

/-! ## §5. The load, the uptime and the probe. -/

/-- The items of the load, up to the first that is a number: it is not an
integer beyond the range. -/
def LoadInRange : List PyValue → Prop
  | [] => True
  | item :: items =>
    match item.number? with
    | some n => n.Fits
    | none => item.floatText? = none → LoadInRange items

/-- A double is shown with two decimals. -/
theorem firstLoad_of_toFloat {item : PyValue} (items : List PyValue) {x : FloatValue}
    (hx : item.toFloat = .ok x) (hrange : x.inRange = true) :
    ∃ n, firstLoad (item :: items) = .ok n := by
  obtain ⟨y, hy⟩ := FloatValue.round2_ok hrange
  have hitem : loadItem item = .ok y := by rw [loadItem, hx, bind_ok, hy]
  exact ⟨.float y, by rw [firstLoad, hitem]; rfl⟩

theorem firstLoad_ok_iff {items : List PyValue}
    (hread : ∀ item ∈ items, item.readable = true) :
    (∃ n, firstLoad items = .ok n) ↔ LoadInRange items := by
  induction items with
  | nil => simp [firstLoad, LoadInRange]
  | cons item items ih =>
    obtain ⟨hitem, hitems⟩ := List.forall_mem_cons.mp hread
    unfold LoadInRange
    cases hnumber : item.number? with
    -- An item that is a number decides: it is returned, or its conversion raises out of the loop.
    | some n =>
      have hfloat := PyValue.toFloat_number hnumber
      simp only []
      rw [← Number.toFloat_ok_iff]
      constructor
      · rintro ⟨v, hv⟩
        cases hx : n.toFloat with
        | ok x => exact ⟨x, rfl⟩
        | error e =>
          have herror : loadItem item = .error e := by rw [loadItem, hfloat, hx]; rfl
          rw [firstLoad, herror, Number.toFloat_error hx] at hv
          cases hv
      · rintro ⟨x, hx⟩
        exact firstLoad_of_toFloat items (hfloat.trans hx)
          (PyValue.inRange_toFloat hitem hnumber hx)
    | none =>
      simp only []
      cases htext : item.floatText? with
      | some x =>
        have hload := firstLoad_of_toFloat items (PyValue.toFloat_text hnumber htext)
          (PyValue.inRange_floatText htext)
        exact ⟨nofun, fun _ => hload⟩
      | none =>
        -- Anything else is passed over.
        have hcaught : exceptTypeValue (loadItem item) = .ok none :=
          PyValue.toFloat_caught hnumber htext FloatValue.round2
        rw [firstLoad, hcaught]
        exact ⟨fun h _ => (ih hitems).mp h, fun h => (ih hitems).mpr (h rfl)⟩

theorem loadValue_ok_iff {facts : PyDict} (hread : PyValue.readableFields facts = true) :
    (∃ n, loadValue facts = .ok n) ↔
      ∀ load, ((facts.get "load_average").or (facts.get "load")).dict? = some load →
        LoadInRange (loadItems load) := by
  have hvalue := PyValue.readable_or (PyDict.readable_get hread "load_average")
    (PyDict.readable_get hread "load")
  unfold loadValue
  generalize (facts.get "load_average").or (facts.get "load") = value at *
  cases value with
  | dict load =>
    have hitems : ∀ item ∈ loadItems load, item.readable = true := by
      intro item hitem
      obtain ⟨name, -, rfl⟩ := List.mem_map.mp hitem
      exact PyDict.readable_get hvalue name
    simp only [PyValue.number?, PyValue.dict?, Option.some.injEq, forall_eq']
    exact firstLoad_ok_iff hitems
  | _ => simp [PyValue.number?, PyValue.dict?]

theorem durationText_ok {seconds : Int} (h : PyValue.printable seconds = true) :
    ∃ t, durationText seconds = .ok t := by
  have hdays : PyValue.printable (seconds / 86400) = true :=
    PyValue.printable_of_le (by omega) h
  unfold durationText
  dsimp only
  rw [PyValue.intText_ok hdays]
  split
  · exact ⟨_, rfl⟩
  · split <;> exact ⟨_, rfl⟩

/-- The seconds that a readable number stands for have a text. -/
theorem printable_toInt {v : PyValue} {n : Number} {seconds : Int} (h : v.readable = true)
    (hn : v.number? = some n) (hseconds : n.toInt = .ok seconds) :
    PyValue.printable seconds = true := by
  cases v with
  | bool b =>
    cases hn
    cases hseconds
    exact PyValue.printable_bool b
  | int m =>
    cases hn
    cases hseconds
    exact h
  | float x =>
    cases hn
    cases hx : x.value with
    | finite q =>
      have hrange : x.value.inRange = true := h
      rw [hx] at hrange
      rw [Number.toInt, hx] at hseconds
      cases hseconds
      exact PyValue.printable_truncate (of_decide_eq_true hrange)
    | _ =>
      rw [Number.toInt, hx] at hseconds
      cases hseconds
  | _ => cases hn

theorem readable_uptime {facts : PyDict} {n : Number}
    (hread : PyValue.readableFields facts = true) (h : uptimeNumber facts = some n) :
    ∃ v : PyValue, v.readable = true ∧ v.number? = some n := by
  have hvalue := PyDict.readable_get hread "uptime"
  unfold uptimeNumber at h
  split at h
  · rename_i uptime huptime
    rw [huptime] at hvalue
    exact ⟨_, PyDict.readable_get hvalue "seconds", h⟩
  · exact ⟨_, hvalue, h⟩

/-- **When the uptime is shown**: its text is the reported one, or one of the
console's own. -/
theorem uptimeText_ok {facts : PyDict} (hread : PyValue.readableFields facts = true)
    (h : ∀ n, uptimeNumber facts = some n → n.isFinite = true) :
    ∃ s, uptimeText facts = .ok s ∧ (facts.get "uptime" = .str s ∨ ∃ t, s = codePoints t) := by
  unfold uptimeText
  cases hn : uptimeNumber facts with
  | some n =>
    obtain ⟨v, hv, hnumber⟩ := readable_uptime hread hn
    obtain ⟨seconds, hseconds⟩ := Number.toInt_ok_iff.mpr (h n hn)
    obtain ⟨t, ht⟩ := durationText_ok (printable_toInt hv hnumber hseconds)
    exact ⟨codePoints t, by simp only [hseconds, bind_ok, ht]; rfl, .inr ⟨t, rfl⟩⟩
  | none =>
    cases facts.get "uptime" with
    | str s => exact ⟨s, rfl, .inl rfl⟩
    | _ => exact ⟨_, rfl, .inr ⟨"-", rfl⟩⟩

theorem isFinite_of_uptimeText {facts : PyDict} {s : CodePoints}
    (h : uptimeText facts = .ok s) {n : Number} (hn : uptimeNumber facts = some n) :
    n.isFinite = true := by
  unfold uptimeText at h
  rw [hn] at h
  obtain ⟨seconds, hseconds, -⟩ := bind_eq_ok.mp h
  exact Number.toInt_ok_iff.mp ⟨seconds, hseconds⟩

theorem optionalInt_of_number {v : PyValue} {n : Number} (hn : v.number? = some n) :
    optionalInt v = exceptTypeValue n.toInt := by
  have hint : v.toInt = n.toInt := by
    unfold PyValue.toInt
    rw [hn]
  cases v with
  | none => cases hn
  | str s => cases hn
  | _ => exact congrArg exceptTypeValue hint

/-- What is no number is an integer, or raises what the handler catches. -/
theorem optionalInt_of_not_number {v : PyValue} (hn : v.number? = none) :
    ∃ n, optionalInt v = .ok n := by
  have htext (t : PyValue) (ht : t.number? = none) : ∃ n, exceptTypeValue t.toInt = .ok n := by
    unfold PyValue.toInt
    rw [ht]
    cases t.intText? with
    | some n => exact ⟨_, rfl⟩
    | none => cases t <;> exact ⟨none, rfl⟩
  cases v with
  | none => exact ⟨none, rfl⟩
  | str s =>
    cases s with
    | nil => exact ⟨none, rfl⟩
    | cons c s => exact htext (.str (c :: s)) hn
  | list xs => exact htext (.list xs) hn
  | dict kvs => exact htext (.dict kvs) hn
  | _ => cases hn

theorem optionalInt_ok_iff {v : PyValue} :
    (∃ n, optionalInt v = .ok n) ↔ v.infinite = false := by
  cases v with
  | float x =>
    rw [optionalInt_of_number rfl]
    cases hx : x.value <;>
      simp [PyValue.infinite, hx, Number.toInt, FloatValue.toInteger, exceptTypeValue,
        FloatValue.nanToInteger, FloatValue.infinityToInteger]
  | bool b =>
    rw [optionalInt_of_number rfl]
    exact ⟨fun _ => rfl, fun _ => ⟨_, rfl⟩⟩
  | int n =>
    rw [optionalInt_of_number rfl]
    exact ⟨fun _ => rfl, fun _ => ⟨_, rfl⟩⟩
  | _ => exact ⟨fun _ => rfl, fun _ => optionalInt_of_not_number rfl⟩

/-- **When the probe is built.** -/
theorem probeFromFacts_ok_iff (isprintable : Char → Bool) {facts : PyDict}
    (hread : PyValue.readableFields facts = true) :
    (∃ probe, probeFromFacts isprintable facts = .ok probe) ↔
      ∀ key ∈ ["memory_mb", "disk_free_mb"], ((rawFacts facts).get key).infinite = false := by
  have hraw : PyValue.readableFields (rawFacts facts) = true := by
    unfold rawFacts
    cases h : (facts.get "capabilities").dict? with
    | none => exact hread
    | some raw => exact readable_dict hread h
  obtain ⟨osFamily, hos, -⟩ := PyValue.asText_ok isprintable
    (PyValue.readable_or (PyDict.readable_get hraw "os_family") rfl :
      (((rawFacts facts).get "os_family").or (.text "unknown")).readable = true)
  unfold probeFromFacts
  dsimp only
  rw [hos, bind_ok, List.forall_mem_cons, List.forall_mem_singleton, ← optionalInt_ok_iff,
    ← optionalInt_ok_iff]
  cases optionalInt ((rawFacts facts).get "memory_mb") with
  | error e => simp [bind, Except.bind]
  | ok memory =>
    cases optionalInt ((rawFacts facts).get "disk_free_mb") with
    | error e => simp [bind, Except.bind]
    | ok disk => simp [bind, Except.bind, pure, Except.pure]

/-! ## §6. Facts that can be shown. -/

/-- Facts that neither the console nor the monitor stumbles over. -/
structure Presentable (accepts : CodePoints → Bool) (facts : PyDict) : Prop where
  /-- The reported texts that are shown as they are. -/
  texts : ∀ key ∈ ["uptime", "worker_mode", "task_policy"], ∀ s,
    facts.get key = .str s → accepts s = true
  os : ∀ s, osValue facts = .str s → accepts s = true
  uptime : ∀ n, uptimeNumber facts = some n → n.isFinite = true
  probe : ∀ key ∈ ["memory_mb", "disk_free_mb"], ((rawFacts facts).get key).infinite = false
  memory : (factNumber facts ["memory_percent"]).truthy = false →
    ∀ total available, memorySizes facts = some (total, available) → ShareInRange total available
  disk : (factNumber facts ["disk_percent"]).truthy = false →
    ∀ used total, diskSizes facts = some (used, total) →
      total.truthy = true → used.Divisible total
  load : ∀ load, ((facts.get "load_average").or (facts.get "load")).dict? = some load →
    LoadInRange (loadItems load)
  usedMemory : ∀ total available, summaryMemorySizes facts = some (total, available) →
    UseInRange total available
  usedDisk : ∀ used total, summaryDiskSizes facts = some (used, total) → PercentInRange used total

theorem readable_osValue {facts : PyDict} (hread : PyValue.readableFields facts = true) :
    (osValue facts).readable = true := by
  have hget (name : String) := PyDict.readable_get hread name
  have hfamily : (osFamilyFact facts).readable = true := by
    unfold osFamilyFact
    split
    · rename_i capabilities h
      exact PyDict.readable_get (readable_dict hread h) "os_family"
    · rfl
  exact PyValue.readable_or (PyValue.readable_or (PyValue.readable_or
    (PyValue.readable_or (hget _) (hget _)) (hget _)) hfamily) rfl

section
variable {accepts : CodePoints → Bool} (haccepts : ∀ s : String, accepts (codePoints s) = true)
  (isprintable : Char → Bool)

include haccepts

/-- The text of a reported value, or of what stands in for it, is accepted
when a reported text is. -/
theorem accepts_or_text {v : PyValue} (hread : v.readable = true) (default : String)
    (h : ∀ s, v = .str s → accepts s = true) :
    ∃ s, (v.or (.text default)).asText isprintable = .ok s ∧ accepts s = true := by
  obtain ⟨s, hs, hshape⟩ := PyValue.asText_ok isprintable
    (PyValue.readable_or hread rfl : (v.or (.text default)).readable = true)
  refine ⟨s, hs, ?_⟩
  obtain hstr | ⟨t, rfl⟩ := hshape
  · unfold PyValue.or at hstr
    split at hstr
    · exact h s hstr
    · cases hstr
      exact haccepts default
  · exact haccepts t

/-- A text that was accepted next to others. -/
theorem accepts_of_or_text {v : PyValue} {default : String} {s t : CodePoints}
    (ht : (v.or (.text default)).asText isprintable = .ok t) (haccept : accepts t = true)
    (h : v = .str s) : accepts s = true := by
  subst h
  unfold PyValue.or at ht
  split at ht
  · cases ht
    exact haccept
  · rename_i hempty
    cases s with
    | nil => exact haccepts ""
    | cons c s => exact absurd rfl hempty

theorem consoleNodeResponse_ok (successful : Bool) (node : Node) (now : Timestamp)
    {event : HeartbeatEvent} (h : Presentable accepts event.facts) :
    ∃ response, consoleNodeResponse accepts isprintable successful node now (some event)
      = .ok response := by
  have hread := event.readable_facts
  have hget (name : String) := PyDict.readable_get hread name
  obtain ⟨probe, hprobe⟩ := (probeFromFacts_ok_iff isprintable hread).mpr h.probe
  obtain ⟨mode, hmode, hmode'⟩ := accepts_or_text haccepts isprintable (hget "worker_mode")
    "unknown" (h.texts "worker_mode" (by simp))
  obtain ⟨policy, hpolicy, hpolicy'⟩ := accepts_or_text haccepts isprintable (hget "task_policy")
    (if (classifyCapabilities probe).canPollTasks then "poll-and-exec" else "heartbeat-only")
    (h.texts "task_policy" (by simp))
  obtain ⟨os, hos, hosShape⟩ := PyValue.asText_ok isprintable (readable_osValue hread)
  have hos' : accepts os = true := by
    obtain hstr | ⟨t, rfl⟩ := hosShape
    · exact h.os os hstr
    · exact haccepts t
  have hos : osText isprintable event.facts = .ok os := hos
  obtain ⟨uptime, huptime, hshape⟩ := uptimeText_ok hread h.uptime
  have huptime' : accepts uptime = true := by
    obtain hstr | ⟨t, rfl⟩ := hshape
    · exact h.texts "uptime" (by simp) uptime hstr
    · exact haccepts t
  -- The four texts are there; now the three numbers.
  obtain ⟨memory, hmemory⟩ := memoryPercent_ok_iff.mpr h.memory
  obtain ⟨disk, hdisk⟩ := diskPercent_ok_iff.mpr h.disk
  obtain ⟨load, hload⟩ := (loadValue_ok_iff hread).mpr h.load
  have hall : ([os, uptime, mode, policy].all accepts) = true := by
    simp [hos', huptime', hmode', hpolicy']
  unfold consoleNodeResponse
  simp only [Option.map_some, Option.getD_some, hprobe, hmode, hpolicy, hos, huptime, hmemory,
    hdisk, hload, bind_ok, hall, Bool.not_true, Bool.false_eq_true, if_false]
  exact ⟨_, rfl⟩

/-- What a response that was built says about the facts. -/
theorem presentable_of_response {successful : Bool} {node : Node} {now : Timestamp}
    {event : HeartbeatEvent} {response : ConsoleNodeResponse}
    (h : consoleNodeResponse accepts isprintable successful node now (some event) = .ok response)
    {summary : FactsSummary} (hsummary : factsSummary isprintable event.facts = .ok summary) :
    Presentable accepts event.facts := by
  have hread := event.readable_facts
  obtain ⟨hmemoryUse, hdiskUse⟩ := (factsSummary_ok_iff isprintable hread).mp ⟨_, hsummary⟩
  unfold consoleNodeResponse at h
  simp only [Option.map_some, Option.getD_some] at h
  obtain ⟨probe, hprobe, h⟩ := bind_eq_ok.mp h
  obtain ⟨mode, hmode, h⟩ := bind_eq_ok.mp h
  obtain ⟨policy, hpolicy, h⟩ := bind_eq_ok.mp h
  obtain ⟨os, hos, h⟩ := bind_eq_ok.mp h
  obtain ⟨uptime, huptime, h⟩ := bind_eq_ok.mp h
  obtain ⟨memory, hmemory, h⟩ := bind_eq_ok.mp h
  obtain ⟨disk, hdisk, h⟩ := bind_eq_ok.mp h
  obtain ⟨load, hload, h⟩ := bind_eq_ok.mp h
  -- The texts are validated last, all of them at once.
  have hall : ([os, uptime, mode, policy].all accepts) = true := by
    by_contra hall
    rw [Bool.not_eq_true] at hall
    simp [hall, throw, throwThe, MonadExceptOf.throw] at h
  simp only [List.all_cons, List.all_nil, Bool.and_true, Bool.and_eq_true] at hall
  obtain ⟨hos', huptime', hmode', hpolicy'⟩ := hall
  refine
    { texts := fun key hkey s hs => ?_
      os := fun s hs => ?_
      uptime := fun n hn => isFinite_of_uptimeText huptime hn
      probe := (probeFromFacts_ok_iff isprintable hread).mp ⟨_, hprobe⟩
      memory := memoryPercent_ok_iff.mp ⟨_, hmemory⟩
      disk := diskPercent_ok_iff.mp ⟨_, hdisk⟩
      load := (loadValue_ok_iff hread).mp ⟨_, hload⟩
      usedMemory := memoryUsedPercent_ok_iff.mp hmemoryUse
      usedDisk := diskUsedPercent_ok_iff.mp hdiskUse }
  · simp only [List.mem_cons, List.not_mem_nil, or_false] at hkey
    obtain rfl | rfl | rfl := hkey
    · have hshown : uptimeText event.facts = .ok s := by
        unfold uptimeText uptimeNumber
        rw [hs]
        rfl
      rw [hshown] at huptime
      exact Except.ok.inj huptime ▸ huptime'
    · exact accepts_of_or_text haccepts isprintable hmode hmode' hs
    · exact accepts_of_or_text haccepts isprintable hpolicy hpolicy' hs
  · rw [osText, hs] at hos
    exact Except.ok.inj hos ▸ hos'

/-- **A heartbeat that can be shown.**  The response of the console and the
summary of the monitor are built exactly when the uptime is finite, the
probe's sizes are not infinite, no integer and no ratio is beyond the range of
a double, what the monitor divides is finite, and the texts are texts. -/
theorem heartbeat_shown_iff (successful : Bool) (node : Node) (now : Timestamp)
    (event : HeartbeatEvent) :
    ((∃ response, consoleNodeResponse accepts isprintable successful node now (some event)
        = .ok response)
      ∧ ∃ summary, factsSummary isprintable event.facts = .ok summary)
    ↔ Presentable accepts event.facts := by
  constructor
  · rintro ⟨⟨response, h⟩, ⟨summary, hsummary⟩⟩
    exact presentable_of_response haccepts isprintable h hsummary
  · intro h
    refine ⟨consoleNodeResponse_ok haccepts isprintable successful node now h, ?_⟩
    exact (factsSummary_ok_iff isprintable event.readable_facts).mpr
      ⟨memoryUsedPercent_ok_iff.mpr h.usedMemory, diskUsedPercent_ok_iff.mpr h.usedDisk⟩

end

/-- What a text field of a response takes. -/
def validText (s : CodePoints) : Bool := (toText? s).isSome

theorem validText_codePoints (s : String) : validText (codePoints s) = true := by
  rw [validText, toText?_codePoints]
  rfl

/-- The characters of ASCII that print. -/
def isAsciiPrintable (c : Char) : Bool := 32 ≤ c.toNat && c.toNat < 127

/-- A heartbeat with the memory, the load and the uptime of an idle node. -/
def idleHeartbeat : HeartbeatEvent where
  outcome := "ok"
  createdAt := 0
  details := PyValue.ofJsonFields [("facts", .obj [
    ("memory", .obj [("total_kb", .int 4), ("available_kb", .int 3)]),
    ("load_average", .obj [("1m", .str "0.1")]),
    ("uptime", .obj [("seconds", .int 3600)])])]
  readable := by decide +kernel

theorem idleHeartbeat_shown :
    (∃ response, consoleNodeResponse validText isAsciiPrintable true beatingNode 0
        (some idleHeartbeat) = .ok response)
      ∧ ∃ summary, factsSummary isAsciiPrintable idleHeartbeat.facts = .ok summary := by
  refine (heartbeat_shown_iff validText_codePoints _ true beatingNode 0 idleHeartbeat).mpr
    ⟨?_, ?_, ?_, ?_, ?_, ?_, ?_, ?_, ?_⟩
  · intro key hkey s hs
    obtain rfl | rfl | rfl : key = "uptime" ∨ key = "worker_mode" ∨ key = "task_policy" := by
      simpa using hkey
    all_goals cases hs
  · intro s hs
    cases hs
    exact validText_codePoints "unknown"
  · intro n hn
    cases hn
    rfl
  · decide +kernel
  · rintro - total available hsizes
    have hmemory : memorySizes idleHeartbeat.facts = some (.int 4, .int 3) := by decide +kernel
    cases hmemory.symm.trans hsizes
    exact fun _ => by decide +kernel
  · rintro - used total hsizes
    have hdisk : diskSizes idleHeartbeat.facts = none := by decide +kernel
    cases hdisk.symm.trans hsizes
  · intro load hload
    cases hload
    exact fun htext => absurd htext (by decide +kernel)
  · intro total available hsizes
    have hmemory : summaryMemorySizes idleHeartbeat.facts = some (.int 4, .int 3) := by
      decide +kernel
    cases hmemory.symm.trans hsizes
    exact ⟨by decide +kernel, by decide +kernel⟩
  · intro used total hsizes
    have hdisk : summaryDiskSizes idleHeartbeat.facts = none := by decide +kernel
    cases hdisk.symm.trans hsizes

/-- The facts of a node that has been up for ever. -/
def infiniteUptime : HeartbeatRequest where
  fingerprint := "sha256:abc"
  facts := [("uptime", .obj [("seconds", .float ⟨.posInf, "inf"⟩)])]

/-- The row of that heartbeat. -/
def infiniteUptimeRow : AuditEvent where
  eventType := "node"
  subjectType := "node"
  subjectId := "node_a"
  action := "heartbeat"
  outcome := "ok"
  details := [("status", .str "ok"), ("facts", .obj infiniteUptime.facts),
    ("worker_compatible", .bool true)]
  createdAt := 0

/-- The store with the node that sends it. -/
def beatingWorld : World where
  store := { Store.empty with nodes := .single beatingNode }
  files _ := .missing

/-- **An infinite uptime breaks the console**: the heartbeat is accepted and
stored, and the response for its node raises. -/
theorem infiniteUptime_breaks_console :
    ((heartbeat "node_a" infiniteUptime).run (exec Env.quiet) beatingWorld).1
        = .ok (.heartbeat "node_a" "ok" "0.1" true)
      ∧ ((heartbeat "node_a" infiniteUptime).run (exec Env.quiet)
          beatingWorld).2.store.latestNodeHeartbeatEvent "node_a" = some infiniteUptimeRow
      ∧ consoleNodeResponse validText isAsciiPrintable true beatingNode 0
          (some (.ofRow infiniteUptimeRow (by decide +kernel)))
        = .error FloatValue.infinityToInteger := by
  refine ⟨by decide +kernel, by decide +kernel, by decide +kernel⟩

end Hmn
