/-
  Hmn.Services.Planners — the plans of a restore, of a migration and of the
  backups.

  The three planners read the monitor of a service, which is whatever JSON the
  registry holds, through the same few helpers: a dictionary or nothing, the
  first true value of several keys, a list of texts.

  What can be raised on the way is `Hmn.Services.PlannersTotal`.
-/
import Hmn.Docs.Noninterference
import Hmn.Services.Merge
import Hmn.Services.Registry
import Mathlib.Algebra.GroupWithZero.Nat

namespace Hmn

open Framework

/-! ## §1. What the planners share. -/

/-- `SKELETON_ACTION_RESULT`. -/
def skeletonActionResult : Dict :=
  [("approval_required", .bool true), ("not_executed", .bool true), ("machine_changed", .bool false)]

/-- `_backup_metadata`. -/
def backupMetadata (service : RegistryService) : Dict := dictAt service.monitor "backup"

/-- `_restore_metadata`. -/
def restoreMetadata (service : RegistryService) : Dict := dictAt service.monitor "restore"

/-- `d.get(key)`. -/
def getOrNone (d : Dict) (key : String) : Json := (d.get? key).getD .null

/-- `d.get(first) or d.get(second) or ...`. -/
def getAny (d : Dict) : List String → Json
  | [] => .null
  | [key] => getOrNone d key
  | key :: keys => if (getOrNone d key).truthy then getOrNone d key else getAny d keys

/-- `_dict_value`. -/
def dictValue : Json → Dict
  | .obj kvs => kvs
  | _ => []

/-- `_string_list`. -/
def stringList : Json → Except PyError (List Json)
  | .arr xs => .ok (xs.map fun x => .str x.asStr)
  | value => do
    let key ← hashKey value
    if key = .null ∨ key = .str "" then .ok [] else .ok [.str value.asStr]

/-- `_string_value`, with what is made of the text. -/
def stringValueBy (redact : String → String) : Json → Option String
  | .null => none
  | value => some (redact value.asStr)

/-- `_normalize_adapter`. -/
def normalizeAdapter : Json → Option String
  | .str adapter =>
    let adapter := Text.lower (Text.strip adapter)
    if adapter ∈ ["restic", "borgmatic", "kopia"] then some adapter else none
  | _ => none

/-- A text or `None`. -/
def orNone : Option String → Json
  | none => .null
  | some text => .str text

/-- `a or b` of texts. -/
def orText (text : Option String) (default : String) : String :=
  match text with
  | some text => if text = "" then default else text
  | none => default

/-- `bool(text)`. -/
def isText (text : Option String) : Bool := text.getD "" ≠ ""

/-- `_redacted_repository`. -/
def redactedRepository (backup : Dict) : Json :=
  if (getAny backup ["repository", "target"]).truthy then .str redacted else .null

/-- `_registry_source`. -/
def registrySource (registry : ServiceRegistry) : String :=
  match registry.listServices with
  | [] => "service-registry"
  | service :: _ => orText (some service.source) "service-registry"

/-- `f"{service.ports or []}"`. -/
def portsRepr (service : RegistryService) : String := (Json.arr (service.ports.map .int)).repr

/-- `f"{service.domains or []}"`. -/
def domainsRepr (service : RegistryService) : String := (Json.arr (service.domains.map .str)).repr

/-- `_default_healthcheck`. -/
def defaultHealthcheck (service : RegistryService) : Option String :=
  service.domains.head?.map fun domain => "https://" ++ domain ++ "/healthz"

/-- A step of a plan. -/
def named (name detail : String) : Json := .obj [("name", .str name), ("detail", .str detail)]

/-- A check of a plan. -/
def planned (name detail : String) : Json :=
  .obj [("name", .str name), ("status", .str "planned"), ("detail", .str detail)]

/-- The keys of the path a restore goes to. -/
def targetKeys : List String := ["target_path", "path", "target"]

/-! ## §2. `restore.py`. -/

namespace Restore

/-- The arguments of `build_restore_plan`. -/
structure Args where
  serviceId : Option String := none
  targetNode : Option String := none
  snapshot : Option String := none

/-- `_string_value`. -/
def stringValue (alnum : Char → Bool) (value : Json) : Option String :=
  stringValueBy (redactText alnum) value

/-- `_select_services`. -/
def selectServices (registry : ServiceRegistry) (serviceId : Option String) :
    List RegistryService :=
  match serviceId with
  | none => registry.listServices
  | some serviceId => registry.listServices.filter (·.serviceId = serviceId)

/-- `_snapshot_selector`. -/
def snapshotSelector (snapshot : Option String) : String :=
  let normalized := Text.strip (snapshot.getD "")
  if normalized = "" ∨ Text.lower normalized = "latest" then "latest" else redacted

/-- `_preflight_checks`. -/
def preflightChecks (service : RegistryService) (targetNode : String) (targetPath : Option String)
    (serviceStopRequired : Bool) (domainCutoverHint : Option String) : List Json :=
  [planned "disk_space" ("确认目标节点 " ++ targetNode ++ " 具备足够磁盘空间容纳恢复数据。"),
    planned "path_exists_or_empty" (if isText targetPath then "确认目标路径存在，或为空目录后再执行恢复。"
      else "确认恢复目标路径后再验证是否存在或为空目录。"),
    planned "permissions" "确认恢复执行用户对目标路径拥有写入权限，并可修改属主/权限。",
    planned "port_conflicts" ("检查目标节点端口冲突：" ++ portsRepr service ++ "。"),
    .obj [("name", .str "service_stop_required"), ("status", .str "planned"),
      ("required", .bool serviceStopRequired),
      ("detail", .str "若恢复会覆盖运行中数据，先在审批通过后停服务；当前 plan 不执行停服。")],
    planned "domain_cutover"
      (orText domainCutoverHint "如涉及对外流量，请确认域名 / 入口切换窗口与回切策略。")]

/-- A numbered step. -/
def step (n : Int) (name detail : String) : Json :=
  .obj [("step", .int n), ("name", .str name), ("detail", .str detail)]

/-- `_restore_steps`. -/
def restoreSteps (service : RegistryService) (adapter : Option String) : List Json :=
  [step 1 "select_snapshot" ("根据审批结果选择 " ++ orText adapter "backup-adapter"
      ++ " 快照或 latest；当前仅生成计划。"),
    step 2 "prepare_target" "校验目标节点、目标路径、权限和空间；当前不读取真实目录内容。",
    step 3 "restore_data" "执行恢复命令骨架并记录输出；当前 plan 不连接仓库、不落地恢复。",
    step 4 "reconcile_runtime" ("按服务类型 " ++ service.kind
      ++ " 补齐运行时配置并准备后续验证；当前不启动/停止服务。")]

/-- `_verification_steps`. -/
def verificationSteps (alnum : Char → Bool) (service : RegistryService) (backup restore : Dict) :
    Except PyError (List Json) := do
  let given := stringValue alnum (getOrNone restore "healthcheck")
  let healthcheck := if isText given then given else defaultHealthcheck service
  let smokeCommands ← stringList (getOrNone restore "smoke")
  let checksum := stringValue alnum (getOrNone (dictValue (getOrNone backup "verify")) "checksum")
  .ok [named "checksum" ("按备份元数据校验 checksum：" ++ orText checksum "pending" ++ "。"),
    named "healthcheck" ("验证健康检查：" ++ orText healthcheck "pending" ++ "。"),
    named "port" ("确认监听端口与 registry 一致：" ++ portsRepr service ++ "。"),
    named "domain" ("确认域名解析/入口回源正确：" ++ domainsRepr service ++ "。"),
    .obj [("name", .str "smoke"), ("detail", .arr (if smokeCommands = [] then
      [.str "执行基础 smoke test（如首页、登录、关键接口）。"] else smokeCommands))]]

/-- `_rollback_hint`. -/
def rollbackHint (service : RegistryService) (adapter : Option String) : Json :=
  .obj [("summary",
      .str "若验证失败，保留当前目标节点现场，切回旧实例或旧域名入口，并重新选择上一个可用快照。"),
    ("service_id", .str service.serviceId), ("adapter", orNone adapter),
    ("machine_changed", .bool false)]

/-- `bool(restore.get("service_stop_required", bool(service.runtime)))`. -/
def serviceStopRequired (service : RegistryService) (restore : Dict) : Bool :=
  match restore.get? "service_stop_required" with
  | some value => value.truthy
  | none => isText service.runtime

/-- The warnings of a service, with those about its metadata in front. -/
def warnings (service : RegistryService) (backup restore : Dict) : List String :=
  (if restore = [] then ["missing restore metadata for " ++ service.serviceId] else [])
    ++ (if backup = [] then ["missing backup metadata for " ++ service.serviceId] else [])
    ++ service.warnings

/-- The warnings that count. -/
def missingMetadata (warnings : List String) : Nat :=
  warnings.countP fun warning => Text.contains warning "missing restore metadata"
    || Text.contains warning "missing backup metadata"

/-- `_service_restore_payload`; with it, how many of its warnings count. -/
def serviceRestorePayload (alnum : Char → Bool) (args : Args) (service : RegistryService) :
    Except PyError (Json × Nat) := do
  let backup := backupMetadata service
  let restore := restoreMetadata service
  let targetNode := orText (stringValue alnum (orNone args.targetNode)) service.node
  let targetPath := stringValue alnum (getAny restore targetKeys)
  let snapshot := orText (stringValue alnum (orNone args.snapshot))
    (orText (stringValue alnum (getAny restore ["snapshot", "snapshot_id"])) "latest")
  let adapter := normalizeAdapter (getOrNone backup "adapter")
  let stopRequired := serviceStopRequired service restore
  let cutoverHint := stringValue alnum (getOrNone restore "domain_cutover_hint")
  let verification ← verificationSteps alnum service backup restore
  .ok (.obj [("service_id", .str service.serviceId), ("node", .str service.node),
    ("adapter", orNone adapter), ("repository", redactedRepository backup),
    ("source_selector", redactedRepository backup),
    ("snapshot_selector", .str (snapshotSelector (some snapshot))),
    ("target_node", .str targetNode),
    ("target_path", if isText targetPath then .str redacted else .null),
    ("preflight_checks", .arr (preflightChecks service targetNode targetPath stopRequired cutoverHint)),
    ("restore_steps", .arr (restoreSteps service adapter)),
    ("verification_steps", .arr verification), ("rollback_hint", rollbackHint service adapter),
    ("apply", .obj skeletonActionResult),
    ("warnings", .arr ((warnings service backup restore).map .str))],
    missingMetadata (warnings service backup restore))

/-- `build_restore_plan`. -/
def buildRestorePlan (alnum : Char → Bool) (registry : ServiceRegistry) (args : Args) :
    Except PyError Json := do
  let payloads ← (selectServices registry args.serviceId).mapM (serviceRestorePayload alnum args)
  .ok (sanitizeValue alnum (.obj [("mode", .str "plan"), ("service_count", .int payloads.length),
    ("service_id", orNone args.serviceId), ("target_node", orNone args.targetNode),
    ("snapshot", .str (snapshotSelector args.snapshot)), ("source", .str (registrySource registry)),
    ("warning_count", .int (payloads.map Prod.snd).sum),
    ("services", .arr (payloads.map Prod.fst))]))

end Restore

/-! ## §3. `migration.py`. -/

namespace Migration

/-- The arguments of `build_migration_plan`. -/
structure Args where
  serviceId : Option String := none
  sourceNode : Option String := none
  targetNode : Option String := none
  strategy : Option String := none

/-- `_string_value`. -/
def stringValue (alnum : Char → Bool) (value : Json) : Option String :=
  stringValueBy ((Docs.sensitiveAssignment alnum).sub fun _ => redacted.toList) value

/-- `_normalize_strategy`. -/
def normalizeStrategy (strategy : Option String) : Option String :=
  let normalized := Text.lower (Text.strip (strategy.getD ""))
  if normalized ∈ ["backup-restore", "redeploy", "manual-copy"] then some normalized else none

/-- `_select_services`. -/
def selectServices (registry : ServiceRegistry) (serviceId sourceNode : Option String) :
    List RegistryService :=
  let services := Restore.selectServices registry serviceId
  match sourceNode with
  | none => services
  | some node => services.filter (·.node = node)

/-- `_infer_strategy`. -/
def inferStrategy (backup restore : Dict) : String :=
  if backup ≠ [] ∨ restore ≠ [] then "backup-restore" else "redeploy"

/-- The keys of the paths in a backup. -/
def includeKeys : List String := ["include_paths", "include", "paths"]

/-- The keys of the configuration in a restore. -/
def configKeys : List String := ["config_paths", "config", "config_path"]

/-- `_data_paths`. -/
def dataPaths (alnum : Char → Bool) (backup restore : Dict) : Except PyError (List Json) := do
  let values ← stringList (getAny backup includeKeys)
  let targetPath := stringValue alnum (getAny restore targetKeys)
  .ok (if isText targetPath ∧ orNone targetPath ∉ values then orNone targetPath :: values else values)

/-- `_config_paths`. -/
def configPaths (restore : Dict) : Except PyError (List Json) := stringList (getAny restore configKeys)

/-- `_conflict_checks`. -/
def conflictChecks (service : RegistryService) (targetNode : String) : List Json :=
  [planned "ports" ("检查目标节点 " ++ targetNode ++ " 上端口冲突：" ++ portsRepr service ++ "。"),
    planned "domains" ("检查域名 / 入口占用与证书绑定：" ++ domainsRepr service ++ "。")]

/-- `_snapshot_selector`. -/
def snapshotSelector (alnum : Char → Bool) (backup : Dict) : Json :=
  let snapshot := stringValue alnum (getAny backup ["snapshot", "snapshot_id", "last_snapshot"])
  if isText snapshot then .str redacted
  else if getOrNone (dictValue (getOrNone backup "verify")) "checksum" ≠ .null then .str redacted
  else .null

/-- `_backup_prerequisite`. -/
def backupPrerequisite (alnum : Char → Bool) (backup : Dict) : Json :=
  .obj [("available", .bool (backup ≠ [])),
    ("adapter", orNone (stringValue alnum (getOrNone backup "adapter"))),
    ("repository", redactedRepository backup), ("snapshot", snapshotSelector alnum backup)]

/-- `_restore_prerequisite`. -/
def restorePrerequisite (alnum : Char → Bool) (restore : Dict) (targetNode : String) : Json :=
  .obj [("available", .bool (restore ≠ [])), ("target_node", .str targetNode),
    ("target_path", if isText (stringValue alnum (getAny restore targetKeys)) then .str redacted
      else .null),
    ("service_stop_required", .bool (getOrNone restore "service_stop_required").truthy)]

/-- A prerequisite that is ready or a warning. -/
def prerequisite (name : String) (ready : Bool) (detail : String) : Json :=
  .obj [("name", .str name), ("status", .str (if ready then "ready" else "warning")),
    ("detail", .str detail)]

/-- `_prerequisites`. -/
def prerequisites (service : RegistryService) (backup restore : Dict) (targetNode : String) :
    List Json :=
  [prerequisite "backup_metadata" (backup ≠ [])
      "确认存在可用 backup 元数据；当前仅校验元数据骨架，不访问真实仓库。",
    prerequisite "restore_metadata" (restore ≠ [])
      "确认存在 restore 目标路径/服务停机提示；当前不读取真实数据目录。",
    planned "target_node" ("确认目标节点 " ++ targetNode ++ " 已具备运行时与挂载条件；当前不连接远端。"),
    planned "docs_path" ("同步服务文档路径 " ++ orText service.docsPath "pending" ++ " 到迁移记录。")]

/-- `_dns_cutover_hint`. -/
def dnsCutoverHint (alnum : Char → Bool) (service : RegistryService) (restore : Dict) : String :=
  let explicit := stringValue alnum (getOrNone restore "domain_cutover_hint")
  orText explicit (if service.domains ≠ [] then
    "在维护窗口内切换 DNS/入口到目标节点，域名：" ++ domainsRepr service ++ "。"
    else "如服务无域名，请改为内部入口或上游依赖切换。")

/-- `_reverse_proxy_cutover_hint`. -/
def reverseProxyCutoverHint (service : RegistryService) : String :=
  if service.domains ≠ [] ∨ service.ports ≠ [] then
    "更新反向代理 / 负载均衡 upstream 指向目标节点，确认回切入口仍可用。"
  else "如无公网入口，请确认内部代理、服务发现或 systemd 依赖已指向目标节点。"

/-- `_verification_steps`. -/
def verificationSteps (alnum : Char → Bool) (service : RegistryService) (backup restore : Dict) :
    List Json :=
  let given := stringValue alnum (getOrNone restore "healthcheck")
  let healthcheck := if isText given then given else defaultHealthcheck service
  let checksum := stringValue alnum (getOrNone (dictValue (getOrNone backup "verify")) "checksum")
  [named "checksum" ("按迁移后数据与备份摘要比对 checksum：" ++ orText checksum "pending" ++ "。"),
    named "healthcheck" ("验证健康检查：" ++ orText healthcheck "pending" ++ "。"),
    named "port_smoke" ("对目标节点端口做监听/连通性冒烟：" ++ portsRepr service ++ "。"),
    named "domain_smoke" ("对域名入口做解析/HTTP 冒烟：" ++ domainsRepr service ++ "。")]

/-- `_rollback_steps`. -/
def rollbackSteps (service : RegistryService) : List Json :=
  [named "repoint_dns" "若切换后失败，回指 DNS / 入口到源节点。",
    named "revert_proxy" "回滚反向代理 / LB upstream 到源节点并撤销新目标流量。",
    named "restore_source_service"
      ("确认源节点 " ++ service.node ++ " 服务继续保留或重新拉起，直到验证完成。")]

/-- `_service_migration_payload`; with it, how many warnings it has. -/
def serviceMigrationPayload (alnum : Char → Bool) (args : Args) (service : RegistryService) :
    Except PyError (Json × Nat) := do
  let backup := backupMetadata service
  let restore := restoreMetadata service
  let requested := stringValue alnum (orNone args.targetNode)
  let targetNode := orText requested service.node
  let warnings := (if isText requested then [] else ["target node not specified for "
    ++ service.serviceId ++ "; defaulting to source node skeleton"]) ++ service.warnings
  let strategy := (normalizeStrategy args.strategy).getD (inferStrategy backup restore)
  let dataPaths ← dataPaths alnum backup restore
  let configPaths ← configPaths restore
  .ok (.obj [("service_id", .str service.serviceId), ("source_node", .str service.node),
    ("target_node", .str targetNode), ("strategy", .str strategy), ("data_paths", .arr dataPaths),
    ("config_paths", .arr configPaths),
    ("docs_path", orNone (stringValue alnum (orNone service.docsPath))),
    ("ports", .arr (service.ports.map .int)), ("domains", .arr (service.domains.map .str)),
    ("conflict_checks", .arr (conflictChecks service targetNode)),
    ("backup_prerequisite", backupPrerequisite alnum backup),
    ("restore_prerequisite", restorePrerequisite alnum restore targetNode),
    ("prerequisites", .arr (prerequisites service backup restore targetNode)),
    ("dns_cutover_hint", .str (dnsCutoverHint alnum service restore)),
    ("reverse_proxy_cutover_hint", .str (reverseProxyCutoverHint service)),
    ("verification_steps", .arr (verificationSteps alnum service backup restore)),
    ("rollback_steps", .arr (rollbackSteps service)),
    ("risk_flags", .obj [("no_zero_downtime_guarantee", .bool true),
      ("requires_maintenance_window", .bool true), ("dry_run_only", .bool true)]),
    ("apply", .obj skeletonActionResult), ("warnings", .arr (warnings.map .str))],
    warnings.length)

/-- `build_migration_plan`. -/
def buildMigrationPlan (alnum : Char → Bool) (registry : ServiceRegistry) (args : Args) :
    Except PyError Json := do
  let payloads ← (selectServices registry args.serviceId args.sourceNode).mapM
    (serviceMigrationPayload alnum args)
  .ok (Docs.redactSensitiveData alnum (.obj [("mode", .str "plan"), ("dry_run", .bool true),
    ("service_count", .int payloads.length), ("service_id", orNone args.serviceId),
    ("source_node", orNone args.sourceNode), ("target_node", orNone args.targetNode),
    ("strategy", orNone (normalizeStrategy args.strategy)),
    ("source", .str (registrySource registry)),
    ("warning_count", .int (payloads.map Prod.snd).sum),
    ("services", .arr (payloads.map Prod.fst))]))

end Migration

/-! ## §4. `backup_provider.py`. -/

namespace BackupProvider

/-- The arguments of `build_backup_plan`. -/
structure Args where
  serviceId : Option String := none
  adapter : Option String := none

/-- `_service_adapter`. -/
def serviceAdapter (service : RegistryService) : Option String :=
  normalizeAdapter (getOrNone (backupMetadata service) "adapter")

/-- `_select_services`. -/
def selectServices (registry : ServiceRegistry) (serviceId adapter : Option String) :
    List RegistryService :=
  let services := Restore.selectServices registry serviceId
  match adapter with
  | none => services
  | some adapter => services.filter (serviceAdapter · = some adapter)

/-- The keys of the patterns that are left out. -/
def excludeKeys : List String := ["exclude_patterns", "exclude"]

/-- `_verify_plan`. -/
def verifyPlan (verify checksum : Json) : Dict :=
  let plan := dictValue verify
  if checksum ≠ .null ∧ (plan.get? "checksum").isNone then plan.set "checksum" checksum else plan

/-- `_service_backup_payload`; with it, how many of its warnings say that the
metadata is missing. -/
def serviceBackupPayload (service : RegistryService) : Except PyError (Json × Nat) := do
  let backup := backupMetadata service
  let missing (warnings : List String) : Nat :=
    warnings.countP fun warning => Text.contains warning "missing backup metadata"
  let payload (adapter : Json) (includePaths excludePatterns : List Json) (repository : Json)
      (retention : Dict) (schedule : Json) (verify : Dict) (warnings : List String) : Json :=
    .obj [("service_id", .str service.serviceId), ("node", .str service.node), ("adapter", adapter),
      ("include_paths", .arr includePaths), ("exclude_patterns", .arr excludePatterns),
      ("repository", repository), ("retention_policy", .obj retention), ("schedule_hint", schedule),
      ("verify_plan", .obj verify), ("approval", .obj skeletonActionResult),
      ("warnings", .arr (warnings.map .str))]
  if backup = [] then
    let warnings := ("missing backup metadata for " ++ service.serviceId) :: service.warnings
    .ok (payload .null [] [] .null [] .null [] warnings, missing warnings)
  else do
    let includePaths ← stringList (getAny backup Migration.includeKeys)
    let excludePatterns ← stringList (getAny backup excludeKeys)
    .ok (payload (orNone (serviceAdapter service)) includePaths excludePatterns
      (redactedRepository backup) (dictValue (getOrNone backup "retention"))
      (orNone (stringValueBy id (getAny backup ["schedule", "schedule_hint"])))
      (verifyPlan (getOrNone backup "verify") (getOrNone backup "checksum")) service.warnings,
      missing service.warnings)

/-- `build_backup_plan`. -/
def buildBackupPlan (alnum : Char → Bool) (registry : ServiceRegistry) (args : Args) :
    Except PyError Json := do
  let adapter := normalizeAdapter (orNone args.adapter)
  let payloads ← (selectServices registry args.serviceId adapter).mapM serviceBackupPayload
  .ok (sanitizeValue alnum (.obj [("mode", .str "plan"), ("service_count", .int payloads.length),
    ("service_id", orNone args.serviceId), ("adapter", orNone adapter),
    ("source", .str (registrySource registry)),
    ("warning_count", .int (payloads.map Prod.snd).sum),
    ("services", .arr (payloads.map Prod.fst))]))

end BackupProvider

end Hmn
