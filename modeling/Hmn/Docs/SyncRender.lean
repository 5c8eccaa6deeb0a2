/-
  Hmn.Docs.SyncRender — the texts of the documentation centre.

  A README for the centre, for the hosts, for the services, for each host and
  for each service, and the indexes as JSON.  They are written from the
  redacted plan; the README of a service is also written from its record, each
  member of which goes through the redactor where it can hold free text.  The
  model is the second half of `docs_sync`.
-/
import Hmn.Docs.SyncPlan
import Hmn.Framework.JsonIndent
import Hmn.Store.Store

namespace Hmn.Docs

open Framework

/-! ## §1. Pieces. -/

/-- Text in backticks. -/
def code (s : String) : String := "`" ++ s ++ "`"

/-- `value or default`. -/
def orDefault (value default : String) : String := if value ≠ "" then value else default

section Pieces

variable (alnum : Char → Bool)

/-- `_render_inline_strings` and `_render_inline_paths`. -/
def renderInlineStrings (values : List String) : String :=
  let cleaned := (values.filter (Text.strip · ≠ "")).map (redactText alnum)
  if cleaned = [] then "未登记" else Text.join ", " (cleaned.map code)

/-- `_looks_like_command`. -/
def looksLikeCommand (value : String) : Bool :=
  ["curl ", "docker ", "systemctl ", "git ", "restic ", "journalctl ", "ss ", "cat ", "python ",
    "bash ", "sh "].any (Text.startsWith (Text.strip value))

/-- `_render_bullets`. -/
def renderBullets (values : List String) : List String :=
  let items := (values.map Text.strip).filter (· ≠ "")
  if items = [] then ["- 未登记"]
  else items.map fun item =>
    if looksLikeCommand item then "- " ++ code (redactText alnum item)
    else "- " ++ redactText alnum item

/-- The texts of a list, without the blank ones. -/
def nonblankTexts (xs : List Json) : List String :=
  (xs.map Json.asStr).filter (Text.strip · ≠ "")

/-- `_metadata_string_list`. -/
def metadataStringList (metadata : Dict) (key : String) : List String :=
  match metadata.get? key with
  | some (.arr xs) => nonblankTexts xs
  | _ => []

/-- `_operation_sections`, and what it has under a name. -/
def operationSections (metadata : Dict) (name : String) : List String :=
  match (dictAt metadata "operations").get? name with
  | some (.arr xs) => nonblankTexts xs
  | _ => []

/-- `operations.get(name) or default`. -/
def operationsOr (metadata : Dict) (name default : String) : List String :=
  if operationSections metadata name ≠ [] then operationSections metadata name else [default]

/-- `_json_dumps`. -/
def jsonDumps (payload : Json) : String := (sanitizeValue alnum payload).dumpsIndented ++ "\n"

end Pieces

/-! ## §2. The indexes. -/

/-- `_build_docs_index_json`. -/
def buildDocsIndexJson (root : PosixPath) (plan : SyncPlan) : Json := .obj [
  ("mode", .str "docs-center-index"), ("root", .str root.text),
  ("docs_root", .str (root.join "docs").text), ("service_root", .str (root.join "service").text),
  ("server_count", .int plan.serverCount), ("service_count", .int plan.serviceCount),
  ("server_index", .str (((root.join "docs").join "server").join "README.md").text),
  ("service_index", .str ((root.join "service").join "README.md").text),
  ("future_submit_flow", .obj [
    ("ingest", .str "nodes submit facts/service registry to master API or worker bridge"),
    ("master_responsibility",
      texts ["redaction", "normalization", "write_files", "indexing", "audit"]),
    ("public_submit_api", .str "reserved-not-implemented")])]

/-- `_build_service_index_json`. -/
def buildServiceIndexJson (root : PosixPath) (plan : SyncPlan) : Json := .obj [
  ("mode", .str "service-index"), ("root", .str root.text),
  ("services", .arr (plan.serviceDocs.map fun entry => .obj [
    ("service_id", .str entry.serviceId), ("service_slug", .str entry.serviceSlug),
    ("host", .str entry.host), ("doc_path", .str entry.targetPath),
    ("server_doc_path", .str entry.serverDocPath), ("domains", texts entry.domains),
    ("ports", .arr (entry.ports.map .int)), ("warnings", texts entry.warnings)])),
  ("domain_mapping", .obj plan.domainMapping.entries),
  ("runbook_mapping", .arr (plan.runbookMapping.entries.map RunbookDoc.toJson))]

/-- `_render_docs_root_readme`. -/
def renderDocsRootReadme (root : PosixPath) (plan : SyncPlan) : String :=
  Text.join "\n" [
    "# HMN 文档中心 / 数据中心",
    "",
    "- 根目录：" ++ code root.text,
    "- 机器数：" ++ code (toString plan.serverCount),
    "- 服务数：" ++ code (toString plan.serviceCount),
    "- 面向人类：Markdown README",
    "- 面向机器：JSON index",
    "",
    "## 第一版写入边界",
    "- 统一由 master 写入文档中心",
    "- 节点不直接任意写 /srv/files",
    "- 落盘前先脱敏、规范化、建索引、产出审计事件",
    "",
    "## 后续节点提交流程（预留）",
    "1. 节点通过 master API / worker 上报 facts 或 service registry",
    "2. master 负责 redaction / normalization / storage / indexing / audit",
    "3. 当前版本只落盘 apply，不实现公网 submit API",
    "",
    "- 机器索引：" ++ code "docs/server/README.md",
    "- 服务索引：" ++ code "../service/README.md",
    ""]

/-- `_render_server_index_readme`. -/
def renderServerIndexReadme (serverEntries : List ServerDoc) : String :=
  let lines :=
    if serverEntries = [] then ["暂无机器文档"]
    else serverEntries.map fun entry =>
      "- [" ++ entry.host ++ "](" ++ entry.host ++ "/README.md) · "
        ++ Text.join ", " (entry.services.map code)
  Text.join "\n" (["# Server Docs Index", ""] ++ lines ++ [""])

/-- `_render_service_index_readme`. -/
def renderServiceIndexReadme (serviceEntries : List ServiceDoc) : String :=
  let lines :=
    if serviceEntries = [] then ["暂无服务文档"]
    else serviceEntries.map fun entry =>
      "- [" ++ entry.serviceId ++ "](" ++ entry.serviceSlug ++ "/README.md) · host "
        ++ code entry.host ++ " · " ++ orDefault (Text.join ", " entry.domains) "-"
  Text.join "\n" (["# Service Docs Index", ""] ++ lines ++ [""])

/-! ## §3. A host and a service. -/

/-- `target_path.parents[2]`. -/
def docsRootOf (targetPath : String) : Except PyError PosixPath :=
  match (PosixPath.ofString targetPath).parents? 2 with
  | some root => .ok root
  | none => .error (.index "2")

/-- `_render_server_readme`. -/
def renderServerReadme (entry : ServerDoc) (serviceEntries : List ServiceDoc) :
    Except PyError String := do
  let docsRoot ← docsRootOf entry.targetPath
  pure (Text.join "\n" (
    ["# " ++ entry.host, "", "## 机器概览", "- hostname：" ++ code entry.host,
      "- 文档中心根目录：" ++ code docsRoot.parent.text]
    ++ ((entry.sourceHost.filter (· ≠ "")).map fun host => "- 原 hostname：" ++ code host).toList
    ++ ["", "## 承载服务", ""]
    ++ (serviceEntries.filter fun service => service.host = entry.host).map (fun service =>
        "- [" ++ code service.serviceId ++ "](../../../service/" ++ service.serviceSlug
          ++ "/README.md)")
    ++ ["", "## 说明", "- 文档中心由 master 统一维护", ""]))

section Service

variable (alnum : Char → Bool)

/-- `monitor_text`. -/
def monitorText (service : RegistryService) : String :=
  if service.monitor = [] then "\x7b\x7d"
  else (sanitizeValue alnum (.obj service.monitor)).dumpsIndented

/-- `_render_service_readme`. -/
def renderServiceReadme (entry : ServiceDoc) (service : RegistryService) :
    Except PyError String := do
  let redact := redactText alnum
  let warnings := if service.warnings = [] then ["无"] else service.warnings
  let codes := fun xs : List String => if xs = [] then "无" else Text.join ", " (xs.map code)
  let docsPath :=
    match service.docsPath with
    | some path => if path ≠ "" then redact path else entry.targetPath
    | none => entry.targetPath
  let docsRoot ← docsRootOf entry.targetPath
  let operation := fun name => renderBullets alnum (operationsOr service.metadata name "未登记")
  let troubleshooting := metadataStringList service.metadata "troubleshooting"
  pure (Text.join "\n" (
    ["# " ++ service.name,
      "",
      "## 服务概览",
      "- service_id：" ++ code service.serviceId,
      "- slug：" ++ code entry.serviceSlug,
      "- host：" ++ code entry.host,
      "- 文档中心根目录：" ++ code docsRoot.text,
      "- kind：" ++ code service.kind,
      "- runtime：" ++ code (orDefault (service.runtime.getD "") "unknown"),
      "- domains：" ++ codes service.domains,
      "- ports：" ++ codes (service.ports.map toString),
      "- source：" ++ code (redact service.source),
      "- docs_path：" ++ code docsPath,
      "",
      "## 部署信息",
      "- 文档中心根目录：" ++ code docsRoot.text,
      "- 部署路径：" ++ code (orDefault (redact service.deployPath) "未登记"),
      "- 配置文件：" ++ renderInlineStrings alnum service.configPaths,
      "- 环境文件：" ++ renderInlineStrings alnum service.envPaths,
      "- 数据目录：" ++ renderInlineStrings alnum service.dataPaths,
      "- 依赖：" ++ renderInlineStrings alnum (metadataStringList service.metadata "dependencies"),
      "- 健康检查：" ++ code (orDefault (redact service.healthCheckUrl) "未登记"),
      "",
      "## 启停命令",
      "### 启动"]
    ++ operation "start"
    ++ ["", "### 停止"]
    ++ operation "stop"
    ++ ["",
      "## 风险 / 提示",
      Text.join "\n" (warnings.map fun item => "- " ++ redact item),
      "",
      "## 监控摘要",
      "```json",
      monitorText alnum service,
      "```",
      "",
      "## 维护 Runbook",
      "### 巡检"]
    ++ renderBullets alnum
        (operationsOr service.metadata "inspect" (orDefault service.healthCheckUrl "未登记"))
    ++ ["", "### 日志"]
    ++ renderBullets alnum
        (operationsOr service.metadata "logs" "journalctl -u <service> -n 200 --no-pager")
    ++ ["", "### 重启"] ++ operation "restart"
    ++ ["", "### 升级"] ++ operation "upgrade"
    ++ ["", "### 备份"] ++ operation "backup"
    ++ ["", "### 恢复"] ++ operation "restore"
    ++ ["", "### 回滚"] ++ operation "rollback"
    ++ ["", "### 常见故障处理"]
    ++ renderBullets alnum (if troubleshooting = [] then ["未登记"] else troubleshooting)
    ++ ["",
      "## 后续接入架构",
      "- 节点后续通过 master API / worker 上报 facts/service registry",
      "- master 负责脱敏、规范化、落盘、索引、audit",
      "- 当前版本未开放公网 submit API",
      ""]))

end Service

end Hmn.Docs
