/-
  Hmn.Docs.Generate — documents of a registry in a directory of their own.

  One document for each service, under the last segment of its name, and the
  indexes of services, domains and runbooks.  The model is
  `docs_generate.generate_docs_from_registry`.
-/
import Hmn.Docs.SyncApply

namespace Hmn.Docs.Generate

open Framework Framework.Regex

/-! ## §1. The documents. -/

/-- `_safe_service_slug` of `docs_generate`. -/
def safeServiceSlug (name : String) : String :=
  let segments := ((name.toList.splitOnP fun c => c = '\\' || c = '/').map String.ofList).filter
    fun segment => segment ∉ ["", ".", ".."]
  let base := segments.getLast?.getD "service"
  let slug := String.ofList
    (stripSegment ((plus fun c => !isSegmentChar c).sub (fun _ => ['-']) base).toList)
  orDefault slug "service"

/-- `_relative_doc_path`. -/
def relativeDocPath (service : RegistryService) : PosixPath :=
  (PosixPath.ofString "service").join (safeServiceSlug service.name ++ ".md")

/-- `path.name`. -/
def pathName (path : PosixPath) : String := path.names.getLast?.getD ""

section Render

variable (alnum : Char → Bool)

/-- `_render_monitor`. -/
def renderMonitor (service : RegistryService) : String :=
  if service.monitor = [] then "- 无"
  else "```json\n" ++ (sanitizeValue alnum (.obj service.monitor)).dumpsIndented ++ "\n```"

/-- `render_service_doc`. -/
def renderServiceDoc (service : RegistryService) : String :=
  let generated := (relativeDocPath service).text
  let codes := fun xs : List String => if xs = [] then "无" else Text.join ", " (xs.map code)
  let warnings :=
    if service.warnings = [] then "- 无"
    else Text.join "\n" (service.warnings.map fun warning => "- " ++ warning)
  Text.join "\n" [
    "# " ++ service.name ++ "\n",
    "## 服务概览",
    "- 服务名：" ++ code service.name,
    "- 承载节点：" ++ code service.node,
    "- 类型：" ++ code service.kind,
    "- 运行时：" ++ code (orDefault (service.runtime.getD "") "unknown"),
    "- 域名：" ++ codes service.domains,
    "- 端口：" ++ codes (service.ports.map toString),
    "- 来源：" ++ code (redactText alnum service.source),
    "- 文档路径：" ++ code (orDefault (service.docsPath.getD "") generated),
    "- 生成路径：" ++ code generated,
    "",
    "## 告警 / 风险提示",
    warnings,
    "",
    "## 监控信息",
    renderMonitor alnum service,
    "",
    "## 常用运维命令占位",
    "```bash",
    "systemctl status <service>",
    "journalctl -u <service> -n 200 --no-pager",
    "docker ps --format 'table \x7b\x7b.Names\x7d\x7d\t\x7b\x7b.Image\x7d\x7d\t\x7b\x7b.Status\x7d\x7d'",
    "ss -lntp",
    "```",
    ""]

end Render

/-- `render_service_index`. -/
def renderServiceIndex (services : List RegistryService) : String :=
  let lines :=
    if services = [] then ["暂无服务"]
    else services.map fun service =>
      let domains := if service.domains = [] then "-" else Text.join ", " service.domains
      "- [" ++ service.name ++ "](" ++ pathName (relativeDocPath service) ++ ") · " ++ service.node
        ++ " · " ++ service.kind ++ " · " ++ domains
  Text.join "\n" (["# Service Index", ""] ++ lines ++ [""])

/-- `render_domains_index`. -/
def renderDomainsIndex (services : List RegistryService) : String :=
  let items := services.flatMap fun service => service.domains.map fun domain =>
    "- " ++ code domain ++ " -> [" ++ service.name ++ "](../" ++ (relativeDocPath service).text
      ++ ")"
  let lines := if items = [] then ["暂无域名"] else sortedBy id items
  Text.join "\n" (["# Domains Index", ""] ++ lines ++ [""])

/-- `render_runbook_index`. -/
def renderRunbookIndex (services : List RegistryService) : String :=
  let lines :=
    if services = [] then ["暂无服务"]
    else services.map fun service =>
      "- [" ++ service.name ++ "](../" ++ (relativeDocPath service).text ++ ") · 节点 "
        ++ code service.node ++ " · 查看常用运维命令占位"
  Text.join "\n" (["# Runbook Index", ""] ++ lines ++ [""])

/-! ## §2. Writing them. -/

/-- One turn of the loop over the services. -/
def writeServiceDoc (alnum : Char → Bool) (outputDir : PosixPath) (service : RegistryService) :
    FilePy Unit := do
  let path := outputDir.joinPath (relativeDocPath service)
  makeDirs path.parent
  writeText path (renderServiceDoc alnum service)

/-- `generate_docs_from_registry`. -/
def generateDocsFromRegistry (alnum : Char → Bool) (outputDir : PosixPath)
    (registry : ServiceRegistry) : FilePy PosixPath := do
  makeDirs outputDir
  makeDirs (outputDir.join "service")
  makeDirs (outputDir.join "domains")
  makeDirs (outputDir.join "runbooks")
  let services := registry.listServices
  services.forM (writeServiceDoc alnum outputDir)
  writeText ((outputDir.join "service").join "README.md") (renderServiceIndex services)
  writeText ((outputDir.join "domains").join "README.md") (renderDomainsIndex services)
  writeText ((outputDir.join "runbooks").join "README.md") (renderRunbookIndex services)
  pure outputDir

example : safeServiceSlug "../ops\\Blog API!" = "Blog-API" ∧ safeServiceSlug "a/.." = "a"
    ∧ safeServiceSlug "//" = "service" := by
  decide +kernel

end Hmn.Docs.Generate
