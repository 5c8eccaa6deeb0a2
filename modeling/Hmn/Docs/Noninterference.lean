/-
  Hmn.Docs.Noninterference — what is stored under a sensitive name reaches no
  document.

  The value of a member whose name is sensitive is replaced before anything is
  made of it, wherever the monitor of a service is used: in the plan, in the
  README of the service and in the generated document.  So the programs that
  write the documents are the same programs for two registries that agree but
  for such values.

  Main results: `redactSensitiveData_congr`, `applyDocsSync_masked`,
  `generateDocs_masked`, `redaction_noninterference`.
-/
import Hmn.Docs.Generate
import Hmn.Framework.Masking

namespace Hmn.Docs

open Framework Framework.Regex

/-! ## §1. Structured data of providers. -/

/-- `_looks_sensitive_key`. -/
def looksSensitiveKey (key : String) : Bool :=
  ["api_key", "apikey", "authorization", "token", "secret", "password", "passwd", "private_key",
    "client_secret"].any (Text.contains (Text.lower key))

/-- `_SENSITIVE_ASSIGNMENT_RE`. -/
def sensitiveAssignment (alnum : Char → Bool) : Regex :=
  all [
    .boundary (isWordChar alnum),
    group 1 (all [
      .star isNameChar,
      any (ignoreCase "token") [
        ignoreCase "secret",
        ignoreCase "password",
        all [ignoreCase "api", opt (.one fun c => c = '_' || c = '-'), ignoreCase "key"],
        ignoreCase "authorization"],
      .star isNameChar]),
    lit "=", group 2 (plus fun c => !(Text.isSpace c || c = ',' || c = ';'))]

/-- `redact_sensitive_data`. -/
def redactSensitiveData (alnum : Char → Bool) (value : Json) : Json :=
  value.redactBy looksSensitiveKey redacted
    ((sensitiveAssignment alnum).sub fun _ => redacted.toList)

example : redactSensitiveData isAlnum (.obj [("API_KEY", .int 7), ("note", .str "token=abc ok"),
      ("inner", .arr [.obj [("apikey", .null)]])])
    = .obj [("API_KEY", .str "[REDACTED]"), ("note", .str "[REDACTED] ok"),
      ("inner", .arr [.obj [("apikey", .str "[REDACTED]")]])] := by
  decide +kernel

/-- **Redacted, values that agree but under sensitive names are equal.** -/
theorem redactSensitiveData_congr (alnum : Char → Bool) {v w : Json}
    (h : v.EqualBut looksSensitiveKey w) :
    redactSensitiveData alnum v = redactSensitiveData alnum w :=
  Json.redactBy_congr _ _ _ h

/-! ## §2. The redactor of the documents. -/

mutual

theorem sanitizeValue_eq (alnum : Char → Bool) : (v : Json) →
    sanitizeValue alnum v = v.redactBy isSensitiveKey redacted (redactText alnum)
  | .obj kvs => by rw [sanitizeValue, Json.redactBy, sanitizeFields_eq alnum kvs]
  | .arr xs => by rw [sanitizeValue, Json.redactBy, sanitizeList_eq alnum xs]
  | .null | .bool _ | .int _ | .float _ | .str _ => rfl

theorem sanitizeList_eq (alnum : Char → Bool) : (xs : List Json) →
    sanitizeList alnum xs = Json.redactListBy isSensitiveKey redacted (redactText alnum) xs
  | [] => rfl
  | x :: xs => by
    rw [sanitizeList, Json.redactListBy, sanitizeValue_eq alnum x, sanitizeList_eq alnum xs]

theorem sanitizeFields_eq (alnum : Char → Bool) : (kvs : List (String × Json)) →
    sanitizeFields alnum kvs = Json.redactFieldsBy isSensitiveKey redacted (redactText alnum) kvs
  | [] => rfl
  | (k, x) :: kvs => by
    rw [sanitizeFields, Json.redactFieldsBy, sanitizeValue_eq alnum x, sanitizeFields_eq alnum kvs]

end

end Hmn.Docs

namespace Hmn

open Framework

/-- A service without what its monitor has under sensitive names. -/
def RegistryService.masked (service : RegistryService) : RegistryService :=
  { service with monitor := Json.maskFields isSensitiveKey service.monitor }

theorem RegistryService.serviceId_masked (service : RegistryService) :
    service.masked.serviceId = service.serviceId := rfl

/-- A registry without what its monitors have under sensitive names. -/
def ServiceRegistry.masked (registry : ServiceRegistry) : ServiceRegistry :=
  registry.update (fun _ => true) RegistryService.masked RegistryService.serviceId_masked

/-- Equal except for the values under sensitive names of the monitors. -/
def ServiceRegistry.EqualButSecrets (registry registry' : ServiceRegistry) : Prop :=
  registry.masked = registry'.masked

theorem ServiceRegistry.listServices_masked (registry : ServiceRegistry) :
    registry.masked.listServices = registry.listServices.map RegistryService.masked := rfl

theorem ServiceRegistry.find?_masked (registry : ServiceRegistry) (serviceId : String) :
    registry.masked.find? serviceId = (registry.find? serviceId).map RegistryService.masked := by
  rw [masked, Table.find?_update]
  rfl

end Hmn

namespace Hmn.Docs

open Framework
open Framework.Regex (isAlnum)

variable (alnum : Char → Bool)

theorem sanitizeValue_masked (service : RegistryService) :
    sanitizeValue alnum (.obj service.masked.monitor)
      = sanitizeValue alnum (.obj service.monitor) := by
  rw [sanitizeValue_eq, sanitizeValue_eq, RegistryService.masked]
  exact Json.redactBy_mask isSensitiveKey redacted (redactText alnum) (.obj service.monitor)

/-! ## §3. The plan and the texts. -/

theorem planService_masked (serverDocRoot serviceDocRoot : PosixPath)
    (renames : List (String × String)) (state : PlanState) (service : RegistryService) :
    planService alnum serverDocRoot serviceDocRoot renames state service.masked
      = planService alnum serverDocRoot serviceDocRoot renames state service := by
  have hentry : serviceEntry alnum serverDocRoot serviceDocRoot renames service.masked
      = serviceEntry alnum serverDocRoot serviceDocRoot renames service := by
    rw [serviceEntry, sanitizeValue_masked]
    rfl
  rw [planService, hentry]
  rfl

/-- The plan does not see what the monitors have under sensitive names. -/
theorem plan_masked (serverDocRoot serviceDocRoot : PosixPath) (renameHosts : RenameHosts)
    (registry : ServiceRegistry) :
    buildDocsSyncPlanFromRegistry alnum serverDocRoot serviceDocRoot renameHosts registry.masked
      = buildDocsSyncPlanFromRegistry alnum serverDocRoot serviceDocRoot renameHosts registry := by
  simp only [buildDocsSyncPlanFromRegistry, ServiceRegistry.listServices_masked, List.foldl_map,
    planService_masked]

theorem monitorText_masked (service : RegistryService) :
    monitorText alnum service.masked = monitorText alnum service := by
  rw [monitorText, monitorText, sanitizeValue_masked]
  simp only [RegistryService.masked, Json.maskFields_eq_nil]

theorem renderServiceReadme_masked (entry : ServiceDoc) (service : RegistryService) :
    renderServiceReadme alnum entry service.masked = renderServiceReadme alnum entry service := by
  rw [renderServiceReadme, monitorText_masked]
  rfl

/-! ## §4. The programs. -/

theorem serviceWrite_masked (rootResolved : PosixPath) (registry : ServiceRegistry)
    (entry : ServiceDoc) :
    serviceWrite alnum rootResolved registry.masked entry
      = serviceWrite alnum rootResolved registry entry := by
  rw [serviceWrite, serviceWrite, ServiceRegistry.find?_masked]
  cases registry.find? entry.serviceId with
  | none => rfl
  | some service => simp only [Option.map_some, renderServiceReadme_masked]

theorem buildApplyWrites_masked (plan : SyncPlan) (registry : ServiceRegistry)
    (root rootResolved : PosixPath) :
    buildApplyWrites alnum plan registry.masked root rootResolved
      = buildApplyWrites alnum plan registry root rootResolved := by
  have hwrites : serviceWrite alnum rootResolved registry.masked
      = serviceWrite alnum rootResolved registry :=
    funext (serviceWrite_masked alnum rootResolved registry)
  rw [buildApplyWrites, hwrites]
  rfl

/-- **The documentation centre does not see what the monitors have under
sensitive names**: the program that writes it is the same. -/
theorem applyDocsSync_masked (root : PosixPath) (execute : Bool) (renameHosts : RenameHosts)
    (registry : ServiceRegistry) :
    applyDocsSyncFromRegistry alnum root execute renameHosts registry.masked
      = applyDocsSyncFromRegistry alnum root execute renameHosts registry := by
  simp only [applyDocsSyncFromRegistry, plan_masked, buildApplyWrites_masked,
    ServiceRegistry.listServices_masked, List.length_map]

theorem renderMonitor_masked (service : RegistryService) :
    Generate.renderMonitor alnum service.masked = Generate.renderMonitor alnum service := by
  rw [Generate.renderMonitor, Generate.renderMonitor, sanitizeValue_masked]
  simp only [RegistryService.masked, Json.maskFields_eq_nil]

theorem writeServiceDoc_masked (outputDir : PosixPath) (service : RegistryService) :
    Generate.writeServiceDoc alnum outputDir service.masked
      = Generate.writeServiceDoc alnum outputDir service := by
  rw [Generate.writeServiceDoc, Generate.renderServiceDoc, renderMonitor_masked]
  rfl

/-- The indexes of the generated documents have nothing of a monitor. -/
theorem renderIndexes_masked (services : List RegistryService) :
    Generate.renderServiceIndex (services.map RegistryService.masked)
        = Generate.renderServiceIndex services
      ∧ Generate.renderDomainsIndex (services.map RegistryService.masked)
        = Generate.renderDomainsIndex services
      ∧ Generate.renderRunbookIndex (services.map RegistryService.masked)
        = Generate.renderRunbookIndex services := by
  refine ⟨?_, ?_, ?_⟩
  · simp only [Generate.renderServiceIndex, List.map_eq_nil_iff, List.map_map]
    rfl
  · simp only [Generate.renderDomainsIndex, List.flatMap_map]
    rfl
  · simp only [Generate.renderRunbookIndex, List.map_eq_nil_iff, List.map_map]
    rfl

/-- **The generated documents do not see what the monitors have under
sensitive names.** -/
theorem generateDocs_masked (outputDir : PosixPath) (registry : ServiceRegistry) :
    Generate.generateDocsFromRegistry alnum outputDir registry.masked
      = Generate.generateDocsFromRegistry alnum outputDir registry := by
  have hloop : ∀ services : List RegistryService,
      (services.map RegistryService.masked).forM (Generate.writeServiceDoc alnum outputDir)
        = services.forM (Generate.writeServiceDoc alnum outputDir) := by
    intro services
    simp only [List.forM_eq_forM, List.forM_map, writeServiceDoc_masked]
  obtain ⟨hservices, hdomains, hrunbooks⟩ := renderIndexes_masked registry.listServices
  simp only [Generate.generateDocsFromRegistry, ServiceRegistry.listServices_masked, hservices,
    hdomains, hrunbooks, hloop]

/-- **What is stored under a sensitive name is redacted without a trace.**
Structured values that agree but under such names are redacted to one value.
For registries that agree but under such names of their monitors, applying the
documentation plan and generating the documents end alike on every file system,
with every file as it would be for the other registry. -/
theorem redaction_noninterference :
    (∀ v w : Json, v.EqualBut looksSensitiveKey w →
      redactSensitiveData alnum v = redactSensitiveData alnum w)
    ∧ ∀ registry registry' : ServiceRegistry, registry.EqualButSecrets registry' →
      ∀ (σ : Type) (exec : Prog.Exec files σ) (tree : σ),
        (∀ root execute renameHosts,
          (applyDocsSyncFromRegistry alnum root execute renameHosts registry).run exec tree
            = (applyDocsSyncFromRegistry alnum root execute renameHosts registry').run exec tree)
        ∧ ∀ outputDir, (Generate.generateDocsFromRegistry alnum outputDir registry).run exec tree
            = (Generate.generateDocsFromRegistry alnum outputDir registry').run exec tree := by
  refine ⟨fun v w h => redactSensitiveData_congr alnum h, ?_⟩
  intro registry registry' h σ exec tree
  constructor
  · intro root execute renameHosts
    rw [← applyDocsSync_masked alnum root execute renameHosts registry, h, applyDocsSync_masked]
  · intro outputDir
    rw [← generateDocs_masked alnum outputDir registry, h, generateDocs_masked]

/-- A service that is watched with a key of its own. -/
def watchedService (key : String) : RegistryService where
  serviceId := "blog"
  name := "Blog"
  node := "web-1"
  kind := "docker"
  monitor := [("enabled", .bool true), ("providers", .arr [.obj [("api_key", .str key)]])]

/-- Two keys of the monitor make no difference. -/
theorem watched_keys_alike :
    redactSensitiveData isAlnum (.obj [("token", .int 1), ("url", .str "x")])
      = redactSensitiveData isAlnum (.obj [("token", .null), ("url", .str "x")])
    ∧ ∀ (σ : Type) (exec : Prog.Exec files σ) (tree : σ),
      (applyDocsSyncFromRegistry isAlnum (.ofString "/srv/files") true .empty
          (.single (watchedService "k1"))).run exec tree
        = (applyDocsSyncFromRegistry isAlnum (.ofString "/srv/files") true .empty
          (.single (watchedService "k2"))).run exec tree := by
  obtain ⟨hvalues, hregistries⟩ := redaction_noninterference isAlnum
  exact ⟨hvalues _ _ (by decide +kernel), fun σ exec tree =>
    (hregistries (.single (watchedService "k1")) (.single (watchedService "k2"))
      (Table.ext (by decide +kernel)) σ exec tree).1 _ _ _⟩

end Hmn.Docs
