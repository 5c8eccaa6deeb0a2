/-
  Hmn.Docs.FreeText — secrets in the free texts of a service.

  The source, the document path and the warnings of a service are texts in
  which a word `KEY=VALUE` may stand.  The documentation centre redacts all
  three wherever it uses them.  The document of `render_service_doc` redacts
  the source alone: the path and the warnings are printed as they are.

  Main results: `applyDocsSync_alike`, `generateDocs_source`,
  `free_text_secrets_iff`, `warning_secret_printed`.
-/
import Hmn.Docs.Assignments
import Hmn.Docs.Noninterference

namespace Hmn

open Framework Framework.Regex Docs

/-! ## §1. Free texts. -/

/-- A free text of a service. -/
inductive FreeText where
  | source
  | docsPath
  /-- A warning, with those before it and those after it. -/
  | warning (before after : List String)

/-- The service with a text. -/
def RegistryService.put (service : RegistryService) (text : String) : FreeText → RegistryService
  | .source => { service with source := text }
  | .docsPath => { service with docsPath := some text }
  | .warning before after => { service with warnings := before ++ text :: after }

/-- Two services that are equal except for free texts the redactor makes the
same of. -/
structure RegistryService.Alike (alnum : Char → Bool) (service service' : RegistryService) :
    Prop where
  others : service' = { service with
    source := service'.source, docsPath := service'.docsPath, warnings := service'.warnings }
  source : redactText alnum service'.source = redactText alnum service.source
  docsPath : service'.docsPath.map (redactText alnum) = service.docsPath.map (redactText alnum)
  /-- The path of neither is empty where that of the other is not. -/
  hasPath : service'.docsPath = some "" ↔ service.docsPath = some ""
  warnings : service'.warnings.map (redactText alnum) = service.warnings.map (redactText alnum)

variable {alnum : Char → Bool}

theorem RegistryService.Alike.docsPath_cases {service service' : RegistryService}
    (h : service.Alike alnum service') :
    (service'.docsPath = none ∧ service.docsPath = none)
    ∨ ∃ path path', service'.docsPath = some path' ∧ service.docsPath = some path
      ∧ redactText alnum path' = redactText alnum path ∧ (path' = "" ↔ path = "") := by
  have hmap := h.docsPath
  have hempty := h.hasPath
  cases hd : service.docsPath <;> cases hd' : service'.docsPath <;> simp_all

theorem RegistryService.alike_put (service : RegistryService) {text text' : String}
    (h : redactText alnum text' = redactText alnum text) (htext : text ≠ "") (htext' : text' ≠ "")
    (field : FreeText) : (service.put text field).Alike alnum (service.put text' field) := by
  cases field with
  | source => exact ⟨rfl, h, rfl, Iff.rfl, rfl⟩
  | docsPath =>
    refine ⟨rfl, rfl, congrArg some h, ?_, rfl⟩
    simp [put, htext, htext']
  | warning before after => exact ⟨rfl, rfl, rfl, Iff.rfl, by simp [put, h]⟩

namespace Docs

/-! ## §2. The documentation centre. -/

section Alike

variable {service service' : RegistryService} (h : service.Alike alnum service')

include h

theorem serviceEntry_alike (serverDocRoot serviceDocRoot : PosixPath)
    (renames : List (String × String)) :
    serviceEntry alnum serverDocRoot serviceDocRoot renames service'
      = serviceEntry alnum serverDocRoot serviceDocRoot renames service := by
  rw [h.others]
  simp only [serviceEntry, h.source, h.docsPath, h.warnings]

theorem planService_alike (serverDocRoot serviceDocRoot : PosixPath)
    (renames : List (String × String)) (state : PlanState) :
    planService alnum serverDocRoot serviceDocRoot renames state service'
      = planService alnum serverDocRoot serviceDocRoot renames state service := by
  have hdomains : service'.domains = service.domains ∧ service'.node = service.node
      ∧ service'.serviceId = service.serviceId := by
    rw [h.others]
    exact ⟨rfl, rfl, rfl⟩
  simp only [planService, serviceEntry_alike h, hdomains]

theorem renderServiceReadme_alike (entry : ServiceDoc) :
    renderServiceReadme alnum entry service' = renderServiceReadme alnum entry service := by
  obtain ⟨source, docsPath, warnings, rfl⟩ : ∃ source docsPath warnings, service' = { service with
      source := source, docsPath := docsPath, warnings := warnings } := ⟨_, _, _, h.others⟩
  have hwarnings : (if warnings = [] then ["无"] else warnings).map
        (fun item => "- " ++ redactText alnum item)
      = (if service.warnings = [] then ["无"] else service.warnings).map
        (fun item => "- " ++ redactText alnum item) := by
    have hmap := h.warnings
    have hnil : warnings = [] ↔ service.warnings = [] := by
      rw [← List.map_eq_nil_iff (f := redactText alnum), hmap, List.map_eq_nil_iff]
    simp only [hnil]
    split_ifs with hw
    · rfl
    · simpa [Function.comp_def] using congrArg (List.map ("- " ++ ·)) hmap
  have hmonitor : ∀ docsPath, monitorText alnum { service with
      source := source, docsPath := docsPath, warnings := warnings }
    = monitorText alnum service := fun _ => rfl
  have hsource := h.source
  simp only at hsource
  rcases h.docsPath_cases with ⟨hnone, hnone'⟩ | ⟨path, path', hsome, hsome', hpath, hempty⟩
  · simp only at hnone
    simp only [renderServiceReadme, hnone, hnone', hwarnings, hmonitor, hsource]
  · simp only at hsome
    simp only [renderServiceReadme, hsome, hsome', ne_eq, hempty, hpath, hwarnings, hmonitor, hsource]

end Alike

/-! ## §3. Two registries. -/

/-- Registries whose services are equal but for one. -/
structure OneDiffers (registry registry' : ServiceRegistry) (service service' : RegistryService) :
    Prop where
  sameId : service'.serviceId = service.serviceId
  rows : ∃ before after, registry.rows = before ++ service :: after
    ∧ registry'.rows = before ++ service' :: after

section OneDiffers

variable {registry registry' : ServiceRegistry} {service service' : RegistryService}
  (h : OneDiffers registry registry' service service')

include h

/-- A record is the same in both, or the one that differs. -/
theorem find?_oneDiffers (serviceId : String) :
    registry'.find? serviceId = registry.find? serviceId
    ∨ (registry'.find? serviceId = some service' ∧ registry.find? serviceId = some service) := by
  obtain ⟨before, after, hrows, hrows'⟩ := h.rows
  rw [Table.find?, Table.find?, hrows, hrows', List.find?_append, List.find?_append,
    List.find?_cons, List.find?_cons, h.sameId]
  cases before.find? fun r => decide (r.serviceId = serviceId) with
  | some r => exact Or.inl rfl
  | none =>
    by_cases hid : service.serviceId = serviceId
    · exact Or.inr (by simp [hid])
    · exact Or.inl (by simp [hid])

variable (halike : service.Alike alnum service')

include halike

theorem plan_oneDiffers (serverDocRoot serviceDocRoot : PosixPath) (renameHosts : RenameHosts) :
    buildDocsSyncPlanFromRegistry alnum serverDocRoot serviceDocRoot renameHosts registry'
      = buildDocsSyncPlanFromRegistry alnum serverDocRoot serviceDocRoot renameHosts registry := by
  obtain ⟨before, after, hrows, hrows'⟩ := h.rows
  simp only [buildDocsSyncPlanFromRegistry, ServiceRegistry.listServices, hrows, hrows',
    List.foldl_append, List.foldl_cons, planService_alike halike]

theorem serviceWrite_oneDiffers (rootResolved : PosixPath) (entry : ServiceDoc) :
    serviceWrite alnum rootResolved registry' entry
      = serviceWrite alnum rootResolved registry entry := by
  rw [serviceWrite, serviceWrite]
  rcases find?_oneDiffers h entry.serviceId with hfind | ⟨hfind', hfind⟩
  · rw [hfind]
  · rw [hfind, hfind']
    simp only [renderServiceReadme_alike halike]

/-- **The documentation centre does not tell services apart that the redactor
does not tell apart.** -/
theorem applyDocsSync_alike (root : PosixPath) (execute : Bool) (renameHosts : RenameHosts) :
    applyDocsSyncFromRegistry alnum root execute renameHosts registry'
      = applyDocsSyncFromRegistry alnum root execute renameHosts registry := by
  have hwrites : ∀ rootResolved, serviceWrite alnum rootResolved registry'
      = serviceWrite alnum rootResolved registry :=
    fun rootResolved => funext (serviceWrite_oneDiffers h halike rootResolved)
  have hlength : registry'.listServices.length = registry.listServices.length := by
    obtain ⟨before, after, hrows, hrows'⟩ := h.rows
    simp [ServiceRegistry.listServices, hrows, hrows']
  simp only [applyDocsSyncFromRegistry, plan_oneDiffers h halike, hlength, buildApplyWrites, hwrites]

end OneDiffers

/-! ## §4. The generated documents. -/

namespace Generate

theorem renderServiceDoc_source (service : RegistryService) {text text' : String}
    (h : redactText alnum text' = redactText alnum text) :
    renderServiceDoc alnum (service.put text' .source)
      = renderServiceDoc alnum (service.put text .source) := by
  have hmonitor : ∀ text, renderMonitor alnum (service.put text .source)
      = renderMonitor alnum service := fun _ => rfl
  simp only [renderServiceDoc, hmonitor]
  simp only [RegistryService.put, h]
  rfl

/-- The lines of the document before the document path. -/
def linesBeforePath (alnum : Char → Bool) (service : RegistryService) : List String :=
  let codes := fun xs : List String => if xs = [] then "无" else Text.join ", " (xs.map code)
  ["# " ++ service.name ++ "\n",
    "## 服务概览",
    "- 服务名：" ++ code service.name,
    "- 承载节点：" ++ code service.node,
    "- 类型：" ++ code service.kind,
    "- 运行时：" ++ code (orDefault (service.runtime.getD "") "unknown"),
    "- 域名：" ++ codes service.domains,
    "- 端口：" ++ codes (service.ports.map toString),
    "- 来源：" ++ code (redactText alnum service.source)]

/-- The lines between the document path and the warnings. -/
def linesBeforeWarnings (service : RegistryService) : List String :=
  ["- 生成路径：" ++ code (relativeDocPath service).text, "", "## 告警 / 风险提示"]

/-- The lines behind the warnings. -/
def linesBehind (alnum : Char → Bool) (service : RegistryService) : List String :=
  ["", "## 监控信息", renderMonitor alnum service, "", "## 常用运维命令占位", "```bash",
    "systemctl status <service>", "journalctl -u <service> -n 200 --no-pager",
    "docker ps --format 'table \x7b\x7b.Names\x7d\x7d\t\x7b\x7b.Image\x7d\x7d\t\x7b\x7b.Status\x7d\x7d'",
    "ss -lntp", "```", ""]

/-- The document, with the lines that have free texts apart from the others. -/
theorem renderServiceDoc_lines (service : RegistryService) :
    renderServiceDoc alnum service = Text.join "\n" (linesBeforePath alnum service
      ++ ("- 文档路径：" ++ code (orDefault (service.docsPath.getD "") (relativeDocPath service).text))
      :: (linesBeforeWarnings service
        ++ (if service.warnings = [] then "- 无"
          else Text.join "\n" (service.warnings.map fun warning => "- " ++ warning))
        :: linesBehind alnum service)) := by
  simp only [renderServiceDoc, linesBeforePath, linesBeforeWarnings, linesBehind, List.cons_append,
    List.nil_append]

/-- The document path is printed as it is. -/
theorem docsPath_of_doc (service : RegistryService) {text text' : String} (htext : text ≠ "")
    (htext' : text' ≠ "") (h : renderServiceDoc alnum (service.put text .docsPath)
      = renderServiceDoc alnum (service.put text' .docsPath)) : text = text' := by
  have hlines : ∀ text, text ≠ "" → renderServiceDoc alnum (service.put text .docsPath)
      = Text.join "\n" (linesBeforePath alnum service ++ ("- 文档路径：" ++ code text)
        :: (linesBeforeWarnings service ++ (if service.warnings = [] then "- 无"
          else Text.join "\n" (service.warnings.map fun warning => "- " ++ warning))
        :: linesBehind alnum service)) := by
    intro text htext
    rw [renderServiceDoc_lines]
    simp only [RegistryService.put, Option.getD_some, orDefault, ne_eq, htext, not_false_eq_true,
      if_true]
    rfl
  rw [hlines text htext, hlines text' htext'] at h
  have hline := Text.join_inj_at _ _ _ h
  simpa [code] using hline

/-- The warnings are printed as they are. -/
theorem warning_of_doc (service : RegistryService) {text text' : String} {before after : List String}
    (h : renderServiceDoc alnum (service.put text (.warning before after))
      = renderServiceDoc alnum (service.put text' (.warning before after))) : text = text' := by
  have hlines : ∀ text, renderServiceDoc alnum (service.put text (.warning before after))
      = Text.join "\n" ((linesBeforePath alnum service ++ ("- 文档路径：" ++ code
          (orDefault (service.docsPath.getD "") (relativeDocPath service).text))
        :: linesBeforeWarnings service)
        ++ Text.join "\n" (before.map ("- " ++ ·) ++ ("- " ++ text) :: after.map ("- " ++ ·))
        :: linesBehind alnum service) := by
    intro text
    rw [renderServiceDoc_lines]
    simp only [RegistryService.put, List.append_eq_nil_iff, reduceCtorEq, and_false, if_false,
      List.map_append, List.map_cons, List.append_assoc, List.cons_append]
    rfl
  rw [hlines, hlines] at h
  have hline := Text.join_inj_at _ _ _ (Text.join_inj_at _ _ _ h)
  simpa using hline

/-- **Documents that are equal service by service are equal altogether.** -/
theorem generateDocs_congr {registry registry' : ServiceRegistry}
    {service : RegistryService} {text text' : String} {field : FreeText}
    (h : OneDiffers registry registry' (service.put text field) (service.put text' field))
    (hdoc : renderServiceDoc alnum (service.put text' field)
      = renderServiceDoc alnum (service.put text field)) (outputDir : PosixPath) :
    generateDocsFromRegistry alnum outputDir registry'
      = generateDocsFromRegistry alnum outputDir registry := by
  obtain ⟨before, after, hrows, hrows'⟩ := h.rows
  have hrow : (service.put text' field).name = (service.put text field).name
      ∧ (service.put text' field).node = (service.put text field).node
      ∧ (service.put text' field).kind = (service.put text field).kind
      ∧ (service.put text' field).domains = (service.put text field).domains := by
    cases field <;> exact ⟨rfl, rfl, rfl, rfl⟩
  have hpath : relativeDocPath (service.put text' field)
      = relativeDocPath (service.put text field) := by
    rw [relativeDocPath, relativeDocPath, hrow.1]
  have hindex : renderServiceIndex registry'.listServices
      = renderServiceIndex registry.listServices := by
    simp only [renderServiceIndex, ServiceRegistry.listServices, hrows, hrows', List.map_append,
      List.map_cons, List.append_eq_nil_iff, reduceCtorEq, and_false, if_false, hrow, hpath]
  have hdomains : renderDomainsIndex registry'.listServices
      = renderDomainsIndex registry.listServices := by
    simp only [renderDomainsIndex, ServiceRegistry.listServices, hrows, hrows', List.flatMap_append,
      List.flatMap_cons, hrow, hpath]
  have hrunbook : renderRunbookIndex registry'.listServices
      = renderRunbookIndex registry.listServices := by
    simp only [renderRunbookIndex, ServiceRegistry.listServices, hrows, hrows', List.map_append,
      List.map_cons, List.append_eq_nil_iff, reduceCtorEq, and_false, if_false, hrow, hpath]
  have hloop : registry'.listServices.forM (writeServiceDoc alnum outputDir)
      = registry.listServices.forM (writeServiceDoc alnum outputDir) := by
    simp only [ServiceRegistry.listServices, hrows, hrows', List.forM_eq_forM, List.forM_append,
      List.forM_cons, writeServiceDoc, hpath, hdoc]
  simp only [generateDocsFromRegistry, hindex, hdomains, hrunbook, hloop]

/-! ## §5. What is written. -/

end Generate

/-- The files a program writes, each with its text. -/
def filesWritten {σ α : Type} (exec : Prog.Exec files σ) (program : FilePy α) (tree : σ) :
    List Write :=
  (program.trace exec tree).filterMap fun call =>
    match call.2 with
    | .writeText path text => some (path, text)
    | _ => none

/-- A file system on which every call succeeds. -/
def obliging : Prog.Exec files Unit
  | .resolve path, _ => (.ok path, ())
  | .mkdir _, _ => (.ok (), ())
  | .writeText _ _, _ => (.ok (), ())

theorem filesWritten_bind {σ α β : Type} {exec : Prog.Exec files σ} {program : FilePy α}
    {f : α → FilePy β} {tree tree' : σ} {a : α} (h : program.run exec tree = (.ok a, tree')) :
    filesWritten exec (program >>= f) tree
      = filesWritten exec program tree ++ filesWritten exec (f a) tree' := by
  rw [filesWritten, Prog.trace_bind_ok exec _ _ h, List.filterMap_append]
  rfl

namespace Generate

/-- The document of a service and its place. -/
def serviceWriteOf (alnum : Char → Bool) (outputDir : PosixPath) (service : RegistryService) :
    Write :=
  (outputDir.joinPath (relativeDocPath service), renderServiceDoc alnum service)

theorem filesWritten_services (outputDir : PosixPath) (services : List RegistryService) :
    (services.forM (writeServiceDoc alnum outputDir)).run obliging () = (.ok (), ())
    ∧ filesWritten obliging (services.forM (writeServiceDoc alnum outputDir)) ()
      = services.map (serviceWriteOf alnum outputDir) := by
  induction services with
  | nil => exact ⟨rfl, rfl⟩
  | cons service services ih =>
    have hone : (writeServiceDoc alnum outputDir service).run obliging () = (.ok (), ()) := rfl
    simp only [List.forM_eq_forM, List.forM_cons] at ih ⊢
    refine ⟨?_, ?_⟩
    · rw [Prog.run_bind, hone]
      exact ih.1
    · rw [filesWritten_bind hone, ih.2]
      rfl

/-- Where every call succeeds, the documents of the services are written first,
in their order. -/
theorem filesWritten_generateDocs (outputDir : PosixPath) (registry : ServiceRegistry) :
    ∃ indexes : List Write, indexes.length = 3
      ∧ filesWritten obliging (generateDocsFromRegistry alnum outputDir registry) ()
        = registry.listServices.map (serviceWriteOf alnum outputDir) ++ indexes := by
  obtain ⟨hrun, hwritten⟩ := @filesWritten_services alnum outputDir registry.listServices
  refine ⟨[((outputDir.join "service").join "README.md", renderServiceIndex registry.listServices),
    ((outputDir.join "domains").join "README.md", renderDomainsIndex registry.listServices),
    ((outputDir.join "runbooks").join "README.md", renderRunbookIndex registry.listServices)],
    rfl, ?_⟩
  have hdirs : filesWritten obliging (generateDocsFromRegistry alnum outputDir registry) ()
      = filesWritten obliging (registry.listServices.forM (writeServiceDoc alnum outputDir) >>=
        fun _ => do
          writeText ((outputDir.join "service").join "README.md")
            (renderServiceIndex registry.listServices)
          writeText ((outputDir.join "domains").join "README.md")
            (renderDomainsIndex registry.listServices)
          writeText ((outputDir.join "runbooks").join "README.md")
            (renderRunbookIndex registry.listServices)
          pure outputDir) () := rfl
  rw [hdirs, filesWritten_bind hrun, hwritten]
  rfl

/-- Where every call succeeds, equal files have equal documents of a service. -/
theorem doc_of_filesWritten {registry registry' : ServiceRegistry}
    {service service' : RegistryService} (h : OneDiffers registry registry' service service')
    (outputDir : PosixPath)
    (hfiles : filesWritten obliging (generateDocsFromRegistry alnum outputDir registry) ()
      = filesWritten obliging (generateDocsFromRegistry alnum outputDir registry') ()) :
    renderServiceDoc alnum service = renderServiceDoc alnum service' := by
  obtain ⟨before, after, hrows, hrows'⟩ := h.rows
  obtain ⟨indexes, hlength, hwritten⟩ := @filesWritten_generateDocs alnum outputDir registry
  obtain ⟨indexes', hlength', hwritten'⟩ := @filesWritten_generateDocs alnum outputDir registry'
  rw [hwritten, hwritten'] at hfiles
  have hdocs := List.append_inj_left' hfiles (hlength.trans hlength'.symm)
  simp only [ServiceRegistry.listServices, hrows, hrows', List.map_append, List.map_cons,
    List.append_cancel_left_eq, List.cons.injEq, serviceWriteOf, Prod.mk.injEq] at hdocs
  exact hdocs.1.2

end Generate

/-! ## §6. Both documents. -/

/-- Two registries that are equal except that in a free text of a service the
value of a word `KEY=VALUE` with a telling key differs. -/
structure SecretDiffers (registry registry' : ServiceRegistry) (field : FreeText) : Prop where
  differs : ∃ (service : RegistryService) (pre key post value value' : String),
    SecretWord pre key post ∧ SecretValue value.toList ∧ SecretValue value'.toList ∧ value ≠ value'
    ∧ OneDiffers registry registry' (service.put (withSecret pre key value post) field)
      (service.put (withSecret pre key value' post) field)

/-- **When a secret of a free text reaches no document**: exactly when the text
is the source of the service.  On every file system both programs then write the
same files; a document path and a warning are printed by `render_service_doc`
as they are. -/
theorem free_text_secrets_iff (halnum : AsciiTable alnum) {registry registry' : ServiceRegistry}
    {field : FreeText} (h : SecretDiffers registry registry' field) (outputDir root : PosixPath)
    (execute : Bool) (renameHosts : RenameHosts) :
    (∀ (σ : Type) (exec : Prog.Exec files σ) (tree : σ),
      filesWritten exec (Generate.generateDocsFromRegistry alnum outputDir registry) tree
          = filesWritten exec (Generate.generateDocsFromRegistry alnum outputDir registry') tree
        ∧ filesWritten exec (applyDocsSyncFromRegistry alnum root execute renameHosts registry) tree
          = filesWritten exec (applyDocsSyncFromRegistry alnum root execute renameHosts registry')
            tree)
      ↔ field = .source := by
  obtain ⟨service, pre, key, post, value, value', hword, hvalue, hvalue', hne, hdiffers⟩ := h.differs
  have hredact := redactText_secret halnum hword hvalue' hvalue
  have htext : ∀ value, withSecret pre key value post ≠ "" := by
    intro value hempty
    have := congrArg String.toList hempty
    simp [withSecret] at this
  have hinj : withSecret pre key value post = withSecret pre key value' post → False := by
    intro heq
    refine hne ?_
    simpa [withSecret, ← String.toList_inj] using heq
  constructor
  · intro hfiles
    have hdoc := Generate.doc_of_filesWritten hdiffers outputDir (hfiles Unit obliging ()).1
    cases field with
    | source => rfl
    | docsPath => exact (hinj (Generate.docsPath_of_doc service (htext _) (htext _) hdoc)).elim
    | warning before after => exact (hinj (Generate.warning_of_doc service hdoc)).elim
  · rintro rfl σ exec tree
    have halike := service.alike_put hredact (htext _) (htext _) .source
    have hdoc := Generate.renderServiceDoc_source service hredact
    rw [Generate.generateDocs_congr hdiffers hdoc, applyDocsSync_alike hdiffers halike]
    exact ⟨rfl, rfl⟩

/-- A service with nothing but a name. -/
def plainService : RegistryService where
  serviceId := "blog"
  name := "Blog"
  node := "web-1"
  kind := "docker"

/-- A registry whose one service has a secret in a free text. -/
def secretRegistry (field : FreeText) (value : String) : ServiceRegistry :=
  .single (plainService.put (withSecret "run with " "db_token" value " set") field)

theorem secretRegistry_differs (field : FreeText) (value value' : String)
    (hvalue : SecretValue value.toList) (hvalue' : SecretValue value'.toList)
    (hne : value ≠ value') :
    SecretDiffers (secretRegistry field value) (secretRegistry field value') field := by
  refine ⟨plainService, "run with ", "db_token", " set", value, value', ⟨by decide, ⟨by decide, ?_⟩,
    by simp [AfterWord]⟩, hvalue, hvalue', hne, ?_, [], [], rfl, rfl⟩
  · exact ⟨"db_".toList, "token".toList, [], by decide, by decide⟩
  · cases field <;> rfl

/-- Two secrets of a source make no difference. -/
theorem source_secrets_alike :
    filesWritten obliging (Generate.generateDocsFromRegistry isAlnum (.ofString "docs")
        (secretRegistry .source "abc")) ()
      = filesWritten obliging (Generate.generateDocsFromRegistry isAlnum (.ofString "docs")
        (secretRegistry .source "xyz")) () := by
  have hdiffers := secretRegistry_differs .source "abc" "xyz"
    ⟨by decide, by decide⟩ ⟨by decide, by decide⟩ (by decide)
  exact (((free_text_secrets_iff (fun _ _ => rfl) hdiffers (.ofString "docs")
    (.ofString "/srv/files") true .empty).mpr rfl) Unit obliging ()).1

/-- **A secret that is printed.**  Two registries that differ in the value of
`db_token` in a warning have different documents. -/
theorem warning_secret_printed :
    SecretDiffers (secretRegistry (.warning [] []) "abc") (secretRegistry (.warning [] []) "xyz")
      (.warning [] [])
    ∧ filesWritten obliging (Generate.generateDocsFromRegistry isAlnum (.ofString "docs")
        (secretRegistry (.warning [] []) "abc")) ()
      ≠ filesWritten obliging (Generate.generateDocsFromRegistry isAlnum (.ofString "docs")
        (secretRegistry (.warning [] []) "xyz")) () :=
  ⟨secretRegistry_differs _ _ _ ⟨by decide, by decide⟩ ⟨by decide, by decide⟩ (by decide),
    by decide +kernel⟩

end Docs

end Hmn
