/-
  Hmn.Docs.SyncPlan — which documents the documentation centre is to have.

  For each service: its host under the new name, the paths of its document and
  of its host's, an entry in the indexes, one in the mapping of each of its
  domains and one in the runbook mapping; for the first service of a renamed
  host, what renaming it takes.  The model is
  `docs_sync.build_docs_sync_plan_from_registry`.

  The plan is redacted as a whole before it is used
  (`toJson_sanitize`: member by member).
-/
import Hmn.Docs.Slug
import Hmn.Framework.PosixPath
import Hmn.Services.Registry

namespace Hmn.Docs

open Framework

/-! ## §1. The entries of a plan. -/

/-- A member that may be absent. -/
def optional : Option String → Json
  | some s => .str s
  | none => .null

/-- A list of texts. -/
def texts (xs : List String) : Json := .arr (xs.map .str)

/-- What the plan says of a host. -/
structure ServerDoc where
  host : String
  sourceHost : Option String
  targetPath : String
  services : List String
  deriving DecidableEq

def ServerDoc.toJson (doc : ServerDoc) : Json := .obj [
  ("host", .str doc.host), ("source_host", optional doc.sourceHost),
  ("target_path", .str doc.targetPath), ("services", texts doc.services)]

/-- What the plan says of a service. -/
structure ServiceDoc where
  serviceId : String
  serviceName : String
  serviceSlug : String
  host : String
  sourceHost : Option String
  kind : String
  runtime : Option String
  domains : List String
  ports : List Int
  source : String
  docsPath : Option String
  monitor : Json
  warnings : List String
  targetPath : String
  serverDocPath : String
  deriving DecidableEq

def ServiceDoc.toJson (doc : ServiceDoc) : Json := .obj [
  ("service_id", .str doc.serviceId), ("service_name", .str doc.serviceName),
  ("service_slug", .str doc.serviceSlug), ("host", .str doc.host),
  ("source_host", optional doc.sourceHost), ("kind", .str doc.kind),
  ("runtime", optional doc.runtime), ("domains", texts doc.domains),
  ("ports", .arr (doc.ports.map .int)), ("source", .str doc.source),
  ("docs_path", optional doc.docsPath), ("monitor", doc.monitor),
  ("warnings", texts doc.warnings), ("target_path", .str doc.targetPath),
  ("server_doc_path", .str doc.serverDocPath), ("dry_run", .bool true)]

/-- One document behind a domain. -/
structure DomainDoc where
  serviceId : String
  serviceSlug : String
  host : String
  docPath : String
  deriving DecidableEq

def DomainDoc.toJson (doc : DomainDoc) : Json := .obj [
  ("service_id", .str doc.serviceId), ("service_slug", .str doc.serviceSlug),
  ("host", .str doc.host), ("doc_path", .str doc.docPath)]

/-- An entry of the runbook mapping. -/
structure RunbookDoc where
  serviceId : String
  serviceSlug : String
  host : String
  sourceHost : Option String
  serviceDocPath : String
  serverDocPath : String
  domains : List String
  warnings : List String
  deriving DecidableEq

def RunbookDoc.toJson (doc : RunbookDoc) : Json := .obj [
  ("service_id", .str doc.serviceId), ("service_slug", .str doc.serviceSlug),
  ("host", .str doc.host), ("source_host", optional doc.sourceHost),
  ("service_doc_path", .str doc.serviceDocPath), ("server_doc_path", .str doc.serverDocPath),
  ("domains", texts doc.domains), ("warnings", texts doc.warnings)]

/-- What renaming a host takes. -/
inductive RenameAction where
  | move (source target host newHost : String)
  | updateReferences (paths : List String) (host newHost : String)
  deriving DecidableEq

def RenameAction.toJson : RenameAction → Json
  | .move source target host newHost => .obj [
      ("action", .str "move"), ("from", .str source), ("to", .str target), ("host", .str host),
      ("new_host", .str newHost)]
  | .updateReferences paths host newHost => .obj [
      ("action", .str "update_references"), ("paths", texts paths), ("host", .str host),
      ("new_host", .str newHost)]

/-- An entry of the index of hosts. -/
structure ServerIndexEntry where
  host : String
  sourceHost : Option String
  docPath : String
  serviceIds : List String
  deriving DecidableEq

def ServerIndexEntry.toJson (entry : ServerIndexEntry) : Json := .obj [
  ("host", .str entry.host), ("source_host", optional entry.sourceHost),
  ("doc_path", .str entry.docPath), ("service_ids", texts entry.serviceIds)]

/-- An entry of the index of services. -/
structure ServiceIndexEntry where
  serviceId : String
  serviceSlug : String
  host : String
  docPath : String
  serverDocPath : String
  deriving DecidableEq

def ServiceIndexEntry.toJson (entry : ServiceIndexEntry) : Json := .obj [
  ("service_id", .str entry.serviceId), ("service_slug", .str entry.serviceSlug),
  ("host", .str entry.host), ("doc_path", .str entry.docPath),
  ("server_doc_path", .str entry.serverDocPath)]

/-- An index and where it goes. -/
structure Index (α : Type) where
  targetPath : String
  entries : α
  deriving DecidableEq

def Index.toJson {α : Type} (entries : α → Json) (index : Index α) : Json :=
  .obj [("target_path", .str index.targetPath), ("entries", entries index.entries)]

/-- `payload`. -/
structure SyncPlan where
  serviceCount : Nat
  serverCount : Nat
  serverDocRoot : String
  serviceDocRoot : String
  serverDocs : List ServerDoc
  serviceDocs : List ServiceDoc
  serverIndex : Index (List ServerIndexEntry)
  serviceIndex : Index (List ServiceIndexEntry)
  /-- The domains are keys of an object. -/
  domainMapping : Index Dict
  runbookMapping : Index (List RunbookDoc)
  renameActions : List RenameAction
  deriving DecidableEq

def SyncPlan.toJson (plan : SyncPlan) : Json := .obj [
  ("mode", .str "docs-sync-plan"), ("dry_run", .bool true),
  ("service_count", .int plan.serviceCount), ("server_count", .int plan.serverCount),
  ("server_doc_root", .str plan.serverDocRoot), ("service_doc_root", .str plan.serviceDocRoot),
  ("server_docs", .arr (plan.serverDocs.map ServerDoc.toJson)),
  ("service_docs", .arr (plan.serviceDocs.map ServiceDoc.toJson)),
  ("indexes", .obj [
    ("server", plan.serverIndex.toJson fun es => .arr (es.map ServerIndexEntry.toJson)),
    ("service", plan.serviceIndex.toJson fun es => .arr (es.map ServiceIndexEntry.toJson)),
    ("domain_mapping", plan.domainMapping.toJson .obj),
    ("runbook_mapping", plan.runbookMapping.toJson fun es => .arr (es.map RunbookDoc.toJson))]),
  ("rename_actions", .arr (plan.renameActions.map RenameAction.toJson))]

/-! ## §2. A plan, redacted. -/

section Sanitize

variable (alnum : Char → Bool)

def ServerDoc.sanitize (doc : ServerDoc) : ServerDoc where
  host := redactText alnum doc.host
  sourceHost := doc.sourceHost.map (redactText alnum)
  targetPath := redactText alnum doc.targetPath
  services := doc.services.map (redactText alnum)

def ServiceDoc.sanitize (doc : ServiceDoc) : ServiceDoc where
  serviceId := redactText alnum doc.serviceId
  serviceName := redactText alnum doc.serviceName
  serviceSlug := redactText alnum doc.serviceSlug
  host := redactText alnum doc.host
  sourceHost := doc.sourceHost.map (redactText alnum)
  kind := redactText alnum doc.kind
  runtime := doc.runtime.map (redactText alnum)
  domains := doc.domains.map (redactText alnum)
  ports := doc.ports
  source := redactText alnum doc.source
  docsPath := doc.docsPath.map (redactText alnum)
  monitor := sanitizeValue alnum doc.monitor
  warnings := doc.warnings.map (redactText alnum)
  targetPath := redactText alnum doc.targetPath
  serverDocPath := redactText alnum doc.serverDocPath

def RunbookDoc.sanitize (doc : RunbookDoc) : RunbookDoc where
  serviceId := redactText alnum doc.serviceId
  serviceSlug := redactText alnum doc.serviceSlug
  host := redactText alnum doc.host
  sourceHost := doc.sourceHost.map (redactText alnum)
  serviceDocPath := redactText alnum doc.serviceDocPath
  serverDocPath := redactText alnum doc.serverDocPath
  domains := doc.domains.map (redactText alnum)
  warnings := doc.warnings.map (redactText alnum)

def RenameAction.sanitize : RenameAction → RenameAction
  | .move source target host newHost =>
    .move (redactText alnum source) (redactText alnum target) (redactText alnum host)
      (redactText alnum newHost)
  | .updateReferences paths host newHost =>
    .updateReferences (paths.map (redactText alnum)) (redactText alnum host)
      (redactText alnum newHost)

def ServerIndexEntry.sanitize (entry : ServerIndexEntry) : ServerIndexEntry where
  host := redactText alnum entry.host
  sourceHost := entry.sourceHost.map (redactText alnum)
  docPath := redactText alnum entry.docPath
  serviceIds := entry.serviceIds.map (redactText alnum)

def ServiceIndexEntry.sanitize (entry : ServiceIndexEntry) : ServiceIndexEntry where
  serviceId := redactText alnum entry.serviceId
  serviceSlug := redactText alnum entry.serviceSlug
  host := redactText alnum entry.host
  docPath := redactText alnum entry.docPath
  serverDocPath := redactText alnum entry.serverDocPath

def Index.sanitize {α : Type} (entries : α → α) (index : Index α) : Index α where
  targetPath := redactText alnum index.targetPath
  entries := entries index.entries

/-- `_sanitize_value(payload)`. -/
def SyncPlan.sanitize (plan : SyncPlan) : SyncPlan where
  serviceCount := plan.serviceCount
  serverCount := plan.serverCount
  serverDocRoot := redactText alnum plan.serverDocRoot
  serviceDocRoot := redactText alnum plan.serviceDocRoot
  serverDocs := plan.serverDocs.map (ServerDoc.sanitize alnum)
  serviceDocs := plan.serviceDocs.map (ServiceDoc.sanitize alnum)
  serverIndex := plan.serverIndex.sanitize alnum (·.map (ServerIndexEntry.sanitize alnum))
  serviceIndex := plan.serviceIndex.sanitize alnum (·.map (ServiceIndexEntry.sanitize alnum))
  domainMapping := plan.domainMapping.sanitize alnum (sanitizeFields alnum)
  runbookMapping := plan.runbookMapping.sanitize alnum (·.map (RunbookDoc.sanitize alnum))
  renameActions := plan.renameActions.map (RenameAction.sanitize alnum)

@[simp] theorem sanitize_optional (s : Option String) :
    sanitizeValue alnum (optional s) = optional (s.map (redactText alnum)) := by
  cases s <;> rfl

/-- A list is sanitized element by element, also under the conversion to JSON. -/
theorem sanitize_list {α : Type} (toJson : α → Json) (sanitize : α → α)
    (h : ∀ x, toJson (sanitize x) = sanitizeValue alnum (toJson x)) (xs : List α) :
    sanitizeValue alnum (.arr (xs.map toJson)) = .arr ((xs.map sanitize).map toJson) := by
  rw [sanitizeValue, sanitizeList_eq_map, List.map_map, List.map_map]
  exact congrArg Json.arr (List.map_congr_left fun x _ => (h x).symm)

@[simp] theorem sanitize_texts (xs : List String) :
    sanitizeValue alnum (texts xs) = texts (xs.map (redactText alnum)) :=
  sanitize_list alnum .str (redactText alnum) (fun _ => rfl) xs

theorem ServerDoc.toJson_sanitize (doc : ServerDoc) :
    (doc.sanitize alnum).toJson = sanitizeValue alnum doc.toJson := by
  simp +decide [toJson, sanitize, sanitizeValue, sanitizeFields]

theorem ServiceDoc.toJson_sanitize (doc : ServiceDoc) :
    (doc.sanitize alnum).toJson = sanitizeValue alnum doc.toJson := by
  have hports : sanitizeValue alnum (.arr (doc.ports.map .int)) = .arr (doc.ports.map .int) :=
    (sanitize_list alnum .int id (fun _ => rfl) doc.ports).trans (by rw [List.map_id])
  have hdryRun : sanitizeValue alnum (.bool true) = .bool true := rfl
  have htext : ∀ s, sanitizeValue alnum (.str s) = .str (redactText alnum s) := fun _ => rfl
  simp +decide only [toJson, sanitize, sanitizeFields, hports, hdryRun, htext,
    sanitize_optional, sanitize_texts, if_false, sanitizeValue.eq_1]

theorem RunbookDoc.toJson_sanitize (doc : RunbookDoc) :
    (doc.sanitize alnum).toJson = sanitizeValue alnum doc.toJson := by
  simp +decide [toJson, sanitize, sanitizeValue, sanitizeFields]

theorem ServerIndexEntry.toJson_sanitize (entry : ServerIndexEntry) :
    (entry.sanitize alnum).toJson = sanitizeValue alnum entry.toJson := by
  simp +decide [toJson, sanitize, sanitizeValue, sanitizeFields]

theorem ServiceIndexEntry.toJson_sanitize (entry : ServiceIndexEntry) :
    (entry.sanitize alnum).toJson = sanitizeValue alnum entry.toJson := by
  simp +decide [toJson, sanitize, sanitizeValue, sanitizeFields]

theorem RenameAction.toJson_sanitize (action : RenameAction) :
    (action.sanitize alnum).toJson = sanitizeValue alnum action.toJson := by
  have hmove : redactText alnum "move" = "move" := redactText_eq_self alnum (by decide)
  have hupdate : redactText alnum "update_references" = "update_references" :=
    redactText_eq_self alnum (by decide)
  cases action <;>
    simp +decide [toJson, sanitize, sanitizeValue, sanitizeFields, hmove, hupdate]

theorem Index.toJson_sanitize {α : Type} (entries : α → Json) (sanitize : α → α)
    (h : ∀ x, entries (sanitize x) = sanitizeValue alnum (entries x)) (index : Index α) :
    (index.sanitize alnum sanitize).toJson entries = sanitizeValue alnum (index.toJson entries) := by
  simp +decide [Index.toJson, Index.sanitize, sanitizeValue, sanitizeFields, h]

theorem Index.toJson_sanitize_list {α : Type} (toJson : α → Json) (sanitize : α → α)
    (h : ∀ x, toJson (sanitize x) = sanitizeValue alnum (toJson x)) (index : Index (List α)) :
    (index.sanitize alnum (·.map sanitize)).toJson (fun es => .arr (es.map toJson))
      = sanitizeValue alnum (index.toJson fun es => .arr (es.map toJson)) :=
  Index.toJson_sanitize alnum _ _ (fun es => (sanitize_list alnum toJson sanitize h es).symm) index

/-- **The JSON of a redacted plan is the redacted JSON of the plan**: no member
of the plan itself has a telling name. -/
theorem SyncPlan.toJson_sanitize (plan : SyncPlan) :
    (plan.sanitize alnum).toJson = sanitizeValue alnum plan.toJson := by
  have hmode : redactText alnum "docs-sync-plan" = "docs-sync-plan" :=
    redactText_eq_self alnum (by decide)
  have hdomain := Index.toJson_sanitize alnum .obj (sanitizeFields alnum) (fun _ => rfl)
    plan.domainMapping
  have hindexes : ∀ a b c d : Json, sanitizeValue alnum (.obj [("server", a), ("service", b),
      ("domain_mapping", c), ("runbook_mapping", d)]) = .obj [("server", sanitizeValue alnum a),
      ("service", sanitizeValue alnum b), ("domain_mapping", sanitizeValue alnum c),
      ("runbook_mapping", sanitizeValue alnum d)] := fun _ _ _ _ => by
    simp +decide [sanitizeValue, sanitizeFields]
  have hint : ∀ n, sanitizeValue alnum (.int n) = .int n := fun _ => rfl
  have hbool : sanitizeValue alnum (.bool true) = .bool true := rfl
  have htext : ∀ s, sanitizeValue alnum (.str s) = .str (redactText alnum s) := fun _ => rfl
  simp +decide only [toJson, sanitize, sanitizeFields, sanitizeValue.eq_1, hindexes, hint,
    hbool, htext, hmode, hdomain, if_false,
    Index.toJson_sanitize_list alnum _ _ (ServerIndexEntry.toJson_sanitize alnum),
    Index.toJson_sanitize_list alnum _ _ (ServiceIndexEntry.toJson_sanitize alnum),
    Index.toJson_sanitize_list alnum _ _ (RunbookDoc.toJson_sanitize alnum),
    sanitize_list alnum _ _ (ServerDoc.toJson_sanitize alnum),
    sanitize_list alnum _ _ (ServiceDoc.toJson_sanitize alnum),
    sanitize_list alnum _ _ (RenameAction.toJson_sanitize alnum)]

end Sanitize

/-! ## §3. Building a plan. -/

/-- `_server_doc_path`. -/
def serverDocPath (root : PosixPath) (host : String) : String :=
  ((root.join host).join "README.md").text

/-- `_service_doc_path`. -/
def serviceDocPath (root : PosixPath) (slug : String) : String :=
  ((root.join slug).join "README.md").text

/-- Entries in the order of a text of theirs. -/
def sortedBy {α : Type} (key : α → String) (xs : List α) : List α :=
  xs.insertionSort fun a b => key a ≤ key b

/-- `_build_rename_actions`. -/
def buildRenameActions (oldHost newHost : String) (serverDocRoot serviceDocRoot : PosixPath)
    (affectedServices : List ServiceDoc) : List RenameAction :=
  let indexes := [(serverDocRoot.join "README.md").text, (serviceDocRoot.join "README.md").text,
    (serviceDocRoot.join "domain-mapping.json").text,
    (serviceDocRoot.join "runbook-mapping.json").text]
  let paths := (sortedBy ServiceDoc.serviceId affectedServices).foldl
    (fun paths item => if item.targetPath ∈ paths then paths else paths ++ [item.targetPath]) indexes
  [.move (serverDocRoot.join oldHost).text (serverDocRoot.join newHost).text oldHost newHost,
    .updateReferences paths oldHost newHost]

/-- The names hosts are to have: `rename_hosts`, without blank names. -/
abbrev RenameHosts := Table (Prod.fst : String × String → String)

def RenameHosts.usable (renameHosts : RenameHosts) : List (String × String) :=
  renameHosts.rows.filter fun (old, new) => Text.strip old ≠ "" ∧ Text.strip new ≠ ""

/-- What the loop over the services carries. -/
structure PlanState where
  hostSummary : Table ServerDoc.host
  serviceEntries : List ServiceDoc
  domainMapping : Table (Prod.fst : String × List DomainDoc → String)
  runbookEntries : List RunbookDoc
  renameActions : List RenameAction
  touchedHosts : List String

def PlanState.empty : PlanState := ⟨.empty, [], .empty, [], [], []⟩

/-- One more service on a host. -/
def addService (hostSummary : Table ServerDoc.host) (host : String) (sourceHost : Option String)
    (targetPath serviceId : String) : Table ServerDoc.host :=
  let doc := (hostSummary.find? host).getD ⟨host, sourceHost, targetPath, []⟩
  hostSummary.upsert { doc with services := doc.services ++ [serviceId] }

/-- One more document behind a domain. -/
def addDomain (doc : DomainDoc) (mapping : Table (Prod.fst : String × List DomainDoc → String))
    (domain : String) : Table (Prod.fst : String × List DomainDoc → String) :=
  mapping.upsert (domain, ((mapping.find? domain).map Prod.snd).getD [] ++ [doc])

section Build

variable (alnum : Char → Bool) (serverDocRoot serviceDocRoot : PosixPath)
  (renames : List (String × String))

/-- `service_entry`. -/
def serviceEntry (service : RegistryService) : ServiceDoc :=
  let sourceHost := safeHostSegment service.node
  let targetHost := safeHostSegment ((renames.lookup service.node).getD service.node)
  let serviceSlug :=
    safeServiceSlug (if service.serviceId ≠ "" then service.serviceId else service.name)
  { serviceId := service.serviceId
    serviceName := service.name
    serviceSlug := serviceSlug
    host := targetHost
    sourceHost := if sourceHost ≠ targetHost then some sourceHost else none
    kind := service.kind
    runtime := service.runtime
    domains := service.domains
    ports := service.ports
    source := redactText alnum service.source
    docsPath := service.docsPath.map (redactText alnum)
    monitor := sanitizeValue alnum (.obj service.monitor)
    warnings := service.warnings.map (redactText alnum)
    targetPath := serviceDocPath serviceDocRoot serviceSlug
    serverDocPath := serverDocPath serverDocRoot targetHost }

/-- The body of the loop over the services. -/
def planService (state : PlanState) (service : RegistryService) : PlanState :=
  let entry := serviceEntry alnum serverDocRoot serviceDocRoot renames service
  let serviceEntries := state.serviceEntries ++ [entry]
  let renamed := (renames.lookup service.node).isSome ∧ service.node ∉ state.touchedHosts
  let sourceHost := safeHostSegment service.node
  { hostSummary :=
      addService state.hostSummary entry.host entry.sourceHost entry.serverDocPath service.serviceId
    serviceEntries := serviceEntries
    domainMapping := service.domains.foldl
      (addDomain ⟨service.serviceId, entry.serviceSlug, entry.host, entry.targetPath⟩)
      state.domainMapping
    runbookEntries := state.runbookEntries ++ [
      { serviceId := service.serviceId
        serviceSlug := entry.serviceSlug
        host := entry.host
        sourceHost := entry.sourceHost
        serviceDocPath := entry.targetPath
        serverDocPath := entry.serverDocPath
        domains := service.domains
        warnings := entry.warnings }]
    renameActions :=
      if renamed then state.renameActions ++ buildRenameActions sourceHost entry.host serverDocRoot
        serviceDocRoot (serviceEntries.filter fun item => item.sourceHost = some sourceHost)
      else state.renameActions
    touchedHosts := if renamed then state.touchedHosts ++ [service.node] else state.touchedHosts }

/-- The members of the plan, from what the loop leaves. -/
def planPayload (state : PlanState) : SyncPlan :=
  let serverEntries := sortedBy ServerDoc.host state.hostSummary.rows
  { serviceCount := state.serviceEntries.length
    serverCount := serverEntries.length
    serverDocRoot := serverDocRoot.text
    serviceDocRoot := serviceDocRoot.text
    serverDocs := serverEntries
    serviceDocs := sortedBy ServiceDoc.serviceId state.serviceEntries
    serverIndex := ⟨(serverDocRoot.join "README.md").text, sortedBy ServerIndexEntry.host
      (serverEntries.map fun entry =>
        ⟨entry.host, entry.sourceHost, entry.targetPath, sortedBy id entry.services⟩)⟩
    serviceIndex := ⟨(serviceDocRoot.join "README.md").text, sortedBy ServiceIndexEntry.serviceId
      (state.serviceEntries.map fun entry =>
        ⟨entry.serviceId, entry.serviceSlug, entry.host, entry.targetPath, entry.serverDocPath⟩)⟩
    domainMapping := ⟨(serviceDocRoot.join "domain-mapping.json").text,
      (sortedBy Prod.fst state.domainMapping.rows).map fun (domain, docs) =>
        (domain, .arr (docs.map DomainDoc.toJson))⟩
    runbookMapping := ⟨(serviceDocRoot.join "runbook-mapping.json").text,
      sortedBy RunbookDoc.serviceId state.runbookEntries⟩
    renameActions := state.renameActions }

end Build

/-- `build_docs_sync_plan_from_registry`. -/
def buildDocsSyncPlanFromRegistry (alnum : Char → Bool) (serverDocRoot serviceDocRoot : PosixPath)
    (renameHosts : RenameHosts) (registry : ServiceRegistry) : SyncPlan :=
  let state := registry.listServices.foldl
    (planService alnum serverDocRoot serviceDocRoot renameHosts.usable) .empty
  (planPayload serverDocRoot serviceDocRoot state).sanitize alnum

end Hmn.Docs
