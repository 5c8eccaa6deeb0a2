/-
  Hmn.Docs.SyncApply — writing the documentation centre.

  The texts are put together with the places they go to, each relative to the
  root; every place is resolved and looked at before the first is written.
  The model is `docs_sync.apply_docs_sync_from_registry` and
  `_build_apply_writes`, as programs of file calls.
-/
import Hmn.Docs.SyncRender
import Hmn.Framework.Prog

namespace Hmn.Docs

open Framework

/-! ## §1. File calls. -/

/-- One call to the file system. -/
inductive FileOp where
  /-- `path.resolve(strict=False)`. -/
  | resolve (path : PosixPath)
  /-- `path.mkdir(parents=True, exist_ok=True)`. -/
  | mkdir (path : PosixPath)
  /-- `path.write_text(text, encoding="utf-8")`. -/
  | writeText (path : PosixPath) (text : String)

/-- What each call answers with. -/
def files : Sig where
  Op := FileOp
  Res
    | .resolve _ => Except PyError PosixPath
    | .mkdir _ => Except PyError Unit
    | .writeText _ _ => Except PyError Unit

/-- Programs of file calls. -/
abbrev FilePy := Prog files PyError

/-- `Except` as a program that makes no call. -/
def orRaise {α : Type} : Except PyError α → FilePy α
  | .ok a => .ret a
  | .error e => .raise e

def resolvePath (path : PosixPath) : FilePy PosixPath :=
  .call (.resolve path) orRaise

def makeDirs (path : PosixPath) : FilePy Unit := .call (.mkdir path) orRaise

def writeText (path : PosixPath) (text : String) : FilePy Unit :=
  .call (.writeText path text) orRaise

/-! ## §2. What is written. -/

/-- A text and the place it goes to, relative to the root. -/
abbrev Write := PosixPath × String

/-- `_relative_from_root`. -/
def relativeFromRoot (rootResolved targetPath : PosixPath) : FilePy PosixPath := do
  let targetResolved ← resolvePath targetPath
  if rootResolved = targetResolved then pure ⟨.relative, []⟩
  else
    match targetResolved.relativeTo? rootResolved with
    | some relative => pure relative
    | none => throw (.value ("target escapes root: " ++ targetPath.text))

/-- `_resolve_target`. -/
def resolveTarget (rootResolved relativeTarget : PosixPath) : FilePy PosixPath := do
  let target ← resolvePath (rootResolved.joinPath relativeTarget)
  if target ≠ rootResolved ∧ ¬ target.Under rootResolved then
    throw (.value ("target escapes root: " ++ target.text))
  else pure target

/-- The writes of `_build_apply_writes` that do not depend on an entry. -/
def fixedWrites (alnum : Char → Bool) (root : PosixPath) (plan : SyncPlan) : List Write := [
  (.ofString "docs/README.md", renderDocsRootReadme root plan),
  (.ofString "docs/index.json", jsonDumps alnum (buildDocsIndexJson root plan)),
  (.ofString "docs/server/README.md", renderServerIndexReadme plan.serverDocs),
  (.ofString "service/README.md", renderServiceIndexReadme plan.serviceDocs),
  (.ofString "service/index.json", jsonDumps alnum (buildServiceIndexJson root plan)),
  (.ofString "service/domain-mapping.json", jsonDumps alnum (.obj plan.domainMapping.entries)),
  (.ofString "service/runbook-mapping.json",
    jsonDumps alnum (.arr (plan.runbookMapping.entries.map RunbookDoc.toJson)))]

/-- The write of one host. -/
def serverWrite (rootResolved : PosixPath) (serviceDocs : List ServiceDoc) (entry : ServerDoc) :
    FilePy Write := do
  let relative ← relativeFromRoot rootResolved (.ofString entry.targetPath)
  let text ← orRaise (renderServerReadme entry serviceDocs)
  pure (relative, text)

/-- The write of one service, whose record is looked up under the redacted
identifier. -/
def serviceWrite (alnum : Char → Bool) (rootResolved : PosixPath) (registry : ServiceRegistry)
    (entry : ServiceDoc) : FilePy Write := do
  let relative ← relativeFromRoot rootResolved (.ofString entry.targetPath)
  match registry.find? entry.serviceId with
  | none => throw (.key entry.serviceId)
  | some service =>
    let text ← orRaise (renderServiceReadme alnum entry service)
    pure (relative, text)

/-- `_build_apply_writes`. -/
def buildApplyWrites (alnum : Char → Bool) (plan : SyncPlan) (registry : ServiceRegistry)
    (root rootResolved : PosixPath) : FilePy (List Write) := do
  let servers ← plan.serverDocs.mapM (serverWrite rootResolved plan.serviceDocs)
  let services ← plan.serviceDocs.mapM (serviceWrite alnum rootResolved registry)
  let writes := fixedWrites alnum root plan ++ servers ++ services
  writes.forM fun write => do
    let _ ← resolveTarget rootResolved write.1
    pure ()
  pure writes

/-! ## §3. Applying a plan. -/

/-- `_audit_event_skeleton`. -/
def auditEventSkeleton (root : PosixPath) (execute : Bool) (plannedWrites written : Nat) : Json :=
  .obj [
    ("event_type", .str "docs_sync"), ("subject_type", .str "docs_center"),
    ("subject_id", .str root.text), ("action", .str "apply"),
    ("outcome", .str (if execute then "success" else "dry_run")),
    ("details", .obj [("execute", .bool execute), ("planned_writes", .int plannedWrites),
      ("written", .int written)])]

/-- `payload`, with the files that were written, if any were to be. -/
def applyPayload (root : PosixPath) (plan : SyncPlan) (services plannedWrites : Nat)
    (written : Option (List PosixPath)) : Json :=
  let paths := written.getD []
  .obj [
    ("mode", .str "docs-sync-apply"), ("root", .str root.text),
    ("dry_run", .bool written.isNone), ("execute", .bool written.isSome),
    ("service_count", .int services), ("server_count", .int plan.serverCount),
    ("changed", .int paths.length), ("written", texts (paths.map PosixPath.text)),
    ("skipped", .int (if written.isSome then 0 else plannedWrites)), ("plan", plan.toJson),
    ("audit", auditEventSkeleton root written.isSome plannedWrites paths.length)]

/-- One turn of the loop that writes. -/
def applyWrite (rootResolved : PosixPath) (write : Write) : FilePy PosixPath := do
  let target ← resolveTarget rootResolved write.1
  makeDirs target.parent
  writeText target write.2
  pure target

/-- `apply_docs_sync_from_registry`. -/
def applyDocsSyncFromRegistry (alnum : Char → Bool) (root : PosixPath) (execute : Bool)
    (renameHosts : RenameHosts) (registry : ServiceRegistry) : FilePy Json := do
  let plan := buildDocsSyncPlanFromRegistry alnum ((root.join "docs").join "server")
    (root.join "service") renameHosts registry
  let rootResolved ← resolvePath root
  let writes ← buildApplyWrites alnum plan registry root rootResolved
  let services := registry.listServices.length
  if !execute then
    pure (sanitizeValue alnum (applyPayload root plan services writes.length none))
  else
    let written ← writes.mapM (applyWrite rootResolved)
    pure (sanitizeValue alnum (applyPayload root plan services writes.length (some written)))

end Hmn.Docs
