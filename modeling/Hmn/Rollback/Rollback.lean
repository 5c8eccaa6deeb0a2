/-
  Hmn.Rollback.Rollback — putting back the files from before an upgrade.

  Where the four files come from and go to is put together from the manifest
  of the upgrade, the options and the two environment files; every path is
  resolved and looked at before the first file is copied.  The model is
  `cli.rollback` with `_rollback_plan_from_manifest`,
  `_validate_rollback_plan` and `_copy_file_atomically`, as a program whose
  calls act on a tree of files.
-/
import Hmn.Framework.Codec
import Hmn.Framework.FileTree
import Hmn.Framework.Lines
import Hmn.Store.Calls

namespace Hmn.Rollback

open Framework

/-! ## §1. Paths. -/

/-- What the process knows of its surroundings. -/
structure Host where
  cwd : Place
  /-- `os.path.expanduser` of `~` or `~user`, where it is known. -/
  home : String → Option String
  /-- The owner of the files that are created. -/
  owner : Nat × Nat
  /-- `os.fchown` is permitted. -/
  mayChown : Bool
  /-- `secrets.token_hex(8)`, for each copy. -/
  token : Nat → String
  systemctl : List String → Except PyError Int

/-- `path.expanduser()`. -/
def expandUser (host : Host) (path : PosixPath) : Except PyError PosixPath :=
  match path.anchor, path.names with
  | .relative, name :: rest =>
    if Text.startsWith name "~" then
      match host.home name with
      | some dir =>
        let p := PosixPath.ofString dir
        .ok { p with names := p.names ++ rest }
      | none => .error (.runtime "Could not determine home directory.")
    else .ok path
  | _, _ => .ok path

/-- `path.resolve(strict=False)`. -/
def resolve (t : FileTree) (host : Host) (path : PosixPath) : Except PyError PosixPath :=
  if path.names.any (fun name => name.toList.contains '\x00') then
    .error (.value "embedded null byte")
  else
    match t.resolve? host.cwd path with
    | some resolved => .ok resolved
    | none => .error (.runtime "Symlink loop")

/-- `_safe_resolve`. -/
def safeResolve (t : FileTree) (host : Host) (path : PosixPath) : Except PyError PosixPath := do
  let expanded ← expandUser host path
  resolve t host expanded

/-- `path.exists()`. -/
def pathExists (t : FileTree) (host : Host) (path : PosixPath) : Bool :=
  match t.stat (FileTree.start host.cwd path) path.names with
  | .ok _ => true
  | .error _ => false

/-- `path.is_symlink()`. -/
def isSymlink (t : FileTree) (host : Host) (path : PosixPath) : Bool :=
  match t.lstat (FileTree.start host.cwd path) path.names with
  | .ok (.link _) => true
  | _ => false

/-- `path.is_file()`. -/
def isFile (t : FileTree) (host : Host) (path : PosixPath) : Bool :=
  match t.stat (FileTree.start host.cwd path) path.names with
  | .ok (.file ..) => true
  | _ => false

/-- `_path_is_relative_to`. -/
def pathIsRelativeTo (path root : PosixPath) : Bool := (path.relativeTo? root).isSome

/-! ## §2. The plan. -/

/-- Keys and values, the last one for a key first. -/
abbrev EnvValues := List (String × String)

/-- `values.get(key) or …`: the text under a key, unless it is empty. -/
def EnvValues.text? (values : EnvValues) (key : String) : Option String :=
  (values.lookup key).filter (· ≠ "")

/-- One line of `_read_master_env`. -/
def readEnvLine (values : EnvValues) (line : String) : EnvValues :=
  let line := Text.strip line
  if line = "" ∨ Text.startsWith line "#" ∨ ¬ '=' ∈ line.toList then values
  else
    let value := Text.strip (Text.after line '=')
    (Text.strip (Text.before line '='), Text.stripChar (Text.stripChar value '"') '\'') :: values

/-- `path.read_text()`. -/
def readText (t : FileTree) (host : Host) (path : PosixPath) : Except PyError String :=
  match t.stat (FileTree.start host.cwd path) path.names with
  | .ok (.file content _ _) =>
    match Codec.decode content with
    | some text => .ok (String.ofList (universalNewlines text.toList))
    | none => .error (.unreadable path.text)
  | _ => .error (.unreadable path.text)

/-- `_read_master_env`. -/
def readMasterEnv (t : FileTree) (host : Host) (path : PosixPath) : Except PyError EnvValues :=
  if !pathExists t host path then .ok []
  else do
    let text ← readText t host path
    return (Text.splitLines text).foldl readEnvLine []

/-- A file that is put back. -/
structure Step where
  label : String
  source : PosixPath
  target : PosixPath
  deriving DecidableEq

structure Options where
  stamp : Option String := none
  etcDir : PosixPath := .ofString "/etc/hermes-managed-network"
  backupDir : PosixPath := .ofString "/var/backups/hermes-managed-network"
  yes : Bool := false
  skipSystemd : Bool := false

/-- `Path(values.get(key) or default)`. -/
def pathOr (values : EnvValues) (key : String) (default : PosixPath) : PosixPath :=
  match values.text? key with
  | some text => .ofString text
  | none => default

/-- `_rollback_plan_from_manifest`. -/
def rollbackPlanFromManifest (t : FileTree) (host : Host) (manifestValues : EnvValues)
    (etcDir backupDir : PosixPath) (stamp : Option String) : Except PyError (List Step) := do
  let stamp := stamp.filter (· ≠ "")
  let selectedStamp := stamp.getD ((manifestValues.lookup "HMN_LAST_BACKUP_STAMP").getD "")
  let manifestDir ← expandUser host (pathOr manifestValues "HMN_BACKUP_DIR" backupDir)
  let sourceBackupDir ← if stamp.isSome then expandUser host backupDir else .ok manifestDir
  if selectedStamp = "" then
    throw (.value "缺少备份 stamp；请传 --stamp 或检查 upgrade-manifest.env")
  else
    let currentEnv ← readMasterEnv t host (etcDir.join "master.env")
    let source (key name : String) : PosixPath :=
      if stamp.isSome then sourceBackupDir.join name
      else pathOr manifestValues key (sourceBackupDir.join name)
    let backupEnvPath := source "BACKUP_ENV" ("master." ++ selectedStamp ++ ".env")
    let backupDbPath := source "BACKUP_DB" ("control-plane." ++ selectedStamp ++ ".db")
    let backupConfigPath := source "BACKUP_CONFIG" ("config." ++ selectedStamp ++ ".yaml")
    let backupMetadataPath := source "BACKUP_METADATA" ("metadata." ++ selectedStamp ++ ".env")
    let backupEnv ← if pathExists t host backupEnvPath then readMasterEnv t host backupEnvPath
      else .ok []
    let dbTarget := pathOr currentEnv "HMN_DB" (pathOr backupEnv "HMN_DB"
      (.ofString "/var/lib/hermes-managed-network/control-plane.db"))
    return [
      ⟨"database", backupDbPath, dbTarget⟩,
      ⟨"master.env", backupEnvPath, etcDir.join "master.env"⟩,
      ⟨"config.yaml", backupConfigPath, etcDir.join "config.yaml"⟩,
      ⟨"metadata", backupMetadataPath, etcDir.join ("metadata." ++ selectedStamp ++ ".env")⟩]

/-! ## §3. The checks. -/

/-- Where the files have to come from and to go to. -/
structure Roots where
  etc : PosixPath
  backup : PosixPath
  db : List PosixPath
  deriving DecidableEq

/-- `safe_etc`, `safe_backup` and `db_roots`. -/
def rootsOf (t : FileTree) (host : Host) (etcDir backupDir : PosixPath) :
    Except PyError Roots := do
  let safeEtc ← safeResolve t host etcDir
  let safeBackup ← safeResolve t host backupDir
  let varLib ← safeResolve t host (.ofString "/var/lib/hermes-managed-network")
  let defaultEtc ← safeResolve t host (.ofString "/etc/hermes-managed-network")
  return ⟨safeEtc, safeBackup,
    if safeEtc ≠ defaultEtc then [varLib, safeEtc.parent.parent] else [varLib]⟩

def Step.expand (host : Host) (step : Step) : Except PyError Step := do
  let source ← expandUser host step.source
  let target ← expandUser host step.target
  return ⟨step.label, source, target⟩

def Step.resolve (t : FileTree) (host : Host) (step : Step) : Except PyError Step := do
  let source ← safeResolve t host step.source
  let target ← safeResolve t host step.target
  return ⟨step.label, source, target⟩

/-- The target is where it has to be. -/
def Roots.admits (roots : Roots) (label : String) (target : PosixPath) : Bool :=
  if label = "database" then roots.db.any (pathIsRelativeTo target)
  else pathIsRelativeTo target roots.etc

/-- The errors of one turn of the loop. -/
def stepErrors (t : FileTree) (host : Host) (roots : Roots) (raw safe : Step) : List String :=
  if !pathExists t host raw.source then [raw.label ++ ": source missing: " ++ raw.source.text]
  else
    (if isSymlink t host raw.source then [raw.label ++ ": source is symlink: " ++ raw.source.text]
      else [])
    ++ (if !isFile t host safe.source then
        [raw.label ++ ": source is not a regular file: " ++ safe.source.text] else [])
    ++ (if !pathIsRelativeTo safe.source roots.backup then
        [raw.label ++ ": source outside backup dir: " ++ safe.source.text] else [])
    ++ (if pathExists t host raw.target && isSymlink t host raw.target then
        [raw.label ++ ": target is symlink: " ++ raw.target.text] else [])
    ++ (if pathExists t host raw.target.parent && isSymlink t host raw.target.parent then
        [raw.label ++ ": target parent is symlink: " ++ raw.target.parent.text] else [])
    ++ (if !roots.admits raw.label safe.target then
        [if raw.label = "database" then
            raw.label ++ ": target outside allowed data dirs ("
              ++ Text.join ", " (roots.db.map PosixPath.text) ++ "): " ++ safe.target.text
          else raw.label ++ ": target outside etc dir: " ++ safe.target.text] else [])

/-- What `_validate_rollback_plan` comes to before it reports: the resolved
plan and the errors. -/
def checkRollbackPlan (t : FileTree) (host : Host) (plan : List Step)
    (etcDir backupDir : PosixPath) : Except PyError (List Step × List String) := do
  let rawPlan ← plan.mapM (Step.expand host)
  let safePlan ← plan.mapM (Step.resolve t host)
  let roots ← rootsOf t host etcDir backupDir
  return (safePlan,
    (rawPlan.zip safePlan).flatMap fun steps => stepErrors t host roots steps.1 steps.2)

/-! ## §4. Calls. -/

/-- `_copy_file_atomically`, on a tree. -/
def copyFile (host : Host) (token : String) (source target : PosixPath) (t : FileTree) :
    Except Errno Unit × FileTree :=
  match t.makeDirs target.parent.names.reverse with
  | (.error e, t) => (.error e, t)
  | (.ok _, t) =>
    match t.openFile source.names, t.openDirectory target.parent.names, target.names.getLast? with
    | .error e, _, _ => (.error e, t)
    | _, .error e, _ => (.error e, t)
    | .ok (content, mode, owner), .ok dir, some name =>
      let temp := dir ++ ["." ++ name ++ ".hmn-rollback." ++ token ++ ".tmp"]
      let entry : Entry := .file content (mode % 512) (if host.mayChown then owner else host.owner)
      if (t.lookup temp).isSome then (.error .exists, t.unlink temp)
      else
        match (t.put temp entry).rename temp (dir ++ [name]) entry with
        | .ok t => (.ok (), t)
        | .error e => (.error e, (t.put temp entry).unlink temp)
    | .ok _, .ok _, none => (.error .isDirectory, t)

inductive Call where
  /-- The files as they are. -/
  | look
  | echo (line : String)
  | systemctl (args : List String)
  | copyFileAtomically (source target : PosixPath)

@[reducible] def Call.Res : Call → Type
  | .look => FileTree
  | .echo _ => Unit
  | .systemctl _ => Except PyError Int
  | .copyFileAtomically .. => Except PyError Unit

abbrev shellSig : Sig := ⟨Call, Call.Res⟩

abbrev Shell (α : Type) := Prog shellSig PyError α

def orRaise {α : Type} : Except PyError α → Shell α
  | .ok a => .ret a
  | .error e => .raise e

def look : Shell FileTree := .call .look .ret

def echo (line : String) : Shell Unit := .call (.echo line) .ret

def systemctl (args : List String) : Shell Int := .call (.systemctl args) orRaise

def copyFileAtomically (step : Step) : Shell Unit :=
  .call (.copyFileAtomically step.source step.target) orRaise

/-- The files, the lines that were printed and the copies that were begun. -/
structure Session where
  tree : FileTree
  output : List String := []
  copies : Nat := 0

def exec (host : Host) : Prog.Exec shellSig Session
  | .look, s => (s.tree, s)
  | .echo line, s => ((), { s with output := s.output ++ [line] })
  | .systemctl args, s => (host.systemctl args, s)
  | .copyFileAtomically source target, s =>
    let result := copyFile host (host.token s.copies) source target s.tree
    (match result.1 with
      | .ok _ => .ok ()
      | .error _ => .error (.os ("rollback of " ++ target.text)),
      { s with tree := result.2, copies := s.copies + 1 })

/-! ## §5. The command. -/

/-- A character that is not quoted in a shell. -/
def isShellSafe (c : Char) : Bool :=
  c.isAlphanum || c ∈ ['_', '@', '%', '+', '=', ':', ',', '.', '/', '-']

/-- `shlex.quote`. -/
def shellQuote (s : String) : String :=
  if s = "" then "''"
  else if s.toList.all isShellSafe then s
  else String.ofList ('\'' :: s.toList.flatMap
    (fun c => if c = '\'' then ['\'', '"', '\'', '"', '\''] else [c]) ++ ['\''])

/-- `_render_rollback_confirm_command`. -/
def renderRollbackConfirmCommand (options : Options) : String :=
  let stamp := (options.stamp.filter (· ≠ "")).map fun stamp => ["--stamp", stamp]
  let parts := ["hmn", "rollback"] ++ stamp.getD []
    ++ ["--etc-dir", options.etcDir.text, "--backup-dir", options.backupDir.text]
    ++ (if options.skipSystemd then ["--skip-systemd"] else []) ++ ["--yes"]
  Text.join " " (parts.map shellQuote)

def serviceName : String := "hermes-managed-network.service"

/-- The report of `_validate_rollback_plan`. -/
def reportErrors (errors : List String) : Shell Unit := do
  echo "回滚安全校验失败："
  errors.forM fun error => echo ("- " ++ error)

/-- `_validate_rollback_plan`. -/
def validateRollbackPlan (t : FileTree) (host : Host) (plan : List Step)
    (etcDir backupDir : PosixPath) : Shell (List Step) := do
  let checked ← orRaise (checkRollbackPlan t host plan etcDir backupDir)
  if checked.2 ≠ [] then
    reportErrors checked.2
    throw (.typerExit 1)
  else return checked.1

/-- Stopping the service before the copies. -/
def stopService : Shell Unit := do
  let code ← systemctl ["stop", serviceName]
  if code ≠ 0 then
    echo ("停止服务失败，已中止回滚：systemctl stop " ++ serviceName)
    throw (.typerExit code.toNat)
  else return ()

/-- Starting it after them. -/
def startService : Shell Unit := do
  let _ ← systemctl ["daemon-reload"]
  let code ← systemctl ["start", serviceName]
  if code ≠ 0 then
    echo ("启动服务失败，请手动排查：systemctl start " ++ serviceName)
    throw (.typerExit code.toNat)
  else return ()

/-- What follows once a plan was accepted. -/
def carryOut (options : Options) (safePlan : List Step) : Shell Unit := do
  echo "回滚计划"
  safePlan.forM fun step =>
    echo ("- " ++ step.label ++ ": " ++ step.source.text ++ " -> " ++ step.target.text)
  if !options.yes then
    echo "DRY RUN：未修改任何文件。"
    echo ("确认执行：" ++ renderRollbackConfirmCommand options)
  else
    Prog.when (!options.skipSystemd) stopService
    safePlan.forM copyFileAtomically
    Prog.when (!options.skipSystemd) startService
    echo "已恢复备份"
    echo "建议执行：hmn doctor"

/-- The plan of a run. -/
def planOf (t : FileTree) (host : Host) (options : Options) : Except PyError (List Step) := do
  let manifestValues ← readMasterEnv t host (options.etcDir.join "upgrade-manifest.env")
  rollbackPlanFromManifest t host manifestValues options.etcDir options.backupDir options.stamp

/-- `rollback`. -/
def rollback (host : Host) (options : Options) : Shell Unit := do
  let t ← look
  let plan ← orRaise (planOf t host options)
  let safePlan ← validateRollbackPlan t host plan options.etcDir options.backupDir
  carryOut options safePlan

end Hmn.Rollback
