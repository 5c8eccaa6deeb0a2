/-
  Hmn.Components.Backup — the archive of a backup and its manifest.

  What is included is walked twice: once for the manifest, which counts and
  digests the files, and once by `tarfile`, which stores them.  A file tree is
  the list of its paths, so that both walks go through it in the order of the
  paths: the names in every directory are sorted.

  Main result: `entryBytes_eq` — what the manifest counts are the files.
-/
import Hmn.Framework.Fallible
import Hmn.Framework.JsonAscii
import Hmn.Framework.PosixPath
import Hmn.Framework.Sha256
import Hmn.Store.Store

namespace Hmn.Backup

open Framework Framework.Sha256

/-! ## §1. Files. -/

/-- What stands at a path, as `lstat` tells it. -/
inductive FileKind where
  /-- A regular file: `(st_ino, st_dev)`, `st_nlink` and the contents. -/
  | file (inode : Nat × Nat) (links : Nat) (data : List Nat)
  | directory
  | symlink
  /-- A FIFO or a device. -/
  | special
  | socket
  deriving DecidableEq

/-- A path below the root of a tree, as the list of its names. -/
abbrev Rel := List String

/-- Everything at and below a path. -/
structure Tree where
  entries : List (Rel × FileKind)
  nodup : (entries.map Prod.fst).Nodup
  root : ∃ kind, ([], kind) ∈ entries
  below : ∀ e ∈ entries, ∀ e' ∈ entries, e.1 <+: e'.1 → e.1 ≠ e'.1 → e.2 = .directory

namespace Tree

/-- The tree in the order of its paths. -/
def sorted (t : Tree) : List (Rel × FileKind) := t.entries.insertionSort (fun a b => a.1 ≤ b.1)

/-- What stands at the path itself. -/
def kind (t : Tree) : FileKind := (t.entries.lookup []).getD .socket

/-- The regular files, in the order of their paths. -/
def files (t : Tree) : List (Rel × List Nat) :=
  t.sorted.filterMap fun e =>
    match e.2 with
    | .file _ _ data => some (e.1, data)
    | _ => none

end Tree

/-- A path that exists: whether it is a symbolic link itself, and what it
leads to. -/
structure Found where
  isLink : Bool
  tree : Tree

/-- The host. -/
structure Host where
  /-- The working directory. -/
  cwd : List String
  /-- `os.path.expanduser("~user")`, where it finds the directory. -/
  homeOf : String → Option String
  /-- What stands at a path, if anything does. -/
  lookup : PosixPath → Option Found

/-- `Path(raw).expanduser()`. -/
def expanduser (host : Host) (raw : String) : Except PyError PosixPath :=
  let path := PosixPath.ofString raw
  match path.anchor, path.names with
  | .relative, first :: rest =>
    if Text.startsWith first "~" then
      match host.homeOf first with
      | some home => .ok { PosixPath.ofString home with names := (PosixPath.ofString home).names ++ rest }
      | none => .error (.runtime "Could not determine home directory.")
    else .ok path
  | _, _ => .ok path

/-- `os.path.abspath(path)`. -/
def abspath (host : Host) (path : PosixPath) : PosixPath :=
  ⟨if path.anchor = .relative then .slash else path.anchor, (path.resolve host.cwd).names⟩

/-! ## §2. The manifest. -/

/-- `child.relative_to(path).as_posix()`. -/
def relText (rel : Rel) : String := Text.join "/" rel

/-- What `tree_sha256` digests. -/
def treeBytes (files : List (Rel × List Nat)) : List Nat :=
  files.flatMap fun f => encode (relText f.1) ++ 0 :: (encode (hexdigest f.2) ++ [0])

def sizeOf (files : List (Rel × List Nat)) : Nat := (files.map fun f => f.2.length).sum

/-- The entry of a path that is no file and no directory. -/
def missingEntry (path : PosixPath) : Dict :=
  [("path", .str path.text), ("type", .str "missing"), ("size_bytes", .int 0), ("sha256", .str "")]

/-- The entry of a path. -/
def manifestEntry (host : Host) (path : PosixPath) : Dict :=
  match host.lookup path with
  | none => missingEntry path
  | some found =>
    match found.tree.kind with
    | .file _ _ data =>
      [("path", .str path.text), ("type", .str "file"), ("size_bytes", .int data.length),
        ("sha256", .str (hexdigest data))]
    | .directory =>
      let files := found.tree.files
      [("path", .str path.text), ("type", .str "directory"), ("file_count", .int files.length),
        ("size_bytes", .int (sizeOf files)), ("tree_sha256", .str (hexdigest (treeBytes files)))]
    | _ => missingEntry path

/-- What the entry of a path adds to `total_bytes`. -/
def entryBytes (host : Host) (path : PosixPath) : Nat :=
  match host.lookup path with
  | none => 0
  | some found =>
    match found.tree.kind with
    | .file _ _ data => data.length
    | .directory => sizeOf found.tree.files
    | _ => 0

/-- `hashlib.sha256(json.dumps(manifest, sort_keys=True).encode("utf-8")).hexdigest()`. -/
def manifestDigest (manifest : Dict) : String :=
  hexdigest (encode (Json.dumpsSorted (.obj manifest)))

/-- `_backup_manifest_for_paths`, before its digest. -/
def manifestBody (host : Host) (createdAt : String) (dryRun : Bool) (paths : List PosixPath) :
    Dict :=
  [("schema", .str "hmn.backup.manifest.v1"), ("dry_run", .bool dryRun),
    ("created_at", .str createdAt),
    ("entries", .arr (paths.map fun path => .obj (manifestEntry host path))),
    ("total_bytes", .int (paths.map (entryBytes host)).sum), ("restore_enabled", .bool false)]

/-- `_backup_manifest_for_paths`. -/
def backupManifestForPaths (host : Host) (createdAt : String) (dryRun : Bool)
    (include_ : List String) : Except PyError Dict := do
  let paths ← include_.mapM (expanduser host)
  let manifest := manifestBody host createdAt dryRun paths
  .ok (Dict.set manifest "manifest_sha256" (.str (manifestDigest manifest)))

/-! ## §3. The archive. -/

inductive MemberKind where
  | file (data : List Nat)
  | directory
  | special
  deriving DecidableEq

/-- A member of an archive; its name as the list of the names between the
slashes. -/
structure Member where
  name : List String
  kind : MemberKind
  deriving DecidableEq

/-- A tar file that is being written: its members, and under which name every
file was stored. -/
structure Tar where
  members : List Member
  inodes : List ((Nat × Nat) × List String)

/-- One path that `tar.add` comes to. -/
structure Visit where
  /-- `os.path.abspath(name)`. -/
  absolute : PosixPath
  /-- The name of the member. -/
  name : List String
  kind : FileKind
  deriving DecidableEq

/-- `tar.add(name, arcname, filter=...)` for one path: the archive itself is
skipped, and so are sockets; the filter takes out links, and another link to a
file that was stored is one. -/
def addVisit (archive : PosixPath) (tar : Tar) (visit : Visit) : Tar :=
  if visit.absolute = archive then tar
  else
    match visit.kind with
    | .file inode links data =>
      let known := tar.inodes.lookup inode
      if 1 < links ∧ known ≠ none ∧ known ≠ some visit.name then tar
      else
        ⟨tar.members ++ [⟨visit.name, .file data⟩],
          if inode.1 ≠ 0 then (inode, visit.name) :: tar.inodes else tar.inodes⟩
    | .directory => { tar with members := tar.members ++ [⟨visit.name, .directory⟩] }
    | .special => { tar with members := tar.members ++ [⟨visit.name, .special⟩] }
    | .symlink => tar
    | .socket => tar

/-- `path.name or "backup-item"`. -/
def arcname (path : PosixPath) : String :=
  let name := path.names.getLast?.getD ""
  if name = "" then "backup-item" else name

/-- The path of an entry of a tree. -/
def entryPath (host : Host) (path : PosixPath) (rel : Rel) : PosixPath :=
  let root := abspath host path
  { root with names := root.names ++ rel }

/-- What `tar.add(path, arcname)` comes to: the link, where the path is one. -/
def visits (host : Host) (path : PosixPath) (found : Found) : List Visit :=
  if found.isLink then [⟨entryPath host path [], [arcname path], .symlink⟩]
  else found.tree.sorted.map fun e => ⟨entryPath host path e.1, arcname path :: e.1, e.2⟩

/-- `_archive_backup_paths`. -/
def archiveBackupPaths (host : Host) (archivePath : PosixPath) (include_ : List String) :
    Except PyError (List Member) := do
  let paths ← include_.mapM (expanduser host)
  let all := paths.flatMap fun path =>
    match host.lookup path with
    | none => []
    | some found => visits host path found
  .ok (all.foldl (addVisit (abspath host archivePath)) ⟨[], []⟩).members

/-! ## §4. `hmn backup run`. -/

/-- What a run is given besides the paths. -/
structure RunArgs where
  nodeId : String
  include_ : List String
  outputDir : PosixPath
  /-- `datetime.now(timezone.utc).isoformat()`. -/
  createdAt : String
  /-- `int(time.time())`. -/
  stamp : Nat

/-- `_backup_archive_paths`. -/
def backupArchivePaths (args : RunArgs) : PosixPath × PosixPath :=
  (args.outputDir.join s!"hmn-backup-{args.nodeId}-{args.stamp}.tar.gz",
    args.outputDir.join s!"hmn-backup-{args.nodeId}-{args.stamp}.manifest.json")

/-- What a run leaves: the archive, the manifest and the record of the run. -/
structure Written where
  members : List Member
  manifest : Dict
  /-- The text of the manifest file. -/
  text : String
  result : Dict

/-- `hmn backup run` up to the second digest: the archive and the manifest
with what is known of it; `pack` gives the bytes of the archive. -/
def archivedManifest (host : Host) (pack : List Member → List Nat) (args : RunArgs) :
    Except PyError (List Member × Dict) := do
  let manifest ← backupManifestForPaths host args.createdAt false args.include_
  let archivePath := (backupArchivePaths args).1
  let members ← archiveBackupPaths host archivePath args.include_
  .ok (members, Dict.merge manifest [("node_id", .str args.nodeId),
    ("archive_path", .str archivePath.text), ("archive_sha256", .str (hexdigest (pack members))),
    ("archive_size_bytes", .int (pack members).length)])

/-- `hmn backup run`, from the node on. -/
def backupRun (host : Host) (pack : List Member → List Nat) (args : RunArgs) :
    Except PyError Written := do
  let (members, manifest) ← archivedManifest host pack args
  let (archivePath, manifestPath) := backupArchivePaths args
  let digest := manifestDigest manifest
  let manifest := Dict.set manifest "manifest_sha256" (.str digest)
  let result : Dict := [("dry_run", .bool false), ("archive_path", .str archivePath.text),
    ("archive_sha256", .str (hexdigest (pack members))),
    ("archive_size_bytes", .int (pack members).length),
    ("manifest_path", .str manifestPath.text), ("manifest_sha256", .str digest),
    ("entries", .int args.include_.length),
    ("total_bytes", (manifest.get? "total_bytes").getD .null), ("restore_enabled", .bool false),
    ("machine_changed", .bool true)]
  .ok ⟨members, manifest, Json.dumpsIndentedAscii (.obj manifest) ++ "\n", result⟩

/-! ## §5. What the manifest counts. -/

namespace Tree

theorem sorted_perm (t : Tree) : t.sorted.Perm t.entries := List.perm_insertionSort _ _

theorem unique (t : Tree) {e e' : Rel × FileKind} (he : e ∈ t.entries) (he' : e' ∈ t.entries)
    (h : e.1 = e'.1) : e = e' := List.inj_on_of_nodup_map t.nodup he he' h

theorem kind_mem (t : Tree) : ([], t.kind) ∈ t.entries := by
  obtain ⟨root, hmem⟩ := t.root
  obtain ⟨found, hfound⟩ := Option.isSome_iff_exists.mp
    (List.lookup_isSome_iff.mpr ⟨_, hmem, beq_self_eq_true ([] : Rel)⟩)
  obtain ⟨l₁, l₂, heq, -⟩ := List.lookup_eq_some_iff.mp hfound
  rw [kind, hfound, heq]
  simp

/-- Nothing is below what is no directory. -/
theorem rel_of_not_directory (t : Tree) (h : t.kind ≠ .directory) {e : Rel × FileKind}
    (he : e ∈ t.entries) : e = ([], t.kind) := by
  refine t.unique he t.kind_mem ?_
  by_contra hne
  exact h (t.below _ t.kind_mem _ he List.nil_prefix (Ne.symm hne))

theorem sorted_of_not_directory (t : Tree) (h : t.kind ≠ .directory) :
    t.sorted = [([], t.kind)] := by
  have hentries : ∀ e ∈ t.sorted, e = ([], t.kind) :=
    fun e he => t.rel_of_not_directory h (t.sorted_perm.mem_iff.mp he)
  have hmem := t.sorted_perm.mem_iff.mpr t.kind_mem
  have hnodup : t.sorted.Nodup := t.sorted_perm.nodup_iff.mpr (List.Nodup.of_map _ t.nodup)
  rw [List.eq_replicate_of_mem hentries] at hnodup ⊢
  have hlen := List.nodup_replicate.mp hnodup
  have hpos := List.length_pos_of_mem hmem
  rw [show t.sorted.length = 1 by omega]
  rfl

theorem files_of_not_directory (t : Tree) (h : t.kind ≠ .directory) :
    t.files = match t.kind with
      | .file _ _ data => [([], data)]
      | _ => [] := by
  rw [files, t.sorted_of_not_directory h]
  cases t.kind <;> rfl

end Tree

/-- **What the manifest counts** of a path is its files. -/
theorem entryBytes_eq (host : Host) (path : PosixPath) : entryBytes host path =
    ((host.lookup path).map fun found => sizeOf found.tree.files).getD 0 := by
  unfold entryBytes
  cases host.lookup path with
  | none => rfl
  | some found =>
    by_cases hdir : found.tree.kind = .directory
    · simp [hdir]
    · have hfiles := found.tree.files_of_not_directory hdir
      rw [Option.map_some, Option.getD_some, hfiles]
      cases hkind : found.tree.kind <;> simp_all [sizeOf]

/-- The size of an entry is what it adds to the total. -/
theorem manifestEntry_size (host : Host) (path : PosixPath) :
    (manifestEntry host path).get? "size_bytes" = some (.int (entryBytes host path)) := by
  unfold manifestEntry entryBytes
  cases host.lookup path with
  | none => rfl
  | some found =>
    dsimp only
    cases found.tree.kind <;> rfl

end Hmn.Backup
