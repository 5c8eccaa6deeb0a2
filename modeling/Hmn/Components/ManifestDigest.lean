/-
  Hmn.Components.ManifestDigest — can the digest of a manifest be computed
  again?

  A run digests the manifest twice.  The second time the manifest has the
  first digest in it, under the name that the second one is stored under.

  Main results: `digest_not_recomputed` — no digest of a run can be computed
  again from the manifest without it; `stale_digest_covered` — a run.
-/
import Hmn.Components.Backup

namespace Hmn.Backup

open Framework Framework.Sha256

/-! ## §1. The digest. -/

/-- The manifest without its digest. -/
def bare (manifest : Dict) : Dict := manifest.filter (fun kv => kv.1 ≠ "manifest_sha256")

/-- The digest is the one of the manifest without it. -/
def Recomputes (manifest : Dict) : Prop :=
  manifest.get? "manifest_sha256" = some (.str (manifestDigest (bare manifest)))

/-- SHA-256 tells the texts of two manifests apart. -/
def CollisionFree (a b : Dict) : Prop :=
  manifestDigest a = manifestDigest b → Json.dumpsSorted (.obj a) = Json.dumpsSorted (.obj b)

/-! ## §2. Dictionaries. -/

theorem bare_replace (d : Dict) (v : Json) :
    bare (d.map fun kv => if kv.1 = "manifest_sha256" then ("manifest_sha256", v) else kv)
      = bare d := by
  unfold bare
  induction d with
  | nil => rfl
  | cons kv d ih =>
    rw [List.map_cons]
    by_cases h : kv.1 = "manifest_sha256"
    · rw [if_pos h, List.filter_cons_of_neg (by simp), List.filter_cons_of_neg (by simp [h]), ih]
    · rw [if_neg h, List.filter_cons_of_pos (by simp [h]), List.filter_cons_of_pos (by simp [h]),
        ih]

theorem bare_set (d : Dict) (v : Json) : bare (d.set "manifest_sha256" v) = bare d := by
  unfold Dict.set
  split
  · exact bare_replace d v
  · simp [bare]

theorem isSome_set {d : Dict} {k : String} (h : (d.get? k).isSome) (l : String) (v : Json) :
    ((d.set l v).get? k).isSome := by
  rw [Dict.get?_set]
  split
  · rfl
  · exact h

theorem isSome_merge {d : Dict} {k : String} (h : (d.get? k).isSome) (e : Dict) :
    ((d.merge e).get? k).isSome := by
  induction e generalizing d with
  | nil => exact h
  | cons kv e ih => exact ih (isSome_set h kv.1 kv.2)

theorem exists_mem_of_isSome {d : Dict} {k : String} (h : (d.get? k).isSome) :
    ∃ kv ∈ d, kv.1 = k := by
  obtain ⟨kv, hmem, hk⟩ := List.lookup_isSome_iff.mp h
  exact ⟨kv, hmem, (beq_iff_eq.mp hk).symm⟩

/-! ## §3. The run. -/

section

variable {host : Host} {pack : List Member → List Nat} {args : RunArgs} {members : List Member}
  {covered : Dict} {written : Written}

/-- The manifest that the second digest covers has the first one in it. -/
theorem archivedManifest_keys (h : archivedManifest host pack args = .ok (members, covered)) :
    (covered.get? "manifest_sha256").isSome ∧ (covered.get? "schema").isSome := by
  obtain ⟨manifest, hmanifest, h⟩ := Fallible.bind_eq_ok.mp h
  obtain ⟨stored, -, h⟩ := Fallible.bind_eq_ok.mp h
  obtain ⟨paths, -, hmanifest⟩ := Fallible.bind_eq_ok.mp hmanifest
  cases h
  cases hmanifest
  refine ⟨isSome_merge ?_ _, isSome_merge (isSome_set ?_ _ _) _⟩
  · rw [Dict.get?_set_self]
    rfl
  · rfl

theorem backupRun_manifest (hcovered : archivedManifest host pack args = .ok (members, covered))
    (hrun : backupRun host pack args = .ok written) :
    written.manifest = covered.set "manifest_sha256" (.str (manifestDigest covered)) := by
  rw [backupRun, hcovered] at hrun
  cases hrun
  rfl

/-- A manifest with a digest in it has a longer text than without. -/
theorem dumpsSorted_bare_lt (hdigest : (covered.get? "manifest_sha256").isSome)
    (hschema : (covered.get? "schema").isSome) :
    (Json.dumpsSorted (.obj (bare covered))).length < (Json.dumpsSorted (.obj covered)).length := by
  refine Json.length_dumpsSorted_lt ?_ ?_
  · obtain ⟨kv, hmem, hk⟩ := exists_mem_of_isSome hschema
    exact List.ne_nil_of_mem (List.mem_filter.mpr ⟨hmem, by simp [hk]⟩)
  · obtain ⟨kv, hmem, hk⟩ := exists_mem_of_isSome hdigest
    exact ⟨kv, hmem, by simp [hk]⟩

/-- **The digest of a manifest cannot be computed again.** -/
theorem digest_not_recomputed
    (hcovered : archivedManifest host pack args = .ok (members, covered))
    (hrun : backupRun host pack args = .ok written)
    (hfree : CollisionFree covered (bare written.manifest)) : ¬ Recomputes written.manifest := by
  obtain ⟨hdigest, hschema⟩ := archivedManifest_keys hcovered
  rw [Recomputes, backupRun_manifest hcovered hrun, Dict.get?_set_self, bare_set]
  rw [backupRun_manifest hcovered hrun, bare_set] at hfree
  intro h
  have htexts := hfree (Json.str.inj (Option.some.inj h))
  have hlt := dumpsSorted_bare_lt hdigest hschema
  rw [htexts] at hlt
  exact absurd hlt (Nat.lt_irrefl _)

end

/-! ## §4. A run. -/

/-- The bytes that a digest of a manifest covers. -/
def manifestBytes (manifest : Dict) : List Nat :=
  (Json.ascii (Json.line (Json.obj manifest).sortKeys)).flatMap utf8Bytes

theorem manifestDigest_eq (manifest : Dict) :
    manifestDigest manifest = hexdigest (manifestBytes manifest) := by
  rw [manifestDigest, Json.dumpsSorted, encode, String.toList_ofList, manifestBytes]

/-- A host with one file. -/
def oneFile : Host where
  cwd := ["root"]
  homeOf _ := none
  lookup path :=
    if path = PosixPath.ofString "/srv/a" then
      some ⟨false, [([], .file (7, 1) 1 [104, 105])], by decide, ⟨_, List.mem_singleton.mpr rfl⟩,
        by decide⟩
    else none

def oneFileArgs : RunArgs :=
  ⟨"node1", ["/srv/a"], PosixPath.ofString "hmn-backups", "2024-01-01T00:00:00+00:00", 1704067200⟩

/-- Its manifest before any digest. -/
def oneFileBody : Dict :=
  [("schema", .str "hmn.backup.manifest.v1"), ("dry_run", .bool false),
    ("created_at", .str "2024-01-01T00:00:00+00:00"),
    ("entries", .arr [.obj [("path", .str "/srv/a"), ("type", .str "file"), ("size_bytes", .int 2),
      ("sha256", .str "8f434346648f6b96df89dda901c5176b10a6d83961dd3c1ac88b59b2dc327aa4")]]),
    ("total_bytes", .int 2), ("restore_enabled", .bool false)]

/-- What is known of the archive. -/
def oneFileArchive : Dict :=
  [("node_id", .str "node1"), ("archive_path", .str "hmn-backups/hmn-backup-node1-1704067200.tar.gz"),
    ("archive_sha256", .str "ee98dc6af27a9f1c8cc4aaa2fd05b5f6e7c98f51390253a5263b0d096c3510fe"),
    ("archive_size_bytes", .int 2)]

def oneFileFirstDigest : String :=
  "ca17d62b20a0fbf8c806f83b4aa157e61eab6eb7b9cbb4fdc657568486b40966"

/-- The manifest that the digest of the run covers. -/
def oneFileCovered : Dict :=
  oneFileBody ++ ("manifest_sha256", .str oneFileFirstDigest) :: oneFileArchive

theorem oneFile_body :
    manifestBody oneFile oneFileArgs.createdAt false [PosixPath.ofString "/srv/a"] = oneFileBody := by
  decide +kernel

theorem oneFile_firstDigest : manifestDigest oneFileBody = oneFileFirstDigest := by
  rw [manifestDigest_eq]
  decide +kernel

theorem oneFile_digests : manifestDigest oneFileCovered
    ≠ manifestDigest (oneFileBody ++ oneFileArchive) := by
  rw [manifestDigest_eq, manifestDigest_eq]
  decide +kernel

theorem oneFile_archived : ∃ members,
    archivedManifest oneFile (fun _ => [31, 139]) oneFileArgs = .ok (members, oneFileCovered) := by
  have hpaths : oneFileArgs.include_.mapM (expanduser oneFile)
      = .ok [PosixPath.ofString "/srv/a"] := by decide +kernel
  have hmanifest : backupManifestForPaths oneFile oneFileArgs.createdAt false oneFileArgs.include_
      = .ok (Dict.set oneFileBody "manifest_sha256" (.str oneFileFirstDigest)) := by
    rw [backupManifestForPaths, hpaths, Fallible.bind_ok, oneFile_body]
    dsimp only
    rw [oneFile_firstDigest]
  have hpack : hexdigest [31, 139]
      = "ee98dc6af27a9f1c8cc4aaa2fd05b5f6e7c98f51390253a5263b0d096c3510fe" := by decide +kernel
  have hpath : (backupArchivePaths oneFileArgs).1.text
      = "hmn-backups/hmn-backup-node1-1704067200.tar.gz" := by decide +kernel
  obtain ⟨members, hmembers⟩ : ∃ members, archiveBackupPaths oneFile
      (backupArchivePaths oneFileArgs).1 oneFileArgs.include_ = .ok members := by
    rw [archiveBackupPaths, hpaths]
    exact ⟨_, rfl⟩
  refine ⟨members, ?_⟩
  rw [archivedManifest, hmanifest, Fallible.bind_ok]
  dsimp only
  rw [hmembers, Fallible.bind_ok, hpath, hpack]
  rfl

theorem oneFile_bare : bare oneFileCovered = oneFileBody ++ oneFileArchive := by decide +kernel

/-- The digest of the run, by the theorem. -/
theorem one_file_digest : ∃ written,
    backupRun oneFile (fun _ => [31, 139]) oneFileArgs = .ok written
    ∧ ¬ Recomputes written.manifest := by
  obtain ⟨members, harchived⟩ := oneFile_archived
  obtain ⟨written, hrun⟩ : ∃ written,
      backupRun oneFile (fun _ => [31, 139]) oneFileArgs = .ok written := by
    rw [backupRun, harchived]
    exact ⟨_, rfl⟩
  refine ⟨written, hrun, digest_not_recomputed harchived hrun ?_⟩
  rw [backupRun_manifest harchived hrun, bare_set, oneFile_bare]
  exact fun h => absurd h oneFile_digests

/-- The digests of the run, both as they are. -/
theorem stale_digest_covered : ∃ written,
    backupRun oneFile (fun _ => [31, 139]) oneFileArgs = .ok written
    ∧ ¬ Recomputes written.manifest := by
  obtain ⟨members, harchived⟩ := oneFile_archived
  obtain ⟨written, hrun⟩ : ∃ written,
      backupRun oneFile (fun _ => [31, 139]) oneFileArgs = .ok written := by
    rw [backupRun, harchived]
    exact ⟨_, rfl⟩
  refine ⟨written, hrun, ?_⟩
  rw [Recomputes, backupRun_manifest harchived hrun, Dict.get?_set_self, bare_set, oneFile_bare]
  exact fun h => oneFile_digests (Json.str.inj (Option.some.inj h))

end Hmn.Backup
