/-
  Hmn.Components.Archive — does an archive hold every file?

  A member is named by the last name of the included path and by the path
  below it.  What two included paths hold gets into each other's way when
  their last names are the same.

  Main results: `manifestCounts` — the manifest counts the files;
  `archive_holds_iff` — when the archive holds every one of them;
  `second_log_overwrites` — two directories of one name.
-/
import Hmn.Components.Backup
import Mathlib.Data.List.Pairwise

namespace Hmn.Backup

open Framework

/-! ## §1. What an archive holds. -/

/-- An included path that exists. -/
structure Include where
  path : PosixPath
  found : Found

/-- The included paths that exist. -/
def includes (host : Host) (paths : List PosixPath) : List Include :=
  paths.filterMap fun path => (host.lookup path).map (⟨path, ·⟩)

/-- Everything in the tree of an included path, with the names of members. -/
def treeVisits (host : Host) (inc : Include) : List Visit :=
  inc.found.tree.sorted.map fun e =>
    ⟨entryPath host inc.path e.1, arcname inc.path :: e.1, e.2⟩

namespace Visit

def isFile (v : Visit) : Bool :=
  match v.kind with
  | .file .. => true
  | _ => false

/-- The member that stands for a path, if one can. -/
def member? (v : Visit) : Option Member :=
  match v.kind with
  | .file _ _ data => some ⟨v.name, .file data⟩
  | .directory => some ⟨v.name, .directory⟩
  | .special => some ⟨v.name, .special⟩
  | .symlink | .socket => none

/-- The bytes of a file. -/
def size (v : Visit) : Nat :=
  match v.kind with
  | .file _ _ data => data.length
  | _ => 0

/-- Both are links to one file, and the second is known to be one. -/
def SameFile (v w : Visit) : Prop :=
  match v.kind, w.kind with
  | .file inode _ _, .file inode' links _ => inode.1 ≠ 0 ∧ inode = inode' ∧ 1 < links
  | _, _ => False

end Visit

/-- The files that the manifest counts. -/
def countedFiles (host : Host) (paths : List PosixPath) : List Visit :=
  (includes host paths).flatMap fun inc => (treeVisits host inc).filter Visit.isFile

/-- The manifest has the files' bytes in the entry of every path and in its
total. -/
structure ManifestCounts (host : Host) (paths : List PosixPath) (manifest : Dict) : Prop where
  entries : manifest.get? "entries"
    = some (.arr (paths.map fun path => .obj (manifestEntry host path)))
  sizes : ∀ path ∈ paths, (manifestEntry host path).get? "size_bytes"
    = some (.int ((countedFiles host [path]).map Visit.size).sum)
  total : manifest.get? "total_bytes"
    = some (.int ((countedFiles host paths).map Visit.size).sum)

/-- Every file that the manifest counts is stored under a name of its own, and
no other member gets into its way when the archive is extracted. -/
structure HoldsEveryFile (host : Host) (paths : List PosixPath) (members : List Member) :
    Prop where
  stored : ∀ v ∈ countedFiles host paths, ∀ m ∈ v.member?, m ∈ members
  distinct : ((countedFiles host paths).map Visit.name).Nodup
  alone : ∀ v ∈ countedFiles host paths, ∀ m ∈ members, v.name <+: m.name → some m = v.member?

/-- What an archive at `archive` gets of an included path: nothing of a link,
and neither the archive nor links and sockets. -/
def kept (host : Host) (archive : PosixPath) (inc : Include) : List (Rel × FileKind) :=
  if inc.found.isLink then []
  else inc.found.tree.sorted.filter fun e =>
    entryPath host inc.path e.1 ≠ archive ∧ e.2 ≠ .symlink ∧ e.2 ≠ .socket

/-- No file of the one is where the other has something. -/
def Apart (host : Host) (archive : PosixPath) (inc inc' : Include) : Prop :=
  arcname inc.path = arcname inc'.path →
    ∀ f ∈ inc.found.tree.files, ∀ e ∈ kept host archive inc', ¬ f.1 <+: e.1

/-- The conditions on what is included. -/
structure Recoverable (host : Host) (paths : List PosixPath) (archive : PosixPath) : Prop where
  /-- No included path with files is a symbolic link. -/
  noLink : ∀ inc ∈ includes host paths, inc.found.isLink = true → inc.found.tree.files = []
  /-- The archive is none of the files. -/
  notArchive : ∀ v ∈ countedFiles host paths, v.absolute ≠ archive
  /-- No two of the files are links to one file. -/
  oneLink : (countedFiles host paths).Pairwise fun v w => ¬ v.SameFile w
  /-- Two included paths with one last name have their files apart. -/
  apart : (includes host paths).Pairwise fun inc inc' =>
    Apart host archive inc inc' ∧ Apart host archive inc' inc

/-! ## §2. One path. -/

/-- The path is another link to a file that was stored under another name. -/
def Tar.Linked (tar : Tar) (v : Visit) : Prop :=
  ∃ inode links data, v.kind = .file inode links data ∧ 1 < links
    ∧ tar.inodes.lookup inode ≠ none ∧ tar.inodes.lookup inode ≠ some v.name

section

variable {archive : PosixPath} {tar : Tar} {v : Visit}

theorem addVisit_archive (h : v.absolute = archive) : addVisit archive tar v = tar := by
  rw [addVisit, if_pos h]

theorem addVisit_linked (h : tar.Linked v) : addVisit archive tar v = tar := by
  obtain ⟨inode, links, data, hkind, hlinked⟩ := h
  rw [addVisit]
  split
  · rfl
  · simp only [hkind, if_pos hlinked]

theorem addVisit_file {inode : Nat × Nat} {links : Nat} {data : List Nat}
    (hkind : v.kind = .file inode links data) (hne : v.absolute ≠ archive) (h : ¬ tar.Linked v) :
    addVisit archive tar v = ⟨tar.members ++ [⟨v.name, .file data⟩],
      if inode.1 ≠ 0 then (inode, v.name) :: tar.inodes else tar.inodes⟩ := by
  have hfree : ¬ (1 < links ∧ tar.inodes.lookup inode ≠ none
      ∧ tar.inodes.lookup inode ≠ some v.name) :=
    fun hlinked => h ⟨inode, links, data, hkind, hlinked⟩
  rw [addVisit, if_neg hne]
  simp only [hkind, if_neg hfree]

/-- What is no file is stored, or there is no member for it. -/
theorem addVisit_other (hfile : v.isFile = false) (hne : v.absolute ≠ archive) :
    addVisit archive tar v = { tar with members := tar.members ++ v.member?.toList } := by
  rw [addVisit, if_neg hne]
  cases hkind : v.kind with
  | file inode links data =>
    simp only [Visit.isFile, hkind] at hfile
    cases hfile
  | directory => simp [Visit.member?, hkind]
  | special => simp [Visit.member?, hkind]
  | symlink => simp [Visit.member?, hkind]
  | socket => simp [Visit.member?, hkind]

theorem isFile_iff : v.isFile = true ↔ ∃ inode links data, v.kind = .file inode links data := by
  cases hkind : v.kind <;> simp [Visit.isFile, hkind]

theorem member?_file {inode : Nat × Nat} {links : Nat} {data : List Nat}
    (h : v.kind = .file inode links data) : v.member? = some ⟨v.name, .file data⟩ := by
  simp only [Visit.member?, h]

/-- Under which name a file was stored. -/
theorem lookup_record (inodes : List ((Nat × Nat) × List String)) (inode inode' : Nat × Nat)
    (name : List String) :
    (if inode.1 ≠ 0 then (inode, name) :: inodes else inodes).lookup inode'
      = if inode.1 ≠ 0 ∧ inode' = inode then some name else inodes.lookup inode' := by
  by_cases hinode : inode.1 ≠ 0
  · rw [if_pos hinode, List.lookup_cons]
    by_cases hself : inode' = inode
    · rw [if_pos ⟨hinode, hself⟩, beq_iff_eq.mpr hself]
    · rw [if_neg fun h => hself h.2, beq_eq_false_iff_ne.mpr hself]
  · rw [if_neg hinode, if_neg fun h => hinode h.1]

theorem member?_name {m : Member} (h : m ∈ v.member?) : m.name = v.name := by
  unfold Visit.member? at h
  split at h <;> cases h <;> rfl

theorem isFile_of_member? {name : List String} {data : List Nat}
    (h : ⟨name, .file data⟩ ∈ v.member?) : v.isFile = true := by
  unfold Visit.member? at h
  split at h
  · rename_i hkind
    exact isFile_iff.mpr ⟨_, _, _, hkind⟩
  all_goals cases h

/-! ## §3. All paths. -/

/-- What an archive holds after the paths `vs`. -/
structure Archived (archive : PosixPath) (vs : List Visit) (tar : Tar) : Prop where
  members : ∀ m ∈ tar.members, ∃ v ∈ vs, v.absolute ≠ archive ∧ m ∈ v.member?
  other : ∀ v ∈ vs, v.absolute ≠ archive → v.isFile = false → ∀ m ∈ v.member?, m ∈ tar.members
  known : ∀ inode name, tar.inodes.lookup inode = some name → inode.1 ≠ 0
    ∧ ∃ v ∈ vs, v.name = name ∧ ∃ links data, v.kind = .file inode links data
  recorded : ∀ v ∈ vs, v.absolute ≠ archive → ∀ inode links data,
    v.kind = .file inode links data → inode.1 ≠ 0 → tar.inodes.lookup inode ≠ none

variable {vs : List Visit}

/-- A path that leaves the archive as it is. -/
theorem Archived.skip (h : Archived archive vs tar) (hother : v.absolute ≠ archive →
      v.isFile = true)
    (hrecorded : v.absolute ≠ archive → ∀ inode links data, v.kind = .file inode links data →
      inode.1 ≠ 0 → tar.inodes.lookup inode ≠ none) : Archived archive (vs ++ [v]) tar where
  members := fun m hm => by
    obtain ⟨w, hw, hrest⟩ := h.members m hm
    exact ⟨w, List.mem_append_left _ hw, hrest⟩
  other := by
    simp only [List.forall_mem_append, List.forall_mem_singleton]
    refine ⟨h.other, fun hne hfile => ?_⟩
    rw [hother hne] at hfile
    cases hfile
  known := fun inode name hname => by
    obtain ⟨hinode, w, hw, hrest⟩ := h.known inode name hname
    exact ⟨hinode, w, List.mem_append_left _ hw, hrest⟩
  recorded := by
    simp only [List.forall_mem_append, List.forall_mem_singleton]
    exact ⟨h.recorded, hrecorded⟩

/-- **One path.** -/
theorem Archived.step (h : Archived archive vs tar) (v : Visit) :
    Archived archive (vs ++ [v]) (addVisit archive tar v) := by
  -- The archive leaves out itself and every further link to an inode that it knows.
  by_cases harchive : v.absolute = archive
  · rw [addVisit_archive harchive]
    exact h.skip (absurd harchive) (absurd harchive)
  by_cases hlinked : tar.Linked v
  · rw [addVisit_linked hlinked]
    obtain ⟨inode, links, data, hkind, -, hknown, -⟩ := hlinked
    refine h.skip (fun _ => isFile_iff.mpr ⟨inode, links, data, hkind⟩) ?_
    intro _ inode' links' data' hkind' _
    cases hkind.symm.trans hkind'
    exact hknown
  -- What is no file makes no inode known.
  cases hfile : v.isFile with
  | false =>
    rw [addVisit_other hfile harchive]
    refine ⟨?_, ?_, ?_, ?_⟩
    · simp only [List.forall_mem_append]
      refine ⟨fun m hm => ?_, fun m hm => ?_⟩
      · obtain ⟨w, hw, hrest⟩ := h.members m hm
        exact ⟨w, List.mem_append_left _ hw, hrest⟩
      · exact ⟨v, by simp, harchive, Option.mem_toList.mp hm⟩
    · simp only [List.forall_mem_append, List.forall_mem_singleton]
      refine ⟨fun w hw hne hwfile m hm => ?_, fun _ _ m hm => ?_⟩
      · exact List.mem_append_left _ (h.other w hw hne hwfile m hm)
      · exact List.mem_append_right _ (Option.mem_toList.mpr hm)
    · intro inode name hname
      obtain ⟨hinode, w, hw, hrest⟩ := h.known inode name hname
      exact ⟨hinode, w, List.mem_append_left _ hw, hrest⟩
    · simp only [List.forall_mem_append, List.forall_mem_singleton]
      refine ⟨h.recorded, fun _ inode links data hkind => ?_⟩
      rw [isFile_iff.mpr ⟨inode, links, data, hkind⟩] at hfile
      cases hfile
  | true =>
    -- A file that is stored makes its inode known under its name.
    obtain ⟨inode, links, data, hkind⟩ := isFile_iff.mp hfile
    rw [addVisit_file hkind harchive hlinked]
    refine ⟨?_, ?_, ?_, ?_⟩
    · simp only [List.forall_mem_append, List.forall_mem_singleton]
      refine ⟨fun m hm => ?_, v, by simp, harchive, member?_file hkind⟩
      obtain ⟨w, hw, hrest⟩ := h.members m hm
      exact ⟨w, List.mem_append_left _ hw, hrest⟩
    · simp only [List.forall_mem_append, List.forall_mem_singleton]
      refine ⟨fun w hw hne hwfile m hm => ?_, fun _ hwfile => ?_⟩
      · exact List.mem_append_left _ (h.other w hw hne hwfile m hm)
      · rw [hfile] at hwfile
        cases hwfile
    · intro inode' name hname
      rw [lookup_record] at hname
      split at hname
      · rename_i hself
        cases hname
        exact ⟨hself.2 ▸ hself.1, v, by simp, rfl, links, data, hself.2 ▸ hkind⟩
      · obtain ⟨hinode, w, hw, hrest⟩ := h.known inode' name hname
        exact ⟨hinode, w, List.mem_append_left _ hw, hrest⟩
    · simp only [List.forall_mem_append, List.forall_mem_singleton, lookup_record]
      refine ⟨fun w hw hne inode' links' data' hkind' hinode => ?_,
        fun _ inode' links' data' hkind' hinode => ?_⟩
      · split
        · exact nofun
        · exact h.recorded w hw hne inode' links' data' hkind' hinode
      · cases hkind.symm.trans hkind'
        rw [if_pos ⟨hinode, rfl⟩]
        exact nofun

/-- The archive after all paths. -/
def archived (archive : PosixPath) (vs : List Visit) : Tar := vs.foldl (addVisit archive) ⟨[], []⟩

theorem archived_append (vs : List Visit) (v : Visit) :
    archived archive (vs ++ [v]) = addVisit archive (archived archive vs) v := by
  rw [archived, List.foldl_append]
  rfl

/-- **All paths.** -/
theorem archived_spec (archive : PosixPath) (vs : List Visit) :
    Archived archive vs (archived archive vs) := by
  induction vs using List.reverseRecOn with
  | nil => exact ⟨nofun, nofun, nofun, nofun⟩
  | append_singleton vs v ih =>
    rw [archived_append]
    exact ih.step v

theorem addVisit_members_subset {m : Member} (h : m ∈ tar.members) :
    m ∈ (addVisit archive tar v).members := by
  unfold addVisit
  split
  · exact h
  · split
    · dsimp only
      split
      · exact h
      · exact List.mem_append_left _ h
    · exact List.mem_append_left _ h
    · exact List.mem_append_left _ h
    · exact h
    · exact h

theorem mem_addVisit {m : Member} (h : m ∈ (addVisit archive tar v).members) :
    m ∈ tar.members ∨ m ∈ v.member? := by
  unfold addVisit at h
  split at h
  · exact Or.inl h
  · split at h
    · rename_i inode links data hkind
      dsimp only at h
      split at h
      · exact Or.inl h
      · rcases List.mem_append.mp h with h | h
        · exact Or.inl h
        · cases List.mem_singleton.mp h
          exact Or.inr (member?_file hkind)
    · rename_i hkind
      rcases List.mem_append.mp h with h | h
      · exact Or.inl h
      · cases List.mem_singleton.mp h
        exact Or.inr (by simp [Visit.member?, hkind])
    · rename_i hkind
      rcases List.mem_append.mp h with h | h
      · exact Or.inl h
      · cases List.mem_singleton.mp h
        exact Or.inr (by simp [Visit.member?, hkind])
    · exact Or.inl h
    · exact Or.inl h

/-- Without two links to one file everything is stored. -/
theorem stored_of_oneLink (h : vs.Pairwise fun v w => ¬ v.SameFile w) :
    ∀ v ∈ vs, v.absolute ≠ archive → ∀ m ∈ v.member?, m ∈ (archived archive vs).members := by
  induction vs using List.reverseRecOn with
  | nil => exact nofun
  | append_singleton vs w ih =>
    obtain ⟨hvs, -, hlast⟩ := List.pairwise_append.mp h
    have hspec := archived_spec archive vs
    rw [archived_append]
    simp only [List.forall_mem_append, List.forall_mem_singleton]
    refine ⟨fun v hv hne m hm => addVisit_members_subset (ih hvs v hv hne m hm),
      fun hne m hm => ?_⟩
    -- A known inode would come from an earlier visit to the same file.
    have hlinked : ¬ (archived archive vs).Linked w := by
      rintro ⟨inode, links, data, hkind, hlinks, hknown, -⟩
      obtain ⟨name, hname⟩ := Option.ne_none_iff_exists'.mp hknown
      obtain ⟨hinode, v, hv, -, links', data', hkind'⟩ := hspec.known inode name hname
      refine hlast v hv w List.mem_cons_self ?_
      simp only [Visit.SameFile, hkind, hkind']
      exact ⟨hinode, trivial, hlinks⟩
    cases hfile : w.isFile with
    | false =>
      rw [addVisit_other hfile hne]
      exact List.mem_append_right _ (Option.mem_toList.mpr hm)
    | true =>
      obtain ⟨inode, links, data, hkind⟩ := isFile_iff.mp hfile
      rw [addVisit_file hkind hne hlinked]
      cases (member?_file hkind).symm.trans hm
      exact List.mem_append_right _ List.mem_cons_self

/-- Where every file is stored under a name of its own there are no two links
to one file. -/
theorem oneLink_of_stored (hnames : ((vs.filter Visit.isFile).map Visit.name).Nodup)
    (hne : ∀ v ∈ vs, v.isFile = true → v.absolute ≠ archive)
    (hstored : ∀ v ∈ vs, v.isFile = true → ∀ m ∈ v.member?, m ∈ (archived archive vs).members) :
    vs.Pairwise fun v w => ¬ v.SameFile w := by
  induction vs using List.reverseRecOn with
  | nil => exact List.Pairwise.nil
  | append_singleton vs w ih =>
    rw [List.filter_append, List.map_append] at hnames
    obtain ⟨hinit, -, hdisjoint⟩ := List.nodup_append.mp hnames
    simp only [List.forall_mem_append, List.forall_mem_singleton] at hne hstored
    rw [archived_append] at hstored
    -- Stored under a name of its own, `w` shares it with no earlier file.
    have hname : ∀ v ∈ vs, v.isFile = true → w.isFile = true → v.name ≠ w.name := by
      intro v hv hvfile hwfile
      refine hdisjoint _ (List.mem_map_of_mem (List.mem_filter.mpr ⟨hv, hvfile⟩)) _ ?_
      exact List.mem_map_of_mem (List.mem_filter.mpr ⟨List.mem_cons_self, hwfile⟩)
    have hspec := archived_spec archive vs
    refine List.pairwise_append.mpr ⟨ih hinit hne.1 fun v hv hfile m hm => ?_,
      List.pairwise_singleton _ _, ?_⟩
    · obtain ⟨inode, links, data, hkind⟩ := isFile_iff.mp hfile
      refine (mem_addVisit (hstored.1 v hv hfile m hm)).resolve_right fun hw => ?_
      cases (member?_file hkind).symm.trans hm
      exact hname v hv hfile (isFile_of_member? hw) (member?_name hw)
    · simp only [List.forall_mem_singleton]
      intro v hv hsame
      unfold Visit.SameFile at hsame
      split at hsame
      · rename_i inode _ _ _ links data hvkind hwkind
        obtain ⟨hinode, rfl, hlinks⟩ := hsame
        have hvfile := isFile_iff.mpr ⟨_, _, _, hvkind⟩
        have hwfile := isFile_iff.mpr ⟨_, _, _, hwkind⟩
        -- Two links to one file: the second is only linked to the name of the first, and so is
        -- not stored, against `hstored`.
        have hlinked : (archived archive vs).Linked w := by
          refine ⟨_, _, _, hwkind, hlinks,
            hspec.recorded v hv (hne.1 v hv hvfile) _ _ _ hvkind hinode, fun hknown => ?_⟩
          obtain ⟨-, u, hu, hself, _, _, hukind⟩ := hspec.known _ _ hknown
          exact hname u hu (isFile_iff.mpr ⟨_, _, _, hukind⟩) hwfile hself
        have hmem := hstored.2 hwfile _ (member?_file hwkind)
        rw [addVisit_linked hlinked] at hmem
        obtain ⟨u, hu, -, hum⟩ := hspec.members _ hmem
        exact hname u hu (isFile_of_member? hum) hwfile (member?_name hum).symm
      · exact hsame

end

/-! ## §4. The trees of the included paths. -/

section

variable {host : Host} {archive : PosixPath} {inc : Include}

/-- What `tar.add` comes to in an entry of a tree. -/
def entryVisit (host : Host) (inc : Include) (e : Rel × FileKind) : Visit :=
  ⟨entryPath host inc.path e.1, arcname inc.path :: e.1, e.2⟩

theorem treeVisits_eq (host : Host) (inc : Include) :
    treeVisits host inc = inc.found.tree.sorted.map (entryVisit host inc) := rfl

theorem visits_of_link (h : inc.found.isLink = true) :
    visits host inc.path inc.found = [⟨entryPath host inc.path [], [arcname inc.path], .symlink⟩] := by
  rw [visits, if_pos h]

theorem visits_of_not_link (h : inc.found.isLink = false) :
    visits host inc.path inc.found = treeVisits host inc := by
  rw [visits, h]
  rfl

theorem mem_files {t : Tree} {rel : Rel} {data : List Nat} :
    (rel, data) ∈ t.files ↔ ∃ inode links, (rel, FileKind.file inode links data) ∈ t.sorted := by
  simp only [Tree.files, List.mem_filterMap]
  constructor
  · rintro ⟨⟨rel', kind⟩, hmem, heq⟩
    cases kind <;> cases heq
    exact ⟨_, _, hmem⟩
  · rintro ⟨inode, links, hmem⟩
    exact ⟨_, hmem, rfl⟩

/-- A file that is counted, as an entry of its tree. -/
theorem mem_fileVisits {v : Visit} : v ∈ (treeVisits host inc).filter Visit.isFile
    ↔ ∃ rel inode links data, (rel, FileKind.file inode links data) ∈ inc.found.tree.sorted
      ∧ v = entryVisit host inc (rel, .file inode links data) := by
  rw [List.mem_filter, treeVisits_eq, List.mem_map]
  constructor
  · rintro ⟨⟨⟨rel, kind⟩, hmem, rfl⟩, hfile⟩
    obtain ⟨inode, links, data, rfl⟩ := isFile_iff.mp hfile
    exact ⟨rel, inode, links, data, hmem, rfl⟩
  · rintro ⟨rel, inode, links, data, hmem, rfl⟩
    exact ⟨⟨_, hmem, rfl⟩, rfl⟩

theorem files_eq_nil_iff : inc.found.tree.files = []
    ↔ (treeVisits host inc).filter Visit.isFile = [] := by
  simp only [List.eq_nil_iff_forall_not_mem]
  constructor
  · intro h v hv
    obtain ⟨rel, inode, links, data, hmem, -⟩ := mem_fileVisits.mp hv
    exact h (rel, data) (mem_files.mpr ⟨inode, links, hmem⟩)
  · rintro h ⟨rel, data⟩ hf
    obtain ⟨inode, links, hmem⟩ := mem_files.mp hf
    exact h _ (mem_fileVisits.mpr ⟨rel, inode, links, data, hmem, rfl⟩)

/-- What may become a member, as an entry of its tree. -/
theorem mem_visits_member {v : Visit} {m : Member} (hv : v ∈ visits host inc.path inc.found)
    (hne : v.absolute ≠ archive) (hm : m ∈ v.member?) :
    inc.found.isLink = false ∧ ∃ e ∈ kept host archive inc, v = entryVisit host inc e := by
  cases hlink : inc.found.isLink with
  | true =>
    rw [visits_of_link hlink] at hv
    cases List.mem_singleton.mp hv
    cases hm
  | false =>
    rw [visits_of_not_link hlink, treeVisits_eq] at hv
    obtain ⟨e, hmem, rfl⟩ := List.mem_map.mp hv
    refine ⟨rfl, e, ?_, rfl⟩
    rw [kept, hlink]
    refine List.mem_filter.mpr ⟨hmem, ?_⟩
    have hkind : e.2 ≠ .symlink ∧ e.2 ≠ .socket := by
      constructor <;> intro hkind <;> simp [Visit.member?, entryVisit, hkind] at hm
    simp only [decide_eq_true_eq]
    exact ⟨hne, hkind⟩

/-- What is kept of a tree would be a member. -/
theorem mem_kept {e : Rel × FileKind} (h : e ∈ kept host archive inc) :
    inc.found.isLink = false ∧ e ∈ inc.found.tree.sorted
      ∧ entryPath host inc.path e.1 ≠ archive
      ∧ ∃ m, m ∈ (entryVisit host inc e).member? := by
  unfold kept at h
  split at h
  · cases h
  · rename_i hlink
    obtain ⟨hmem, hkeep⟩ := List.mem_filter.mp h
    simp only [decide_eq_true_eq] at hkeep
    obtain ⟨hne, hsymlink, hsocket⟩ := hkeep
    refine ⟨Bool.eq_false_of_not_eq_true hlink, hmem, hne, ?_⟩
    cases hkind : e.2 with
    | symlink => exact absurd hkind hsymlink
    | socket => exact absurd hkind hsocket
    | file | directory | special =>
      exact ⟨_, by simp only [Visit.member?, entryVisit, hkind]; rfl⟩

/-- The names of the members of one tree are distinct. -/
theorem names_nodup (host : Host) (inc : Include) :
    ((treeVisits host inc).map Visit.name).Nodup := by
  have hrels : (inc.found.tree.sorted.map Prod.fst).Nodup :=
    (inc.found.tree.sorted_perm.map _).nodup_iff.mpr inc.found.tree.nodup
  have hnames : (treeVisits host inc).map Visit.name
      = (inc.found.tree.sorted.map Prod.fst).map (arcname inc.path :: ·) := by
    rw [treeVisits_eq, List.map_map, List.map_map]
    rfl
  rw [hnames]
  exact hrels.map fun _ _ h => (List.cons.inj h).2

end

/-! ## §5. All included paths. -/

section

variable {host : Host} {archive : PosixPath} {paths : List PosixPath}

/-- All that `tar.add` comes to. -/
def allVisits (host : Host) (paths : List PosixPath) : List Visit :=
  (includes host paths).flatMap fun inc => visits host inc.path inc.found

theorem allVisits_eq (host : Host) (paths : List PosixPath) : allVisits host paths =
    paths.flatMap fun path =>
      match host.lookup path with
      | none => []
      | some found => visits host path found := by
  unfold allVisits includes
  induction paths with
  | nil => rfl
  | cons path paths ih =>
    rw [List.flatMap_cons, ← ih]
    cases hfound : host.lookup path with
    | none => rw [List.filterMap_cons_none (by rw [hfound]; rfl)]; rfl
    | some found => rw [List.filterMap_cons_some (by rw [hfound]; rfl), List.flatMap_cons]

theorem mem_allVisits {v : Visit} : v ∈ allVisits host paths
    ↔ ∃ inc ∈ includes host paths, v ∈ visits host inc.path inc.found := List.mem_flatMap

theorem mem_countedFiles {v : Visit} : v ∈ countedFiles host paths
    ↔ ∃ inc ∈ includes host paths, v ∈ (treeVisits host inc).filter Visit.isFile :=
  List.mem_flatMap

/-- Where no link is included, the counted files are those `tar.add` comes to. -/
theorem filter_allVisits
    (h : ∀ inc ∈ includes host paths, inc.found.isLink = true → inc.found.tree.files = []) :
    (allVisits host paths).filter Visit.isFile = countedFiles host paths := by
  rw [allVisits, List.filter_flatMap, countedFiles]
  refine List.flatMap_congr fun inc hinc => ?_
  cases hlink : inc.found.isLink with
  | true =>
    rw [visits_of_link hlink, files_eq_nil_iff.mp (h inc hinc hlink)]
    rfl
  | false => rw [visits_of_not_link hlink]

/-- A stored file is one that is counted. -/
theorem counted_of_member {v : Visit} {name : List String} {data : List Nat}
    (hv : v ∈ allVisits host paths) (hne : v.absolute ≠ archive)
    (hm : ⟨name, .file data⟩ ∈ v.member?) :
    ∃ inc ∈ includes host paths, inc.found.isLink = false
      ∧ v ∈ (treeVisits host inc).filter Visit.isFile := by
  obtain ⟨inc, hinc, hv⟩ := mem_allVisits.mp hv
  have hlink := (mem_visits_member hv hne hm).1
  rw [visits_of_not_link hlink] at hv
  exact ⟨inc, hinc, hlink, List.mem_filter.mpr ⟨hv, isFile_of_member? hm⟩⟩

/-- Two members of different names come from different included paths. -/
theorem distinct_iff : ((countedFiles host paths).map Visit.name).Nodup
    ↔ (includes host paths).Pairwise fun inc inc' =>
      ∀ v ∈ (treeVisits host inc).filter Visit.isFile,
        ∀ w ∈ (treeVisits host inc').filter Visit.isFile, v.name ≠ w.name := by
  rw [List.Nodup, List.pairwise_map, countedFiles, List.pairwise_flatMap]
  refine and_iff_right fun inc _ => ?_
  have hnodup := names_nodup host inc
  rw [List.Nodup, List.pairwise_map] at hnodup
  exact hnodup.filter _

theorem distinct_includes {inc inc' : Include} (h : ((countedFiles host paths).map Visit.name).Nodup)
    (hinc : inc ∈ includes host paths) (hinc' : inc' ∈ includes host paths) (hne : inc ≠ inc') :
    ∀ v ∈ (treeVisits host inc).filter Visit.isFile,
      ∀ w ∈ (treeVisits host inc').filter Visit.isFile, v.name ≠ w.name := by
  have : Std.Symm fun inc inc' : Include => ∀ v ∈ (treeVisits host inc).filter Visit.isFile,
      ∀ w ∈ (treeVisits host inc').filter Visit.isFile, v.name ≠ w.name :=
    ⟨fun _ _ h v hv w hw => (h w hw v hv).symm⟩
  exact (distinct_iff.mp h).forall hinc hinc' hne

theorem apart_includes {inc inc' : Include}
    (h : (includes host paths).Pairwise fun inc inc' =>
      Apart host archive inc inc' ∧ Apart host archive inc' inc)
    (hinc : inc ∈ includes host paths) (hinc' : inc' ∈ includes host paths) (hne : inc ≠ inc') :
    Apart host archive inc inc' := by
  have : Std.Symm fun inc inc' : Include =>
      Apart host archive inc inc' ∧ Apart host archive inc' inc := ⟨fun _ _ h => h.symm⟩
  exact (h.forall hinc hinc' hne).1

/-! ## §6. Exactly when every file is held. -/

theorem isFile_of_sameFile {v w : Visit} (h : v.SameFile w) :
    v.isFile = true ∧ w.isFile = true := by
  unfold Visit.SameFile at h
  split at h
  · rename_i hv hw
    exact ⟨isFile_iff.mpr ⟨_, _, _, hv⟩, isFile_iff.mpr ⟨_, _, _, hw⟩⟩
  · exact h.elim

theorem pairwise_sameFile {vs : List Visit} : (vs.filter Visit.isFile).Pairwise
      (fun v w => ¬ v.SameFile w) ↔ vs.Pairwise fun v w => ¬ v.SameFile w := by
  rw [List.pairwise_filter]
  constructor
  · intro h
    exact h.imp fun h hsame =>
      h (isFile_of_sameFile hsame).1 (isFile_of_sameFile hsame).2 hsame
  · intro h
    exact h.imp fun h _ _ => h

/-- **Necessary.** -/
theorem recoverable_of_holds
    (h : HoldsEveryFile host paths (archived archive (allVisits host paths)).members) :
    Recoverable host paths archive := by
  have hspec := archived_spec archive (allVisits host paths)
  -- a counted file is stored by a visit that is counted as well
  have hstored : ∀ inc ∈ includes host paths, ∀ v ∈ (treeVisits host inc).filter Visit.isFile,
      ∃ inc' ∈ includes host paths, inc'.found.isLink = false
        ∧ ∃ w ∈ (treeVisits host inc').filter Visit.isFile, w.name = v.name
          ∧ w.absolute ≠ archive := by
    intro inc hinc v hv
    obtain ⟨inode, links, data, hkind⟩ := isFile_iff.mp (List.mem_filter.mp hv).2
    have hmem := h.stored v (mem_countedFiles.mpr ⟨inc, hinc, hv⟩) _ (member?_file hkind)
    obtain ⟨w, hw, hne, hm⟩ := hspec.members _ hmem
    obtain ⟨inc', hinc', hlink, hwfile⟩ := counted_of_member hw hne hm
    exact ⟨inc', hinc', hlink, w, hwfile, (member?_name hm).symm, hne⟩
  -- The files behind a link are stored only where another path finds them, under the same name.
  have hnoLink : ∀ inc ∈ includes host paths,
      inc.found.isLink = true → inc.found.tree.files = [] := by
    intro inc hinc hlink
    refine (@files_eq_nil_iff host _).mpr (List.eq_nil_iff_forall_not_mem.mpr fun v hv => ?_)
    obtain ⟨inc', hinc', hlink', w, hw, hname, -⟩ := hstored inc hinc v hv
    have hne : inc ≠ inc' := by
      rintro rfl
      rw [hlink] at hlink'
      cases hlink'
    exact distinct_includes h.distinct hinc hinc' hne v hv w hw hname.symm
  have hnotArchive : ∀ v ∈ countedFiles host paths, v.absolute ≠ archive := by
    intro v hv hself
    obtain ⟨inc, hinc, hvfile⟩ := mem_countedFiles.mp hv
    obtain ⟨inc', hinc', -, w, hw, hname, hne⟩ := hstored inc hinc v hvfile
    have hwv := List.inj_on_of_nodup_map h.distinct (mem_countedFiles.mpr ⟨inc', hinc', hw⟩) hv
      hname
    exact hne (hwv ▸ hself)
  have hfilter := filter_allVisits hnoLink
  have hcounted : ∀ v ∈ allVisits host paths, v.isFile = true → v ∈ countedFiles host paths :=
    fun v hv hfile => hfilter ▸ List.mem_filter.mpr ⟨hv, hfile⟩
  -- A member at or below the name of a counted file is that file, so no other path reaches into
  -- it.
  have hapart : ∀ inc ∈ includes host paths, ∀ inc' ∈ includes host paths,
      (∀ v ∈ (treeVisits host inc).filter Visit.isFile,
        ∀ w ∈ (treeVisits host inc').filter Visit.isFile, v.name ≠ w.name) →
      Apart host archive inc inc' := by
    rintro inc hinc inc' hinc' hnames hname ⟨rel, data⟩ hf e he hleads
    obtain ⟨inode, links, hmem⟩ := mem_files.mp hf
    obtain ⟨hlink, hsorted, hne, m, hm⟩ := mem_kept he
    have hv : entryVisit host inc (rel, .file inode links data)
        ∈ (treeVisits host inc).filter Visit.isFile :=
      mem_fileVisits.mpr ⟨rel, inode, links, data, hmem, rfl⟩
    have hw : entryVisit host inc' e ∈ treeVisits host inc' := List.mem_map_of_mem hsorted
    have hall : entryVisit host inc' e ∈ allVisits host paths :=
      mem_allVisits.mpr ⟨inc', hinc', visits_of_not_link hlink ▸ hw⟩
    have hmember : m ∈ (archived archive (allVisits host paths)).members := by
      cases hfile : (entryVisit host inc' e).isFile with
      | true => exact h.stored _ (hcounted _ hall hfile) m hm
      | false => exact hspec.other _ hall hne hfile m hm
    have halone := h.alone _ (mem_countedFiles.mpr ⟨inc, hinc, hv⟩) m hmember (by
      rw [member?_name hm]
      exact List.cons_prefix_cons.mpr ⟨hname, hleads⟩)
    cases halone
    have hwfile := isFile_of_member? hm
    exact hnames _ hv _ (List.mem_filter.mpr ⟨hw, hwfile⟩) (member?_name hm)
  refine ⟨hnoLink, hnotArchive, ?_, ?_⟩
  · rw [← hfilter, pairwise_sameFile]
    exact oneLink_of_stored (hfilter ▸ h.distinct)
      (fun v hv hfile => hnotArchive v (hcounted v hv hfile))
      (fun v hv hfile => h.stored v (hcounted v hv hfile))
  · refine (distinct_iff.mp h.distinct).imp_of_mem fun {inc inc'} hinc hinc' hnames => ⟨?_, ?_⟩
    · exact hapart inc hinc inc' hinc' hnames
    · exact hapart inc' hinc' inc hinc fun v hv w hw => (hnames w hw v hv).symm

/-- **Sufficient.** -/
theorem holds_of_recoverable (h : Recoverable host paths archive) :
    HoldsEveryFile host paths (archived archive (allVisits host paths)).members := by
  have hspec := archived_spec archive (allVisits host paths)
  have hfilter := filter_allVisits h.noLink
  have honce : (allVisits host paths).Pairwise fun v w => ¬ v.SameFile w :=
    pairwise_sameFile.mp (hfilter ▸ h.oneLink)
  -- Without links and without the archive itself, every file of a tree is visited.
  have hkept : ∀ inc ∈ includes host paths, ∀ rel inode links data,
      (rel, FileKind.file inode links data) ∈ inc.found.tree.sorted →
      (rel, FileKind.file inode links data) ∈ kept host archive inc := by
    intro inc hinc rel inode links data hmem
    have hne := h.notArchive _ (mem_countedFiles.mpr
      ⟨inc, hinc, mem_fileVisits.mpr ⟨rel, inode, links, data, hmem, rfl⟩⟩)
    have hlink : inc.found.isLink = false := by
      by_contra hlink
      have hfiles := h.noLink inc hinc (Bool.eq_true_of_not_eq_false hlink)
      have := mem_files.mpr ⟨inode, links, hmem⟩
      rw [hfiles] at this
      cases this
    rw [kept, hlink]
    refine List.mem_filter.mpr ⟨hmem, ?_⟩
    simp only [decide_eq_true_eq]
    exact ⟨hne, nofun, nofun⟩
  refine ⟨?_, ?_, ?_⟩
  · intro v hv m hm
    rw [← hfilter] at hv
    exact stored_of_oneLink honce v (List.mem_filter.mp hv).1
      (h.notArchive v (hfilter ▸ hv)) m hm
  · refine distinct_iff.mpr (h.apart.imp_of_mem fun {inc inc'} hinc hinc' happart => ?_)
    rintro v hv w hw hname
    obtain ⟨rel, inode, links, data, hmem, rfl⟩ := mem_fileVisits.mp hv
    obtain ⟨rel', inode', links', data', hmem', rfl⟩ := mem_fileVisits.mp hw
    obtain ⟨harcname, rfl⟩ : arcname inc.path = arcname inc'.path ∧ rel = rel' :=
      List.cons.inj hname
    exact happart.1 harcname _ (mem_files.mpr ⟨inode, links, hmem⟩) _
      (hkept inc' hinc' rel inode' links' data' hmem') List.prefix_rfl
  · intro v hv m hm hleads
    obtain ⟨inc, hinc, hv⟩ := mem_countedFiles.mp hv
    obtain ⟨rel, inode, links, data, hmem, rfl⟩ := mem_fileVisits.mp hv
    obtain ⟨w, hw, hne, hwm⟩ := hspec.members m hm
    obtain ⟨inc', hinc', hw⟩ := mem_allVisits.mp hw
    obtain ⟨-, e, he, rfl⟩ := mem_visits_member hw hne hwm
    rw [member?_name hwm] at hleads
    obtain ⟨harcname, hrel⟩ := List.cons_prefix_cons.mp hleads
    -- Two entries of one tree differ in their names; two trees are apart.
    by_cases hself : inc = inc'
    · subst hself
      have hentry := inc.found.tree.sorted_perm.mem_iff.mp hmem
      have hentry' := inc.found.tree.sorted_perm.mem_iff.mp (mem_kept he).2.1
      have heq : rel = e.1 := by
        by_contra hrelne
        cases inc.found.tree.below _ hentry _ hentry' hrel hrelne
      obtain rfl := inc.found.tree.unique hentry hentry' heq
      exact hwm.symm
    · exact absurd hrel (apart_includes h.apart hinc hinc' hself harcname _
        (mem_files.mpr ⟨inode, links, hmem⟩) e he)

end

/-! ## §7. The manifest and the archive. -/

theorem size_treeVisits (host : Host) (inc : Include) :
    (((treeVisits host inc).filter Visit.isFile).map Visit.size).sum
      = sizeOf inc.found.tree.files := by
  rw [treeVisits_eq, Tree.files, sizeOf]
  induction inc.found.tree.sorted with
  | nil => rfl
  | cons e es ih =>
    obtain ⟨rel, kind⟩ := e
    cases kind with
    | file inode links data =>
      rw [List.map_cons, List.filter_cons_of_pos rfl, List.map_cons, List.sum_cons, ih]
      rfl
    | _ => exact ih

/-- The counted files have the bytes that the manifest counts. -/
theorem size_countedFiles (host : Host) (paths : List PosixPath) :
    ((countedFiles host paths).map Visit.size).sum = (paths.map (entryBytes host)).sum := by
  induction paths with
  | nil => rfl
  | cons path paths ih =>
    rw [List.map_cons, List.sum_cons, ← ih, entryBytes_eq, countedFiles, countedFiles, includes,
      includes]
    cases hfound : host.lookup path with
    | none =>
      rw [List.filterMap_cons_none (by rw [hfound]; rfl)]
      exact (Nat.zero_add _).symm
    | some found =>
      rw [List.filterMap_cons_some (by rw [hfound]; rfl), List.flatMap_cons, List.map_append,
        List.sum_append, size_treeVisits]
      rfl

/-- **The manifest counts the files** of the included paths. -/
theorem manifestCounts {host : Host} {createdAt : String} {dryRun : Bool} {include_ : List String}
    {paths : List PosixPath} (hpaths : include_.mapM (expanduser host) = .ok paths) :
    ∃ manifest, backupManifestForPaths host createdAt dryRun include_ = .ok manifest
      ∧ ManifestCounts host paths manifest := by
  refine ⟨_, by rw [backupManifestForPaths, hpaths, Fallible.bind_ok], ?_, fun path _ => ?_, ?_⟩
  · rw [Dict.get?_set_of_ne _ _ (by decide)]
    rfl
  · rw [manifestEntry_size, size_countedFiles, List.map_singleton, List.sum_singleton]
  · rw [Dict.get?_set_of_ne _ _ (by decide), size_countedFiles]
    rfl

/-- **An archive holds every file** that the manifest counts exactly when the
included paths with files are no links, the archive is none of the files, no
two files are links to one, and included paths with one last name have their
files apart. -/
theorem archive_holds_iff (host : Host) (archivePath : PosixPath) (createdAt : String)
    (dryRun : Bool) (include_ : List String) (paths : List PosixPath)
    (hpaths : include_.mapM (expanduser host) = .ok paths) :
    ∃ members manifest, archiveBackupPaths host archivePath include_ = .ok members
      ∧ backupManifestForPaths host createdAt dryRun include_ = .ok manifest
      ∧ ManifestCounts host paths manifest
      ∧ (HoldsEveryFile host paths members ↔ Recoverable host paths (abspath host archivePath)) := by
  obtain ⟨manifest, hmanifest, hcounts⟩ := manifestCounts hpaths
  refine ⟨(archived (abspath host archivePath) (allVisits host paths)).members, manifest, ?_,
    hmanifest, hcounts, recoverable_of_holds, holds_of_recoverable⟩
  rw [archiveBackupPaths, hpaths, allVisits_eq]
  rfl

/-! ## §8. Directories of one name. -/

/-- A directory with one file in it. -/
def fileTree (name : String) (inode : Nat) (data : List Nat) : Tree where
  entries := [([], .directory), ([name], .file (inode, 1) 1 data)]
  nodup := by simp
  root := ⟨_, List.mem_cons_self⟩
  below := by simp

/-- A host with `/srv/app/log`, `/var/app/log` and `/etc/app/conf`. -/
def threeApps : Host where
  cwd := ["root"]
  homeOf _ := none
  lookup path :=
    if path = PosixPath.ofString "/srv/app" then some ⟨false, fileTree "log" 7 [104]⟩
    else if path = PosixPath.ofString "/var/app" then some ⟨false, fileTree "log" 8 [105]⟩
    else if path = PosixPath.ofString "/etc/app" then some ⟨false, fileTree "conf" 9 [106]⟩
    else none

theorem threeApps_counted :
    countedFiles threeApps [PosixPath.ofString "/srv/app", PosixPath.ofString "/etc/app"]
      = [⟨PosixPath.ofString "/srv/app/log", ["app", "log"], .file (7, 1) 1 [104]⟩,
        ⟨PosixPath.ofString "/etc/app/conf", ["app", "conf"], .file (9, 1) 1 [106]⟩] := by
  decide +kernel

/-- Two directories of one name are held when their files have different
names. -/
theorem two_apps_held : ∃ members manifest,
    archiveBackupPaths threeApps (PosixPath.ofString "/b/a.tar.gz") ["/srv/app", "/etc/app"]
      = .ok members
    ∧ backupManifestForPaths threeApps "" false ["/srv/app", "/etc/app"] = .ok manifest
    ∧ manifest.get? "total_bytes" = some (.int 2)
    ∧ HoldsEveryFile threeApps [PosixPath.ofString "/srv/app", PosixPath.ofString "/etc/app"]
      members := by
  obtain ⟨members, manifest, hmembers, hmanifest, hcounts, hiff⟩ :=
    archive_holds_iff threeApps (PosixPath.ofString "/b/a.tar.gz") "" false ["/srv/app", "/etc/app"]
      [PosixPath.ofString "/srv/app", PosixPath.ofString "/etc/app"] (by decide +kernel)
  have hincludes : includes threeApps
      [PosixPath.ofString "/srv/app", PosixPath.ofString "/etc/app"]
      = [⟨PosixPath.ofString "/srv/app", false, fileTree "log" 7 [104]⟩,
        ⟨PosixPath.ofString "/etc/app", false, fileTree "conf" 9 [106]⟩] := rfl
  have htotal : manifest.get? "total_bytes" = some (.int 2) := by
    rw [hcounts.total, threeApps_counted]
    rfl
  refine ⟨members, manifest, hmembers, hmanifest, htotal, hiff.mpr ⟨?_, ?_, ?_, ?_⟩⟩
  · rw [hincludes]
    exact List.forall_mem_cons.mpr ⟨nofun, List.forall_mem_singleton.mpr nofun⟩
  · rw [threeApps_counted]
    exact List.forall_mem_cons.mpr
      ⟨by decide +kernel, List.forall_mem_singleton.mpr (by decide +kernel)⟩
  · rw [threeApps_counted]
    exact List.pairwise_pair.mpr (by simp [Visit.SameFile])
  · rw [hincludes]
    refine List.pairwise_pair.mpr ⟨fun _ => ?_, fun _ => ?_⟩ <;> decide +kernel

/-- The directories with a `log`: the two files are stored under one name. -/
theorem second_log_overwrites : ∃ members,
    archiveBackupPaths threeApps (PosixPath.ofString "/b/a.tar.gz") ["/srv/app", "/var/app"]
      = .ok members
    ∧ members = [⟨["app"], .directory⟩, ⟨["app", "log"], .file [104]⟩, ⟨["app"], .directory⟩,
        ⟨["app", "log"], .file [105]⟩]
    ∧ ¬ HoldsEveryFile threeApps [PosixPath.ofString "/srv/app", PosixPath.ofString "/var/app"]
        members := by
  refine ⟨_, by decide +kernel, rfl, fun h => ?_⟩
  have hnames : (countedFiles threeApps
      [PosixPath.ofString "/srv/app", PosixPath.ofString "/var/app"]).map Visit.name
      = [["app", "log"], ["app", "log"]] := by decide +kernel
  have hdistinct := h.distinct
  rw [hnames] at hdistinct
  exact absurd hdistinct (by decide)

end Hmn.Backup
