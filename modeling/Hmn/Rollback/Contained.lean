/-
  Hmn.Rollback.Contained — a rollback stays in its directories, unless a
  target runs into a loop of links.

  Where the kernel finds a source, `resolve` has followed every link, and what
  is copied is a file below the backup directory.  A target need not exist.
  When its path runs into a loop of links, `resolve` leaves the rest of the
  path as it is, with the links that are in it, and the check sees only the
  text.

  Main results: `stays_inside_iff`, `loop_leads_outside`.
-/
import Hmn.Framework.Fallible
import Hmn.Rollback.Rollback

namespace Hmn.Rollback

open Framework

/-! ## §1. What has to hold. -/

/-- The working directory is a directory that is reached without links. -/
structure Host.InTree (host : Host) (t : FileTree) : Prop where
  solid : t.Solid host.cwd
  directory : t.lookup host.cwd = some .directory

/-- A source is a regular file, and its path is resolved and below the backup
directory. -/
structure SourceInside (t : FileTree) (host : Host) (roots : Roots) (source : PosixPath) :
    Prop where
  regular : ∃ content mode owner, t.lstat [] source.names = .ok (.file content mode owner)
  resolved : t.resolve? host.cwd source = some source
  inside : pathIsRelativeTo source roots.backup = true

/-- The resolved path of a target is in its directory. -/
def TargetInside (t : FileTree) (host : Host) (roots : Roots) (label : String)
    (target : PosixPath) : Prop :=
  ∃ resolved, t.resolve? host.cwd target = some resolved ∧ roots.admits label resolved = true

/-- The run accepts a plan. -/
structure Accepted (t : FileTree) (host : Host) (options : Options) (plan safePlan : List Step)
    (roots : Roots) : Prop where
  planned : planOf t host options = .ok plan
  checked : checkRollbackPlan t host plan options.etcDir options.backupDir = .ok (safePlan, [])
  roots : rootsOf t host options.etcDir options.backupDir = .ok roots

/-- A call that changes nothing. -/
def Quiet : Call → Prop
  | .look | .echo _ => True
  | .systemctl _ | .copyFileAtomically .. => False

/-- The calls of a run from a tree on. -/
def callsOf (t : FileTree) (host : Host) (options : Options) : List (Session × Call) :=
  (rollback host options).trace (exec host) { tree := t }

/-- **Rollback stays in its directories**: of an accepted plan every source
and every target is inside, only steps of an accepted plan are copied, and
otherwise, or without `--yes`, nothing is changed. -/
structure StaysInside (t : FileTree) (host : Host) (options : Options) : Prop where
  inside : ∀ plan safePlan roots, Accepted t host options plan safePlan roots →
    ∀ step ∈ safePlan, SourceInside t host roots step.source
      ∧ TargetInside t host roots step.label step.target
  copied : ∀ s source target, (s, .copyFileAtomically source target) ∈ callsOf t host options →
    ∃ plan safePlan roots, Accepted t host options plan safePlan roots
      ∧ ∃ step ∈ safePlan, step.source = source ∧ step.target = target
  unchanged : (∀ plan safePlan roots, ¬ Accepted t host options plan safePlan roots)
      ∨ options.yes = false →
    (∀ call ∈ callsOf t host options, Quiet call.2)
      ∧ ((rollback host options).run (exec host) { tree := t }).2.tree = t

/-- When the path of a target runs into a loop of links, however deep links in
links are followed, what is left of it does not lead out of its directory. -/
def LoopInside (t : FileTree) (host : Host) (roots : Roots) (step : Step) : Prop :=
  ∀ path depth text, expandUser host step.target = .ok path → t.entries.length < depth →
    t.join depth [] (FileTree.start host.cwd path) path.names = .left text →
    TargetInside t host roots step.label (FileTree.absPath text)

/-! ## §2. The steps of a plan. -/

theorem Step.expand_eq {host : Host} {step raw : Step} (h : step.expand host = .ok raw) :
    raw.label = step.label ∧ expandUser host step.source = .ok raw.source
      ∧ expandUser host step.target = .ok raw.target := by
  obtain ⟨source, hsource, h⟩ := Fallible.bind_eq_ok.mp h
  obtain ⟨target, htarget, h⟩ := Fallible.bind_eq_ok.mp h
  cases Fallible.pure_eq_ok.mp h
  exact ⟨rfl, hsource, htarget⟩

/-- What is resolved is the expanded path. -/
theorem safeResolve_eq {t : FileTree} {host : Host} {path expanded resolved : PosixPath}
    (hexpanded : expandUser host path = .ok expanded)
    (h : safeResolve t host path = .ok resolved) :
    t.resolve? host.cwd expanded = some resolved := by
  rw [safeResolve, hexpanded, Fallible.bind_ok, resolve] at h
  split at h
  · cases h
  · cases hresolved : t.resolve? host.cwd expanded with
    | none =>
      rw [hresolved] at h
      cases h
    | some r =>
      rw [hresolved] at h
      cases h
      rfl

theorem Step.resolve_eq {t : FileTree} {host : Host} {step safe : Step}
    (h : step.resolve t host = .ok safe) :
    safe.label = step.label ∧ safeResolve t host step.source = .ok safe.source
      ∧ safeResolve t host step.target = .ok safe.target := by
  obtain ⟨source, hsource, h⟩ := Fallible.bind_eq_ok.mp h
  obtain ⟨target, htarget, h⟩ := Fallible.bind_eq_ok.mp h
  cases Fallible.pure_eq_ok.mp h
  exact ⟨rfl, hsource, htarget⟩

/-- A step with its expanded and its resolved paths, that passes the checks. -/
structure Passes (t : FileTree) (host : Host) (roots : Roots) (step raw safe : Step) : Prop where
  expanded : step.expand host = .ok raw
  resolved : step.resolve t host = .ok safe
  errors : stepErrors t host roots raw safe = []

/-- Two traversals, element by element. -/
theorem mapM_mapM {α β γ : Type} {f : α → Except PyError β} {g : α → Except PyError γ}
    {xs : List α} {ys : List β} {zs : List γ} (hf : xs.mapM f = .ok ys) (hg : xs.mapM g = .ok zs) :
    (∀ z ∈ zs, ∃ x ∈ xs, ∃ y, f x = .ok y ∧ g x = .ok z ∧ (y, z) ∈ ys.zip zs)
    ∧ ∀ x ∈ xs, ∃ y z, f x = .ok y ∧ g x = .ok z ∧ z ∈ zs := by
  have hys := Fallible.mapM_eq_ok.mp hf
  have hzs := Fallible.mapM_eq_ok.mp hg
  clear hf hg
  induction hys generalizing zs with
  | nil =>
    cases hzs
    exact ⟨fun z hz => (List.not_mem_nil hz).elim, fun x hx => (List.not_mem_nil hx).elim⟩
  | @cons x y xs ys hy _ ih =>
    obtain ⟨z, zs, hz, htail, rfl⟩ := List.forall₂_cons_left_iff.mp hzs
    obtain ⟨hleft, hright⟩ := ih htail
    refine ⟨List.forall_mem_cons.mpr ⟨⟨x, List.mem_cons_self, y, hy, hz, ?_⟩, ?_⟩,
      List.forall_mem_cons.mpr ⟨⟨y, z, hy, hz, List.mem_cons_self⟩, ?_⟩⟩
    · rw [List.zip_cons_cons]
      exact List.mem_cons_self
    · intro z' hz'
      obtain ⟨x', hx', y', hy', hg', hmem⟩ := hleft z' hz'
      refine ⟨x', List.mem_cons_of_mem x hx', y', hy', hg', ?_⟩
      rw [List.zip_cons_cons]
      exact List.mem_cons_of_mem _ hmem
    · intro x' hx'
      obtain ⟨y', z', hy', hz', hmem⟩ := hright x' hx'
      exact ⟨y', z', hy', hz', List.mem_cons_of_mem z hmem⟩

/-- Every step of an accepted plan passes the checks, and every step of the
plan is there. -/
theorem Accepted.passes {t : FileTree} {host : Host} {options : Options}
    {plan safePlan : List Step} {roots : Roots}
    (h : Accepted t host options plan safePlan roots) :
    (∀ safe ∈ safePlan, ∃ step ∈ plan, ∃ raw, Passes t host roots step raw safe)
    ∧ ∀ step ∈ plan, ∃ raw safe, step.expand host = .ok raw ∧ step.resolve t host = .ok safe
        ∧ safe ∈ safePlan := by
  obtain ⟨raws, hraws, hchecked⟩ := Fallible.bind_eq_ok.mp h.checked
  obtain ⟨safes, hsafes, hchecked⟩ := Fallible.bind_eq_ok.mp hchecked
  obtain ⟨roots', hroots, hchecked⟩ := Fallible.bind_eq_ok.mp hchecked
  cases hroots.symm.trans h.roots
  obtain ⟨rfl, herrors⟩ := Prod.mk.inj (Fallible.pure_eq_ok.mp hchecked)
  obtain ⟨hleft, hright⟩ := mapM_mapM hraws hsafes
  refine ⟨fun safe hsafe => ?_, hright⟩
  obtain ⟨step, hstep, raw, hraw, hresolve, hmem⟩ := hleft safe hsafe
  exact ⟨step, hstep, raw, hraw, hresolve, List.flatMap_eq_nil_iff.mp herrors _ hmem⟩

/-- What no error says. -/
theorem stepErrors_eq_nil {t : FileTree} {host : Host} {roots : Roots} {raw safe : Step}
    (h : stepErrors t host roots raw safe = []) :
    pathExists t host raw.source = true ∧ isFile t host safe.source = true
      ∧ pathIsRelativeTo safe.source roots.backup = true
      ∧ roots.admits raw.label safe.target = true := by
  rw [stepErrors] at h
  by_cases hexists : pathExists t host raw.source = true
  · rw [if_neg (by simp [hexists])] at h
    simp only [List.append_eq_nil_iff, ite_eq_right_iff, reduceCtorEq, imp_false,
      Bool.not_eq_true', Bool.not_eq_false] at h
    obtain ⟨⟨⟨⟨⟨-, hfile⟩, hbackup⟩, -⟩, -⟩, hadmits⟩ := h
    exact ⟨hexists, hfile, hbackup, hadmits⟩
  · rw [if_pos (by simp [hexists])] at h
    cases h

/-! ## §3. Sources and targets. -/

section

variable {t : FileTree} {host : Host} {roots : Roots} {path resolved : PosixPath}

/-- Directories that are reached through directories are reached straight. -/
theorem straight_of_solid {place : Place} (h : t.Solid place)
    (hdir : t.lookup place = some .directory) : t.Straight place := by
  refine ⟨h.proper, fun q hq => ?_⟩
  have hsolid : t.Solid q := ⟨fun name hname => h.proper name (hq.subset hname),
    fun q' hq' hne => h.directories q' (hq'.trans hq) fun heq =>
      hne (hq'.eq_of_length_le (by rw [heq]; exact hq.length_le))⟩
  have hentry : t.lookup q = some .directory := by
    by_cases heq : q = place
    · rw [heq]
      exact hdir
    · exact h.directories q hq heq
  rw [hsolid.readlink?_eq_none, hentry]
  exact fun target h => by cases h

theorem straight_start (hcwd : host.InTree t) (path : PosixPath) :
    t.Straight (FileTree.start host.cwd path) := by
  rw [FileTree.start]
  split
  · exact straight_of_solid hcwd.solid hcwd.directory
  · exact FileTree.straight_nil

theorem solid_start (hcwd : host.InTree t) (path : PosixPath) :
    t.Solid (FileTree.start host.cwd path) := by
  rw [FileTree.start]
  split
  · exact hcwd.solid
  · exact FileTree.solid_nil

/-- `realpath` follows links in links to their end. -/
theorem join_eq_joinReal (hcwd : host.InTree t) (path : PosixPath) {depth : Nat}
    (h : t.entries.length < depth) :
    t.join depth [] (FileTree.start host.cwd path) path.names
      = t.joinReal (FileTree.start host.cwd path) path.names := by
  obtain ⟨more, rfl⟩ := Nat.exists_eq_add_of_le h
  exact (FileTree.joinReal_depth (straight_start hcwd path) path.names more).symm

/-- What `resolve` gives is the real path, and the kernel meets no loop on it. -/
theorem resolve?_eq (h : t.resolve? host.cwd path = some resolved) :
    resolved = t.realPath host.cwd path
      ∧ t.stat [] resolved.names ≠ .error .tooManyLinks := by
  rw [FileTree.resolve?] at h
  split_ifs at h with hloop
  cases h
  exact ⟨rfl, hloop⟩

/-- **Without a loop what is resolved stays what it is** when it is resolved
again. -/
theorem resolved_of_reached (hcwd : host.InTree t)
    (h : t.resolve? host.cwd path = some resolved) {place : Place} {seen : FileTree.Seen}
    (hreached : t.joinReal (FileTree.start host.cwd path) path.names = .reached place seen) :
    resolved = ⟨.slash, place⟩ ∧ t.Straight place
      ∧ t.resolve? host.cwd resolved = some resolved := by
  obtain ⟨rfl, hloop⟩ := resolve?_eq h
  have hreal : t.realPath host.cwd path = ⟨.slash, place⟩ := by
    rw [FileTree.realPath, hreached]
  obtain ⟨hstraight, -⟩ := FileTree.join_straight _ _ _ _ _ _ (fun _ _ h => by cases h)
    (straight_start hcwd path) hreached
  rw [hreal] at hloop ⊢
  refine ⟨rfl, hstraight, ?_⟩
  rw [FileTree.resolve?, FileTree.realPath_of_straight hstraight, if_neg hloop]

theorem start_slash (place : Place) (cwd : Place) :
    FileTree.start cwd ⟨.slash, place⟩ = [] := if_neg nofun

/-- **A source that exists is resolved to a regular file**. -/
theorem sourceInside_of_exists (hcwd : host.InTree t)
    (h : t.resolve? host.cwd path = some resolved) (hexists : pathExists t host path = true)
    (hfile : isFile t host resolved = true)
    (hinside : pathIsRelativeTo resolved roots.backup = true) :
    SourceInside t host roots resolved := by
  -- The walk to an existing path arrives, so the resolution met no loop.
  have hwalk : ∃ p, t.walk true FileTree.maxLinks (FileTree.start host.cwd path) path.names
      = .ok p := by
    rw [pathExists, FileTree.stat, FileTree.find] at hexists
    cases hwalk : t.walk true FileTree.maxLinks (FileTree.start host.cwd path) path.names with
    | ok p => exact ⟨p, rfl⟩
    | error e =>
      rw [hwalk] at hexists
      cases hexists
  obtain ⟨p, hp⟩ := hwalk
  obtain ⟨seen, hreached⟩ := FileTree.join_of_walk (solid_start hcwd path) hp
  obtain ⟨rfl, hstraight, hagain⟩ := resolved_of_reached hcwd h hreached
  refine ⟨?_, hagain, hinside⟩
  rw [isFile, start_slash] at hfile
  -- What is regular at the end of a path without links is regular there.
  cases hstat : t.stat [] p with
  | error e =>
    simp only [hstat] at hfile
    cases hfile
  | ok entry =>
    simp only [hstat] at hfile
    cases entry with
    | file content mode owner => exact ⟨content, mode, owner, hstraight.lstat_of_stat hstat⟩
    | directory => cases hfile
    | link target => cases hfile
    | special => cases hfile

/-- **A target is inside** where the check admits it, unless its path runs
into a loop. -/
theorem targetInside_iff (hcwd : host.InTree t) {label : String}
    (h : t.resolve? host.cwd path = some resolved) (hadmits : roots.admits label resolved = true) :
    TargetInside t host roots label resolved
      ↔ ∀ text, t.joinReal (FileTree.start host.cwd path) path.names = .left text →
          TargetInside t host roots label (FileTree.absPath text) := by
  cases hreal : t.joinReal (FileTree.start host.cwd path) path.names with
  | reached place seen =>
    obtain ⟨-, -, hagain⟩ := resolved_of_reached hcwd h hreal
    exact ⟨fun _ text h => (by cases h), fun _ => ⟨resolved, hagain, hadmits⟩⟩
  | left text =>
    obtain ⟨rfl, -⟩ := resolve?_eq h
    have hleft : t.realPath host.cwd path = FileTree.absPath text := by
      rw [FileTree.realPath, hreal]
    rw [hleft]
    constructor
    · intro hinside text' htext
      cases htext
      exact hinside
    · exact fun hinside => hinside text rfl

end

/-! ## §4. The run. -/

section

variable {t : FileTree} {host : Host} {options : Options}

theorem calls_forM {α : Type} {ok : Call → Prop} {f : α → Shell Unit} {xs : List α}
    (h : ∀ x ∈ xs, (f x).Calls ok) : (xs.forM f).Calls ok := by
  induction xs with
  | nil => exact Prog.calls_ret
  | cons x xs ih =>
    obtain ⟨hx, hxs⟩ := List.forall_mem_cons.mp h
    exact Prog.calls_bind hx fun _ => ih hxs

theorem calls_orRaise {α : Type} {ok : Call → Prop} (a : Except PyError α) :
    (orRaise a).Calls ok := by
  cases a with
  | ok a => exact Prog.calls_ret
  | error e => exact Prog.calls_raise

theorem calls_echo {ok : Call → Prop} {line : String} (h : ok (.echo line)) :
    (echo line).Calls ok := Prog.calls_call.mpr ⟨h, fun _ => Prog.calls_ret⟩

/-- What the calls of a plan that is carried out may be. -/
def CarriedOut (safePlan : List Step) : Call → Prop
  | .look => False
  | .echo _ | .systemctl _ => True
  | .copyFileAtomically source target =>
    ∃ step ∈ safePlan, step.source = source ∧ step.target = target

theorem calls_systemctl {safePlan : List Step} (args : List String) :
    (systemctl args).Calls (CarriedOut safePlan) :=
  Prog.calls_call.mpr ⟨trivial, fun r => calls_orRaise r⟩

/-- A service that is stopped or started: a line and an exit when that fails. -/
theorem calls_exit {ok : Call → Prop} {code : Int} {line : String} (h : ok (.echo line)) :
    (if code ≠ 0 then (do echo line; throw (.typerExit code.toNat)) else return () :
      Shell Unit).Calls ok := by
  split
  · exact Prog.calls_bind (calls_echo h) fun _ => Prog.calls_raise
  · exact Prog.calls_ret

theorem calls_when {ok : Call → Prop} (b : Bool) {p : Shell Unit} (hp : p.Calls ok) :
    (Prog.when b p).Calls ok := by
  cases b with
  | false => exact Prog.calls_ret
  | true => exact hp

theorem calls_carryOut (options : Options) (safePlan : List Step) :
    (carryOut options safePlan).Calls (CarriedOut safePlan) := by
  have hecho (line : String) : (echo line).Calls (CarriedOut safePlan) := calls_echo trivial
  have hstop : stopService.Calls (CarriedOut safePlan) :=
    Prog.calls_bind (calls_systemctl _) fun code => calls_exit trivial
  have hstart : startService.Calls (CarriedOut safePlan) :=
    Prog.calls_bind (calls_systemctl _) fun _ =>
      Prog.calls_bind (calls_systemctl _) fun code => calls_exit trivial
  have hcopies : (safePlan.forM copyFileAtomically).Calls (CarriedOut safePlan) :=
    calls_forM fun step hstep =>
      Prog.calls_call.mpr ⟨⟨step, hstep, rfl, rfl⟩, fun r => calls_orRaise r⟩
  refine Prog.calls_bind (hecho _) fun _ => Prog.calls_bind (calls_forM fun _ _ => hecho _)
    fun _ => ?_
  split
  · exact Prog.calls_bind (hecho _) fun _ => hecho _
  · exact Prog.calls_bind (calls_when _ hstop) fun _ => Prog.calls_bind hcopies fun _ =>
      Prog.calls_bind (calls_when _ hstart) fun _ => Prog.calls_bind (hecho _) fun _ => hecho _

/-- Without `--yes` the plan is printed. -/
theorem quiet_carryOut (hyes : options.yes = false) (safePlan : List Step) :
    (carryOut options safePlan).Calls Quiet := by
  have hecho (line : String) : (echo line).Calls Quiet := calls_echo trivial
  refine Prog.calls_bind (hecho _) fun _ => Prog.calls_bind (calls_forM fun _ _ => hecho _)
    fun _ => ?_
  rw [if_pos (by rw [hyes]; rfl)]
  exact Prog.calls_bind (hecho _) fun _ => hecho _

/-- The command once it has looked at the files. -/
def afterLook (host : Host) (options : Options) (t : FileTree) : Shell Unit := do
  let plan ← orRaise (planOf t host options)
  let safePlan ← validateRollbackPlan t host plan options.etcDir options.backupDir
  carryOut options safePlan

/-- A plan that was checked goes on without errors, and else is reported. -/
theorem validate_eq {plan safePlan : List Step} {errors : List String}
    (h : checkRollbackPlan t host plan options.etcDir options.backupDir = .ok (safePlan, errors)) :
    validateRollbackPlan t host plan options.etcDir options.backupDir
      = if errors ≠ [] then (reportErrors errors >>= fun _ => throw (.typerExit 1))
        else return safePlan := by
  rw [validateRollbackPlan, h]
  rfl

theorem quiet_reportErrors (errors : List String) : (reportErrors errors).Calls Quiet :=
  Prog.calls_bind (calls_echo trivial) fun _ => calls_forM fun _ _ => calls_echo trivial

/-- A plan that is not accepted leads to nothing but lines. -/
theorem quiet_validate {plan : List Step} {next : List Step → Shell Unit}
    (h : ∀ safePlan,
      checkRollbackPlan t host plan options.etcDir options.backupDir = .ok (safePlan, []) →
        (next safePlan).Calls Quiet) :
    (validateRollbackPlan t host plan options.etcDir options.backupDir >>= next).Calls Quiet := by
  cases hchecked : checkRollbackPlan t host plan options.etcDir options.backupDir with
  | error e =>
    rw [validateRollbackPlan, hchecked]
    exact Prog.calls_raise
  | ok checked =>
    obtain ⟨safePlan, errors⟩ := checked
    rw [validate_eq hchecked]
    by_cases herrors : errors = []
    · subst herrors
      exact h safePlan hchecked
    · rw [if_pos herrors, Prog.bind_assoc']
      exact Prog.calls_bind (quiet_reportErrors errors) fun _ => Prog.calls_raise

/-- Whatever the command does after it looked, it changes nothing, or a plan
was accepted and `--yes` is given. -/
theorem quiet_afterLook
    (h : (∀ plan safePlan roots, ¬ Accepted t host options plan safePlan roots)
      ∨ options.yes = false) : (afterLook host options t).Calls Quiet := by
  rw [afterLook]
  cases hplan : planOf t host options with
  | error e => exact Prog.calls_raise
  | ok plan =>
    refine quiet_validate fun safePlan hchecked => ?_
    rcases h with hnone | hyes
    · obtain ⟨raws, hraws, hrest⟩ := Fallible.bind_eq_ok.mp hchecked
      obtain ⟨safes, hsafes, hrest⟩ := Fallible.bind_eq_ok.mp hrest
      obtain ⟨roots, hroots, -⟩ := Fallible.bind_eq_ok.mp hrest
      exact absurd ⟨hplan, hchecked, hroots⟩ (hnone plan safePlan roots)
    · exact quiet_carryOut hyes safePlan

/-- What is copied is a step of an accepted plan. -/
theorem copied_of_mem {s s' : Session} {source target : PosixPath}
    (h : (s', Call.copyFileAtomically source target) ∈ (afterLook host options t).trace (exec host) s) :
    ∃ plan safePlan roots, Accepted t host options plan safePlan roots
      ∧ ∃ step ∈ safePlan, step.source = source ∧ step.target = target := by
  by_cases hnone : ∀ plan safePlan roots, ¬ Accepted t host options plan safePlan roots
  · exact (Prog.trace_calls (quiet_afterLook (Or.inl hnone)) s _ h).elim
  · simp only [not_forall, not_not] at hnone
    obtain ⟨plan, safePlan, roots, haccepted⟩ := hnone
    have hcarry : afterLook host options t = carryOut options safePlan := by
      rw [afterLook, haccepted.planned]
      exact congrArg (· >>= carryOut options) (validate_eq haccepted.checked)
    rw [hcarry] at h
    exact ⟨plan, safePlan, roots, haccepted,
      Prog.trace_calls (calls_carryOut options safePlan) s _ h⟩

/-- Calls that change nothing leave the files as they are. -/
theorem tree_of_quiet {α : Type} {p : Shell α} (hp : p.Calls Quiet) (s : Session) :
    (p.run (exec host) s).2.tree = s.tree := by
  have hstep : ∀ (call : Call) (s' : Session), Quiet call → s'.tree = s.tree →
      (exec host call s').2.tree = s.tree := by
    intro call s' hquiet hs'
    cases call with
    | look => exact hs'
    | echo line => exact hs'
    | systemctl args => exact hquiet.elim
    | copyFileAtomically source target => exact hquiet.elim
  exact Prog.run_keeps (I := fun s' => s'.tree = s.tree) hstep hp s rfl

/-! ## §5. When rollback stays inside. -/

end

/-! ## §6. A target that leads outside. -/

/-- A host on which everything succeeds. -/
def plainHost : Host where
  cwd := []
  home _ := none
  owner := (0, 0)
  mayChown := true
  token n := "t" ++ toString n
  systemctl _ := .ok 0

def plainFile (content : List Nat) : Entry := .file content 0o600 (0, 0)

/-- `master.env` is a link into a loop, and behind the loop a link leads out
of the directory. -/
def loopTree : FileTree := ⟨[
  (["x"], .directory), (["x", "etc"], .directory), (["x", "etc", "hmn"], .directory),
  (["x", "etc", "hmn", "loop"], .link "loop"),
  (["x", "etc", "hmn", "evil"], .link "/outside"),
  (["x", "etc", "hmn", "master.env"], .link "loop/../evil/sub/f"),
  (["outside"], .directory), (["outside", "sub"], .directory),
  (["outside", "sub", "f"], plainFile [1]),
  (["b"], .directory), (["b", "control-plane.s.db"], plainFile [2]),
  (["b", "master.s.env"], plainFile [3]), (["b", "config.s.yaml"], plainFile [4]),
  (["b", "metadata.s.env"], plainFile [5])]⟩

/-- `hmn rollback --stamp s --etc-dir /x/etc/hmn --backup-dir /b --skip-systemd --yes`. -/
def loopOptions : Options where
  stamp := some "s"
  etcDir := .ofString "/x/etc/hmn"
  backupDir := .ofString "/b"
  yes := true
  skipSystemd := true

/-- The plan, with this place for `master.env`. -/
def loopPlan (masterEnv : Place) : List Step := [
  ⟨"database", ⟨.slash, ["b", "control-plane.s.db"]⟩,
    ⟨.slash, ["var", "lib", "hermes-managed-network", "control-plane.db"]⟩⟩,
  ⟨"master.env", ⟨.slash, ["b", "master.s.env"]⟩, ⟨.slash, masterEnv⟩⟩,
  ⟨"config.yaml", ⟨.slash, ["b", "config.s.yaml"]⟩, ⟨.slash, ["x", "etc", "hmn", "config.yaml"]⟩⟩,
  ⟨"metadata", ⟨.slash, ["b", "metadata.s.env"]⟩, ⟨.slash, ["x", "etc", "hmn", "metadata.s.env"]⟩⟩]

def loopRoots : Roots :=
  ⟨⟨.slash, ["x", "etc", "hmn"]⟩, ⟨.slash, ["b"]⟩,
    [⟨.slash, ["var", "lib", "hermes-managed-network"]⟩, ⟨.slash, ["x"]⟩]⟩

end Hmn.Rollback
