/-
  Hmn.Docs.SyncContained — where the documentation centre is written.

  Every place is resolved under the root before anything is written, and a
  place outside it stops the whole run.  What is written then goes to the
  root's indexes, to one directory a host and to one a service, whose names
  are safe segments; a write that fails ends the run there.

  The places are taken from the plan, which was redacted as a whole: a root
  whose own text looks like a secret is rewritten in them.  Only then may a
  document be written to the root itself, and never outside it.

  Main result: `docs_apply_contained`.
-/
import Hmn.Docs.FreeText
import Hmn.Docs.RenameActions

namespace Hmn.Docs

open Framework

/-! ## §1. Runs of file calls. -/

/-- Paths are resolved by their names alone. -/
def Lexical {σ : Type} (cwd : List String) (exec : Prog.Exec files σ) : Prop :=
  ∀ path tree, exec (.resolve path) tree = (.ok (path.resolve cwd), tree)

section Runs

variable {σ α β : Type} {exec : Prog.Exec files σ} {tree tree' : σ}

theorem filesWritten_bind_error {program : FilePy α} {e : PyError} {f : α → FilePy β}
    (h : program.run exec tree = (.error e, tree')) :
    filesWritten exec (program >>= f) tree = filesWritten exec program tree := by
  rw [filesWritten, Prog.trace_bind_error exec _ _ h, filesWritten]

/-- A call that writes no file. -/
def writesNothing : FileOp → Bool
  | .writeText _ _ => false
  | _ => true

theorem filesWritten_of_calls {program : FilePy α}
    (h : program.Calls fun op : FileOp => writesNothing op = true) (tree : σ) :
    filesWritten exec program tree = [] := by
  refine List.filterMap_eq_nil_iff.mpr fun call hcall => ?_
  have hop : writesNothing call.2 = true := Prog.trace_calls h tree call hcall
  obtain ⟨s, op⟩ := call
  cases op with
  | writeText path text => cases hop
  | resolve path => rfl
  | mkdir path => rfl

/-- A list of programs that all return. -/
theorem run_mapM_ok {f : α → FilePy β} {xs : List α} {ys : List β}
    (h : (xs.mapM f).run exec tree = (.ok ys, tree')) :
    List.Forall₂ (fun x y => ∃ s s', (f x).run exec s = (.ok y, s')) xs ys := by
  induction xs generalizing ys tree with
  | nil =>
    cases h
    exact .nil
  | cons x xs ih =>
    rw [List.mapM_cons, Prog.run_bind] at h
    cases hx : (f x).run exec tree with
    | mk result s =>
      rw [hx] at h
      cases result with
      | error e => cases h
      | ok y =>
        dsimp only at h
        rw [Prog.run_bind] at h
        cases hxs : (xs.mapM f).run exec s with
        | mk result s' =>
          rw [hxs] at h
          cases result with
          | error e => cases h
          | ok zs =>
            cases h
            exact .cons ⟨_, _, hx⟩ (ih hxs)

end Runs

/-! ## §2. Resolving the places. -/

/-- The root itself or a place under it. -/
def Within (p root : PosixPath) : Prop := p = root ∨ p.Under root

instance (p root : PosixPath) : Decidable (Within p root) := inferInstanceAs (Decidable (_ ∨ _))

section Places

variable {σ : Type} {cwd : List String} {exec : Prog.Exec files σ} {tree tree' : σ}
  {root path relative : PosixPath}

theorem run_resolvePath (hexec : Lexical cwd exec) (path : PosixPath) (tree : σ) :
    (resolvePath path).run exec tree = (.ok (path.resolve cwd), tree) := by
  show (orRaise (exec (.resolve path) tree).1).run exec (exec (.resolve path) tree).2 = _
  rw [hexec]
  rfl

/-- A place that is relative to the root is within it. -/
theorem relativeFromRoot_ok (hexec : Lexical cwd exec) (hroot : root.Resolved)
    (h : (relativeFromRoot root path).run exec tree = (.ok relative, tree')) :
    tree' = tree ∧ relative.anchor = .relative
      ∧ path.resolve cwd = { root with names := root.names ++ relative.names } := by
  unfold relativeFromRoot at h
  rw [Prog.run_bind, run_resolvePath hexec] at h
  dsimp only at h
  split_ifs at h with hself
  · cases h
    refine ⟨rfl, rfl, ?_⟩
    rw [List.append_nil, ← hself]
  · cases hrelative : (path.resolve cwd).relativeTo? root with
    | none =>
      rw [hrelative] at h
      cases h
    | some found =>
      rw [hrelative] at h
      cases h
      obtain ⟨hanchor, -, hnames⟩ := PosixPath.relativeTo?_eq_some hrelative
      refine ⟨rfl, hanchor, ?_⟩
      rw [← hnames]
      exact PosixPath.mk.injEq .. ▸ ⟨hroot.1.symm, rfl⟩

/-- Where a place relative to the root is. -/
def placeOf (root relative : PosixPath) : PosixPath :=
  { root with names := root.names ++ relative.names }

theorem within_placeOf (root relative : PosixPath) : Within (placeOf root relative) root := by
  by_cases h : relative.names = []
  · refine .inl ?_
    unfold placeOf
    rw [h, List.append_nil]
  · refine .inr ⟨rfl, List.prefix_append _ _, fun heq => h ?_⟩
    exact List.append_right_eq_self.mp heq

/-- A place under a resolved root is its own place. -/
theorem resolve_placeOf (hroot : root.Resolved) {relative : PosixPath}
    (hanchor : relative.anchor = .relative) (hnames : ∀ name ∈ relative.names, name ≠ "..") :
    (root.joinPath relative).resolve cwd = placeOf root relative := by
  have hjoin : root.joinPath relative = placeOf root relative := if_pos hanchor
  rw [hjoin]
  refine @PosixPath.resolve_eq_self (placeOf root relative) ⟨hroot.1, fun name hname => ?_⟩ cwd
  rcases List.mem_append.mp hname with hname | hname
  · exact hroot.2 name hname
  · exact hnames name hname

theorem run_resolveTarget (hexec : Lexical cwd exec) (tree : σ) :
    (resolveTarget root relative).run exec tree
      = (if Within ((root.joinPath relative).resolve cwd) root then
          .ok ((root.joinPath relative).resolve cwd)
        else .error (.value ("target escapes root: " ++ ((root.joinPath relative).resolve cwd).text)),
        tree) := by
  unfold resolveTarget
  rw [Prog.run_bind, run_resolvePath hexec]
  dsimp only
  split_ifs with hescapes hwithin hwithin
  · rcases hwithin with hself | hunder
    · exact absurd hself hescapes.1
    · exact absurd hunder hescapes.2
  · rfl
  · rfl
  · rw [not_and_or, not_not, not_not] at hescapes
    exact absurd hescapes hwithin

end Places

/-! ## §3. The loop that writes. -/

section Loop

variable {σ : Type} {cwd : List String} {exec : Prog.Exec files σ} {tree tree' : σ}
  {root : PosixPath}

/-- Where a write goes. -/
def targetOf (cwd : List String) (root : PosixPath) (write : Write) : PosixPath :=
  (root.joinPath write.1).resolve cwd

theorem calls_resolvePath (path : PosixPath) :
    (resolvePath path).Calls fun op : FileOp => writesNothing op = true := by
  refine Prog.calls_call.mpr ⟨rfl, fun r => ?_⟩
  cases r
  · exact Prog.calls_raise
  · exact Prog.calls_ret

theorem calls_resolveTarget (root relative : PosixPath) :
    (resolveTarget root relative).Calls fun op : FileOp => writesNothing op = true := by
  refine Prog.calls_bind (calls_resolvePath _) fun target => ?_
  split
  · exact Prog.calls_raise
  · exact Prog.calls_ret

theorem calls_makeDirs (path : PosixPath) :
    (makeDirs path).Calls fun op : FileOp => writesNothing op = true := by
  refine Prog.calls_call.mpr ⟨rfl, fun r => ?_⟩
  cases r
  · exact Prog.calls_raise
  · exact Prog.calls_ret

theorem filesWritten_writeText (path : PosixPath) (text : String) (tree : σ) :
    filesWritten exec (writeText path text) tree = [(path, text)] := by
  unfold filesWritten writeText
  show List.filterMap _ ((tree, FileOp.writeText path text)
    :: (orRaise (exec (.writeText path text) tree).1).trace exec _) = _
  cases (exec (.writeText path text) tree).1 <;> rfl

/-- **One turn of the loop** writes its own file, within the root, or nothing;
when it returns it has written. -/
theorem applyWrite_files (hexec : Lexical cwd exec) (write : Write) (tree : σ) :
    (filesWritten exec (applyWrite root write) tree = []
        ∧ ∃ e s, (applyWrite root write).run exec tree = (.error e, s))
      ∨ filesWritten exec (applyWrite root write) tree = [(targetOf cwd root write, write.2)]
        ∧ Within (targetOf cwd root write) root := by
  have hnone : filesWritten exec (resolveTarget root write.1) tree = [] :=
    filesWritten_of_calls (calls_resolveTarget root write.1) tree
  have htarget := @run_resolveTarget σ cwd exec root write.1 hexec tree
  unfold applyWrite
  split_ifs at htarget with hwithin
  · rw [filesWritten_bind htarget, hnone, List.nil_append, Prog.run_bind, htarget]
    dsimp only
    have hdirs : filesWritten exec (makeDirs ((root.joinPath write.1).resolve cwd).parent) tree = [] :=
      filesWritten_of_calls (calls_makeDirs _) tree
    cases hmade : (makeDirs ((root.joinPath write.1).resolve cwd).parent).run exec tree with
    | mk result s =>
      cases result with
      | error e =>
        refine .inl ⟨?_, e, s, ?_⟩
        · rw [filesWritten_bind_error hmade, hdirs]
        · rw [Prog.run_bind, hmade]
      | ok u =>
        refine .inr ⟨?_, hwithin⟩
        rw [filesWritten_bind hmade, hdirs, List.nil_append]
        cases hwrite : (writeText ((root.joinPath write.1).resolve cwd) write.2).run exec s with
        | mk result s' =>
          cases result with
          | error e => rw [filesWritten_bind_error hwrite, filesWritten_writeText]; rfl
          | ok u =>
            rw [filesWritten_bind hwrite, filesWritten_writeText]
            rfl
  · obtain ⟨e, htarget⟩ : ∃ e, (resolveTarget root write.1).run exec tree = (.error e, tree) :=
      ⟨_, htarget⟩
    refine .inl ⟨?_, e, tree, ?_⟩
    · rw [filesWritten_bind_error htarget, hnone]
    · rw [Prog.run_bind, htarget]

/-- **The loop** writes the files in their order, up to where it fails. -/
theorem mapM_applyWrite_files (hexec : Lexical cwd exec) (writes : List Write) (tree : σ) :
    filesWritten exec (writes.mapM (applyWrite root)) tree
        <+: writes.map (fun write => (targetOf cwd root write, write.2))
      ∧ ∀ file ∈ filesWritten exec (writes.mapM (applyWrite root)) tree, Within file.1 root := by
  induction writes generalizing tree with
  | nil => exact ⟨List.nil_prefix, fun file hfile => absurd hfile List.not_mem_nil⟩
  | cons write writes ih =>
    rw [List.mapM_cons, List.map_cons]
    cases hrun : (applyWrite root write).run exec tree with
    | mk result s =>
      rcases applyWrite_files hexec write tree with ⟨hnone, e, s', herror⟩ | ⟨hone, hwithin⟩
      · rw [filesWritten_bind_error herror, hnone]
        exact ⟨List.nil_prefix, fun file hfile => absurd hfile List.not_mem_nil⟩
      · cases result with
        | error e =>
          rw [filesWritten_bind_error hrun, hone]
          refine ⟨List.cons_prefix_cons.mpr ⟨rfl, List.nil_prefix⟩, fun file hfile => ?_⟩
          rw [List.mem_singleton.mp hfile]
          exact hwithin
        | ok written =>
          -- What follows the rest of the loop makes no call.
          have hrest : filesWritten exec (writes.mapM (applyWrite root) >>= fun rest =>
              pure (written :: rest)) s = filesWritten exec (writes.mapM (applyWrite root)) s := by
            cases hmany : (writes.mapM (applyWrite root)).run exec s with
            | mk result s' =>
              cases result with
              | error e => exact filesWritten_bind_error hmany
              | ok rest =>
                rw [filesWritten_bind hmany]
                exact List.append_nil _
          obtain ⟨hleads, hin⟩ := ih s
          rw [filesWritten_bind hrun, hone, hrest, List.singleton_append]
          refine ⟨List.cons_prefix_cons.mpr ⟨rfl, hleads⟩, fun file hfile => ?_⟩
          rcases List.mem_cons.mp hfile with rfl | hfile
          · exact hwithin
          · exact hin file hfile

end Loop

/-! ## §4. What is to be written. -/

/-- The places of the indexes. -/
def indexPlaces (root : PosixPath) : List PosixPath :=
  [["docs", "README.md"], ["docs", "index.json"], ["docs", "server", "README.md"],
    ["service", "README.md"], ["service", "index.json"], ["service", "domain-mapping.json"],
    ["service", "runbook-mapping.json"]].map fun names => placeOf root ⟨.relative, names⟩

/-- The places of the documents, as the plan has them. -/
def plannedPlaces (cwd : List String) (plan : SyncPlan) : List PosixPath :=
  (plan.serverDocs.map ServerDoc.targetPath ++ plan.serviceDocs.map ServiceDoc.targetPath).map
    fun path => (PosixPath.ofString path).resolve cwd

section Build

variable {σ : Type} {cwd : List String} {exec : Prog.Exec files σ} {tree tree' : σ}
  {root rootPath : PosixPath} (alnum : Char → Bool) (plan : SyncPlan) (registry : ServiceRegistry)

/-- A document whose place is resolved is within the root, and is written
there. -/
theorem document_place (hexec : Lexical cwd exec) (hroot : root.Resolved) {path relative : PosixPath}
    (h : (relativeFromRoot root path).run exec tree = (.ok relative, tree')) (text : String) :
    targetOf cwd root (relative, text) = path.resolve cwd ∧ Within (path.resolve cwd) root := by
  obtain ⟨-, hanchor, hplace⟩ := relativeFromRoot_ok hexec hroot h
  have hnames : ∀ name ∈ relative.names, name ≠ ".." := by
    intro name hname
    refine (PosixPath.resolved_resolve cwd path).2 name ?_
    rw [hplace]
    exact List.mem_append_right _ hname
  have htarget : targetOf cwd root (relative, text) = placeOf root relative :=
    resolve_placeOf hroot hanchor hnames
  rw [htarget, hplace]
  exact ⟨rfl, within_placeOf root relative⟩

theorem serverWrite_place (hexec : Lexical cwd exec) (hroot : root.Resolved)
    {serviceDocs : List ServiceDoc} {entry : ServerDoc} {write : Write}
    (h : (serverWrite root serviceDocs entry).run exec tree = (.ok write, tree')) :
    targetOf cwd root write = (PosixPath.ofString entry.targetPath).resolve cwd
      ∧ Within ((PosixPath.ofString entry.targetPath).resolve cwd) root := by
  unfold serverWrite at h
  rw [Prog.run_bind] at h
  cases hrelative : (relativeFromRoot root (.ofString entry.targetPath)).run exec tree with
  | mk result s =>
    rw [hrelative] at h
    cases result with
    | error e => cases h
    | ok relative =>
      dsimp only at h
      cases htext : renderServerReadme entry serviceDocs with
      | error e =>
        rw [htext] at h
        cases h
      | ok text =>
        rw [htext] at h
        cases h
        exact document_place hexec hroot hrelative text

theorem serviceWrite_place (hexec : Lexical cwd exec) (hroot : root.Resolved)
    {entry : ServiceDoc} {write : Write}
    (h : (serviceWrite alnum root registry entry).run exec tree = (.ok write, tree')) :
    targetOf cwd root write = (PosixPath.ofString entry.targetPath).resolve cwd
      ∧ Within ((PosixPath.ofString entry.targetPath).resolve cwd) root := by
  unfold serviceWrite at h
  rw [Prog.run_bind] at h
  cases hrelative : (relativeFromRoot root (.ofString entry.targetPath)).run exec tree with
  | mk result s =>
    rw [hrelative] at h
    cases result with
    | error e => cases h
    | ok relative =>
      dsimp only at h
      cases hservice : registry.find? entry.serviceId with
      | none =>
        rw [hservice] at h
        cases h
      | some service =>
        rw [hservice] at h
        dsimp only at h
        cases htext : renderServiceReadme alnum entry service with
        | error e =>
          rw [htext] at h
          cases h
        | ok text =>
          rw [htext] at h
          cases h
          exact document_place hexec hroot hrelative text

theorem fixedWrites_places (hroot : root.Resolved) :
    (fixedWrites alnum rootPath plan).map (targetOf cwd root) = indexPlaces root := by
  have hplace : ∀ text names, PosixPath.ofString text = ⟨.relative, names⟩ →
      (∀ name ∈ names, name ≠ "..") → ∀ content,
        targetOf cwd root (.ofString text, content) = placeOf root ⟨.relative, names⟩ := by
    intro text names htext hnames content
    unfold targetOf
    rw [htext]
    exact resolve_placeOf hroot rfl hnames
  unfold fixedWrites indexPlaces
  simp only [List.map_cons, List.map_nil]
  rw [hplace "docs/README.md" ["docs", "README.md"] (by decide +kernel) (by decide),
    hplace "docs/index.json" ["docs", "index.json"] (by decide +kernel) (by decide),
    hplace "docs/server/README.md" ["docs", "server", "README.md"] (by decide +kernel) (by decide),
    hplace "service/README.md" ["service", "README.md"] (by decide +kernel) (by decide),
    hplace "service/index.json" ["service", "index.json"] (by decide +kernel) (by decide),
    hplace "service/domain-mapping.json" ["service", "domain-mapping.json"] (by decide +kernel)
      (by decide),
    hplace "service/runbook-mapping.json" ["service", "runbook-mapping.json"] (by decide +kernel)
      (by decide)]

theorem map_of_forall₂ {α β γ : Type} {f : α → γ} {g : β → γ} {P : γ → Prop} {xs : List α}
    {ys : List β} (h : List.Forall₂ (fun x y => g y = f x ∧ P (f x)) xs ys) :
    ys.map g = xs.map f ∧ ∀ z ∈ xs.map f, P z := by
  induction h with
  | nil => exact ⟨rfl, fun z hz => absurd hz List.not_mem_nil⟩
  | cons hxy _ ih =>
    refine ⟨?_, ?_⟩
    · rw [List.map_cons, List.map_cons, hxy.1, ih.1]
    · rw [List.map_cons, List.forall_mem_cons]
      exact ⟨hxy.2, ih.2⟩

/-- **When the writes are built**, every planned place is within the root, and
the writes go to the places of the indexes and of the documents. -/
theorem buildApplyWrites_ok (hexec : Lexical cwd exec) (hroot : root.Resolved) {writes : List Write}
    (h : (buildApplyWrites alnum plan registry rootPath root).run exec tree = (.ok writes, tree')) :
    writes.map (targetOf cwd root) = indexPlaces root ++ plannedPlaces cwd plan
      ∧ ∀ place ∈ plannedPlaces cwd plan, Within place root := by
  unfold buildApplyWrites at h
  rw [Prog.run_bind] at h
  cases hservers : (plan.serverDocs.mapM (serverWrite root plan.serviceDocs)).run exec tree with
  | mk result s =>
    rw [hservers] at h
    cases result with
    | error e => cases h
    | ok servers =>
      dsimp only at h
      rw [Prog.run_bind] at h
      cases hservices : (plan.serviceDocs.mapM (serviceWrite alnum root registry)).run exec s with
      | mk result s' =>
        rw [hservices] at h
        cases result with
        | error e => cases h
        | ok services =>
          dsimp only at h
          have hwrites : writes = fixedWrites alnum rootPath plan ++ servers ++ services := by
            rw [Prog.run_bind] at h
            split at h
            · cases h
              rfl
            · cases h
          obtain ⟨hservers, hin⟩ := @map_of_forall₂ _ _ _
            (fun entry : ServerDoc => (PosixPath.ofString entry.targetPath).resolve cwd)
            (targetOf cwd root) (fun place => Within place root) _ _ ((run_mapM_ok hservers).imp
              fun entry write hrun => serverWrite_place hexec hroot hrun.choose_spec.choose_spec)
          obtain ⟨hservices, hin'⟩ := @map_of_forall₂ _ _ _
            (fun entry : ServiceDoc => (PosixPath.ofString entry.targetPath).resolve cwd)
            (targetOf cwd root) (fun place => Within place root) _ _ ((run_mapM_ok hservices).imp
              fun entry write hrun =>
                serviceWrite_place alnum registry hexec hroot hrun.choose_spec.choose_spec)
          unfold plannedPlaces
          rw [hwrites, List.map_append, List.map_append, hservers, hservices,
            fixedWrites_places alnum plan hroot, List.map_append, List.map_map, List.map_map,
            List.append_assoc]
          refine ⟨rfl, fun place hplace => ?_⟩
          rcases List.mem_append.mp hplace with hplace | hplace
          · exact hin place hplace
          · exact hin' place hplace

end Build

/-! ## §5. The names of the documents. -/

theorem isSegment_plain {name : String} (h : IsSegment name.toList) :
    name ≠ "" ∧ name ≠ "." ∧ name ≠ ".." ∧ '/' ∉ name.toList
      ∧ ∀ c ∈ name.toList, c ≠ '=' ∧ c ≠ ':' := by
  have hstarts : ∀ text : String, text.toList.head? = some '.' → name ≠ text := by
    rintro text htext rfl
    exact absurd (h.starts '.' htext) (by decide)
  have hchar : ∀ c, isSegmentChar c = false → c ∉ name.toList := by
    intro c hc hmem
    rw [h.chars c hmem] at hc
    cases hc
  refine ⟨?_, hstarts _ rfl, hstarts _ rfl, hchar _ (by decide), ?_⟩
  · rintro rfl
    exact h.nonempty rfl
  · intro c hc
    constructor
    · rintro rfl
      exact hchar _ (by decide) hc
    · rintro rfl
      exact hchar _ (by decide) hc

/-- Joining a safe name goes one directory down. -/
theorem join_segment (path : PosixPath) {name : String} (hempty : name ≠ "") (hdot : name ≠ ".")
    (hslash : '/' ∉ name.toList) : path.join name = { path with names := path.names ++ [name] } := by
  have hparsed : PosixPath.ofString name = ⟨.relative, [name]⟩ := by
    have hround := @PosixPath.ofString_text ⟨.relative, [name]⟩ (by
      intro other hother
      rw [List.mem_singleton.mp hother]
      exact ⟨hempty, hdot, hslash⟩)
    have htext : PosixPath.text ⟨.relative, [name]⟩ = name := by
      unfold PosixPath.text PosixPath.Anchor.text
      rw [if_neg (fun h => List.cons_ne_nil _ _ h.2)]
      simp [Text.join]
    rw [htext] at hround
    exact hround
  unfold PosixPath.join
  rw [hparsed]
  rfl

/-- No name of the path looks like an assignment or a header. -/
def Unredacted (path : PosixPath) : Prop :=
  ∀ name ∈ path.names, ∀ c ∈ name.toList, c ≠ '=' ∧ c ≠ ':'

theorem redactText_text (alnum : Char → Bool) {path : PosixPath} (h : Unredacted path) :
    redactText alnum path.text = path.text := by
  have hjoin : ∀ names : List String, (∀ name ∈ names, ∀ c ∈ name.toList, c ≠ '=' ∧ c ≠ ':') →
      ∀ c ∈ (Text.join "/" names).toList, c ≠ '=' ∧ c ≠ ':' := by
    intro names
    induction names with
    | nil => exact fun _ c hc => absurd hc List.not_mem_nil
    | cons name names ih =>
      intro hnames c hc
      obtain ⟨hname, hnames⟩ := List.forall_mem_cons.mp hnames
      cases names with
      | nil =>
        unfold Text.join at hc
        rw [String.intercalate_singleton] at hc
        exact hname c hc
      | cons next names =>
        unfold Text.join at hc
        rw [String.intercalate_cons_cons, String.toList_append, String.toList_append,
          List.append_assoc, List.mem_append, List.mem_append] at hc
        rcases hc with hc | hc | hc
        · exact hname c hc
        · rw [List.mem_singleton.mp hc]
          decide
        · exact ih hnames c hc
  refine redactText_eq_self alnum fun c hc => ?_
  unfold PosixPath.text at hc
  split_ifs at hc with hempty
  · rw [List.mem_singleton.mp hc]
    decide
  · rw [String.toList_append, List.mem_append] at hc
    rcases hc with hc | hc
    · have hanchor : ∀ anchor, ∀ d ∈ (PosixPath.Anchor.text anchor).toList, d ≠ '=' ∧ d ≠ ':' := by
        intro anchor
        cases anchor <;> decide
      exact hanchor _ c hc
    · exact hjoin _ h c hc

theorem redactText_segment (alnum : Char → Bool) {name : String} (h : IsSegment name.toList) :
    redactText alnum name = name :=
  redactText_eq_self alnum (isSegment_plain h).2.2.2.2

/-- The place of a document below the root. -/
def documentPlace (root : PosixPath) (directory : List String) (name : String) : PosixPath :=
  placeOf root ⟨.relative, directory ++ [name, "README.md"]⟩

/-- **A document's place is what was planned**, when no name of the root is
redacted. -/
theorem resolve_document (alnum : Char → Bool) (cwd : List String) {rootPath : PosixPath}
    (hroot : rootPath.WellFormed) (hplain : Unredacted rootPath) {directory : List String}
    (hdirectory : directory = ["docs", "server"] ∨ directory = ["service"]) {name : String}
    (hname : IsSegment name.toList) {path : PosixPath}
    (hpath : path = { rootPath with names := rootPath.names ++ directory }) :
    (PosixPath.ofString (redactText alnum ((path.join name).join "README.md").text)).resolve cwd
      = documentPlace (rootPath.resolve cwd) directory name := by
  obtain ⟨hempty, hdot, hdots, hslash, hchars⟩ := isSegment_plain hname
  have hjoin : (path.join name).join "README.md"
      = { rootPath with names := rootPath.names ++ (directory ++ [name, "README.md"]) } := by
    rw [join_segment path hempty hdot hslash, join_segment _ (by decide) (by decide) (by decide), hpath]
    simp
  have hfixed : ∀ other ∈ directory, (other ≠ "" ∧ other ≠ "." ∧ '/' ∉ other.toList) ∧ other ≠ ".."
      ∧ ∀ c ∈ other.toList, c ≠ '=' ∧ c ≠ ':' := by
    rcases hdirectory with rfl | rfl <;> decide
  have hreadme : ("README.md" ≠ "" ∧ "README.md" ≠ "." ∧ '/' ∉ "README.md".toList)
      ∧ "README.md" ≠ ".." ∧ ∀ c ∈ "README.md".toList, c ≠ '=' ∧ c ≠ ':' := by decide
  have hmore : ∀ other ∈ directory ++ [name, "README.md"],
      (other ≠ "" ∧ other ≠ "." ∧ '/' ∉ other.toList) ∧ other ≠ ".."
        ∧ ∀ c ∈ other.toList, c ≠ '=' ∧ c ≠ ':' := by
    intro other hother
    rcases List.mem_append.mp hother with hother | hother
    · exact hfixed other hother
    · rcases List.mem_pair.mp hother with rfl | rfl
      · exact ⟨⟨hempty, hdot, hslash⟩, hdots, hchars⟩
      · exact hreadme
  rw [hjoin]
  have hwell : PosixPath.WellFormed
      { rootPath with names := rootPath.names ++ (directory ++ [name, "README.md"]) } := by
    intro other hother
    rcases List.mem_append.mp hother with hother | hother
    · exact hroot other hother
    · exact (hmore other hother).1
  have hun : Unredacted
      { rootPath with names := rootPath.names ++ (directory ++ [name, "README.md"]) } := by
    intro other hother
    rcases List.mem_append.mp hother with hother | hother
    · exact hplain other hother
    · exact (hmore other hother).2.2
  rw [redactText_text alnum hun, PosixPath.ofString_text hwell,
    PosixPath.resolve_below cwd rootPath fun other hother => (hmore other hother).2.1]
  rfl

/-! ## §6. The documents of a plan. -/

section Plan

variable (alnum : Char → Bool) (serverDocRoot serviceDocRoot : PosixPath)
  (renames : List (String × String))

/-- A host's document is in the directory of its safe name. -/
def PlacedHost (doc : ServerDoc) : Prop :=
  (∃ node, doc.host = safeHostSegment node) ∧ doc.targetPath = serverDocPath serverDocRoot doc.host

theorem placedHost_addService {hosts : Table ServerDoc.host}
    (h : ∀ doc ∈ hosts.rows, PlacedHost serverDocRoot doc) {host : String}
    (hhost : ∃ node, host = safeHostSegment node) (sourceHost : Option String) (serviceId : String) :
    ∀ doc ∈ (addService hosts host sourceHost (serverDocPath serverDocRoot host) serviceId).rows,
      PlacedHost serverDocRoot doc := by
  have hnew : PlacedHost serverDocRoot
      ⟨host, sourceHost, serverDocPath serverDocRoot host, []⟩ := ⟨hhost, rfl⟩
  have hfound : PlacedHost serverDocRoot ((hosts.find? host).getD
      ⟨host, sourceHost, serverDocPath serverDocRoot host, []⟩) := by
    cases hfind : hosts.find? host with
    | none => exact hnew
    | some found => exact h found (Table.mem_of_find? hfind)
  intro doc hdoc
  unfold addService at hdoc
  rcases Table.mem_upsert.mp hdoc with rfl | ⟨hold, -⟩
  · exact hfound
  · exact h doc hold

theorem serviceEntry_serverDocPath (service : RegistryService) :
    (serviceEntry alnum serverDocRoot serviceDocRoot renames service).serverDocPath =
      serverDocPath serverDocRoot (targetHost renames service.node) := by
  rw [serviceEntry, targetHost]

theorem planService_hostSummary (state : PlanState) (service : RegistryService) :
    (planService alnum serverDocRoot serviceDocRoot renames state service).hostSummary
      = addService state.hostSummary (targetHost renames service.node)
        (serviceEntry alnum serverDocRoot serviceDocRoot renames service).sourceHost
        (serverDocPath serverDocRoot (targetHost renames service.node)) service.serviceId := by
  rw [planService, serviceEntry_host, serviceEntry_serverDocPath]

/-- **The hosts of the plan** have safe names, and their documents are there. -/
theorem placedHost_foldl (services : List RegistryService) (state : PlanState)
    (h : ∀ doc ∈ state.hostSummary.rows, PlacedHost serverDocRoot doc) :
    ∀ doc ∈ (services.foldl (planService alnum serverDocRoot serviceDocRoot renames)
      state).hostSummary.rows, PlacedHost serverDocRoot doc := by
  induction services generalizing state with
  | nil => exact h
  | cons service services ih =>
    rw [List.foldl_cons]
    refine ih _ ?_
    rw [planService_hostSummary]
    have hhost : ∃ node, targetHost renames service.node = safeHostSegment node := by
      unfold targetHost
      exact ⟨_, rfl⟩
    exact placedHost_addService serverDocRoot h hhost _ _

end Plan

/-- A service's document is in the directory of its slug. -/
theorem serviceEntry_placed (alnum : Char → Bool) (serverDocRoot serviceDocRoot : PosixPath)
    (renames : List (String × String)) (service : RegistryService) :
    ∃ value, (serviceEntry alnum serverDocRoot serviceDocRoot renames service).serviceSlug
        = safeServiceSlug value
      ∧ (serviceEntry alnum serverDocRoot serviceDocRoot renames service).targetPath
        = serviceDocPath serviceDocRoot (safeServiceSlug value) := by
  refine ⟨if service.serviceId ≠ "" then service.serviceId else service.name, ?_, ?_⟩
  · rw [serviceEntry]
  · rw [serviceEntry]

/-- The plan of a run. -/
def planOf (alnum : Char → Bool) (root : PosixPath) (renameHosts : RenameHosts)
    (registry : ServiceRegistry) : SyncPlan :=
  buildDocsSyncPlanFromRegistry alnum ((root.join "docs").join "server") (root.join "service")
    renameHosts registry

theorem mem_sortedBy {α : Type} {key : α → String} {xs : List α} {x : α} :
    x ∈ sortedBy key xs ↔ x ∈ xs := List.mem_insertionSort _

/-- **The planned documents**, when no name of the root is redacted: one in the
directory of each host and one in that of each service, under safe names. -/
theorem plannedPlaces_eq (alnum : Char → Bool) (cwd : List String) {root : PosixPath}
    (hroot : root.WellFormed) (hplain : Unredacted root) (renameHosts : RenameHosts)
    (registry : ServiceRegistry) :
    let plan := planOf alnum root renameHosts registry
    plannedPlaces cwd plan
        = (plan.serverDocs.map fun doc =>
            documentPlace (root.resolve cwd) ["docs", "server"] doc.host)
          ++ (plan.serviceDocs.map fun doc =>
            documentPlace (root.resolve cwd) ["service"] doc.serviceSlug)
      ∧ (∀ doc ∈ plan.serverDocs, IsSegment doc.host.toList)
      ∧ ∀ doc ∈ plan.serviceDocs, IsSegment doc.serviceSlug.toList := by
  have hserver : (root.join "docs").join "server"
      = { root with names := root.names ++ ["docs", "server"] } := by
    rw [join_segment root (by decide) (by decide) (by decide),
      join_segment _ (by decide) (by decide) (by decide)]
    simp
  have hservice : root.join "service" = { root with names := root.names ++ ["service"] } :=
    join_segment root (by decide) (by decide) (by decide)
  intro plan
  -- A host's document, before the plan is redacted.
  have hhosts : ∀ doc ∈ plan.serverDocs, IsSegment doc.host.toList
      ∧ (PosixPath.ofString doc.targetPath).resolve cwd
        = documentPlace (root.resolve cwd) ["docs", "server"] doc.host := by
    intro doc hdoc
    obtain ⟨row, hrow, rfl⟩ := List.mem_map.mp hdoc
    obtain ⟨⟨node, hnode⟩, hpath⟩ := placedHost_foldl alnum ((root.join "docs").join "server")
      (root.join "service") renameHosts.usable registry.listServices .empty
      (fun row hrow => absurd hrow List.not_mem_nil) row (mem_sortedBy.mp hrow)
    have hsegment : IsSegment row.host.toList := hnode ▸ isSegment_safeHostSegment node
    have hhost : (row.sanitize alnum).host = row.host := redactText_segment alnum hsegment
    have htarget : (row.sanitize alnum).targetPath = redactText alnum row.targetPath := rfl
    rw [hhost, htarget, hpath]
    exact ⟨hsegment, resolve_document alnum cwd hroot hplain (.inl rfl) hsegment hserver⟩
  have hservices : ∀ doc ∈ plan.serviceDocs, IsSegment doc.serviceSlug.toList
      ∧ (PosixPath.ofString doc.targetPath).resolve cwd
        = documentPlace (root.resolve cwd) ["service"] doc.serviceSlug := by
    intro doc hdoc
    obtain ⟨entry, hentry, rfl⟩ := List.mem_map.mp hdoc
    have hplanned := planned_foldl alnum ((root.join "docs").join "server")
      (root.join "service") renameHosts.usable registry.listServices
    have hentry' := mem_sortedBy.mp hentry
    rw [hplanned.entries] at hentry'
    obtain ⟨service, -, rfl⟩ := List.mem_map.mp hentry'
    obtain ⟨value, hslug, hpath⟩ := serviceEntry_placed alnum ((root.join "docs").join "server")
      (root.join "service") renameHosts.usable service
    generalize serviceEntry alnum ((root.join "docs").join "server") (root.join "service")
      renameHosts.usable service = entry at hslug hpath
    have hsegment : IsSegment entry.serviceSlug.toList := hslug ▸ isSegment_safeServiceSlug value
    have hkept : (entry.sanitize alnum).serviceSlug = entry.serviceSlug :=
      redactText_segment alnum hsegment
    have htarget : (entry.sanitize alnum).targetPath = redactText alnum entry.targetPath := rfl
    rw [hkept, htarget, hpath, ← hslug]
    exact ⟨hsegment, resolve_document alnum cwd hroot hplain (.inr rfl) hsegment hservice⟩
  refine ⟨?_, fun doc hdoc => (hhosts doc hdoc).1, fun doc hdoc => (hservices doc hdoc).1⟩
  unfold plannedPlaces
  rw [List.map_append, List.map_map, List.map_map]
  congr 1
  · exact List.map_congr_left fun doc hdoc => (hhosts doc hdoc).2
  · exact List.map_congr_left fun doc hdoc => (hservices doc hdoc).2

/-! ## §7. The run. -/

theorem under_placeOf (root : PosixPath) {relative : PosixPath} (h : relative.names ≠ []) :
    (placeOf root relative).Under root :=
  ⟨rfl, List.prefix_append _ _, fun heq => h (List.append_right_eq_self.mp heq)⟩

theorem under_documentPlace (root : PosixPath) (directory : List String) (name : String) :
    (documentPlace root directory name).Under root := by
  refine under_placeOf root ?_
  show directory ++ [name, "README.md"] ≠ []
  simp

theorem under_indexPlaces (root : PosixPath) : ∀ place ∈ indexPlaces root, place.Under root := by
  intro place hplace
  obtain ⟨names, hnames, rfl⟩ := List.mem_map.mp hplace
  have hsome : ∀ names ∈ [["docs", "README.md"], ["docs", "index.json"],
      ["docs", "server", "README.md"], ["service", "README.md"], ["service", "index.json"],
      ["service", "domain-mapping.json"], ["service", "runbook-mapping.json"]], names ≠ [] := by
    decide
  exact under_placeOf root (hsome names hnames)

section Run

variable {σ : Type} {cwd : List String} {exec : Prog.Exec files σ} (alnum : Char → Bool)

theorem calls_orRaise {α : Type} (result : Except PyError α) :
    (orRaise result).Calls fun op : FileOp => writesNothing op = true := by
  cases result
  · exact Prog.calls_raise
  · exact Prog.calls_ret

theorem calls_relativeFromRoot (root path : PosixPath) :
    (relativeFromRoot root path).Calls fun op : FileOp => writesNothing op = true := by
  refine Prog.calls_bind (calls_resolvePath _) fun target => ?_
  split
  · exact Prog.calls_ret
  · split
    · exact Prog.calls_ret
    · exact Prog.calls_raise

theorem calls_mapM {α β : Type} {P : FileOp → Prop} {f : α → FilePy β}
    (h : ∀ x, (f x).Calls P) (xs : List α) : (xs.mapM f).Calls P := by
  induction xs with
  | nil => exact Prog.calls_ret
  | cons x xs ih =>
    rw [List.mapM_cons]
    exact Prog.calls_bind (h x) fun _ => Prog.calls_bind ih fun _ => Prog.calls_ret

theorem calls_forM {α : Type} {P : FileOp → Prop} {f : α → FilePy PUnit}
    (h : ∀ x, (f x).Calls P) (xs : List α) : (xs.forM f).Calls P := by
  induction xs with
  | nil => exact Prog.calls_ret
  | cons x xs ih => exact Prog.calls_bind (h x) fun _ => ih

/-- The writes are built without writing. -/
theorem calls_buildApplyWrites (plan : SyncPlan) (registry : ServiceRegistry)
    (rootPath root : PosixPath) :
    (buildApplyWrites alnum plan registry rootPath root).Calls
      fun op : FileOp => writesNothing op = true := by
  refine Prog.calls_bind (calls_mapM (fun entry => ?_) _) fun servers =>
    Prog.calls_bind (calls_mapM (fun entry => ?_) _) fun services =>
      Prog.calls_bind (calls_forM (fun write => ?_) _) fun _ => Prog.calls_ret
  · exact Prog.calls_bind (calls_relativeFromRoot _ _) fun relative =>
      Prog.calls_bind (calls_orRaise _) fun text => Prog.calls_ret
  · refine Prog.calls_bind (calls_relativeFromRoot _ _) fun relative => ?_
    split
    · exact Prog.calls_raise
    · exact Prog.calls_bind (calls_orRaise _) fun text => Prog.calls_ret
  · exact Prog.calls_bind (calls_resolveTarget _ _) fun target => Prog.calls_ret

/-- What a run does once the root is resolved: it ends there and writes
nothing, or it goes through the writes. -/
theorem applyDocsSync_files (hexec : Lexical cwd exec) (root : PosixPath) (execute : Bool)
    (renameHosts : RenameHosts) (registry : ServiceRegistry) (tree : σ) :
    (filesWritten exec (applyDocsSyncFromRegistry alnum root execute renameHosts registry) tree = []
        ∧ ∃ e s, (applyDocsSyncFromRegistry alnum root execute renameHosts registry).run exec tree
          = (.error e, s))
      ∨ ∃ writes s, (buildApplyWrites alnum (planOf alnum root renameHosts registry) registry root
            (root.resolve cwd)).run exec tree = (.ok writes, s)
          ∧ filesWritten exec (applyDocsSyncFromRegistry alnum root execute renameHosts registry) tree
            = if execute then filesWritten exec (writes.mapM (applyWrite (root.resolve cwd))) s
              else [] := by
  have hresolve := run_resolvePath hexec root tree
  have hnone : filesWritten exec (resolvePath root) tree = [] :=
    filesWritten_of_calls (calls_resolvePath root) tree
  have hbuild : filesWritten exec (buildApplyWrites alnum (planOf alnum root renameHosts registry)
      registry root (root.resolve cwd)) tree = [] :=
    filesWritten_of_calls (calls_buildApplyWrites alnum _ registry root _) tree
  unfold applyDocsSyncFromRegistry
  rw [filesWritten_bind hresolve, hnone, List.nil_append, Prog.run_bind, hresolve]
  dsimp only
  cases hrun : (buildApplyWrites alnum (planOf alnum root renameHosts registry) registry root
      (root.resolve cwd)).run exec tree with
  | mk result s =>
    cases result with
    | error e =>
      refine .inl ⟨?_, e, s, ?_⟩
      · exact (filesWritten_bind_error hrun).trans hbuild
      · exact (Prog.run_bind ..).trans (by rw [planOf] at hrun; rw [hrun])
    | ok writes =>
      refine .inr ⟨writes, s, rfl, ?_⟩
      refine (filesWritten_bind hrun).trans ?_
      rw [hbuild, List.nil_append]
      cases execute with
      | false => rfl
      | true =>
        rw [if_neg (by decide), if_pos rfl]
        cases hmany : (writes.mapM (applyWrite (root.resolve cwd))).run exec s with
        | mk result s' =>
          cases result with
          | error e => exact filesWritten_bind_error hmany
          | ok rest =>
            rw [filesWritten_bind hmany]
            exact List.append_nil _

/-- **Where the documentation centre is written.**  Every file is within the
root; a planned place outside it ends the run before anything is written.  The
files are the first ones of the indexes and the documents, in this order.  When
no name of the root looks like a secret, the documents are strictly under the
root, each in the directory of a safe name. -/
theorem docs_apply_contained (hexec : Lexical cwd exec) (root : String) (execute : Bool)
    (renameHosts : RenameHosts) (registry : ServiceRegistry) (tree : σ) :
    let rootPath := PosixPath.ofString root
    let place := rootPath.resolve cwd
    let plan := planOf alnum rootPath renameHosts registry
    let program := applyDocsSyncFromRegistry alnum rootPath execute renameHosts registry
    let written := (filesWritten exec program tree).map Prod.fst
    (execute = false → written = [])
      ∧ written <+: indexPlaces place ++ plannedPlaces cwd plan
      ∧ (∀ path ∈ written, Within path place)
      ∧ ((∃ path ∈ plannedPlaces cwd plan, ¬ Within path place) →
        written = [] ∧ ∃ e s, program.run exec tree = (.error e, s))
      ∧ (Unredacted rootPath →
        (∀ path ∈ written, path.Under place)
          ∧ plannedPlaces cwd plan
            = (plan.serverDocs.map fun doc => documentPlace place ["docs", "server"] doc.host)
              ++ (plan.serviceDocs.map fun doc => documentPlace place ["service"] doc.serviceSlug)
          ∧ (∀ doc ∈ plan.serverDocs, IsSegment doc.host.toList)
          ∧ ∀ doc ∈ plan.serviceDocs, IsSegment doc.serviceSlug.toList) := by
  intro rootPath place plan program written
  have hresolved : place.Resolved := PosixPath.resolved_resolve cwd rootPath
  -- The first three, by what the run went through.
  have hfiles : (execute = false → written = [])
      ∧ written <+: indexPlaces place ++ plannedPlaces cwd plan
      ∧ ∀ path ∈ written, Within path place := by
    rcases applyDocsSync_files alnum hexec rootPath execute renameHosts registry tree with
      ⟨hnone, -⟩ | ⟨writes, s, hbuilt, hfiles⟩
    · have hwritten : written = [] := congrArg (List.map Prod.fst) hnone
      rw [hwritten]
      exact ⟨fun _ => rfl, List.nil_prefix, fun path hpath => absurd hpath List.not_mem_nil⟩
    · have hwritten := congrArg (List.map Prod.fst) hfiles
      obtain ⟨hplaces, -⟩ := buildApplyWrites_ok alnum plan registry hexec hresolved hbuilt
      obtain ⟨hleads, hin⟩ := @mapM_applyWrite_files σ cwd exec place hexec writes s
      cases execute with
      | false =>
        have hwritten : written = [] := hwritten
        rw [hwritten]
        exact ⟨fun _ => rfl, List.nil_prefix, fun path hpath => absurd hpath List.not_mem_nil⟩
      | true =>
        have hwritten : written
            = (filesWritten exec (writes.mapM (applyWrite place)) s).map Prod.fst := hwritten
        refine ⟨fun h => Bool.noConfusion h, ?_, fun path hpath => ?_⟩
        · rw [hwritten, ← hplaces]
          have hmapped := hleads.map Prod.fst
          rw [List.map_map] at hmapped
          exact hmapped
        · rw [hwritten] at hpath
          obtain ⟨file, hfile, rfl⟩ := List.mem_map.mp hpath
          exact hin file hfile
  refine ⟨hfiles.1, hfiles.2.1, hfiles.2.2, ?_, fun hplain => ?_⟩
  · rintro ⟨path, hpath, hescapes⟩
    rcases applyDocsSync_files alnum hexec rootPath execute renameHosts registry tree with
      ⟨hnone, hfails⟩ | ⟨writes, s, hbuilt, -⟩
    · exact ⟨congrArg (List.map Prod.fst) hnone, hfails⟩
    · exact absurd ((buildApplyWrites_ok alnum plan registry hexec hresolved hbuilt).2 path hpath)
        hescapes
  · obtain ⟨hplanned, hhosts, hslugs⟩ := plannedPlaces_eq alnum cwd
      (PosixPath.wellFormed_ofString root) hplain renameHosts registry
    refine ⟨fun path hpath => ?_, hplanned, hhosts, hslugs⟩
    rcases List.mem_append.mp (hfiles.2.1.subset hpath) with hpath | hpath
    · exact under_indexPlaces place path hpath
    · rw [hplanned] at hpath
      rcases List.mem_append.mp hpath with hpath | hpath
      · obtain ⟨doc, -, rfl⟩ := List.mem_map.mp hpath
        exact under_documentPlace place _ _
      · obtain ⟨doc, -, rfl⟩ := List.mem_map.mp hpath
        exact under_documentPlace place _ _

end Run

/-- A file system that answers every call and resolves paths by their names. -/
def plainTree : Prog.Exec files Unit
  | .resolve path, _ => (.ok (path.resolve []), ())
  | .mkdir _, _ => (.ok (), ())
  | .writeText _ _, _ => (.ok (), ())

/-- A registry whose one service is named like a path that climbs. -/
def climbingRegistry : ServiceRegistry :=
  .single { plainService with serviceId := "../../etc/passwd", node := "..\\..\\root" }

/-- A service that is named like a path that climbs is documented under the
root. -/
theorem climbing_service_contained :
    (filesWritten plainTree (applyDocsSyncFromRegistry Regex.isAlnum (.ofString "/srv/files")
        true .empty climbingRegistry) ()).map Prod.fst
      <+: indexPlaces ((PosixPath.ofString "/srv/files").resolve [])
        ++ plannedPlaces [] (planOf Regex.isAlnum (.ofString "/srv/files") .empty climbingRegistry)
    ∧ ∀ path ∈ (filesWritten plainTree (applyDocsSyncFromRegistry Regex.isAlnum (.ofString "/srv/files")
        true .empty climbingRegistry) ()).map Prod.fst,
      path.Under ((PosixPath.ofString "/srv/files").resolve []) := by
  have hplain : Unredacted (.ofString "/srv/files") := by
    unfold Unredacted
    decide +kernel
  have hcontained := @docs_apply_contained Unit [] plainTree Regex.isAlnum (fun _ _ => rfl) "/srv/files"
    true .empty climbingRegistry ()
  exact ⟨hcontained.2.1, (hcontained.2.2.2.2 hplain).1⟩

end Hmn.Docs
