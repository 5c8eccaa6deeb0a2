/-
  Hmn.Framework.FileTree — a tree of files with symbolic links, and what a
  path leads to.

  The kernel takes the names of a path one by one and follows the links on its
  way; it stops where something is missing and after forty links.  `realpath`
  takes the names one by one, too, but goes on where something is missing,
  and when it comes to a link that it is just following it gives up: what is
  left of the path is appended as it is.

  Main results: `join_straight` — without a loop, no link is left in the
  result; `join_of_walk` — where the kernel arrives, there is no loop and
  `realpath` arrives, too.
-/
import Hmn.Framework.PosixPath
import Mathlib.Data.List.Perm.Subperm

namespace Hmn.Framework

/-! ## §1. Trees. -/

/-- The names on the way from the root. -/
abbrev Place := List String

inductive Entry where
  | directory
  | file (content : List Nat) (mode : Nat) (owner : Nat × Nat)
  | link (target : String)
  | special
  deriving DecidableEq

/-- What is at every place. -/
structure FileTree where
  entries : List (Place × Entry)
  deriving DecidableEq

/-- Why a path leads nowhere. -/
inductive Errno where
  | noEntry
  | notDirectory
  | tooManyLinks
  | exists
  | isDirectory
  deriving DecidableEq

namespace FileTree

variable (t : FileTree)

def lookup (place : Place) : Option Entry :=
  if place = [] then some .directory else t.entries.lookup place

/-- The texts between the slashes. -/
def pieces (s : String) : List String := (s.toList.splitOn '/').map String.ofList

/-- Where the text of a link starts. -/
def base (place : Place) (target : String) : Place :=
  if target.toList.head? = some '/' then [] else place

/-- A name that is looked up. -/
def Proper (name : String) : Prop := name ≠ "" ∧ name ≠ "." ∧ name ≠ ".."

/-! ## §2. The kernel. -/

/-- The names one by one; `onLink` goes on behind a link. -/
def walkBy (onLink : Place → List String → Except Errno Place) (followLast : Bool) :
    Place → List String → Except Errno Place
  | place, [] => .ok place
  | place, name :: rest =>
    if t.lookup place ≠ some .directory then .error .notDirectory
    else if name = "" ∨ name = "." then walkBy onLink followLast place rest
    else if name = ".." then walkBy onLink followLast place.dropLast rest
    else
      match t.lookup (place ++ [name]) with
      | none => .error .noEntry
      | some (.link target) =>
        if rest = [] ∧ followLast = false then .ok (place ++ [name])
        else onLink (base place target) (pieces target ++ rest)
      | some _ => walkBy onLink followLast (place ++ [name]) rest

/-- The way of the kernel, with so many links at most. -/
def walk (followLast : Bool) : Nat → Place → List String → Except Errno Place
  | 0 => t.walkBy (fun _ _ => .error .tooManyLinks) followLast
  | links + 1 => t.walkBy (walk followLast links) followLast

/-- The links that are followed for one path. -/
def maxLinks : Nat := 40

/-- What the kernel finds, following a last link or not. -/
def find (followLast : Bool) (start : Place) (names : List String) : Except Errno Entry := do
  let place ← t.walk followLast maxLinks start names
  match t.lookup place with
  | some entry => .ok entry
  | none => .error .noEntry

/-- `os.stat`. -/
def stat (start : Place) (names : List String) : Except Errno Entry := t.find true start names

/-- `os.lstat`. -/
def lstat (start : Place) (names : List String) : Except Errno Entry := t.find false start names

/-! ## §3. Changes. -/

/-- An entry at a place, in the place of what was there. -/
def put (place : Place) (entry : Entry) : FileTree :=
  ⟨(place, entry) :: t.entries.filter fun e => e.1 ≠ place⟩

def erase (place : Place) : FileTree := ⟨t.entries.filter fun e => e.1 ≠ place⟩

/-- `os.mkdir`, of a path from the root. -/
def mkdir (names : List String) : Except Errno FileTree :=
  match names.getLast? with
  | none => .error .exists
  | some name => do
    let parent ← t.walk true maxLinks [] names.dropLast
    if t.lookup parent ≠ some .directory then .error .notDirectory
    else if (t.lookup (parent ++ [name])).isSome then .error .exists
    else return t.put (parent ++ [name]) .directory

/-- `path.mkdir(parents=False, exist_ok=True)`. -/
def makeDir (names : List String) : Except Errno Unit × FileTree :=
  match t.mkdir names with
  | .ok t' => (.ok (), t')
  | .error .noEntry => (.error .noEntry, t)
  | .error e => (if t.stat [] names = .ok .directory then .ok () else .error e, t)

/-- `path.mkdir(parents=True, exist_ok=True)`, of the names from the last one
on. -/
def makeDirs : List String → Except Errno Unit × FileTree
  | [] => t.makeDir []
  | name :: above =>
    match t.makeDir (name :: above).reverse with
    | (.error .noEntry, _) =>
      match makeDirs above with
      | (.ok _, t') => t'.makeDir (name :: above).reverse
      | (.error e, t') => (.error e, t')
    | result => result

/-- A file opened with `O_NOFOLLOW`: its content, its mode and its owner. -/
def openFile (names : List String) : Except Errno (List Nat × Nat × (Nat × Nat)) := do
  match ← t.lstat [] names with
  | .file content mode owner => .ok (content, mode, owner)
  | .link _ => .error .tooManyLinks
  | _ => .error .isDirectory

/-- A directory opened with `O_DIRECTORY | O_NOFOLLOW`. -/
def openDirectory (names : List String) : Except Errno Place := do
  let place ← t.walk false maxLinks [] names
  if t.lookup place = some .directory then .ok place else .error .notDirectory

/-- `os.unlink`; a directory stays. -/
def unlink (place : Place) : FileTree :=
  if t.lookup place = some .directory then t else t.erase place

/-- `os.rename` of a file; a directory is not replaced. -/
def rename (place target : Place) (entry : Entry) : Except Errno FileTree :=
  if t.lookup target = some .directory then .error .isDirectory
  else .ok ((t.erase place).put target entry)

/-! ## §4. The real path. -/

/-- The links met so far, with where they lead once that is known. -/
abbrev Seen := List (Place × Option Place)

/-- What the names lead to. -/
inductive Real where
  | reached (place : Place) (seen : Seen)
  /-- A loop of links: a text that is not resolved further. -/
  | left (text : String)

/-- The text of a link, if there is one. -/
def readlink? (place : Place) : Option String :=
  match t.lstat [] place with
  | .ok (.link target) => some target
  | _ => none

/-- `posixpath.join`. -/
def joinText (path rest : String) : String :=
  if rest.toList.head? = some '/' then rest
  else if path = "" ∨ path.toList.getLast? = some '/' then path ++ rest
  else path ++ "/" ++ rest

/-- The text of a place. -/
def placeText (place : Place) : String := "/" ++ Text.join "/" place

/-- The loop of `_joinrealpath`; `follow` does the text of a link. -/
def joinBy (follow : Seen → Place → List String → Real) : Seen → Place → List String → Real
  | seen, path, [] => .reached path seen
  | seen, path, name :: rest =>
    if name = "" ∨ name = "." then joinBy follow seen path rest
    else if name = ".." then joinBy follow seen path.dropLast rest
    else
      match t.readlink? (path ++ [name]) with
      | none => joinBy follow seen (path ++ [name]) rest
      | some target =>
        match seen.lookup (path ++ [name]) with
        | some (some place) => joinBy follow seen place rest
        | some none => .left (joinText (placeText (path ++ [name])) (Text.join "/" rest))
        | none =>
          match follow ((path ++ [name], none) :: seen) (base path target) (pieces target) with
          | .reached place seen => joinBy follow ((path ++ [name], some place) :: seen) place rest
          | .left text => .left (joinText text (Text.join "/" rest))

/-- `_joinrealpath`, with links in links to this depth. -/
def join : Nat → Seen → Place → List String → Real
  | 0 => t.joinBy fun seen path _ => .reached path seen
  | depth + 1 => t.joinBy (join depth)

/-- `_joinrealpath`, of a path from a place on.  No more links can be in each
other than there are. -/
def joinReal (start : Place) (names : List String) : Real :=
  t.join (t.entries.length + 1) [] start names

/-- Where a path starts. -/
def start (cwd : Place) (path : PosixPath) : Place :=
  if path.anchor = .relative then cwd else []

/-- `os.path.abspath`, of a text that starts with a slash. -/
def absPath (text : String) : PosixPath :=
  ⟨PosixPath.anchorOf text.toList, PosixPath.normalize (PosixPath.namesOf text.toList)⟩

/-- `os.path.realpath`. -/
def realPath (cwd : Place) (path : PosixPath) : PosixPath :=
  match t.joinReal (start cwd path) path.names with
  | .reached place _ => ⟨.slash, place⟩
  | .left text => absPath text

/-- `path.resolve(strict=False)`; nothing when it raises `RuntimeError`. -/
def resolve? (cwd : Place) (path : PosixPath) : Option PosixPath :=
  if t.stat [] (t.realPath cwd path).names = .error .tooManyLinks then none
  else some (t.realPath cwd path)

/-! ## §5. Places without links. -/

theorem lookup_nil : t.lookup [] = some .directory := if_pos rfl

/-- Every place on the way is a directory. -/
structure Solid (place : Place) : Prop where
  proper : ∀ name ∈ place, Proper name
  directories : ∀ q, q <+: place → q ≠ place → t.lookup q = some .directory

/-- Nothing on the way is a link. -/
structure Straight (place : Place) : Prop where
  proper : ∀ name ∈ place, Proper name
  noLink : ∀ q, q <+: place → t.readlink? q = none

variable {t}

theorem solid_nil : t.Solid [] :=
  ⟨fun _ h => (List.not_mem_nil h).elim, fun _ hq hne => absurd (List.prefix_nil.mp hq) hne⟩

theorem Solid.dropLast {place : Place} (h : t.Solid place) : t.Solid place.dropLast := by
  refine ⟨fun name hname => h.proper name (List.dropLast_subset _ hname), fun q hq hne => ?_⟩
  refine h.directories q (hq.trans (List.dropLast_prefix place)) ?_
  rintro rfl
  exact hne (hq.eq_of_length_le (by rw [List.length_dropLast]; exact Nat.sub_le _ _))

theorem Solid.snoc {place : Place} (h : t.Solid place) (hdir : t.lookup place = some .directory)
    {name : String} (hname : Proper name) : t.Solid (place ++ [name]) := by
  constructor
  · intro n hn
    rcases List.mem_append.mp hn with hn | hn
    · exact h.proper n hn
    · rw [List.mem_singleton.mp hn]
      exact hname
  · intro q hq hne
    rcases List.prefix_concat_iff.mp hq with rfl | hq
    · exact absurd rfl hne
    · by_cases heq : q = place
      · rw [heq]
        exact hdir
      · exact h.directories q hq heq

/-- Names that are looked up in directories only. -/
theorem walkBy_directories {onLink : Place → List String → Except Errno Place} {place : Place}
    {names : List String} (hproper : ∀ name ∈ names, Proper name)
    (h : ∀ q, q <+: names → q ≠ names → t.lookup (place ++ q) = some .directory) :
    t.walkBy onLink false place names
      = if names = [] ∨ (t.lookup (place ++ names)).isSome then .ok (place ++ names)
        else .error .noEntry := by
  induction names generalizing place with
  | nil => rw [walkBy, if_pos (Or.inl rfl), List.append_nil]
  | cons name rest ih =>
    obtain ⟨⟨hempty, hdot, hup⟩, hrest⟩ := List.forall_mem_cons.mp hproper
    have hdir := h [] List.nil_prefix (List.cons_ne_nil _ _).symm
    rw [List.append_nil] at hdir
    have hnext : place ++ name :: rest = (place ++ [name]) ++ rest := by simp
    have hbelow : ∀ q, q <+: rest → q ≠ rest →
        t.lookup ((place ++ [name]) ++ q) = some .directory := by
      intro q hq hne
      have hlookup := h (name :: q) (List.cons_prefix_cons.mpr ⟨rfl, hq⟩)
        (fun heq => hne (List.cons.inj heq).2)
      rwa [List.append_assoc, List.singleton_append]
    rw [walkBy, if_neg (not_not.mpr hdir), if_neg (not_or.mpr ⟨hempty, hdot⟩), if_neg hup, hnext]
    cases rest with
    | nil =>
      rw [List.append_nil]
      cases hentry : t.lookup (place ++ [name]) with
      | none => rfl
      | some entry => cases entry <;> simp [walkBy]
    | cons name' rest =>
      have hentry := hbelow [] List.nil_prefix (List.cons_ne_nil _ _).symm
      rw [List.append_nil] at hentry
      simp only [hentry]
      rw [ih hrest hbelow]
      simp

/-- **On directories `lstat` finds what is there.** -/
theorem Solid.lstat_eq {place : Place} (h : t.Solid place) :
    t.lstat [] place
      = match t.lookup place with
        | some entry => .ok entry
        | none => .error .noEntry := by
  have hwalk : t.walk false maxLinks [] place
      = if place = [] ∨ (t.lookup ([] ++ place)).isSome then .ok ([] ++ place)
        else .error .noEntry := walkBy_directories h.proper h.directories
  rw [lstat, find, hwalk, List.nil_append]
  by_cases hroot : place = []
  · rw [if_pos (Or.inl hroot)]
    rfl
  · cases hentry : t.lookup place with
    | none =>
      rw [if_neg (by simp [hroot])]
      rfl
    | some entry =>
      rw [if_pos (Or.inr Option.isSome_some)]
      simp only [bind, Except.bind, hentry]

theorem Solid.readlink?_eq_some {place : Place} (h : t.Solid place) {target : String} :
    t.readlink? place = some target ↔ t.lookup place = some (.link target) := by
  rw [readlink?, h.lstat_eq]
  cases t.lookup place with
  | none => simp
  | some entry => cases entry <;> simp

theorem Solid.readlink?_eq_none {place : Place} (h : t.Solid place) :
    t.readlink? place = none ↔ ∀ target, t.lookup place ≠ some (.link target) := by
  rw [Option.eq_none_iff_forall_ne_some]
  exact forall_congr' fun target => not_congr h.readlink?_eq_some

/-! ## §6. Without a loop no link is left. -/

theorem straight_nil : t.Straight [] := by
  refine ⟨fun _ h => (List.not_mem_nil h).elim, fun q hq => ?_⟩
  rw [List.prefix_nil.mp hq, solid_nil.readlink?_eq_none, lookup_nil]
  exact fun target h => by cases h

theorem Straight.of_prefix {place q : Place} (h : t.Straight place) (hq : q <+: place) :
    t.Straight q :=
  ⟨fun name hname => h.proper name (hq.subset hname), fun q' hq' => h.noLink q' (hq'.trans hq)⟩

theorem Straight.snoc {place : Place} (h : t.Straight place) {name : String} (hname : Proper name)
    (hlink : t.readlink? (place ++ [name]) = none) : t.Straight (place ++ [name]) := by
  constructor
  · intro n hn
    rcases List.mem_append.mp hn with hn | hn
    · exact h.proper n hn
    · rw [List.mem_singleton.mp hn]
      exact hname
  · intro q hq
    rcases List.prefix_concat_iff.mp hq with rfl | hq
    · exact hlink
    · exact h.noLink q hq

/-- Every place that a link is known to lead to is reached without links. -/
def StraightSeen (t : FileTree) (seen : Seen) : Prop :=
  ∀ key place, seen.lookup key = some (some place) → t.Straight place

theorem StraightSeen.pending {seen : Seen} (h : t.StraightSeen seen) (key : Place) :
    t.StraightSeen ((key, none) :: seen) := by
  intro key' place hplace
  rw [List.lookup_cons] at hplace
  split at hplace
  · cases hplace
  · exact h key' place hplace

theorem StraightSeen.known {seen : Seen} (h : t.StraightSeen seen) (key : Place) {place : Place}
    (hplace : t.Straight place) : t.StraightSeen ((key, some place) :: seen) := by
  intro key' place' hplace'
  rw [List.lookup_cons] at hplace'
  split at hplace'
  · cases hplace'
    exact hplace
  · exact h key' place' hplace'

theorem straight_base {place : Place} (h : t.Straight place) (target : String) :
    t.Straight (base place target) := by
  rw [base]
  split
  · exact straight_nil
  · exact h

/-- What has to be known of the text of a link. -/
def FollowsStraight (t : FileTree) (follow : Seen → Place → List String → Real) : Prop :=
  ∀ seen path names place seen', t.StraightSeen seen → t.Straight path →
    follow seen path names = .reached place seen' → t.Straight place ∧ t.StraightSeen seen'

theorem joinBy_straight {follow : Seen → Place → List String → Real}
    (hfollow : t.FollowsStraight follow) : t.FollowsStraight (t.joinBy follow) := by
  intro seen path names
  induction names generalizing seen path with
  | nil =>
    intro place seen' hseen hpath h
    rw [joinBy] at h
    cases h
    exact ⟨hpath, hseen⟩
  | cons name rest ih =>
    intro place seen' hseen hpath h
    rw [joinBy] at h
    by_cases hstay : name = "" ∨ name = "."
    · rw [if_pos hstay] at h
      exact ih seen path place seen' hseen hpath h
    rw [if_neg hstay] at h
    by_cases hup : name = ".."
    · rw [if_pos hup] at h
      exact ih seen _ place seen' hseen (hpath.of_prefix (List.dropLast_prefix path)) h
    rw [if_neg hup] at h
    have hname : Proper name := ⟨fun e => hstay (Or.inl e), fun e => hstay (Or.inr e), hup⟩
    cases hlink : t.readlink? (path ++ [name]) with
    | none =>
      simp only [hlink] at h
      exact ih seen _ place seen' hseen (hpath.snoc hname hlink) h
    | some target =>
      simp only [hlink] at h
      cases hknown : seen.lookup (path ++ [name]) with
      | some known =>
        cases known with
        | some place₁ =>
          simp only [hknown] at h
          exact ih seen place₁ place seen' hseen (hseen _ _ hknown) h
        | none =>
          simp only [hknown] at h
          cases h
      | none =>
        simp only [hknown] at h
        cases hinner : follow ((path ++ [name], none) :: seen) (base path target)
            (pieces target) with
        | left text =>
          simp only [hinner] at h
          cases h
        | reached place₁ seen₁ =>
          simp only [hinner] at h
          obtain ⟨hplace₁, hseen₁⟩ := hfollow _ _ _ _ _ (hseen.pending _)
            (straight_base hpath target) hinner
          exact ih _ place₁ place seen' (hseen₁.known _ hplace₁) hplace₁ h

/-- **Without a loop no link is left**: where the names lead to, nothing on
the way is a link. -/
theorem join_straight (depth : Nat) : t.FollowsStraight (t.join depth) := by
  induction depth with
  | zero =>
    refine joinBy_straight ?_
    rintro seen path names place seen' hseen hpath h
    cases h
    exact ⟨hpath, hseen⟩
  | succ depth ih => exact joinBy_straight ih

/-- A way without links leads where it says. -/
theorem joinBy_of_straight {follow : Seen → Place → List String → Real} {seen : Seen}
    {path names : Place} (h : t.Straight (path ++ names)) :
    t.joinBy follow seen path names = .reached (path ++ names) seen := by
  induction names generalizing path with
  | nil => rw [joinBy, List.append_nil]
  | cons name rest ih =>
    obtain ⟨hempty, hdot, hup⟩ := h.proper name (by simp)
    have hnext : path ++ name :: rest = (path ++ [name]) ++ rest := by simp
    have hlink : t.readlink? (path ++ [name]) = none :=
      h.noLink _ (hnext ▸ List.prefix_append _ _)
    rw [joinBy, if_neg (not_or.mpr ⟨hempty, hdot⟩), if_neg hup]
    simp only [hlink]
    rw [ih (hnext ▸ h), ← hnext]

theorem joinReal_of_straight {place : Place} (h : t.Straight place) :
    t.joinReal [] place = .reached place [] :=
  @joinBy_of_straight t _ _ [] place h

/-- What `realpath` makes of such a way is itself. -/
theorem realPath_of_straight {place : Place} (h : t.Straight place) (cwd : Place) :
    t.realPath cwd ⟨.slash, place⟩ = ⟨.slash, place⟩ := by
  have hstart : start cwd ⟨.slash, place⟩ = [] := if_neg nofun
  rw [realPath, hstart]
  simp only [joinReal_of_straight h]

/-- The kernel follows no link on a way without links, where a last one may
stay. -/
theorem walkBy_noLink {onLink : Place → List String → Except Errno Place} {followLast : Bool}
    {place names : Place} (hsolid : t.Solid place) (hproper : ∀ name ∈ names, Proper name)
    (h : ∀ q, q <+: place ++ names → (q ≠ place ++ names ∨ followLast = true) →
      t.readlink? q = none)
    {p : Place} (hwalk : t.walkBy onLink followLast place names = .ok p) :
    p = place ++ names ∧ t.Solid (place ++ names) := by
  induction names generalizing place with
  | nil =>
    rw [walkBy] at hwalk
    cases hwalk
    rw [List.append_nil]
    exact ⟨rfl, hsolid⟩
  | cons name rest ih =>
    obtain ⟨hname, hrest⟩ := List.forall_mem_cons.mp hproper
    have hnext : place ++ name :: rest = (place ++ [name]) ++ rest := by simp
    rw [hnext] at h ⊢
    have hdir : t.lookup place = some .directory := by
      by_contra hne
      rw [walkBy, if_pos hne] at hwalk
      cases hwalk
    rw [walkBy, if_neg (not_not.mpr hdir), if_neg (not_or.mpr ⟨hname.1, hname.2.1⟩),
      if_neg hname.2.2] at hwalk
    have hsolid' := hsolid.snoc hdir hname
    cases hentry : t.lookup (place ++ [name]) with
    | none =>
      rw [hentry] at hwalk
      cases hwalk
    | some entry =>
      rw [hentry] at hwalk
      cases entry with
      | link target =>
        dsimp only at hwalk
        by_cases hlast : rest = [] ∧ followLast = false
        · rw [if_pos hlast] at hwalk
          cases hwalk
          rw [hlast.1, List.append_nil]
          exact ⟨rfl, hsolid'⟩
        · have hinner : place ++ [name] ≠ (place ++ [name]) ++ rest ∨ followLast = true := by
            by_cases hempty : rest = []
            · exact Or.inr (eq_true_of_ne_false fun hf => hlast ⟨hempty, hf⟩)
            · exact Or.inl fun heq => hempty (List.append_right_eq_self.mp heq.symm)
          exact absurd hentry (hsolid'.readlink?_eq_none.mp
            (h _ (List.prefix_append _ _) hinner) target)
      | directory => exact ih hsolid' hrest h hwalk
      | file content mode owner => exact ih hsolid' hrest h hwalk
      | special => exact ih hsolid' hrest h hwalk

/-- **On such a way `stat` and `lstat` find the same.** -/
theorem Straight.lstat_of_stat {place : Place} (h : t.Straight place) {entry : Entry}
    (hstat : t.stat [] place = .ok entry) : t.lstat [] place = .ok entry := by
  rw [stat, find] at hstat
  cases hwalk : t.walk true maxLinks [] place with
  | error e =>
    rw [hwalk] at hstat
    cases hstat
  | ok p =>
    obtain ⟨hp, hsolid⟩ := walkBy_noLink solid_nil h.proper (fun q hq _ => h.noLink q hq) hwalk
    rw [List.nil_append] at hp hsolid
    rw [hwalk, hp] at hstat
    rw [hsolid.lstat_eq]
    exact hstat

/-! ## §7. Where the kernel arrives. -/

/-- The way of the kernel, with the number of links that are followed. -/
inductive Leads (t : FileTree) : Nat → Place → List String → Place → Prop where
  | done (place : Place) : Leads t 0 place [] place
  | stay {n : Nat} {place p : Place} {name : String} {rest : List String}
      (hdir : t.lookup place = some .directory) (hname : name = "" ∨ name = ".")
      (h : Leads t n place rest p) : Leads t n place (name :: rest) p
  | up {n : Nat} {place p : Place} {rest : List String}
      (hdir : t.lookup place = some .directory) (h : Leads t n place.dropLast rest p) :
      Leads t n place (".." :: rest) p
  | down {n : Nat} {place p : Place} {name : String} {rest : List String} {entry : Entry}
      (hdir : t.lookup place = some .directory) (hname : Proper name)
      (hentry : t.lookup (place ++ [name]) = some entry) (hlink : ∀ target, entry ≠ .link target)
      (h : Leads t n (place ++ [name]) rest p) : Leads t n place (name :: rest) p
  | follow {n : Nat} {place p : Place} {name : String} {rest : List String} {target : String}
      (hdir : t.lookup place = some .directory) (hname : Proper name)
      (hentry : t.lookup (place ++ [name]) = some (.link target))
      (h : Leads t n (base place target) (pieces target ++ rest) p) :
      Leads t (n + 1) place (name :: rest) p

theorem leads_of_walkBy {onLink : Place → List String → Except Errno Place}
    (honLink : ∀ place names p, onLink place names = .ok p → ∃ n, t.Leads n place names p)
    {place : Place} {names : List String} {p : Place}
    (h : t.walkBy onLink true place names = .ok p) : ∃ n, t.Leads n place names p := by
  induction names generalizing place with
  | nil =>
    rw [walkBy] at h
    cases h
    exact ⟨0, .done _⟩
  | cons name rest ih =>
    have hdir : t.lookup place = some .directory := by
      by_contra hne
      rw [walkBy, if_pos hne] at h
      cases h
    rw [walkBy, if_neg (not_not.mpr hdir)] at h
    by_cases hstay : name = "" ∨ name = "."
    · rw [if_pos hstay] at h
      obtain ⟨n, hn⟩ := ih h
      exact ⟨n, .stay hdir hstay hn⟩
    rw [if_neg hstay] at h
    by_cases hup : name = ".."
    · rw [if_pos hup] at h
      obtain ⟨n, hn⟩ := ih h
      exact ⟨n, hup ▸ .up hdir hn⟩
    rw [if_neg hup] at h
    have hname : Proper name := ⟨fun e => hstay (Or.inl e), fun e => hstay (Or.inr e), hup⟩
    cases hentry : t.lookup (place ++ [name]) with
    | none =>
      rw [hentry] at h
      cases h
    | some entry =>
      rw [hentry] at h
      cases entry with
      | link target =>
        dsimp only at h
        rw [if_neg (fun hlast => Bool.noConfusion hlast.2)] at h
        obtain ⟨n, hn⟩ := honLink _ _ _ h
        exact ⟨n + 1, .follow hdir hname hentry hn⟩
      | directory =>
        obtain ⟨n, hn⟩ := ih h
        exact ⟨n, .down hdir hname hentry (fun _ => nofun) hn⟩
      | file content mode owner =>
        obtain ⟨n, hn⟩ := ih h
        exact ⟨n, .down hdir hname hentry (fun _ => nofun) hn⟩
      | special =>
        obtain ⟨n, hn⟩ := ih h
        exact ⟨n, .down hdir hname hentry (fun _ => nofun) hn⟩

/-- What the kernel finds is at the end of such a way. -/
theorem leads_of_walk {links : Nat} {place : Place} {names : List String} {p : Place}
    (h : t.walk true links place names = .ok p) : ∃ n, t.Leads n place names p := by
  induction links generalizing place names p with
  | zero => exact leads_of_walkBy (fun _ _ _ h => by cases h) h
  | succ links ih => exact leads_of_walkBy (fun _ _ _ h => ih h) h

/-- There is one way. -/
theorem Leads.unique {n n' : Nat} {place p p' : Place} {names : List String}
    (h : t.Leads n place names p) (h' : t.Leads n' place names p') : n = n' ∧ p = p' := by
  have hstay {name : String} (h : name = "" ∨ name = ".") : ¬ Proper name := by
    rintro ⟨hempty, hdot, -⟩
    exact h.elim hempty hdot
  have hup : ¬ Proper ".." := fun h => h.2.2 rfl
  induction h generalizing n' with
  | done place =>
    cases h'
    exact ⟨rfl, rfl⟩
  | stay hdir hname h ih =>
    cases h' with
    | stay _ _ h' => exact ih h'
    | up => exact absurd hname (by decide)
    | down _ hname' => exact absurd hname' (hstay hname)
    | follow _ hname' => exact absurd hname' (hstay hname)
  | up hdir h ih =>
    cases h' with
    | stay _ hname' => exact absurd hname' (by decide)
    | up _ h' => exact ih h'
    | down _ hname' => exact absurd hname' hup
    | follow _ hname' => exact absurd hname' hup
  | down hdir hname hentry hlink h ih =>
    cases h' with
    | stay _ hname' => exact absurd hname (hstay hname')
    | up => exact absurd hname hup
    | down _ _ _ _ h' => exact ih h'
    | follow _ _ hentry' => exact absurd (Option.some.inj (hentry.symm.trans hentry')) (hlink _)
  | follow hdir hname hentry h ih =>
    cases h' with
    | stay _ hname' => exact absurd hname (hstay hname')
    | up => exact absurd hname hup
    | down _ _ hentry' hlink => exact absurd (Option.some.inj (hentry'.symm.trans hentry)) (hlink _)
    | follow _ _ hentry' h' =>
      cases Option.some.inj (hentry.symm.trans hentry')
      obtain ⟨rfl, hp⟩ := ih h'
      exact ⟨rfl, hp⟩

/-- A way goes through the end of its first part. -/
theorem Leads.split {n : Nat} {place p : Place} {xs ys : List String}
    (h : t.Leads n place (xs ++ ys) p) :
    ∃ m k q, n = m + k ∧ t.Leads m place xs q ∧ t.Leads k q ys p := by
  generalize hnames : xs ++ ys = names at h
  induction h generalizing xs with
  | done place =>
    obtain ⟨rfl, rfl⟩ := List.append_eq_nil_iff.mp hnames
    exact ⟨0, 0, place, rfl, .done place, .done place⟩
  | @stay n place p name rest hdir hname h ih =>
    obtain ⟨rfl, rfl⟩ | ⟨xs, rfl, rfl⟩ := List.append_eq_cons_iff.mp hnames
    · exact ⟨0, n, place, (Nat.zero_add n).symm, .done place, .stay hdir hname h⟩
    · obtain ⟨m, k, q, hn, hm, hk⟩ := ih rfl
      exact ⟨m, k, q, hn, .stay hdir hname hm, hk⟩
  | @up n place p rest hdir h ih =>
    obtain ⟨rfl, rfl⟩ | ⟨xs, rfl, rfl⟩ := List.append_eq_cons_iff.mp hnames
    · exact ⟨0, n, place, (Nat.zero_add n).symm, .done place, .up hdir h⟩
    · obtain ⟨m, k, q, hn, hm, hk⟩ := ih rfl
      exact ⟨m, k, q, hn, .up hdir hm, hk⟩
  | @down n place p name rest entry hdir hname hentry hlink h ih =>
    obtain ⟨rfl, rfl⟩ | ⟨xs, rfl, rfl⟩ := List.append_eq_cons_iff.mp hnames
    · exact ⟨0, n, place, (Nat.zero_add n).symm, .done place, .down hdir hname hentry hlink h⟩
    · obtain ⟨m, k, q, hn, hm, hk⟩ := ih rfl
      exact ⟨m, k, q, hn, .down hdir hname hentry hlink hm, hk⟩
  | @follow n place p name rest target hdir hname hentry h ih =>
    obtain ⟨rfl, rfl⟩ | ⟨xs, rfl, rfl⟩ := List.append_eq_cons_iff.mp hnames
    · exact ⟨0, n + 1, place, (Nat.zero_add _).symm, .done place, .follow hdir hname hentry h⟩
    · obtain ⟨m, k, q, hn, hm, hk⟩ := ih (List.append_assoc (pieces target) xs ys)
      exact ⟨m + 1, k, q, by omega, .follow hdir hname hentry hm, hk⟩

theorem solid_base {place : Place} (h : t.Solid place) (target : String) :
    t.Solid (base place target) := by
  rw [base]
  split
  · exact solid_nil
  · exact h

theorem Leads.solid {n : Nat} {place p : Place} {names : List String}
    (h : t.Leads n place names p) (hsolid : t.Solid place) : t.Solid p := by
  induction h with
  | done place => exact hsolid
  | stay hdir hname h ih => exact ih hsolid
  | up hdir h ih => exact ih hsolid.dropLast
  | down hdir hname hentry hlink h ih => exact ih (hsolid.snoc hdir hname)
  | follow hdir hname hentry h ih => exact ih (solid_base hsolid _)

/-! ## §8. Where the kernel arrives, the real path does. -/

/-- What is known of a link is where the kernel gets. -/
def Known (t : FileTree) (seen : Seen) : Prop :=
  ∀ path name q target, seen.lookup (path ++ [name]) = some (some q) →
    t.lookup (path ++ [name]) = some (.link target) →
    ∃ m, t.Leads m (base path target) (pieces target) q

/-- The links that are just followed take as many links at least as are still
to come. -/
def Waiting (t : FileTree) (n : Nat) (seen : Seen) : Prop :=
  ∀ path name target, seen.lookup (path ++ [name]) = some none →
    t.lookup (path ++ [name]) = some (.link target) →
    ∃ m q, t.Leads m (base path target) (pieces target) q ∧ n ≤ m

/-- Different links that were met. -/
structure Met (t : FileTree) (pending : List Place) (seen : Seen) : Prop where
  nodup : pending.Nodup
  links : ∀ key ∈ pending, key ∈ t.entries.map Prod.fst
  seen : ∀ key ∈ pending, seen.lookup key ≠ none

/-- What was followed is not waited for any more. -/
structure Grown (seen seen' : Seen) : Prop where
  waiting : ∀ key, seen'.lookup key = some none → seen.lookup key = some none
  met : ∀ key, seen.lookup key ≠ none → seen'.lookup key ≠ none

theorem Grown.refl (seen : Seen) : Grown seen seen := ⟨fun _ h => h, fun _ h => h⟩

theorem Waiting.mono {n n' : Nat} {seen seen' : Seen} (h : t.Waiting n seen) (hn : n' ≤ n)
    (hseen : ∀ key, seen'.lookup key = some none → seen.lookup key = some none) :
    t.Waiting n' seen' := by
  intro path name target hkey hentry
  obtain ⟨m, q, hm, hle⟩ := h path name target (hseen _ hkey) hentry
  exact ⟨m, q, hm, hn.trans hle⟩

theorem mem_keys_of_lookup {place : Place} (hne : place ≠ []) {entry : Entry}
    (h : t.lookup place = some entry) : place ∈ t.entries.map Prod.fst := by
  rw [lookup, if_neg hne] at h
  obtain ⟨before, behind, heq, -⟩ := List.lookup_eq_some_iff.mp h
  rw [heq]
  simp

/-- What a text of a link, or any names, come to where the kernel arrives. -/
def Arrives (t : FileTree) (depth : Nat) (follow : Seen → Place → List String → Real) : Prop :=
  ∀ n path names p seen pending, t.Leads n path names p → t.Solid path → t.Known seen →
    t.Waiting n seen → t.Met pending seen → t.entries.length ≤ depth + pending.length →
    ∃ seen', follow seen path names = .reached p seen' ∧ t.Known seen' ∧ Grown seen seen'

theorem Met.length_le {pending : List Place} {seen : Seen} (h : t.Met pending seen) :
    pending.length ≤ t.entries.length := by
  have hlength := (List.subperm_of_subset h.nodup h.links).length_le
  rwa [List.length_map] at hlength

/-- A link that was not met before is one more. -/
theorem Met.cons {pending : List Place} {seen : Seen} (h : t.Met pending seen) {key : Place}
    (hkey : key ∈ t.entries.map Prod.fst) (hnew : seen.lookup key = none) :
    t.Met (key :: pending) ((key, none) :: seen) := by
  refine ⟨List.nodup_cons.mpr ⟨fun hmem => h.seen key hmem hnew, h.nodup⟩,
    List.forall_mem_cons.mpr ⟨hkey, h.links⟩, List.forall_mem_cons.mpr ⟨?_, fun key' hmem => ?_⟩⟩
  · rw [List.lookup_cons, beq_self_eq_true]
    exact nofun
  · rw [List.lookup_cons]
    split
    · exact nofun
    · exact h.seen key' hmem

theorem Known.pending {seen : Seen} (h : t.Known seen) (key : Place) :
    t.Known ((key, none) :: seen) := by
  intro path name q target hlookup hentry
  rw [List.lookup_cons] at hlookup
  split at hlookup
  · cases hlookup
  · exact h path name q target hlookup hentry

theorem Known.cons {seen : Seen} (h : t.Known seen) {path : Place} {name target : String}
    {place : Place} {m : Nat} (hentry : t.lookup (path ++ [name]) = some (.link target))
    (hplace : t.Leads m (base path target) (pieces target) place) :
    t.Known ((path ++ [name], some place) :: seen) := by
  intro path' name' q target' hlookup hentry'
  rw [List.lookup_cons] at hlookup
  split at hlookup
  · rename_i heq
    obtain ⟨rfl, rfl⟩ := List.append_singleton_inj.mp (beq_iff_eq.mp heq)
    cases hlookup
    cases Option.some.inj (hentry.symm.trans hentry')
    exact ⟨m, hplace⟩
  · exact h path' name' q target' hlookup hentry'

/-- While a link is followed it takes no fewer links than are to come. -/
theorem Waiting.pending {n m : Nat} {seen : Seen} (h : t.Waiting n seen) (hm : m ≤ n)
    {path : Place} {name target : String} {place : Place}
    (hentry : t.lookup (path ++ [name]) = some (.link target))
    (hplace : t.Leads m (base path target) (pieces target) place) :
    t.Waiting m ((path ++ [name], none) :: seen) := by
  intro path' name' target' hlookup hentry'
  rw [List.lookup_cons] at hlookup
  split at hlookup
  · rename_i heq
    obtain ⟨rfl, rfl⟩ := List.append_singleton_inj.mp (beq_iff_eq.mp heq)
    cases Option.some.inj (hentry.symm.trans hentry')
    exact ⟨m, place, hplace, le_refl m⟩
  · obtain ⟨m', q, hm', hle⟩ := h path' name' target' hlookup hentry'
    exact ⟨m', q, hm', hm.trans hle⟩

/-- What was grown from a link just followed, with the link known. -/
theorem Grown.known {seen seen' : Seen} {key place : Place} (h : Grown ((key, none) :: seen) seen') :
    Grown seen ((key, some place) :: seen') := by
  constructor
  · intro key' hkey'
    rw [List.lookup_cons] at hkey'
    split at hkey'
    · cases hkey'
    · rename_i hne
      have hold := h.waiting key' hkey'
      rw [List.lookup_cons, hne] at hold
      exact hold
  · intro key' hkey'
    rw [List.lookup_cons]
    split
    · exact nofun
    · rename_i hne
      refine h.met key' ?_
      rw [List.lookup_cons, hne]
      exact hkey'

theorem Grown.trans {seen seen' seen'' : Seen} (h : Grown seen seen') (h' : Grown seen' seen'') :
    Grown seen seen'' :=
  ⟨fun key hkey => h.waiting key (h'.waiting key hkey), fun key hkey => h'.met key (h.met key hkey)⟩

theorem Met.grown {pending : List Place} {seen seen' : Seen} (h : t.Met pending seen)
    (hgrown : Grown seen seen') : t.Met pending seen' :=
  ⟨h.nodup, h.links, fun key hkey => hgrown.met key (h.seen key hkey)⟩

theorem joinBy_arrives {depth : Nat} {follow : Seen → Place → List String → Real}
    (hfollow : ∀ d, depth = d + 1 → t.Arrives d follow) : t.Arrives depth (t.joinBy follow) := by
  intro n path names
  induction names generalizing n path with
  | nil =>
    intro p seen pending h _ hknown _ _ _
    cases h
    exact ⟨seen, by rw [joinBy], hknown, Grown.refl seen⟩
  | cons name rest ih =>
    intro p seen pending h hsolid hknown hwaiting hmet hdepth
    rw [joinBy]
    cases h with
    | stay hdir hname h =>
      rw [if_pos hname]
      exact ih n path p seen pending h hsolid hknown hwaiting hmet hdepth
    | up hdir h =>
      rw [if_neg (by decide), if_pos rfl]
      exact ih n _ p seen pending h hsolid.dropLast hknown hwaiting hmet hdepth
    | down hdir hname hentry hlink h =>
      have hsolid' := hsolid.snoc hdir hname
      have hnone : t.readlink? (path ++ [name]) = none :=
        hsolid'.readlink?_eq_none.mpr fun target he =>
          hlink target (Option.some.inj (hentry.symm.trans he))
      rw [if_neg (not_or.mpr ⟨hname.1, hname.2.1⟩), if_neg hname.2.2]
      simp only [hnone]
      exact ih n _ p seen pending h hsolid' hknown hwaiting hmet hdepth
    | @follow n _ _ _ _ target hdir hname hentry h =>
      have hlink : t.readlink? (path ++ [name]) = some target :=
        (hsolid.snoc hdir hname).readlink?_eq_some.mpr hentry
      obtain ⟨m, k, q, rfl, hm, hk⟩ := h.split
      have hq : t.Solid q := hm.solid (solid_base hsolid target)
      rw [if_neg (not_or.mpr ⟨hname.1, hname.2.1⟩), if_neg hname.2.2]
      simp only [hlink]
      cases hlookup : seen.lookup (path ++ [name]) with
      | some known =>
        cases known with
        | some place =>
          obtain ⟨m', hm'⟩ := hknown path name place target hlookup hentry
          obtain ⟨-, rfl⟩ := hm'.unique hm
          exact ih k place p seen pending hk hq hknown
            (hwaiting.mono (by omega) fun _ hkey => hkey) hmet hdepth
        | none =>
          -- the link would have to be shorter than itself
          obtain ⟨m', q', hm', hle⟩ := hwaiting path name target hlookup hentry
          obtain ⟨rfl, -⟩ := hm'.unique hm
          omega
      | none =>
        have hkey : path ++ [name] ∈ t.entries.map Prod.fst :=
          mem_keys_of_lookup (by simp) hentry
        have hmet' := hmet.cons hkey hlookup
        have hlength : pending.length + 1 ≤ t.entries.length := hmet'.length_le
        obtain ⟨d, rfl⟩ := Nat.exists_eq_succ_of_ne_zero (show depth ≠ 0 by omega)
        have hdepth' : t.entries.length ≤ d + (pending.length + 1) := by omega
        obtain ⟨seen', hreached, hknown', hgrown⟩ := hfollow d rfl m _ _ q _ _ hm
          (solid_base hsolid target) (hknown.pending _) (hwaiting.pending (by omega) hentry hm)
          hmet' hdepth'
        have hgrown' : Grown seen ((path ++ [name], some q) :: seen') := hgrown.known
        simp only [hreached]
        obtain ⟨seen'', hrest, hknown'', hgrown''⟩ := ih k q p _ pending hk hq
          (hknown'.cons hentry hm) (hwaiting.mono (by omega) hgrown'.waiting)
          (hmet.grown hgrown') hdepth
        exact ⟨seen'', hrest, hknown'', hgrown'.trans hgrown''⟩

theorem join_arrives (depth : Nat) : t.Arrives depth (t.join depth) := by
  induction depth with
  | zero => exact joinBy_arrives fun _ h => by cases h
  | succ depth ih =>
    refine joinBy_arrives fun d hd => ?_
    cases hd
    exact ih

/-- **Where the kernel arrives, `realpath` arrives**: there is no loop. -/
theorem join_of_walk {links : Nat} {place p : Place} {names : List String} (hsolid : t.Solid place)
    (h : t.walk true links place names = .ok p) :
    ∃ seen, t.joinReal place names = .reached p seen := by
  obtain ⟨n, hn⟩ := leads_of_walk h
  obtain ⟨seen, hseen, -, -⟩ := join_arrives (t.entries.length + 1) n place names p [] [] hn hsolid
    (fun _ _ _ _ h => by cases h) (fun _ _ _ h => by cases h)
    ⟨List.nodup_nil, fun _ h => (List.not_mem_nil h).elim, fun _ h => (List.not_mem_nil h).elim⟩
    (by omega)
  exact ⟨seen, hseen⟩

/-! ## §9. The depth is enough. -/

theorem Straight.lookup_link {path : Place} (h : t.Straight path) {name target : String}
    (hname : Proper name) (hlink : t.readlink? (path ++ [name]) = some target) :
    t.lookup (path ++ [name]) = some (.link target) := by
  have hproper : ∀ n ∈ path ++ [name], Proper n := by
    intro n hn
    rcases List.mem_append.mp hn with hn | hn
    · exact h.proper n hn
    · rw [List.mem_singleton.mp hn]
      exact hname
  have hbefore : ∀ q, q <+: [] ++ (path ++ [name]) →
      (q ≠ [] ++ (path ++ [name]) ∨ false = true) → t.readlink? q = none := by
    rintro q hq (hne | hfalse)
    · rcases List.prefix_concat_iff.mp hq with rfl | hq
      · exact absurd rfl hne
      · exact h.noLink q hq
    · cases hfalse
  cases hwalk : t.walk false maxLinks [] (path ++ [name]) with
  | error e =>
    rw [readlink?, lstat, find, hwalk] at hlink
    cases hlink
  | ok p =>
    obtain ⟨-, hsolid⟩ := walkBy_noLink solid_nil hproper hbefore hwalk
    exact hsolid.readlink?_eq_some.mp hlink

/-- What a text of a link gives keeps what was met. -/
def Keeps (follow : Seen → Place → List String → Real) : Prop :=
  ∀ seen path names place seen', follow seen path names = .reached place seen' →
    ∀ key, seen.lookup key ≠ none → seen'.lookup key ≠ none

theorem lookup_cons_ne_none {seen : Seen} {key key' : Place} {v : Option Place}
    (h : seen.lookup key ≠ none) : List.lookup key ((key', v) :: seen) ≠ none := by
  rw [List.lookup_cons]
  split
  · exact nofun
  · exact h

theorem joinBy_keeps {follow : Seen → Place → List String → Real} (hfollow : Keeps follow) :
    Keeps (t.joinBy follow) := by
  intro seen path names
  induction names generalizing seen path with
  | nil =>
    rintro place seen' h key hkey
    rw [joinBy] at h
    cases h
    exact hkey
  | cons name rest ih =>
    intro place seen' h key hkey
    rw [joinBy] at h
    by_cases hstay : name = "" ∨ name = "."
    · rw [if_pos hstay] at h
      exact ih seen path place seen' h key hkey
    rw [if_neg hstay] at h
    by_cases hup : name = ".."
    · rw [if_pos hup] at h
      exact ih seen _ place seen' h key hkey
    rw [if_neg hup] at h
    cases hlink : t.readlink? (path ++ [name]) with
    | none =>
      simp only [hlink] at h
      exact ih seen _ place seen' h key hkey
    | some target =>
      simp only [hlink] at h
      cases hknown : seen.lookup (path ++ [name]) with
      | some known =>
        cases known with
        | some place₁ =>
          simp only [hknown] at h
          exact ih seen place₁ place seen' h key hkey
        | none =>
          simp only [hknown] at h
          cases h
      | none =>
        simp only [hknown] at h
        cases hinner : follow ((path ++ [name], none) :: seen) (base path target)
            (pieces target) with
        | left text =>
          simp only [hinner] at h
          cases h
        | reached place₁ seen₁ =>
          simp only [hinner] at h
          have hinner' := hfollow _ _ _ _ _ hinner key (lookup_cons_ne_none hkey)
          exact ih _ place₁ place seen' h key (lookup_cons_ne_none hinner')

theorem join_keeps (depth : Nat) : Keeps (t.join depth) := by
  induction depth with
  | zero =>
    refine joinBy_keeps ?_
    rintro seen path names place seen' h key hkey
    cases h
    exact hkey
  | succ depth ih => exact joinBy_keeps ih

/-- Two ways to follow links that agree on the links still to be met. -/
theorem joinBy_congr {depth : Nat} {f g : Seen → Place → List String → Real} (hkeeps : Keeps f)
    (hstraight : t.FollowsStraight f)
    (hfg : ∀ seen path names pending, t.StraightSeen seen → t.Straight path → t.Met pending seen →
      t.entries.length + 1 ≤ depth + pending.length → f seen path names = g seen path names)
    {seen : Seen} {path : Place} {names : List String} {pending : List Place}
    (hseen : t.StraightSeen seen) (hpath : t.Straight path) (hmet : t.Met pending seen)
    (hdepth : t.entries.length ≤ depth + pending.length) :
    t.joinBy f seen path names = t.joinBy g seen path names := by
  induction names generalizing seen path with
  | nil => rw [joinBy, joinBy]
  | cons name rest ih =>
    rw [joinBy, joinBy]
    by_cases hstay : name = "" ∨ name = "."
    · rw [if_pos hstay, if_pos hstay]
      exact ih hseen hpath hmet
    rw [if_neg hstay, if_neg hstay]
    by_cases hup : name = ".."
    · rw [if_pos hup, if_pos hup]
      exact ih hseen (hpath.of_prefix (List.dropLast_prefix path)) hmet
    rw [if_neg hup, if_neg hup]
    have hname : Proper name := ⟨fun e => hstay (Or.inl e), fun e => hstay (Or.inr e), hup⟩
    cases hlink : t.readlink? (path ++ [name]) with
    | none => exact ih hseen (hpath.snoc hname hlink) hmet
    | some target =>
      cases hknown : seen.lookup (path ++ [name]) with
      | some known =>
        cases known with
        | some place => exact ih hseen (hseen _ _ hknown) hmet
        | none => rfl
      | none =>
        have hmet' := hmet.cons
          (mem_keys_of_lookup (by simp) (hpath.lookup_link hname hlink)) hknown
        have hdepth' : t.entries.length + 1 ≤ depth + (pending.length + 1) := by omega
        have hagree := hfg _ _ (pieces target) _ (hseen.pending (path ++ [name]))
          (straight_base hpath target) hmet' hdepth'
        dsimp only
        rw [← hagree]
        cases hinner : f ((path ++ [name], none) :: seen) (base path target) (pieces target) with
        | left text => rfl
        | reached place seen' =>
          obtain ⟨hplace, hseen'⟩ := hstraight _ _ _ _ _ (hseen.pending _)
            (straight_base hpath target) hinner
          refine ih (hseen'.known _ hplace) hplace ⟨hmet.nodup, hmet.links, fun key hkey => ?_⟩
          exact lookup_cons_ne_none (hkeeps _ _ _ _ _ hinner key
            (lookup_cons_ne_none (hmet.seen key hkey)))

theorem join_succ {depth : Nat} {seen : Seen} {path : Place} {names : List String}
    {pending : List Place} (hseen : t.StraightSeen seen) (hpath : t.Straight path)
    (hmet : t.Met pending seen) (hdepth : t.entries.length ≤ depth + pending.length) :
    t.join depth seen path names = t.join (depth + 1) seen path names := by
  induction depth generalizing seen path names pending with
  | zero =>
    refine joinBy_congr (g := t.join 0) ?_ ?_ ?_ hseen hpath hmet hdepth
    · rintro seen path names place seen' h key hkey
      cases h
      exact hkey
    · rintro seen path names place seen' hseen hpath h
      cases h
      exact ⟨hpath, hseen⟩
    · intro _ _ _ pending _ _ hmet hdepth
      have := hmet.length_le
      omega
  | succ depth ih =>
    exact joinBy_congr (join_keeps depth) (join_straight depth)
      (fun _ _ _ pending hseen hpath hmet hdepth => ih hseen hpath hmet (by omega))
      hseen hpath hmet hdepth

/-- **A greater depth makes no difference.** -/
theorem joinReal_depth {place : Place} (h : t.Straight place) (names : List String) (more : Nat) :
    t.joinReal place names = t.join (t.entries.length + 1 + more) [] place names := by
  have hmet : t.Met [] [] := ⟨List.nodup_nil, fun _ h => (List.not_mem_nil h).elim,
    fun _ h => (List.not_mem_nil h).elim⟩
  induction more with
  | zero => rfl
  | succ more ih =>
    rw [ih, ← Nat.add_assoc]
    exact join_succ (fun _ _ h => by cases h) h hmet (by rw [List.length_nil]; omega)

end FileTree

end Hmn.Framework
