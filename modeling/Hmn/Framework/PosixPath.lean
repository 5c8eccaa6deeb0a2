/-
  Hmn.Framework.PosixPath — paths as texts and as lists of names.

  A path is parsed into its anchor and its names; empty names and `.` are
  left out, `..` is a name like any other until the path is resolved.
-/
import Hmn.Framework.Text
import Mathlib.Data.List.Induction

namespace Hmn.Framework

/-! ## §1. Paths. -/

/-- What a path starts with. -/
inductive Anchor where
  | relative
  /-- `/`. -/
  | slash
  /-- `//`, which is not `/`. -/
  | doubleSlash
  deriving DecidableEq

/-- `PurePosixPath`. -/
structure PosixPath where
  anchor : Anchor
  names : List String
  deriving DecidableEq

namespace PosixPath

def Anchor.text : Anchor → String
  | .relative => ""
  | .slash => "/"
  | .doubleSlash => "//"

/-- The anchor of a text. -/
def anchorOf : List Char → Anchor
  | '/' :: '/' :: '/' :: _ => .slash
  | '/' :: '/' :: _ => .doubleSlash
  | '/' :: _ => .slash
  | _ => .relative

/-- The names a text is made of. -/
def namesOf (cs : List Char) : List String :=
  ((cs.splitOn '/').filter (fun name => name ≠ [] ∧ name ≠ ['.'])).map String.ofList

/-- `PurePosixPath(s)`. -/
def ofString (s : String) : PosixPath := ⟨anchorOf s.toList, namesOf s.toList⟩

/-- `str(path)`. -/
def text (p : PosixPath) : String :=
  if p.anchor = .relative ∧ p.names = [] then "."
  else Anchor.text p.anchor ++ Text.join "/" p.names

/-- `path.parent`. -/
def parent (p : PosixPath) : PosixPath := { p with names := p.names.dropLast }

/-- `path / s`. -/
def join (p : PosixPath) (s : String) : PosixPath :=
  let q := ofString s
  if q.anchor = .relative then { p with names := p.names ++ q.names } else q

/-- `path / path`. -/
def joinPath (p q : PosixPath) : PosixPath :=
  if q.anchor = .relative then { p with names := p.names ++ q.names } else q

/-- `path.parents[i]`, where there is one. -/
def parents? (p : PosixPath) (i : Nat) : Option PosixPath :=
  if i < p.names.length then some { p with names := p.names.take (p.names.length - (i + 1)) }
  else none

/-- Names with every `..` and the name before it taken out. -/
def normalize (names : List String) : List String :=
  names.foldl (fun kept name => if name = ".." then kept.dropLast else kept ++ [name]) []

/-- `path.resolve()`, in the working directory `cwd`. -/
def resolve (cwd : List String) (p : PosixPath) : PosixPath :=
  ⟨.slash, normalize ((if p.anchor = .relative then cwd else []) ++ p.names)⟩

/-- `path.relative_to(root)`, where that is possible. -/
def relativeTo? (p root : PosixPath) : Option PosixPath :=
  if p.anchor = root.anchor ∧ root.names <+: p.names then
    some ⟨.relative, p.names.drop root.names.length⟩
  else none

/-- `root in path.parents`. -/
def Under (p root : PosixPath) : Prop :=
  p.anchor = root.anchor ∧ root.names <+: p.names ∧ p.names ≠ root.names

instance (p root : PosixPath) : Decidable (p.Under root) :=
  inferInstanceAs (Decidable (_ ∧ _ ∧ _))

example : (ofString "/opt/blog/config/app.env").parent.parent.text = "/opt/blog"
    ∧ (ofString "./data").parent.text = "." ∧ (ofString "//srv//x").text = "//srv/x" := by
  decide +kernel

/-! ## §2. Resolved paths. -/

theorem normalize_append (names : List String) (name : String) :
    normalize (names ++ [name])
      = if name = ".." then (normalize names).dropLast else normalize names ++ [name] := by
  rw [normalize, List.foldl_append]
  rfl

theorem normalize_plain (names : List String) : ∀ name ∈ normalize names, name ≠ ".." := by
  induction names using List.reverseRecOn with
  | nil => exact nofun
  | append_singleton names name ih =>
    rw [normalize_append]
    split
    · exact fun x hx => ih x (List.dropLast_subset _ hx)
    · rename_i hname
      intro x hx
      rcases List.mem_append.mp hx with hx | hx
      · exact ih x hx
      · rwa [List.mem_singleton.mp hx]

theorem normalize_of_plain {names : List String} (h : ∀ name ∈ names, name ≠ "..") :
    normalize names = names := by
  induction names using List.reverseRecOn with
  | nil => rfl
  | append_singleton names name ih =>
    rw [normalize_append, if_neg (h name (by simp)),
      ih fun x hx => h x (List.mem_append_left _ hx)]

/-- Names that are resolved. -/
def Resolved (p : PosixPath) : Prop := p.anchor = .slash ∧ ∀ name ∈ p.names, name ≠ ".."

theorem resolved_resolve (cwd : List String) (p : PosixPath) : (p.resolve cwd).Resolved :=
  ⟨rfl, normalize_plain _⟩

/-- Resolving twice is resolving once. -/
theorem resolve_eq_self {p : PosixPath} (h : p.Resolved) (cwd : List String) :
    p.resolve cwd = p := by
  obtain ⟨anchor, names⟩ := p
  obtain ⟨rfl, hnames⟩ := h
  rw [resolve, if_neg nofun, List.nil_append, normalize_of_plain hnames]

theorem relativeTo?_eq_some {p root q : PosixPath} (h : p.relativeTo? root = some q) :
    q.anchor = .relative ∧ p.anchor = root.anchor ∧ p.names = root.names ++ q.names := by
  rw [relativeTo?, Option.ite_none_right_eq_some] at h
  obtain ⟨⟨hanchor, hleads⟩, hq⟩ := h
  obtain rfl := Option.some.inj hq
  exact ⟨rfl, hanchor, (List.prefix_iff_eq_append.mp hleads).symm⟩

theorem normalize_append_plain (names : List String) {more : List String}
    (h : ∀ name ∈ more, name ≠ "..") : normalize (names ++ more) = normalize names ++ more := by
  induction more using List.reverseRecOn with
  | nil => rw [List.append_nil, List.append_nil]
  | append_singleton more name ih =>
    rw [← List.append_assoc, normalize_append, if_neg (h name (by simp)),
      ih fun x hx => h x (List.mem_append_left _ hx), List.append_assoc]

/-- Names below a path stay below it. -/
theorem resolve_below (cwd : List String) (p : PosixPath) {more : List String}
    (h : ∀ name ∈ more, name ≠ "..") :
    resolve cwd { p with names := p.names ++ more }
      = { p.resolve cwd with names := (p.resolve cwd).names ++ more } := by
  show PosixPath.mk _ (normalize (_ ++ (p.names ++ more))) = _
  rw [← List.append_assoc, normalize_append_plain _ h]
  rfl

/-! ## §3. The text of a path. -/

/-- Names that a path can be parsed into. -/
def WellFormed (p : PosixPath) : Prop :=
  ∀ name ∈ p.names, name ≠ "" ∧ name ≠ "." ∧ '/' ∉ name.toList

theorem slash_not_mem_splitOn {cs piece : List Char} (h : piece ∈ cs.splitOn '/') :
    '/' ∉ piece := by
  induction cs generalizing piece with
  | nil =>
    rw [List.splitOn_nil, List.mem_singleton] at h
    rw [h]
    exact List.not_mem_nil
  | cons c cs ih =>
    rw [List.splitOn_cons_eq_if_modifyHead] at h
    split_ifs at h with hc
    · rcases List.mem_cons.mp h with rfl | h
      · exact List.not_mem_nil
      · exact ih h
    · obtain ⟨first, rest, hrest⟩ := List.exists_cons_of_ne_nil (List.splitOn_ne_nil '/' cs)
      rw [hrest] at h ih
      rcases List.mem_cons.mp h with rfl | h
      · rw [List.mem_cons, not_or]
        exact ⟨fun hslash => hc (beq_iff_eq.mpr hslash.symm), ih List.mem_cons_self⟩
      · exact ih (List.mem_cons_of_mem _ h)

/-- **A parsed path is well formed.** -/
theorem wellFormed_ofString (s : String) : (ofString s).WellFormed := by
  intro name hname
  obtain ⟨piece, hpiece, rfl⟩ := List.mem_map.mp hname
  obtain ⟨hsplit, hkept⟩ := List.mem_filter.mp hpiece
  obtain ⟨hempty, hdot⟩ := of_decide_eq_true hkept
  refine ⟨fun h => hempty (String.ofList_eq_empty_iff.mp h), fun h => hdot ?_, ?_⟩
  · rw [← String.toList_ofList (l := piece), h]
    rfl
  · rw [String.toList_ofList]
    exact slash_not_mem_splitOn hsplit

theorem namesOf_slash (cs : List Char) : namesOf ('/' :: cs) = namesOf cs := by
  unfold namesOf
  rw [List.splitOn_cons_eq_if_modifyHead, if_pos (by decide), List.filter_cons_of_neg (by simp)]

/-- Names between slashes are read back. -/
theorem namesOf_join {names : List String}
    (h : ∀ name ∈ names, name ≠ "" ∧ name ≠ "." ∧ '/' ∉ name.toList) :
    namesOf (Text.join "/" names).toList = names := by
  cases hnames : names with
  | nil => rfl
  | cons first rest =>
    rw [← hnames]
    have hsplit : (List.intercalate ['/'] (names.map String.toList)).splitOn '/'
        = names.map String.toList := by
      refine List.splitOn_intercalate '/' (fun piece hpiece => ?_) (by simp [hnames])
      obtain ⟨name, hname, rfl⟩ := List.mem_map.mp hpiece
      exact (h name hname).2.2
    have hkept : (names.map String.toList).filter (fun name => name ≠ [] ∧ name ≠ ['.'])
        = names.map String.toList := by
      refine List.filter_eq_self.mpr fun piece hpiece => ?_
      obtain ⟨name, hname, rfl⟩ := List.mem_map.mp hpiece
      obtain ⟨hempty, hdot, -⟩ := h name hname
      refine decide_eq_true ⟨fun hnil => hempty (String.toList_eq_nil_iff.mp hnil), fun heq => ?_⟩
      exact hdot (String.toList_inj.mp heq)
    unfold namesOf Text.join
    rw [String.toList_intercalate, show "/".toList = ['/'] from rfl, hsplit, hkept, List.map_map]
    simp [Function.comp_def]

/-- What the names of a path begin with. -/
theorem join_head {names : List String} (hne : names ≠ [])
    (h : ∀ name ∈ names, name ≠ "" ∧ name ≠ "." ∧ '/' ∉ name.toList) :
    ∃ c cs, (Text.join "/" names).toList = c :: cs ∧ c ≠ '/' := by
  obtain ⟨first, rest, rfl⟩ := List.exists_cons_of_ne_nil hne
  obtain ⟨hempty, -, hslash⟩ := h first List.mem_cons_self
  obtain ⟨c, cs, hcs⟩ := List.exists_cons_of_ne_nil fun hnil =>
    hempty (String.toList_eq_nil_iff.mp hnil)
  have hc : c ≠ '/' := by
    rintro rfl
    exact hslash (hcs ▸ List.mem_cons_self)
  cases rest with
  | nil =>
    refine ⟨c, cs, ?_, hc⟩
    rw [← hcs]
    simp [Text.join]
  | cons next rest =>
    refine ⟨c, cs ++ ("/" ++ Text.join "/" (next :: rest)).toList, ?_, hc⟩
    unfold Text.join
    rw [String.intercalate_cons_cons, String.append_assoc, String.toList_append, hcs]
    rfl

/-- Slashes before a name. -/
theorem anchorOf_slashes {c : Char} (hc : c ≠ '/') (cs : List Char) :
    anchorOf (c :: cs) = .relative ∧ anchorOf ('/' :: c :: cs) = .slash
      ∧ anchorOf ('/' :: '/' :: c :: cs) = .doubleSlash := by
  refine ⟨?_, ?_, ?_⟩
  · unfold anchorOf
    split <;> simp_all
  · rw [anchorOf]
    · intro tail heq
      exact hc (List.cons.inj heq).1
    · intro tail heq
      exact hc (List.cons.inj heq).1
  · rw [anchorOf]
    intro tail heq
    exact hc (List.cons.inj heq).1

/-- **A path is read back** from its text. -/
theorem ofString_text {p : PosixPath} (h : p.WellFormed) : ofString p.text = p := by
  obtain ⟨anchor, names⟩ := p
  by_cases hne : names = []
  · subst hne
    cases anchor <;> decide +kernel
  · obtain ⟨c, cs, hcs, hc⟩ := join_head hne h
    obtain ⟨hrelative, hslash, hdouble⟩ := anchorOf_slashes hc cs
    have hjoin : namesOf (c :: cs) = names := hcs ▸ namesOf_join h
    have htext : text ⟨anchor, names⟩ = Anchor.text anchor ++ Text.join "/" names :=
      if_neg (fun hnil => hne hnil.2)
    unfold ofString
    rw [htext, String.toList_append, hcs]
    cases anchor with
    | relative =>
      show PosixPath.mk (anchorOf (c :: cs)) (namesOf (c :: cs)) = _
      rw [hrelative, hjoin]
    | slash =>
      show PosixPath.mk (anchorOf ('/' :: c :: cs)) (namesOf ('/' :: c :: cs)) = _
      rw [hslash, namesOf_slash, hjoin]
    | doubleSlash =>
      show PosixPath.mk (anchorOf ('/' :: '/' :: c :: cs)) (namesOf ('/' :: '/' :: c :: cs)) = _
      rw [hdouble, namesOf_slash, namesOf_slash, hjoin]

end PosixPath

end Hmn.Framework
