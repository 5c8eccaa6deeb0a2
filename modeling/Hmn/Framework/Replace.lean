/-
  Hmn.Framework.Replace — replacing a text within a text, again and again.

  `str.replace` scans a text from the left: where the old text stands the new
  one is put and the scan goes on behind it.  Several replacements one after
  the other are a simultaneous substitution when each one finds what stood in
  the text before all of them, and nothing else.  To say so the characters
  carry where they come from: a glyph was written in the text at some place,
  or was inserted by a replacement.

  Main results: `onlyWritten_iff` (what a run has to find), `run_eq_substitute`
  and `substitute_perm` (the order of the replacements does not matter).
-/
import Mathlib.Data.List.Induction
import Mathlib.Data.List.Nodup
import Mathlib.Data.List.Perm.Basic
import Mathlib.Data.List.Pairwise
import Mathlib.Tactic.Common

namespace Hmn.Framework.Replace

/-! ## §1. The scan. -/

/-- A part of a text that is scanned. -/
inductive Piece (α : Type) where
  | kept (x : α)
  | found (occurrence : List α)

namespace Piece

variable {α β : Type}

/-- What the part consists of. -/
def text : Piece α → List α
  | kept x => [x]
  | found occurrence => occurrence

/-- What it is replaced by. -/
def put (new : List α) : Piece α → List α
  | kept x => [x]
  | found _ => new

def found? : Piece α → Option (List α)
  | kept _ => none
  | found occurrence => some occurrence

def kept? : Piece α → Option α
  | kept x => some x
  | found _ => none

def map (g : α → β) : Piece α → Piece β
  | kept x => kept (g x)
  | found occurrence => found (occurrence.map g)

theorem put_map (g : α → β) (new : List α) (p : Piece α) :
    (p.map g).put (new.map g) = (p.put new).map g := by
  cases p <;> rfl

end Piece

section Scan

variable {α β : Type} {char : α → Char} {old : List Char}

/-- The parts of a text that is scanned for `old`, behind the first `skip`
elements. -/
def scan (char : α → Char) (old : List Char) : Nat → List α → List (Piece α)
  | _, [] => []
  | skip + 1, _ :: xs => scan char old skip xs
  | 0, x :: xs =>
    if old.isPrefixOf ((x :: xs).map char) then
      .found ((x :: xs).take old.length) :: scan char old (old.length - 1) xs
    else .kept x :: scan char old 0 xs

/-- The text with `new` for every `old`. -/
def replace (char : α → Char) (old : List Char) (new xs : List α) : List α :=
  (scan char old 0 xs).flatMap (Piece.put new)

/-- The occurrences that are replaced. -/
def occurrences (char : α → Char) (old : List Char) (xs : List α) : List (List α) :=
  (scan char old 0 xs).filterMap Piece.found?

/-- `text.replace(old, new)`, where `old` is not empty. -/
def strReplace (text old new : String) : String :=
  String.ofList (replace id old.toList new.toList text.toList)

/-- A scan takes the text apart. -/
theorem scan_text (hold : 0 < old.length) (skip : Nat) (xs : List α) :
    (scan char old skip xs).flatMap Piece.text = xs.drop skip := by
  induction xs generalizing skip with
  | nil => rw [scan, List.flatMap_nil, List.drop_nil]
  | cons x xs ih =>
    cases skip with
    | succ skip => rw [scan, ih, List.drop_succ_cons]
    | zero =>
      rw [scan]
      split_ifs with hit
      · obtain ⟨n, hn⟩ := Nat.exists_eq_succ_of_ne_zero (Nat.ne_of_gt hold)
        rw [List.flatMap_cons, ih, Piece.text, hn, Nat.succ_sub_one, List.take_succ_cons,
          List.cons_append, List.take_append_drop, List.drop_zero]
      · rw [List.flatMap_cons, ih, Piece.text, List.drop_zero, List.drop_zero,
          List.singleton_append]

/-- The scan sees the characters alone. -/
theorem scan_map {char' : β → Char} {g : α → β} (hchar : ∀ x, char' (g x) = char x) (skip : Nat)
    (xs : List α) :
    scan char' old skip (xs.map g) = (scan char old skip xs).map (Piece.map g) := by
  induction xs generalizing skip with
  | nil => rfl
  | cons x xs ih =>
    cases skip with
    | succ skip => rw [List.map_cons, scan, ih, scan]
    | zero =>
      have hchars : ((x :: xs).map g).map char' = (x :: xs).map char := by
        rw [List.map_map]
        exact List.map_congr_left fun y _ => hchar y
      rw [List.map_cons] at hchars
      rw [List.map_cons, scan, scan, hchars]
      split_ifs with hit
      · rw [ih, List.map_cons, Piece.map, List.map_take, List.map_cons]
      · rw [ih, List.map_cons, Piece.map]

theorem replace_map {char' : β → Char} {g : α → β} (hchar : ∀ x, char' (g x) = char x)
    (new xs : List α) :
    replace char' old (new.map g) (xs.map g) = (replace char old new xs).map g := by
  rw [replace, scan_map hchar, List.flatMap_map, replace, List.map_flatMap]
  exact List.flatMap_congr fun p _ => p.put_map g new

theorem found_ne_nil (hold : 0 < old.length) {skip : Nat} {xs occurrence : List α}
    (h : Piece.found occurrence ∈ scan char old skip xs) : occurrence ≠ [] := by
  induction xs generalizing skip with
  | nil => cases h
  | cons x xs ih =>
    cases skip with
    | succ skip => exact ih h
    | zero =>
      rw [scan] at h
      split_ifs at h with hit
      · rcases List.mem_cons.mp h with heq | h
        · obtain ⟨n, hn⟩ := Nat.exists_eq_succ_of_ne_zero (Nat.ne_of_gt hold)
          cases heq
          rw [hn, List.take_succ_cons]
          exact List.cons_ne_nil _ _
        · exact ih h
      · rcases List.mem_cons.mp h with heq | h
        · cases heq
        · exact ih h

theorem mem_occurrences {xs occurrence : List α} :
    occurrence ∈ occurrences char old xs ↔ Piece.found occurrence ∈ scan char old 0 xs := by
  rw [occurrences, List.mem_filterMap]
  constructor
  · rintro ⟨p, hp, heq⟩
    cases p with
    | kept x => cases heq
    | found o =>
      cases heq
      exact hp
  · exact fun h => ⟨_, h, rfl⟩

/-- A text is what a scan keeps and what it finds, in another order. -/
theorem kept_found_perm (ps : List (Piece α)) :
    (ps.filterMap Piece.kept? ++ (ps.filterMap Piece.found?).flatten).Perm
      (ps.flatMap Piece.text) := by
  induction ps with
  | nil => exact List.Perm.refl _
  | cons p ps ih =>
    cases p with
    | kept x => exact ih.cons x
    | found o =>
      rw [List.filterMap_cons_none rfl,
        List.filterMap_cons_some (show Piece.found? (.found o) = some o from rfl),
        List.flatten_cons, List.flatMap_cons]
      exact (List.perm_append_comm_assoc _ _ _).trans (ih.append_left o)

theorem text_perm (char : α → Char) (hold : 0 < old.length) (xs : List α) :
    ((scan char old 0 xs).filterMap Piece.kept? ++ (occurrences char old xs).flatten).Perm xs := by
  have hperm := kept_found_perm (scan char old 0 xs)
  rwa [scan_text hold, List.drop_zero] at hperm

theorem mem_of_occurrence (hold : 0 < old.length) {xs : List α} {x : α}
    (h : x ∈ (occurrences char old xs).flatten) : x ∈ xs :=
  (text_perm char hold xs).mem_iff.mp (List.mem_append_right _ h)

/-- A replacement as a substitution for each element. -/
theorem replace_eq_flatMap (hold : 0 < old.length) {new xs : List α} {g : α → List α}
    (hg : ∀ p ∈ scan char old 0 xs, p.text.flatMap g = p.put new) :
    replace char old new xs = xs.flatMap g := by
  calc replace char old new xs
      = (scan char old 0 xs).flatMap fun p => p.text.flatMap g :=
        List.flatMap_congr fun p hp => (hg p hp).symm
    _ = xs.flatMap g := by
        rw [← List.flatMap_assoc, scan_text hold, List.drop_zero]

end Scan

/-! ## §2. Where a character comes from. -/

/-- A character of a text in which replacements are made. -/
inductive Glyph where
  /-- It was written at the place `i`. -/
  | written (i : Nat) (c : Char)
  /-- A replacement put it there. -/
  | inserted (c : Char)
  deriving DecidableEq

namespace Glyph

def char : Glyph → Char
  | written _ c => c
  | inserted c => c

def isWritten : Glyph → Bool
  | written .. => true
  | inserted _ => false

end Glyph

/-- A text before the replacements. -/
def typeset (cs : List Char) : List Glyph := cs.zipIdx.map fun p => .written p.2 p.1

/-- An old text and the new one. -/
abbrev Sub := List Char × List Char

/-- What `sub` finds in a text. -/
abbrev Sub.finds (sub : Sub) (t : List Glyph) : List (List Glyph) :=
  occurrences Glyph.char sub.1 t

/-- One replacement. -/
def Sub.apply (t : List Glyph) (sub : Sub) : List Glyph :=
  replace Glyph.char sub.1 (sub.2.map .inserted) t

/-- What `sub` makes of a glyph, by what it finds in the text `source`. -/
def Sub.place (source : List Glyph) (sub : Sub) (x : Glyph) : List Glyph :=
  match (sub.finds source).find? (x ∈ ·) with
  | none => [x]
  | some occurrence => if occurrence.head? = some x then sub.2.map .inserted else []

/-- What several make of it: the one that finds it. -/
def placeAll (source : List Glyph) : List Sub → Glyph → List Glyph
  | [], x => [x]
  | sub :: subs, x =>
    if x ∈ (sub.finds source).flatten then sub.place source x else placeAll source subs x

/-- **Simultaneous substitution**: for what each of `subs` finds in the text
`source`, its new text. -/
def substitute (source : List Glyph) (subs : List Sub) : List Glyph :=
  source.flatMap (placeAll source subs)

/-- One replacement after the other, as long as each finds what it finds in
the text `source`, character by character at the same places. -/
def OnlyWritten (source : List Glyph) : List Sub → List Glyph → Prop
  | [], _ => True
  | sub :: subs, t =>
    sub.finds t = sub.finds source ∧ OnlyWritten source subs (sub.apply t)

instance : (source : List Glyph) → (subs : List Sub) → (t : List Glyph) →
    Decidable (OnlyWritten source subs t)
  | _, [], _ => isTrue trivial
  | source, sub :: subs, t =>
    have := instDecidableOnlyWritten source subs (sub.apply t)
    inferInstanceAs (Decidable (_ ∧ _))

theorem map_char_typeset (cs : List Char) : (typeset cs).map Glyph.char = cs := by
  rw [typeset, List.map_map]
  exact List.zipIdx_map_fst 0 cs

theorem typeset_written {cs : List Char} {x : Glyph} (h : x ∈ typeset cs) :
    x.isWritten = true := by
  obtain ⟨p, -, rfl⟩ := List.mem_map.mp h
  rfl

theorem typeset_nodup (cs : List Char) : (typeset cs).Nodup := by
  refine List.Nodup.of_map (fun x : Glyph => match x with | .written i _ => i | .inserted _ => 0) ?_
  rw [typeset, List.map_map]
  have hplaces : (cs.zipIdx.map fun p => p.2) = List.range' 0 cs.length :=
    List.zipIdx_map_snd 0 cs
  exact hplaces ▸ List.nodup_range'

/-- The characters of a run are the ones of the replacements of texts. -/
theorem map_char_apply (t : List Glyph) (sub : Sub) :
    (sub.apply t).map Glyph.char = replace id sub.1 sub.2 (t.map Glyph.char) := by
  have hnew : (sub.2.map Glyph.inserted).map Glyph.char = sub.2 := by
    rw [List.map_map]
    exact List.map_id _
  have hmap : replace id sub.1 ((sub.2.map Glyph.inserted).map Glyph.char) (t.map Glyph.char)
      = (sub.apply t).map Glyph.char := replace_map (fun _ => rfl) _ _
  rw [← hmap, hnew]

/-! ## §3. The steps of a run. -/

section Run

variable {cs : List Char}

/-- What is found in a text before the replacements was written. -/
theorem finds_written {sub : Sub} (hold : 0 < sub.1.length) {x : Glyph}
    (h : x ∈ (sub.finds (typeset cs)).flatten) : x ∈ typeset cs :=
  mem_of_occurrence hold h

theorem finds_nodup {sub : Sub} (hold : 0 < sub.1.length) :
    (sub.finds (typeset cs)).flatten.Nodup := by
  have hperm := text_perm Glyph.char hold (typeset cs)
  exact (List.nodup_append.mp (hperm.nodup_iff.mpr (typeset_nodup cs))).2.1

/-- The list that has an element, where no two have one in common. -/
theorem find?_mem {α : Type} [DecidableEq α] {ls : List (List α)} (h : ls.flatten.Nodup)
    {l : List α} (hl : l ∈ ls) {x : α} (hx : x ∈ l) : ls.find? (x ∈ ·) = some l := by
  obtain ⟨-, hdisjoint⟩ := List.nodup_flatten.mp h
  induction ls with
  | nil => cases hl
  | cons m ls ih =>
    rw [List.flatten_cons, List.nodup_append] at h
    rw [List.pairwise_cons] at hdisjoint
    rcases List.mem_cons.mp hl with rfl | hl
    · exact List.find?_cons_of_pos (decide_eq_true hx)
    · rw [List.find?_cons_of_neg (by simpa using fun hm => hdisjoint.1 l hl hm hx)]
      exact ih h.2.1 hl hdisjoint.2

theorem place_of_not_found {sub : Sub} {x : Glyph}
    (h : x ∉ (sub.finds (typeset cs)).flatten) : sub.place (typeset cs) x = [x] := by
  have hnone : (sub.finds (typeset cs)).find? (x ∈ ·) = none :=
    List.find?_eq_none.mpr fun l hl hx => h (List.mem_flatten.mpr ⟨l, hl, of_decide_eq_true hx⟩)
  rw [Sub.place, hnone]

theorem place_inserted {sub : Sub} (hold : 0 < sub.1.length) (c : Char) :
    sub.place (typeset cs) (.inserted c) = [.inserted c] :=
  place_of_not_found fun h => by cases typeset_written (finds_written hold h)

/-- An occurrence becomes the new text as a whole. -/
theorem flatMap_place {sub : Sub} (hold : 0 < sub.1.length) {occurrence : List Glyph}
    (h : occurrence ∈ sub.finds (typeset cs)) :
    occurrence.flatMap (sub.place (typeset cs)) = sub.2.map .inserted := by
  have hnodup := @finds_nodup cs _ hold
  have hne := found_ne_nil hold (mem_occurrences.mp h)
  have hplace : ∀ x ∈ occurrence, sub.place (typeset cs) x
      = if occurrence.head? = some x then sub.2.map .inserted else [] := by
    intro x hx
    rw [Sub.place, find?_mem hnodup h hx]
  have hself := (List.nodup_flatten.mp hnodup).1 occurrence h
  cases occurrence with
  | nil => exact absurd rfl hne
  | cons x xs =>
    -- Only the head of an occurrence is replaced; the glyphs behind it are dropped.
    have htail : xs.flatMap (sub.place (typeset cs)) = [] := by
      rw [List.flatMap_eq_nil_iff]
      intro y hy
      rw [hplace y (List.mem_cons_of_mem _ hy), if_neg]
      intro heq
      rw [List.head?_cons, Option.some_inj] at heq
      exact (List.nodup_cons.mp hself).1 (heq ▸ hy)
    rw [List.flatMap_cons, htail, List.append_nil, hplace x List.mem_cons_self,
      List.head?_cons, if_pos rfl]

/-- **One step**: a replacement that finds what it finds in the source does
what its substitution does. -/
theorem apply_eq_flatMap {sub : Sub} (hold : 0 < sub.1.length) {t : List Glyph}
    (hfinds : sub.finds t = sub.finds (typeset cs)) (hnodup : (t.filter Glyph.isWritten).Nodup) :
    sub.apply t = t.flatMap (sub.place (typeset cs)) := by
  refine replace_eq_flatMap hold fun p hp => ?_
  cases p with
  | found o =>
    have ho : o ∈ sub.finds (typeset cs) := by
      rw [← hfinds]
      exact mem_occurrences.mpr hp
    exact flatMap_place hold ho
  | kept x =>
    rw [Piece.text, Piece.put, List.flatMap_singleton]
    refine place_of_not_found fun hx => ?_
    have hkept : x ∈ (scan Glyph.char sub.1 0 t).filterMap Piece.kept? :=
      List.mem_filterMap.mpr ⟨_, hp, rfl⟩
    have hwritten := typeset_written (finds_written hold hx)
    rw [← hfinds] at hx
    -- A glyph that is kept lies outside every occurrence, for the glyphs of the text are
    -- distinct.
    have hperm := (text_perm Glyph.char hold t).filter Glyph.isWritten
    rw [List.filter_append] at hperm
    have hapart := (List.nodup_append.mp (hperm.nodup_iff.mpr hnodup)).2.2
    exact hapart x (List.mem_filter.mpr ⟨hkept, hwritten⟩) x
      (List.mem_filter.mpr ⟨hx, hwritten⟩) rfl

/-- Every replacement of `subs` replaces some text. -/
def OldTexts (subs : List Sub) : Prop := ∀ sub ∈ subs, 0 < sub.1.length

theorem placeAll_of_not_found {subs : List Sub} {x : Glyph}
    (h : ∀ sub ∈ subs, x ∉ (sub.finds (typeset cs)).flatten) :
    placeAll (typeset cs) subs x = [x] := by
  induction subs with
  | nil => rfl
  | cons sub subs ih =>
    rw [List.forall_mem_cons] at h
    rw [placeAll, if_neg h.1, ih h.2]

/-- What a substitution makes of a glyph that it finds was inserted. -/
theorem place_of_found {sub : Sub} {x y : Glyph}
    (h : x ∈ (sub.finds (typeset cs)).flatten) (hy : y ∈ sub.place (typeset cs) x) :
    y.isWritten = false := by
  obtain ⟨l, hl, hx⟩ := List.mem_flatten.mp h
  rw [Sub.place] at hy
  split at hy
  · rename_i hnone
    exact absurd (decide_eq_true hx) (List.find?_eq_none.mp hnone l hl)
  · split_ifs at hy with hhead
    · obtain ⟨c, -, rfl⟩ := List.mem_map.mp hy
      rfl
    · cases hy

/-- A glyph that was written is left as it is or is gone. -/
theorem placeAll_written {subs : List Sub} {x y : Glyph}
    (hy : y ∈ placeAll (typeset cs) subs x) (hwritten : y.isWritten = true) :
    y = x ∧ ∀ sub ∈ subs, x ∉ (sub.finds (typeset cs)).flatten := by
  induction subs with
  | nil => exact ⟨List.mem_singleton.mp hy, fun _ h => by cases h⟩
  | cons sub subs ih =>
    rw [placeAll] at hy
    split_ifs at hy with hx
    · rw [place_of_found hx hy] at hwritten
      cases hwritten
    · obtain ⟨rfl, hsubs⟩ := ih hy
      exact ⟨rfl, List.forall_mem_cons.mpr ⟨hx, hsubs⟩⟩

/-- One substitution more. -/
theorem placeAll_snoc {subs : List Sub} {sub : Sub} (hold : 0 < sub.1.length) (x : Glyph) :
    placeAll (typeset cs) (subs ++ [sub]) x
      = (placeAll (typeset cs) subs x).flatMap (sub.place (typeset cs)) := by
  induction subs with
  | nil =>
    rw [List.nil_append, placeAll, placeAll, List.flatMap_singleton]
    split_ifs with hx
    · rfl
    · exact (place_of_not_found hx).symm
  | cons other subs ih =>
    rw [List.cons_append, placeAll, placeAll]
    split_ifs with hx
    · have hinserted : ∀ y ∈ other.place (typeset cs) x, sub.place (typeset cs) y = [y] := by
        intro y hy
        cases y with
        | written i c => cases place_of_found hx hy
        | inserted c => exact place_inserted hold c
      rw [List.flatMap_congr hinserted, List.flatMap_singleton']
    · exact ih

theorem substitute_snoc {subs : List Sub} {sub : Sub} (hold : 0 < sub.1.length) :
    substitute (typeset cs) (subs ++ [sub])
      = (substitute (typeset cs) subs).flatMap (sub.place (typeset cs)) := by
  rw [substitute, substitute, List.flatMap_assoc]
  exact List.flatMap_congr fun x _ => placeAll_snoc hold x

/-- What is left of the source after a substitution. -/
theorem substitute_sublist (source : List Glyph) (subs : List Sub) :
    ((source.flatMap (placeAll (typeset cs) subs)).filter Glyph.isWritten).Sublist source := by
  induction source with
  | nil => exact List.Sublist.refl _
  | cons x source ih =>
    rw [List.flatMap_cons, List.filter_append]
    cases hx : (placeAll (typeset cs) subs x).filter Glyph.isWritten with
    | nil => exact ih.cons x
    | cons y ys =>
      have hy : y ∈ (placeAll (typeset cs) subs x).filter Glyph.isWritten := by
        rw [hx]
        exact List.mem_cons_self
      obtain ⟨hy, hwritten⟩ := List.mem_filter.mp hy
      have hplace := placeAll_of_not_found (placeAll_written hy hwritten).2
      obtain ⟨rfl, -⟩ := placeAll_written hy hwritten
      rw [hplace, List.filter_cons_of_pos hwritten, List.filter_nil] at hx
      rw [← hx, List.singleton_append]
      exact ih.cons_cons y

theorem substitute_nodup (subs : List Sub) :
    ((substitute (typeset cs) subs).filter Glyph.isWritten).Nodup :=
  (substitute_sublist (typeset cs) subs).nodup (typeset_nodup cs)

/-- **A step of a run** goes on from one simultaneous substitution to the
next. -/
theorem apply_substitute {subs : List Sub} {sub : Sub} (hold : 0 < sub.1.length)
    (hfinds : sub.finds (substitute (typeset cs) subs) = sub.finds (typeset cs)) :
    sub.apply (substitute (typeset cs) subs) = substitute (typeset cs) (subs ++ [sub]) := by
  rw [substitute_snoc hold, apply_eq_flatMap hold hfinds (substitute_nodup subs)]

/-! ## §4. Whole runs. -/

/-- A run, one replacement after the other. -/
def run (subs : List Sub) (t : List Glyph) : List Glyph := subs.foldl Sub.apply t

theorem run_of_onlyWritten {subs later : List Sub} (hold : OldTexts later)
    (h : OnlyWritten (typeset cs) later (substitute (typeset cs) subs)) :
    run later (substitute (typeset cs) subs) = substitute (typeset cs) (subs ++ later) := by
  induction later generalizing subs with
  | nil => rw [List.append_nil]; rfl
  | cons sub later ih =>
    obtain ⟨hsub, hlater⟩ := List.forall_mem_cons.mp hold
    have hstep := apply_substitute hsub h.1
    have hrest : OnlyWritten (typeset cs) later (substitute (typeset cs) (subs ++ [sub])) :=
      hstep ▸ h.2
    rw [run, List.foldl_cons, hstep, ← run, ih hlater hrest, List.append_assoc,
      List.singleton_append]

theorem substitute_nil (source : List Glyph) : substitute source [] = source := by
  rw [substitute, show placeAll source [] = fun x => [x] from rfl, List.flatMap_singleton']

/-- **A run that only finds what was written** computes the simultaneous
substitution. -/
theorem run_eq_substitute {subs : List Sub} (hold : OldTexts subs)
    (h : OnlyWritten (typeset cs) subs (typeset cs)) :
    run subs (typeset cs) = substitute (typeset cs) subs := by
  have hstart := substitute_nil (typeset cs)
  have hrun := @run_of_onlyWritten _ [] _ hold (by rwa [hstart])
  rwa [hstart, List.nil_append] at hrun

theorem onlyWritten_from {subs later : List Sub} (hold : OldTexts later) :
    OnlyWritten (typeset cs) later (substitute (typeset cs) subs)
      ↔ ∀ before sub behind, later = before ++ sub :: behind →
        sub.finds (substitute (typeset cs) (subs ++ before)) = sub.finds (typeset cs) := by
  induction later generalizing subs with
  | nil =>
    refine ⟨fun _ before sub behind h => ?_, fun _ => trivial⟩
    cases before <;> cases h
  | cons first later ih =>
    obtain ⟨hfirst, hlater⟩ := List.forall_mem_cons.mp hold
    constructor
    · rintro ⟨hfinds, hrest⟩ before sub behind heq
      rw [apply_substitute hfirst hfinds] at hrest
      cases before with
      | nil =>
        cases heq
        rw [List.append_nil]
        exact hfinds
      | cons b before =>
        cases heq
        have hsplit := (ih hlater).mp hrest before sub behind rfl
        rwa [List.append_assoc, List.singleton_append] at hsplit
    · intro h
      have hfinds := h [] first later rfl
      rw [List.append_nil] at hfinds
      refine ⟨hfinds, ?_⟩
      rw [apply_substitute hfirst hfinds, ih hlater]
      intro before sub behind heq
      rw [List.append_assoc, List.singleton_append]
      exact h (first :: before) sub behind (by rw [heq, List.cons_append])

/-- **What a run has to find**: with the texts put in that come before it,
each replacement finds what it finds in the text before the run. -/
theorem onlyWritten_iff {subs : List Sub} (hold : OldTexts subs) :
    OnlyWritten (typeset cs) subs (typeset cs)
      ↔ ∀ before sub behind, subs = before ++ sub :: behind →
        sub.finds (substitute (typeset cs) before) = sub.finds (typeset cs) := by
  have hfrom := @onlyWritten_from cs [] _ hold
  rwa [substitute_nil] at hfrom

/-! ## §5. The order of a run. -/

/-- What two replacements find lies apart. -/
def Apart (source : List Glyph) (sub other : Sub) : Prop :=
  ∀ x ∈ (sub.finds source).flatten, x ∉ (other.finds source).flatten

theorem apart_of_finds {before : List Sub} {sub other : Sub} (hold : 0 < sub.1.length)
    (hfinds : sub.finds (substitute (typeset cs) before) = sub.finds (typeset cs))
    (hother : other ∈ before) : Apart (typeset cs) other sub := by
  intro x hx hsub
  have hwritten := typeset_written (finds_written hold hsub)
  rw [← hfinds] at hsub
  obtain ⟨y, -, hy⟩ := List.mem_flatMap.mp (mem_of_occurrence hold hsub)
  obtain ⟨rfl, hnot⟩ := placeAll_written hy hwritten
  exact hnot other hother hx

theorem Apart.symm {source : List Glyph} {sub other : Sub} (h : Apart source sub other) :
    Apart source other sub :=
  fun x hother hsub => h x hsub hother

/-- A relation from every element to the later ones. -/
theorem pairwise_of_before {α : Type} {R : α → α → Prop} {xs : List α}
    (h : ∀ before x behind, xs = before ++ x :: behind → ∀ y ∈ before, R y x) : xs.Pairwise R := by
  induction xs using List.reverseRecOn with
  | nil => exact List.Pairwise.nil
  | append_singleton xs x ih =>
    rw [List.pairwise_append]
    refine ⟨ih fun before y behind heq => ?_, List.pairwise_singleton _ _, ?_⟩
    · exact h before y (behind ++ [x]) (by rw [heq, List.append_assoc, List.cons_append])
    · intro y hy z hz
      obtain rfl := List.mem_singleton.mp hz
      exact h xs z [] rfl y hy

theorem pairwise_apart {subs : List Sub} (hold : OldTexts subs)
    (h : OnlyWritten (typeset cs) subs (typeset cs)) :
    subs.Pairwise (Apart (typeset cs)) := by
  rw [onlyWritten_iff hold] at h
  refine pairwise_of_before fun before sub behind heq other hother => ?_
  have hsub : 0 < sub.1.length := hold sub (by rw [heq]; simp)
  exact apart_of_finds hsub (h before sub behind heq) hother

/-- Where at most one replacement finds a glyph, it is the one. -/
theorem placeAll_of_found {subs : List Sub} (happart : subs.Pairwise (Apart (typeset cs)))
    {sub : Sub} (hsub : sub ∈ subs) {x : Glyph} (hx : x ∈ (sub.finds (typeset cs)).flatten) :
    placeAll (typeset cs) subs x = sub.place (typeset cs) x := by
  induction subs with
  | nil => cases hsub
  | cons first subs ih =>
    rw [List.pairwise_cons] at happart
    rw [placeAll]
    rcases List.mem_cons.mp hsub with rfl | hsub
    · rw [if_pos hx]
    · rw [if_neg fun hfirst => happart.1 sub hsub x hfirst hx]
      exact ih happart.2 hsub

/-- **The order does not matter** where what the replacements find lies
apart. -/
theorem substitute_perm {subs subs' : List Sub} (hperm : subs.Perm subs')
    (happart : subs.Pairwise (Apart (typeset cs))) :
    substitute (typeset cs) subs = substitute (typeset cs) subs' := by
  have happart' : subs'.Pairwise (Apart (typeset cs)) :=
    happart.perm hperm fun h => h.symm
  refine List.flatMap_congr fun x _ => ?_
  by_cases hx : ∃ sub ∈ subs, x ∈ (sub.finds (typeset cs)).flatten
  · obtain ⟨sub, hsub, hx⟩ := hx
    rw [placeAll_of_found happart hsub hx,
      placeAll_of_found happart' (hperm.mem_iff.mp hsub) hx]
  · have hnot : ∀ sub ∈ subs, x ∉ (sub.finds (typeset cs)).flatten :=
      fun sub hsub hfound => hx ⟨sub, hsub, hfound⟩
    rw [placeAll_of_not_found hnot,
      placeAll_of_not_found fun sub hsub => hnot sub (hperm.mem_iff.mpr hsub)]

end Run

end Hmn.Framework.Replace
