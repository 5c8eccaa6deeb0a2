/-
  Hmn.Docs.Slug — names of services and hosts as segments of paths.

  Separators and runs of other characters become dashes, then `..` does, runs
  of dashes become one, and what is no letter or digit goes from both ends.
  No step brings back what a step before took out (`isSegment_safeSegment`).
-/
import Hmn.Framework.Matching
import Mathlib.Data.List.Chain
import Mathlib.Data.List.DropRight

namespace Hmn

open Framework Framework.Regex

/-! ## §1. The segments. -/

/-- `[a-zA-Z0-9._-]`. -/
def isSegmentChar (c : Char) : Bool := isAlnum c || c = '.' || c = '_' || c = '-'

/-- `text.replace("..", "-")`. -/
def replaceDots : List Char → List Char
  | '.' :: '.' :: cs => '-' :: replaceDots cs
  | c :: cs => c :: replaceDots cs
  | [] => []

/-- `-`, `.` or `_`. -/
def isEdge (c : Char) : Bool := c = '-' || c = '.' || c = '_'

/-- `text.strip("-._")`. -/
def stripSegment (cs : List Char) : List Char := (cs.dropWhile isEdge).rdropWhile isEdge

/-- `_safe_service_slug` and `_safe_host_segment`, for a name that leaves
nothing `default`. -/
def safeSegment (default value : String) : String :=
  let cleaned := (plus fun c => !isSegmentChar c).sub (fun _ => ['-'])
    (String.ofList (value.toList.map fun c => if c = '/' ∨ c = '\\' then '-' else c))
  let cleaned := String.ofList (replaceDots cleaned.toList)
  let cleaned := String.ofList
    (stripSegment ((plus (· = '-')).sub (fun _ => ['-']) cleaned).toList)
  if cleaned ≠ "" then cleaned else default

/-- `_safe_service_slug`. -/
def safeServiceSlug (value : String) : String := safeSegment "service" value

/-- `_safe_host_segment`. -/
def safeHostSegment (value : String) : String := safeSegment "host" value

example : safeHostSegment "../../prod/db?01" = "prod-db-01" ∧ safeServiceSlug "..." = "service"
    ∧ safeServiceSlug "node:web..v1" = "node-web-v1" := by
  decide +kernel

/-! ## §2. What a segment looks like. -/

/-- Two characters that are not both dots. -/
def NotDots (a b : Char) : Prop := ¬ (a = '.' ∧ b = '.')

/-- A name that is no way out of a directory: letters, digits and `._-`, with
letters or digits at both ends and no `..`. -/
structure IsSegment (cs : List Char) : Prop where
  nonempty : cs ≠ []
  chars : ∀ c ∈ cs, isSegmentChar c = true
  starts : ∀ c ∈ cs.head?, isAlnum c = true
  ends : ∀ c ∈ cs.getLast?, isAlnum c = true
  noDots : cs.IsChain NotDots

theorem replaceRuns_chars {p q : Char → Bool} {new : List Char} (hnew : ∀ c ∈ new, q c = true)
    (cs : List Char) (hq : ∀ c ∈ cs, p c = false → q c = true) :
    ∀ inRun, ∀ c ∈ replaceRuns p new inRun cs, q c = true := by
  induction cs with
  | nil => exact fun _ => nofun
  | cons d cs ih =>
    obtain ⟨hd, hcs⟩ := List.forall_mem_cons.mp hq
    intro inRun c hc
    rw [replaceRuns] at hc
    split at hc
    · rcases List.mem_append.mp hc with hc | hc
      · split at hc
        · cases hc
        · exact hnew c hc
      · exact ih hcs _ c hc
    · rename_i hp
      rcases List.mem_cons.mp hc with rfl | hc
      · exact hd (by simpa using hp)
      · exact ih hcs _ c hc

theorem replaceDots_chars {cs : List Char} (h : ∀ c ∈ cs, isSegmentChar c = true) :
    ∀ c ∈ replaceDots cs, isSegmentChar c = true := by
  fun_induction replaceDots cs with
  | case1 cs ih =>
    have hcs : ∀ c ∈ cs, isSegmentChar c = true := fun c hc => h c (by simp [hc])
    exact List.forall_mem_cons.mpr ⟨by decide, ih hcs⟩
  | case2 c cs _ ih =>
    obtain ⟨hc, hcs⟩ := List.forall_mem_cons.mp h
    exact List.forall_mem_cons.mpr ⟨hc, ih hcs⟩
  | case3 => exact nofun

/-- What follows a dot that stays is no dot. -/
theorem replaceDots_noDots (cs : List Char) :
    (replaceDots cs).IsChain NotDots
      ∧ (cs.head? ≠ some '.' → (replaceDots cs).head? ≠ some '.') := by
  fun_induction replaceDots cs with
  | case1 cs ih =>
    refine ⟨List.isChain_cons.mpr ⟨fun c _ h => absurd h.1 (by decide), ih.1⟩, fun h => ?_⟩
    exact absurd rfl h
  | case2 c cs hdots ih =>
    refine ⟨List.isChain_cons.mpr ⟨fun d hd h => ?_, ih.1⟩, fun h => h⟩
    obtain ⟨rfl, rfl⟩ := h
    refine ih.2 (fun hhead => ?_) hd
    cases cs with
    | nil => cases hhead
    | cons e cs =>
      obtain rfl := Option.some.inj hhead
      exact hdots cs rfl rfl
  | case3 => exact ⟨List.isChain_nil, fun h => h⟩

/-- Replacing runs of dashes brings no dots together. -/
theorem replaceRuns_noDots {cs : List Char} (h : cs.IsChain NotDots) :
    (replaceRuns (· = '-') ['-'] false cs).IsChain NotDots
      ∧ (replaceRuns (· = '-') ['-'] true cs).IsChain NotDots
      ∧ ((replaceRuns (· = '-') ['-'] false cs).head? = some '.' → cs.head? = some '.') := by
  induction cs with
  | nil => exact ⟨List.isChain_nil, List.isChain_nil, fun h => h⟩
  | cons c cs ih =>
    obtain ⟨hhead, hcs⟩ := List.isChain_cons.mp h
    obtain ⟨hfalse, htrue, hfirst⟩ := ih hcs
    by_cases hc : c = '-'
    · subst hc
      refine ⟨?_, htrue, fun h => absurd h (by simp [replaceRuns])⟩
      exact List.isChain_cons.mpr ⟨fun d _ h => absurd h.1 (by decide), htrue⟩
    · have hkept : ∀ inRun, replaceRuns (· = '-') ['-'] inRun (c :: cs)
          = c :: replaceRuns (· = '-') ['-'] false cs := by
        intro inRun
        rw [replaceRuns, if_neg (by simpa using hc)]
      have hchain : (c :: replaceRuns (· = '-') ['-'] false cs).IsChain NotDots := by
        refine List.isChain_cons.mpr ⟨fun d hd h => ?_, hfalse⟩
        obtain ⟨rfl, rfl⟩ := h
        exact hhead '.' (hfirst hd) ⟨rfl, rfl⟩
      rw [hkept, hkept]
      exact ⟨hchain, hchain, fun h => h⟩

/-! ## §3. The ends. -/

theorem stripSegment_infix (cs : List Char) : stripSegment cs <:+: cs :=
  (List.rdropWhile_prefix _ _).isInfix.trans (List.dropWhile_suffix _).isInfix

/-- What is stripped starts and ends with no edge. -/
theorem stripSegment_ends (cs : List Char) :
    (∀ c ∈ (stripSegment cs).head?, isEdge c = false)
      ∧ ∀ c ∈ (stripSegment cs).getLast?, isEdge c = false := by
  have hleads : stripSegment cs <+: cs.dropWhile isEdge := List.rdropWhile_prefix _ _
  constructor
  · intro c hc
    obtain ⟨rest, hrest⟩ := hleads
    have hhead : (cs.dropWhile isEdge).head? = some c := by
      rw [← hrest, List.head?_append, hc]
      rfl
    simpa [hhead] using List.head?_dropWhile_not isEdge cs
  · intro c hc
    have hne : stripSegment cs ≠ [] := fun hnil => by
      rw [hnil] at hc
      cases hc
    have hlast : (stripSegment cs).getLast hne = c :=
      Option.some.inj ((List.getLast?_eq_some_getLast hne).symm.trans hc)
    rw [← hlast]
    exact Bool.eq_false_iff.mpr (List.rdropWhile_last_not isEdge _ hne)

theorem isAlnum_of_isSegmentChar {c : Char} (h : isSegmentChar c = true) (hedge : isEdge c = false) :
    isAlnum c = true := by
  simp only [isSegmentChar, isEdge, Bool.or_eq_true, Bool.or_eq_false_iff,
    decide_eq_true_eq, decide_eq_false_iff_not] at h hedge
  tauto

/-- The characters of a name that are kept, before the default. -/
def keptChars (cs : List Char) : List Char :=
  stripSegment (replaceRuns (· = '-') ['-'] false (replaceDots
    (replaceRuns (fun c => !isSegmentChar c) ['-'] false cs)))

theorem safeSegment_eq (default value : String) :
    let kept := keptChars (value.toList.map fun c => if c = '/' ∨ c = '\\' then '-' else c)
    safeSegment default value = if kept ≠ [] then String.ofList kept else default := by
  simp only [safeSegment, sub_plus, String.toList_ofList, keptChars, ne_eq,
    String.ofList_eq_empty_iff]
  congr

theorem isSegment_keptChars {cs : List Char} (hne : keptChars cs ≠ []) :
    IsSegment (keptChars cs) := by
  have hdash : ∀ c ∈ ['-'], isSegmentChar c = true := by decide
  have hreplaced := replaceRuns_chars (p := fun c => !isSegmentChar c) hdash cs
    (fun c _ hc => by simpa using hc) false
  have hchars := replaceRuns_chars (p := (· = '-')) hdash _
    (fun c hc _ => replaceDots_chars hreplaced c hc) false
  have hwithin : keptChars cs <:+: _ := stripSegment_infix _
  obtain ⟨hstarts, hends⟩ : (∀ c ∈ (keptChars cs).head?, isEdge c = false)
      ∧ ∀ c ∈ (keptChars cs).getLast?, isEdge c = false := stripSegment_ends _
  have hkept : ∀ c ∈ keptChars cs, isSegmentChar c = true := fun c hc =>
    hchars c (hwithin.subset hc)
  exact {
    nonempty := hne
    chars := hkept
    starts := fun c hc => isAlnum_of_isSegmentChar (hkept c (List.mem_of_head? hc)) (hstarts c hc)
    ends := fun c hc =>
      isAlnum_of_isSegmentChar (hkept c (List.mem_of_getLast? hc)) (hends c hc)
    noDots := by
      obtain ⟨before, after, heq⟩ := hwithin
      have hchain := (replaceRuns_noDots (replaceDots_noDots
        (replaceRuns (fun c => !isSegmentChar c) ['-'] false cs)).1).1
      rw [← heq] at hchain
      exact hchain.left_of_append.right_of_append }

/-- **A name made safe is a segment**: it is not empty, has letters, digits and
`._-` only, a letter or digit at both ends, and no `..`. -/
theorem isSegment_safeSegment {default : String} (hdefault : IsSegment default.toList)
    (value : String) : IsSegment (safeSegment default value).toList := by
  rw [safeSegment_eq]
  split
  · rename_i hne
    rw [String.toList_ofList]
    exact isSegment_keptChars hne
  · exact hdefault

theorem isSegment_safeServiceSlug (value : String) : IsSegment (safeServiceSlug value).toList :=
  isSegment_safeSegment ⟨by decide, by decide, by decide, by decide, by simp [NotDots]⟩ value

theorem isSegment_safeHostSegment (value : String) : IsSegment (safeHostSegment value).toList :=
  isSegment_safeSegment ⟨by decide, by decide, by decide, by decide, by simp [NotDots]⟩ value

end Hmn
