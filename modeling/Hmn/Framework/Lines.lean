/-
  Hmn.Framework.Lines — the text operations of a reader of lines.
-/
import Hmn.Framework.Text

namespace Hmn.Framework.Text

/-- A character at which `splitlines` ends a line. -/
def isLineEnd (c : Char) : Bool :=
  let n := c.toNat
  (10 ≤ n && n ≤ 13) || (28 ≤ n && n ≤ 30) || n == 133 || n == 8232 || n == 8233

/-- `s.splitlines()` on characters, `line` the characters of the line so far
in reverse.  A carriage return takes the newline behind it along, and the end
of the text ends no empty line. -/
def splitLinesFrom : List Char → List Char → List (List Char)
  | [], [] => []
  | line, [] => [line.reverse]
  | line, '\r' :: '\n' :: cs => line.reverse :: splitLinesFrom [] cs
  | line, c :: cs =>
    if isLineEnd c then line.reverse :: splitLinesFrom [] cs else splitLinesFrom (c :: line) cs

/-- `s.splitlines()`. -/
def splitLines (s : String) : List String := (splitLinesFrom [] s.toList).map String.ofList

/-- `s.split(None, n)` on characters: `n` words, and then what follows them
from its first character on. -/
def splitMaxChars : Nat → List Char → List (List Char)
  | 0, cs =>
    let rest := cs.dropWhile isSpace
    if rest = [] then [] else [rest]
  | n + 1, cs =>
    let cs := cs.dropWhile isSpace
    if cs = [] then []
    else cs.takeWhile (fun c => !isSpace c)
      :: splitMaxChars n (cs.dropWhile (fun c => !isSpace c))

/-- `s.split(None, n)`. -/
def splitMax (s : String) (n : Nat) : List String := (splitMaxChars n s.toList).map String.ofList

/-- `s.endswith(suffix)`. -/
def endsWith (s suffix : String) : Bool := suffix.toList.isSuffixOf s.toList

/-- `s.removesuffix(suffix)`. -/
def removeSuffix (s suffix : String) : String :=
  if endsWith s suffix then
    String.ofList (s.toList.take (s.toList.length - suffix.toList.length))
  else s

/-- `s.split(sep, 1)[1]`: the text behind the first separator, which is there. -/
def after (s : String) (sep : Char) : String :=
  String.ofList ((s.toList.dropWhile (· ≠ sep)).drop 1)

/-- `s.rsplit(sep, 1)`: the texts before and behind the last separator, which
is there. -/
def splitLast (s : String) (sep : Char) : String × String :=
  let reversed := s.toList.reverse
  (String.ofList ((reversed.dropWhile (· ≠ sep)).drop 1).reverse,
    String.ofList (reversed.takeWhile (· ≠ sep)).reverse)

/-- `s.rsplit(sep, n)`, on characters from the last one on: `n` pieces at most
are split off the end. -/
def rsplitChars (sep : Char) : Nat → List Char → List (List Char)
  | 0, cs => [cs.reverse]
  | n + 1, cs =>
    match cs.dropWhile (· ≠ sep) with
    | [] => [cs.reverse]
    | _ :: rest => rsplitChars sep n rest ++ [(cs.takeWhile (· ≠ sep)).reverse]

/-- `s.rsplit(sep, n)`. -/
def rsplit (s : String) (sep : Char) (n : Nat) : List String :=
  (rsplitChars sep n s.toList.reverse).map String.ofList

/-- `s.lstrip(c)`. -/
def lstripChar (s : String) (c : Char) : String := String.ofList (s.toList.dropWhile (· = c))

/-- `s.strip(c)`. -/
def stripChar (s : String) (c : Char) : String :=
  String.ofList (((s.toList.dropWhile (· = c)).reverse.dropWhile (· = c)).reverse)

example : splitLines "a\r\nb\n\nc\n" = ["a", "b", "", "c"]
    ∧ splitMax " a  b c  d " 2 = ["a", "b", "c  d "]
    ∧ splitLast "[::]:80" ':' = ("[::]", "80") ∧ removeSuffix "a.service" ".service" = "a" := by
  decide +kernel

/-! ## Pieces split off the end. -/

theorem rsplitChars_sep {sep : Char} {piece : List Char} (h : sep ∉ piece) (n : Nat)
    (rest : List Char) : rsplitChars sep (n + 1) (piece.reverse ++ sep :: rest)
      = rsplitChars sep n rest ++ [piece] := by
  have hpiece : ∀ c ∈ piece.reverse, decide (c ≠ sep) = true := by
    intro c hc
    rw [decide_eq_true_iff]
    rintro rfl
    exact h (List.mem_reverse.mp hc)
  rw [rsplitChars, List.dropWhile_append_of_pos hpiece, List.takeWhile_append_of_pos hpiece,
    List.dropWhile_cons_of_neg (by simp), List.takeWhile_cons_of_neg (by simp), List.append_nil,
    List.reverse_reverse]

/-- The last piece of several, and what is before the separator. -/
theorem rsplitChars_concat {sep : Char} {n : Nat} {cs piece : List Char}
    {pieces : List (List Char)} (hne : pieces ≠ [])
    (h : rsplitChars sep (n + 1) cs = pieces ++ [piece]) :
    sep ∉ piece ∧ ∃ rest, cs = piece.reverse ++ sep :: rest
      ∧ rsplitChars sep n rest = pieces := by
  rw [rsplitChars] at h
  cases hdrop : cs.dropWhile (· ≠ sep) with
  | nil =>
    rw [hdrop] at h
    have hlen := congrArg List.length h
    rw [List.length_append] at hlen
    exact absurd (List.length_eq_zero_iff.mp (Nat.succ.inj hlen).symm) hne
  | cons c rest =>
    rw [hdrop] at h
    obtain ⟨hpieces, hpiece⟩ := List.append_inj' h rfl
    have hc : c = sep := by
      have := List.head?_dropWhile_not (· ≠ sep) cs
      rw [hdrop] at this
      simpa using this
    obtain rfl : (cs.takeWhile (· ≠ sep)).reverse = piece := List.singleton_inj.mp hpiece
    refine ⟨fun hmem => ?_, rest, ?_, hpieces⟩
    · simpa using List.mem_takeWhile_imp (List.mem_reverse.mp hmem)
    · have hsplit := List.takeWhile_append_dropWhile (p := (· ≠ sep)) (l := cs)
      rw [hdrop, hc] at hsplit
      rw [List.reverse_reverse, hsplit]

/-- **Two pieces split off the end**: neither has a separator. -/
theorem rsplit_two_iff {s a b c : String} {sep : Char} :
    rsplit s sep 2 = [a, b, c]
      ↔ s.toList = a.toList ++ sep :: (b.toList ++ sep :: c.toList)
        ∧ sep ∉ b.toList ∧ sep ∉ c.toList := by
  have hpieces : rsplit s sep 2 = [a, b, c]
      ↔ rsplitChars sep 2 s.toList.reverse = [a.toList, b.toList, c.toList] := by
    unfold rsplit
    constructor
    · intro h
      simpa [Function.comp_def] using congrArg (List.map String.toList) h
    · intro h
      rw [h, List.map_cons, List.map_cons, List.map_cons, List.map_nil, String.ofList_toList,
        String.ofList_toList, String.ofList_toList]
  rw [hpieces]
  constructor
  · intro h
    have hlast : rsplitChars sep 2 s.toList.reverse = [a.toList, b.toList] ++ [c.toList] := h
    obtain ⟨hc, rest, hrest, htwo⟩ := rsplitChars_concat (List.cons_ne_nil _ _) hlast
    have hmiddle : rsplitChars sep 1 rest = [a.toList] ++ [b.toList] := htwo
    obtain ⟨hb, first, hfirst, hone⟩ := rsplitChars_concat (List.cons_ne_nil _ _) hmiddle
    have ha : first.reverse = a.toList := List.singleton_inj.mp hone
    refine ⟨?_, hb, hc⟩
    rw [← List.reverse_reverse s.toList, hrest, hfirst, ← ha]
    simp
  · rintro ⟨h, hb, hc⟩
    have hreverse : s.toList.reverse
        = c.toList.reverse ++ sep :: (b.toList.reverse ++ sep :: a.toList.reverse) := by
      rw [h]
      simp
    rw [hreverse, rsplitChars_sep hc, rsplitChars_sep hb, rsplitChars, List.reverse_reverse]
    rfl

end Hmn.Framework.Text
