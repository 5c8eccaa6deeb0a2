/-
  Hmn.Framework.Text — the text operations of a dynamic language, on lists
  of characters.

  Texts are compared and stored as `String`s; every operation that looks
  inside one works on its list of characters, by structural recursion, so
  that it evaluates and can be reasoned about.
-/
import Mathlib.Data.List.Basic
import Mathlib.Data.List.TakeWhile

namespace Hmn.Framework.Text

/-- What holds of every character of a text is decided along the text, never
over all characters. -/
instance decidableForallChars (cs : List Char) (p : Char → Prop) [DecidablePred p] :
    Decidable (∀ c ∈ cs, p c) :=
  List.decidableBAll p cs

instance decidableForallFirst (first : Option Char) (p : Char → Prop) [DecidablePred p] :
    Decidable (∀ c ∈ first, p c) :=
  Option.decidableForallMem first

/-! ## §1. Whitespace. -/

/-- `c.isspace()`: the characters that `split()` and `strip()` remove. -/
def isSpace (c : Char) : Bool :=
  let n := c.toNat
  (9 ≤ n && n ≤ 13) || (28 ≤ n && n ≤ 32) || n == 133 || n == 160 || n == 5760
    || (8192 ≤ n && n ≤ 8202) || n == 8232 || n == 8233 || n == 8239 || n == 8287
    || n == 12288

/-- `s.strip()` on characters. -/
def stripChars (cs : List Char) : List Char :=
  ((cs.dropWhile isSpace).reverse.dropWhile isSpace).reverse

/-- `s.strip()`. -/
def strip (s : String) : String := String.ofList (stripChars s.toList)

/-- `s.rstrip()`. -/
def rstrip (s : String) : String :=
  String.ofList ((s.toList.reverse.dropWhile isSpace).reverse)

/-- `s.split()` on characters: the maximal runs of non-space characters. -/
def splitChars (cs : List Char) : List (List Char) :=
  (cs.splitOnP isSpace).filter (· ≠ [])

/-- `s.split()`. -/
def split (s : String) : List String := (splitChars s.toList).map String.ofList

/-! ## §2. Case, prefixes and pieces. -/

/-- A character in lower case, as far as ASCII letters come of it. -/
def lowerChar (c : Char) : List Char :=
  if c.toNat = 0x130 then ['i', Char.ofNat 0x307]
  else if c.toNat = 0x212A then ['k']
  else [c.toLower]

/-- `s.lower()`, for comparison with a lower-case ASCII word. -/
def lower (s : String) : String := String.ofList (s.toList.flatMap lowerChar)

/-- A character in upper case, as far as ASCII letters come of it. -/
def upperChar (c : Char) : List Char :=
  match c.toNat with
  | 0xDF => ['S', 'S']
  | 0x131 => ['I']
  | 0x149 => [Char.ofNat 0x2BC, 'N']
  | 0x17F => ['S']
  | 0x1F0 => ['J', Char.ofNat 0x30C]
  | 0x1E96 => ['H', Char.ofNat 0x331]
  | 0x1E97 => ['T', Char.ofNat 0x308]
  | 0x1E98 => ['W', Char.ofNat 0x30A]
  | 0x1E99 => ['Y', Char.ofNat 0x30A]
  | 0x1E9A => ['A', Char.ofNat 0x2BE]
  | 0xFB00 => ['F', 'F']
  | 0xFB01 => ['F', 'I']
  | 0xFB02 => ['F', 'L']
  | 0xFB03 => ['F', 'F', 'I']
  | 0xFB04 => ['F', 'F', 'L']
  | 0xFB05 | 0xFB06 => ['S', 'T']
  | _ => [c.toUpper]

/-- `s.upper()`, for a search of upper-case ASCII words. -/
def upper (s : String) : String := String.ofList (s.toList.flatMap upperChar)

/-- `s.startswith(prefix)`. -/
def startsWith (s start : String) : Bool := start.toList.isPrefixOf s.toList

/-- `s.removeprefix(prefix)`. -/
def removePrefix (s start : String) : String :=
  if startsWith s start then String.ofList (s.toList.drop start.toList.length) else s

/-- `s[:n]`. -/
def take (s : String) (n : Nat) : String := String.ofList (s.toList.take n)

/-- `s.split(sep, 1)[0]`: the text before the first separator. -/
def before (s : String) (sep : Char) : String :=
  String.ofList (s.toList.takeWhile (· ≠ sep))

/-- `sep.join(parts)`. -/
def join (sep : String) (parts : List String) : String := String.intercalate sep parts

/-- `part in s`, on characters. -/
def infixChars (part : List Char) : List Char → Bool
  | [] => part.isEmpty
  | c :: cs => part.isPrefixOf (c :: cs) || infixChars part cs

/-- `part in s`. -/
def contains (s part : String) : Bool := infixChars part.toList s.toList

/-! ## §3. Numbers. -/

/-- The zeros of the decimal digits. -/
def decimalZeros : List Nat := [
  48, 1632, 1776, 1984, 2406, 2534, 2662, 2790, 2918, 3046, 3174, 3302, 3430, 3558, 3664, 3792,
  3872, 4160, 4240, 6112, 6160, 6470, 6608, 6784, 6800, 6992, 7088, 7232, 7248, 42528, 43216,
  43264, 43472, 43504, 43600, 44016, 65296, 66720, 68912, 69734, 69872, 69942, 70096, 70384,
  70736, 70864, 71248, 71360, 71472, 71904, 72016, 72784, 73040, 73120, 92768, 92864, 93008,
  120782, 120792, 120802, 120812, 120822, 123200, 123632, 125264, 130032]

/-- The value of a decimal digit. -/
def digitValue (c : Char) : Option Nat :=
  (decimalZeros.find? (fun z => z ≤ c.toNat && c.toNat < z + 10)).map (c.toNat - ·)

/-- The number that digits denote; single underscores may stand between
them. -/
def digitsValue (acc : Nat) : List Char → Option Nat
  | [] => some acc
  | c :: cs =>
    match c, cs with
    | '_', d :: cs => (digitValue d).bind (fun v => digitsValue (10 * acc + v) cs)
    | c, cs => (digitValue c).bind (fun v => digitsValue (10 * acc + v) cs)

/-- The blanks around a number: those of C, and in a text that is not ASCII
the blanks beyond ASCII. -/
def isNumberSpace (ascii : Bool) (c : Char) : Bool :=
  c.toNat = 32 || (9 ≤ c.toNat && c.toNat ≤ 13) || (!ascii && 128 ≤ c.toNat && isSpace c)

/-- The digits a text of a number consists of, without underscores. -/
def maxDigits : Nat := 4300

/-- `int(s)`; nothing when it raises `ValueError`. -/
def parseInt (s : String) : Option Int :=
  let blank := isNumberSpace (s.toList.all (·.toNat < 128))
  let cs := (((s.toList.dropWhile blank).reverse.dropWhile blank)).reverse
  let unsigned (cs : List Char) : Option Nat :=
    match cs with
    | [] => none
    | c :: cs =>
      if maxDigits < ((c :: cs).filter (· ≠ '_')).length then none
      else (digitValue c).bind (fun v => digitsValue v cs)
  match cs with
  | '-' :: cs => (unsigned cs).map (fun n => -(n : Int))
  | '+' :: cs => (unsigned cs).map (fun n => (n : Int))
  | cs => (unsigned cs).map (fun n => (n : Int))

example : parseInt " +1_0 " = some 10 ∧ parseInt "1__0" = none ∧ parseInt "22x" = none := by
  decide +kernel

theorem startsWith_iff {s start : String} :
    startsWith s start = true ↔ start.toList <+: s.toList := by
  unfold startsWith
  exact List.isPrefixOf_iff_prefix

theorem removePrefix_eq_iff {s start t : String} (h : startsWith s start = true) :
    removePrefix s start = t ↔ s = start ++ t := by
  obtain ⟨rest, hrest⟩ := startsWith_iff.mp h
  unfold removePrefix
  rw [if_pos h, ← hrest, List.drop_left]
  constructor
  · rintro rfl
    rw [← String.toList_inj, String.toList_append, String.toList_ofList, hrest]
  · rintro rfl
    rw [String.toList_append] at hrest
    rw [List.append_cancel_left hrest, String.ofList_toList]

/-! ## §4. The words of a text. -/

theorem splitChars_nil : splitChars [] = [] := rfl

theorem splitChars_space {c : Char} (h : isSpace c = true) (cs : List Char) :
    splitChars (c :: cs) = splitChars cs := by
  simp [splitChars, List.splitOnP_cons_eq_if_modifyHead, h]

/-- The first piece of a text split at the spaces, and the other words. -/
theorem splitOnP_isSpace (cs : List Char) : ∃ pieces,
    cs.splitOnP isSpace = cs.takeWhile (fun c => !isSpace c) :: pieces
    ∧ pieces.filter (· ≠ []) = splitChars (cs.dropWhile (fun c => !isSpace c)) := by
  induction cs with
  | nil => exact ⟨[], rfl, rfl⟩
  | cons c cs ih =>
    rw [List.splitOnP_cons_eq_if_modifyHead]
    by_cases h : isSpace c = true
    · refine ⟨cs.splitOnP isSpace, by simp [h], ?_⟩
      rw [List.dropWhile_cons_of_neg (by simp [h]), splitChars_space h, splitChars]
    · obtain ⟨pieces, heq, hrest⟩ := ih
      exact ⟨pieces, by simp [h, heq], by simpa [h] using hrest⟩

theorem splitChars_word {c : Char} (h : isSpace c = false) (cs : List Char) :
    splitChars (c :: cs) = (c :: cs.takeWhile (fun c => !isSpace c))
      :: splitChars (cs.dropWhile (fun c => !isSpace c)) := by
  obtain ⟨pieces, heq, hrest⟩ := splitOnP_isSpace cs
  unfold splitChars
  rw [List.splitOnP_cons_eq_if_modifyHead, if_neg (by simp [h]), heq, List.modifyHead_cons,
    List.filter_cons_of_pos (by simp), hrest, splitChars]

/-- The characters of a text are spaces. -/
def Spaces (cs : List Char) : Prop := ∀ c ∈ cs, isSpace c = true

/-- A word has characters and none of them is a space. -/
def IsWord (cs : List Char) : Prop := cs ≠ [] ∧ ∀ c ∈ cs, isSpace c = false

/-- A text that does not go on with a word. -/
def WordEnds (cs : List Char) : Prop := ∀ c ∈ cs.head?, isSpace c = true

theorem wordEnds_dropWhile (cs : List Char) :
    WordEnds (cs.dropWhile (fun c => !isSpace c)) := by
  intro c hc
  have h := List.head?_dropWhile_not (fun c => !isSpace c) cs
  rw [hc] at h
  simpa using h

theorem spaces_of_splitChars_nil {cs : List Char} (h : splitChars cs = []) : Spaces cs := by
  induction cs with
  | nil => exact nofun
  | cons c cs ih =>
    cases hc : isSpace c with
    | true =>
      rw [splitChars_space hc] at h
      exact List.forall_mem_cons.mpr ⟨hc, ih h⟩
    | false =>
      rw [splitChars_word hc] at h
      cases h

/-- **The first word of a text**, with the spaces before it. -/
theorem splitChars_eq_cons {cs w : List Char} {ws : List (List Char)}
    (h : splitChars cs = w :: ws) :
    ∃ pre rest, cs = pre ++ w ++ rest ∧ Spaces pre ∧ IsWord w ∧ WordEnds rest
      ∧ splitChars rest = ws := by
  induction cs with
  | nil => cases h
  | cons c cs ih =>
    cases hc : isSpace c with
    | true =>
      rw [splitChars_space hc] at h
      obtain ⟨pre, rest, rfl, hpre, hw, hrest, hws⟩ := ih h
      exact ⟨c :: pre, rest, rfl, List.forall_mem_cons.mpr ⟨hc, hpre⟩, hw, hrest, hws⟩
    | false =>
      rw [splitChars_word hc] at h
      obtain ⟨rfl, rfl⟩ := List.cons.inj h
      refine ⟨[], cs.dropWhile (fun c => !isSpace c), ?_, nofun, ⟨by simp, ?_⟩,
        wordEnds_dropWhile cs, rfl⟩
      · simp
      · refine List.forall_mem_cons.mpr ⟨hc, fun x hx => ?_⟩
        simpa using List.mem_takeWhile_imp hx

theorem splitChars_append_space {c : Char} (h : isSpace c = true) (cs tail : List Char) :
    splitChars (cs ++ c :: tail) = splitChars cs ++ splitChars tail := by
  unfold splitChars
  rw [List.splitOnP_append_cons cs tail h, List.filter_append]

theorem dropWhile_spaces {blank : List Char} (h : Spaces blank) (cs : List Char) :
    (blank ++ cs).dropWhile isSpace = cs.dropWhile isSpace := by
  induction blank with
  | nil => rfl
  | cons c blank ih =>
    obtain ⟨hc, hblank⟩ := List.forall_mem_cons.mp h
    rw [List.cons_append, List.dropWhile_cons_of_pos hc, ih hblank]

theorem splitChars_spaces {pre : List Char} (h : Spaces pre) (cs : List Char) :
    splitChars (pre ++ cs) = splitChars cs := by
  induction pre with
  | nil => rfl
  | cons c pre ih =>
    obtain ⟨hc, hpre⟩ := List.forall_mem_cons.mp h
    rw [List.cons_append, splitChars_space hc, ih hpre]

theorem splitChars_append_spaces {post : List Char} (h : Spaces post) (cs : List Char) :
    splitChars (cs ++ post) = splitChars cs := by
  cases post with
  | nil => rw [List.append_nil]
  | cons c post =>
    obtain ⟨hc, hpost⟩ := List.forall_mem_cons.mp h
    have hnil := splitChars_spaces hpost []
    rw [List.append_nil] at hnil
    rw [splitChars_append_space hc, hnil, splitChars_nil, List.append_nil]

theorem splitChars_isWord {cs : List Char} : ∀ w ∈ splitChars cs, IsWord w := by
  induction h : splitChars cs generalizing cs with
  | nil => exact nofun
  | cons w ws ih =>
    obtain ⟨pre, rest, -, -, hw, -, hws⟩ := splitChars_eq_cons h
    exact List.forall_mem_cons.mpr ⟨hw, ih hws⟩

/-- Stripping takes spaces off both ends. -/
theorem stripChars_eq (cs : List Char) :
    ∃ pre post, cs = pre ++ stripChars cs ++ post ∧ Spaces pre ∧ Spaces post := by
  refine ⟨cs.takeWhile isSpace,
    ((cs.dropWhile isSpace).reverse.takeWhile isSpace).reverse, ?_, ?_, ?_⟩
  · unfold stripChars
    rw [List.append_assoc, ← List.reverse_append, List.takeWhile_append_dropWhile,
      List.reverse_reverse, List.takeWhile_append_dropWhile]
  · exact fun c hc => List.mem_takeWhile_imp hc
  · exact fun c hc => List.mem_takeWhile_imp (List.mem_reverse.mp hc)

theorem splitChars_stripChars (cs : List Char) : splitChars (stripChars cs) = splitChars cs := by
  obtain ⟨pre, post, heq, hpre, hpost⟩ := stripChars_eq cs
  conv_rhs => rw [heq]
  rw [splitChars_append_spaces hpost, splitChars_spaces hpre]

/-- Words joined by single blanks are got back by splitting at the blanks. -/
theorem splitOn_intercalate {ws : List (List Char)} (hne : ws ≠ [])
    (hws : ∀ w ∈ ws, IsWord w) : (List.intercalate [' '] ws).splitOn ' ' = ws := by
  refine List.splitOn_intercalate ' ' (fun w hw hmem => ?_) hne
  have := (hws w hw).2 ' ' hmem
  cases this

/-- What joining texts has before and behind one of them. -/
theorem join_around (sep : String) (xs ys : List String) :
    ∃ before after : String, ∀ a, join sep (xs ++ a :: ys) = before ++ a ++ after := by
  induction xs with
  | nil =>
    cases ys with
    | nil => exact ⟨"", "", fun a => by simp [join]⟩
    | cons y ys =>
      refine ⟨"", sep ++ join sep (y :: ys), fun a => ?_⟩
      rw [List.nil_append, join, String.intercalate_cons_cons, String.empty_append,
        String.append_assoc, join]
  | cons x xs ih =>
    obtain ⟨before, after, hjoin⟩ := ih
    refine ⟨x ++ sep ++ before, after, fun a => ?_⟩
    rw [List.cons_append, join, String.intercalate_cons_of_ne_nil (by simp), ← join, hjoin,
      ← String.append_assoc, ← String.append_assoc]

/-- **Texts joined with one of them exchanged tell which one it was.** -/
theorem join_inj_at (sep : String) (xs ys : List String) {a b : String}
    (h : join sep (xs ++ a :: ys) = join sep (xs ++ b :: ys)) : a = b := by
  obtain ⟨before, after, hjoin⟩ := join_around sep xs ys
  rw [hjoin, hjoin] at h
  exact String.append_right_inj _ |>.mp (String.append_left_inj _ |>.mp h)

end Hmn.Framework.Text
