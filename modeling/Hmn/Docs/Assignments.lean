/-
  Hmn.Docs.Assignments — what the redactor makes of an assignment.

  `SENSITIVE_KEY_PATTERN` has no choice where it matches: the name is a whole
  run of name characters, the value a whole run of value characters.  So of
  two texts that differ in the value of a word `KEY=VALUE` with a telling key
  the pattern matches at the same places, and each match ends before the word,
  within a value that has all of it, or right behind it.

  Main results: `key_rest`, `key_none`, `redactText_secret`.
-/
import Hmn.Docs.Redact
import Hmn.Framework.Rewriting

namespace Hmn.Docs

open Framework Framework.Regex

/-! ## §1. What follows a name. -/

/-- `[^\s,;]`. -/
def isValueChar (c : Char) : Bool := !(Text.isSpace c || c = ',' || c = ';')

/-- `\s*=\s*([^\s,;]+)`. -/
def assignmentTail : Regex :=
  all [.star Text.isSpace, lit "=", .star Text.isSpace, group 2 (plus isValueChar)]

/-- What is behind the value, where an equals sign and a value follow. -/
def behindValue (cs : List Char) : Option (List Char) :=
  match cs.dropWhile Text.isSpace with
  | [] => none
  | c :: rest =>
    let value := rest.dropWhile Text.isSpace
    if c = '=' ∧ value.head?.any isValueChar then some (value.dropWhile isValueChar) else none

theorem isValueChar_space {c : Char} (h : Text.isSpace c = true) : isValueChar c = false := by
  simp [isValueChar, h]

/-- What follows a name is matched without a choice. -/
theorem run_assignmentTail (cur : Cursor) :
    (assignmentTail.run cur some).map Cursor.rest = behindValue cur.rest := by
  obtain ⟨prev, cs, groups⟩ := cur
  have hvalue : ∀ cur : Cursor, ((all [.star Text.isSpace, group 2 (plus isValueChar)]).run cur
      some).map Cursor.rest = if (cur.rest.dropWhile Text.isSpace).head?.any isValueChar
        then some ((cur.rest.dropWhile Text.isSpace).dropWhile isValueChar) else none := by
    intro cur
    have hfails : ∀ prev c cs, Text.isSpace c = true →
        (all [group 2 (plus isValueChar)]).run ⟨prev, c :: cs, cur.groups⟩ some = none := by
      intro prev c cs hc
      simp [all, plus, run, isValueChar_space hc]
    exact (congrArg (Option.map Cursor.rest) (runStar_greedy hfails cur.rest cur.prev)).trans
      (run_group_plus_rest _)
  have hequals : ∀ prev c cs, (all [lit "=", .star Text.isSpace, group 2 (plus isValueChar)]).run
      ⟨prev, c :: cs, groups⟩ some = if c = '=' then
        (all [.star Text.isSpace, group 2 (plus isValueChar)]).run ⟨some c, cs, groups⟩ some
      else none := by
    intro prev c cs
    by_cases hc : c = '='
    · simp [all, lit, chars, run, hc]
    · simp [all, lit, chars, run, hc]
  have hrun : assignmentTail.run ⟨prev, cs, groups⟩ some
      = (all [lit "=", .star Text.isSpace, group 2 (plus isValueChar)]).run
        ⟨lastOf prev (cs.takeWhile Text.isSpace), cs.dropWhile Text.isSpace, groups⟩ some := by
    refine runStar_greedy (fun prev c cs hc => ?_) cs prev
    have hne : c ≠ '=' := by
      rintro rfl
      exact absurd hc (by decide)
    exact (hequals prev c cs).trans (if_neg hne)
  rw [hrun, behindValue]
  cases cs.dropWhile Text.isSpace with
  | nil => rfl
  | cons c rest =>
    rw [hequals]
    by_cases hc : c = '='
    · simp only [hc, if_true, hvalue, true_and]
    · simp only [hc, if_false, false_and, Option.map_none]

theorem behindValue_length {cs rest : List Char} (h : behindValue cs = some rest) :
    rest.length < cs.length := by
  have hcs := (List.dropWhile_suffix (l := cs) Text.isSpace).length_le
  rw [behindValue] at h
  cases hd : cs.dropWhile Text.isSpace with
  | nil => simp [hd] at h
  | cons c tail =>
    simp only [hd] at h
    split_ifs at h
    obtain rfl := Option.some.inj h
    have hvalue := (List.dropWhile_suffix (l := tail.dropWhile Text.isSpace) isValueChar).length_le
    have htail := (List.dropWhile_suffix (l := tail) Text.isSpace).length_le
    rw [hd, List.length_cons] at hcs
    omega

/-! ## §2. The pattern. -/

/-- `\b` holds at a place. -/
def AtWord (alnum : Char → Bool) (prev : Option Char) (cs : List Char) : Prop :=
  prev.any (isWordChar alnum) ≠ cs.head?.any (isWordChar alnum)

/-- A run of name characters is a telling name. -/
def NameWord (prev : Option Char) (w : List Char) : Prop :=
  ∃ prev' groups, sensitiveName.Matches ⟨prev, w, []⟩ ⟨prev', [], groups⟩

theorem plain_ignoreCase (s : String) : (ignoreCase s).Plain := by
  rw [ignoreCase]
  induction s.toList with
  | nil => trivial
  | cons c cs ih => exact ⟨trivial, ih⟩

theorem plain_sensitiveName : sensitiveName.Plain := by
  simp only [sensitiveName, all, any, opt, Plain, plain_ignoreCase, and_self]

theorem over_ignoreCase {q : Char → Prop} {s : String}
    (h : ∀ c ∈ s.toList, ∀ x, sameLetter c x = true → q x) : (ignoreCase s).Over q := by
  rw [ignoreCase]
  generalize s.toList = cs at h
  induction cs with
  | nil => trivial
  | cons c cs ih =>
    obtain ⟨hc, hcs⟩ := List.forall_mem_cons.mp h
    exact ⟨hc, ih hcs⟩

/-- A letter in either case, as `re` sees it, is a name character. -/
theorem isNameChar_sameLetter {c x : Char} (hc : 97 ≤ c.toNat ∧ c.toNat ≤ 122)
    (h : sameLetter c x = true) : isNameChar x = true := by
  have hlower : x.toLower = c → isAlnum x = true := by
    rintro rfl
    delta Char.toLower at hc
    simp only [isAlnum]
    split_ifs at hc with hx
    · have h65 : 65 ≤ x.toNat := hx.1
      have h90 : x.toNat ≤ 90 := hx.2
      simp [h65, h90]
    · simp [hc.1, hc.2]
  unfold sameLetter at h
  rcases Bool.or_eq_true _ _ ▸ h with h | h
  · simp [isNameChar, hlower (of_decide_eq_true h)]
  · split at h
    · rcases Bool.or_eq_true _ _ ▸ h with h | h <;> simp [isNameChar, of_decide_eq_true h]
    · simp [isNameChar, of_decide_eq_true h]
    · simp [isNameChar, of_decide_eq_true h]
    · exact absurd h Bool.false_ne_true

theorem over_sensitiveName : sensitiveName.Over fun c => isNameChar c = true := by
  have hword : ∀ s : String, (∀ c ∈ s.toList, 97 ≤ c.toNat ∧ c.toNat ≤ 122) →
      (ignoreCase s).Over fun c => isNameChar c = true :=
    fun s h => over_ignoreCase fun c hc x hx => isNameChar_sameLetter (h c hc) hx
  have hsep : ∀ c : Char, (c = '_' || c = '-') = true → isNameChar c = true := by
    intro c hc
    rcases Bool.or_eq_true _ _ ▸ hc with hc | hc <;> simp_all [isNameChar]
  refine ⟨fun c hc => hc, ⟨?_, ?_, ?_, ?_⟩, fun c hc => hc, trivial⟩
  · exact hword "token" (by decide)
  · exact hword "password" (by decide)
  · exact ⟨hword "api" (by decide), ⟨hsep, trivial⟩, hword "key" (by decide), trivial⟩
  · exact hword "secret" (by decide)

theorem isSpace_nameChar {c : Char} (hc : isNameChar c = true) : Text.isSpace c = false := by
  by_contra hspace
  simp only [isNameChar, isAlnum, Text.isSpace, Bool.not_eq_false, Bool.or_eq_true,
    Bool.and_eq_true, decide_eq_true_eq, beq_iff_eq] at hc hspace
  have hdash : c ≠ '_' ∧ c ≠ '-' := by
    constructor <;> rintro rfl <;> revert hspace <;> decide
  simp only [hdash.1, hdash.2, or_false] at hc
  omega

/-- A name character is none that may follow the name. -/
theorem behindValue_name {c : Char} (hc : isNameChar c = true) (cs : List Char) :
    behindValue (c :: cs) = none := by
  have hne : c ≠ '=' := by
    rintro rfl
    exact absurd hc (by decide)
  rw [behindValue, List.dropWhile_cons_of_neg (by simp [isSpace_nameChar hc])]
  simp [hne]

variable {alnum : Char → Bool}

/-- A way through the name to where a value follows takes the whole run. -/
theorem name_run {prev : Option Char} {cs : List Char} {mid : Cursor}
    (hmid : (group 1 sensitiveName).Matches ⟨prev, cs, []⟩ mid)
    (hvalue : (behindValue mid.rest).isSome) :
    NameWord prev (cs.takeWhile isNameChar) ∧ mid.rest = cs.dropWhile isNameChar := by
  obtain ⟨⟨prev', rest, groups⟩, hname, rfl⟩ := hmid
  obtain ⟨w, hw, hchars⟩ := hname.over over_sensitiveName
  obtain rfl : cs = w ++ rest := hw
  have hstop : rest.takeWhile isNameChar = [] ∧ rest.dropWhile isNameChar = rest := by
    cases rest with
    | nil => exact ⟨rfl, rfl⟩
    | cons c rest =>
      have hc : ¬ isNameChar c = true := by
        intro hc
        simp [behindValue_name hc] at hvalue
      exact ⟨List.takeWhile_cons_of_neg hc, List.dropWhile_cons_of_neg hc⟩
  rw [List.takeWhile_append_of_pos hchars, List.dropWhile_append_of_pos hchars, hstop.1, hstop.2,
    List.append_nil]
  exact ⟨⟨_, _, (matches_append_iff plain_sensitiveName rest).mp hname⟩, rfl⟩

/-- **Where the pattern matches, it takes the whole name and the whole value.** -/
theorem key_rest {prev : Option Char} {cs : List Char} {f : Found}
    (h : (sensitiveKeyPattern alnum).matchAt prev cs = some f) :
    AtWord alnum prev cs ∧ NameWord prev (cs.takeWhile isNameChar)
      ∧ behindValue (cs.dropWhile isNameChar) = some f.stop.rest := by
  obtain ⟨stop, hstop, rfl⟩ := Option.map_eq_some_iff.mp h
  obtain ⟨cur, ⟨hword, rfl⟩, hrun⟩ := run_seq hstop
  obtain ⟨mid, hmid, htail⟩ := run_seq hrun
  have hvalue : behindValue mid.rest = some stop.rest :=
    (run_assignmentTail mid).symm.trans (congrArg (Option.map Cursor.rest) htail)
  obtain ⟨hname, hrest⟩ := name_run hmid (by simp [hvalue])
  exact ⟨hword, hname, by rw [← hrest, hvalue]⟩

/-- **The pattern matches wherever a telling name has a value.** -/
theorem key_some {prev : Option Char} {cs rest : List Char} (hword : AtWord alnum prev cs)
    (hname : NameWord prev (cs.takeWhile isNameChar))
    (hvalue : behindValue (cs.dropWhile isNameChar) = some rest) :
    ∃ f, (sensitiveKeyPattern alnum).matchAt prev cs = some f ∧ f.stop.rest = rest := by
  obtain ⟨prev', groups, hname⟩ := hname
  have hmatch : sensitiveName.Matches ⟨prev, cs, []⟩ ⟨prev', cs.dropWhile isNameChar, groups⟩ := by
    have hmatch := (matches_append_iff plain_sensitiveName (cs.dropWhile isNameChar)).mpr hname
    rwa [List.takeWhile_append_dropWhile] at hmatch
  have hsome : ((sensitiveKeyPattern alnum).run ⟨prev, cs, []⟩ some).isSome := by
    rw [run_isSome_iff]
    have htail : (assignmentTail.run ⟨prev', cs.dropWhile isNameChar, (1, cs.take (cs.length
        - (cs.dropWhile isNameChar).length)) :: groups⟩ some).isSome := by
      rw [← Option.isSome_map (f := Cursor.rest), run_assignmentTail, hvalue]
      rfl
    obtain ⟨out, hout, -⟩ := run_isSome_iff _ |>.mp htail
    exact ⟨out, ⟨_, ⟨hword, rfl⟩, _, ⟨_, hmatch, rfl⟩, hout⟩, rfl⟩
  obtain ⟨stop, hstop⟩ := Option.isSome_iff_exists.mp hsome
  have hat : (sensitiveKeyPattern alnum).matchAt prev cs
      = some ⟨[], cs.take (cs.length - stop.rest.length), stop⟩ := by
    rw [matchAt, hstop, Option.map_some]
  refine ⟨_, hat, ?_⟩
  obtain ⟨-, -, hrest⟩ := key_rest hat
  exact Option.some.inj (hrest.symm.trans hvalue)

/-! ## §3. A word `KEY=VALUE`. -/

/-- A key whose name tells that its value is secret. -/
structure SecretKey (key : List Char) : Prop where
  chars : ∀ c ∈ key, isAlnum c = true ∨ c = '_' ∨ c = '-'
  telling : ∃ a w b, key = a ++ w ++ b
    ∧ w.map Char.toLower ∈ ["token", "password", "api_key", "secret"].map String.toList

/-- A value without whitespace, comma and semicolon. -/
structure SecretValue (value : List Char) : Prop where
  nonempty : value ≠ []
  chars : ∀ c ∈ value, isValueChar c = true

/-- What is behind a word: nothing, or a space. -/
def AfterWord (post : List Char) : Prop := ∀ c ∈ post.head?, c = ' '

theorem isNameChar_keyChar {c : Char} (h : isAlnum c = true ∨ c = '_' ∨ c = '-') :
    isNameChar c = true := by
  rcases h with h | rfl | rfl
  · simp [isNameChar, h]
  · decide
  · decide

theorem SecretKey.nameChars {key : List Char} (h : SecretKey key) :
    ∀ c ∈ key, isNameChar c = true := fun c hc => isNameChar_keyChar (h.chars c hc)

theorem SecretKey.ne_nil {key : List Char} (h : SecretKey key) : key ≠ [] := by
  rintro rfl
  obtain ⟨a, w, b, heq, hw⟩ := h.telling
  obtain ⟨haw, -⟩ := List.append_eq_nil_iff.mp heq.symm
  obtain ⟨-, rfl⟩ := List.append_eq_nil_iff.mp haw
  exact absurd hw (by decide)

theorem matches_ignoreCase {s : String} {w rest : List Char} (hw : w.map Char.toLower = s.toList) :
    ∀ (prev : Option Char) (groups : List (Nat × List Char)),
      (ignoreCase s).Matches ⟨prev, w ++ rest, groups⟩ ⟨lastOf prev w, rest, groups⟩ := by
  rw [ignoreCase]
  generalize s.toList = cs at hw
  induction w generalizing cs with
  | nil =>
    obtain rfl : [] = cs := hw
    exact fun prev groups => rfl
  | cons c w ih =>
    obtain ⟨d, cs, rfl⟩ := List.exists_cons_of_ne_nil (l := cs) (by rintro rfl; simp at hw)
    obtain ⟨hd, hcs⟩ := List.cons.inj hw
    refine fun prev groups => ⟨_, ⟨c, w ++ rest, rfl, ?_, rfl⟩, ?_⟩
    · simp [sameLetter, hd]
    · rw [lastOf_cons]
      exact ih cs hcs _ _

theorem toLower_eq_underscore {c : Char} (h : c.toLower = '_') : c = '_' := by
  have hlower := h
  delta Char.toLower at h
  split_ifs at h with hc
  · have h90 : c.toNat ≤ 90 := hc.2
    have hall : ∀ n < 91, (Char.ofNat n).toLower ≠ '_' := by decide
    have hne := hall c.toNat (Nat.lt_succ_of_le h90)
    rw [Char.ofNat_toNat] at hne
    exact absurd hlower hne
  · exact h

/-- A key that tells is a telling name for the pattern. -/
theorem SecretKey.nameWord {key : List Char} (h : SecretKey key) (prev : Option Char) :
    NameWord prev key := by
  obtain ⟨a, w, b, rfl, hw⟩ := h.telling
  have hname := SecretKey.nameChars h
  have ha : ∀ c ∈ a, isNameChar c = true := fun c hc => hname c (by simp [hc])
  have hb : ∀ c ∈ b, isNameChar c = true := fun c hc => hname c (by simp [hc])
  suffices hmarker : ∃ prev' groups, (any (ignoreCase "token") [ignoreCase "password",
      all [ignoreCase "api", opt (.one fun c => c = '_' || c = '-'), ignoreCase "key"],
      ignoreCase "secret"]).Matches ⟨lastOf prev a, w ++ b, []⟩ ⟨prev', b, groups⟩ by
    obtain ⟨prev', groups, hmarker⟩ := hmarker
    exact ⟨lastOf prev' b, groups, _, ⟨a, w ++ b, by simp, ha, rfl⟩, _, hmarker,
      _, ⟨b, [], (List.append_nil b).symm, hb, rfl⟩, rfl⟩
  simp only [List.map_cons, List.map_nil, List.mem_cons, List.not_mem_nil, or_false] at hw
  rcases hw with hw | hw | hw | hw
  · exact ⟨_, _, Or.inl (matches_ignoreCase hw _ _)⟩
  · exact ⟨_, _, Or.inr (Or.inl (matches_ignoreCase hw _ _))⟩
  · have hparts : "api_key".toList = "api".toList ++ '_' :: "key".toList := by decide
    obtain ⟨api, rest, rfl, hapi, hrest⟩ := List.map_eq_append_iff.mp (hw.trans hparts)
    obtain ⟨c, key, rfl, hc, hkey⟩ := List.map_eq_cons_iff.mp hrest
    obtain rfl := toLower_eq_underscore hc
    have hmatch : (ignoreCase "api").Matches ⟨lastOf prev a, api ++ ('_' :: key ++ b), []⟩ _ :=
      matches_ignoreCase hapi (lastOf prev a) []
    rw [← List.append_assoc] at hmatch
    exact ⟨_, _, Or.inr (Or.inr (Or.inl ⟨_, hmatch, ⟨_, key ++ b, []⟩,
      Or.inl ⟨'_', key ++ b, rfl, rfl, rfl⟩, _, matches_ignoreCase hkey _ _, rfl⟩))⟩
  · exact ⟨_, _, Or.inr (Or.inr (Or.inr (matches_ignoreCase hw _ _)))⟩

/-! ## §4. Two texts that differ in the value of a word. -/

/-- A run ends before the last character of a text that has none of it. -/
theorem dropWhile_before {p : Char → Bool} {cs : List Char} (hlast : cs.getLast? = some ' ')
    (hp : p ' ' = false) (tail : List Char) :
    (cs ++ tail).dropWhile p = cs.dropWhile p ++ tail ∧ (cs.dropWhile p).getLast? = some ' ' := by
  obtain ⟨cs, rfl⟩ := List.getLast?_eq_some_iff.mp hlast
  induction cs with
  | nil => simp [hp]
  | cons c cs ih =>
    by_cases hc : p c = true
    · simpa [List.dropWhile_cons_of_pos hc] using ih (by simp)
    · simp [List.dropWhile_cons_of_neg hc, List.getLast?_cons]

theorem takeWhile_before {p : Char → Bool} {cs : List Char} (hlast : cs.getLast? = some ' ')
    (hp : p ' ' = false) (tail : List Char) : (cs ++ tail).takeWhile p = cs.takeWhile p := by
  have hdrop := (dropWhile_before hlast hp tail).1
  have hwhole : (cs ++ tail).takeWhile p ++ (cs.dropWhile p ++ tail)
      = cs.takeWhile p ++ (cs.dropWhile p ++ tail) := by
    rw [← hdrop, List.takeWhile_append_dropWhile, hdrop, ← List.append_assoc,
      List.takeWhile_append_dropWhile]
  exact List.append_cancel_right hwhole

/-- Spaces before a text end within what precedes it, or reach up to it. -/
theorem dropWhile_space_before {cs : List Char} (hlast : cs.getLast? = some ' ') :
    (∀ tail, (cs ++ tail).dropWhile Text.isSpace = tail.dropWhile Text.isSpace)
    ∨ ∃ c rest, rest.getLast? = some ' '
      ∧ ∀ tail, (cs ++ tail).dropWhile Text.isSpace = c :: (rest ++ tail) := by
  obtain ⟨cs, rfl⟩ := List.getLast?_eq_some_iff.mp hlast
  induction cs with
  | nil => exact Or.inl fun tail => List.dropWhile_cons_of_pos rfl
  | cons c cs ih =>
    by_cases hc : Text.isSpace c = true
    · rcases ih (by simp) with hall | ⟨d, rest, hrest, hdrop⟩
      · exact Or.inl fun tail => (List.dropWhile_cons_of_pos hc).trans (hall tail)
      · exact Or.inr ⟨d, rest, hrest, fun tail => (List.dropWhile_cons_of_pos hc).trans (hdrop tail)⟩
    · exact Or.inr ⟨c, cs ++ [' '], by simp, fun tail => List.dropWhile_cons_of_neg hc⟩

/-- What a word `KEY=VALUE` is for a value that begins before it. -/
structure OpensWord (word : List Char) : Prop where
  chars : ∀ c ∈ word, isValueChar c = true
  first : ∃ c rest, word = c :: rest ∧ c ≠ '='

theorem OpensWord.dropWhile_space {word : List Char} (h : OpensWord word) (post : List Char) :
    ∃ c rest, c ≠ '=' ∧ isValueChar c = true ∧ word = c :: rest
      ∧ (word ++ post).dropWhile Text.isSpace = c :: (rest ++ post) := by
  obtain ⟨c, rest, rfl, hne⟩ := h.first
  have hc := h.chars c List.mem_cons_self
  have hspace : ¬ Text.isSpace c = true := by
    intro hspace
    simp [isValueChar_space hspace] at hc
  exact ⟨c, rest, hne, hc, rfl, List.dropWhile_cons_of_neg hspace⟩

theorem AfterWord.dropWhile_value {post : List Char} (h : AfterWord post) :
    post.dropWhile isValueChar = post := by
  cases post with
  | nil => rfl
  | cons c post =>
    obtain rfl := h c rfl
    rfl

/-- **A value that begins before the word** ends before it or takes all of it. -/
theorem behindValue_before {cs post : List Char} (hlast : cs.getLast? = some ' ')
    (hpost : AfterWord post) :
    (∀ word, OpensWord word → behindValue (cs ++ (word ++ post)) = none)
    ∨ (∀ word, OpensWord word → behindValue (cs ++ (word ++ post)) = some post)
    ∨ ∃ cs', cs'.getLast? = some ' '
      ∧ ∀ word, OpensWord word → behindValue (cs ++ (word ++ post)) = some (cs' ++ (word ++ post)) := by
  have hvalue : isValueChar ' ' = false := rfl
  rcases dropWhile_space_before hlast with hall | ⟨c, rest, hrest, hdrop⟩
  · refine Or.inl fun word hword => ?_
    obtain ⟨c, rest, hne, -, -, hdrop⟩ := hword.dropWhile_space post
    simp only [behindValue, hall, hdrop, hne, false_and, if_false]
  by_cases hc : c = '='
  swap
  · exact Or.inl fun word hword => by simp only [behindValue, hdrop, hc, false_and, if_false]
  rcases dropWhile_space_before hrest with hall' | ⟨d, rest', hrest', hdrop'⟩
  · refine Or.inr (Or.inl fun word hword => ?_)
    obtain ⟨d, rest', -, hd, rfl, hdrop'⟩ := hword.dropWhile_space post
    have hend : (d :: (rest' ++ post)).dropWhile isValueChar = post := by
      rw [← List.cons_append, List.dropWhile_append_of_pos hword.chars, hpost.dropWhile_value]
    simp only [behindValue, hdrop, hall', hdrop', hc, List.head?_cons, Option.any_some, hd,
      and_self, if_true, hend]
  by_cases hd : isValueChar d = true
  · refine Or.inr (Or.inr ⟨rest'.dropWhile isValueChar, (dropWhile_before hrest' hvalue []).2,
      fun word hword => ?_⟩)
    simp only [behindValue, hdrop, hdrop', hc, List.head?_cons, Option.any_some, hd, and_self,
      if_true, List.dropWhile_cons_of_pos, (dropWhile_before hrest' hvalue _).1]
  · exact Or.inl fun word hword => by
      simp only [behindValue, hdrop, hdrop', List.head?_cons, Option.any_some, hd, and_false,
        if_false, Bool.false_eq_true]

/-- `KEY=VALUE`. -/
def keyValue (key value : List Char) : List Char := key ++ '=' :: value

theorem opensWord_keyValue {key value : List Char} (hkey : SecretKey key)
    (hvalue : SecretValue value) : OpensWord (keyValue key value) where
  chars := by
    have hname : ∀ c, isNameChar c = true → isValueChar c = true := by
      intro c hc
      have hne : c ≠ ',' ∧ c ≠ ';' := by
        constructor <;> rintro rfl <;> exact absurd hc (by decide)
      simp [isValueChar, isSpace_nameChar hc, hne.1, hne.2]
    intro c hc
    rcases List.mem_append.mp hc with hc | hc
    · exact hname c (hkey.nameChars c hc)
    · rcases List.mem_cons.mp hc with rfl | hc
      · decide
      · exact hvalue.chars c hc
  first := by
    obtain ⟨c, rest, rfl⟩ := List.exists_cons_of_ne_nil hkey.ne_nil
    refine ⟨c, rest ++ '=' :: value, rfl, ?_⟩
    rintro rfl
    exact absurd (hkey.nameChars '=' List.mem_cons_self) (by decide)

/-- Places of two texts that differ in the value of a word: before the word,
within its key where nothing but dashes has been read of it, or behind it. -/
inductive Alongside (alnum : Char → Bool) (post value value' : List Char) :
    Option Char → List Char → Option Char → List Char → Prop
  | before {prev : Option Char} {cs key : List Char} (hlast : cs.getLast? = some ' ')
      (hkey : SecretKey key) :
      Alongside alnum post value value' prev (cs ++ (keyValue key value ++ post))
        prev (cs ++ (keyValue key value' ++ post))
  | here {prev : Option Char} {key : List Char} (hprev : prev.any (isWordChar alnum) = false)
      (hkey : SecretKey key) :
      Alongside alnum post value value' prev (keyValue key value ++ post)
        prev (keyValue key value' ++ post)
  | behind {prev prev' : Option Char} :
      Alongside alnum post value value' prev post prev' post
  | same {prev : Option Char} {cs : List Char} : Alongside alnum post value value' prev cs prev cs

/-- What is known of the table of letters and digits: in ASCII it is the one of
ASCII. -/
def AsciiTable (alnum : Char → Bool) : Prop := ∀ c : Char, c.toNat < 128 → alnum c = isAlnum c

variable {post value value' : List Char}

theorem key_shrinks : (sensitiveKeyPattern alnum).Shrinks := by
  intro prev cs f h
  obtain ⟨-, -, hrest⟩ := key_rest h
  exact (behindValue_length hrest).trans_le (List.dropWhile_suffix _).length_le

/-- No assignment begins at the end or at a space. -/
theorem key_after (hpost : AfterWord post) (prev : Option Char) :
    (sensitiveKeyPattern alnum).matchAt prev post = none := by
  have hneeds : sensitiveName.Needs fun _ => True := by
    simp [sensitiveName, all, any, ignoreCase, opt, Needs]
  cases h : (sensitiveKeyPattern alnum).matchAt prev post with
  | none => rfl
  | some f =>
    obtain ⟨-, ⟨prev', groups, hname⟩, -⟩ := key_rest h
    have hnone : post.takeWhile isNameChar = [] := by
      cases post with
      | nil => rfl
      | cons c post =>
        obtain rfl := hpost c rfl
        rfl
    rw [hnone] at hname
    obtain ⟨c, hc, -⟩ := hname.needs hneeds
    exact absurd hc List.not_mem_nil

theorem key_eq_none {prev : Option Char} {cs : List Char}
    (h : AtWord alnum prev cs → NameWord prev (cs.takeWhile isNameChar) →
      behindValue (cs.dropWhile isNameChar) = none) :
    (sensitiveKeyPattern alnum).matchAt prev cs = none := by
  cases hat : (sensitiveKeyPattern alnum).matchAt prev cs with
  | none => rfl
  | some f =>
    obtain ⟨hword, hname, hrest⟩ := key_rest hat
    rw [h hword hname] at hrest
    exact absurd hrest (by simp)

theorem isWordChar_ascii (halnum : AsciiTable alnum) {c : Char} (hc : c.toNat < 128) :
    isWordChar alnum c = (isAlnum c || c = '_') := by
  rw [isWordChar, halnum c hc]

/-- At the first character of the key that is no dash the whole word matches. -/
theorem key_word (halnum : AsciiTable alnum) (hpost : AfterWord post) {key : List Char}
    (hkey : SecretKey key) (hvalue : SecretValue value) {prev : Option Char}
    (hprev : prev.any (isWordChar alnum) = false) {c : Char} (hc : key.head? = some c)
    (hdash : c ≠ '-') : ∃ f, (sensitiveKeyPattern alnum).matchAt prev (keyValue key value ++ post)
      = some f ∧ f.stop.rest = post := by
  have hequals : ¬ isNameChar '=' = true := by decide
  have hrest : keyValue key value ++ post = key ++ '=' :: (value ++ post) := by simp [keyValue]
  obtain ⟨key, rfl⟩ : ∃ key', key = c :: key' := by
    cases key with
    | nil => simp at hc
    | cons d key => exact ⟨key, by rw [Option.some.inj hc]⟩
  rw [hrest]
  refine key_some ?_ ?_ ?_
  · have hword : isAlnum c = true ∨ c = '_' := by
      rcases hkey.chars c List.mem_cons_self with h | h | h
      · exact Or.inl h
      · exact Or.inr h
      · exact absurd h hdash
    have hascii : c.toNat < 128 := by
      rcases hword with h | rfl
      · simp only [isAlnum, Bool.or_eq_true, Bool.and_eq_true, decide_eq_true_eq] at h
        omega
      · decide
    have hhead : isWordChar alnum c = true := by
      rw [isWordChar_ascii halnum hascii]
      simpa using hword
    rw [AtWord, hprev, List.cons_append, List.head?_cons, Option.any_some, hhead]
    exact Bool.false_ne_true
  · rw [List.takeWhile_append_of_pos hkey.nameChars, List.takeWhile_cons_of_neg hequals,
      List.append_nil]
    exact hkey.nameWord prev
  · have hspace : ∀ d ∈ value, Text.isSpace d = false := by
      intro d hd
      have hchar := hvalue.chars d hd
      by_contra h
      rw [isValueChar_space (by simpa using h)] at hchar
      exact absurd hchar Bool.false_ne_true
    have hend : (value ++ post).dropWhile isValueChar = post := by
      rw [List.dropWhile_append_of_pos hvalue.chars, hpost.dropWhile_value]
    have hstart : (value ++ post).dropWhile Text.isSpace = value ++ post
        ∧ (value ++ post).head?.any isValueChar = true := by
      obtain ⟨d, rest, rfl⟩ := List.exists_cons_of_ne_nil hvalue.nonempty
      refine ⟨List.dropWhile_cons_of_neg ?_, hvalue.chars d List.mem_cons_self⟩
      simp [hspace d List.mem_cons_self]
    rw [List.dropWhile_append_of_pos hkey.nameChars, List.dropWhile_cons_of_neg hequals,
      behindValue, List.dropWhile_cons_of_neg (by decide)]
    simp only [hstart.1, hstart.2, hend, and_self, if_true]

/-- Without its leading dash a key still tells. -/
theorem SecretKey.undash {key : List Char} (h : SecretKey ('-' :: key)) : SecretKey key where
  chars := fun c hc => h.chars c (List.mem_cons_of_mem _ hc)
  telling := by
    obtain ⟨a, w, b, heq, hw⟩ := h.telling
    cases a with
    | cons c a =>
      obtain ⟨-, rfl⟩ := List.cons.inj heq
      exact ⟨a, w, b, rfl, hw⟩
    | nil =>
      cases w with
      | nil => exact absurd hw (by decide)
      | cons c w =>
        obtain ⟨rfl, -⟩ := List.cons.inj heq
        have hfirst : ∀ word ∈ ["token", "password", "api_key", "secret"].map String.toList,
            word.head? ≠ some '-' := by decide
        exact absurd rfl (hfirst _ hw)

/-- The places go on side by side. -/
theorem alongside_step (halnum : AsciiTable alnum) (hpost : AfterWord post)
    (hvalue : SecretValue value) (hvalue' : SecretValue value') {prev prev' : Option Char}
    {cs cs' : List Char} (h : Alongside alnum post value value' prev cs prev' cs') :
    AgreeStep (sensitiveKeyPattern alnum) (fun _ => redacted.toList)
      (Alongside alnum post value value') prev cs prev' cs' := by
  have hspace : isWordChar alnum ' ' = false := isWordChar_ascii halnum (by decide)
  cases h with
  | same =>
    cases hat : (sensitiveKeyPattern alnum).matchAt prev cs with
    | some f => exact Or.inr ⟨f, f, hat, hat, rfl, .same⟩
    | none =>
      refine Or.inl ⟨hat, hat, ?_⟩
      cases cs with
      | nil => exact Or.inl ⟨rfl, rfl⟩
      | cons c cs => exact Or.inr ⟨c, cs, cs, rfl, rfl, .same⟩
  | behind =>
    refine Or.inl ⟨key_after hpost _, key_after hpost _, ?_⟩
    cases post with
    | nil => exact Or.inl ⟨rfl, rfl⟩
    | cons c post => exact Or.inr ⟨c, post, post, rfl, rfl, .same⟩
  | @here key hprev hkey =>
    obtain ⟨c, key, rfl⟩ := List.exists_cons_of_ne_nil hkey.ne_nil
    by_cases hc : c = '-'
    · subst hc
      have hdash : isWordChar alnum '-' = false := isWordChar_ascii halnum (by decide)
      have hnone : ∀ value, (sensitiveKeyPattern alnum).matchAt prev
          (keyValue ('-' :: key) value ++ post) = none := by
        refine fun value => key_eq_none fun hword _ => absurd ?_ hword
        exact hprev.trans hdash.symm
      exact Or.inl ⟨hnone value, hnone value', Or.inr ⟨'-', _, _, rfl, rfl,
        .here hdash hkey.undash⟩⟩
    · obtain ⟨f, hf, hrest⟩ := key_word halnum hpost hkey hvalue hprev rfl hc
      obtain ⟨f', hf', hrest'⟩ := key_word halnum hpost hkey hvalue' hprev rfl hc
      refine Or.inr ⟨f, f', hf, hf', rfl, ?_⟩
      rw [hrest, hrest']
      exact .behind
  | @before cs key hlast hkey =>
    have hname : isNameChar ' ' = false := by decide
    have hopens := opensWord_keyValue hkey hvalue
    have hopens' := opensWord_keyValue hkey hvalue'
    obtain ⟨c, cs, rfl⟩ : ∃ c cs', cs = c :: cs' := by
      cases cs with
      | nil => simp at hlast
      | cons c cs => exact ⟨c, cs, rfl⟩
    -- What is read first is the same, so only the value can tell the texts apart.
    have hnext : ∃ d t t', (c :: cs) ++ (keyValue key value ++ post) = d :: t
        ∧ (c :: cs) ++ (keyValue key value' ++ post) = d :: t'
        ∧ Alongside alnum post value value' (some d) t (some d) t' := by
      refine ⟨c, _, _, rfl, rfl, ?_⟩
      cases cs with
      | nil =>
        obtain rfl : c = ' ' := by simpa using hlast
        exact .here hspace hkey
      | cons d cs => exact .before (by simpa [List.getLast?_cons] using hlast) hkey
    have hnone : ∀ word, (AtWord alnum prev (c :: cs) → NameWord prev ((c :: cs).takeWhile isNameChar) →
        behindValue ((c :: cs).dropWhile isNameChar ++ (word ++ post)) = none) →
        (sensitiveKeyPattern alnum).matchAt prev (c :: cs ++ (word ++ post)) = none := by
      intro word h
      refine key_eq_none fun hword hnameWord => ?_
      rw [takeWhile_before hlast hname] at hnameWord
      rw [(dropWhile_before hlast hname _).1]
      exact h hword hnameWord
    have hsome : ∀ word rest, AtWord alnum prev (c :: cs) →
        NameWord prev ((c :: cs).takeWhile isNameChar) →
        behindValue ((c :: cs).dropWhile isNameChar ++ (word ++ post)) = some rest →
        ∃ f, (sensitiveKeyPattern alnum).matchAt prev (c :: cs ++ (word ++ post)) = some f
          ∧ f.stop.rest = rest := by
      intro word rest hword hnameWord hbehind
      refine key_some hword ?_ ?_
      · rwa [takeWhile_before hlast hname]
      · rwa [(dropWhile_before hlast hname _).1]
    by_cases hboth : AtWord alnum prev (c :: cs) ∧ NameWord prev ((c :: cs).takeWhile isNameChar)
    swap
    · exact Or.inl ⟨hnone _ fun hword h => absurd ⟨hword, h⟩ hboth,
        hnone _ fun hword h => absurd ⟨hword, h⟩ hboth, Or.inr hnext⟩
    obtain ⟨hword, hnameWord⟩ := hboth
    rcases behindValue_before (dropWhile_before hlast hname []).2 hpost with hvalue | hvalue
      | ⟨rest, hlast', hvalue⟩
    · exact Or.inl ⟨hnone _ fun _ _ => hvalue _ hopens, hnone _ fun _ _ => hvalue _ hopens',
        Or.inr hnext⟩
    · obtain ⟨f, hf, hrest⟩ := hsome _ _ hword hnameWord (hvalue _ hopens)
      obtain ⟨f', hf', hrest'⟩ := hsome _ _ hword hnameWord (hvalue _ hopens')
      refine Or.inr ⟨f, f', hf, hf', rfl, ?_⟩
      rw [hrest, hrest']
      exact .behind
    · obtain ⟨f, hf, hrest⟩ := hsome _ _ hword hnameWord (hvalue _ hopens)
      obtain ⟨f', hf', hrest'⟩ := hsome _ _ hword hnameWord (hvalue _ hopens')
      refine Or.inr ⟨f, f', hf, hf', rfl, ?_⟩
      rw [matchAt_prev hf hf' hrest hrest', hrest, hrest']
      exact .before hlast' hkey

/-! ## §5. The redactor. -/

/-- A text with a word `KEY=VALUE`. -/
def withSecret (pre key value post : String) : String := pre ++ (key ++ "=" ++ value) ++ post

/-- Where a word with a telling key may stand, and what its value may be. -/
structure SecretWord (pre key post : String) : Prop where
  starts : ∀ c ∈ pre.toList.getLast?, c = ' '
  key : SecretKey key.toList
  ends : AfterWord post.toList

/-- **The value of a word with a telling key is redacted without a trace.** -/
theorem redactText_secret (halnum : AsciiTable alnum) {pre key post value value' : String}
    (h : SecretWord pre key post) (hvalue : SecretValue value.toList)
    (hvalue' : SecretValue value'.toList) :
    redactText alnum (withSecret pre key value post)
      = redactText alnum (withSecret pre key value' post) := by
  have htext : ∀ value : String, (withSecret pre key value post).toList
      = pre.toList ++ (keyValue key.toList value.toList ++ post.toList) := by
    intro value
    simp [withSecret, keyValue]
  have halong : Alongside alnum post.toList value.toList value'.toList none
      (withSecret pre key value post).toList none (withSecret pre key value' post).toList := by
    rw [htext, htext]
    cases hlast : pre.toList.getLast? with
    | none =>
      rw [List.getLast?_eq_none_iff.mp hlast]
      exact .here rfl h.key
    | some c =>
      obtain rfl := h.starts c hlast
      exact .before hlast h.key
  have hsub := sub_agree key_shrinks (fun h' => alongside_step halnum h.ends hvalue hvalue' h')
    halong
  rw [redactText, redactText, hsub]

end Hmn.Docs
