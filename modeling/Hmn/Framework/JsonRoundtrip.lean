/-
  Hmn.Framework.JsonRoundtrip — an indented document is read back.

  A document written with `indent=2` and sorted keys is read as the value it
  was written from, with the members of its objects in the order of their
  keys.  What it takes is what every value that can be written has: integers
  of no more digits than are printed, floats that print as a number of JSON
  and are read as themselves, and objects that have a name only once.

  Main results: `read_dumpsIndented`, `toJson?_toValue`.
-/
import Hmn.Framework.Decimal
import Hmn.Framework.Equality
import Hmn.Framework.JsonIndent
import Hmn.Framework.JsonRead

namespace Hmn.Framework.JsonText

/-! ## §1. Numbers. -/

/-- What follows does not go on with a number. -/
def Delimited (rest : List Char) : Prop := ∀ c ∈ rest.head?, c = ',' ∨ c = '\n'

theorem delimited_nil : Delimited [] := fun _ h => by cases h

theorem delimited_cons {c : Char} (h : c = ',' ∨ c = '\n') (cs : List Char) :
    Delimited (c :: cs) := by
  intro d hd
  obtain rfl := Option.some.inj hd
  exact h

/-- No number goes on with what follows. -/
def NumberEnds (rest : List Char) : Prop :=
  ∀ c ∈ rest.head?, c = ',' ∨ c = '\n' ∨ c = ']' ∨ c = '\x7d'

theorem Delimited.numberEnds {rest : List Char} (h : Delimited rest) : NumberEnds rest := by
  intro c hc
  rcases h c hc with rfl | rfl
  · exact .inl rfl
  · exact .inr (.inl rfl)

/-- Digits end before what does not go on with them. -/
theorem span_digits {rest : List Char} (h : NumberEnds rest) (cs : List Char) :
    (cs ++ rest).takeWhile isDigit = cs.takeWhile isDigit
    ∧ (cs ++ rest).dropWhile isDigit = cs.dropWhile isDigit ++ rest := by
  induction cs with
  | nil =>
    cases rest with
    | nil => exact ⟨rfl, rfl⟩
    | cons c rest =>
      have hc : isDigit c = false := by
        rcases h c rfl with rfl | rfl | rfl | rfl <;> decide
      rw [List.nil_append, List.takeWhile_cons_of_neg (by simp [hc]),
        List.dropWhile_cons_of_neg (by simp [hc])]
      exact ⟨rfl, rfl⟩
  | cons c cs ih =>
    rw [List.cons_append]
    cases hc : isDigit c with
    | false =>
      rw [List.takeWhile_cons_of_neg (by simp [hc]), List.takeWhile_cons_of_neg (by simp [hc]),
        List.dropWhile_cons_of_neg (by simp [hc]), List.dropWhile_cons_of_neg (by simp [hc])]
      exact ⟨rfl, rfl⟩
    | true =>
      rw [List.takeWhile_cons_of_pos hc, List.takeWhile_cons_of_pos hc,
        List.dropWhile_cons_of_pos hc, List.dropWhile_cons_of_pos hc, ih.1]
      exact ⟨rfl, ih.2⟩

theorem scanInteger_append {rest : List Char} (hrest : NumberEnds rest) {cs digits r : List Char}
    (h : scanInteger cs = some (digits, r)) :
    scanInteger (cs ++ rest) = some (digits, r ++ rest) := by
  cases cs with
  | nil => cases h
  | cons c cs =>
    rw [scanInteger] at h
    rw [List.cons_append, scanInteger]
    split_ifs at h ⊢ with hzero hdigit
    · cases h
      rfl
    · cases h
      rw [(span_digits hrest cs).1, (span_digits hrest cs).2]

theorem scanFraction_other {c : Char} (h : c ≠ '.') (cs : List Char) :
    scanFraction (c :: cs) = ([], c :: cs) := by
  rw [scanFraction.eq_def]
  split
  · rename_i heq
    exact absurd (List.cons.inj heq).1 h
  · rfl

theorem scanFraction_append {rest : List Char} (hrest : NumberEnds rest) (cs : List Char) :
    scanFraction (cs ++ rest) = ((scanFraction cs).1, (scanFraction cs).2 ++ rest) := by
  cases cs with
  | nil =>
    cases rest with
    | nil => rfl
    | cons c rest =>
      have hc : c ≠ '.' := by
        rcases hrest c rfl with rfl | rfl | rfl | rfl <;> decide
      exact scanFraction_other hc rest
  | cons c cs =>
    rw [List.cons_append]
    by_cases hc : c = '.'
    · subst hc
      rw [scanFraction, scanFraction, (span_digits hrest cs).1, (span_digits hrest cs).2]
      split_ifs <;> rfl
    · rw [scanFraction_other hc, scanFraction_other hc]
      rfl

/-- The sign of an exponent and the rest. -/
def exponentSign : List Char → List Char × List Char
  | '+' :: rest => (['+'], rest)
  | '-' :: rest => (['-'], rest)
  | rest => ([], rest)

theorem exponentSign_append {rest : List Char} (hrest : NumberEnds rest) (cs : List Char) :
    exponentSign (cs ++ rest) = ((exponentSign cs).1, (exponentSign cs).2 ++ rest) := by
  cases cs with
  | nil =>
    cases rest with
    | nil => rfl
    | cons c rest => rcases hrest c rfl with rfl | rfl | rfl | rfl <;> rfl
  | cons c cs =>
    rw [List.cons_append, exponentSign.eq_def, exponentSign.eq_def]
    split
    · rename_i heq
      obtain ⟨rfl, rfl⟩ := List.cons.inj heq
      rfl
    · rename_i heq
      obtain ⟨rfl, rfl⟩ := List.cons.inj heq
      rfl
    · rename_i hplus hminus
      split
      · rename_i heq
        obtain ⟨rfl, rfl⟩ := List.cons.inj heq
        exact absurd rfl (hplus _)
      · rename_i heq
        obtain ⟨rfl, rfl⟩ := List.cons.inj heq
        exact absurd rfl (hminus _)
      · rfl

theorem scanExponent_cons (e : Char) (cs : List Char) :
    scanExponent (e :: cs)
      = if e = 'e' ∨ e = 'E' then
          if ((exponentSign cs).2.takeWhile isDigit).isEmpty then ([], e :: cs)
          else (e :: (exponentSign cs).1 ++ (exponentSign cs).2.takeWhile isDigit,
            (exponentSign cs).2.dropWhile isDigit)
        else ([], e :: cs) := rfl

theorem scanExponent_append {rest : List Char} (hrest : NumberEnds rest) (cs : List Char) :
    scanExponent (cs ++ rest) = ((scanExponent cs).1, (scanExponent cs).2 ++ rest) := by
  cases cs with
  | nil =>
    cases rest with
    | nil => rfl
    | cons c rest =>
      have hc : ¬ (c = 'e' ∨ c = 'E') := by
        rcases hrest c rfl with rfl | rfl | rfl | rfl <;> decide
      rw [List.nil_append, scanExponent_cons, if_neg hc]
      rfl
  | cons c cs =>
    rw [List.cons_append, scanExponent_cons, scanExponent_cons, exponentSign_append hrest,
      (span_digits hrest _).1, (span_digits hrest _).2]
    split_ifs <;> rfl

/-- A number behind its sign. -/
def readUnsigned (negative : Bool) (rest : List Char) : Except Failure (Value × List Char) := do
  let (digits, rest) ← orDecode (scanInteger rest)
  let (fraction, rest) := scanFraction rest
  let (exponent, rest) := scanExponent rest
  if fraction.isEmpty && exponent.isEmpty then
    if Text.maxDigits < digits.length then .error (.digits digits.length)
    else return (.int (if negative then -(decimal digits : Int) else decimal digits), rest)
  else
    return (.float ((if negative then ['-'] else []) ++ digits ++ fraction ++ exponent), rest)

theorem readNumber_minus (cs : List Char) : readNumber ('-' :: cs) = readUnsigned true cs := rfl

theorem readNumber_other {c : Char} (h : c ≠ '-') (cs : List Char) :
    readNumber (c :: cs) = readUnsigned false (c :: cs) := by
  unfold readNumber
  split
  · rename_i negative rest heq
    split at heq
    · rename_i hcons
      exact absurd (List.cons.inj hcons).1 h
    · cases heq
      rfl

theorem readUnsigned_append {rest : List Char} (hrest : NumberEnds rest) {negative : Bool}
    {cs r : List Char} {v : Value} (h : readUnsigned negative cs = .ok (v, r)) :
    readUnsigned negative (cs ++ rest) = .ok (v, r ++ rest) := by
  rw [readUnsigned] at h ⊢
  cases hinteger : scanInteger cs with
  | none =>
    rw [hinteger] at h
    cases h
  | some found =>
    obtain ⟨digits, behind⟩ := found
    rw [hinteger] at h
    rw [scanInteger_append hrest hinteger]
    simp only [orDecode, bind, Except.bind, scanFraction_append hrest behind,
      scanExponent_append hrest (scanFraction behind).2] at h ⊢
    by_cases hplain : ((scanFraction behind).1.isEmpty
        && (scanExponent (scanFraction behind).2).1.isEmpty) = true
    · rw [if_pos hplain] at h ⊢
      by_cases hmany : Text.maxDigits < digits.length
      · rw [if_pos hmany] at h
        cases h
      · rw [if_neg hmany] at h ⊢
        cases h
        rfl
    · rw [if_neg hplain] at h ⊢
      cases h
      rfl

/-- The first character of a number and, behind a sign, the second. -/
theorem readUnsigned_head {negative : Bool} {cs : List Char} {r : Value × List Char}
    (h : readUnsigned negative cs = .ok r) : ∃ c ds, cs = c :: ds ∧ isDigit c = true := by
  cases cs with
  | nil => cases h
  | cons c cs =>
    refine ⟨c, cs, rfl, ?_⟩
    by_contra hc
    rw [Bool.not_eq_true] at hc
    have hzero : c ≠ '0' := by
      rintro rfl
      cases hc
    have hnone : scanInteger (c :: cs) = none := by
      rw [scanInteger, if_neg hzero, if_neg (by simp [hc])]
    rw [readUnsigned, hnone] at h
    cases h

/-- Where a number begins. -/
def NumberHead (cs : List Char) : Prop :=
  ∃ c ds, cs = c :: ds ∧ (isDigit c = true ∨ c = '-' ∧ ∃ d es, ds = d :: es ∧ isDigit d = true)

theorem readNumber_head {cs : List Char} {r : Value × List Char} (h : readNumber cs = .ok r) :
    NumberHead cs := by
  cases cs with
  | nil => cases h
  | cons c cs =>
    refine ⟨c, cs, rfl, ?_⟩
    by_cases hc : c = '-'
    · subst hc
      exact Or.inr ⟨rfl, readUnsigned_head h⟩
    · rw [readNumber_other hc] at h
      obtain ⟨d, ds, heq, hd⟩ := readUnsigned_head h
      obtain ⟨rfl, -⟩ := List.cons.inj heq
      exact Or.inl hd

/-- **A number is read as far as it goes.** -/
theorem readNumber_append {rest : List Char} (hrest : NumberEnds rest) {cs r : List Char} {v : Value}
    (h : readNumber cs = .ok (v, r)) : readNumber (cs ++ rest) = .ok (v, r ++ rest) := by
  cases cs with
  | nil => cases h
  | cons c cs =>
    rw [List.cons_append]
    by_cases hc : c = '-'
    · subst hc
      exact readUnsigned_append hrest h
    · rw [readNumber_other hc] at h ⊢
      exact readUnsigned_append hrest h

/-- The first digit of a number is a zero only when there is no other. -/
theorem toDigits_head {n : Nat} (hn : 0 < n) :
    ∃ c cs, Nat.toDigits 10 n = c :: cs ∧ c ≠ '0' := by
  induction n using Nat.strongRecOn with
  | ind n ih =>
    by_cases hsmall : n < 10
    · refine ⟨_, [], Nat.toDigits_of_lt_base hsmall, ?_⟩
      have hdigit : ∀ m < 10, 0 < m → Nat.digitChar m ≠ '0' := by decide
      exact hdigit n hsmall hn
    · obtain ⟨c, cs, hcs, hc⟩ := ih (n / 10) (by omega) (by omega)
      refine ⟨c, cs ++ [Nat.digitChar (n % 10)], ?_, hc⟩
      rw [Nat.toDigits_of_base_le (by decide) (by omega), hcs, List.cons_append]

theorem isDigit_toDigits {n : Nat} {c : Char} (h : c ∈ Nat.toDigits 10 n) : isDigit c = true := by
  have hrange := Text.isDigit_range (Nat.isDigit_of_mem_toDigits (by decide) (by decide) h)
  rw [isDigit, Bool.and_eq_true, decide_eq_true_eq, decide_eq_true_eq]
  omega

theorem span_all {p : Char → Bool} {cs : List Char} (h : ∀ c ∈ cs, p c = true) :
    cs.takeWhile p = cs ∧ cs.dropWhile p = [] := by
  induction cs with
  | nil => exact ⟨rfl, rfl⟩
  | cons c cs ih =>
    obtain ⟨hc, hcs⟩ := List.forall_mem_cons.mp h
    rw [List.takeWhile_cons_of_pos hc, List.dropWhile_cons_of_pos hc, (ih hcs).1, (ih hcs).2]
    exact ⟨rfl, rfl⟩

theorem scanInteger_toDigits (n : Nat) :
    scanInteger (Nat.toDigits 10 n) = some (Nat.toDigits 10 n, []) := by
  rcases Nat.eq_zero_or_pos n with rfl | hn
  · rfl
  · obtain ⟨c, cs, hcs, hc⟩ := toDigits_head hn
    have hdigits : ∀ d ∈ c :: cs, isDigit d = true := fun d hd =>
      isDigit_toDigits (hcs ▸ hd)
    obtain ⟨hfirst, hrest⟩ := List.forall_mem_cons.mp hdigits
    rw [hcs, scanInteger, if_neg hc, if_pos hfirst, (span_all hrest).1, (span_all hrest).2]

theorem decimal_toDigits (n : Nat) : decimal (Nat.toDigits 10 n) = n :=
  Nat.ofDigitChars_ten_toDigits

theorem readUnsigned_toDigits {negative : Bool} {n : Nat} (h : n < 10 ^ Text.maxDigits) :
    readUnsigned negative (Nat.toDigits 10 n)
      = .ok (.int (if negative then -(n : Int) else n), []) := by
  have hlength : ¬ Text.maxDigits < (Nat.toDigits 10 n).length :=
    Nat.not_lt.mpr ((Nat.length_toDigits_le_iff (by decide) (by decide)).mpr h)
  rw [readUnsigned, scanInteger_toDigits]
  simp only [orDecode, bind, Except.bind, scanFraction, scanExponent, List.isEmpty_nil,
    Bool.and_self, if_true, if_neg hlength, decimal_toDigits]
  rfl

/-- **An integer is read back.** -/
theorem readNumber_toString {n : Int} (h : n.natAbs < 10 ^ Text.maxDigits) :
    readNumber (toString n).toList = .ok (.int n, []) := by
  rw [Text.toString_int]
  split_ifs with hneg
  · rw [readNumber_minus, readUnsigned_toDigits h, if_pos rfl,
      ← Int.eq_neg_natAbs_of_nonpos (Int.le_of_lt hneg)]
  · obtain ⟨c, cs, hcs⟩ := List.exists_cons_of_ne_nil
      (Nat.toDigits_ne_nil (n := n.natAbs) (b := 10))
    have hdigit : isDigit c = true := isDigit_toDigits (hcs ▸ List.mem_cons_self)
    have hminus : c ≠ '-' := by
      rintro rfl
      cases hdigit
    have hunsigned := @readUnsigned_toDigits false _ h
    rw [hcs] at hunsigned ⊢
    rw [readNumber_other hminus, hunsigned, if_neg (by decide),
      Int.natAbs_of_nonneg (Int.not_lt.mp hneg)]

theorem ne_of_isDigit {c d : Char} (h : isDigit c = true) (hd : isDigit d = false) : c ≠ d := by
  rintro rfl
  rw [h] at hd
  cases hd

/-- A number is no word. -/
theorem scanWord_number {cs : List Char} (h : NumberHead cs) (rest : List Char) :
    scanWord (cs ++ rest) = none := by
  obtain ⟨c, ds, rfl, hc | ⟨rfl, d, es, rfl, hd⟩⟩ := h
  · rw [scanWord.eq_def]
    split <;> first
      | rfl
      | (rename_i heq; exact absurd (List.cons.inj heq).1 (ne_of_isDigit hc (by decide)))
  · rw [scanWord.eq_def]
    split <;> first
      | rfl
      | (rename_i heq
         exact absurd (List.cons.inj (List.cons.inj heq).2).1 (ne_of_isDigit hd (by decide)))

/-- A number is what is read where it begins. -/
theorem readOnce_number {cs : List Char} (h : NumberHead cs) (n : Nat) (rest : List Char) :
    readOnce (n + 1) (cs ++ rest) = readNumber (cs ++ rest) := by
  have hword := scanWord_number h rest
  obtain ⟨c, ds, rfl, hc⟩ := h
  have hne : c ≠ '"' ∧ c ≠ '\x7b' ∧ c ≠ '[' := by
    rcases hc with hc | ⟨rfl, -⟩
    · exact ⟨ne_of_isDigit hc (by decide), ne_of_isDigit hc (by decide),
        ne_of_isDigit hc (by decide)⟩
    · decide
  rw [List.cons_append] at hword ⊢
  rw [readOnce, if_neg hne.1, if_neg hne.2.1, if_neg hne.2.2, hword]

/-! ## §2. Brackets. -/

theorem readOnce_text (n : Nat) (s : String) (rest : List Char) :
    readOnce (n + 1) (dumpsText s ++ rest) = .ok (.str (codePoints s), rest) := by
  have happend : dumpsText s ++ rest = '"' :: (s.toList.flatMap escape ++ '"' :: rest) := by
    simp [dumpsText]
  rw [happend, readOnce, if_pos rfl, scanText_dumpsText]
  rfl

theorem readOnce_empty_arr (n : Nat) (rest : List Char) :
    readOnce (n + 1) ('[' :: ']' :: rest) = .ok (.arr [], rest) := rfl

theorem readOnce_empty_obj (n : Nat) (rest : List Char) :
    readOnce (n + 1) ('\x7b' :: '\x7d' :: rest) = .ok (.obj [], rest) := rfl

theorem readOnce_arr {n : Nat} {cs ds : List Char} {c : Char} (hskip : skipSpace cs = c :: ds)
    (hc : c ≠ ']') {xs : List Value} {rest : List Char}
    (h : readElements n (c :: ds) = .ok (xs, rest)) :
    readOnce (n + 1) ('[' :: cs) = .ok (.arr xs, rest) := by
  rw [readOnce, if_neg (by decide), if_neg (by decide), if_pos rfl, hskip]
  split
  · rename_i heq
    exact absurd (List.cons.inj heq).1 hc
  · rw [h]
    rfl

theorem readOnce_obj {n : Nat} {cs ds : List Char} {c : Char} (hskip : skipSpace cs = c :: ds)
    (hc : c ≠ '\x7d') {members : List (CodePoints × Value)} {rest : List Char}
    (h : readMembers n (c :: ds) = .ok (members, rest)) :
    readOnce (n + 1) ('\x7b' :: cs) = .ok (.obj members, rest) := by
  rw [readOnce, if_neg (by decide), if_pos rfl, hskip]
  split
  · rename_i heq
    exact absurd (List.cons.inj heq).1 hc
  · rw [h]
    rfl

/-- The last element. -/
theorem readElements_last {n : Nat} {cs cs' rest : List Char} {x : Value}
    (h : readOnce n cs = .ok (x, cs')) (hskip : skipSpace cs' = ']' :: rest) :
    readElements (n + 1) cs = .ok ([x], rest) := by
  rw [readElements, h]
  simp only [bind, Except.bind, hskip]
  rfl

/-- An element before others. -/
theorem readElements_next {n : Nat} {cs cs' ds rest : List Char} {x : Value} {xs : List Value}
    (h : readOnce n cs = .ok (x, cs')) (hskip : skipSpace cs' = ',' :: ds)
    (hrest : readElements n (skipSpace ds) = .ok (xs, rest)) :
    readElements (n + 1) cs = .ok (x :: xs, rest) := by
  rw [readElements, h]
  simp only [bind, Except.bind, hskip, hrest]
  rfl

/-- The last member. -/
theorem readMembers_last {n : Nat} {k : String} {cs cs' rest : List Char} {x : Value}
    (h : readOnce n cs = .ok (x, cs')) (hskip : skipSpace cs = cs)
    (hend : skipSpace cs' = '\x7d' :: rest) :
    readMembers (n + 1) (dumpsText k ++ ':' :: ' ' :: cs) = .ok ([(codePoints k, x)], rest) := by
  have happend : dumpsText k ++ ':' :: ' ' :: cs
      = '"' :: (k.toList.flatMap escape ++ '"' :: ':' :: ' ' :: cs) := by
    simp [dumpsText]
  have hblank : skipSpace (' ' :: cs) = cs := hskip
  rw [happend, readMembers, scanText_dumpsText]
  simp only [orDecode, bind, Except.bind, skipSpace_cons (show isSpace ':' = false by decide),
    hblank, h, hend]
  rfl

/-- A member before others. -/
theorem readMembers_next {n : Nat} {k : String} {cs cs' ds rest : List Char} {x : Value}
    {members : List (CodePoints × Value)} (h : readOnce n cs = .ok (x, cs'))
    (hskip : skipSpace cs = cs) (hend : skipSpace cs' = ',' :: ds)
    (hrest : readMembers n (skipSpace ds) = .ok (members, rest)) :
    readMembers (n + 1) (dumpsText k ++ ':' :: ' ' :: cs)
      = .ok ((codePoints k, x) :: members, rest) := by
  have happend : dumpsText k ++ ':' :: ' ' :: cs
      = '"' :: (k.toList.flatMap escape ++ '"' :: ':' :: ' ' :: cs) := by
    simp [dumpsText]
  have hblank : skipSpace (' ' :: cs) = cs := hskip
  rw [happend, readMembers, scanText_dumpsText]
  simp only [orDecode, bind, Except.bind, skipSpace_cons (show isSpace ':' = false by decide),
    hblank, h, hend, hrest]
  rfl

end Hmn.Framework.JsonText

namespace Hmn.Framework.Json

open JsonText

/-! ## §3. Documents. -/

mutual

/-- What a document reads as. -/
def toValue : Json → Value
  | .null => .null
  | .bool b => .bool b
  | .int n => .int n
  | .float x => .float (floatText x).toList
  | .str s => .str (codePoints s)
  | .arr xs => .arr (toValues xs)
  | .obj kvs => .obj (toMembers kvs)

def toValues : List Json → List Value
  | [] => []
  | x :: xs => toValue x :: toValues xs

def toMembers : List (String × Json) → List (CodePoints × Value)
  | [] => []
  | (k, x) :: kvs => (codePoints k, toValue x) :: toMembers kvs

end

/-- A finite float prints as a number of JSON and is read as itself. -/
structure FloatWritten (floatOf : List Char → PyFloat) (x : PyFloat) : Prop where
  finite : ∃ q, x.value = .finite q
  number : readNumber x.text.toList = .ok (.float x.text.toList, [])
  read : floatOf x.text.toList = x

mutual

/-- A value that JSON can hold and that can be written: its integers can be
printed, its floats are finite, and no object has a name twice. -/
def Writable (floatOf : List Char → PyFloat) : Json → Prop
  | .null | .bool _ | .str _ => True
  | .int n => n.natAbs < 10 ^ Text.maxDigits
  | .float x => FloatWritten floatOf x
  | .arr xs => WritableAll floatOf xs
  | .obj kvs => (kvs.map Prod.fst).Nodup ∧ WritableFields floatOf kvs

def WritableAll (floatOf : List Char → PyFloat) : List Json → Prop
  | [] => True
  | x :: xs => Writable floatOf x ∧ WritableAll floatOf xs

def WritableFields (floatOf : List Char → PyFloat) : List (String × Json) → Prop
  | [] => True
  | (_, x) :: kvs => Writable floatOf x ∧ WritableFields floatOf kvs

end

theorem toList_newLine (level : Nat) :
    (newLine level).toList = '\n' :: List.replicate (2 * level) ' ' :=
  String.toList_ofList

theorem skipSpace_newLine (level : Nat) (cs : List Char) :
    skipSpace ((newLine level).toList ++ cs) = skipSpace cs := by
  have hblanks : ∀ k, skipSpace (List.replicate k ' ' ++ cs) = skipSpace cs := by
    intro k
    induction k with
    | zero => rfl
    | succ k ih => exact ih
  rw [toList_newLine, List.cons_append]
  exact hblanks _

/-- What stands behind an entry: the other entries and the closing bracket. -/
def blockTail (level : Nat) (close : Char) : List String → List Char
  | [] => (newLine level).toList ++ [close]
  | entry :: entries =>
    ',' :: ((newLine (level + 1)).toList ++ (entry.toList ++ blockTail level close entries))

/-- The entries from the first on, up to the closing bracket. -/
def blockText (level : Nat) (close : Char) : List String → List Char
  | [] => []
  | entry :: entries => entry.toList ++ blockTail level close entries

theorem toList_join (level : Nat) (close : Char) (entry : String) (entries : List String) :
    (Text.join ("," ++ newLine (level + 1)) (entry :: entries)).toList
        ++ ((newLine level).toList ++ [close])
      = blockText level close (entry :: entries) := by
  induction entries generalizing entry with
  | nil => rw [Text.join, String.intercalate_singleton, blockText, blockTail]
  | cons other entries ih =>
    have hcomma : ",".toList = [','] := rfl
    rw [Text.join, String.intercalate_cons_cons, ← Text.join, String.toList_append,
      String.toList_append, String.toList_append, hcomma, List.append_assoc, ih other]
    simp only [blockText, blockTail, List.append_assoc, List.nil_append, List.cons_append]

theorem toList_block (level : Nat) (open_ close : Char) (entry : String) (entries : List String) :
    (block level (String.singleton open_) (String.singleton close) (entry :: entries)).toList
      = open_ :: ((newLine (level + 1)).toList ++ blockText level close (entry :: entries)) := by
  have hblock : block level (String.singleton open_) (String.singleton close) (entry :: entries)
      = String.singleton open_ ++ newLine (level + 1)
        ++ Text.join ("," ++ newLine (level + 1)) (entry :: entries) ++ newLine level
        ++ String.singleton close := rfl
  rw [hblock, ← toList_join]
  simp only [String.toList_append, String.toList_singleton, List.append_assoc, List.nil_append,
    List.cons_append]

theorem toList_indented_arr (level : Nat) (x : Json) (xs : List Json) :
    (indented level (.arr (x :: xs))).toList
      = '[' :: ((newLine (level + 1)).toList
        ++ blockText level ']' (indentedList (level + 1) (x :: xs))) :=
  toList_block level '[' ']' _ _

theorem toList_indented_obj (level : Nat) (k : String) (x : Json) (kvs : List (String × Json)) :
    (indented level (.obj ((k, x) :: kvs))).toList
      = '\x7b' :: ((newLine (level + 1)).toList
        ++ blockText level '\x7d' (indentedFields (level + 1) ((k, x) :: kvs))) :=
  toList_block level '\x7b' '\x7d' _ _

theorem blockTail_cons (level : Nat) (close : Char) (entry : String) (entries : List String)
    (rest : List Char) :
    blockTail level close (entry :: entries) ++ rest
      = ',' :: ((newLine (level + 1)).toList
        ++ (blockText level close (entry :: entries) ++ rest)) := by
  simp only [blockTail, blockText, List.cons_append, List.append_assoc]

theorem delimited_blockTail (level : Nat) (close : Char) (entries : List String)
    (rest : List Char) : Delimited (blockTail level close entries ++ rest) := by
  cases entries with
  | nil =>
    rw [blockTail, toList_newLine, List.cons_append, List.cons_append]
    exact delimited_cons (Or.inr rfl) _
  | cons entry entries =>
    rw [blockTail, List.cons_append]
    exact delimited_cons (Or.inl rfl) _

/-- The first character of a document is no blank and no closing bracket. -/
theorem indented_head {floatOf : List Char → PyFloat} {v : Json} (h : Writable floatOf v)
    (level : Nat) :
    ∃ c cs, (indented level v).toList = c :: cs ∧ isSpace c = false ∧ c ≠ ']' := by
  have hnumber : ∀ cs, NumberHead cs → ∃ c ds, cs = c :: ds ∧ isSpace c = false ∧ c ≠ ']' := by
    rintro cs ⟨c, ds, rfl, hc⟩
    refine ⟨c, ds, rfl, ?_⟩
    rcases hc with hc | ⟨rfl, -⟩
    · have hspace : isSpace c = false := by
        simp only [isSpace, Bool.or_eq_false_iff, decide_eq_false_iff_not]
        exact ⟨⟨⟨ne_of_isDigit hc (by decide), ne_of_isDigit hc (by decide)⟩,
          ne_of_isDigit hc (by decide)⟩, ne_of_isDigit hc (by decide)⟩
      exact ⟨hspace, ne_of_isDigit hc (by decide)⟩
    · decide
  cases v with
  | null => exact ⟨'n', ['u', 'l', 'l'], by rw [indented]; rfl, by decide, by decide⟩
  | bool b =>
    cases b with
    | false => exact ⟨'f', ['a', 'l', 's', 'e'], by rw [indented]; rfl, by decide, by decide⟩
    | true => exact ⟨'t', ['r', 'u', 'e'], by rw [indented]; rfl, by decide, by decide⟩
  | int n => exact hnumber _ (readNumber_head (readNumber_toString h))
  | float x =>
    obtain ⟨q, hq⟩ := h.finite
    rw [indented, floatText, hq]
    exact hnumber _ (readNumber_head h.number)
  | str s =>
    rw [indented, String.toList_ofList]
    exact ⟨'"', _, rfl, by decide, by decide⟩
  | arr xs =>
    rw [indented]
    cases indentedList (level + 1) xs with
    | nil => exact ⟨'[', [']'], by rw [block]; rfl, by decide, by decide⟩
    | cons entry entries =>
      exact ⟨'[', _, toList_block level '[' ']' entry entries, by decide, by decide⟩
  | obj kvs =>
    rw [indented]
    cases indentedFields (level + 1) kvs with
    | nil => exact ⟨'\x7b', ['\x7d'], by rw [block]; rfl, by decide, by decide⟩
    | cons entry entries =>
      exact ⟨'\x7b', _, toList_block level '\x7b' '\x7d' entry entries, by decide, by decide⟩

theorem skipSpace_indented {floatOf : List Char → PyFloat} {v : Json} (h : Writable floatOf v)
    (level : Nat) (rest : List Char) :
    skipSpace ((indented level v).toList ++ rest) = (indented level v).toList ++ rest := by
  obtain ⟨c, cs, hcs, hspace, -⟩ := indented_head h level
  rw [hcs, List.cons_append, skipSpace_cons hspace]

theorem skipSpace_close (level : Nat) {close : Char} (hclose : isSpace close = false)
    (rest : List Char) : skipSpace (blockTail level close [] ++ rest) = close :: rest := by
  rw [blockTail, List.append_assoc, skipSpace_newLine, List.singleton_append,
    skipSpace_cons hclose]

theorem readOnce_null (n : Nat) (rest : List Char) :
    readOnce (n + 1) ('n' :: 'u' :: 'l' :: 'l' :: rest) = .ok (.null, rest) := rfl

theorem readOnce_true (n : Nat) (rest : List Char) :
    readOnce (n + 1) ('t' :: 'r' :: 'u' :: 'e' :: rest) = .ok (.bool true, rest) := rfl

theorem readOnce_false (n : Nat) (rest : List Char) :
    readOnce (n + 1) ('f' :: 'a' :: 'l' :: 's' :: 'e' :: rest) = .ok (.bool false, rest) := rfl

/-- A value without entries is read. -/
theorem readOnce_scalar {floatOf : List Char → PyFloat} {v : Json} (h : Writable floatOf v)
    (hv : v.scalar = true) (level n : Nat) {rest : List Char} (hrest : Delimited rest) :
    readOnce (n + 1) ((indented level v).toList ++ rest) = .ok (toValue v, rest) := by
  cases v with
  | null =>
    rw [indented]
    exact readOnce_null n rest
  | bool b =>
    cases b with
    | false =>
      rw [indented]
      exact readOnce_false n rest
    | true =>
      rw [indented]
      exact readOnce_true n rest
  | int k =>
    have hread := readNumber_toString h
    rw [indented, readOnce_number (readNumber_head hread), readNumber_append hrest.numberEnds hread]
    rfl
  | float x =>
    obtain ⟨q, hq⟩ := h.finite
    have htext : floatText x = x.text := by rw [floatText, hq]
    rw [indented, toValue, htext, readOnce_number (readNumber_head h.number),
      readNumber_append hrest.numberEnds h.number]
    rfl
  | str s =>
    rw [indented, String.toList_ofList, readOnce_text]
    rfl
  | arr xs => cases hv
  | obj kvs => cases hv

/-- An array is read when its elements are. -/
theorem readOnce_indented_arr {floatOf : List Char → PyFloat} {x : Json} {xs : List Json}
    (hx : Writable floatOf x) {level n : Nat} {rest : List Char}
    (h : readElements n (blockText level ']' (indentedList (level + 1) (x :: xs)) ++ rest)
      = .ok (toValues (x :: xs), rest)) :
    readOnce (n + 1) ((indented level (.arr (x :: xs))).toList ++ rest)
      = .ok (toValue (.arr (x :: xs)), rest) := by
  obtain ⟨c, cs, hcs, hspace, hc⟩ := indented_head hx (level + 1)
  have hstart : ∃ ds, blockText level ']' (indentedList (level + 1) (x :: xs)) ++ rest
      = c :: ds := by
    rw [indentedList, blockText, hcs]
    exact ⟨_, rfl⟩
  obtain ⟨ds, hds⟩ := hstart
  rw [hds] at h
  rw [toList_indented_arr, List.cons_append, List.append_assoc, toValue]
  refine readOnce_arr ?_ hc h
  rw [skipSpace_newLine, hds, skipSpace_cons hspace]

/-- An object is read when its members are. -/
theorem readOnce_indented_obj {k : String} {x : Json} {kvs : List (String × Json)}
    {level n : Nat} {rest : List Char}
    (h : readMembers n (blockText level '\x7d' (indentedFields (level + 1) ((k, x) :: kvs)) ++ rest)
      = .ok (toMembers ((k, x) :: kvs), rest)) :
    readOnce (n + 1) ((indented level (.obj ((k, x) :: kvs))).toList ++ rest)
      = .ok (toValue (.obj ((k, x) :: kvs)), rest) := by
  have hstart : ∃ ds, blockText level '\x7d' (indentedFields (level + 1) ((k, x) :: kvs)) ++ rest
      = '"' :: ds := by
    rw [indentedFields, blockText, String.toList_append, String.toList_append,
      String.toList_ofList, dumpsText]
    exact ⟨_, rfl⟩
  obtain ⟨ds, hds⟩ := hstart
  rw [hds] at h
  rw [toList_indented_obj, List.cons_append, List.append_assoc, toValue]
  refine readOnce_obj ?_ (by decide) h
  rw [skipSpace_newLine, hds, skipSpace_cons (by decide)]

theorem readOnce_indented_empty_arr (level n : Nat) (rest : List Char) :
    readOnce (n + 1) ((indented level (.arr [])).toList ++ rest)
      = .ok (toValue (.arr []), rest) := by
  rw [indented, indentedList, block, toValue, toValues]
  exact readOnce_empty_arr n rest

theorem readOnce_indented_empty_obj (level n : Nat) (rest : List Char) :
    readOnce (n + 1) ((indented level (.obj [])).toList ++ rest)
      = .ok (toValue (.obj []), rest) := by
  rw [indented, indentedFields, block, toValue, toMembers]
  exact readOnce_empty_obj n rest

/-- What the entries of a block take, from the first to the next. -/
theorem length_blockText_cons (level : Nat) (close : Char) (entry : String)
    (entries : List String) :
    entry.toList.length + 1 + (blockText level close entries).length
      ≤ (blockText level close (entry :: entries)).length := by
  cases entries with
  | nil =>
    rw [blockText, blockText, blockTail, List.length_append, List.length_append,
      List.length_singleton, List.length_nil]
    omega
  | cons other entries =>
    rw [blockText, blockText, blockTail, List.length_append, List.length_append, List.length_cons,
      List.length_append, List.length_append]
    omega

mutual

/-- **A value is read up to where its text ends.** -/
theorem readOnce_indented {floatOf : List Char → PyFloat} : (v : Json) → Writable floatOf v →
    ∀ (level n : Nat) (rest : List Char), Delimited rest →
      2 * (indented level v).toList.length ≤ n →
      readOnce (n + 1) ((indented level v).toList ++ rest) = .ok (toValue v, rest)
  | .null, h => fun level n _ hrest _ => readOnce_scalar h rfl level n hrest
  | .bool _, h => fun level n _ hrest _ => readOnce_scalar h rfl level n hrest
  | .int _, h => fun level n _ hrest _ => readOnce_scalar h rfl level n hrest
  | .float _, h => fun level n _ hrest _ => readOnce_scalar h rfl level n hrest
  | .str _, h => fun level n _ hrest _ => readOnce_scalar h rfl level n hrest
  | .arr xs, h => by
    have hread := readElements_indented xs h
    intro level n rest _ hn
    cases xs with
    | nil => exact readOnce_indented_empty_arr level n rest
    | cons x xs =>
      rw [toList_indented_arr, List.length_cons, List.length_append] at hn
      exact readOnce_indented_arr h.1 (hread (List.cons_ne_nil _ _) level n rest (by omega))
  | .obj kvs, h => by
    have hread := readMembers_indented kvs h.2
    intro level n rest _ hn
    cases kvs with
    | nil => exact readOnce_indented_empty_obj level n rest
    | cons kv kvs =>
      obtain ⟨k, x⟩ := kv
      rw [toList_indented_obj, List.length_cons, List.length_append] at hn
      exact readOnce_indented_obj (hread (List.cons_ne_nil _ _) level n rest (by omega))

/-- The elements of an array are read, one after the other. -/
theorem readElements_indented {floatOf : List Char → PyFloat} : (xs : List Json) →
    WritableAll floatOf xs → xs ≠ [] → ∀ (level n : Nat) (rest : List Char),
      2 * (blockText level ']' (indentedList (level + 1) xs)).length ≤ n →
      readElements n (blockText level ']' (indentedList (level + 1) xs) ++ rest)
        = .ok (toValues xs, rest)
  | [], _ => fun hne => absurd rfl hne
  | x :: xs, h => by
    have hx := readOnce_indented x h.1
    have hxs := readElements_indented xs h.2
    intro _ level n rest hn
    have hdelimited := delimited_blockTail level ']' (indentedList (level + 1) xs) rest
    have hlength := length_blockText_cons level ']' (indented (level + 1) x)
      (indentedList (level + 1) xs)
    rw [indentedList] at hn ⊢
    obtain ⟨n, rfl⟩ := Nat.exists_eq_add_of_le' (show 2 ≤ n by omega)
    have hread := hx (level + 1) n _ hdelimited (by omega)
    rw [blockText, List.append_assoc]
    cases xs with
    | nil => exact readElements_last hread (skipSpace_close level (by decide) rest)
    | cons y ys =>
      have hrest := hxs (List.cons_ne_nil _ _) level (n + 1) rest (by omega)
      have hskip := skipSpace_indented h.2.1 (level + 1)
        (blockTail level ']' (indentedList (level + 1) ys) ++ rest)
      rw [indentedList, blockTail_cons] at hread ⊢
      refine readElements_next hread (skipSpace_cons (by decide) _) ?_
      rw [indentedList, blockText, List.append_assoc] at hrest
      rw [skipSpace_newLine, blockText, List.append_assoc, hskip]
      exact hrest

/-- The members of an object, likewise. -/
theorem readMembers_indented {floatOf : List Char → PyFloat} : (kvs : List (String × Json)) →
    WritableFields floatOf kvs → kvs ≠ [] → ∀ (level n : Nat) (rest : List Char),
      2 * (blockText level '\x7d' (indentedFields (level + 1) kvs)).length ≤ n →
      readMembers n (blockText level '\x7d' (indentedFields (level + 1) kvs) ++ rest)
        = .ok (toMembers kvs, rest)
  | [], _ => fun hne => absurd rfl hne
  | (k, x) :: kvs, h => by
    have hx := readOnce_indented x h.1
    have hkvs := readMembers_indented kvs h.2
    intro _ level n rest hn
    have hdelimited := delimited_blockTail level '\x7d' (indentedFields (level + 1) kvs) rest
    have hlength := length_blockText_cons level '\x7d'
      (String.ofList (dumpsText k) ++ ": " ++ indented (level + 1) x)
      (indentedFields (level + 1) kvs)
    have hcolon : ": ".toList = [':', ' '] := rfl
    rw [indentedFields] at hn ⊢
    rw [String.toList_append, String.toList_append, List.length_append] at hlength
    obtain ⟨n, rfl⟩ := Nat.exists_eq_add_of_le' (show 2 ≤ n by omega)
    have hread := hx (level + 1) n _ hdelimited (by omega)
    have hskip := skipSpace_indented h.1 (level + 1)
      (blockTail level '\x7d' (indentedFields (level + 1) kvs) ++ rest)
    rw [blockText, String.toList_append, String.toList_append, String.toList_ofList, hcolon]
    simp only [List.append_assoc, List.cons_append, List.nil_append]
    cases kvs with
    | nil => exact readMembers_last hread hskip (skipSpace_close level (by decide) rest)
    | cons kv kvs =>
      obtain ⟨k', y⟩ := kv
      have hrest := hkvs (List.cons_ne_nil _ _) level (n + 1) rest (by omega)
      rw [indentedFields, blockTail_cons] at hread hskip ⊢
      refine readMembers_next hread hskip (skipSpace_cons (by decide) _) ?_
      rw [indentedFields] at hrest
      have hquote : ∃ ds, blockText level '\x7d'
          ((String.ofList (dumpsText k') ++ ": " ++ indented (level + 1) y)
            :: indentedFields (level + 1) kvs) ++ rest = '"' :: ds := by
        rw [blockText, String.toList_append, String.toList_append, String.toList_ofList,
          dumpsText]
        exact ⟨_, rfl⟩
      obtain ⟨ds, hds⟩ := hquote
      rw [skipSpace_newLine, hds, skipSpace_cons (by decide), ← hds]
      exact hrest

end

/-- **A document is read back**, as the value it says. -/
theorem read_indented {floatOf : List Char → PyFloat} {v : Json} (h : Writable floatOf v) :
    read (indented 0 v) = .ok (toValue v) := by
  have honce := readOnce_indented v h 0 (2 * (indented 0 v).toList.length + 1) [] delimited_nil
    (by omega)
  have hskip := skipSpace_indented h 0 []
  rw [List.append_nil] at honce hskip
  rw [JsonText.read]
  simp only [bind, Except.bind, hskip, honce]
  rfl

/-! ## §4. As a value. -/

theorem set_of_new {d : Dict} {k : String} (h : k ∉ d.map Prod.fst) (v : Json) :
    d.set k v = d ++ [(k, v)] := by
  have hnone : d.get? k = none := by
    rw [Dict.get?, List.lookup_eq_none_iff]
    intro kv hkv
    rw [bne_iff_ne]
    rintro rfl
    exact h (List.mem_map_of_mem hkv)
  rw [Dict.set, hnone]
  rfl

/-- Members with different names are all kept. -/
theorem merge_of_nodup {d kvs : Dict} (h : ((d ++ kvs).map Prod.fst).Nodup) :
    Dict.merge d kvs = d ++ kvs := by
  induction kvs generalizing d with
  | nil => rw [List.append_nil]; rfl
  | cons kv kvs ih =>
    have hnew : kv.1 ∉ d.map Prod.fst := by
      rw [List.map_append, List.nodup_append] at h
      exact fun hd => h.2.2 _ hd _ List.mem_cons_self rfl
    have hset : Dict.merge d (kv :: kvs) = Dict.merge (d.set kv.1 kv.2) kvs := rfl
    rw [hset, set_of_new hnew, ih (by rwa [List.append_assoc, List.singleton_append]),
      List.append_assoc, List.singleton_append]

mutual

/-- **What a document reads as is the value** it was written from. -/
theorem toJson?_toValue {floatOf : List Char → PyFloat} : (v : Json) → Writable floatOf v →
    toJson? floatOf (toValue v) = some v
  | .null, _ => rfl
  | .bool _, _ => rfl
  | .int _, _ => rfl
  | .float x, h => by
    obtain ⟨q, hq⟩ := h.finite
    rw [toValue, toJson?, floatText, hq, h.read]
  | .str s, _ => by rw [toValue, toJson?, toText?_codePoints, Option.map_some]
  | .arr xs, h => by rw [toValue, toJson?, toJsonList?_toValues xs h, Option.map_some]
  | .obj kvs, h => by
    rw [toValue, toJson?, toJsonFields?_toMembers kvs h.2, Option.map_some,
      merge_of_nodup (by simpa using h.1), List.nil_append]

theorem toJsonList?_toValues {floatOf : List Char → PyFloat} : (xs : List Json) →
    WritableAll floatOf xs → toJsonList? floatOf (toValues xs) = some xs
  | [], _ => rfl
  | x :: xs, h => by
    rw [toValues, toJsonList?, toJson?_toValue x h.1, toJsonList?_toValues xs h.2]
    rfl

theorem toJsonFields?_toMembers {floatOf : List Char → PyFloat} :
    (kvs : List (String × Json)) → WritableFields floatOf kvs →
    toJsonFields? floatOf (toMembers kvs) = some kvs
  | [], _ => rfl
  | (k, x) :: kvs, h => by
    rw [toMembers, toJsonFields?, toText?_codePoints, toJson?_toValue x h.1,
      toJsonFields?_toMembers kvs h.2]
    rfl

end

/-! ## §5. Sorted keys. -/

theorem writableFields_iff {floatOf : List Char → PyFloat} {kvs : List (String × Json)} :
    WritableFields floatOf kvs ↔ ∀ kv ∈ kvs, Writable floatOf kv.2 := by
  induction kvs with
  | nil => exact ⟨fun _ _ h => (List.not_mem_nil h).elim, fun _ => trivial⟩
  | cons kv kvs ih =>
    rw [WritableFields, ih, List.forall_mem_cons]

theorem writableAll_iff {floatOf : List Char → PyFloat} {xs : List Json} :
    WritableAll floatOf xs ↔ ∀ x ∈ xs, Writable floatOf x := by
  induction xs with
  | nil => exact ⟨fun _ _ h => (List.not_mem_nil h).elim, fun _ => trivial⟩
  | cons x xs ih =>
    rw [WritableAll, ih, List.forall_mem_cons]

theorem keys_sortKeysFields (kvs : List (String × Json)) :
    (sortKeysFields kvs).map Prod.fst = kvs.map Prod.fst := by
  rw [sortKeysFields_eq, List.map_map]
  rfl

mutual

/-- A value that can be written can be with its keys sorted. -/
theorem writable_sortKeys {floatOf : List Char → PyFloat} : (v : Json) → Writable floatOf v →
    Writable floatOf v.sortKeys
  | .null, _ => trivial
  | .bool _, _ => trivial
  | .int _, h => h
  | .float _, h => h
  | .str _, _ => trivial
  | .arr xs, h => by
    rw [sortKeys]
    exact writableAll_sortKeys xs h
  | .obj kvs, h => by
    have hperm := List.perm_insertionSort (fun a b : String × Json => a.1 ≤ b.1)
      (sortKeysFields kvs)
    rw [sortKeys, Writable]
    constructor
    · rw [(hperm.map Prod.fst).nodup_iff, keys_sortKeysFields]
      exact h.1
    · rw [writableFields_iff]
      exact fun kv hkv => writableFields_iff.mp (writableFields_sortKeys kvs h.2) kv
        (hperm.mem_iff.mp hkv)

theorem writableAll_sortKeys {floatOf : List Char → PyFloat} : (xs : List Json) →
    WritableAll floatOf xs → WritableAll floatOf (sortKeysList xs)
  | [], _ => trivial
  | x :: xs, h => ⟨writable_sortKeys x h.1, writableAll_sortKeys xs h.2⟩

theorem writableFields_sortKeys {floatOf : List Char → PyFloat} :
    (kvs : List (String × Json)) → WritableFields floatOf kvs →
    WritableFields floatOf (sortKeysFields kvs)
  | [], _ => trivial
  | (_, x) :: kvs, h => ⟨writable_sortKeys x h.1, writableFields_sortKeys kvs h.2⟩

end

/-- **`json.loads(json.dumps(value, indent=2, sort_keys=True))`** is the value
with its keys sorted. -/
theorem read_dumpsIndented {floatOf : List Char → PyFloat} {v : Json} (h : Writable floatOf v) :
    ∃ w, read v.dumpsIndented = .ok w ∧ toJson? floatOf w = some v.sortKeys :=
  ⟨_, read_indented (writable_sortKeys v h), toJson?_toValue _ (writable_sortKeys v h)⟩

/-! ## §6. Line ends. -/

theorem return_not_mem_takeWhile (cs : List Char) : '\r' ∉ cs.takeWhile isDigit := fun h =>
  ne_of_isDigit (List.mem_takeWhile_imp h) (by decide) rfl

theorem return_not_mem_scanInteger {cs digits r : List Char}
    (h : scanInteger cs = some (digits, r)) : '\r' ∉ digits := by
  cases cs with
  | nil => cases h
  | cons c cs =>
    rw [scanInteger] at h
    split_ifs at h with hzero hdigit
    · cases h
      decide
    · cases h
      rw [List.mem_cons, not_or]
      exact ⟨(ne_of_isDigit hdigit (by decide)).symm, return_not_mem_takeWhile cs⟩

theorem return_not_mem_scanFraction (cs : List Char) : '\r' ∉ (scanFraction cs).1 := by
  unfold scanFraction
  split
  · rename_i behind
    split_ifs
    · exact List.not_mem_nil
    · rw [List.mem_cons, not_or]
      exact ⟨by decide, return_not_mem_takeWhile behind⟩
  · exact List.not_mem_nil

theorem return_not_mem_exponentSign (cs : List Char) : '\r' ∉ (exponentSign cs).1 := by
  unfold exponentSign
  split <;> simp

theorem return_not_mem_scanExponent (cs : List Char) : '\r' ∉ (scanExponent cs).1 := by
  cases cs with
  | nil => exact List.not_mem_nil
  | cons e cs =>
    rw [scanExponent_cons]
    split_ifs with he
    · exact List.not_mem_nil
    · rw [List.mem_append, List.mem_cons, not_or, not_or]
      refine ⟨⟨?_, return_not_mem_exponentSign cs⟩, return_not_mem_takeWhile _⟩
      rcases he with rfl | rfl <;> decide
    · exact List.not_mem_nil

theorem return_not_mem_readUnsigned {negative : Bool} {cs literal r : List Char}
    (h : readUnsigned negative cs = .ok (.float literal, r)) : '\r' ∉ literal := by
  rw [readUnsigned] at h
  cases hinteger : scanInteger cs with
  | none =>
    rw [hinteger] at h
    cases h
  | some found =>
    obtain ⟨digits, behind⟩ := found
    rw [hinteger] at h
    simp only [orDecode, bind, Except.bind] at h
    by_cases hplain : ((scanFraction behind).1.isEmpty
        && (scanExponent (scanFraction behind).2).1.isEmpty) = true
    · rw [if_pos hplain] at h
      by_cases hmany : Text.maxDigits < digits.length
      · rw [if_pos hmany] at h
        cases h
      · rw [if_neg hmany] at h
        cases h
    · rw [if_neg hplain] at h
      cases h
      have hsign : '\r' ∉ (if negative = true then ['-'] else []) := by
        cases negative <;> decide
      simp only [List.mem_append, not_or]
      exact ⟨⟨⟨hsign, return_not_mem_scanInteger hinteger⟩, return_not_mem_scanFraction _⟩,
        return_not_mem_scanExponent _⟩

theorem return_not_mem_readNumber {cs literal r : List Char}
    (h : readNumber cs = .ok (.float literal, r)) : '\r' ∉ literal := by
  cases cs with
  | nil => cases h
  | cons c cs =>
    by_cases hc : c = '-'
    · subst hc
      exact return_not_mem_readUnsigned h
    · rw [readNumber_other hc] at h
      exact return_not_mem_readUnsigned h

theorem return_not_mem_dumpsText (s : String) : '\r' ∉ dumpsText s := by
  have hescape : ∀ c, '\r' ∉ escape c := by
    intro c
    have hdigits : ∀ n < 32, '\r' ∉ ['\\', 'u', '0', '0', Nat.digitChar (n / 16),
        Nat.digitChar (n % 16)] := by
      decide
    unfold escape
    split_ifs with _ _ _ hreturn _ _ _ hcontrol
    · decide
    · decide
    · decide
    · decide
    · decide
    · decide
    · decide
    · exact hdigits _ hcontrol
    · rw [List.mem_singleton]
      exact fun h => hreturn h.symm
  simp only [dumpsText, List.mem_cons, List.mem_append, List.mem_flatMap, not_or, not_exists,
    not_and]
  exact ⟨by decide, fun c _ => hescape c, by decide, List.not_mem_nil⟩

theorem return_not_mem_newLine (level : Nat) : '\r' ∉ (newLine level).toList := by
  rw [toList_newLine, List.mem_cons, not_or]
  exact ⟨by decide, fun h => absurd (List.eq_of_mem_replicate h) (by decide)⟩

theorem return_not_mem_blockTail {close : Char} (hclose : '\r' ≠ close) (level : Nat)
    {entries : List String} (h : ∀ entry ∈ entries, '\r' ∉ entry.toList) :
    '\r' ∉ blockTail level close entries := by
  induction entries with
  | nil =>
    rw [blockTail, List.mem_append, List.mem_singleton, not_or]
    exact ⟨return_not_mem_newLine level, hclose⟩
  | cons entry entries ih =>
    obtain ⟨hentry, hentries⟩ := List.forall_mem_cons.mp h
    rw [blockTail]
    simp only [List.mem_cons, List.mem_append, not_or]
    exact ⟨by decide, return_not_mem_newLine (level + 1), hentry, ih hentries⟩

theorem return_not_mem_block (level : Nat) {open_ close : Char} (hopen : '\r' ≠ open_)
    (hclose : '\r' ≠ close) {entries : List String} (h : ∀ entry ∈ entries, '\r' ∉ entry.toList) :
    '\r' ∉ (block level (String.singleton open_) (String.singleton close) entries).toList := by
  cases entries with
  | nil =>
    rw [block, String.toList_append, String.toList_singleton, String.toList_singleton]
    simp only [List.mem_append, List.mem_singleton, not_or]
    exact ⟨hopen, hclose⟩
  | cons entry entries =>
    obtain ⟨hentry, hentries⟩ := List.forall_mem_cons.mp h
    rw [toList_block, blockText]
    simp only [List.mem_cons, List.mem_append, not_or]
    exact ⟨hopen, return_not_mem_newLine (level + 1), hentry,
      return_not_mem_blockTail hclose level hentries⟩

mutual

/-- **A document has line feeds only**: it is the same with universal
newlines. -/
theorem return_not_mem_indented {floatOf : List Char → PyFloat} : (v : Json) →
    Writable floatOf v → ∀ level, '\r' ∉ (indented level v).toList
  | .null, _ => fun _ => by rw [indented]; decide
  | .bool b, _ => fun _ => by cases b <;> (rw [indented]; decide)
  | .int n, _ => fun _ => by
    rw [indented, Text.toString_int]
    have hdigits : '\r' ∉ Nat.toDigits 10 n.natAbs := fun h =>
      ne_of_isDigit (isDigit_toDigits h) (by decide) rfl
    split_ifs
    · rw [List.mem_cons, not_or]
      exact ⟨by decide, hdigits⟩
    · exact hdigits
  | .float x, h => fun _ => by
    obtain ⟨q, hq⟩ := h.finite
    rw [indented, floatText, hq]
    exact return_not_mem_readNumber h.number
  | .str s, _ => fun _ => by
    rw [indented, String.toList_ofList]
    exact return_not_mem_dumpsText s
  | .arr xs, h => fun level => by
    rw [indented]
    exact return_not_mem_block level (show '\r' ≠ '[' by decide) (show '\r' ≠ ']' by decide)
      (return_not_mem_indentedList xs h (level + 1))
  | .obj kvs, h => fun level => by
    rw [indented]
    exact return_not_mem_block level (show '\r' ≠ '\x7b' by decide) (show '\r' ≠ '\x7d' by decide)
      (return_not_mem_indentedFields kvs h.2 (level + 1))

theorem return_not_mem_indentedList {floatOf : List Char → PyFloat} : (xs : List Json) →
    WritableAll floatOf xs → ∀ level, ∀ entry ∈ indentedList level xs, '\r' ∉ entry.toList
  | [], _ => fun _ _ hentry => (List.not_mem_nil hentry).elim
  | x :: xs, h => fun level =>
    List.forall_mem_cons.mpr ⟨return_not_mem_indented x h.1 level,
      return_not_mem_indentedList xs h.2 level⟩

theorem return_not_mem_indentedFields {floatOf : List Char → PyFloat} :
    (kvs : List (String × Json)) → WritableFields floatOf kvs →
    ∀ level, ∀ entry ∈ indentedFields level kvs, '\r' ∉ entry.toList
  | [], _ => fun _ _ hentry => (List.not_mem_nil hentry).elim
  | (k, x) :: kvs, h => fun level => by
    refine List.forall_mem_cons.mpr ⟨?_, return_not_mem_indentedFields kvs h.2 level⟩
    rw [String.toList_append, String.toList_append, String.toList_ofList, List.mem_append,
      List.mem_append, not_or, not_or]
    exact ⟨⟨return_not_mem_dumpsText k, by decide⟩, return_not_mem_indented x h.1 level⟩

end

end Hmn.Framework.Json
