/-
  Hmn.Framework.JsonLine — a document on one line is read back.

  `json.dumps` writes a document on one line, either with every character as
  it is (`ensure_ascii=False`) or with what is beyond ASCII as `\u` escapes
  and surrogate pairs.  What the two have in common is an `Encoding` of the
  characters: it leaves ASCII alone, and a text between quotes is read back.

  Main results:

      ascii              the escapes of a text are read as the text
      read_line          a document on one line is read as the value it says
      read_dumpsSorted   the same for `json.dumps(value, sort_keys=True)`
-/
import Hmn.Framework.JsonAscii
import Hmn.Framework.JsonRoundtrip

namespace Hmn.Framework.JsonText

open Json

/-! ## §1. Encodings of the characters. -/

/-- A text in quotes that is read as `s`. -/
def Quoted (text : List Char) (s : String) : Prop :=
  ∃ body, text = '"' :: body ∧ ∀ rest, scanText (body ++ rest) = some (codePoints s, rest)

/-- A way to write the characters of a document. -/
structure Encoding where
  char : Char → List Char
  /-- What is printed as itself in ASCII stays. -/
  plain : ∀ c : Char, c.toNat < 127 → char c = [c]
  /-- A text is read back. -/
  quoted : ∀ s, Quoted ((dumpsText s).flatMap char) s

/-- The characters as they are. -/
def Encoding.verbatim : Encoding where
  char c := [c]
  plain _ _ := rfl
  quoted s := by
    refine ⟨s.toList.flatMap escape ++ ['"'], ?_, ?_⟩
    · rw [List.flatMap_singleton', dumpsText]
    · intro rest
      rw [List.append_assoc, List.singleton_append, scanText_dumpsText]

/-- The code units a character is escaped to. -/
def codeUnits (c : Char) : CodePoints :=
  if c.toNat < 0x10000 then [c.toNat]
  else [0xD800 + (c.toNat - 0x10000) / 1024, 0xDC00 + (c.toNat - 0x10000) % 1024]

theorem hexValue_digitChar : ∀ n < 16, hexValue (Nat.digitChar n) = some n := by decide

theorem hexValue4_hex4 {n : Nat} (h : n < 0x10000) : hexValue4 (Nat.digitChar (n / 4096))
    (Nat.digitChar (n / 256 % 16)) (Nat.digitChar (n / 16 % 16)) (Nat.digitChar (n % 16))
      = some n := by
  unfold hexValue4
  rw [hexValue_digitChar _ (by omega), hexValue_digitChar _ (by omega),
    hexValue_digitChar _ (by omega), hexValue_digitChar _ (by omega)]
  show some (4096 * (n / 4096) + 256 * (n / 256 % 16) + 16 * (n / 16 % 16) + n % 16) = some n
  congr 1
  omega

/-- Four digits are read as the code unit they write. -/
theorem scanString_hex4 {n : Nat} (h : n < 0x10000) (cs : List Char) :
    scanString ('\\' :: 'u' :: (hex4 n ++ cs)) = (scanString cs).map fun r => (n :: r.1, r.2) :=
  scanString_hex (hexValue4_hex4 h) cs

/-- An escape that is all ASCII is not changed. -/
theorem flatMap_asciiChar {cs : List Char} (h : ∀ c ∈ cs, c.toNat < 127) :
    cs.flatMap asciiChar = cs := by
  induction cs with
  | nil => rfl
  | cons c cs ih =>
    obtain ⟨hc, hcs⟩ := List.forall_mem_cons.mp h
    rw [List.flatMap_cons, asciiChar, if_pos hc, ih hcs]
    rfl

/-- What is escaped to more than one character is below ASCII. -/
theorem escape_ascii (c : Char) : escape c = [c] ∨ ∀ d ∈ escape c, d.toNat < 127 := by
  unfold escape
  split_ifs with hquote hslash hn hr ht hb hf hcontrol
  · exact .inr (by decide)
  · exact .inr (by decide)
  · exact .inr (by decide)
  · exact .inr (by decide)
  · exact .inr (by decide)
  · exact .inr (by decide)
  · exact .inr (by decide)
  · have hdigits : ∀ n < 32, ∀ d ∈ ['\\', 'u', '0', '0', Nat.digitChar (n / 16),
        Nat.digitChar (n % 16)], d.toNat < 127 := by decide
    exact .inr (hdigits c.toNat hcontrol)
  · exact .inl rfl

/-- **A character is read back** from its escapes, as its code units. -/
theorem scanString_asciiChar (c : Char) (cs : List Char) :
    scanString ((escape c).flatMap asciiChar ++ cs)
      = (scanString cs).map fun r => (codeUnits c ++ r.1, r.2) := by
  have hvalid : c.toNat < 0xD800 ∨ 0xDFFF < c.toNat ∧ c.toNat < 0x110000 := c.valid
  -- ASCII is written as if there were no encoding.
  have hkept : (escape c).flatMap asciiChar = escape c → c.toNat < 0x10000 →
      scanString ((escape c).flatMap asciiChar ++ cs)
        = (scanString cs).map fun r => (codeUnits c ++ r.1, r.2) := by
    intro heq hc
    rw [heq, scanString_escape, codeUnits, if_pos hc]
    rfl
  by_cases hsmall : c.toNat < 127
  · refine hkept ?_ (by omega)
    rcases escape_ascii c with heq | hascii
    · rw [heq, List.flatMap_singleton, asciiChar, if_pos hsmall]
    · exact flatMap_asciiChar hascii
  have hescape : escape c = [c] := by
    unfold escape
    repeat rw [if_neg (by rintro rfl; exact hsmall (by decide))]
    repeat rw [if_neg (by omega)]
  rw [hescape, List.flatMap_singleton, asciiChar, if_neg hsmall, codeUnits]
  split_ifs with hunit
  · exact scanString_hex4 hunit cs
  · rw [List.cons_append, List.cons_append, List.append_assoc, scanString_hex4 (by omega),
      List.cons_append, List.cons_append, scanString_hex4 (by omega), Option.map_map]
    rfl

theorem scanString_asciiChars (cs rest : List Char) :
    scanString ((cs.flatMap escape).flatMap asciiChar ++ '"' :: rest)
      = some (cs.flatMap codeUnits, rest) := by
  induction cs with
  | nil => exact scanString_quote rest
  | cons c cs ih =>
    rw [List.flatMap_cons, List.flatMap_append, List.append_assoc, scanString_asciiChar, ih]
    rfl

/-- The code units of a text are joined to the text. -/
theorem joinSurrogates_codeUnits (cs : List Char) :
    joinSurrogates (cs.flatMap codeUnits) = cs.map Char.toNat := by
  induction cs with
  | nil => rfl
  | cons c cs ih =>
    have hvalid : c.toNat < 0xD800 ∨ 0xDFFF < c.toNat ∧ c.toNat < 0x110000 := c.valid
    rw [List.flatMap_cons, List.map_cons, ← ih, codeUnits]
    split_ifs with hunit
    · rw [List.singleton_append]
      cases hrest : cs.flatMap codeUnits with
      | nil => rfl
      | cons n ns => rw [joinSurrogates, not_highSurrogate, Bool.false_and, if_neg (by decide)]
    · have hhigh : isHighSurrogate (0xD800 + (c.toNat - 0x10000) / 1024) = true := by
        unfold isHighSurrogate
        rw [Bool.and_eq_true, decide_eq_true_eq, decide_eq_true_eq]
        omega
      have hlow : isLowSurrogate (0xDC00 + (c.toNat - 0x10000) % 1024) = true := by
        unfold isLowSurrogate
        rw [Bool.and_eq_true, decide_eq_true_eq, decide_eq_true_eq]
        omega
      have hpair : 0x10000 + (0xD800 + (c.toNat - 0x10000) / 1024 - 0xD800) * 0x400
          + (0xDC00 + (c.toNat - 0x10000) % 1024 - 0xDC00) = c.toNat := by omega
      rw [List.cons_append, List.singleton_append, joinSurrogates, hhigh, hlow, Bool.and_self,
        if_pos rfl, hpair]

/-- **Texts in ASCII**: escapes and surrogate pairs are read as the text. -/
def Encoding.ascii : Encoding where
  char := asciiChar
  plain _ h := if_pos h
  quoted s := by
    have hquote : asciiChar '"' = ['"'] := rfl
    refine ⟨(s.toList.flatMap escape).flatMap asciiChar ++ ['"'], ?_, ?_⟩
    · rw [dumpsText, List.flatMap_cons, List.flatMap_append, hquote, List.flatMap_singleton,
        hquote]
      rfl
    · intro rest
      rw [List.append_assoc, List.singleton_append, scanText, scanString_asciiChars,
        Option.map_some, joinSurrogates_codeUnits]
      rfl

/-! ## §2. Numbers are written in ASCII. -/

/-- The characters that stand in a number. -/
def isNumberChar (c : Char) : Bool := isDigit c || c ∈ ['+', '-', '.', 'e', 'E']

/-- A text of such characters. -/
def NumberChars (cs : List Char) : Prop := ∀ c ∈ cs, isNumberChar c = true

theorem NumberChars.append {cs ds : List Char} (hcs : NumberChars cs) (hds : NumberChars ds) :
    NumberChars (cs ++ ds) := by
  intro c hc
  rcases List.mem_append.mp hc with hc | hc
  · exact hcs c hc
  · exact hds c hc

theorem NumberChars.cons {c : Char} {cs : List Char} (hc : isNumberChar c = true)
    (hcs : NumberChars cs) : NumberChars (c :: cs) := List.forall_mem_cons.mpr ⟨hc, hcs⟩

theorem numberChars_nil : NumberChars [] := fun _ h => (List.not_mem_nil h).elim

theorem isNumberChar_ascii {c : Char} (h : isNumberChar c = true) : c.toNat < 127 := by
  unfold isNumberChar isDigit at h
  simp only [Bool.or_eq_true, Bool.and_eq_true, decide_eq_true_eq] at h
  rcases h with h | h
  · omega
  · have hall : ∀ d ∈ ['+', '-', '.', 'e', 'E'], d.toNat < 127 := by decide
    exact hall c h

theorem numberChars_takeWhile (cs : List Char) : NumberChars (cs.takeWhile isDigit) := by
  intro c hc
  unfold isNumberChar
  rw [List.mem_takeWhile_imp hc, Bool.true_or]

theorem numberChars_scanInteger {cs digits r : List Char}
    (h : scanInteger cs = some (digits, r)) : NumberChars digits := by
  cases cs with
  | nil => cases h
  | cons c cs =>
    rw [scanInteger] at h
    split_ifs at h with hzero hdigit
    · cases h
      exact .cons rfl numberChars_nil
    · cases h
      refine .cons ?_ (numberChars_takeWhile cs)
      unfold isNumberChar
      rw [hdigit, Bool.true_or]

theorem numberChars_scanFraction (cs : List Char) : NumberChars (scanFraction cs).1 := by
  unfold scanFraction
  split
  · split_ifs
    · exact numberChars_nil
    · exact .cons rfl (numberChars_takeWhile _)
  · exact numberChars_nil

theorem numberChars_exponentSign (cs : List Char) : NumberChars (exponentSign cs).1 := by
  unfold exponentSign
  split
  · exact .cons rfl numberChars_nil
  · exact .cons rfl numberChars_nil
  · exact numberChars_nil

theorem numberChars_scanExponent (cs : List Char) : NumberChars (scanExponent cs).1 := by
  cases cs with
  | nil => exact numberChars_nil
  | cons e cs =>
    rw [scanExponent_cons]
    split_ifs with he hdigits
    · exact numberChars_nil
    · refine .append (.cons ?_ (numberChars_exponentSign cs)) (numberChars_takeWhile _)
      rcases he with rfl | rfl <;> rfl
    · exact numberChars_nil

theorem numberChars_readUnsigned {negative : Bool} {cs literal r : List Char}
    (h : readUnsigned negative cs = .ok (.float literal, r)) : NumberChars literal := by
  rw [readUnsigned] at h
  cases hinteger : scanInteger cs with
  | none =>
    rw [hinteger] at h
    cases h
  | some found =>
    obtain ⟨digits, behind⟩ := found
    rw [hinteger] at h
    simp only [orDecode, bind, Except.bind] at h
    by_cases hplain : ((scanFraction behind).1.isEmpty
        && (scanExponent (scanFraction behind).2).1.isEmpty) = true
    · rw [if_pos hplain] at h
      by_cases hmany : Text.maxDigits < digits.length
      · rw [if_pos hmany] at h
        cases h
      · rw [if_neg hmany] at h
        cases h
    · rw [if_neg hplain] at h
      cases h
      have hsign : NumberChars (if negative = true then ['-'] else []) := by
        cases negative
        · exact numberChars_nil
        · exact .cons rfl numberChars_nil
      exact ((hsign.append (numberChars_scanInteger hinteger)).append
        (numberChars_scanFraction _)).append (numberChars_scanExponent _)

/-- The literal of a float. -/
theorem numberChars_readNumber {cs literal r : List Char}
    (h : readNumber cs = .ok (.float literal, r)) : NumberChars literal := by
  cases cs with
  | nil => cases h
  | cons c cs =>
    by_cases hc : c = '-'
    · subst hc
      exact numberChars_readUnsigned h
    · rw [readNumber_other hc] at h
      exact numberChars_readUnsigned h

/-- The digits of an integer. -/
theorem numberChars_toString (n : Int) : NumberChars (toString n).toList := by
  have hdigits : ∀ m : Nat, NumberChars (Nat.toDigits 10 m) := by
    intro m c hc
    unfold isNumberChar
    rw [isDigit_toDigits hc, Bool.true_or]
  rw [Text.toString_int]
  split_ifs
  · exact .cons rfl (hdigits _)
  · exact hdigits _

end Hmn.Framework.JsonText

namespace Hmn.Framework.Json

open JsonText

/-! ## §3. Documents. -/

/-- Characters in an encoding. -/
def write (e : Encoding) (cs : List Char) : List Char := cs.flatMap e.char

theorem write_append (e : Encoding) (a b : List Char) :
    write e (a ++ b) = write e a ++ write e b := List.flatMap_append

theorem write_ascii (e : Encoding) {cs : List Char} (h : ∀ c ∈ cs, c.toNat < 127) :
    write e cs = cs := by
  induction cs with
  | nil => rfl
  | cons c cs ih =>
    obtain ⟨hc, hcs⟩ := List.forall_mem_cons.mp h
    rw [write, List.flatMap_cons, e.plain c hc]
    exact congrArg (c :: ·) (ih hcs)

theorem write_cons (e : Encoding) {c : Char} (h : c.toNat < 127) (cs : List Char) :
    write e (c :: cs) = c :: write e cs := by
  rw [write, List.flatMap_cons, e.plain c h]
  rfl

/-- Pieces after a piece, and the closing bracket. -/
def lineTail (e : Encoding) (close : Char) : List (List Char) → List Char
  | [] => [close]
  | piece :: pieces => ',' :: ' ' :: (write e piece ++ lineTail e close pieces)

/-- Pieces up to the closing bracket. -/
def lineBody (e : Encoding) (close : Char) : List (List Char) → List Char
  | [] => [close]
  | piece :: pieces => write e piece ++ lineTail e close pieces

theorem intercalate_cons (piece next : List Char) (pieces : List (List Char)) :
    List.intercalate [',', ' '] (piece :: next :: pieces)
      = piece ++ ',' :: ' ' :: List.intercalate [',', ' '] (next :: pieces) := by
  simp [List.intercalate, List.intersperse]

theorem write_pieces (e : Encoding) {close : Char} (hclose : close.toNat < 127)
    (pieces : List (List Char)) :
    write e (List.intercalate [',', ' '] pieces ++ [close]) = lineBody e close pieces := by
  cases pieces with
  | nil => exact write_cons e hclose []
  | cons piece pieces =>
    rw [lineBody]
    induction pieces generalizing piece with
    | nil =>
      rw [List.intercalate_singleton, write_append, write_cons e hclose]
      rfl
    | cons next pieces ih =>
      rw [intercalate_cons, List.append_assoc, List.cons_append, List.cons_append, write_append,
        write_cons e (by decide), write_cons e (by decide), ih next, lineTail]

theorem write_arr (e : Encoding) (xs : List Json) :
    write e (line (.arr xs)) = '[' :: lineBody e ']' (lineList xs) := by
  rw [line, write_cons e (by decide), write_pieces e (by decide)]

theorem write_obj (e : Encoding) (kvs : List (String × Json)) :
    write e (line (.obj kvs)) = '\x7b' :: lineBody e '\x7d' (lineFields kvs) := by
  rw [line, write_cons e (by decide), write_pieces e (by decide)]

theorem numberEnds_lineTail (e : Encoding) {close : Char} (hclose : close = ']' ∨ close = '\x7d')
    (pieces : List (List Char)) (rest : List Char) :
    NumberEnds (lineTail e close pieces ++ rest) := by
  intro c hc
  cases pieces with
  | nil =>
    obtain rfl := Option.some.inj hc
    exact .inr (.inr hclose)
  | cons piece pieces =>
    obtain rfl := Option.some.inj hc
    exact .inl rfl

theorem length_lineBody_cons (e : Encoding) (close : Char) (piece : List Char)
    (pieces : List (List Char)) : (write e piece).length + 1 + (lineBody e close pieces).length
      ≤ (lineBody e close (piece :: pieces)).length + 1 := by
  cases pieces with
  | nil =>
    rw [lineBody, lineBody, lineTail, List.length_append, List.length_singleton]
  | cons next pieces =>
    rw [lineBody, lineBody, lineTail, List.length_append, List.length_append, List.length_cons,
      List.length_cons, List.length_append]
    omega

/-- What a value begins with. -/
theorem write_head (e : Encoding) {floatOf : List Char → PyFloat} {v : Json}
    (h : Writable floatOf v) :
    ∃ c cs, write e (line v) = c :: cs ∧ JsonText.isSpace c = false ∧ c ≠ ']' := by
  have hnumber : ∀ {cs : List Char}, NumberHead cs → NumberChars cs →
      ∃ c ds, write e cs = c :: ds ∧ JsonText.isSpace c = false ∧ c ≠ ']' := by
    intro cs hhead hchars
    rw [write_ascii e fun c hc => isNumberChar_ascii (hchars c hc)]
    obtain ⟨c, ds, rfl, hc | ⟨rfl, -⟩⟩ := hhead
    · refine ⟨c, ds, rfl, ?_, ne_of_isDigit hc (by decide)⟩
      unfold JsonText.isDigit at hc
      have h1 := ne_of_isDigit (c := c) (d := ' ') hc (by decide)
      have h2 := ne_of_isDigit (c := c) (d := '\t') hc (by decide)
      have h3 := ne_of_isDigit (c := c) (d := '\n') hc (by decide)
      have h4 := ne_of_isDigit (c := c) (d := '\r') hc (by decide)
      simp [JsonText.isSpace, h1, h2, h3, h4]
    · exact ⟨'-', ds, rfl, by decide, by decide⟩
  cases v with
  | null => exact ⟨'n', _, write_ascii e (by decide), by decide, by decide⟩
  | bool b =>
    cases b with
    | false => exact ⟨'f', _, write_ascii e (by decide), by decide, by decide⟩
    | true => exact ⟨'t', _, write_ascii e (by decide), by decide, by decide⟩
  | int n => exact hnumber (readNumber_head (readNumber_toString h)) (numberChars_toString n)
  | float x =>
    obtain ⟨q, hq⟩ := h.finite
    rw [line, floatText, hq]
    exact hnumber (readNumber_head h.number) (numberChars_readNumber h.number)
  | str s =>
    obtain ⟨body, hbody, -⟩ := e.quoted s
    exact ⟨'"', body, hbody, by decide, by decide⟩
  | arr xs => exact ⟨'[', _, write_arr e xs, by decide, by decide⟩
  | obj kvs => exact ⟨'\x7b', _, write_obj e kvs, by decide, by decide⟩

theorem skipSpace_write (e : Encoding) {floatOf : List Char → PyFloat} {v : Json}
    (h : Writable floatOf v) (rest : List Char) :
    skipSpace (write e (line v) ++ rest) = write e (line v) ++ rest := by
  obtain ⟨c, cs, hcs, hspace, -⟩ := write_head e h
  rw [hcs, List.cons_append, skipSpace_cons hspace]

/-- A member, up to its value. -/
theorem write_member (e : Encoding) (k : String) (cs : List Char) :
    ∃ body, write e (dumpsText k ++ ':' :: ' ' :: cs) = '"' :: (body ++ ':' :: ' ' :: write e cs)
      ∧ ∀ rest, scanText (body ++ rest) = some (codePoints k, rest) := by
  obtain ⟨body, hbody, hscan⟩ := e.quoted k
  refine ⟨body, ?_, hscan⟩
  rw [write_append, write_cons e (by decide), write_cons e (by decide), write, hbody]
  rfl

/-- A member is read with what follows its value. -/
theorem readMembers_quoted {n : Nat} {k : String} {body cs cs' : List Char} {x : Value}
    (hk : ∀ rest, scanText (body ++ rest) = some (codePoints k, rest))
    (h : readOnce n cs = .ok (x, cs')) (hskip : skipSpace cs = cs) :
    (∀ rest, skipSpace cs' = '\x7d' :: rest →
      readMembers (n + 1) ('"' :: (body ++ ':' :: ' ' :: cs)) = .ok ([(codePoints k, x)], rest))
    ∧ ∀ ds members rest, skipSpace cs' = ',' :: ds →
      readMembers n (skipSpace ds) = .ok (members, rest) →
      readMembers (n + 1) ('"' :: (body ++ ':' :: ' ' :: cs))
        = .ok ((codePoints k, x) :: members, rest) := by
  have hblank : skipSpace (' ' :: cs) = cs := hskip
  have hcolon : skipSpace (':' :: ' ' :: cs) = ':' :: ' ' :: cs := skipSpace_cons (by decide) _
  constructor
  · intro rest hend
    rw [readMembers, hk]
    simp only [orDecode, bind, Except.bind, hcolon, hblank, h, hend]
    rfl
  · intro ds members rest hend hrest
    rw [readMembers, hk]
    simp only [orDecode, bind, Except.bind, hcolon, hblank, h, hend, hrest]
    rfl

/-- A number is read up to where it ends. -/
theorem readOnce_write_number (e : Encoding) {cs : List Char} {v : Value}
    (hread : readNumber cs = .ok (v, [])) (hchars : NumberChars cs) (n : Nat) {rest : List Char}
    (hrest : NumberEnds rest) : readOnce (n + 1) (write e cs ++ rest) = .ok (v, rest) := by
  rw [write_ascii e fun c hc => isNumberChar_ascii (hchars c hc),
    readOnce_number (readNumber_head hread), readNumber_append hrest hread]
  rfl

mutual

/-- **A value is read up to where its text ends.** -/
theorem readOnce_write (e : Encoding) {floatOf : List Char → PyFloat} : (v : Json) →
    Writable floatOf v → ∀ (n : Nat) (rest : List Char), NumberEnds rest →
      2 * (write e (line v)).length ≤ n →
      readOnce (n + 1) (write e (line v) ++ rest) = .ok (toValue v, rest)
  | .null, _ => by
    intro n rest _ _
    rw [line, write_ascii e (by decide)]
    exact readOnce_null n rest
  | .bool false, _ => by
    intro n rest _ _
    rw [line, write_ascii e (by decide)]
    exact readOnce_false n rest
  | .bool true, _ => by
    intro n rest _ _
    rw [line, write_ascii e (by decide)]
    exact readOnce_true n rest
  | .int k, h => fun n _ hrest _ =>
    readOnce_write_number e (readNumber_toString h) (numberChars_toString k) n hrest
  | .float x, h => by
    obtain ⟨q, hq⟩ := h.finite
    have htext : floatText x = x.text := by rw [floatText, hq]
    intro n rest hrest _
    rw [line, toValue, htext]
    exact readOnce_write_number e h.number (numberChars_readNumber h.number) n hrest
  | .str s, _ => by
    obtain ⟨body, hbody, hscan⟩ := e.quoted s
    intro n rest _ _
    rw [line, write, hbody, List.cons_append, readOnce, if_pos rfl, hscan]
    rfl
  | .arr xs, h => by
    have hread := readElements_write e xs h
    intro n rest _ hn
    cases xs with
    | nil =>
      rw [write_arr, lineList, lineBody]
      exact readOnce_empty_arr n rest
    | cons x xs =>
      obtain ⟨c, cs, hcs, hspace, hc⟩ := write_head e h.1
      rw [write_arr, List.length_cons] at hn
      have helements := hread (List.cons_ne_nil _ _) n rest (by omega)
      rw [write_arr, List.cons_append]
      rw [lineList, lineBody, hcs] at helements ⊢
      exact readOnce_arr (skipSpace_cons hspace _) hc helements
  | .obj kvs, h => by
    have hread := readMembers_write e kvs h.2
    intro n rest _ hn
    cases kvs with
    | nil =>
      rw [write_obj, lineFields, lineBody]
      exact readOnce_empty_obj n rest
    | cons kv kvs =>
      obtain ⟨k, x⟩ := kv
      obtain ⟨body, hbody, -⟩ := write_member e k (line x)
      rw [write_obj, List.length_cons] at hn
      have hmembers := hread (List.cons_ne_nil _ _) n rest (by omega)
      rw [write_obj, List.cons_append]
      rw [lineFields, lineBody, hbody] at hmembers ⊢
      exact readOnce_obj (skipSpace_cons (by decide) _) (by decide) hmembers

/-- The elements of an array are read, one after the other. -/
theorem readElements_write (e : Encoding) {floatOf : List Char → PyFloat} : (xs : List Json) →
    WritableAll floatOf xs → xs ≠ [] → ∀ (n : Nat) (rest : List Char),
      2 * (lineBody e ']' (lineList xs)).length ≤ n →
      readElements n (lineBody e ']' (lineList xs) ++ rest) = .ok (toValues xs, rest)
  | [], _ => fun hne => absurd rfl hne
  | x :: xs, h => by
    have hx := readOnce_write e x h.1
    have hxs := readElements_write e xs h.2
    intro _ n rest hn
    have hends := numberEnds_lineTail e (.inl rfl) (lineList xs) rest
    rw [lineList] at hn ⊢
    have hlength := length_lineBody_cons e ']' (line x) (lineList xs)
    obtain ⟨c, cs, hcs, -, -⟩ := write_head e h.1
    have hpos : 0 < (write e (line x)).length := by
      rw [hcs]
      exact Nat.succ_pos _
    have hbody : (write e (line x)).length + 1 ≤ (lineBody e ']' (line x :: lineList xs)).length := by
      rw [lineBody, List.length_append]
      cases xs <;> simp only [lineList, lineTail, List.length_cons] <;> omega
    obtain ⟨n, rfl⟩ := Nat.exists_eq_add_of_le' (show 2 ≤ n by omega)
    have hread := hx n _ hends (by omega)
    rw [lineBody, List.append_assoc]
    cases xs with
    | nil => exact readElements_last hread (skipSpace_cons (by decide) _)
    | cons y ys =>
      have hrest := hxs (List.cons_ne_nil _ _) (n + 1) rest (by omega)
      rw [lineList, lineTail, List.cons_append, List.cons_append] at hread ⊢
      refine readElements_next hread (skipSpace_cons (by decide) _) ?_
      have hblank : ∀ ds, skipSpace (' ' :: ds) = skipSpace ds := fun _ => rfl
      rw [lineList, lineBody] at hrest
      rw [hblank, List.append_assoc, skipSpace_write e h.2.1]
      rw [List.append_assoc] at hrest
      exact hrest

/-- The members of an object, likewise. -/
theorem readMembers_write (e : Encoding) {floatOf : List Char → PyFloat} :
    (kvs : List (String × Json)) → WritableFields floatOf kvs → kvs ≠ [] →
    ∀ (n : Nat) (rest : List Char), 2 * (lineBody e '\x7d' (lineFields kvs)).length ≤ n →
      readMembers n (lineBody e '\x7d' (lineFields kvs) ++ rest) = .ok (toMembers kvs, rest)
  | [], _ => fun hne => absurd rfl hne
  | (k, x) :: kvs, h => by
    have hx := readOnce_write e x h.1
    have hkvs := readMembers_write e kvs h.2
    intro _ n rest hn
    have hends := numberEnds_lineTail e (.inr rfl) (lineFields kvs) rest
    obtain ⟨body, hbody, hscan⟩ := write_member e k (line x)
    rw [lineFields] at hn ⊢
    have hlength := length_lineBody_cons e '\x7d' (dumpsText k ++ ':' :: ' ' :: line x)
      (lineFields kvs)
    have hmember : (write e (line x)).length + 3
        ≤ (write e (dumpsText k ++ ':' :: ' ' :: line x)).length := by
      rw [hbody]
      simp only [List.length_cons, List.length_append]
      omega
    have hwhole : (write e (dumpsText k ++ ':' :: ' ' :: line x)).length + 1
        ≤ (lineBody e '\x7d' ((dumpsText k ++ ':' :: ' ' :: line x) :: lineFields kvs)).length := by
      rw [lineBody, List.length_append]
      cases hfields : lineFields kvs <;> simp only [lineTail, List.length_cons] <;> omega
    obtain ⟨n, rfl⟩ := Nat.exists_eq_add_of_le' (show 2 ≤ n by omega)
    have hread := hx n _ hends (by omega)
    obtain ⟨hlast, hnext⟩ :=
      readMembers_quoted hscan hread (skipSpace_write e h.1 _)
    rw [lineBody, hbody]
    simp only [List.append_assoc, List.cons_append]
    cases kvs with
    | nil => exact hlast rest (skipSpace_cons (by decide) _)
    | cons kv kvs =>
      obtain ⟨k', y⟩ := kv
      have hrest := hkvs (List.cons_ne_nil _ _) (n + 1) rest (by omega)
      obtain ⟨body', hbody', -⟩ := write_member e k' (line y)
      rw [lineFields, lineTail, List.cons_append, List.cons_append] at hnext
      rw [lineFields, lineTail, List.cons_append, List.cons_append]
      refine hnext _ _ rest (skipSpace_cons (by decide) _) ?_
      have hblank : ∀ ds, skipSpace (' ' :: '"' :: ds) = '"' :: ds := fun _ => rfl
      rw [lineFields, lineBody, hbody'] at hrest
      rw [hbody', List.cons_append, List.cons_append, hblank]
      exact hrest

end

/-- **A document on one line is read back**, as the value it says. -/
theorem read_line (e : Encoding) {floatOf : List Char → PyFloat} {v : Json}
    (h : Writable floatOf v) : read (String.ofList (write e (line v))) = .ok (toValue v) := by
  have hends : NumberEnds [] := fun _ hc => by cases hc
  have honce := readOnce_write e v h (2 * (write e (line v)).length + 1) [] hends (by omega)
  have hskip := skipSpace_write e h []
  rw [List.append_nil] at honce hskip
  rw [JsonText.read, String.toList_ofList]
  simp only [bind, Except.bind, hskip, honce]
  rfl

/-! ## §4. `json.dumps`. -/

/-- `json.dumps(value, ensure_ascii=False)`. -/
def dumpsVerbatim (value : Json) : String := String.ofList (line value)

/-- **What `json.dumps(value, ensure_ascii=False)` wrote is read back.** -/
theorem read_dumpsVerbatim {floatOf : List Char → PyFloat} {v : Json} (h : Writable floatOf v) :
    ∃ w, read v.dumpsVerbatim = .ok w ∧ toJson? floatOf w = some v := by
  refine ⟨_, ?_, toJson?_toValue v h⟩
  have hverbatim : write .verbatim (line v) = line v := List.flatMap_singleton' _
  have hread := read_line .verbatim h
  rw [hverbatim] at hread
  exact hread

/-- **What `json.dumps(value, sort_keys=True)` wrote is read back**, with the
keys in their order. -/
theorem read_dumpsSorted {floatOf : List Char → PyFloat} {v : Json} (h : Writable floatOf v) :
    ∃ w, read v.dumpsSorted = .ok w ∧ toJson? floatOf w = some v.sortKeys :=
  ⟨_, read_line .ascii (writable_sortKeys v h), toJson?_toValue _ (writable_sortKeys v h)⟩

end Hmn.Framework.Json
