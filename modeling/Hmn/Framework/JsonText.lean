/-
  Hmn.Framework.JsonText — JSON documents as text.

  The reader follows the scanner of a dynamic language's standard library:
  texts are lists of code points, so that an escape may name half of a
  surrogate pair, numbers with a fraction or an exponent keep their literal,
  and of two members with one name the later one counts.  The writer leaves
  every character but the quote, the backslash and the control characters as
  it is.

  Main result: `loads_dumps` — an object of texts is read back as it was
  written, whatever characters its members hold.
-/
import Hmn.Framework.Text

namespace Hmn.Framework.JsonText

/-! ## §1. Documents. -/

/-- A text: code points, some of which may be surrogates. -/
abbrev CodePoints := List Nat

/-- The code points of a text without surrogates. -/
def codePoints (s : String) : CodePoints := s.toList.map Char.toNat

/-- What a document decodes to. -/
inductive Value where
  | null
  | bool (b : Bool)
  | int (n : Int)
  /-- A number with a fraction or an exponent, or one that is not finite. -/
  | float (literal : List Char)
  | str (s : CodePoints)
  | arr (xs : List Value)
  /-- The members in the order of the document. -/
  | obj (members : List (CodePoints × Value))

/-- `d.get(name)`: the last member with that name. -/
def get? (members : List (CodePoints × Value)) (name : String) : Option Value :=
  members.reverse.lookup (codePoints name)

/-! ## §2. Texts. -/

/-- The value of a hexadecimal digit. -/
def hexValue (c : Char) : Option Nat :=
  let n := c.toNat
  if 48 ≤ n ∧ n ≤ 57 then some (n - 48)
  else if 97 ≤ n ∧ n ≤ 102 then some (n - 87)
  else if 65 ≤ n ∧ n ≤ 70 then some (n - 55)
  else none

/-- The value of four hexadecimal digits. -/
def hexValue4 (a b c d : Char) : Option Nat := do
  some (4096 * (← hexValue a) + 256 * (← hexValue b) + 16 * (← hexValue c) + (← hexValue d))

/-- What a backslash and one character stand for. -/
def unescape (c : Char) : Option Nat :=
  match c with
  | '"' => some 34
  | '\\' => some 92
  | '/' => some 47
  | 'b' => some 8
  | 'f' => some 12
  | 'n' => some 10
  | 'r' => some 13
  | 't' => some 9
  | _ => none

/-- `scanstring`, after the opening quote: the text and what follows the
closing quote. -/
def scanString : List Char → Option (CodePoints × List Char)
  | [] => none
  | c :: cs =>
    if c = '"' then some ([], cs)
    else if c = '\\' then
      match cs with
      | 'u' :: a :: b :: c :: d :: cs =>
        (hexValue4 a b c d).bind fun n => (scanString cs).map fun r => (n :: r.1, r.2)
      | e :: cs => (unescape e).bind fun n => (scanString cs).map fun r => (n :: r.1, r.2)
      | [] => none
    else if c.toNat < 32 then none
    else (scanString cs).map fun r => (c.toNat :: r.1, r.2)

/-- The first code point of a surrogate pair. -/
def isHighSurrogate (n : Nat) : Bool := 0xD800 ≤ n && n ≤ 0xDBFF

/-- The second code point of a surrogate pair. -/
def isLowSurrogate (n : Nat) : Bool := 0xDC00 ≤ n && n ≤ 0xDFFF

/-- Two escapes that name a surrogate pair stand for one character.  Only
escapes name surrogates, so pairs can be joined after the escapes are read. -/
def joinSurrogates : CodePoints → CodePoints
  | high :: low :: ns =>
    if isHighSurrogate high && isLowSurrogate low then
      (0x10000 + (high - 0xD800) * 0x400 + (low - 0xDC00)) :: joinSurrogates ns
    else high :: joinSurrogates (low :: ns)
  | ns => ns

/-- A text, after the opening quote. -/
def scanText (cs : List Char) : Option (CodePoints × List Char) :=
  (scanString cs).map fun r => (joinSurrogates r.1, r.2)

/-! ## §3. Numbers. -/

def isDigit (c : Char) : Bool := 48 ≤ c.toNat && c.toNat ≤ 57

/-- The integer part of a number and what follows it. -/
def scanInteger : List Char → Option (List Char × List Char)
  | [] => none
  | c :: cs =>
    if c = '0' then some (['0'], cs)
    else if isDigit c then some (c :: cs.takeWhile isDigit, cs.dropWhile isDigit)
    else none

/-- The fraction of a number, if there is one. -/
def scanFraction : List Char → List Char × List Char
  | '.' :: cs =>
    if (cs.takeWhile isDigit).isEmpty then ([], '.' :: cs)
    else ('.' :: cs.takeWhile isDigit, cs.dropWhile isDigit)
  | cs => ([], cs)

/-- The exponent of a number, if there is one. -/
def scanExponent (cs : List Char) : List Char × List Char :=
  match cs with
  | [] => ([], [])
  | e :: rest =>
    if e = 'e' ∨ e = 'E' then
      let (sign, digits) : List Char × List Char :=
        match rest with
        | '+' :: rest => (['+'], rest)
        | '-' :: rest => (['-'], rest)
        | rest => ([], rest)
      if (digits.takeWhile isDigit).isEmpty then ([], cs)
      else (e :: sign ++ digits.takeWhile isDigit, digits.dropWhile isDigit)
    else ([], cs)

/-- The value of decimal digits. -/
def decimal (digits : List Char) : Nat := digits.foldl (fun n c => 10 * n + (c.toNat - 48)) 0

/-- A number.  A text of too many digits is no `int`. -/
def scanNumber (cs : List Char) : Option (Value × List Char) := do
  let (negative, rest) : Bool × List Char :=
    match cs with
    | '-' :: rest => (true, rest)
    | rest => (false, rest)
  let (digits, rest) ← scanInteger rest
  let (fraction, rest) := scanFraction rest
  let (exponent, rest) := scanExponent rest
  if fraction.isEmpty && exponent.isEmpty then
    if Text.maxDigits < digits.length then none
    else some (.int (if negative then -(decimal digits : Int) else decimal digits), rest)
  else
    some (.float ((if negative then ['-'] else []) ++ digits ++ fraction ++ exponent), rest)

/-! ## §4. Values. -/

def isSpace (c : Char) : Bool := c = ' ' || c = '\t' || c = '\n' || c = '\r'

def skipSpace (cs : List Char) : List Char := cs.dropWhile isSpace

/-- A word that stands for a value. -/
def scanWord (cs : List Char) : Option (Value × List Char) :=
  match cs with
  | 'n' :: 'u' :: 'l' :: 'l' :: cs => some (.null, cs)
  | 't' :: 'r' :: 'u' :: 'e' :: cs => some (.bool true, cs)
  | 'f' :: 'a' :: 'l' :: 's' :: 'e' :: cs => some (.bool false, cs)
  | 'N' :: 'a' :: 'N' :: cs => some (.float "NaN".toList, cs)
  | 'I' :: 'n' :: 'f' :: 'i' :: 'n' :: 'i' :: 't' :: 'y' :: cs =>
      some (.float "Infinity".toList, cs)
  | '-' :: 'I' :: 'n' :: 'f' :: 'i' :: 'n' :: 'i' :: 't' :: 'y' :: cs =>
      some (.float "-Infinity".toList, cs)
  | _ => none

mutual

/-- `scan_once`.  Every call that is made on the way to a value reads a
character or is followed by one that does, so that twice the length of the
text is enough fuel. -/
def scanOnce : Nat → List Char → Option (Value × List Char)
  | 0, _ => none
  | _ + 1, [] => none
  | n + 1, c :: cs =>
    if c = '"' then (scanText cs).map fun r => (.str r.1, r.2)
    else if c = '\x7b' then
      match skipSpace cs with
      | '\x7d' :: cs => some (.obj [], cs)
      | cs => (scanMembers n cs).map fun r => (.obj r.1, r.2)
    else if c = '[' then
      match skipSpace cs with
      | ']' :: cs => some (.arr [], cs)
      | cs => (scanElements n cs).map fun r => (.arr r.1, r.2)
    else (scanWord (c :: cs)).or (scanNumber (c :: cs))

/-- The members of an object, up to its closing brace. -/
def scanMembers : Nat → List Char → Option (List (CodePoints × Value) × List Char)
  | n + 1, '"' :: cs => do
    let (name, cs) ← scanText cs
    match skipSpace cs with
    | ':' :: cs =>
      let (value, cs) ← scanOnce n (skipSpace cs)
      match skipSpace cs with
      | '\x7d' :: cs => some ([(name, value)], cs)
      | ',' :: cs => (scanMembers n (skipSpace cs)).map fun r => ((name, value) :: r.1, r.2)
      | _ => none
    | _ => none
  | _, _ => none

/-- The elements of an array, up to its closing bracket. -/
def scanElements : Nat → List Char → Option (List Value × List Char)
  | 0, _ => none
  | n + 1, cs => do
    let (value, cs) ← scanOnce n cs
    match skipSpace cs with
    | ']' :: cs => some ([value], cs)
    | ',' :: cs => (scanElements n (skipSpace cs)).map fun r => (value :: r.1, r.2)
    | _ => none

end

/-- `json.loads`; nothing when it raises. -/
def loads (text : String) : Option Value := do
  let cs := text.toList
  let (value, rest) ← scanOnce (2 * cs.length + 2) (skipSpace cs)
  if (skipSpace rest).isEmpty then some value else none

/-! ## §5. Writing. -/

/-- One character of a text between quotes. -/
def escape (c : Char) : List Char :=
  if c = '"' then ['\\', '"']
  else if c = '\\' then ['\\', '\\']
  else if c = '\n' then ['\\', 'n']
  else if c = '\r' then ['\\', 'r']
  else if c = '\t' then ['\\', 't']
  else if c.toNat = 8 then ['\\', 'b']
  else if c.toNat = 12 then ['\\', 'f']
  else if c.toNat < 32 then
    ['\\', 'u', '0', '0', Nat.digitChar (c.toNat / 16), Nat.digitChar (c.toNat % 16)]
  else [c]

/-- A text between quotes. -/
def dumpsText (s : String) : List Char := '"' :: (s.toList.flatMap escape ++ ['"'])

/-- The members of an object after its opening brace. -/
def dumpsMembers : List (String × String) → List Char
  | [] => ['\x7d']
  | [(name, value)] => dumpsText name ++ ':' :: (dumpsText value ++ ['\x7d'])
  | (name, value) :: members =>
      dumpsText name ++ ':' :: (dumpsText value ++ ',' :: dumpsMembers members)

/-- `json.dumps` of an object of texts, without blanks and with every
character that needs no escape as it is. -/
def dumps (members : List (String × String)) : String :=
  String.ofList ('\x7b' :: dumpsMembers members)

example : dumps [("a", "x\n\"é\""), ("b", "")] = "\x7b\"a\":\"x\\n\\\"é\\\"\",\"b\":\"\"\x7d" := by
  decide +kernel

/-! ## §6. What is written is read back. -/

theorem hexValue4_control : ∀ n < 32,
    hexValue4 '0' '0' (Nat.digitChar (n / 16)) (Nat.digitChar (n % 16)) = some n := by
  decide

theorem scanString_quote (cs : List Char) : scanString ('"' :: cs) = some ([], cs) := by
  rw [scanString.eq_def]
  exact if_pos rfl

/-- An escape of one character. -/
theorem scanString_unescape {e : Char} {n : Nat} (he : unescape e = some n) (cs : List Char) :
    scanString ('\\' :: e :: cs) = (scanString cs).map fun r => (n :: r.1, r.2) := by
  have hu : e ≠ 'u' := by
    rintro rfl
    cases he
  rw [scanString]
  · rw [if_neg (by decide), if_pos rfl, he]
    rfl
  · exact fun a b c d rest h _ => hu h

/-- An escape of four digits. -/
theorem scanString_hex {a b c d : Char} {n : Nat} (h : hexValue4 a b c d = some n)
    (cs : List Char) :
    scanString ('\\' :: 'u' :: a :: b :: c :: d :: cs)
      = (scanString cs).map fun r => (n :: r.1, r.2) := by
  rw [scanString, if_neg (by decide), if_pos rfl, h]
  rfl

theorem scanString_plain {c : Char} (hquote : c ≠ '"') (hslash : c ≠ '\\') (hc : 32 ≤ c.toNat)
    (cs : List Char) :
    scanString (c :: cs) = (scanString cs).map fun r => (c.toNat :: r.1, r.2) := by
  rw [scanString.eq_def]
  dsimp only
  rw [if_neg hquote, if_neg hslash, if_neg (by omega)]

/-- **A character is read back as itself**, escaped or not. -/
theorem scanString_escape (c : Char) (cs : List Char) :
    scanString (escape c ++ cs) = (scanString cs).map fun r => (c.toNat :: r.1, r.2) := by
  unfold escape
  split_ifs with hquote hslash hn hr ht hb hf hcontrol
  · subst hquote
    exact scanString_unescape rfl cs
  · subst hslash
    exact scanString_unescape rfl cs
  · subst hn
    exact scanString_unescape rfl cs
  · subst hr
    exact scanString_unescape rfl cs
  · subst ht
    exact scanString_unescape rfl cs
  · rw [hb]
    exact scanString_unescape rfl cs
  · rw [hf]
    exact scanString_unescape rfl cs
  · exact scanString_hex (hexValue4_control c.toNat hcontrol) cs
  · exact scanString_plain hquote hslash (by omega) cs

/-- The escaped characters of a text are read back up to the closing quote. -/
theorem scanString_escaped (cs rest : List Char) :
    scanString (cs.flatMap escape ++ '"' :: rest) = some (cs.map Char.toNat, rest) := by
  induction cs with
  | nil => exact scanString_quote rest
  | cons c cs ih =>
    rw [List.flatMap_cons, List.append_assoc, scanString_escape, ih]
    rfl

/-- A character is no surrogate. -/
theorem not_highSurrogate (c : Char) : isHighSurrogate c.toNat = false := by
  have hvalid : c.toNat < 0xD800 ∨ 0xDFFF < c.toNat ∧ c.toNat < 0x110000 := c.valid
  unfold isHighSurrogate
  rw [Bool.and_eq_false_iff, decide_eq_false_iff_not, decide_eq_false_iff_not]
  omega

theorem joinSurrogates_toNat (cs : List Char) :
    joinSurrogates (cs.map Char.toNat) = cs.map Char.toNat := by
  induction cs with
  | nil => rfl
  | cons c cs ih =>
    cases cs with
    | nil => rfl
    | cons d cs =>
      rw [List.map_cons] at ih
      rw [List.map_cons, List.map_cons, joinSurrogates, not_highSurrogate, Bool.false_and, if_neg (by decide), ih]

/-- A text that was written is read back. -/
theorem scanText_dumpsText (s : String) (rest : List Char) :
    scanText (s.toList.flatMap escape ++ '"' :: rest) = some (codePoints s, rest) := by
  rw [scanText, scanString_escaped, Option.map_some, joinSurrogates_toNat]
  rfl

theorem skipSpace_cons {c : Char} (h : isSpace c = false) (cs : List Char) :
    skipSpace (c :: cs) = c :: cs := by
  unfold skipSpace
  rw [List.dropWhile_cons_of_neg (by simp [h])]

/-- What the members of an object of texts decode to. -/
def textMembers (members : List (String × String)) : List (CodePoints × Value) :=
  members.map fun m => (codePoints m.1, .str (codePoints m.2))

theorem scanOnce_dumpsText (n : Nat) (s : String) (rest : List Char) :
    scanOnce (n + 1) (dumpsText s ++ rest) = some (.str (codePoints s), rest) := by
  have happend : dumpsText s ++ rest = '"' :: (s.toList.flatMap escape ++ '"' :: rest) := by
    simp [dumpsText]
  rw [happend, scanOnce, if_pos rfl, scanText_dumpsText]
  rfl

/-- A member is read up to the comma or the brace behind it. -/
theorem scanMembers_member (n : Nat) (name value : String) (c : Char) (rest : List Char)
    (hc : isSpace c = false) :
    scanMembers (n + 2) (dumpsText name ++ ':' :: (dumpsText value ++ c :: rest))
      = match c :: rest with
        | '\x7d' :: cs => some ([(codePoints name, .str (codePoints value))], cs)
        | ',' :: cs =>
          (scanMembers (n + 1) (skipSpace cs)).map fun r =>
            ((codePoints name, .str (codePoints value)) :: r.1, r.2)
        | _ => none := by
  have happend : dumpsText name ++ ':' :: (dumpsText value ++ c :: rest)
      = '"' :: (name.toList.flatMap escape ++ '"' :: ':' :: (dumpsText value ++ c :: rest)) := by
    simp [dumpsText]
  have hvalue : skipSpace (dumpsText value ++ c :: rest) = dumpsText value ++ c :: rest :=
    skipSpace_cons (by decide) _
  rw [happend, scanMembers, scanText_dumpsText]
  simp only [Option.bind_eq_bind, Option.bind_some]
  rw [skipSpace_cons (by decide)]
  simp only [hvalue, scanOnce_dumpsText, Option.bind_some, skipSpace_cons hc]

/-- **The members of an object of texts are read back.** -/
theorem scanMembers_dumpsMembers (m : String × String) (members : List (String × String))
    (rest : List Char) : ∀ n, members.length + 2 ≤ n →
    scanMembers n (dumpsMembers (m :: members) ++ rest) = some (textMembers (m :: members), rest) := by
  induction members generalizing m with
  | nil =>
    intro n hn
    obtain ⟨n, rfl⟩ := Nat.exists_eq_add_of_le' (show 2 ≤ n by simpa using hn)
    have happend : dumpsMembers [m] ++ rest
        = dumpsText m.1 ++ ':' :: (dumpsText m.2 ++ '\x7d' :: rest) := by
      simp [dumpsMembers]
    rw [happend, scanMembers_member n m.1 m.2 _ rest (by decide)]
    rfl
  | cons m' members ih =>
    intro n hn
    obtain ⟨n, rfl⟩ := Nat.exists_eq_add_of_le' (show 2 ≤ n by simp at hn; omega)
    have happend : dumpsMembers (m :: m' :: members) ++ rest
        = dumpsText m.1 ++ ':' :: (dumpsText m.2 ++ ',' :: (dumpsMembers (m' :: members) ++ rest)) := by
      simp [dumpsMembers]
    have hskip : skipSpace (dumpsMembers (m' :: members) ++ rest)
        = dumpsMembers (m' :: members) ++ rest := by
      cases members <;> exact skipSpace_cons (by decide) _
    rw [happend, scanMembers_member n m.1 m.2 _ _ (by decide)]
    simp only [hskip, ih m' (n + 1) (by simp at hn; omega)]
    rfl

theorem length_le_dumpsMembers (members : List (String × String)) :
    members.length ≤ (dumpsMembers members).length := by
  fun_induction dumpsMembers members with
  | case1 => simp
  | case2 name value => simp; omega
  | case3 name value members h ih => simp at ih ⊢; omega

theorem dumpsMembers_head (m : String × String) (members : List (String × String)) :
    ∃ cs, dumpsMembers (m :: members) = '"' :: cs := by
  cases members <;> exact ⟨_, rfl⟩

/-- **An object of texts is read back as it was written.** -/
theorem loads_dumps (m : String × String) (members : List (String × String)) :
    loads (dumps (m :: members)) = some (.obj (textMembers (m :: members))) := by
  have hlength := length_le_dumpsMembers (m :: members)
  have hmembers := scanMembers_dumpsMembers m members [] (2 * (dumpsMembers (m :: members)).length + 3)
    (by simp at hlength ⊢; omega)
  obtain ⟨cs, hcs⟩ := dumpsMembers_head m members
  rw [List.append_nil] at hmembers
  rw [hcs] at hmembers hlength
  have honce : scanOnce (2 * ('\x7b' :: '"' :: cs).length + 2) ('\x7b' :: '"' :: cs)
      = some (.obj (textMembers (m :: members)), []) := by
    rw [scanOnce, if_neg (by decide), if_pos rfl, skipSpace_cons (by decide)]
    show (scanMembers (2 * ('"' :: cs).length + 3) ('"' :: cs)).map _ = _
    rw [hmembers]
    rfl
  unfold loads dumps
  rw [String.toList_ofList, hcs]
  simp only [skipSpace_cons (show isSpace '\x7b' = false by decide), Option.bind_eq_bind, honce,
    Option.bind_some]
  rfl

theorem codePoints_injective : Function.Injective codePoints := by
  intro s t h
  rw [← String.toList_inj]
  exact List.map_injective_iff.mpr (fun _ _ => Char.toNat_inj.mp) h

theorem lookup_textMembers (members : List (String × String)) (name : String) :
    (textMembers members).lookup (codePoints name)
      = (members.lookup name).map fun value => .str (codePoints value) := by
  induction members with
  | nil => rfl
  | cons m members ih =>
    obtain ⟨key, value⟩ := m
    show List.lookup (codePoints name) ((codePoints key, _) :: textMembers members) = _
    rw [List.lookup_cons, List.lookup_cons, ih]
    by_cases h : name = key
    · subst h
      simp
    · have hne : codePoints name ≠ codePoints key := fun e => h (codePoints_injective e)
      rw [beq_eq_false_iff_ne.mpr hne, beq_eq_false_iff_ne.mpr h]

/-- **A member of an object of texts is found under its name.** -/
theorem get?_textMembers (members : List (String × String)) (name : String) :
    get? (textMembers members) name
      = (members.reverse.lookup name).map fun value => .str (codePoints value) := by
  unfold get? textMembers
  rw [← List.map_reverse]
  exact lookup_textMembers members.reverse name

/-! ## §7. No control character is left in a document. -/

theorem digitChar_ge (n : Nat) : 32 ≤ (Nat.digitChar n).toNat := by
  have hdigit : ∀ n < 16, 32 ≤ (Nat.digitChar n).toNat := by decide
  by_cases h : n < 16
  · exact hdigit n h
  · have hstar : Nat.digitChar n = '*' := by
      unfold Nat.digitChar
      repeat rw [if_neg (by omega)]
    rw [hstar]
    decide

theorem escape_ge {c d : Char} (h : d ∈ escape c) : 32 ≤ d.toNat := by
  have hpair : ∀ e : Char, 32 ≤ e.toNat → d ∈ ['\\', e] → 32 ≤ d.toNat := by
    intro e he hd
    rcases List.mem_pair.mp hd with rfl | rfl
    · decide
    · exact he
  unfold escape at h
  split_ifs at h with hquote hslash hn hr ht hb hf hcontrol
  · exact hpair _ (by decide) h
  · exact hpair _ (by decide) h
  · exact hpair _ (by decide) h
  · exact hpair _ (by decide) h
  · exact hpair _ (by decide) h
  · exact hpair _ (by decide) h
  · exact hpair _ (by decide) h
  · simp only [List.mem_cons, List.not_mem_nil, or_false] at h
    rcases h with rfl | rfl | rfl | rfl | rfl | rfl
    · decide
    · decide
    · decide
    · decide
    · exact digitChar_ge _
    · exact digitChar_ge _
  · obtain rfl := List.mem_singleton.mp h
    omega

theorem dumpsText_ge {s : String} {d : Char} (h : d ∈ dumpsText s) : 32 ≤ d.toNat := by
  unfold dumpsText at h
  rw [List.mem_cons, List.mem_append, List.mem_flatMap, List.mem_singleton] at h
  rcases h with rfl | ⟨c, -, hd⟩ | rfl
  · decide
  · exact escape_ge hd
  · decide

/-- **A document holds no control character.** -/
theorem dumpsMembers_ge (members : List (String × String)) :
    ∀ d ∈ dumpsMembers members, 32 ≤ d.toNat := by
  fun_induction dumpsMembers members with
  | case1 => decide
  | case2 name value =>
    intro d hd
    simp only [List.mem_append, List.mem_cons, List.not_mem_nil, or_false] at hd
    rcases hd with hd | rfl | hd | rfl
    · exact dumpsText_ge hd
    · decide
    · exact dumpsText_ge hd
    · decide
  | case3 name value members h ih =>
    intro d hd
    simp only [List.mem_append, List.mem_cons] at hd
    rcases hd with hd | rfl | hd | rfl | hd
    · exact dumpsText_ge hd
    · decide
    · exact dumpsText_ge hd
    · decide
    · exact ih d hd

end Hmn.Framework.JsonText
