/-
  Hmn.Framework.PyValue — what a JSON document decodes to, with every text
  that an escape can name.

  Texts are lists of code points, halves of surrogate pairs among them; a
  float is finite, infinite or not a number; an integer has any size.  The
  readings are those of a dynamic language: truth, `a or b`, the number a
  value is, and its text.  Printing an integer of too many digits fails.

  Main results: `asText_ok` — the values that a document can hold have a
  text — and `readable_get`.
-/
import Hmn.Framework.JsonRead
import Hmn.Framework.Number

namespace Hmn.Framework

open JsonText (CodePoints codePoints)

inductive PyValue where
  | none
  | bool (b : Bool)
  | int (n : Int)
  | float (x : PyFloat)
  | str (s : CodePoints)
  | list (xs : List PyValue)
  | dict (kvs : List (CodePoints × PyValue))
  deriving Inhabited

/-- A dictionary with text keys. -/
abbrev PyDict := List (CodePoints × PyValue)

namespace PyValue

/-! ## §1. Truth, and the number a value is. -/

/-- `bool(value)`. -/
def truthy : PyValue → Bool
  | .none => false
  | .bool b => b
  | .int n => n ≠ 0
  | .float x => x.value ≠ .finite 0
  | .str s => !s.isEmpty
  | .list xs => !xs.isEmpty
  | .dict kvs => !kvs.isEmpty

/-- `a or b`. -/
def or (a b : PyValue) : PyValue := if a.truthy then a else b

/-- The number a value is: `isinstance(value, (int, float))` holds of a truth
value too. -/
def number? : PyValue → Option Number
  | .bool b => some (.int (if b then 1 else 0))
  | .int n => some (.int n)
  | .float x => some (.float x.value)
  | _ => Option.none

/-- An infinite float. -/
def infinite : PyValue → Bool
  | .float x => x.value = .posInf ∨ x.value = .negInf
  | _ => false

/-- The dictionary a value is. -/
def dict? : PyValue → Option PyDict
  | .dict kvs => some kvs
  | _ => Option.none

/-- A constant text. -/
def text (s : String) : PyValue := .str (codePoints s)

/-! ## §2. Texts. -/

def exceedsDigits : ConversionError :=
  .value "Exceeds the limit (4300 digits) for integer string conversion"

/-- An integer of no more digits than can be printed. -/
@[irreducible] def printable (n : Int) : Bool := n.natAbs < 10 ^ Text.maxDigits

/-- `str(n)` of an integer. -/
def intText (n : Int) : Except ConversionError String :=
  if printable n then .ok (toString n) else .error exceedsDigits

theorem intText_ok {n : Int} (h : printable n = true) : intText n = .ok (toString n) := by
  rw [intText, if_pos h]

theorem printable_iff {n : Int} : printable n = true ↔ n.natAbs < 10 ^ Text.maxDigits := by
  unfold printable
  exact decide_eq_true_iff

theorem printable_of_le {m n : Int} (h : m.natAbs ≤ n.natAbs) (hn : printable n = true) :
    printable m = true :=
  printable_iff.mpr (h.trans_lt (printable_iff.mp hn))

theorem printable_bool (b : Bool) : printable (if b then 1 else 0) = true := by
  have hone : 1 < 10 ^ Text.maxDigits := Nat.one_lt_pow (by decide) (by decide)
  refine printable_iff.mpr (lt_of_le_of_lt ?_ hone)
  cases b <;> decide

/-- The integer part of a double can be printed. -/
theorem printable_truncate {q : Rat} (h : |q| ≤ Double.greatest) :
    printable (FloatValue.truncate q) = true := by
  have hlt : |(FloatValue.truncate q : Rat)| < 2 ^ 1024 :=
    ((FloatValue.abs_truncate_le q).trans h).trans_lt Double.greatest_lt
  generalize FloatValue.truncate q = n at hlt
  have habs : n.natAbs < 2 ^ 1024 := by
    rwa [← Nat.cast_lt (α := Rat), Nat.cast_natAbs, Int.cast_abs, Nat.cast_pow, Nat.cast_ofNat]
  have hdigits (k : Nat) (hk : k ≤ Text.maxDigits) : 2 ^ k ≤ 10 ^ Text.maxDigits :=
    (Nat.pow_le_pow_left (by decide) k).trans (Nat.pow_le_pow_right (by decide) hk)
  exact printable_iff.mpr (habs.trans_le (hdigits 1024 (by decide)))

/-- The hexadecimal digits of a number, filled up to `width` with zeros. -/
def hexDigits (width n : Nat) : List Char :=
  let digits := Nat.toDigits 16 n
  List.replicate (width - digits.length) '0' ++ digits

/-- A code point by its number. -/
def escaped (n : Nat) : List Char :=
  if n < 0x100 then '\\' :: 'x' :: hexDigits 2 n
  else if n < 0x10000 then '\\' :: 'u' :: hexDigits 4 n
  else '\\' :: 'U' :: hexDigits 8 n

/-- One code point of a quoted text. -/
def reprCode (isprintable : Char → Bool) (quote : Char) (n : Nat) : List Char :=
  if n.isValidChar then
    let c := Char.ofNat n
    if c = quote ∨ c = '\\' then ['\\', c]
    else if c = '\n' then ['\\', 'n']
    else if c = '\r' then ['\\', 'r']
    else if c = '\t' then ['\\', 't']
    else if isprintable c then [c] else escaped n
  else escaped n

/-- `repr` of a text: single quotes unless only those occur inside. -/
def reprText (isprintable : Char → Bool) (s : CodePoints) : String :=
  let quote := if 39 ∈ s ∧ 34 ∉ s then '"' else '\''
  String.ofList (quote :: (s.flatMap (reprCode isprintable quote) ++ [quote]))

section
variable (isprintable : Char → Bool)

mutual

/-- `repr(value)`. -/
def repr : PyValue → Except ConversionError String
  | .none => .ok "None"
  | .bool true => .ok "True"
  | .bool false => .ok "False"
  | .int n => intText n
  | .float x => .ok x.text
  | .str s => .ok (reprText isprintable s)
  | .list xs => do
    let items ← reprList xs
    return "[" ++ String.intercalate ", " items ++ "]"
  | .dict kvs => do
    let items ← reprFields kvs
    return "\x7b" ++ String.intercalate ", " items ++ "\x7d"

def reprList : List PyValue → Except ConversionError (List String)
  | [] => .ok []
  | x :: xs => do
    let item ← repr x
    let items ← reprList xs
    return item :: items

def reprFields : List (CodePoints × PyValue) → Except ConversionError (List String)
  | [] => .ok []
  | (k, x) :: kvs => do
    let item ← repr x
    let items ← reprFields kvs
    return (reprText isprintable k ++ ": " ++ item) :: items

end

/-- `str(value)`: a text is itself, every other value its `repr`. -/
def asText : PyValue → Except ConversionError CodePoints
  | .str s => .ok s
  | v => (repr isprintable v).map codePoints

end

/-- `s.strip()`. -/
def stripText (s : CodePoints) : CodePoints :=
  let isSpace (n : Nat) : Bool := n.isValidChar && Text.isSpace (Char.ofNat n)
  ((s.dropWhile isSpace).reverse.dropWhile isSpace).reverse

/-- `s.lower()`, for comparison with a lower-case ASCII word. -/
def lowerText (s : CodePoints) : CodePoints :=
  s.flatMap fun n =>
    if n.isValidChar then (Text.lowerChar (Char.ofNat n)).map Char.toNat else [n]

/-- The float that a text is read as. -/
def floatText? : PyValue → Option FloatValue
  | .str s => (JsonText.toText? s).bind FloatText.parse
  | _ => Option.none

/-- The integer that a text is read as. -/
def intText? : PyValue → Option Int
  | .str s => (JsonText.toText? s).bind Text.parseInt
  | _ => Option.none

/-- `float(value)`. -/
def toFloat (v : PyValue) : Except ConversionError FloatValue :=
  match v.number?, v.floatText? with
  | some n, _ => n.toFloat
  | Option.none, some x => .ok x
  | Option.none, Option.none =>
    match v with
    | .str _ => .error (.value "could not convert string to float")
    | _ => .error (.type "float() argument must be a string or a real number")

/-- `int(value)`. -/
def toInt (v : PyValue) : Except ConversionError Int :=
  match v.number?, v.intText? with
  | some n, _ => n.toInt
  | Option.none, some n => .ok n
  | Option.none, Option.none =>
    match v with
    | .str _ => .error (.value "invalid literal for int() with base 10")
    | _ => .error (.type "int() argument must be a string or a real number")

theorem toFloat_number {v : PyValue} {n : Number} (h : v.number? = some n) :
    v.toFloat = n.toFloat := by
  unfold toFloat
  rw [h]

theorem toFloat_text {v : PyValue} {x : FloatValue} (h : v.number? = Option.none)
    (hx : v.floatText? = some x) : v.toFloat = .ok x := by
  unfold toFloat
  rw [h, hx]

/-- What is neither a number nor the text of one raises what the handlers
catch. -/
theorem toFloat_caught {v : PyValue} (h : v.number? = Option.none)
    (hx : v.floatText? = Option.none) {β : Type} (f : FloatValue → Except ConversionError β) :
    exceptTypeValue (v.toFloat >>= f) = .ok Option.none := by
  unfold toFloat
  rw [h, hx]
  cases v <;> rfl

/-! ## §3. What a document can hold. -/

mutual

/-- The integers can be printed and the floats are doubles. -/
def readable : PyValue → Bool
  | .int n => printable n
  | .float x => x.value.inRange
  | .list xs => readableList xs
  | .dict kvs => readableFields kvs
  | .none | .bool _ | .str _ => true

def readableList : List PyValue → Bool
  | [] => true
  | x :: xs => readable x && readableList xs

def readableFields : List (CodePoints × PyValue) → Bool
  | [] => true
  | (_, x) :: kvs => readable x && readableFields kvs

end

mutual

theorem repr_ok (isprintable : Char → Bool) :
    ∀ v : PyValue, v.readable = true → ∃ s, repr isprintable v = .ok s
  | .none, _ => ⟨_, rfl⟩
  | .bool true, _ => ⟨_, rfl⟩
  | .bool false, _ => ⟨_, rfl⟩
  | .int _, h => ⟨_, intText_ok h⟩
  | .float _, _ => ⟨_, rfl⟩
  | .str _, _ => ⟨_, rfl⟩
  | .list xs, h => by
    obtain ⟨items, hitems⟩ := reprList_ok isprintable xs h
    exact ⟨_, by rw [repr, hitems]; rfl⟩
  | .dict kvs, h => by
    obtain ⟨items, hitems⟩ := reprFields_ok isprintable kvs h
    exact ⟨_, by rw [repr, hitems]; rfl⟩

theorem reprList_ok (isprintable : Char → Bool) :
    ∀ xs : List PyValue, readableList xs = true → ∃ items, reprList isprintable xs = .ok items
  | [], _ => ⟨_, rfl⟩
  | x :: xs, h => by
    obtain ⟨hx, hxs⟩ := Bool.and_eq_true_iff.mp h
    obtain ⟨item, hitem⟩ := repr_ok isprintable x hx
    obtain ⟨items, hitems⟩ := reprList_ok isprintable xs hxs
    exact ⟨_, by rw [reprList, hitem, hitems]; rfl⟩

theorem reprFields_ok (isprintable : Char → Bool) :
    ∀ kvs : List (CodePoints × PyValue), readableFields kvs = true →
      ∃ items, reprFields isprintable kvs = .ok items
  | [], _ => ⟨_, rfl⟩
  | (k, x) :: kvs, h => by
    obtain ⟨hx, hkvs⟩ := Bool.and_eq_true_iff.mp h
    obtain ⟨item, hitem⟩ := repr_ok isprintable x hx
    obtain ⟨items, hitems⟩ := reprFields_ok isprintable kvs hkvs
    exact ⟨_, by rw [reprFields, hitem, hitems]; rfl⟩

end

/-- The floats that a readable value is turned into are doubles. -/
theorem inRange_toFloat {v : PyValue} {n : Number} {x : FloatValue} (h : v.readable = true)
    (hn : v.number? = some n) (hx : n.toFloat = .ok x) : x.inRange = true := by
  have hint {m : Int} (hm : (Number.int m).toFloat = .ok x) : x.inRange = true := by
    simp only [Number.toFloat] at hm
    split at hm
    · rename_i hlt
      cases hm
      exact decide_eq_true (Double.abs_nearest_le hlt)
    · cases hm
  cases v with
  | bool b =>
    cases hn
    exact hint hx
  | int m =>
    cases hn
    exact hint hx
  | float y =>
    cases hn
    cases hx
    exact h
  | _ => cases hn

theorem inRange_floatText {v : PyValue} {x : FloatValue} (h : v.floatText? = some x) :
    x.inRange = true := by
  cases v with
  | str s =>
    obtain ⟨t, -, h⟩ := Option.bind_eq_some_iff.mp h
    exact FloatText.inRange_parse h
  | _ => cases h

/-- **What a document can hold has a text**, and unless it is a text itself,
that text holds no half of a surrogate pair. -/
theorem asText_ok (isprintable : Char → Bool) {v : PyValue} (h : v.readable = true) :
    ∃ s, asText isprintable v = .ok s ∧ (v = .str s ∨ ∃ t, s = codePoints t) := by
  obtain ⟨t, ht⟩ := repr_ok isprintable v h
  cases v with
  | str s => exact ⟨s, rfl, .inl rfl⟩
  | _ => exact ⟨codePoints t, by rw [asText, ht, Except.map]; nofun, .inr ⟨t, rfl⟩⟩

theorem readable_lookup {k : CodePoints} :
    ∀ {kvs : PyDict} {v : PyValue}, readableFields kvs = true → kvs.lookup k = some v →
      v.readable = true
  | [], _, _, h => by cases h
  | (l, x) :: kvs, v, hread, h => by
    obtain ⟨hx, hkvs⟩ := Bool.and_eq_true_iff.mp hread
    rw [List.lookup_cons] at h
    split at h
    · cases h
      exact hx
    · exact readable_lookup hkvs h

theorem readable_or {a b : PyValue} (ha : a.readable = true) (hb : b.readable = true) :
    (a.or b).readable = true := by
  unfold PyValue.or
  split <;> assumption

theorem dict?_eq_some {v : PyValue} {d : PyDict} (h : v.dict? = some d) : v = .dict d := by
  cases v <;> cases h
  rfl

end PyValue

namespace PyDict

/-- `d.get(name)`. -/
def get (d : PyDict) (name : String) : PyValue := (d.lookup (codePoints name)).getD .none

theorem readable_get {d : PyDict} (h : PyValue.readableFields d = true) (name : String) :
    (d.get name).readable = true := by
  unfold get
  cases hv : d.lookup (codePoints name) with
  | none => rfl
  | some v => exact PyValue.readable_lookup h hv

end PyDict

/-! ## §4. Values without surrogates. -/

namespace PyValue

mutual

/-- A dynamic value, as one of these. -/
def ofJson : Json → PyValue
  | .null => .none
  | .bool b => .bool b
  | .int n => .int n
  | .float x => .float x
  | .str s => text s
  | .arr xs => .list (ofJsonList xs)
  | .obj kvs => .dict (ofJsonFields kvs)

def ofJsonList : List Json → List PyValue
  | [] => []
  | x :: xs => ofJson x :: ofJsonList xs

def ofJsonFields : List (String × Json) → PyDict
  | [] => []
  | (k, x) :: kvs => (codePoints k, ofJson x) :: ofJsonFields kvs

end

theorem truthy_ofJson (v : Json) : (ofJson v).truthy = v.truthy := by
  cases v with
  | str s =>
    have hempty : s = "" ↔ s.toList = [] := by
      rw [← String.toList_inj]
      rfl
    simp only [ofJson, truthy, Json.truthy, text, codePoints, ne_eq, hempty]
    cases s.toList <;> simp
  | arr xs => cases xs <;> rfl
  | obj kvs => cases kvs <;> rfl
  | _ => rfl

theorem lookup_ofJsonFields (fields : List (String × Json)) (name : String) :
    (ofJsonFields fields).lookup (codePoints name) = (fields.lookup name).map ofJson := by
  induction fields with
  | nil => rfl
  | cons field fields ih =>
    obtain ⟨key, value⟩ := field
    by_cases h : name = key
    · subst h
      simp [ofJsonFields]
    · have hne : codePoints name ≠ codePoints key := fun e => h (JsonText.codePoints_injective e)
      simp [ofJsonFields, List.lookup_cons, beq_eq_false_iff_ne.mpr h,
        beq_eq_false_iff_ne.mpr hne, ih]

end PyValue

end Hmn.Framework
