/-
  Hmn.Framework.Number — the numbers of a dynamic language.

  An integer has any size; next to a float it is turned into a double, which
  fails beyond the range of one.  Dividing two integers is exact before its
  result is rounded, and fails when the result is beyond the range.  Turning
  a float into an integer fails when it is infinite or not a number.

  Main results: when each of these returns (`toFloat_ok_iff`, `sub_ok_iff`,
  `truediv_ok_iff`, `round_ok_iff`), and `round2_ok` — two decimals are
  always left.
-/
import Hmn.Framework.Double
import Hmn.Framework.Fallible
import Hmn.Framework.JsonText

namespace Hmn.Framework

/-- What a conversion raises. -/
inductive ConversionError where
  /-- `OverflowError`. -/
  | overflow (message : String)
  /-- `ZeroDivisionError`. -/
  | zeroDivision (message : String)
  /-- `ValueError`. -/
  | value (message : String)
  /-- `TypeError`. -/
  | type (message : String)
  deriving DecidableEq

/-- `try: … except (TypeError, ValueError): …` with nothing in the handler. -/
def exceptTypeValue {α : Type} : Except ConversionError α → Except ConversionError (Option α)
  | .ok a => .ok (some a)
  | .error (.overflow message) => .error (.overflow message)
  | .error (.zeroDivision message) => .error (.zeroDivision message)
  | .error (.value _) | .error (.type _) => .ok none

/-! ## §1. Floats as integers. -/

namespace FloatValue

def infinityToInteger : ConversionError := .overflow "cannot convert float infinity to integer"
def nanToInteger : ConversionError := .value "cannot convert float NaN to integer"

/-- A float made an integer by `toInt`. -/
def toInteger (toInt : Rat → Int) : FloatValue → Except ConversionError Int
  | .finite q => .ok (toInt q)
  | .nan => .error nanToInteger
  | .posInf | .negInf => .error infinityToInteger

theorem toInteger_ok_iff {toInt : Rat → Int} {x : FloatValue} :
    (∃ n, x.toInteger toInt = .ok n) ↔ x.isFinite = true := by
  cases x <;> simp [toInteger, isFinite]

/-- `int(x)` drops the fraction. -/
def truncate (q : Rat) : Int := if q < 0 then -⌊-q⌋ else ⌊q⌋

theorem abs_truncate_le (q : Rat) : |(truncate q : Rat)| ≤ |q| := by
  unfold truncate
  split
  · rename_i h
    have hfloor := Int.floor_le (-q)
    have hnonneg : (0 : Rat) ≤ ⌊-q⌋ := by exact_mod_cast Int.floor_nonneg.mpr (by linarith)
    push_cast
    rwa [abs_neg, abs_of_nonneg hnonneg, abs_of_neg h]
  · rename_i h
    have hfloor := Int.floor_le q
    have hnonneg : (0 : Rat) ≤ ⌊q⌋ := by exact_mod_cast Int.floor_nonneg.mpr (not_lt.mp h)
    rwa [abs_of_nonneg hnonneg, abs_of_nonneg (not_lt.mp h)]

/-- A result that has to be finite. -/
def orOverflow (message : String) : FloatValue → Except ConversionError FloatValue
  | .finite q => .ok (.finite q)
  | _ => .error (.overflow message)

theorem orOverflow_ok_iff {message : String} {x : FloatValue} :
    (∃ y, x.orOverflow message = .ok y) ↔ x.isFinite = true := by
  cases x <;> simp [orOverflow, isFinite]

theorem isFinite_round_iff {x : Rat} :
    (Double.round x).isFinite = true ↔ |x| < Double.bound :=
  isFinite_iff.trans Double.round_eq_finite_iff

/-- `round(x, 2)`. -/
def round2 : FloatValue → Except ConversionError FloatValue
  | .finite q =>
    (Double.round (Double.roundHalfEven (q * 100) / 100)).orOverflow
      "rounded value too large to represent"
  | x => .ok x

theorem round2_ok {x : FloatValue} (h : x.inRange = true) : ∃ y, x.round2 = .ok y := by
  cases x with
  | finite q =>
    have hq : |q| ≤ Double.greatest := of_decide_eq_true h
    have hround := Double.abs_roundHalfEven_le (q * 100)
    rw [abs_mul, abs_of_pos (by norm_num : (0 : Rat) < 100)] at hround
    have hlt : |(Double.roundHalfEven (q * 100) / 100 : Rat)| < Double.bound := by
      rw [abs_div, abs_of_pos (by norm_num : (0 : Rat) < 100), div_lt_iff₀ (by norm_num)]
      have hgap := Double.greatest_add_one_le
      linarith
    exact orOverflow_ok_iff.mpr (isFinite_round_iff.mpr hlt)
  | _ => exact ⟨_, rfl⟩

end FloatValue

/-! ## §2. Integers and floats. -/

inductive Number where
  | int (n : Int)
  | float (x : FloatValue)
  deriving DecidableEq

namespace Number

/-- `bool(x)`. -/
def truthy : Number → Bool
  | .int n => n ≠ 0
  | .float x => x ≠ .finite 0

/-- The number that a number stands for, which comparisons compare. -/
def value : Number → FloatValue
  | .int n => .finite n
  | .float x => x

/-- `a < b`. -/
def lt (a b : Number) : Bool := a.value.lt b.value

/-- `min(a, b)`. -/
def min (a b : Number) : Number := if b.lt a then b else a

/-- `max(a, b)`. -/
def max (a b : Number) : Number := if a.lt b then b else a

/-- `float(a)`. -/
def toFloat : Number → Except ConversionError FloatValue
  | .int n =>
    if |(n : Rat)| < Double.bound then .ok (.finite (Double.nearest n))
    else .error (.overflow "int too large to convert to float")
  | .float x => .ok x

/-- `a - b`. -/
def sub : Number → Number → Except ConversionError Number
  | .int m, .int n => .ok (.int (m - n))
  | a, b => do
    let x ← a.toFloat
    let y ← b.toFloat
    return .float (x.sub y)

/-- `a / b`. -/
def truediv : Number → Number → Except ConversionError FloatValue
  | .int m, .int n =>
    if n = 0 then .error (.zeroDivision "division by zero")
    else (Double.round (m / n)).orOverflow "integer division result too large for a float"
  | a, b => do
    let x ← a.toFloat
    let y ← b.toFloat
    if y = .finite 0 then .error (.zeroDivision "float division by zero") else return x.div y

/-- `round(a)`. -/
def round : Number → Except ConversionError Int
  | .int n => .ok n
  | .float x => x.toInteger Double.roundHalfEven

/-- `int(a)`. -/
def toInt : Number → Except ConversionError Int
  | .int n => .ok n
  | .float x => x.toInteger FloatValue.truncate

/-! ## §3. When they return. -/

/-- What `float` turns into a double: every float, and the integers in range. -/
def Fits : Number → Prop
  | .int n => |(n : Rat)| < Double.bound
  | .float _ => True

instance : DecidablePred Fits
  | .int n => inferInstanceAs (Decidable (|(n : Rat)| < Double.bound))
  | .float _ => inferInstanceAs (Decidable True)

/-- The finite double that `float` makes of a number. -/
def double? : Number → Option Rat
  | .int n => if |(n : Rat)| < Double.bound then some (Double.nearest n) else none
  | .float (.finite q) => some q
  | .float _ => none

theorem double?_eq_some {a : Number} {q : Rat} :
    a.double? = some q ↔ a.toFloat = .ok (.finite q) := by
  cases a with
  | int n =>
    simp only [double?, toFloat]
    split <;> simp
  | float x => cases x <;> simp [double?, toFloat]

/-- What can be subtracted: integers, and what `float` takes. -/
def Subtractable : Number → Number → Prop
  | .int _, .int _ => True
  | a, b => a.Fits ∧ b.Fits

/-- What can be divided by a number that is not zero. -/
def Divisible : Number → Number → Prop
  | .int m, .int n => |(m / n : Rat)| < Double.bound
  | a, b => a.Fits ∧ b.Fits

/-- A number that is neither infinite nor undefined. -/
def isFinite : Number → Bool
  | .int _ => true
  | .float x => x.isFinite

theorem toFloat_ok_iff {a : Number} : (∃ x, a.toFloat = .ok x) ↔ a.Fits := by
  cases a with
  | int n =>
    simp only [toFloat, Fits]
    constructor
    · rintro ⟨x, hx⟩
      by_contra h
      rw [if_neg h] at hx
      cases hx
    · intro h
      exact ⟨_, if_pos h⟩
  | float x => simp only [toFloat, Fits, Except.ok.injEq, exists_eq']

theorem toFloat_error {a : Number} {e : ConversionError} (h : a.toFloat = .error e) :
    exceptTypeValue (.error e : Except ConversionError FloatValue) = .error e := by
  cases a with
  | int n =>
    simp only [toFloat] at h
    split at h
    · cases h
    · cases h
      rfl
  | float x => cases h

/-- Two conversions both return when each of them does. -/
theorem toFloat_both {a b : Number} {α : Type} {f : FloatValue → FloatValue → α} :
    (∃ c, (do let x ← a.toFloat; let y ← b.toFloat; return f x y) = Except.ok c)
      ↔ a.Fits ∧ b.Fits := by
  rw [← toFloat_ok_iff, ← toFloat_ok_iff]
  cases a.toFloat with
  | error e => simp [bind, Except.bind]
  | ok x => cases b.toFloat <;> simp [bind, Except.bind, pure, Except.pure]

/-- Numbers that are not both integers are subtracted as floats. -/
theorem sub_eq_floats {a b c : Number} (hints : ∀ m n, ¬ (a = .int m ∧ b = .int n)) :
    a.sub b = .ok c ↔ ∃ x y, a.toFloat = .ok x ∧ b.toFloat = .ok y ∧ .float (x.sub y) = c := by
  have hfloats : a.sub b = (do
      let x ← a.toFloat
      let y ← b.toFloat
      return .float (x.sub y)) := by
    cases a with
    | int m =>
      cases b with
      | int n => exact absurd ⟨rfl, rfl⟩ (hints m n)
      | float y => rfl
    | float x => rfl
  rw [hfloats]
  constructor
  · intro h
    obtain ⟨x, hx, h⟩ := Fallible.bind_eq_ok.mp h
    obtain ⟨y, hy, h⟩ := Fallible.bind_eq_ok.mp h
    exact ⟨x, y, hx, hy, Fallible.pure_eq_ok.mp h⟩
  · rintro ⟨x, y, hx, hy, rfl⟩
    rw [hx, hy]
    rfl

theorem sub_ok_iff {a b : Number} : (∃ c, a.sub b = .ok c) ↔ a.Subtractable b := by
  cases a with
  | int m =>
    cases b with
    | int n => simp only [sub, Subtractable, Except.ok.injEq, exists_eq']
    | float y => exact toFloat_both
  | float x => exact toFloat_both

/-- A positive number is positive as a float. -/
theorem toFloat_pos {b : Number} {y : FloatValue} (hb : lt (.int 0) b = true)
    (hy : b.toFloat = .ok y) : (FloatValue.finite 0).lt y = true := by
  cases b with
  | int n =>
    have hn : 1 ≤ n := by
      have : (0 : Rat) < n := of_decide_eq_true hb
      exact_mod_cast this
    simp only [toFloat] at hy
    split at hy
    · cases hy
      exact decide_eq_true (Double.nearest_pos (by exact_mod_cast hn))
    · cases hy
  | float x =>
    cases hy
    exact hb

theorem truthy_of_pos {b : Number} (hb : lt (.int 0) b = true) : b.truthy = true := by
  cases b with
  | int n =>
    have hn : (0 : Rat) < n := of_decide_eq_true hb
    refine decide_eq_true fun h => ?_
    rw [h] at hn
    exact lt_irrefl _ hn
  | float x =>
    refine decide_eq_true fun h => ?_
    rw [h] at hb
    exact absurd hb (by decide +kernel)

/-- A divisor that is not zero does not become zero as a float. -/
theorem toFloat_ne_zero {b : Number} {y : FloatValue} (hb : b.truthy = true)
    (hy : b.toFloat = .ok y) : y ≠ .finite 0 := by
  cases b with
  | int n =>
    have hn : n ≠ 0 := of_decide_eq_true hb
    have hone : (1 : Rat) ≤ |(n : Rat)| := by
      have : 1 ≤ |n| := Int.one_le_abs hn
      exact_mod_cast this
    simp only [toFloat] at hy
    split at hy
    · cases hy
      intro h
      exact Double.nearest_ne_zero hone (FloatValue.finite.inj h)
    · cases hy
  | float x =>
    cases hy
    exact of_decide_eq_true hb

/-- Numbers that are not both integers are divided as floats. -/
theorem truediv_floats {a b : Number} (hints : ∀ m n, ¬ (a = .int m ∧ b = .int n)) :
    a.truediv b = (do
      let x ← a.toFloat
      let y ← b.toFloat
      if y = .finite 0 then .error (.zeroDivision "float division by zero")
      else return x.div y) := by
  cases a with
  | int m =>
    cases b with
    | int n => exact absurd ⟨rfl, rfl⟩ (hints m n)
    | float y => rfl
  | float x => rfl

theorem truediv_eq_floats {a b : Number} {z : FloatValue}
    (hints : ∀ m n, ¬ (a = .int m ∧ b = .int n)) (hb : b.truthy = true) :
    a.truediv b = .ok z ↔ ∃ x y, a.toFloat = .ok x ∧ b.toFloat = .ok y ∧ x.div y = z := by
  rw [truediv_floats hints]
  constructor
  · intro h
    obtain ⟨x, hx, h⟩ := Fallible.bind_eq_ok.mp h
    obtain ⟨y, hy, h⟩ := Fallible.bind_eq_ok.mp h
    rw [if_neg (toFloat_ne_zero hb hy)] at h
    exact ⟨x, y, hx, hy, Fallible.pure_eq_ok.mp h⟩
  · rintro ⟨x, y, hx, hy, rfl⟩
    rw [hx, hy, Fallible.bind_ok, Fallible.bind_ok, if_neg (toFloat_ne_zero hb hy)]
    rfl

theorem truediv_ok_iff {a b : Number} (hb : b.truthy = true) :
    (∃ x, a.truediv b = .ok x) ↔ a.Divisible b := by
  have hfloats (hints : ∀ m n, ¬ (a = .int m ∧ b = .int n)) :
      (∃ z, a.truediv b = .ok z) ↔ a.Fits ∧ b.Fits := by
    rw [← toFloat_ok_iff, ← toFloat_ok_iff]
    constructor
    · rintro ⟨z, h⟩
      obtain ⟨x, y, hx, hy, -⟩ := (truediv_eq_floats hints hb).mp h
      exact ⟨⟨x, hx⟩, ⟨y, hy⟩⟩
    · rintro ⟨⟨x, hx⟩, ⟨y, hy⟩⟩
      exact ⟨x.div y, (truediv_eq_floats hints hb).mpr ⟨x, y, hx, hy, rfl⟩⟩
  cases a with
  | int m =>
    cases b with
    | int n =>
      have hn : n ≠ 0 := of_decide_eq_true hb
      simp only [truediv, if_neg hn]
      exact FloatValue.orOverflow_ok_iff.trans FloatValue.isFinite_round_iff
    | float y => exact hfloats (by nofun)
  | float x => exact hfloats (by nofun)

theorem round_ok_iff {a : Number} : (∃ n, a.round = .ok n) ↔ a.isFinite = true := by
  cases a with
  | int n => simp only [round, isFinite, Except.ok.injEq, exists_eq']
  | float x => exact FloatValue.toInteger_ok_iff

theorem toInt_ok_iff {a : Number} : (∃ n, a.toInt = .ok n) ↔ a.isFinite = true := by
  cases a with
  | int n => simp only [toInt, isFinite, Except.ok.injEq, exists_eq']
  | float x => exact FloatValue.toInteger_ok_iff

end Number

/-! ## §4. Floats as text. -/

namespace FloatText

/-- A character as `float` reads it: the blanks and the digits of every
script count. -/
def asciiChar (c : Char) : Option Char :=
  if c.toNat < 127 then some c
  else if Text.isSpace c then some ' '
  else (Text.digitValue c).map Nat.digitChar

def isBlank (c : Char) : Bool := c = ' ' || (9 ≤ c.toNat && c.toNat ≤ 13)

/-- The text without the underscores between its digits. -/
def dropUnderscores (previous : Char) : List Char → Option (List Char)
  | [] => if previous = '_' then none else some []
  | c :: cs =>
    if c = '_' then if JsonText.isDigit previous then dropUnderscores '_' cs else none
    else if previous = '_' && !JsonText.isDigit c then none
    else (dropUnderscores c cs).map (c :: ·)

/-- The power of ten after the letter of an exponent. -/
def power (cs : List Char) : Option Rat :=
  let digits (cs : List Char) : Option Nat :=
    if cs.isEmpty || !cs.all JsonText.isDigit then none else some (JsonText.decimal cs)
  match cs with
  | '-' :: cs => (digits cs).map fun n => 1 / 10 ^ n
  | '+' :: cs => (digits cs).map fun n => 10 ^ n
  | cs => (digits cs).map fun n => 10 ^ n

/-- A number in decimal notation. -/
def decimalNotation (cs : List Char) : Option Rat :=
  let (whole, rest) := cs.span JsonText.isDigit
  let (fraction, rest) :=
    match rest with
    | '.' :: rest => rest.span JsonText.isDigit
    | rest => ([], rest)
  let mantissa : Rat := JsonText.decimal (whole ++ fraction) / 10 ^ fraction.length
  if whole.isEmpty && fraction.isEmpty then none
  else
    match rest with
    | [] => some mantissa
    | e :: rest => if e = 'e' ∨ e = 'E' then (power rest).map (mantissa * ·) else none

/-- A number without a sign. -/
def unsigned (cs : List Char) : Option FloatValue :=
  let name := String.ofList (cs.map Char.toLower)
  if name = "inf" ∨ name = "infinity" then some .posInf
  else if name = "nan" then some .nan
  else (decimalNotation cs).map Double.round

/-- A number with or without a sign. -/
def signed : List Char → Option FloatValue
  | '-' :: cs => (unsigned cs).map .neg
  | '+' :: cs => unsigned cs
  | cs => unsigned cs

/-- `float(s)`; nothing when it raises `ValueError`. -/
def parse (s : String) : Option FloatValue := do
  let cs ← s.toList.mapM asciiChar
  let cs := ((cs.dropWhile isBlank).reverse.dropWhile isBlank).reverse
  let cs ← dropUnderscores ' ' cs
  signed cs

theorem inRange_unsigned {cs : List Char} {x : FloatValue} (h : unsigned cs = some x) :
    x.inRange = true := by
  unfold unsigned at h
  dsimp only at h
  split at h
  · cases h
    rfl
  · split at h
    · cases h
      rfl
    · obtain ⟨q, -, rfl⟩ := Option.map_eq_some_iff.mp h
      exact FloatValue.inRange_round q

theorem inRange_signed {cs : List Char} {x : FloatValue} (h : signed cs = some x) :
    x.inRange = true := by
  unfold signed at h
  split at h
  · obtain ⟨y, hy, rfl⟩ := Option.map_eq_some_iff.mp h
    rw [FloatValue.inRange_neg]
    exact inRange_unsigned hy
  · exact inRange_unsigned h
  · exact inRange_unsigned h

theorem inRange_parse {s : String} {x : FloatValue} (h : parse s = some x) :
    x.inRange = true := by
  obtain ⟨cs, -, h⟩ := Option.bind_eq_some_iff.mp h
  obtain ⟨cs', -, h⟩ := Option.bind_eq_some_iff.mp h
  exact inRange_signed h

end FloatText

end Hmn.Framework
