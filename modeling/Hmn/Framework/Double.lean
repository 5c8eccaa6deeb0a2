/-
  Hmn.Framework.Double — the arithmetic of double-precision numbers.

  A finite double is a rational of 53 binary digits, the last of which stands
  for 2^-1074 or more.  An operation is carried out exactly and its result is
  rounded to the nearest double, to the one with an even last digit when
  there are two; from `bound` on it becomes an infinity.  The sign of a zero
  is left out: no comparison and no error depends on it.

  Main results: `abs_nearest_le` — what is below the bound is rounded to one
  of the finite doubles — and when a rounded result is finite
  (`round_eq_finite_iff`).
-/
import Hmn.Framework.Json
import Mathlib.Algebra.Order.Field.Rat
import Mathlib.Data.Int.Log
import Mathlib.Data.Rat.Floor
import Mathlib.Tactic.Linarith
import Mathlib.Tactic.NormNum
import Mathlib.Tactic.Ring

namespace Hmn.Framework

namespace Double

/-! ## §1. Rounding. -/

/-- The integer nearest to `x`, the even one of two. -/
def roundHalfEven (x : Rat) : Int :=
  if x - ⌊x⌋ < 1 / 2 ∨ (x - ⌊x⌋ = 1 / 2 ∧ ⌊x⌋ % 2 = 0) then ⌊x⌋ else ⌊x⌋ + 1

/-- The exponent of the last binary digit of a double near `x`. -/
def exponent (x : Rat) : Int := max (Int.log 2 |x| - 52) (-1074)

/-- The double nearest to `x`, as long as it is finite. -/
def nearest (x : Rat) : Rat := roundHalfEven (x / 2 ^ exponent x) * 2 ^ exponent x

/-- The least number that is rounded to an infinity. -/
def bound : Rat := 2 ^ 1024 - 2 ^ 970

/-- The greatest finite double. -/
def greatest : Rat := 2 ^ 1024 - 2 ^ 971

/-- The double nearest to `x`. -/
def round (x : Rat) : FloatValue :=
  if |x| < bound then .finite (nearest x) else if 0 < x then .posInf else .negInf

theorem round_of_lt {x : Rat} (h : |x| < bound) : round x = .finite (nearest x) := if_pos h

theorem round_eq_finite_iff {x : Rat} : (∃ q, round x = .finite q) ↔ |x| < bound := by
  constructor
  · rintro ⟨q, hq⟩
    by_contra h
    rw [round, if_neg h] at hq
    split at hq <;> cases hq
  · intro h
    exact ⟨nearest x, round_of_lt h⟩

/-! ## §2. How large a rounded number is. -/

theorem abs_roundHalfEven_sub_le (x : Rat) : |(roundHalfEven x : Rat) - x| ≤ 1 / 2 := by
  have hle := Int.floor_le x
  have hlt := Int.lt_floor_add_one x
  rw [abs_le]
  unfold roundHalfEven
  split
  · rename_i h
    have hhalf : x - ⌊x⌋ ≤ 1 / 2 := h.elim le_of_lt (fun h => h.1.le)
    constructor <;> linarith
  · rename_i h
    have hhalf : 1 / 2 ≤ x - ⌊x⌋ := not_lt.mp (fun hx => h (Or.inl hx))
    push_cast
    constructor <;> linarith

theorem abs_roundHalfEven_le (x : Rat) : |(roundHalfEven x : Rat)| ≤ |x| + 1 / 2 := by
  have hnear := abs_roundHalfEven_sub_le x
  calc |(roundHalfEven x : Rat)| = |x + (roundHalfEven x - x)| := by rw [add_sub_cancel]
    _ ≤ |x| + |(roundHalfEven x : Rat) - x| := abs_add_le x _
    _ ≤ |x| + 1 / 2 := by linarith

theorem two_zpow_pos (e : Int) : (0 : Rat) < 2 ^ e := zpow_pos (by norm_num) e

theorem abs_nearest (x : Rat) :
    |nearest x| = |(roundHalfEven (x / 2 ^ exponent x) : Rat)| * 2 ^ exponent x := by
  rw [nearest, abs_mul, abs_of_pos (two_zpow_pos _)]

theorem abs_div_two_zpow (x : Rat) (e : Int) : |x / 2 ^ e| = |x| / 2 ^ e := by
  rw [abs_div, abs_of_pos (two_zpow_pos e)]

/-- A number has at most 53 digits before the last one of the double near it. -/
theorem abs_div_exponent_lt (x : Rat) : |x / 2 ^ exponent x| < 2 ^ 53 := by
  have hlog : |x| < (2 : Rat) ^ (Int.log 2 |x| + 1) := by
    exact_mod_cast Int.lt_zpow_succ_log_self (R := Rat) (b := 2) (by norm_num) |x|
  have hle : Int.log 2 |x| + 1 ≤ 53 + exponent x := by
    unfold exponent
    omega
  rw [abs_div_two_zpow, div_lt_iff₀ (two_zpow_pos _)]
  calc |x| < (2 : Rat) ^ (Int.log 2 |x| + 1) := hlog
    _ ≤ 2 ^ (53 + exponent x) := zpow_le_zpow_right₀ (by norm_num) hle
    _ = 2 ^ 53 * 2 ^ exponent x := by rw [zpow_add₀ (by norm_num)]; norm_num

theorem exponent_le {x : Rat} (h : |x| < 2 ^ 1024) : exponent x ≤ 971 := by
  have hlog : Int.log 2 |x| < 1024 := by
    by_cases hx : x = 0
    · subst hx
      simp
    · refine (Int.lt_zpow_iff_log_lt (by norm_num) (abs_pos.mpr hx)).mp ?_
      exact_mod_cast h
  unfold exponent
  omega

/-- A number that is not small is not rounded to zero. -/
theorem nearest_ne_zero {x : Rat} (h : 1 ≤ |x|) : nearest x ≠ 0 := by
  have hlog : 0 ≤ Int.log 2 |x| := by
    rw [← Int.zpow_le_iff_le_log (R := Rat) (by norm_num) (by linarith)]
    exact_mod_cast h
  have hexp : exponent x ≤ Int.log 2 |x| := by
    unfold exponent
    omega
  have hself := Int.zpow_log_le_self (R := Rat) (b := 2) (by norm_num) (by linarith : 0 < |x|)
  have hpow : (2 : Rat) ^ exponent x ≤ |x| :=
    calc (2 : Rat) ^ exponent x ≤ 2 ^ Int.log 2 |x| := zpow_le_zpow_right₀ (by norm_num) hexp
      _ ≤ |x| := by exact_mod_cast hself
  have hnear := abs_roundHalfEven_sub_le (x / 2 ^ exponent x)
  intro hzero
  have hcoefficient : (roundHalfEven (x / 2 ^ exponent x) : Rat) = 0 :=
    (mul_eq_zero.mp hzero).resolve_right (two_zpow_pos _).ne'
  rw [hcoefficient, zero_sub, abs_neg, abs_div_two_zpow, div_le_iff₀ (two_zpow_pos _)] at hnear
  linarith

theorem roundHalfEven_nonneg {x : Rat} (h : 0 ≤ x) : 0 ≤ roundHalfEven x := by
  have hfloor := Int.floor_nonneg.mpr h
  unfold roundHalfEven
  split <;> omega

theorem nearest_pos {x : Rat} (h : 1 ≤ x) : 0 < nearest x := by
  have hx : 0 ≤ x := zero_le_one.trans h
  have hround := roundHalfEven_nonneg (div_nonneg hx (two_zpow_pos (exponent x)).le)
  have hnonneg : 0 ≤ nearest x := mul_nonneg (by exact_mod_cast hround) (two_zpow_pos _).le
  exact hnonneg.lt_of_ne' (nearest_ne_zero (by rwa [abs_of_nonneg hx]))

theorem bound_lt : bound < 2 ^ 1024 := sub_lt_self _ (pow_pos (by norm_num) _)

/-- The bound and the greatest double, counted in halves of its last digit. -/
theorem bound_eq : bound = (2 ^ 54 - 1) * 2 ^ (970 : Int) := by
  have hpow : (2 : Rat) ^ 1024 = 2 ^ 54 * 2 ^ 970 := by rw [← pow_add]
  have hcast : (2 : Rat) ^ (970 : Int) = 2 ^ 970 := zpow_natCast 2 970
  rw [bound, hpow, hcast, sub_mul, one_mul]

theorem greatest_eq : greatest = (2 ^ 54 - 2) * 2 ^ (970 : Int) := by
  have hpow : (2 : Rat) ^ 1024 = 2 ^ 54 * 2 ^ 970 := by rw [← pow_add]
  have hlast : (2 : Rat) ^ 971 = 2 * 2 ^ 970 := by rw [← pow_succ']
  have hcast : (2 : Rat) ^ (970 : Int) = 2 ^ 970 := zpow_natCast 2 970
  rw [greatest, hpow, hlast, hcast, sub_mul]

theorem greatest_lt : greatest < 2 ^ 1024 := sub_lt_self _ (pow_pos (by norm_num) _)

theorem greatest_add_one_le : greatest + 1 ≤ bound := by
  have hone : (1 : Rat) ≤ 2 ^ (970 : Int) := one_le_zpow₀ (by norm_num) (by norm_num)
  rw [greatest_eq, bound_eq]
  calc (2 ^ 54 - 2) * (2 : Rat) ^ (970 : Int) + 1
      ≤ (2 ^ 54 - 2) * 2 ^ (970 : Int) + 2 ^ (970 : Int) := add_le_add_right hone _
    _ = (2 ^ 54 - 1) * 2 ^ (970 : Int) := by ring

/-- **What is below the bound is rounded to a finite double.** -/
theorem abs_nearest_le {x : Rat} (h : |x| < bound) : |nearest x| ≤ greatest := by
  have hexp := exponent_le (h.trans bound_lt)
  have hk := abs_roundHalfEven_le (x / 2 ^ exponent x)
  have hhalf := two_zpow_pos 970
  rw [abs_nearest, greatest_eq]
  generalize roundHalfEven (x / 2 ^ exponent x) = k at *
  obtain hlast | hsmall : exponent x = 971 ∨ exponent x ≤ 970 := by omega
  · -- the last digit of the greatest doubles: the bound leaves half of it
    have hdigit : (2 : Rat) ^ (971 : Int) = 2 * 2 ^ (970 : Int) := zpow_one_add₀ two_ne_zero 970
    rw [abs_div_two_zpow, hlast, hdigit] at hk
    have hx : |x| / (2 * 2 ^ (970 : Int)) < 2 ^ 53 - 1 / 2 := by
      rw [div_lt_iff₀ (mul_pos two_pos hhalf)]
      rw [bound_eq] at h
      calc |x| < (2 ^ 54 - 1) * 2 ^ (970 : Int) := h
        _ = (2 ^ 53 - 1 / 2) * (2 * 2 ^ (970 : Int)) := by ring
    have hlt : |k| < 2 ^ 53 := by
      have : |(k : Rat)| < 2 ^ 53 := by linarith
      exact_mod_cast this
    have hle : |(k : Rat)| ≤ 2 ^ 53 - 1 := by
      have : |k| ≤ 2 ^ 53 - 1 := by omega
      exact_mod_cast this
    rw [hlast, hdigit]
    calc |(k : Rat)| * (2 * 2 ^ (970 : Int)) ≤ (2 ^ 53 - 1) * (2 * 2 ^ (970 : Int)) :=
          mul_le_mul_of_nonneg_right hle (mul_pos two_pos hhalf).le
      _ = (2 ^ 54 - 2) * 2 ^ (970 : Int) := by ring
  -- With a smaller exponent the significand may even round up to a power of two.
  · have hlt := abs_div_exponent_lt x
    have hle : |(k : Rat)| ≤ 2 ^ 53 := by
      have hrat : |(k : Rat)| < 2 ^ 53 + 1 := by linarith
      have hint : |k| < 2 ^ 53 + 1 := by exact_mod_cast hrat
      have : |k| ≤ 2 ^ 53 := by omega
      exact_mod_cast this
    calc |(k : Rat)| * 2 ^ exponent x ≤ 2 ^ 53 * 2 ^ (970 : Int) :=
          mul_le_mul hle (zpow_le_zpow_right₀ (by norm_num) hsmall) (two_zpow_pos _).le
            (by norm_num)
      _ ≤ (2 ^ 54 - 2) * 2 ^ (970 : Int) := mul_le_mul_of_nonneg_right (by norm_num) hhalf.le

end Double

/-! ## §3. Operations. -/

namespace FloatValue

/-- The sign of a number, 0 when there is none. -/
def sign : FloatValue → Int
  | .nan => 0
  | .posInf => 1
  | .negInf => -1
  | .finite q => q.num.sign

/-- The infinity of that sign. -/
def infinity (sign : Int) : FloatValue :=
  if 0 < sign then .posInf else if sign < 0 then .negInf else .nan

/-- `x - y`. -/
def sub : FloatValue → FloatValue → FloatValue
  | .nan, _ | _, .nan => .nan
  | .finite p, .finite q => Double.round (p - q)
  | .posInf, .posInf | .negInf, .negInf => .nan
  | .posInf, _ | .finite _, .negInf => .posInf
  | .negInf, _ | .finite _, .posInf => .negInf

/-- `x * y`. -/
def mul : FloatValue → FloatValue → FloatValue
  | .nan, _ | _, .nan => .nan
  | .finite p, .finite q => Double.round (p * q)
  | x, y => infinity (x.sign * y.sign)

/-- `x / y` when `y` is not zero. -/
def div : FloatValue → FloatValue → FloatValue
  | .nan, _ | _, .nan => .nan
  | .finite p, .finite q => Double.round (p / q)
  | .finite _, _ => .finite 0
  | x, .finite q => infinity (x.sign * q.num.sign)
  | _, _ => .nan

/-- `x < y`. -/
def lt : FloatValue → FloatValue → Bool
  | .nan, _ | _, .nan => false
  | .finite p, .finite q => p < q
  | .negInf, .negInf | .posInf, _ | .finite _, .negInf => false
  | .negInf, _ | .finite _, .posInf => true

/-- `-x`. -/
def neg : FloatValue → FloatValue
  | .nan => .nan
  | .posInf => .negInf
  | .negInf => .posInf
  | .finite q => .finite (-q)

/-- A number that is neither infinite nor undefined. -/
def isFinite : FloatValue → Bool
  | .finite _ => true
  | _ => false

theorem isFinite_iff {x : FloatValue} : x.isFinite = true ↔ ∃ q, x = .finite q := by
  cases x <;> simp [isFinite]

/-- A difference is finite when both numbers are, and it is in range. -/
theorem sub_eq_finite_iff {x y : FloatValue} {r : Rat} :
    x.sub y = .finite r ↔ ∃ p q, x = .finite p ∧ y = .finite q ∧ |p - q| < Double.bound
      ∧ Double.nearest (p - q) = r := by
  constructor
  · intro h
    cases x <;> cases y <;> try cases h
    rename_i p q
    have hlt := Double.round_eq_finite_iff.mp ⟨r, h⟩
    exact ⟨p, q, rfl, rfl, hlt, finite.inj ((Double.round_of_lt hlt).symm.trans h)⟩
  · rintro ⟨p, q, rfl, rfl, hlt, rfl⟩
    exact Double.round_of_lt hlt

/-- The value of a double: no finite one is beyond the greatest. -/
def inRange : FloatValue → Bool
  | .finite q => |q| ≤ Double.greatest
  | _ => true

theorem inRange_round (x : Rat) : (Double.round x).inRange = true := by
  unfold Double.round
  split
  · rename_i h
    exact decide_eq_true (Double.abs_nearest_le h)
  · split <;> rfl

theorem inRange_neg (x : FloatValue) : x.neg.inRange = x.inRange := by
  cases x with
  | finite q => simp only [neg, inRange, abs_neg]
  | _ => rfl

end FloatValue

end Hmn.Framework
