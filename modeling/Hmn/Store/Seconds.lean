/-
  Hmn.Store.Seconds — a number of seconds read off a floating point number.

  `total_seconds()` is a double, and so is an age before it is cut to whole
  seconds.  A double of a count of microseconds is off by far less than a
  microsecond as long as whole seconds are what it is compared with.

  Main results: `nearestDouble_near` (the error of rounding), and
  `wholeSeconds_le_iff` — an age is within `n` whole seconds as long as
  `n + 1` seconds have not passed.
-/
import Hmn.Store.Time
import Mathlib.Algebra.Order.Field.Rat
import Mathlib.Tactic.FieldSimp
import Mathlib.Tactic.Linarith
import Mathlib.Tactic.NormNum
import Mathlib.Tactic.Ring

namespace Hmn.Timestamp

/-! ## §1. Rounding. -/

theorem roundHalfEven_near (x : Rat) :
    (roundHalfEven x : Rat) ≤ x + 1 / 2 ∧ x - 1 / 2 ≤ roundHalfEven x := by
  have hle := Rat.floor_le x
  have hlt := Rat.lt_floor_add_one x
  rw [Rat.intCast_add] at hlt
  simp only [roundHalfEven]
  split
  · rename_i h
    have hhalf : x - x.floor ≤ 1 / 2 := h.elim le_of_lt (fun h => h.1.le)
    constructor <;> linarith
  · rename_i h
    have hhalf : 1 / 2 ≤ x - x.floor := not_lt.mp (fun hx => h (Or.inl hx))
    push_cast at *
    constructor <;> linarith

theorem roundHalfEven_intCast (n : Int) : roundHalfEven n = n := by
  simp [roundHalfEven, Rat.floor_intCast]

/-- The exponent of the last binary digit of the double. -/
def lastDigit (x : Rat) : Int :=
  let guess : Int := Nat.log2 x.num.toNat - Nat.log2 x.den - 53
  if x / 2 ^ guess < 2 ^ (53 : Int) then guess else guess + 1

theorem nearestDouble_eq (x : Rat) :
    nearestDouble x = roundHalfEven (x / 2 ^ lastDigit x) * 2 ^ lastDigit x := rfl

theorem two_zpow_add (m n : Int) : (2 : Rat) ^ (m + n) = 2 ^ m * 2 ^ n :=
  Rat.zpow_add (by decide) m n

theorem two_zpow_pos (n : Int) : (0 : Rat) < 2 ^ n := Rat.zpow_pos (by decide)

/-- A number has at least the power of two that its numerator and its
denominator give it. -/
theorem two_zpow_le {x : Rat} (hx : 0 < x) :
    (2 : Rat) ^ ((Nat.log2 x.num.toNat : Int) - Nat.log2 x.den - 1) ≤ x := by
  have hnum : 0 < x.num := Rat.num_pos.mpr hx
  have hupper : x.den ≤ 2 ^ (x.den.log2 + 1) := Nat.lt_log2_self.le
  have hlower : 2 ^ x.num.toNat.log2 ≤ x.num.toNat := Nat.log2_self_le (by omega)
  have hden : (x.den : Rat) ≤ 2 ^ ((x.den.log2 : Int) + 1) := by
    rw [two_zpow_add, Rat.zpow_natCast, Rat.zpow_one, ← pow_succ]
    exact_mod_cast hupper
  have hnumer : (2 : Rat) ^ (x.num.toNat.log2 : Int) ≤ x.num := by
    rw [Rat.zpow_natCast]
    have hcast : ((x.num.toNat : Int) : Rat) = x.num := by rw [Int.toNat_of_nonneg hnum.le]
    rw [← hcast]
    exact_mod_cast hlower
  have hsplit : (2 : Rat) ^ ((Nat.log2 x.num.toNat : Int) - Nat.log2 x.den - 1)
      * 2 ^ ((x.den.log2 : Int) + 1) = 2 ^ (x.num.toNat.log2 : Int) := by
    rw [← two_zpow_add]
    congr 1
    omega
  have hpos : (0 : Rat) < x.den := by exact_mod_cast x.den_pos
  have hvalue : x * x.den = x.num := Rat.mul_den_eq_num x
  refine le_of_mul_le_mul_right ?_ hpos
  calc (2 : Rat) ^ ((Nat.log2 x.num.toNat : Int) - Nat.log2 x.den - 1) * x.den
      ≤ 2 ^ ((Nat.log2 x.num.toNat : Int) - Nat.log2 x.den - 1) * 2 ^ ((x.den.log2 : Int) + 1) :=
        mul_le_mul_of_nonneg_left hden (two_zpow_pos _).le
    _ = 2 ^ (x.num.toNat.log2 : Int) := hsplit
    _ ≤ x.num := hnumer
    _ = x * x.den := hvalue.symm

/-- A double has 53 binary digits. -/
theorem le_of_lastDigit {x : Rat} (hx : 0 < x) :
    (2 : Rat) ^ (52 : Int) * 2 ^ lastDigit x ≤ x := by
  simp only [lastDigit]
  generalize hguess : (Nat.log2 x.num.toNat : Int) - Nat.log2 x.den - 53 = guess
  have hbound := two_zpow_le hx
  split
  · have hexponent : 52 + guess = (Nat.log2 x.num.toNat : Int) - Nat.log2 x.den - 1 := by omega
    rw [← two_zpow_add, hexponent]
    exact hbound
  · rename_i h
    have hexponent : 52 + (guess + 1) = 53 + guess := by omega
    rw [← two_zpow_add, hexponent, two_zpow_add]
    exact (le_div_iff₀ (two_zpow_pos guess)).mp (not_lt.mp h)

/-- **The error of rounding to a double.** -/
theorem nearestDouble_near {x : Rat} (hx : 0 < x) :
    nearestDouble x ≤ x + x / 2 ^ 53 ∧ x - x / 2 ^ 53 ≤ nearestDouble x := by
  have hdigit := le_of_lastDigit hx
  have hpos := two_zpow_pos (lastDigit x)
  obtain ⟨hle, hge⟩ := roundHalfEven_near (x / 2 ^ lastDigit x)
  have hcancel : x / 2 ^ lastDigit x * 2 ^ lastDigit x = x := div_mul_cancel₀ x hpos.ne'
  have hpow : (2 : Rat) ^ (52 : Int) = 2 ^ 52 := Rat.zpow_natCast 2 52
  rw [nearestDouble_eq]
  generalize (2 : Rat) ^ lastDigit x = p at *
  rw [hpow] at hdigit
  have hhalf : p / 2 ≤ x / 2 ^ 53 := by
    rw [le_div_iff₀ (by norm_num)]
    linarith
  have hupper := mul_le_mul_of_nonneg_right hle hpos.le
  have hlower := mul_le_mul_of_nonneg_right hge hpos.le
  rw [add_mul, hcancel] at hupper
  rw [sub_mul, hcancel] at hlower
  constructor <;> linarith

/-- A whole number of at most 53 binary digits is a double. -/
theorem nearestDouble_natCast {n : Nat} (h0 : 0 < n) (hn : n < 2 ^ 53) :
    nearestDouble n = n := by
  have hx : (0 : Rat) < n := by exact_mod_cast h0
  have hdigit := le_of_lastDigit hx
  have hnonpos : lastDigit n ≤ 0 := by
    by_contra hlt
    have hone : (2 : Rat) ≤ 2 ^ lastDigit n := by
      obtain ⟨k, hk⟩ := Int.eq_ofNat_of_zero_le (show 0 ≤ lastDigit n - 1 by omega)
      have hsucc : lastDigit n = 1 + (k : Int) := by omega
      have hk1 : (1 : Rat) ≤ 2 ^ k := one_le_pow₀ (by norm_num)
      rw [hsucc, two_zpow_add, Rat.zpow_one, Rat.zpow_natCast]
      linarith
    have hpow : (2 : Rat) ^ (52 : Int) = 2 ^ 52 := Rat.zpow_natCast 2 52
    have hlarge : (2 : Rat) ^ 53 ≤ n := by
      rw [hpow] at hdigit
      nlinarith
    exact absurd hlarge (not_le.mpr (by exact_mod_cast hn))
  obtain ⟨k, hk⟩ := Int.eq_ofNat_of_zero_le (show 0 ≤ -lastDigit n by omega)
  have hneg : lastDigit n = -(k : Int) := by omega
  have hint : (n : Rat) / 2 ^ lastDigit n = ((n * 2 ^ k : Nat) : Int) := by
    rw [hneg, Rat.zpow_neg, Rat.zpow_natCast, div_inv_eq_mul]
    push_cast
    rfl
  rw [nearestDouble_eq, hint, roundHalfEven_intCast, ← hint]
  exact div_mul_cancel₀ _ (two_zpow_pos _).ne'

/-! ## §2. Ages in whole seconds. -/

/-- `int(x)`: the part before the point. -/
def truncate (x : Rat) : Int := if x < 0 then -(-x).floor else x.floor

/-- `int(delta.total_seconds())`. -/
def wholeSeconds (delta : Int) : Int := truncate (totalSeconds delta)

theorem nearestDouble_zero : nearestDouble 0 = 0 := by
  have hround : roundHalfEven 0 = 0 := roundHalfEven_intCast 0
  rw [nearestDouble_eq, zero_div, hround, Int.cast_zero, zero_mul]

theorem truncate_nonpos {x : Rat} (h : x ≤ 0) : truncate x ≤ 0 := by
  rcases lt_or_eq_of_le h with hneg | rfl
  · have hfloor : (0 : Int) ≤ (-x).floor := by
      rw [Rat.le_floor_iff]
      push_cast
      linarith
    rw [truncate, if_pos hneg]
    omega
  · decide

theorem wholeSeconds_nonpos {delta : Int} (h : delta ≤ 0) : wholeSeconds delta ≤ 0 := by
  apply truncate_nonpos
  rcases lt_or_eq_of_le h with hneg | rfl
  · have hx : (0 : Rat) < -delta / 1000000 := by
      have hcast : (delta : Rat) < 0 := by exact_mod_cast hneg
      rw [lt_div_iff₀ (by norm_num)]
      linarith
    have hnear := (nearestDouble_near hx).2
    rw [totalSeconds, if_pos hneg]
    linarith
  · rw [totalSeconds, if_neg (lt_irrefl _), Int.cast_zero, zero_div, nearestDouble_zero]

theorem wholeSeconds_of_pos {delta : Int} (h : 0 < delta) :
    wholeSeconds delta = (nearestDouble (delta / 1000000)).floor := by
  have hx : (0 : Rat) < (delta : Rat) / 1000000 := by
    have hcast : (0 : Rat) < delta := by exact_mod_cast h
    rw [lt_div_iff₀ (by norm_num)]
    linarith
  have hnear := (nearestDouble_near hx).2
  have hnonneg : ¬ totalSeconds delta < 0 := by
    rw [totalSeconds, if_neg (by omega)]
    linarith
  rw [wholeSeconds, truncate, if_neg hnonneg, totalSeconds, if_neg (by omega)]

/-- **An age is within `n` whole seconds** as long as `n + 1` seconds have
not passed. -/
theorem wholeSeconds_le_iff {delta : Int} {n : Nat} (hn : n < 2 ^ 20) :
    wholeSeconds delta ≤ n ↔ delta < seconds (n + 1) := by
  rcases le_or_gt delta 0 with hle | hpos
  · have h0 := wholeSeconds_nonpos hle
    unfold seconds
    constructor <;> intro _ <;> omega
  · have hx : (0 : Rat) < (delta : Rat) / 1000000 := by
      have hcast : (0 : Rat) < delta := by exact_mod_cast hpos
      rw [lt_div_iff₀ (by norm_num)]
      linarith
    obtain ⟨hupper, hlower⟩ := nearestDouble_near hx
    have hlimit : ((n : Rat) + 1) ≤ 2 ^ 20 := by exact_mod_cast hn
    rw [wholeSeconds_of_pos hpos, ← Int.lt_add_one_iff, Rat.floor_lt_iff, seconds]
    push_cast
    constructor
    · intro hfloor
      by_contra hlate
      rcases lt_or_eq_of_le (not_lt.mp hlate) with hlt | heq
      · have hmicro : ((n : Rat) + 1) * 1000000 + 1 ≤ delta := by exact_mod_cast hlt
        have hage : (n : Rat) + 1 + 1 / 1000000 ≤ delta / 1000000 := by
          rw [le_div_iff₀ (by norm_num)]
          linarith
        have herror : ((n : Rat) + 1) ≤ delta / 1000000 - delta / 1000000 / 2 ^ 53 := by
          norm_num at hlimit ⊢
          linarith
        linarith
      · have hexact : (delta : Rat) / 1000000 = ((n + 1 : Nat) : Rat) := by
          rw [div_eq_iff (by norm_num)]
          push_cast
          exact_mod_cast heq.symm
        rw [hexact, nearestDouble_natCast (by omega) (by omega)] at hfloor
        push_cast at hfloor
        exact lt_irrefl _ hfloor
    · intro hlt
      have hmicro : (delta : Rat) + 1 ≤ ((n : Rat) + 1) * 1000000 := by exact_mod_cast hlt
      have hage : (delta : Rat) / 1000000 ≤ (n : Rat) + 1 - 1 / 1000000 := by
        rw [div_le_iff₀ (by norm_num)]
        linarith
      have herror : (delta : Rat) / 1000000 / 2 ^ 53 < 1 / 1000000 := by
        norm_num at hlimit ⊢
        linarith
      linarith

end Hmn.Timestamp
