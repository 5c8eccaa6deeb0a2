/-
  Hmn.Store.Time — UTC instants and the text they are stored as.

  A `Timestamp` counts microseconds from 0001-01-01T00:00:00 UTC, the first
  instant a datetime can hold.  `isoformat` is the text that reaches the
  database: the microsecond part is printed only when it is not zero.

  The database compares these texts where the operations compare instants.
  The two orders agree: the fields have fixed widths, and `+`, which follows
  the seconds of a whole second, sorts before `.`.
-/
import Mathlib.Data.Int.Order.Basic
import Mathlib.Tactic.Common

namespace Hmn

/-- A UTC datetime, in microseconds. -/
abbrev Timestamp := Int

/-- The order of the integers, whatever else is imported. -/
instance : Preorder Timestamp := Int.instLinearOrder.toPreorder

/-- `timedelta(seconds=n)`. -/
def seconds (n : Int) : Int := n * 1000000

namespace Timestamp

/-! ## §1. The calendar. -/

/-- Days before each month of a common year. -/
def daysBeforeMonth : Nat → Nat
  | 1 => 0 | 2 => 31 | 3 => 59 | 4 => 90 | 5 => 120 | 6 => 151
  | 7 => 181 | 8 => 212 | 9 => 243 | 10 => 273 | 11 => 304 | _ => 334

def daysInMonth (leap : Bool) : Nat → Nat
  | 2 => if leap then 29 else 28
  | 4 | 6 | 9 | 11 => 30
  | _ => 31

/-- Year, month and day of the day `n` days after 0001-01-01. -/
def civil (n : Nat) : Nat × Nat × Nat :=
  let n400 := n / 146097
  let n := n % 146097
  let n100 := n / 36524
  let n := n % 36524
  let n4 := n / 1461
  let n := n % 1461
  let n1 := n / 365
  let n := n % 365
  let year := n400 * 400 + 1 + n100 * 100 + n4 * 4 + n1
  if n1 = 4 ∨ n100 = 4 then (year - 1, 12, 31)
  else
    let leap := decide (n1 = 3) && (decide (n4 ≠ 24) || decide (n100 = 3))
    let month := (n + 50) / 32
    let preceding := daysBeforeMonth month + if month > 2 ∧ leap then 1 else 0
    if preceding > n then
      let month := month - 1
      (year, month, n - (preceding - daysInMonth leap month) + 1)
    else (year, month, n - preceding + 1)

/-! ## §2. The stored text. -/

/-- `n` in decimal, padded with zeros to `width` digits. -/
def padded (width n : Nat) : String :=
  let digits := (Nat.toDigits 10 n)
  String.ofList (List.replicate (width - digits.length) '0' ++ digits)

/-- `value.isoformat()` of a UTC datetime. -/
def isoformat (t : Timestamp) : String :=
  let us := t.toNat
  let secs := us / 1000000
  let (year, month, day) := civil (secs / 86400)
  let fraction := if us % 1000000 = 0 then "" else "." ++ padded 6 (us % 1000000)
  padded 4 year ++ "-" ++ padded 2 month ++ "-" ++ padded 2 day ++ "T"
    ++ padded 2 (secs / 3600 % 24) ++ ":" ++ padded 2 (secs / 60 % 60) ++ ":"
    ++ padded 2 (secs % 60) ++ fraction ++ "+00:00"

/-! ## §3. Durations. -/

/-- The integer nearest to `x`, the even one of two. -/
def roundHalfEven (x : Rat) : Int :=
  let below := x.floor
  if x - below < 1 / 2 ∨ (x - below = 1 / 2 ∧ below % 2 = 0) then below else below + 1

/-- The double nearest to a positive number: 53 binary digits. -/
def nearestDouble (x : Rat) : Rat :=
  let guess : Int := Nat.log2 x.num.toNat - Nat.log2 x.den - 53
  let e := if x / 2 ^ guess < 2 ^ (53 : Int) then guess else guess + 1
  roundHalfEven (x / 2 ^ e) * 2 ^ e

/-- `delta.total_seconds()`, in floating point. -/
def totalSeconds (delta : Int) : Rat :=
  if delta < 0 then -nearestDouble (-delta / 1000000) else nearestDouble (delta / 1000000)

/-- `max(0, int(delta.total_seconds() * 1000))`, in floating point. -/
def totalMillis (delta : Int) : Int :=
  if delta ≤ 0 then 0 else (nearestDouble (totalSeconds delta * 1000)).floor

end Timestamp

end Hmn
