/-
  Hmn.Store.IsoOrder — stored instants are ordered like the instants.

  SQL compares `isoformat` texts where Python compares datetimes.  From the
  first to the last instant a datetime can hold, the two comparisons agree:
  the fields of the text have fixed widths, the calendar only moves on, and
  `+`, which follows the seconds of a whole second, sorts before `.`.

  Main result: `isoformat_lt_iff`.
-/
import Hmn.Framework.Lexical
import Hmn.Store.Time
import Mathlib.Data.String.Basic
import Mathlib.Order.Monotone.Basic

namespace Hmn.Timestamp

open Framework.Lexical

/-! ## §1. Years. -/

/-- Days before the year number `y`. -/
def daysBeforeYear (y : Nat) : Nat := 365 * y + y / 4 - y / 100 + y / 400

/-- The year number `y` has a 29th of February. -/
def LeapYear (y : Nat) : Prop := (y + 1) % 4 = 0 ∧ ((y + 1) % 100 ≠ 0 ∨ (y + 1) % 400 = 0)

instance (y : Nat) : Decidable (LeapYear y) := by
  unfold LeapYear
  infer_instance

theorem daysBeforeYear_succ (y : Nat) :
    daysBeforeYear (y + 1) = daysBeforeYear y + if LeapYear y then 366 else 365 := by
  have hcount : daysBeforeYear (y + 1) = daysBeforeYear y + 365 + (y + 1) / 4 - y / 4
      - ((y + 1) / 100 - y / 100) + ((y + 1) / 400 - y / 400) := by
    unfold daysBeforeYear
    omega
  by_cases hleap : LeapYear y
  · rw [if_pos hleap, hcount]
    unfold LeapYear at hleap
    omega
  · rw [if_neg hleap, hcount]
    unfold LeapYear at hleap
    omega

theorem daysBeforeYear_strictMono : StrictMono daysBeforeYear :=
  strictMono_nat_of_lt_succ fun y => by
    rw [daysBeforeYear_succ]
    split <;> omega

theorem daysBeforeYear_cycles {a b c d : Nat} (hb : b < 4) (hc : c < 25) (hd : d < 4) :
    daysBeforeYear (a * 400 + b * 100 + c * 4 + d)
      = 146097 * a + 36524 * b + 1461 * c + 365 * d := by
  unfold daysBeforeYear
  omega

theorem leapYear_cycles {a b c d : Nat} (hb : b < 4) (hc : c < 25) (hd : d < 4) :
    LeapYear (a * 400 + b * 100 + c * 4 + d) ↔ d = 3 ∧ (c ≠ 24 ∨ b = 3) := by
  unfold LeapYear
  omega

/-! ## §2. The days of a year. -/

/-- Month and day of a day of the year. -/
def monthDay (leap : Bool) (day : Nat) : Nat × Nat :=
  let month := (day + 50) / 32
  let preceding := daysBeforeMonth month + if month > 2 ∧ leap then 1 else 0
  if preceding > day then (month - 1, day - (preceding - daysInMonth leap (month - 1)) + 1)
  else (month, day - preceding + 1)

theorem monthDay_range : ∀ leap : Bool, ∀ day < 366,
    (monthDay leap day).1 < 100 ∧ (monthDay leap day).2 < 100 := by
  decide +kernel

theorem monthDay_succ : ∀ leap : Bool, ∀ day < if leap then 365 else 364,
    (monthDay leap day).1 * 100 + (monthDay leap day).2
      < (monthDay leap (day + 1)).1 * 100 + (monthDay leap (day + 1)).2 := by
  decide +kernel

/-- A later day of the year has a later month, or a later day of one month. -/
theorem monthDay_lt {leap : Bool} {day later : Nat} (h : day < later)
    (hlater : later < if leap then 366 else 365) :
    (monthDay leap day).1 < (monthDay leap later).1
      ∨ (monthDay leap day).1 = (monthDay leap later).1
        ∧ (monthDay leap day).2 < (monthDay leap later).2 := by
  have hsum : (monthDay leap day).1 * 100 + (monthDay leap day).2
      < (monthDay leap later).1 * 100 + (monthDay leap later).2 := by
    induction later with
    | zero => omega
    | succ later ih =>
      have hstep := monthDay_succ leap later (by cases leap <;> simp at hlater ⊢ <;> omega)
      rcases Nat.lt_or_eq_of_le (Nat.le_of_lt_succ h) with hlt | rfl
      · exact Nat.lt_trans (ih hlt (by omega)) hstep
      · exact hstep
  have hday := monthDay_range leap day (by cases leap <;> simp at hlater <;> omega)
  have hrange := monthDay_range leap later (by cases leap <;> simp at hlater <;> omega)
  omega

/-- **What `civil` computes**: the year that has the day, and the month and
the day of that day of the year. -/
theorem civil_spec (n : Nat) :
    ∃ y day, civil n = (y + 1, monthDay (decide (LeapYear y)) day) ∧ n = daysBeforeYear y + day
      ∧ day < if LeapYear y then 366 else 365 := by
  have hA := Nat.div_add_mod n 146097
  have hB := Nat.div_add_mod (n % 146097) 36524
  have hC := Nat.div_add_mod (n % 146097 % 36524) 1461
  have hD := Nat.div_add_mod (n % 146097 % 36524 % 1461) 365
  have hA' := Nat.mod_lt n (show 146097 > 0 by decide)
  have hB' := Nat.mod_lt (n % 146097) (show 36524 > 0 by decide)
  have hC' := Nat.mod_lt (n % 146097 % 36524) (show 1461 > 0 by decide)
  have hD' := Nat.mod_lt (n % 146097 % 36524 % 1461) (show 365 > 0 by decide)
  simp only [civil]
  generalize n / 146097 = a at *
  generalize n % 146097 / 36524 = b at *
  generalize n % 146097 % 36524 / 1461 = c at *
  generalize n % 146097 % 36524 % 1461 / 365 = d at *
  generalize n % 146097 % 36524 % 1461 % 365 = e at *
  generalize n % 146097 % 36524 % 1461 = C at *
  generalize n % 146097 % 36524 = B at *
  generalize n % 146097 = A at *
  by_cases hlast : d = 4 ∨ b = 4
  · rw [if_pos hlast]
    obtain ⟨b', c', hb, hc, hyear, hday⟩ : ∃ b' c', b' < 4 ∧ c' < 25
        ∧ a * 400 + 1 + b * 100 + c * 4 + d - 1 = a * 400 + b' * 100 + c' * 4 + 3 + 1
        ∧ n = 146097 * a + 36524 * b' + 1461 * c' + 365 * 3 + 365 ∧ (c' ≠ 24 ∨ b' = 3) := by
      by_cases hb : b = 4
      · exact ⟨3, 24, by omega⟩
      · exact ⟨b, c, by omega⟩
    have hleap := (leapYear_cycles (a := a) hb hc (by decide : 3 < 4)).mpr ⟨rfl, hday.2⟩
    refine ⟨a * 400 + b' * 100 + c' * 4 + 3, 365, ?_, ?_, ?_⟩
    · rw [hyear, decide_eq_true hleap]
      rfl
    · rw [daysBeforeYear_cycles hb hc (by decide)]
      exact hday.1
    · rw [if_pos hleap]
      decide
  · rw [if_neg hlast]
    have hb : b < 4 := by omega
    have hc : c < 25 := by omega
    have hd : d < 4 := by omega
    have hleap := leapYear_cycles (a := a) hb hc hd
    refine ⟨a * 400 + b * 100 + c * 4 + d, e, ?_, ?_, ?_⟩
    · have hdec : decide (LeapYear (a * 400 + b * 100 + c * 4 + d))
          = (decide (d = 3) && (decide (c ≠ 24) || decide (b = 3))) := by
        simp [hleap]
      have hyear : a * 400 + 1 + b * 100 + c * 4 + d = a * 400 + b * 100 + c * 4 + d + 1 := by
        omega
      rw [hdec, hyear]
      simp only [monthDay]
      split <;> split <;> rfl
    · rw [daysBeforeYear_cycles hb hc hd]
      omega
    · split <;> omega

/-! ## §3. The fields of the text. -/

/-- The date of the day `n`. -/
def dateText (n : Nat) : List Char :=
  decimal 4 (civil n).1 ++ '-' :: (decimal 2 (civil n).2.1 ++ '-' :: decimal 2 (civil n).2.2)

/-- The time of the second `s` of a day. -/
def timeText (s : Nat) : List Char :=
  decimal 2 (s / 3600) ++ ':' :: (decimal 2 (s / 60 % 60) ++ ':' :: decimal 2 (s % 60))

/-- The microseconds and the offset. -/
def fractionText (us : Nat) : List Char :=
  (if us = 0 then [] else '.' :: decimal 6 us) ++ ['+', '0', '0', ':', '0', '0']

@[simp] theorem length_dateText (n : Nat) : (dateText n).length = 10 := by
  simp [dateText, length_decimal]

@[simp] theorem length_timeText (s : Nat) : (timeText s).length = 8 := by
  simp [timeText, length_decimal]

/-- Two records with one first field are compared by the rest. -/
theorem cons_field_lt (a : List Char) (c : Char) {x y : List Char} (h : x < y) :
    a ++ c :: x < a ++ c :: y := by
  apply List.append_left_lt
  rw [List.cons_lt_cons_iff]
  exact Or.inr ⟨rfl, h⟩

theorem field_lt {width m n : Nat} (h : m < n) (hn : n < 10 ^ width) (x y : List Char) :
    decimal width m ++ x < decimal width n ++ y :=
  append_lt_append (by rw [length_decimal, length_decimal]) (decimal_lt h hn) x y

theorem timeText_lt {s s' : Nat} (h : s < s') (hs : s' < 86400) : timeText s < timeText s' := by
  unfold timeText
  by_cases hhour : s / 3600 < s' / 3600
  · exact field_lt hhour (by omega) _ _
  · have hh : s / 3600 = s' / 3600 := by omega
    rw [hh]
    apply cons_field_lt
    by_cases hminute : s / 60 % 60 < s' / 60 % 60
    · exact field_lt hminute (by omega) _ _
    · have hm : s / 60 % 60 = s' / 60 % 60 := by omega
      rw [hm]
      apply cons_field_lt
      exact decimal_lt (by omega) (by omega)

/-- `+` sorts before `.`, so a whole second comes before its fractions. -/
theorem fractionText_lt {us us' : Nat} (h : us < us') (hus : us' < 10 ^ 6) :
    fractionText us < fractionText us' := by
  unfold fractionText
  rw [if_neg (by omega : us' ≠ 0)]
  by_cases hzero : us = 0
  · rw [if_pos hzero, List.nil_append, List.cons_append, List.cons_lt_cons_iff]
    exact Or.inl (by decide)
  · rw [if_neg hzero, List.cons_append, List.cons_append, List.cons_lt_cons_iff]
    exact Or.inr ⟨rfl, field_lt h hus _ _⟩

/-- The first day after the year 9999. -/
def dayLimit : Nat := 3652059

/-- **A later day has a later date.** -/
theorem dateText_lt {n n' : Nat} (h : n < n') (hn : n' < dayLimit) : dateText n < dateText n' := by
  obtain ⟨y, day, hcivil, hday, hlen⟩ := civil_spec n
  obtain ⟨y', day', hcivil', hday', hlen'⟩ := civil_spec n'
  have hyear : y ≤ y' := by
    by_contra hlt
    have hle := daysBeforeYear_strictMono.monotone (show y' + 1 ≤ y by omega)
    rw [daysBeforeYear_succ] at hle
    omega
  have hlast : y' < 9999 := by
    by_contra hlt
    have hle := daysBeforeYear_strictMono.monotone (show 9999 ≤ y' by omega)
    have hlimit : daysBeforeYear 9999 = dayLimit := by decide
    omega
  unfold dateText
  rw [hcivil, hcivil']
  rcases Nat.lt_or_eq_of_le hyear with hlt | rfl
  · exact field_lt (by omega) (by omega) _ _
  · apply cons_field_lt
    have hrange' : (monthDay (decide (LeapYear y)) day').1 < 100
        ∧ (monthDay (decide (LeapYear y)) day').2 < 100 :=
      monthDay_range _ day' (by split at hlen' <;> omega)
    rcases @monthDay_lt (decide (LeapYear y)) day day' (by omega)
      (by simpa using hlen') with hmonth | ⟨hmonth, hd⟩
    · exact field_lt hmonth hrange'.1 _ _
    · rw [hmonth]
      apply cons_field_lt
      exact decimal_lt hd hrange'.2

/-! ## §4. Stored instants. -/

/-- An instant of the years 1 to 9999, the ones a datetime can hold. -/
def Representable (t : Timestamp) : Prop := 0 ≤ t ∧ t.toNat / 1000000 / 86400 < dayLimit

instance (t : Timestamp) : Decidable t.Representable := by
  unfold Representable
  infer_instance

theorem padded_eq {width n : Nat} (hn : n < 10 ^ width) (hwidth : 0 < width) :
    padded width n = String.ofList (decimal width n) := by
  rw [padded, decimal_eq hn hwidth]

theorem civil_range {n : Nat} (hn : n < dayLimit) :
    (civil n).1 < 10 ^ 4 ∧ (civil n).2.1 < 10 ^ 2 ∧ (civil n).2.2 < 10 ^ 2 := by
  obtain ⟨y, day, hcivil, hday, hlen⟩ := civil_spec n
  have hrange := monthDay_range (decide (LeapYear y)) day (by split at hlen <;> omega)
  have hlast : y < 9999 := by
    by_contra hlt
    have hle := daysBeforeYear_strictMono.monotone (show 9999 ≤ y by omega)
    have hlimit : daysBeforeYear 9999 = dayLimit := by decide
    omega
  rw [hcivil]
  exact ⟨by omega, hrange⟩

/-- The text of an instant, field by field. -/
theorem toList_isoformat {t : Timestamp} (ht : t.Representable) :
    t.isoformat.toList = dateText (t.toNat / 1000000 / 86400)
      ++ 'T' :: (timeText (t.toNat / 1000000 % 86400) ++ fractionText (t.toNat % 1000000)) := by
  obtain ⟨hyear, hmonth, hday⟩ := civil_range ht.2
  have hhour : t.toNat / 1000000 % 86400 / 3600 = t.toNat / 1000000 / 3600 % 24 := by omega
  have hminute : t.toNat / 1000000 % 86400 / 60 % 60 = t.toNat / 1000000 / 60 % 60 := by omega
  have hsecond : t.toNat / 1000000 % 86400 % 60 = t.toNat / 1000000 % 60 := by omega
  simp only [isoformat, dateText, timeText, fractionText, hhour, hminute, hsecond,
    padded_eq hyear (by decide), padded_eq hmonth (by decide), padded_eq hday (by decide),
    padded_eq (show t.toNat / 1000000 / 3600 % 24 < 10 ^ 2 by omega) (by decide),
    padded_eq (show t.toNat / 1000000 / 60 % 60 < 10 ^ 2 by omega) (by decide),
    padded_eq (show t.toNat / 1000000 % 60 < 10 ^ 2 by omega) (by decide),
    padded_eq (show t.toNat % 1000000 < 10 ^ 6 by omega) (by decide)]
  split <;> simp

theorem isoformat_lt {t u : Timestamp} (ht : t.Representable) (hu : u.Representable)
    (h : t < u) : t.isoformat < u.isoformat := by
  have hnat : t.toNat < u.toNat := by
    have h0 := ht.1
    unfold Timestamp at *
    omega
  rw [String.lt_iff_toList_lt, toList_isoformat ht, toList_isoformat hu]
  rcases Nat.lt_or_eq_of_le (show t.toNat / 1000000 / 86400 ≤ u.toNat / 1000000 / 86400 by omega)
    with hdate | hdate
  · exact append_lt_append (by simp) (dateText_lt hdate hu.2) _ _
  · rw [hdate]
    apply cons_field_lt
    rcases Nat.lt_or_eq_of_le (show t.toNat / 1000000 ≤ u.toNat / 1000000 by omega)
      with htime | htime
    · exact append_lt_append (by simp) (timeText_lt (by omega) (Nat.mod_lt _ (by decide))) _ _
    · rw [htime]
      apply List.append_left_lt
      exact fractionText_lt (by omega) (Nat.mod_lt _ (by decide))

/-- **SQL's comparison of stored instants is the comparison of the
instants.** -/
theorem isoformat_lt_iff {t u : Timestamp} (ht : t.Representable) (hu : u.Representable) :
    t.isoformat < u.isoformat ↔ t < u := by
  constructor
  · intro h
    by_contra hle
    rcases lt_or_eq_of_le (not_lt.mp hle) with hlt | rfl
    · exact lt_asymm h (isoformat_lt hu ht hlt)
    · exact lt_irrefl _ h
  · exact isoformat_lt ht hu

end Hmn.Timestamp
