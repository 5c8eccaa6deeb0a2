/-
  Hmn.Framework.Decimal — the decimal notation of an integer and `int`.

  Main result: `parseInt_toString` — `int(str(n))` is `n`, as long as the
  digits are not too many.
-/
import Hmn.Framework.Text
import Mathlib.Algebra.Group.Nat.Defs
import Mathlib.Tactic.Common

namespace Hmn.Framework.Text

/-! ## §1. Digits. -/

theorem isDigit_range {c : Char} (h : c.isDigit = true) : 48 ≤ c.toNat ∧ c.toNat < 48 + 10 := by
  simp only [Char.isDigit, Bool.and_eq_true, decide_eq_true_eq, UInt32.le_iff_toNat_le] at h
  exact ⟨h.1, Nat.lt_succ_of_le h.2⟩

theorem isDigit_ascii {c : Char} (h : c.isDigit = true) :
    digitValue c = some (c.toNat - 48) := by
  have hrange := isDigit_range h
  rw [digitValue, decimalZeros, List.find?_cons_of_pos (by simpa using hrange)]
  rfl

theorem digitsValue_ascii {cs : List Char} (h : ∀ c ∈ cs, c.isDigit = true) :
    ∀ acc, digitsValue acc cs = some (Nat.ofDigitChars 10 cs acc) := by
  induction cs with
  | nil => exact fun acc => by simp [digitsValue]
  | cons c cs ih =>
    obtain ⟨hc, hcs⟩ := List.forall_mem_cons.mp h
    have hne : c ≠ '_' := by
      rintro rfl
      cases hc
    intro acc
    rw [digitsValue, isDigit_ascii hc, Option.bind_some, ih hcs, Nat.ofDigitChars_cons]
    · rfl
    · rintro d ds rfl
      exact absurd rfl hne

theorem isNumberSpace_ascii (ascii : Bool) {c : Char} (h : c.isDigit = true) :
    isNumberSpace ascii c = false := by
  have hrange := isDigit_range h
  simp only [isNumberSpace, Bool.or_eq_false_iff, Bool.and_eq_false_iff,
    decide_eq_false_iff_not]
  omega

theorem isNumberSpace_minus (ascii : Bool) : isNumberSpace ascii '-' = false := by
  cases ascii <;> decide

theorem dropWhile_blank (blank : Char → Bool) {cs : List Char} (h : ∀ c ∈ cs, blank c = false) :
    cs.dropWhile blank = cs := by
  cases cs with
  | nil => rfl
  | cons c cs => exact List.dropWhile_cons_of_neg (by simp [h c List.mem_cons_self])

theorem strip_blank (blank : Char → Bool) {cs : List Char} (h : ∀ c ∈ cs, blank c = false) :
    ((cs.dropWhile blank).reverse.dropWhile blank).reverse = cs := by
  rw [dropWhile_blank blank h,
    dropWhile_blank blank (fun c hc => h c (List.mem_reverse.mp hc)), List.reverse_reverse]

theorem filter_underscore {cs : List Char} (h : ∀ c ∈ cs, c.isDigit = true) :
    cs.filter (· ≠ '_') = cs := by
  refine List.filter_eq_self.mpr fun c hc => ?_
  rw [decide_eq_true_iff]
  rintro rfl
  exact absurd (h _ hc) (by decide)

/-! ## §2. `int` of a notation. -/

/-- `int` of decimal digits. -/
theorem parseInt_digits {cs : List Char} (hne : cs ≠ []) (h : ∀ c ∈ cs, c.isDigit = true) :
    parseInt (String.ofList cs)
      = if maxDigits < cs.length then none else some (Nat.ofDigitChars 10 cs 0 : Int) := by
  have hstrip := fun ascii => strip_blank (isNumberSpace ascii)
    fun c hc => isNumberSpace_ascii ascii (h c hc)
  have hplain := filter_underscore h
  obtain ⟨c, cs, rfl⟩ := List.exists_cons_of_ne_nil hne
  obtain ⟨hc, hcs⟩ := List.forall_mem_cons.mp h
  have hminus : c ≠ '-' := by
    rintro rfl
    cases hc
  have hplus : c ≠ '+' := by
    rintro rfl
    cases hc
  simp only [parseInt, String.toList_ofList, hstrip]
  split
  · rename_i heq
    exact absurd (List.cons.inj heq).1 hminus
  · rename_i heq
    exact absurd (List.cons.inj heq).1 hplus
  · dsimp only
    rw [hplain, isDigit_ascii hc, Option.bind_some, digitsValue_ascii hcs, Nat.ofDigitChars_cons,
      Nat.mul_zero, Nat.zero_add]
    split <;> rfl

/-- `int` of decimal digits with a minus sign. -/
theorem parseInt_minus_digits {cs : List Char} (hne : cs ≠ [])
    (h : ∀ c ∈ cs, c.isDigit = true) :
    parseInt (String.ofList ('-' :: cs))
      = if maxDigits < cs.length then none else some (-(Nat.ofDigitChars 10 cs 0 : Int)) := by
  have hstrip := fun ascii => strip_blank (isNumberSpace ascii) (List.forall_mem_cons.mpr
    ⟨isNumberSpace_minus ascii, fun c hc => isNumberSpace_ascii ascii (h c hc)⟩)
  have hplain := filter_underscore h
  obtain ⟨c, cs, rfl⟩ := List.exists_cons_of_ne_nil hne
  obtain ⟨hc, hcs⟩ := List.forall_mem_cons.mp h
  simp only [parseInt, String.toList_ofList, hstrip]
  rw [hplain, isDigit_ascii hc, Option.bind_some, digitsValue_ascii hcs, Nat.ofDigitChars_cons,
    Nat.mul_zero, Nat.zero_add]
  split <;> rfl

/-- The characters of `str(n)`. -/
theorem toString_int (n : Int) : (toString n).toList
    = if n < 0 then '-' :: Nat.toDigits 10 n.natAbs else Nat.toDigits 10 n.natAbs := by
  cases n with
  | ofNat n =>
    rw [if_neg (show ¬ Int.ofNat n < 0 from Int.not_lt.mpr (Int.natCast_nonneg n))]
    exact Nat.toList_repr
  | negSucc n =>
    rw [if_pos (Int.negSucc_lt_zero n)]
    show ("-" ++ Nat.repr (n + 1)).toList = _
    rw [String.toList_append, Nat.toList_repr]
    rfl

/-- **`int(str(n))` is `n`.** -/
theorem parseInt_toString {n : Int} (h : n.natAbs < 10 ^ maxDigits) :
    parseInt (toString n) = some n := by
  have hlen : ¬ maxDigits < (Nat.toDigits 10 n.natAbs).length :=
    Nat.not_lt.mpr ((Nat.length_toDigits_le_iff (by decide) (by decide)).mpr h)
  have hdigits : ∀ c ∈ Nat.toDigits 10 n.natAbs, c.isDigit = true :=
    fun c hc => Nat.isDigit_of_mem_toDigits (by decide) (by decide) hc
  rw [← String.ofList_toList (s := toString n), toString_int]
  by_cases hneg : n < 0
  · rw [if_pos hneg, parseInt_minus_digits Nat.toDigits_ne_nil hdigits, if_neg hlen,
      Nat.ofDigitChars_ten_toDigits, ← Int.eq_neg_natAbs_of_nonpos (Int.le_of_lt hneg)]
  · rw [if_neg hneg, parseInt_digits Nat.toDigits_ne_nil hdigits, if_neg hlen,
      Nat.ofDigitChars_ten_toDigits, Int.natAbs_of_nonneg (Int.not_lt.mp hneg)]

/-- No digit and no sign is a separator. -/
theorem notMem_toString {c : Char} (hdigit : c.isDigit = false) (hminus : c ≠ '-') (n : Int) :
    c ∉ (toString n).toList := by
  have hdigits : c ∉ Nat.toDigits 10 n.natAbs := by
    intro hc
    rw [Nat.isDigit_of_mem_toDigits (by decide) (by decide) hc] at hdigit
    cases hdigit
  rw [toString_int]
  split
  · exact List.not_mem_cons_of_ne_of_not_mem hminus hdigits
  · exact hdigits

end Hmn.Framework.Text
