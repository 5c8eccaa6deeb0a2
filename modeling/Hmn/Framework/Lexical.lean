/-
  Hmn.Framework.Lexical — texts compared character by character.

  Numbers written in decimal with a fixed number of digits are ordered like
  the texts, and so are records whose fields all have a fixed width.  The
  text of an integer determines it.

  Main results: `append_lt_append`, `decimal_lt` and `toString_int_inj`.
-/
import Mathlib.Algebra.Group.Nat.Defs
import Mathlib.Data.List.Basic
import Mathlib.Tactic.Common

namespace Hmn.Framework.Lexical

/-! ## §1. Records of fixed width. -/

/-- The first field of two records that differs decides. -/
theorem append_lt_append {α : Type} [LT α] {a b : List α} (hlen : a.length = b.length) (h : a < b)
    (x y : List α) : a ++ x < b ++ y := by
  induction a generalizing b with
  | nil =>
    obtain rfl := List.length_eq_zero_iff.mp hlen.symm
    exact absurd h (List.not_lt_nil _)
  | cons c a ih =>
    cases b with
    | nil => cases hlen
    | cons d b =>
      rw [List.cons_append, List.cons_append, List.cons_lt_cons_iff]
      rcases List.cons_lt_cons_iff.mp h with hcd | ⟨rfl, hab⟩
      · exact Or.inl hcd
      · exact Or.inr ⟨rfl, ih (Nat.succ.inj hlen) hab⟩

/-! ## §2. Decimals. -/

/-- The last `width` decimal digits of a number. -/
def decimal : Nat → Nat → List Char
  | 0, _ => []
  | width + 1, n => decimal width (n / 10) ++ [Nat.digitChar (n % 10)]

theorem length_decimal (width n : Nat) : (decimal width n).length = width := by
  induction width generalizing n with
  | zero => rfl
  | succ width ih => simp [decimal, ih]

theorem digitChar_lt : ∀ m < 10, ∀ n < 10, m < n → Nat.digitChar m < Nat.digitChar n := by
  decide

/-- **Numbers of one width are ordered like their texts.** -/
theorem decimal_lt {width m n : Nat} (h : m < n) (hn : n < 10 ^ width) :
    decimal width m < decimal width n := by
  induction width generalizing m n with
  | zero => omega
  | succ width ih =>
    have hhigh : n / 10 < 10 ^ width := by
      rw [Nat.div_lt_iff_lt_mul (by decide)]
      rwa [Nat.pow_succ] at hn
    rw [decimal, decimal]
    rcases Nat.lt_or_eq_of_le (Nat.div_le_div_right (c := 10) (Nat.le_of_lt h)) with hlt | heq
    · exact append_lt_append (by rw [length_decimal, length_decimal]) (ih hlt hhigh) _ _
    · rw [heq]
      apply List.append_left_lt
      rw [List.cons_lt_cons_iff]
      exact Or.inl (digitChar_lt _ (Nat.mod_lt _ (by decide)) _ (Nat.mod_lt _ (by decide)) (by omega))

theorem decimal_zero (width : Nat) : decimal width 0 = List.replicate width '0' := by
  induction width with
  | zero => rfl
  | succ width ih =>
    rw [decimal, Nat.zero_div, ih, List.replicate_succ']
    rfl

/-- The digits of a number, padded with zeros, are its decimal of that
width. -/
theorem decimal_eq {width n : Nat} (hn : n < 10 ^ width) (hwidth : 0 < width) :
    decimal width n = List.replicate (width - (Nat.toDigits 10 n).length) '0' ++ Nat.toDigits 10 n := by
  induction width generalizing n with
  | zero => omega
  | succ width ih =>
    rw [decimal]
    by_cases hsmall : n < 10
    · rw [Nat.toDigits_of_lt_base hsmall, Nat.div_eq_of_lt hsmall, Nat.mod_eq_of_lt hsmall,
        decimal_zero]
      rfl
    · have hhigh : n / 10 < 10 ^ width := by
        rw [Nat.div_lt_iff_lt_mul (by decide)]
        rwa [Nat.pow_succ] at hn
      have hpos : 0 < width := by
        rcases Nat.eq_zero_or_pos width with rfl | h
        · exact absurd hn hsmall
        · exact h
      have hdigits : Nat.toDigits 10 n = Nat.toDigits 10 (n / 10) ++ [Nat.digitChar (n % 10)] :=
        Nat.toDigits_of_base_le (by decide) (by omega)
      rw [ih hhigh hpos, hdigits, List.length_append, List.length_singleton,
        Nat.add_sub_add_right, List.append_assoc]

/-! ## §3. Texts of integers. -/

/-- The text of a natural number determines it. -/
theorem repr_nat_inj {m n : Nat} (h : m.repr = n.repr) : m = n := by
  have hdigits : Nat.toDigits 10 m = Nat.toDigits 10 n := by
    rw [← Nat.toList_repr, ← Nat.toList_repr, h]
  rw [← Nat.ofDigitChars_ten_toDigits (n := m), hdigits, Nat.ofDigitChars_ten_toDigits]

theorem minus_not_repr (s : String) (n : Nat) : "-" ++ s ≠ n.repr := by
  intro h
  have hmem : '-' ∈ Nat.toDigits 10 n := by
    rw [← Nat.toList_repr, ← h, String.toList_append]
    exact List.mem_append_left _ (by decide)
  have hdigit := Nat.isDigit_of_mem_toDigits (by decide) (by decide) hmem
  revert hdigit
  decide

/-- The text of an integer determines it. -/
theorem toString_int_inj {p q : Int} : toString p = toString q ↔ p = q := by
  refine ⟨fun h => ?_, fun h => by rw [h]⟩
  rw [Int.toString_eq_repr, Int.toString_eq_repr, Int.repr_eq_if, Int.repr_eq_if] at h
  split at h <;> split at h
  · have := repr_nat_inj h
    omega
  · exact absurd h.symm (minus_not_repr _ _)
  · exact absurd h (minus_not_repr _ _)
  · have := repr_nat_inj ((String.append_right_inj _).mp h)
    omega

end Hmn.Framework.Lexical
