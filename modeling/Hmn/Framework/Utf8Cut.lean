/-
  Hmn.Framework.Utf8Cut — UTF-8 cut anywhere, read without errors.

  Bytes that are cut behind a whole number of characters or within one are
  read by the decoder that passes over what it cannot read: the characters
  that are whole stay, the bytes of the broken one are dropped.

  Main results: `decodeUtf8Ignore_utf8Bytes`, `decodeUtf8Ignore_take`.
-/
import Hmn.Framework.Codec

namespace Hmn.Framework.Codec

open Sha256

/-- The characters of bytes with what is no character left out.  The
arguments are those of `decodeUtf8`; a byte that does not go on with the
character begun drops it and is read as a first byte. -/
def decodeUtf8Ignore (need acc low : Nat) : List Nat → List Char
  | [] => []
  | b :: bs =>
    if 0x80 ≤ b && b < 0xc0 then
      match need with
      | 0 => decodeUtf8Ignore 0 0 0 bs
      | need + 1 =>
        let n := acc * 64 + (b - 0x80)
        if need = 0 then
          if low ≤ n ∧ n.isValidChar then Char.ofNat n :: decodeUtf8Ignore 0 0 0 bs
          else decodeUtf8Ignore 0 0 0 bs
        else decodeUtf8Ignore need n low bs
    else if b < 0x80 then Char.ofNat b :: decodeUtf8Ignore 0 0 0 bs
    else if 0xc2 ≤ b && b < 0xe0 then decodeUtf8Ignore 1 (b - 0xc0) 0x80 bs
    else if 0xe0 ≤ b && b < 0xf0 then decodeUtf8Ignore 2 (b - 0xe0) 0x800 bs
    else if 0xf0 ≤ b && b < 0xf5 then decodeUtf8Ignore 3 (b - 0xf0) 0x10000 bs
    else decodeUtf8Ignore 0 0 0 bs

/-- `bytes.decode("utf-8", errors="ignore")`. -/
def decodeIgnore (bytes : List Nat) : String := String.ofList (decodeUtf8Ignore 0 0 0 bytes)

/-! ## §1. What a byte does. -/

/-- A first byte of one character. -/
theorem ignore_one {need acc low b : Nat} {bs : List Nat} (h : b < 0x80) :
    decodeUtf8Ignore need acc low (b :: bs) = Char.ofNat b :: decodeUtf8Ignore 0 0 0 bs := by
  rw [decodeUtf8Ignore.eq_def]
  dsimp only
  rw [if_neg (by simp only [Bool.and_eq_true, decide_eq_true_eq]; omega), if_pos h]

/-- A first byte of two. -/
theorem ignore_two {need acc low n : Nat} {bs : List Nat} (h : 2 ≤ n) (h' : n < 32) :
    decodeUtf8Ignore need acc low ((192 + n) :: bs) = decodeUtf8Ignore 1 n 0x80 bs := by
  rw [decodeUtf8Ignore.eq_def]
  dsimp only
  rw [if_neg (by simp only [Bool.and_eq_true, decide_eq_true_eq]; omega),
    if_neg (by omega), if_pos (by simp only [Bool.and_eq_true, decide_eq_true_eq]; omega),
    Nat.add_sub_cancel_left]

/-- A first byte of three. -/
theorem ignore_three {need acc low n : Nat} {bs : List Nat} (h : n < 16) :
    decodeUtf8Ignore need acc low ((224 + n) :: bs) = decodeUtf8Ignore 2 n 0x800 bs := by
  rw [decodeUtf8Ignore.eq_def]
  dsimp only
  rw [if_neg (by simp only [Bool.and_eq_true, decide_eq_true_eq]; omega),
    if_neg (by omega), if_neg (by simp only [Bool.and_eq_true, decide_eq_true_eq]; omega),
    if_pos (by simp only [Bool.and_eq_true, decide_eq_true_eq]; omega), Nat.add_sub_cancel_left]

/-- A first byte of four. -/
theorem ignore_four {need acc low n : Nat} {bs : List Nat} (h : n < 5) :
    decodeUtf8Ignore need acc low ((240 + n) :: bs) = decodeUtf8Ignore 3 n 0x10000 bs := by
  rw [decodeUtf8Ignore.eq_def]
  dsimp only
  rw [if_neg (by simp only [Bool.and_eq_true, decide_eq_true_eq]; omega),
    if_neg (by omega), if_neg (by simp only [Bool.and_eq_true, decide_eq_true_eq]; omega),
    if_neg (by simp only [Bool.and_eq_true, decide_eq_true_eq]; omega),
    if_pos (by simp only [Bool.and_eq_true, decide_eq_true_eq]; omega), Nat.add_sub_cancel_left]

/-- A byte in the middle of a character. -/
theorem ignore_tail {need acc low n : Nat} {bs : List Nat} (hn : n < 64) (hneed : need ≠ 0) :
    decodeUtf8Ignore (need + 1) acc low ((128 + n) :: bs)
      = decodeUtf8Ignore need (acc * 64 + n) low bs := by
  rw [decodeUtf8Ignore, if_pos (by simp only [Bool.and_eq_true, decide_eq_true_eq]; omega)]
  dsimp only
  rw [if_neg hneed, Nat.add_sub_cancel_left]

/-- The last byte of a character. -/
theorem ignore_last {acc low n : Nat} {c : Char} {bs : List Nat} (hn : n < 64)
    (hc : acc * 64 + n = c.toNat) (hlow : low ≤ c.toNat) :
    decodeUtf8Ignore 1 acc low ((128 + n) :: bs) = c :: decodeUtf8Ignore 0 0 0 bs := by
  have hvalid : c.toNat.isValidChar := c.valid
  rw [decodeUtf8Ignore, if_pos (by simp only [Bool.and_eq_true, decide_eq_true_eq]; omega)]
  dsimp only
  rw [if_pos rfl, Nat.add_sub_cancel_left, hc, if_pos ⟨hlow, hvalid⟩, Char.ofNat_toNat]

/-! ## §2. A whole character and a part of one. -/

/-- A character takes as many bytes as Lean says. -/
theorem length_utf8Bytes (c : Char) : (utf8Bytes c).length = c.utf8Size := by
  rw [utf8Bytes_eq, Char.utf8Size]
  have hval : c.val.toNat = c.toNat := rfl
  simp only [UInt32.le_iff_toNat_le, hval]
  split_ifs with h1 h2 h3 h4 h5 h6 <;> simp_all <;> omega

/-- The bytes of a character are read as this character. -/
theorem decodeUtf8Ignore_utf8Bytes (c : Char) (bs : List Nat) :
    decodeUtf8Ignore 0 0 0 (utf8Bytes c ++ bs) = c :: decodeUtf8Ignore 0 0 0 bs := by
  have hmax := toNat_lt c
  have hmod := fun n : Nat => Nat.mod_lt n (show 0 < 64 by decide)
  rw [utf8Bytes_eq]
  split_ifs with h1 h2 h3
  · rw [List.cons_append, List.nil_append, ignore_one h1, Char.ofNat_toNat]
  · rw [List.cons_append, List.cons_append, List.nil_append, ignore_two (by omega) (by omega),
      ignore_last (c := c) (hmod _) (by omega) (by omega)]
  · simp only [List.cons_append, List.nil_append]
    rw [ignore_three (by omega), ignore_tail (hmod _) (by decide),
      ignore_last (c := c) (hmod _) (by omega) (by omega)]
  · simp only [List.cons_append, List.nil_append]
    rw [ignore_four (by omega), ignore_tail (hmod _) (by decide), ignore_tail (hmod _) (by decide),
      ignore_last (c := c) (hmod _) (by omega) (by omega)]

/-- Fewer bytes than a character has are read as nothing. -/
theorem decodeUtf8Ignore_part {c : Char} {room : Nat} (h : room < c.utf8Size) :
    decodeUtf8Ignore 0 0 0 ((utf8Bytes c).take room) = [] := by
  have hmax := toNat_lt c
  have hmod := fun n : Nat => Nat.mod_lt n (show 0 < 64 by decide)
  rw [← length_utf8Bytes] at h
  rw [utf8Bytes_eq] at h ⊢
  split_ifs at h ⊢ with h1 h2 h3
  all_goals simp only [List.length_cons, List.length_nil] at h
  · have hroom : room = 0 := by omega
    rw [hroom, List.take_zero, decodeUtf8Ignore]
  · obtain rfl | rfl : room = 0 ∨ room = 1 := by omega
    · rw [List.take_zero, decodeUtf8Ignore]
    · rw [List.take_succ_cons, List.take_zero, ignore_two (by omega) (by omega), decodeUtf8Ignore]
  · obtain rfl | rfl | rfl : room = 0 ∨ room = 1 ∨ room = 2 := by omega
    · rw [List.take_zero, decodeUtf8Ignore]
    · rw [List.take_succ_cons, List.take_zero, ignore_three (by omega), decodeUtf8Ignore]
    · rw [List.take_succ_cons, List.take_succ_cons, List.take_zero, ignore_three (by omega),
        ignore_tail (hmod _) (by decide), decodeUtf8Ignore]
  · obtain rfl | rfl | rfl | rfl : room = 0 ∨ room = 1 ∨ room = 2 ∨ room = 3 := by omega
    · rw [List.take_zero, decodeUtf8Ignore]
    · rw [List.take_succ_cons, List.take_zero, ignore_four (by omega), decodeUtf8Ignore]
    · rw [List.take_succ_cons, List.take_succ_cons, List.take_zero, ignore_four (by omega),
        ignore_tail (hmod _) (by decide), decodeUtf8Ignore]
    · rw [List.take_succ_cons, List.take_succ_cons, List.take_succ_cons, List.take_zero,
        ignore_four (by omega), ignore_tail (hmod _) (by decide),
        ignore_tail (hmod _) (by decide), decodeUtf8Ignore]

/-! ## §3. A text cut at any byte. -/

/-- Where the first character fits it is kept and the rest cut. -/
theorem decodeUtf8Ignore_take_fits {c : Char} {room : Nat} (h : c.utf8Size ≤ room)
    (cs : List Char) :
    decodeUtf8Ignore 0 0 0 (((c :: cs).flatMap utf8Bytes).take room)
      = c :: decodeUtf8Ignore 0 0 0 ((cs.flatMap utf8Bytes).take (room - c.utf8Size)) := by
  rw [List.flatMap_cons, List.take_append, length_utf8Bytes,
    List.take_of_length_le (by rw [length_utf8Bytes]; exact h), decodeUtf8Ignore_utf8Bytes]

/-- Where it does not, nothing is. -/
theorem decodeUtf8Ignore_take_broken {c : Char} {room : Nat} (h : room < c.utf8Size)
    (cs : List Char) :
    decodeUtf8Ignore 0 0 0 (((c :: cs).flatMap utf8Bytes).take room) = [] := by
  rw [List.flatMap_cons, List.take_append_of_le_length (by rw [length_utf8Bytes]; omega),
    decodeUtf8Ignore_part h]

end Hmn.Framework.Codec
