/-
  Hmn.Framework.Codec — bytes as text: UTF-8 and Base64.

  Both decoders are those of Python.  The one of Base64 passes over the
  characters that are not its own and stops at the padding, so that many
  texts decode to the same bytes; the texts of the encoder are among them.

  Main results: `decodeUtf8_encode`, `urlsafeB64decode_encode`.
-/
import Hmn.Framework.Sha256
import Mathlib.Tactic.IntervalCases

namespace Hmn.Framework.Codec

open Sha256

/-! ## §1. UTF-8. -/

/-- The characters of bytes: `need` bytes are still to come of a character
whose bits so far are `acc` and which has to be `low` at least. -/
def decodeUtf8 (need acc low : Nat) : List Nat → Option (List Char)
  | [] => if need = 0 then some [] else none
  | b :: bs =>
    match need with
    | 0 =>
      if b < 0x80 then (decodeUtf8 0 0 0 bs).map (Char.ofNat b :: ·)
      else if 0xc2 ≤ b && b < 0xe0 then decodeUtf8 1 (b - 0xc0) 0x80 bs
      else if 0xe0 ≤ b && b < 0xf0 then decodeUtf8 2 (b - 0xe0) 0x800 bs
      else if 0xf0 ≤ b && b < 0xf5 then decodeUtf8 3 (b - 0xf0) 0x10000 bs
      else none
    | need + 1 =>
      if 0x80 ≤ b && b < 0xc0 then
        let n := acc * 64 + (b - 0x80)
        if need = 0 then
          if low ≤ n ∧ n.isValidChar then (decodeUtf8 0 0 0 bs).map (Char.ofNat n :: ·) else none
        else decodeUtf8 need n low bs
      else none

/-- `bytes.decode("utf-8")`; nothing when it raises. -/
def decode (bytes : List Nat) : Option String := (decodeUtf8 0 0 0 bytes).map String.ofList

theorem toNat_lt (c : Char) : c.toNat < 0x110000 := by
  rcases c.valid with h | ⟨-, h⟩
  · exact Nat.lt_trans h (by decide)
  · exact h

theorem shiftRight_six (n : Nat) : n >>> 6 = n / 64 := Nat.shiftRight_eq_div_pow n 6
theorem shiftRight_twelve (n : Nat) : n >>> 12 = n / 4096 := Nat.shiftRight_eq_div_pow n 12
theorem shiftRight_eighteen (n : Nat) : n >>> 18 = n / 262144 := Nat.shiftRight_eq_div_pow n 18

theorem tail_byte {n : Nat} (h : n < 64) : 0x80 ||| n = 128 + n :=
  (Nat.two_pow_add_eq_or_of_lt (i := 6) h 2).symm

theorem lead_two {n : Nat} (h : n < 32) : 0xc0 ||| n = 192 + n :=
  (Nat.two_pow_add_eq_or_of_lt (i := 5) h 6).symm

theorem lead_three {n : Nat} (h : n < 16) : 0xe0 ||| n = 224 + n :=
  (Nat.two_pow_add_eq_or_of_lt (i := 4) h 14).symm

theorem lead_four {n : Nat} (h : n < 8) : 0xf0 ||| n = 240 + n :=
  (Nat.two_pow_add_eq_or_of_lt (i := 3) h 30).symm

/-- The bytes of one character, in sums. -/
theorem utf8Bytes_eq (c : Char) : utf8Bytes c =
    if c.toNat < 0x80 then [c.toNat]
    else if c.toNat < 0x800 then [192 + c.toNat / 64, 128 + c.toNat % 64]
    else if c.toNat < 0x10000 then
      [224 + c.toNat / 4096, 128 + c.toNat / 64 % 64, 128 + c.toNat % 64]
    else [240 + c.toNat / 262144, 128 + c.toNat / 4096 % 64, 128 + c.toNat / 64 % 64,
      128 + c.toNat % 64] := by
  have hmax := toNat_lt c
  have hmod := fun n : Nat => Nat.mod_lt n (show 0 < 64 by decide)
  unfold utf8Bytes
  simp only [shiftRight_six, shiftRight_twelve, shiftRight_eighteen, tail_byte (hmod _)]
  split_ifs with h1 h2 h3
  · rfl
  · rw [lead_two (by omega)]
  · rw [lead_three (by omega)]
  · rw [lead_four (by omega)]

/-- A byte in the middle of a character. -/
theorem decodeUtf8_tail {need acc low n : Nat} {bs : List Nat} (hn : n < 64) (hneed : need ≠ 0) :
    decodeUtf8 (need + 1) acc low ((128 + n) :: bs) = decodeUtf8 need (acc * 64 + n) low bs := by
  rw [decodeUtf8, if_pos (by simp only [Bool.and_eq_true, decide_eq_true_eq]; omega), if_neg hneed, Nat.add_sub_cancel_left]

/-- The last byte of a character. -/
theorem decodeUtf8_last {acc low n : Nat} {c : Char} {bs : List Nat} (hn : n < 64)
    (hc : acc * 64 + n = c.toNat) (hlow : low ≤ c.toNat) :
    decodeUtf8 1 acc low ((128 + n) :: bs) = (decodeUtf8 0 0 0 bs).map (c :: ·) := by
  have hvalid : c.toNat.isValidChar := c.valid
  rw [decodeUtf8, if_pos (by simp only [Bool.and_eq_true, decide_eq_true_eq]; omega), if_pos rfl, Nat.add_sub_cancel_left, hc,
    if_pos ⟨hlow, hvalid⟩, Char.ofNat_toNat]

/-- The bytes of a character are read as this character. -/
theorem decodeUtf8_utf8Bytes (c : Char) (bs : List Nat) :
    decodeUtf8 0 0 0 (utf8Bytes c ++ bs) = (decodeUtf8 0 0 0 bs).map (c :: ·) := by
  have hmax := toNat_lt c
  have hmod := fun n : Nat => Nat.mod_lt n (show 0 < 64 by decide)
  rw [utf8Bytes_eq]
  split_ifs with h1 h2 h3
  · rw [List.cons_append, List.nil_append, decodeUtf8, if_pos h1, Char.ofNat_toNat]
  · rw [List.cons_append, List.cons_append, List.nil_append, decodeUtf8, if_neg (by omega),
      if_pos (by simp only [Bool.and_eq_true, decide_eq_true_eq]; omega), Nat.add_sub_cancel_left, decodeUtf8_last (hmod _)]
    · omega
    · omega
  · simp only [List.cons_append, List.nil_append]
    rw [decodeUtf8, if_neg (by omega), if_neg (by simp only [Bool.and_eq_true, decide_eq_true_eq]; omega), if_pos (by simp only [Bool.and_eq_true, decide_eq_true_eq]; omega),
      Nat.add_sub_cancel_left, decodeUtf8_tail (hmod _) (by decide), decodeUtf8_last (hmod _)]
    · omega
    · omega
  · simp only [List.cons_append, List.nil_append]
    rw [decodeUtf8, if_neg (by omega), if_neg (by simp only [Bool.and_eq_true, decide_eq_true_eq]; omega), if_neg (by simp only [Bool.and_eq_true, decide_eq_true_eq]; omega),
      if_pos (by simp only [Bool.and_eq_true, decide_eq_true_eq]; omega), Nat.add_sub_cancel_left, decodeUtf8_tail (hmod _) (by decide),
      decodeUtf8_tail (hmod _) (by decide), decodeUtf8_last (hmod _)]
    · omega
    · omega

/-- **What UTF-8 encodes it decodes.** -/
theorem decode_encode (s : String) : decode (encode s) = some s := by
  have hchars : ∀ cs : List Char, decodeUtf8 0 0 0 (cs.flatMap utf8Bytes) = some cs := by
    intro cs
    induction cs with
    | nil => rfl
    | cons c cs ih => rw [List.flatMap_cons, decodeUtf8_utf8Bytes, ih, Option.map_some]
  rw [decode, encode, hchars, Option.map_some, String.ofList_toList]

theorem utf8Bytes_lt {c : Char} : ∀ b ∈ utf8Bytes c, b < 256 := by
  have hmax := toNat_lt c
  have hmod := fun n : Nat => Nat.mod_lt n (show 0 < 64 by decide)
  rw [utf8Bytes_eq]
  split_ifs
  all_goals
    simp only [List.mem_cons, List.not_mem_nil, or_false]
    omega

theorem encode_lt {s : String} : ∀ b ∈ encode s, b < 256 := by
  intro b hb
  obtain ⟨c, -, hb⟩ := List.mem_flatMap.mp hb
  exact utf8Bytes_lt b hb

/-! ## §2. Base64. -/

/-- The character of six bits. -/
def base64Char (n : Nat) : Char :=
  if n < 26 then Char.ofNat (65 + n)
  else if n < 52 then Char.ofNat (97 + (n - 26))
  else if n < 62 then Char.ofNat (48 + (n - 52))
  else if n = 62 then '+' else '/'

/-- The six bits of a character, which may be none of the alphabet. -/
def base64Value (c : Char) : Option Nat :=
  let n := c.toNat
  if 65 ≤ n && n < 91 then some (n - 65)
  else if 97 ≤ n && n < 123 then some (n - 97 + 26)
  else if 48 ≤ n && n < 58 then some (n - 48 + 52)
  else if c = '+' then some 62
  else if c = '/' then some 63
  else none

/-- `base64.b64encode(bytes)`. -/
def b64encode : List Nat → List Char
  | a :: b :: c :: rest =>
    base64Char (a / 4) :: base64Char (a % 4 * 16 + b / 16) :: base64Char (b % 16 * 4 + c / 64)
      :: base64Char (c % 64) :: b64encode rest
  | [a, b] =>
    [base64Char (a / 4), base64Char (a % 4 * 16 + b / 16), base64Char (b % 16 * 4), '=']
  | [a] => [base64Char (a / 4), base64Char (a % 4 * 16), '=', '=']
  | [] => []

/-- `binascii.a2b_base64`: `quad` characters of a group of four were read,
whose bits that are no byte yet are `left`, and `pads` signs of padding behind
them.  Nothing when it raises. -/
def a2bBase64 (quad left pads : Nat) : List Char → Option (List Nat)
  | [] => if quad = 0 then some [] else none
  | c :: cs =>
    if c = '=' then
      if 2 ≤ quad then
        if 4 ≤ quad + (pads + 1) then some [] else a2bBase64 quad left (pads + 1) cs
      else a2bBase64 quad left pads cs
    else
      match base64Value c with
      | none => a2bBase64 quad left pads cs
      | some v =>
        match quad with
        | 0 => a2bBase64 1 v 0 cs
        | 1 => (a2bBase64 2 (v % 16) 0 cs).map ((left * 4 + v / 16) :: ·)
        | 2 => (a2bBase64 3 (v % 4) 0 cs).map ((left * 16 + v / 4) :: ·)
        | _ => (a2bBase64 0 0 0 cs).map ((left * 64 + v) :: ·)

/-- The alphabet of the variant for file names and addresses. -/
def toUrlsafe (c : Char) : Char := if c = '+' then '-' else if c = '/' then '_' else c

def fromUrlsafe (c : Char) : Char := if c = '-' then '+' else if c = '_' then '/' else c

/-- `base64.urlsafe_b64encode(bytes)`. -/
def urlsafeB64encode (bytes : List Nat) : List Char := (b64encode bytes).map toUrlsafe

/-- `base64.urlsafe_b64decode(cs)`. -/
def urlsafeB64decode (cs : List Char) : Option (List Nat) := a2bBase64 0 0 0 (cs.map fromUrlsafe)

example : urlsafeB64decode "YQ=a=".toList = some [97, 6] ∧ urlsafeB64decode "Y W\nJj".toList
      = some [97, 98, 99] ∧ urlsafeB64decode "YWJjZ".toList = none
    ∧ urlsafeB64decode "YWJjZA==zzz".toList = some [97, 98, 99, 100] := by
  decide +kernel

/-- The characters of an encoding. -/
theorem base64Char_spec : ∀ n < 64, base64Value (base64Char n) = some n
    ∧ base64Char n ≠ '=' ∧ fromUrlsafe (toUrlsafe (base64Char n)) = base64Char n
    ∧ (toUrlsafe (base64Char n)).toNat < 128 := by
  decide

section

variable {left pads n : Nat}

theorem a2bBase64_first (hn : n < 64) (cs : List Char) :
    a2bBase64 0 left pads (base64Char n :: cs) = a2bBase64 1 n 0 cs := by
  obtain ⟨hvalue, hpad, -, -⟩ := base64Char_spec n hn
  simp only [a2bBase64, if_neg hpad, hvalue]

theorem a2bBase64_second (hn : n < 64) (cs : List Char) :
    a2bBase64 1 left pads (base64Char n :: cs)
      = (a2bBase64 2 (n % 16) 0 cs).map ((left * 4 + n / 16) :: ·) := by
  obtain ⟨hvalue, hpad, -, -⟩ := base64Char_spec n hn
  simp only [a2bBase64, if_neg hpad, hvalue]

theorem a2bBase64_third (hn : n < 64) (cs : List Char) :
    a2bBase64 2 left pads (base64Char n :: cs)
      = (a2bBase64 3 (n % 4) 0 cs).map ((left * 16 + n / 4) :: ·) := by
  obtain ⟨hvalue, hpad, -, -⟩ := base64Char_spec n hn
  simp only [a2bBase64, if_neg hpad, hvalue]

theorem a2bBase64_fourth (hn : n < 64) (cs : List Char) :
    a2bBase64 3 left pads (base64Char n :: cs)
      = (a2bBase64 0 0 0 cs).map ((left * 64 + n) :: ·) := by
  obtain ⟨hvalue, hpad, -, -⟩ := base64Char_spec n hn
  simp only [a2bBase64, if_neg hpad, hvalue]

end

theorem a2bBase64_b64encode (bytes : List Nat) (h : ∀ b ∈ bytes, b < 256) :
    a2bBase64 0 0 0 (b64encode bytes) = some bytes := by
  induction bytes using b64encode.induct with
  | case1 a b c rest ih =>
    simp only [List.forall_mem_cons] at h
    obtain ⟨ha, hb, hc, hrest⟩ := h
    rw [b64encode, a2bBase64_first (by omega), a2bBase64_second (by omega),
      a2bBase64_third (by omega), a2bBase64_fourth (by omega), ih hrest]
    simp only [Option.map_some, Option.some.injEq, List.cons.injEq, and_true]
    omega
  | case2 a b =>
    simp only [List.forall_mem_cons] at h
    obtain ⟨ha, hb, -⟩ := h
    have hend : a2bBase64 3 (b % 16 * 4 % 4) 0 ['='] = some [] := rfl
    rw [b64encode, a2bBase64_first (by omega), a2bBase64_second (by omega),
      a2bBase64_third (by omega), hend]
    simp only [Option.map_some, Option.some.injEq, List.cons.injEq, and_true]
    omega
  | case3 a =>
    have ha := h a List.mem_cons_self
    have hend : a2bBase64 2 (a % 4 * 16 % 16) 0 ['=', '='] = some [] := rfl
    rw [b64encode, a2bBase64_first (by omega), a2bBase64_second (by omega), hend]
    simp only [Option.map_some, Option.some.injEq, List.cons.injEq, and_true]
    omega
  | case4 => rfl

/-- What holds of every character of the alphabet and of the padding holds of
an encoding. -/
theorem forall_mem_b64encode {P : Char → Prop} (hpad : P '=') (hchar : ∀ n < 64, P (base64Char n))
    {bytes : List Nat} (h : ∀ b ∈ bytes, b < 256) : ∀ c ∈ b64encode bytes, P c := by
  induction bytes using b64encode.induct with
  | case1 a b c rest ih =>
    simp only [List.forall_mem_cons] at h
    obtain ⟨ha, hb, hc, hrest⟩ := h
    simp only [b64encode, List.forall_mem_cons]
    exact ⟨hchar _ (by omega), hchar _ (by omega), hchar _ (by omega), hchar _ (by omega), ih hrest⟩
  | case2 a b =>
    simp only [List.forall_mem_cons] at h
    obtain ⟨ha, hb, -⟩ := h
    simp only [b64encode, List.forall_mem_cons]
    exact ⟨hchar _ (by omega), hchar _ (by omega), hchar _ (by omega), hpad, nofun⟩
  | case3 a =>
    have ha := h a List.mem_cons_self
    simp only [b64encode, List.forall_mem_cons]
    exact ⟨hchar _ (by omega), hchar _ (by omega), hpad, hpad, nofun⟩
  | case4 => exact nofun

/-- **What Base64 encodes it decodes.** -/
theorem urlsafeB64decode_encode {bytes : List Nat} (h : ∀ b ∈ bytes, b < 256) :
    urlsafeB64decode (urlsafeB64encode bytes) = some bytes := by
  have hback : (b64encode bytes).map (fun c => fromUrlsafe (toUrlsafe c)) = b64encode bytes :=
    (List.map_congr_left (forall_mem_b64encode (by decide)
      (fun n hn => (base64Char_spec n hn).2.2.1) h)).trans (List.map_id' _)
  rw [urlsafeB64decode, urlsafeB64encode, List.map_map]
  exact (congrArg _ hback).trans (a2bBase64_b64encode bytes h)

theorem urlsafeB64encode_ascii {bytes : List Nat} (h : ∀ b ∈ bytes, b < 256) :
    ∀ c ∈ urlsafeB64encode bytes, c.toNat < 128 := by
  intro c hc
  obtain ⟨c, hmem, rfl⟩ := List.mem_map.mp hc
  exact forall_mem_b64encode (P := fun c => (toUrlsafe c).toNat < 128) (by decide)
    (fun n hn => (base64Char_spec n hn).2.2.2) h c hmem

end Hmn.Framework.Codec
