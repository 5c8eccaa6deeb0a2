/-
  Hmn.Store.OutputCap — what is kept of a long output.

  `_cap_task_output` cuts the bytes of an output and decodes what is left
  without errors.  Wherever the cut falls, what comes out are the whole
  characters that fit before the marker, and no more than the bound in all.

  Main results: `capTaskOutputBytes_exact`, `capTaskOutput_eq_bytes`.
-/
import Hmn.Framework.Utf8Cut
import Hmn.Store.Store
import Mathlib.Data.String.Basic

namespace Hmn.Store

open Framework Framework.Codec
open Framework.Sha256 (encode utf8Bytes)

/-- `_cap_task_output`, on bytes as the source has it. -/
def capTaskOutputBytes (value : String) : String :=
  let encoded := encode value
  if encoded.length ≤ taskOutputMaxBytes then value
  else
    let room := taskOutputMaxBytes - (encode taskOutputTruncatedMarker).length
    decodeIgnore (encoded.take room) ++ taskOutputTruncatedMarker

/-- The bytes left for an output in front of the marker. -/
def outputRoom : Nat := taskOutputMaxBytes - (encode taskOutputTruncatedMarker).length

/-- `kept` is the longest prefix of whole characters that takes `room` bytes
at most. -/
structure LongestPrefix (room : Nat) (kept cs : List Char) : Prop where
  isPrefix : kept <+: cs
  fits : (kept.flatMap utf8Bytes).length ≤ room
  longest : ∀ other, other <+: cs → (other.flatMap utf8Bytes).length ≤ room → other <+: kept

/-! ## §1. Sizes in bytes. -/

theorem length_encode (s : String) : (encode s).length = s.utf8ByteSize := by
  have hchars : ∀ cs : List Char, (cs.flatMap utf8Bytes).length = String.utf8Len cs := by
    intro cs
    induction cs with
    | nil => rfl
    | cons c cs ih =>
      rw [List.flatMap_cons, List.length_append, length_utf8Bytes, ih, String.utf8Len_cons,
        Nat.add_comm]
  rw [encode, hchars, ← String.utf8ByteSize_ofList, String.ofList_toList]

theorem length_encode_append (s t : String) :
    (encode (s ++ t)).length = (encode s).length + (encode t).length := by
  rw [encode, String.toList_append, List.flatMap_append, List.length_append]
  rfl

theorem length_marker : (encode taskOutputTruncatedMarker).length = 39 := by decide

/-! ## §2. The prefix that fits. -/

/-- The bytes of a text cut at `room` are read as the characters that fit. -/
theorem decodeUtf8Ignore_take (room : Nat) (cs : List Char) :
    decodeUtf8Ignore 0 0 0 ((cs.flatMap utf8Bytes).take room) = utf8Prefix room cs := by
  induction cs generalizing room with
  | nil => rw [List.flatMap_nil, List.take_nil, decodeUtf8Ignore, utf8Prefix]
  | cons c cs ih =>
    by_cases hc : c.utf8Size ≤ room
    · rw [decodeUtf8Ignore_take_fits hc, ih, utf8Prefix, if_pos hc]
    · rw [decodeUtf8Ignore_take_broken (Nat.lt_of_not_le hc), utf8Prefix, if_neg hc]

theorem length_utf8Prefix_le (room : Nat) (cs : List Char) :
    ((utf8Prefix room cs).flatMap utf8Bytes).length ≤ room := by
  induction cs generalizing room with
  | nil => exact Nat.zero_le _
  | cons c cs ih =>
    rw [utf8Prefix]
    split_ifs with hc
    · have hrest := ih (room - c.utf8Size)
      rw [List.flatMap_cons, List.length_append, length_utf8Bytes]
      omega
    · exact Nat.zero_le _

theorem utf8Prefix_prefix (room : Nat) (cs : List Char) : utf8Prefix room cs <+: cs := by
  induction cs generalizing room with
  | nil => exact List.prefix_rfl
  | cons c cs ih =>
    rw [utf8Prefix]
    split_ifs with hc
    · exact (List.prefix_cons_inj c).mpr (ih _)
    · exact List.nil_prefix

/-- Another prefix that fits is a prefix of this one. -/
theorem prefix_utf8Prefix {room : Nat} {other cs : List Char} (h : other <+: cs)
    (hfits : (other.flatMap utf8Bytes).length ≤ room) : other <+: utf8Prefix room cs := by
  induction other generalizing room cs with
  | nil => exact List.nil_prefix
  | cons c other ih =>
    obtain ⟨tail, rfl⟩ := h
    rw [List.flatMap_cons, List.length_append, length_utf8Bytes] at hfits
    rw [List.cons_append, utf8Prefix, if_pos (by omega), List.prefix_cons_inj]
    exact ih (List.prefix_append _ _) (by omega)

theorem utf8Prefix_longest (room : Nat) (cs : List Char) :
    LongestPrefix room (utf8Prefix room cs) cs where
  isPrefix := utf8Prefix_prefix room cs
  fits := length_utf8Prefix_le room cs
  longest := fun _ h hfits => prefix_utf8Prefix h hfits

/-! ## §3. The capped output. -/

theorem capTaskOutputBytes_fits {value : String}
    (h : (encode value).length ≤ taskOutputMaxBytes) : capTaskOutputBytes value = value := by
  rw [capTaskOutputBytes]
  exact if_pos h

theorem capTaskOutputBytes_long {value : String}
    (h : taskOutputMaxBytes < (encode value).length) :
    capTaskOutputBytes value
      = String.ofList (utf8Prefix outputRoom value.toList) ++ taskOutputTruncatedMarker := by
  rw [capTaskOutputBytes]
  dsimp only
  rw [if_neg (Nat.not_le.mpr h), decodeIgnore, ← outputRoom, encode, decodeUtf8Ignore_take]

theorem length_capTaskOutputBytes (value : String) :
    (encode (capTaskOutputBytes value)).length ≤ taskOutputMaxBytes := by
  rcases Nat.lt_or_ge taskOutputMaxBytes (encode value).length with h | h
  · have hkept := length_utf8Prefix_le outputRoom value.toList
    have hroom : outputRoom + 39 = taskOutputMaxBytes := by rw [outputRoom, length_marker]; rfl
    rw [capTaskOutputBytes_long h, length_encode_append, length_marker, encode,
      String.toList_ofList]
    omega
  · rw [capTaskOutputBytes_fits h]
    exact h

/-- The reading of the bytes is the one of the characters. -/
theorem capTaskOutput_eq_bytes (value : String) :
    capTaskOutput value = capTaskOutputBytes value := by
  rcases Nat.lt_or_ge taskOutputMaxBytes (encode value).length with h | h
  · rw [capTaskOutputBytes_long h, capTaskOutput, outputRoom, length_encode,
      if_neg (by rw [← length_encode]; omega)]
  · rw [capTaskOutputBytes_fits h, capTaskOutput, if_pos (by rw [← length_encode]; exact h)]

/-- A result keeps its two outputs within the bound. -/
theorem complete_outputs (exitCode : Int) (stdout stderr : String) (now : Timestamp) (t : Task) :
    (complete exitCode stdout stderr now t).stdout = capTaskOutputBytes stdout
    ∧ (complete exitCode stdout stderr now t).stderr = capTaskOutputBytes stderr :=
  ⟨capTaskOutput_eq_bytes stdout, capTaskOutput_eq_bytes stderr⟩

/-- **Output capping is exact.**  For every text: what is kept takes 65536
bytes at most; a text that fits is kept as it is; of another one the longest
prefix of whole characters is kept that leaves room for the marker, with the
marker behind it; capping twice is capping once; and what a result stores as
its standard output or error is the capped text. -/
theorem capTaskOutputBytes_exact (value : String) :
    (encode (capTaskOutputBytes value)).length ≤ 65536
    ∧ ((encode value).length ≤ 65536 → capTaskOutputBytes value = value)
    ∧ (65536 < (encode value).length →
        ∃ kept, LongestPrefix (65536 - (encode taskOutputTruncatedMarker).length) kept
            value.toList
          ∧ capTaskOutputBytes value = String.ofList kept ++ taskOutputTruncatedMarker)
    ∧ capTaskOutputBytes (capTaskOutputBytes value) = capTaskOutputBytes value
    ∧ ∀ exitCode other now t,
        (complete exitCode value other now t).stdout = capTaskOutputBytes value
        ∧ (complete exitCode other value now t).stderr = capTaskOutputBytes value := by
  refine ⟨length_capTaskOutputBytes value, capTaskOutputBytes_fits, fun h => ?_, ?_,
    fun exitCode other now t => ?_⟩
  · exact ⟨utf8Prefix outputRoom value.toList, utf8Prefix_longest _ _, capTaskOutputBytes_long h⟩
  · exact capTaskOutputBytes_fits (length_capTaskOutputBytes value)
  · exact ⟨(complete_outputs exitCode value other now t).1,
      (complete_outputs exitCode other value now t).2⟩

end Hmn.Store
