/-
  Hmn.Framework.JsonAscii — documents in ASCII, on one line or indented.

  Main result: `length_dumpsSorted_lt` — a document gets longer with every
  member, whatever the order of the members.
-/
import Hmn.Framework.JsonIndent
import Mathlib.Algebra.BigOperators.Group.List.Basic
import Mathlib.Algebra.GroupWithZero.Nat

namespace Hmn.Framework.Json

/-! ## §1. Writing. -/

/-- Four hexadecimal digits. -/
def hex4 (n : Nat) : List Char :=
  [Nat.digitChar (n / 4096), Nat.digitChar (n / 256 % 16), Nat.digitChar (n / 16 % 16),
    Nat.digitChar (n % 16)]

/-- A character of a document in ASCII: one beyond it is escaped, as a pair
of surrogates if need be. -/
def asciiChar (c : Char) : List Char :=
  if c.toNat < 127 then [c]
  else if c.toNat < 0x10000 then '\\' :: 'u' :: hex4 c.toNat
  else '\\' :: 'u' :: (hex4 (0xD800 + (c.toNat - 0x10000) / 1024)
    ++ '\\' :: 'u' :: hex4 (0xDC00 + (c.toNat - 0x10000) % 1024))

/-- A document in ASCII: what is beyond it stands in texts only. -/
def ascii (cs : List Char) : List Char := cs.flatMap asciiChar

mutual

/-- A value on one line. -/
def line : Json → List Char
  | .null => "null".toList
  | .bool true => "true".toList
  | .bool false => "false".toList
  | .int n => (toString n).toList
  | .float x => (floatText x).toList
  | .str s => JsonText.dumpsText s
  | .arr xs => '[' :: (List.intercalate [',', ' '] (lineList xs) ++ [']'])
  | .obj kvs => '\x7b' :: (List.intercalate [',', ' '] (lineFields kvs) ++ ['\x7d'])

def lineList : List Json → List (List Char)
  | [] => []
  | x :: xs => line x :: lineList xs

def lineFields : List (String × Json) → List (List Char)
  | [] => []
  | (k, x) :: kvs => (JsonText.dumpsText k ++ ':' :: ' ' :: line x) :: lineFields kvs

end

/-- `json.dumps(value, sort_keys=True)`. -/
def dumpsSorted (value : Json) : String := String.ofList (ascii (line value.sortKeys))

/-- `json.dumps(value, indent=2, sort_keys=True)`. -/
def dumpsIndentedAscii (value : Json) : String := String.ofList (ascii (dumpsIndented value).toList)

example : dumpsSorted (.obj [("b", .arr [.int 1, .obj []]), ("a", .str "é😀")])
    = "\x7b\"a\": \"\\u00e9\\ud83d\\ude00\", \"b\": [1, \x7b\x7d]\x7d" := by
  decide +kernel

/-! ## §2. Lengths. -/

theorem ascii_append (a b : List Char) : ascii (a ++ b) = ascii a ++ ascii b :=
  List.flatMap_append

/-- Pieces between commas. -/
theorem length_intercalate (pieces : List (List Char)) (h : pieces ≠ []) :
    (ascii (List.intercalate [',', ' '] pieces)).length + 2
      = (pieces.map fun piece => (ascii piece).length + 2).sum := by
  induction pieces with
  | nil => exact absurd rfl h
  | cons piece pieces ih =>
    cases pieces with
    | nil => simp [List.intercalate]
    | cons next pieces =>
      have hcons : List.intercalate [',', ' '] (piece :: next :: pieces)
          = piece ++ ([',', ' '] ++ List.intercalate [',', ' '] (next :: pieces)) := by
        simp [List.intercalate, List.intersperse]
      have hcomma : (ascii [',', ' ']).length = 2 := by decide
      rw [hcons, ascii_append, ascii_append, List.length_append, List.length_append, hcomma,
        List.map_cons, List.sum_cons, ← ih (List.cons_ne_nil _ _)]
      omega

/-- The room a member takes, with its comma. -/
def memberLength (kv : String × Json) : Nat :=
  (ascii (JsonText.dumpsText kv.1 ++ ':' :: ' ' :: line kv.2.sortKeys)).length + 2

theorem lineFields_eq (kvs : List (String × Json)) :
    lineFields kvs = kvs.map fun kv => JsonText.dumpsText kv.1 ++ ':' :: ' ' :: line kv.2 := by
  induction kvs with
  | nil => rfl
  | cons kv kvs ih => rw [lineFields, ih, List.map_cons]

/-- The length of a document is that of its members. -/
theorem length_dumpsSorted {kvs : List (String × Json)} (h : kvs ≠ []) :
    (dumpsSorted (.obj kvs)).length = (kvs.map memberLength).sum := by
  have hperm := List.perm_insertionSort (fun a b : String × Json => a.1 ≤ b.1) (sortKeysFields kvs)
  have hne : (sortKeysFields kvs).insertionSort (fun a b => a.1 ≤ b.1) ≠ [] := by
    rw [ne_eq, ← List.length_eq_zero_iff, hperm.length_eq, sortKeysFields_eq, List.length_map,
      List.length_eq_zero_iff]
    exact h
  have hbraces : ∀ cs, (ascii ('\x7b' :: (cs ++ ['\x7d']))).length = (ascii cs).length + 2 := by
    intro cs
    rw [← List.singleton_append, ascii_append, ascii_append, List.length_append,
      List.length_append]
    have hopen : (ascii ['\x7b']).length = 1 := by decide
    have hclose : (ascii ['\x7d']).length = 1 := by decide
    omega
  rw [dumpsSorted, String.length_ofList, sortKeys, line, hbraces, lineFields_eq,
    length_intercalate _ (by simpa using hne), List.map_map]
  rw [(hperm.map _).sum_eq, sortKeysFields_eq, List.map_map]
  rfl

/-- **A member makes a document longer.** -/
theorem length_dumpsSorted_lt {kvs : List (String × Json)} {keep : String × Json → Bool}
    (hkept : kvs.filter keep ≠ []) (hdropped : ∃ kv ∈ kvs, keep kv = false) :
    (dumpsSorted (.obj (kvs.filter keep))).length < (dumpsSorted (.obj kvs)).length := by
  obtain ⟨kv, hmem, hkeep⟩ := hdropped
  have hsplit := (List.filter_append_perm keep kvs).map memberLength
  have hlost : memberLength kv ∈ (kvs.filter fun kv => !keep kv).map memberLength :=
    List.mem_map_of_mem (List.mem_filter.mpr ⟨hmem, by simp [hkeep]⟩)
  have hpos : 0 < ((kvs.filter fun kv => !keep kv).map memberLength).sum :=
    List.sum_pos_iff_exists_pos_nat.mpr ⟨_, hlost, Nat.succ_pos _⟩
  rw [length_dumpsSorted hkept, length_dumpsSorted (List.ne_nil_of_mem hmem), ← hsplit.sum_eq,
    List.map_append, List.sum_append]
  exact Nat.lt_add_of_pos_right hpos

end Hmn.Framework.Json
