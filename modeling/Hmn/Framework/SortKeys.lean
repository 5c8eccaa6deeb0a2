/-
  Hmn.Framework.SortKeys — what a document written with sorted keys decodes
  to.

  `json.dumps(value, sort_keys=True)` puts the members of every object in the
  order of their keys; reading the text back gives the same value with its
  members in that order.

  Main results: `get?_sortKeys` — a look-up sees the same members — and
  `sortKeys_sortKeys`.
-/
import Hmn.Framework.Json
import Mathlib.Data.List.Sort
import Mathlib.Data.String.Basic

namespace Hmn.Framework

/-! ## §1. Sorted members. -/

namespace Json

mutual

/-- `json.loads(json.dumps(value, sort_keys=True))`. -/
def sortKeys : Json → Json
  | .null => .null
  | .bool b => .bool b
  | .int n => .int n
  | .float x => .float x
  | .str s => .str s
  | .arr xs => .arr (sortKeysList xs)
  | .obj kvs => .obj ((sortKeysFields kvs).insertionSort (fun a b => a.1 ≤ b.1))

def sortKeysList : List Json → List Json
  | [] => []
  | x :: xs => sortKeys x :: sortKeysList xs

def sortKeysFields : List (String × Json) → List (String × Json)
  | [] => []
  | (k, x) :: kvs => (k, sortKeys x) :: sortKeysFields kvs

end

theorem sortKeysList_eq (xs : List Json) : sortKeysList xs = xs.map sortKeys := by
  induction xs with
  | nil => rfl
  | cons x xs ih => rw [sortKeysList, ih, List.map_cons]

theorem sortKeysFields_eq (kvs : List (String × Json)) :
    sortKeysFields kvs = kvs.map (fun kv => (kv.1, sortKeys kv.2)) := by
  induction kvs with
  | nil => rfl
  | cons kv kvs ih => rw [sortKeysFields, ih, List.map_cons]

theorem truthy_sortKeys (v : Json) : v.sortKeys.truthy = v.truthy := by
  cases v with
  | arr xs =>
    rw [sortKeys, sortKeysList_eq]
    simp [truthy]
  | obj kvs =>
    rw [sortKeys, sortKeysFields_eq]
    have hnil : (kvs.map fun kv => (kv.1, kv.2.sortKeys)).insertionSort (fun a b => a.1 ≤ b.1) = []
        ↔ kvs = [] := by
      rw [← List.length_eq_zero_iff, List.length_insertionSort, List.length_map,
        List.length_eq_zero_iff]
    simp [truthy, hnil]
  | null | bool _ | int _ | float _ | str _ => rfl

end Json

namespace Dict

/-- `json.loads(json.dumps(d, sort_keys=True))` of a dictionary. -/
def sortKeys (d : Dict) : Dict :=
  (Json.sortKeysFields d).insertionSort (fun a b => a.1 ≤ b.1)

/-- A member sorted in is seen like one put in front: it is sorted in before
the members with its key. -/
theorem get?_orderedInsert (kv : String × Json) (d : Dict) (k : String) :
    get? (d.orderedInsert (fun a b => a.1 ≤ b.1) kv) k = get? (kv :: d) k := by
  induction d with
  | nil => rfl
  | cons kw d ih =>
    rw [List.orderedInsert_cons]
    by_cases hle : kv.1 ≤ kw.1
    · rw [if_pos hle]
    · have hne : kv.1 ≠ kw.1 := fun h => hle (le_of_eq h)
      rw [if_neg hle, get?_cons, ih, get?_cons, get?_cons, get?_cons]
      by_cases hk : k = kw.1
      · have hkv : ¬ k = kv.1 := fun h => hne (h.symm.trans hk)
        rw [if_pos hk, if_neg hkv, if_pos hk]
      · rw [if_neg hk, if_neg hk]

theorem get?_insertionSort (d : Dict) (k : String) :
    get? (d.insertionSort (fun a b => a.1 ≤ b.1)) k = get? d k := by
  induction d with
  | nil => rfl
  | cons kv d ih => rw [List.insertionSort_cons, get?_orderedInsert, get?_cons, get?_cons, ih]

/-- **A look-up sees the same member**, with its own keys sorted. -/
theorem get?_sortKeys (d : Dict) (k : String) :
    (sortKeys d).get? k = (d.get? k).map Json.sortKeys := by
  rw [sortKeys, get?_insertionSort, Json.sortKeysFields_eq]
  induction d with
  | nil => rfl
  | cons kv d ih =>
    rw [List.map_cons, get?_cons, get?_cons, ih]
    split <;> rfl

end Dict

/-! ## §2. Sorting again. -/

/-- Keys that are sorted stay where they are. -/
theorem insertionSort_insertionSort (kvs : List (String × Json)) :
    (kvs.insertionSort (fun a b => a.1 ≤ b.1)).insertionSort (fun a b => a.1 ≤ b.1)
      = kvs.insertionSort (fun a b => a.1 ≤ b.1) := by
  have : Std.Total (fun a b : String × Json => a.1 ≤ b.1) := ⟨fun a b => le_total a.1 b.1⟩
  have : IsTrans (String × Json) (fun a b => a.1 ≤ b.1) := ⟨fun _ _ _ hab hbc => le_trans hab hbc⟩
  exact (List.pairwise_insertionSort _ kvs).insertionSort_eq

namespace Json

theorem sortKeysFields_insertionSort (kvs : List (String × Json)) :
    sortKeysFields (kvs.insertionSort (fun a b => a.1 ≤ b.1))
      = (sortKeysFields kvs).insertionSort (fun a b => a.1 ≤ b.1) := by
  rw [sortKeysFields_eq, sortKeysFields_eq]
  exact List.map_insertionSort _ _ (fun kv : String × Json => (kv.1, sortKeys kv.2)) kvs
    (fun a _ b _ => Iff.rfl)

mutual

theorem sortKeys_sortKeys : (v : Json) → v.sortKeys.sortKeys = v.sortKeys
  | .null | .bool _ | .int _ | .float _ | .str _ => rfl
  | .arr xs => by rw [sortKeys, sortKeys, sortKeysList_sortKeysList xs]
  | .obj kvs => by
    rw [sortKeys, sortKeys, sortKeysFields_insertionSort, sortKeysFields_sortKeysFields kvs,
      insertionSort_insertionSort]

theorem sortKeysList_sortKeysList :
    (xs : List Json) → sortKeysList (sortKeysList xs) = sortKeysList xs
  | [] => rfl
  | x :: xs => by
    rw [sortKeysList, sortKeysList, sortKeys_sortKeys x, sortKeysList_sortKeysList xs]

theorem sortKeysFields_sortKeysFields :
    (kvs : List (String × Json)) → sortKeysFields (sortKeysFields kvs) = sortKeysFields kvs
  | [] => rfl
  | (k, x) :: kvs => by
    rw [sortKeysFields, sortKeysFields, sortKeys_sortKeys x, sortKeysFields_sortKeysFields kvs]

end

end Json

/-- **What was read back is written the same way again.** -/
theorem Dict.sortKeys_sortKeys (d : Dict) : Dict.sortKeys (Dict.sortKeys d) = Dict.sortKeys d := by
  unfold Dict.sortKeys
  rw [Json.sortKeysFields_insertionSort, Json.sortKeysFields_sortKeysFields,
    insertionSort_insertionSort]

end Hmn.Framework
