/-
  Hmn.Framework.Equality — when two values are equal.

  Numbers are compared by their value, whatever they are written as: `True`,
  `1` and `1.0` are one key of a set.  Objects are compared member by member,
  in any order.  There is one NaN, the constant of the JSON reader, and a
  container that holds it is equal to itself.
-/
import Hmn.Framework.SortKeys

namespace Hmn.Framework

/-! ## §1. Values. -/

namespace Json

mutual

/-- Every number as its value alone. -/
def plain : Json → Json
  | .null => .null
  | .bool b => .float ⟨.finite (if b then 1 else 0), ""⟩
  | .int n => .float ⟨.finite n, ""⟩
  | .float x => .float ⟨x.value, ""⟩
  | .str s => .str s
  | .arr xs => .arr (plainList xs)
  | .obj kvs => .obj (plainFields kvs)

def plainList : List Json → List Json
  | [] => []
  | x :: xs => plain x :: plainList xs

def plainFields : List (String × Json) → List (String × Json)
  | [] => []
  | (k, x) :: kvs => (k, plain x) :: plainFields kvs

end

/-- What equal values have in common. -/
def canon (v : Json) : Json := v.plain.sortKeys

theorem plainFields_eq (kvs : List (String × Json)) :
    plainFields kvs = kvs.map (fun kv => (kv.1, plain kv.2)) := by
  induction kvs with
  | nil => rfl
  | cons kv kvs ih => rw [plainFields, ih, List.map_cons]

theorem plainFields_insertionSort (kvs : List (String × Json)) :
    plainFields (kvs.insertionSort (fun a b => a.1 ≤ b.1))
      = (plainFields kvs).insertionSort (fun a b => a.1 ≤ b.1) := by
  rw [plainFields_eq, plainFields_eq]
  exact List.map_insertionSort _ _ (fun kv : String × Json => (kv.1, plain kv.2)) kvs
    (fun a _ b _ => Iff.rfl)

mutual

theorem plain_sortKeys : (v : Json) → v.sortKeys.plain = v.plain.sortKeys
  | .null | .bool _ | .int _ | .float _ | .str _ => rfl
  | .arr xs => by rw [sortKeys, plain, plain, sortKeys, plainList_sortKeysList xs]
  | .obj kvs => by
    rw [sortKeys, plain, plain, sortKeys, plainFields_insertionSort,
      plainFields_sortKeysFields kvs]

theorem plainList_sortKeysList :
    (xs : List Json) → plainList (sortKeysList xs) = sortKeysList (plainList xs)
  | [] => rfl
  | x :: xs => by
    rw [sortKeysList, plainList, plainList, sortKeysList, plain_sortKeys x,
      plainList_sortKeysList xs]

theorem plainFields_sortKeysFields :
    (kvs : List (String × Json)) → plainFields (sortKeysFields kvs) = sortKeysFields (plainFields kvs)
  | [] => rfl
  | (k, x) :: kvs => by
    rw [sortKeysFields, plainFields, plainFields, sortKeysFields, plain_sortKeys x,
      plainFields_sortKeysFields kvs]

end

/-- The order of its members is nothing of a value. -/
theorem canon_sortKeys (v : Json) : v.sortKeys.canon = v.canon := by
  rw [canon, plain_sortKeys, sortKeys_sortKeys, canon]

/-- No list and no object. -/
def scalar : Json → Bool
  | .arr _ | .obj _ => false
  | _ => true

end Json

/-! ## §2. Objects. -/

/-- `a == b`: every key leads to equal values. -/
def Dict.Same (a b : Dict) : Prop :=
  ∀ k ∈ a.map Prod.fst ++ b.map Prod.fst, (a.get? k).map Json.canon = (b.get? k).map Json.canon

instance (a b : Dict) : Decidable (Dict.Same a b) := by
  unfold Dict.Same
  infer_instance

theorem Dict.Same.of_get? {a b : Dict} (h : ∀ k, a.get? k = b.get? k) : Dict.Same a b :=
  fun k _ => by rw [h k]

/-- A dictionary is equal to the one with its keys sorted. -/
theorem Dict.same_sortKeys (d : Dict) : Dict.Same d d.sortKeys := by
  intro k _
  rw [Dict.get?_sortKeys, Option.map_map]
  exact congrArg (fun f => (d.get? k).map f) (funext fun v => (Json.canon_sortKeys v).symm)

/-- `a == b`. -/
def Json.Same : Json → Json → Prop
  | .obj a, .obj b => Dict.Same a b
  | a, b => a.canon = b.canon

instance : (a b : Json) → Decidable (Json.Same a b)
  | .obj a, .obj b => inferInstanceAs (Decidable (Dict.Same a b))
  | .null, _ | .bool _, _ | .int _, _ | .float _, _ | .str _, _ | .arr _, _ =>
    inferInstanceAs (Decidable (_ = _))
  | .obj _, .null | .obj _, .bool _ | .obj _, .int _ | .obj _, .float _ | .obj _, .str _
  | .obj _, .arr _ => inferInstanceAs (Decidable (_ = _))

theorem Json.Same.refl (v : Json) : Json.Same v v := by
  cases v with
  | obj kvs => exact Dict.Same.of_get? (fun _ => rfl)
  | null | bool _ | int _ | float _ | str _ | arr _ => rfl

example : Json.Same (.int 1) (.bool true)
    ∧ Json.Same (.obj [("a", .int 1), ("b", .null)]) (.obj [("b", .null), ("a", .bool true)])
    ∧ ¬ Json.Same (.obj [("a", .int 1)]) (.obj [("a", .str "1")]) := by
  decide +kernel

end Hmn.Framework
