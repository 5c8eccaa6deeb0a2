/-
  Hmn.Framework.Json — dynamic values: what a JSON document decodes to.

  The values a dictionary-typed field holds, with the three readings that
  dynamically typed code makes of them: truth (`truthy`), text (`str`, and
  `repr` for values nested in containers) and the look-up idiom
  `str(d.get(k) or default)` (`Dict.getStr`).

  A float carries its value and the text it prints as; the value is a
  rational, an infinity or not a number.

  Main results: decidable equality, and `Dict.get?_set` — what every
  look-up sees after a key was set.
-/
import Mathlib.Data.List.Basic
import Mathlib.Data.Rat.Defs

namespace Hmn.Framework

/-! ## §1. Values. -/

/-- The value of a double. -/
inductive FloatValue where
  | nan
  | posInf
  | negInf
  | finite (q : Rat)
  deriving DecidableEq

/-- A float: its value and the text it prints as. -/
structure PyFloat where
  value : FloatValue
  text : String
  deriving DecidableEq

inductive Json where
  | null
  | bool (b : Bool)
  | int (n : Int)
  | float (x : PyFloat)
  | str (s : String)
  | arr (xs : List Json)
  | obj (kvs : List (String × Json))
  deriving Inhabited

namespace Json

mutual

/-- Equality of values is decided by structural recursion. -/
def decEq : (a b : Json) → Decidable (a = b)
  | .null, .null => isTrue rfl
  | .bool a, .bool b => decidable_of_iff (a = b) (by simp)
  | .int a, .int b => decidable_of_iff (a = b) (by simp)
  | .float a, .float b => decidable_of_iff (a = b) (by simp)
  | .str a, .str b => decidable_of_iff (a = b) (by simp)
  | .arr a, .arr b =>
      match decEqList a b with
      | isTrue h => isTrue (by rw [h])
      | isFalse h => isFalse (fun e => h (by injection e))
  | .obj a, .obj b =>
      match decEqFields a b with
      | isTrue h => isTrue (by rw [h])
      | isFalse h => isFalse (fun e => h (by injection e))
  | .null, .bool _ | .null, .int _ | .null, .float _ | .null, .str _ | .null, .arr _
  | .null, .obj _ => isFalse nofun
  | .bool _, .null | .bool _, .int _ | .bool _, .float _ | .bool _, .str _
  | .bool _, .arr _ | .bool _, .obj _ => isFalse nofun
  | .int _, .null | .int _, .bool _ | .int _, .float _ | .int _, .str _ | .int _, .arr _
  | .int _, .obj _ => isFalse nofun
  | .float _, .null | .float _, .bool _ | .float _, .int _ | .float _, .str _
  | .float _, .arr _ | .float _, .obj _ => isFalse nofun
  | .str _, .null | .str _, .bool _ | .str _, .int _ | .str _, .float _ | .str _, .arr _
  | .str _, .obj _ => isFalse nofun
  | .arr _, .null | .arr _, .bool _ | .arr _, .int _ | .arr _, .float _ | .arr _, .str _
  | .arr _, .obj _ => isFalse nofun
  | .obj _, .null | .obj _, .bool _ | .obj _, .int _ | .obj _, .float _ | .obj _, .str _
  | .obj _, .arr _ => isFalse nofun

def decEqList : (a b : List Json) → Decidable (a = b)
  | [], [] => isTrue rfl
  | [], _ :: _ => isFalse nofun
  | _ :: _, [] => isFalse nofun
  | x :: xs, y :: ys =>
      match decEq x y, decEqList xs ys with
      | isTrue hx, isTrue hs => isTrue (by rw [hx, hs])
      | isFalse hx, _ => isFalse (fun e => hx (by injection e))
      | _, isFalse hs => isFalse (fun e => hs (by injection e))

def decEqFields : (a b : List (String × Json)) → Decidable (a = b)
  | [], [] => isTrue rfl
  | [], _ :: _ => isFalse nofun
  | _ :: _, [] => isFalse nofun
  | (k, x) :: xs, (l, y) :: ys =>
      match decEq x y, decEqFields xs ys with
      | isTrue hx, isTrue hs =>
          if hk : k = l then isTrue (by rw [hk, hx, hs])
          else isFalse (fun e => hk (by injection e with e _; injection e))
      | isFalse hx, _ => isFalse (fun e => hx (by injection e with e _; injection e))
      | _, isFalse hs => isFalse (fun e => hs (by injection e))

end

instance : DecidableEq Json := decEq

/-! ## §2. Truth and text. -/

/-- `bool(value)`. -/
def truthy : Json → Bool
  | .null => false
  | .bool b => b
  | .int n => n ≠ 0
  | .float x => x.value ≠ .finite 0
  | .str s => s ≠ ""
  | .arr xs => xs ≠ []
  | .obj kvs => kvs ≠ []

/-- The hexadecimal digits of a code below 256. -/
def hex2 (n : Nat) : List Char :=
  [Nat.digitChar (n / 16), Nat.digitChar (n % 16)]

/-- One character of a quoted text.  Of the characters that do not print only
those below U+0100 are escaped here; the ones from there on (U+200B, U+2028,
private use) stay as they are. -/
def reprChar (quote c : Char) : List Char :=
  if c = '\\' then ['\\', '\\']
  else if c = quote then ['\\', quote]
  else if c = '\n' then ['\\', 'n']
  else if c = '\r' then ['\\', 'r']
  else if c = '\t' then ['\\', 't']
  else if c.toNat < 32 ∨ (127 ≤ c.toNat ∧ c.toNat ≤ 160) ∨ c.toNat = 173 then
    '\\' :: 'x' :: hex2 c.toNat
  else [c]

/-- `repr` of a text: single quotes unless only those occur inside. -/
def reprStr (s : String) : String :=
  let cs := s.toList
  let quote := if '\'' ∈ cs ∧ '"' ∉ cs then '"' else '\''
  String.ofList (quote :: (cs.flatMap (reprChar quote) ++ [quote]))

mutual

/-- `repr(value)`. -/
def repr : Json → String
  | .null => "None"
  | .bool true => "True"
  | .bool false => "False"
  | .int n => toString n
  | .float x => x.text
  | .str s => reprStr s
  | .arr xs => "[" ++ String.intercalate ", " (reprList xs) ++ "]"
  | .obj kvs => "\x7b" ++ String.intercalate ", " (reprFields kvs) ++ "\x7d"

def reprList : List Json → List String
  | [] => []
  | x :: xs => repr x :: reprList xs

def reprFields : List (String × Json) → List String
  | [] => []
  | (k, x) :: kvs => (reprStr k ++ ": " ++ repr x) :: reprFields kvs

end

/-- `str(value)`: a text is itself, every other value its `repr`. -/
def asStr : Json → String
  | .str s => s
  | v => v.repr

@[simp] theorem asStr_str (s : String) : (Json.str s).asStr = s := rfl

@[simp] theorem truthy_str (s : String) : (Json.str s).truthy = decide (s ≠ "") := rfl

end Json

/-! ## §3. Dictionaries. -/

/-- A dictionary with text keys, in insertion order. -/
abbrev Dict := List (String × Json)

namespace Dict

/-- `d.get(k)`. -/
def get? (d : Dict) (k : String) : Option Json := List.lookup k d

/-- `{**d, k: v}`. -/
def set (d : Dict) (k : String) (v : Json) : Dict :=
  if (d.get? k).isSome then d.map (fun kv => if kv.1 = k then (k, v) else kv)
  else d ++ [(k, v)]

/-- `{**d, **e}`. -/
def merge (d e : Dict) : Dict := e.foldl (fun acc kv => acc.set kv.1 kv.2) d

/-- `str(d.get(k) or default)`. -/
def getStr (d : Dict) (k : String) (default : String) : String :=
  match d.get? k with
  | some v => if v.truthy then v.asStr else default
  | none => default

/-- The text under a key, where the key is present and its value is true. -/
def text? (d : Dict) (k : String) : Option String :=
  ((d.get? k).filter Json.truthy).map Json.asStr

theorem getStr_eq (d : Dict) (k default : String) :
    d.getStr k default = (d.text? k).getD default := by
  unfold getStr text?
  cases d.get? k with
  | none => rfl
  | some v => cases hv : v.truthy <;> simp [hv, Option.filter]

/-- `str(d.get(k, default))`. -/
def strOr (d : Dict) (k : String) (default : String) : String :=
  match d.get? k with
  | some v => v.asStr
  | none => default

/-- `bool(d.get(k))`. -/
def has (d : Dict) (k : String) : Bool :=
  match d.get? k with
  | some v => v.truthy
  | none => false

@[simp] theorem get?_nil (k : String) : get? [] k = none := rfl

theorem get?_cons (kv : String × Json) (d : Dict) (k : String) :
    get? (kv :: d) k = if k = kv.1 then some kv.2 else get? d k := by
  obtain ⟨l, v⟩ := kv
  unfold get?
  rw [List.lookup_cons]
  by_cases h : k = l
  · simp [h]
  · have hb : (k == l) = false := beq_eq_false_iff_ne.mpr h
    simp [h, hb]

theorem get?_append_single (d : Dict) (l : String) (v : Json) (k : String)
    (h : d.get? l = none) :
    get? (d ++ [(l, v)]) k = if k = l then some v else d.get? k := by
  induction d with
  | nil => simp [get?_cons]
  | cons kv d ih =>
    rw [get?_cons] at h
    rw [List.cons_append, get?_cons, get?_cons]
    by_cases hl : l = kv.1
    · simp [hl] at h
    · rw [if_neg hl] at h
      by_cases hk : k = kv.1
      · have hne : k ≠ l := fun e => hl (e ▸ hk)
        simp [hk, hk ▸ hne]
      · rw [if_neg hk, if_neg hk, ih h]

theorem get?_replace (d : Dict) (l : String) (v : Json) (k : String) :
    get? (d.map (fun kv => if kv.1 = l then (l, v) else kv)) k
      = if k = l then (d.get? k).map (fun _ => v) else d.get? k := by
  induction d with
  | nil => simp
  | cons kv d ih =>
    rw [List.map_cons, get?_cons, get?_cons, ih]
    by_cases hl : kv.1 = l <;> by_cases hk : k = kv.1 <;> grind

/-- **What every look-up sees after a key was set.** -/
theorem get?_set (d : Dict) (l : String) (v : Json) (k : String) :
    (d.set l v).get? k = if k = l then some v else d.get? k := by
  unfold set
  cases h : d.get? l with
  | none =>
    simp only [Option.isSome_none, Bool.false_eq_true, if_false]
    exact get?_append_single d l v k h
  | some w =>
    simp only [Option.isSome_some, if_true]
    rw [get?_replace]
    by_cases hk : k = l
    · subst hk
      simp [h]
    · simp [hk]

@[simp] theorem get?_set_self (d : Dict) (k : String) (v : Json) :
    (d.set k v).get? k = some v := by
  simp [get?_set]

theorem get?_set_of_ne (d : Dict) {l k : String} (v : Json) (h : k ≠ l) :
    (d.set l v).get? k = d.get? k := by
  simp [get?_set, h]

theorem getStr_set_of_ne (d : Dict) {l k : String} (v : Json) (default : String) (h : k ≠ l) :
    (d.set l v).getStr k default = d.getStr k default := by
  unfold getStr
  rw [get?_set_of_ne d v h]

end Dict

end Hmn.Framework
