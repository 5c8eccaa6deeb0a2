/-
  Hmn.Framework.Masking — values that agree but under hidden names.

  Two values agree but under the hidden names when they are one value once
  every member with a hidden name is blanked.  A redactor that replaces those
  members and rewrites texts cannot tell them apart (`redactBy_congr`).
-/
import Hmn.Framework.Json

namespace Hmn.Framework.Json

variable (hidden : String → Bool)

mutual

/-- A value with every member of a hidden name blanked, at any depth. -/
def mask : Json → Json
  | .obj kvs => .obj (maskFields kvs)
  | .arr xs => .arr (maskList xs)
  | v => v

def maskList : List Json → List Json
  | [] => []
  | x :: xs => mask x :: maskList xs

def maskFields : List (String × Json) → List (String × Json)
  | [] => []
  | (k, x) :: kvs => (k, if hidden k then .null else mask x) :: maskFields kvs

end

/-- Equal except for the values under hidden names. -/
def EqualBut (v w : Json) : Prop := v.mask hidden = w.mask hidden

instance (v w : Json) : Decidable (EqualBut hidden v w) := inferInstanceAs (Decidable (_ = _))

section Redact

variable (mark : String) (text : String → String)

mutual

/-- A value with `mark` under every hidden name and every other text rewritten. -/
def redactBy : Json → Json
  | .obj kvs => .obj (redactFieldsBy kvs)
  | .arr xs => .arr (redactListBy xs)
  | .str s => .str (text s)
  | v => v

def redactListBy : List Json → List Json
  | [] => []
  | x :: xs => redactBy x :: redactListBy xs

def redactFieldsBy : List (String × Json) → List (String × Json)
  | [] => []
  | (k, x) :: kvs => (k, if hidden k then .str mark else redactBy x) :: redactFieldsBy kvs

end

mutual

theorem redactBy_mask : (v : Json) →
    (v.mask hidden).redactBy hidden mark text = v.redactBy hidden mark text
  | .obj kvs => by rw [mask, redactBy, redactBy, redactFieldsBy_maskFields kvs]
  | .arr xs => by rw [mask, redactBy, redactBy, redactListBy_maskList xs]
  | .null | .bool _ | .int _ | .float _ | .str _ => rfl

theorem redactListBy_maskList : (xs : List Json) →
    redactListBy hidden mark text (maskList hidden xs) = redactListBy hidden mark text xs
  | [] => rfl
  | x :: xs => by
    rw [maskList, redactListBy, redactListBy, redactBy_mask x, redactListBy_maskList xs]

theorem redactFieldsBy_maskFields : (kvs : List (String × Json)) →
    redactFieldsBy hidden mark text (maskFields hidden kvs) = redactFieldsBy hidden mark text kvs
  | [] => rfl
  | (k, x) :: kvs => by
    rw [maskFields, redactFieldsBy, redactFieldsBy, redactFieldsBy_maskFields kvs]
    by_cases hk : hidden k = true
    · rw [if_pos hk, if_pos hk]
    · rw [if_neg hk, if_neg hk, if_neg hk, redactBy_mask x]

end

/-- **Redacted, values that agree but under hidden names are equal.** -/
theorem redactBy_congr {v w : Json} (h : EqualBut hidden v w) :
    v.redactBy hidden mark text = w.redactBy hidden mark text := by
  rw [← redactBy_mask hidden mark text v, h, redactBy_mask]

end Redact

@[simp] theorem maskFields_eq_nil {kvs : List (String × Json)} :
    maskFields hidden kvs = [] ↔ kvs = [] := by
  cases kvs <;> simp [maskFields]

end Hmn.Framework.Json
