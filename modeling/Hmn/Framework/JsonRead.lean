/-
  Hmn.Framework.JsonRead — reading JSON documents, with the reason why one is
  not read.

  A document that is no JSON raises `JSONDecodeError`; an integer of too many
  digits raises the `ValueError` of its conversion, as soon as the scanner
  comes to it.
-/
import Hmn.Framework.Json
import Hmn.Framework.JsonText

namespace Hmn.Framework.JsonText

/-! ## §1. Reading. -/

inductive Failure where
  /-- `JSONDecodeError`. -/
  | decode
  /-- The `ValueError` of `int` on so many digits. -/
  | digits (n : Nat)
  deriving DecidableEq

/-- A scan that can only fail on the syntax. -/
def orDecode {α : Type} : Option α → Except Failure α
  | some a => .ok a
  | none => .error .decode

/-- A number. -/
def readNumber (cs : List Char) : Except Failure (Value × List Char) := do
  let (negative, rest) : Bool × List Char :=
    match cs with
    | '-' :: rest => (true, rest)
    | rest => (false, rest)
  let (digits, rest) ← orDecode (scanInteger rest)
  let (fraction, rest) := scanFraction rest
  let (exponent, rest) := scanExponent rest
  if fraction.isEmpty && exponent.isEmpty then
    if Text.maxDigits < digits.length then .error (.digits digits.length)
    else return (.int (if negative then -(decimal digits : Int) else decimal digits), rest)
  else
    return (.float ((if negative then ['-'] else []) ++ digits ++ fraction ++ exponent), rest)

mutual

/-- `scan_once`. -/
def readOnce : Nat → List Char → Except Failure (Value × List Char)
  | 0, _ => .error .decode
  | _ + 1, [] => .error .decode
  | n + 1, c :: cs =>
    if c = '"' then do
      let (text, cs) ← orDecode (scanText cs)
      return (.str text, cs)
    else if c = '\x7b' then
      match skipSpace cs with
      | '\x7d' :: cs => .ok (.obj [], cs)
      | cs => do
        let (members, cs) ← readMembers n cs
        return (.obj members, cs)
    else if c = '[' then
      match skipSpace cs with
      | ']' :: cs => .ok (.arr [], cs)
      | cs => do
        let (elements, cs) ← readElements n cs
        return (.arr elements, cs)
    else
      match scanWord (c :: cs) with
      | some word => .ok word
      | none => readNumber (c :: cs)

/-- The members of an object, up to its closing brace. -/
def readMembers : Nat → List Char → Except Failure (List (CodePoints × Value) × List Char)
  | n + 1, '"' :: cs => do
    let (name, cs) ← orDecode (scanText cs)
    match skipSpace cs with
    | ':' :: cs =>
      let (value, cs) ← readOnce n (skipSpace cs)
      match skipSpace cs with
      | '\x7d' :: cs => return ([(name, value)], cs)
      | ',' :: cs =>
        let (members, cs) ← readMembers n (skipSpace cs)
        return ((name, value) :: members, cs)
      | _ => .error .decode
    | _ => .error .decode
  | _, _ => .error .decode

/-- The elements of an array, up to its closing bracket. -/
def readElements : Nat → List Char → Except Failure (List Value × List Char)
  | 0, _ => .error .decode
  | n + 1, cs => do
    let (value, cs) ← readOnce n cs
    match skipSpace cs with
    | ']' :: cs => return ([value], cs)
    | ',' :: cs =>
      let (elements, cs) ← readElements n (skipSpace cs)
      return (value :: elements, cs)
    | _ => .error .decode

end

/-- `json.loads`. -/
def read (text : String) : Except Failure Value := do
  let cs := text.toList
  let (value, rest) ← readOnce (2 * cs.length + 2) (skipSpace cs)
  if (skipSpace rest).isEmpty then return value else .error .decode

/-! ## §2. What was read, as a dynamic value. -/

/-- A text without halves of surrogate pairs. -/
def toText? (s : CodePoints) : Option String :=
  (s.mapM fun (n : Nat) => if n.isValidChar then some (Char.ofNat n) else none).map String.ofList

/-- A text without surrogates is one. -/
theorem toText?_codePoints (s : String) : toText? (codePoints s) = some s := by
  have hchars (cs : List Char) :
      (cs.map Char.toNat).mapM (fun (n : Nat) => if n.isValidChar then some (Char.ofNat n) else none)
        = some cs := by
    induction cs with
    | nil => rfl
    | cons c cs ih =>
      have hc : c.toNat.isValidChar := c.valid
      rw [List.map_cons, List.mapM_cons, if_pos hc, ih, Char.ofNat_toNat]
      rfl
  rw [toText?, codePoints, hchars, Option.map_some, String.ofList_toList]

mutual

/-- The value a document decodes to, when its texts are texts; `floatOf`
reads the literal of a double. -/
def toJson? (floatOf : List Char → PyFloat) : Value → Option Json
  | .null => some .null
  | .bool b => some (.bool b)
  | .int n => some (.int n)
  | .float literal => some (.float (floatOf literal))
  | .str s => (toText? s).map .str
  | .arr xs => (toJsonList? floatOf xs).map .arr
  | .obj members => (toJsonFields? floatOf members).map fun kvs => .obj (Dict.merge [] kvs)

def toJsonList? (floatOf : List Char → PyFloat) : List Value → Option (List Json)
  | [] => some []
  | x :: xs => do
    let v ← toJson? floatOf x
    let vs ← toJsonList? floatOf xs
    return v :: vs

def toJsonFields? (floatOf : List Char → PyFloat) :
    List (CodePoints × Value) → Option (List (String × Json))
  | [] => some []
  | (k, x) :: kvs => do
    let name ← toText? k
    let v ← toJson? floatOf x
    let vs ← toJsonFields? floatOf kvs
    return (name, v) :: vs

end

/-- `bool(value)`. -/
def Value.truthy (floatOf : List Char → PyFloat) : Value → Bool
  | .null => false
  | .bool b => b
  | .int n => n ≠ 0
  | .float literal => (floatOf literal).value ≠ .finite 0
  | .str s => !s.isEmpty
  | .arr xs => !xs.isEmpty
  | .obj members => !members.isEmpty

/-- `type(value).__name__`. -/
def Value.typeName : Value → String
  | .null => "NoneType"
  | .bool _ => "bool"
  | .int _ => "int"
  | .float _ => "float"
  | .str _ => "str"
  | .arr _ => "list"
  | .obj _ => "dict"

end Hmn.Framework.JsonText
