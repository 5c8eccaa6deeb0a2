/-
  Hmn.Framework.JsonIndent — documents written for readers: indented, the
  members of every object in the order of their keys.
-/
import Hmn.Framework.JsonText
import Hmn.Framework.SortKeys
import Hmn.Framework.Text

namespace Hmn.Framework.Json

/-- The number of a float in a document. -/
def floatText (x : PyFloat) : String :=
  match x.value with
  | .nan => "NaN"
  | .posInf => "Infinity"
  | .negInf => "-Infinity"
  | .finite _ => x.text

/-- A new line, two blanks a level. -/
def newLine (level : Nat) : String := String.ofList ('\n' :: List.replicate (2 * level) ' ')

/-- Lines between brackets. -/
def block (level : Nat) (open_ close : String) : List String → String
  | [] => open_ ++ close
  | lines => open_ ++ newLine (level + 1) ++ Text.join ("," ++ newLine (level + 1)) lines
      ++ newLine level ++ close

mutual

def indented (level : Nat) : Json → String
  | .null => "null"
  | .bool true => "true"
  | .bool false => "false"
  | .int n => toString n
  | .float x => floatText x
  | .str s => String.ofList (JsonText.dumpsText s)
  | .arr xs => block level "[" "]" (indentedList (level + 1) xs)
  | .obj kvs => block level "\x7b" "\x7d" (indentedFields (level + 1) kvs)

def indentedList (level : Nat) : List Json → List String
  | [] => []
  | x :: xs => indented level x :: indentedList level xs

def indentedFields (level : Nat) : List (String × Json) → List String
  | [] => []
  | (k, x) :: kvs => (String.ofList (JsonText.dumpsText k) ++ ": " ++ indented level x)
      :: indentedFields level kvs

end

/-- `json.dumps(value, ensure_ascii=False, indent=2, sort_keys=True)`. -/
def dumpsIndented (value : Json) : String := indented 0 value.sortKeys

example : dumpsIndented (.obj [("b", .arr [.int 1, .obj []]), ("a", .null)])
    = "\x7b\n  \"a\": null,\n  \"b\": [\n    1,\n    \x7b\x7d\n  ]\n\x7d" := by
  decide +kernel

end Hmn.Framework.Json
