/-
  Hmn.Docs.Redact — taking secrets out of what is written or shown.

  Three patterns find assignments, members and headers with a telling name
  in a text; in a structured value the members with a telling name are
  dropped, and every other text goes through the patterns.  The model is
  `docs_generate._redact_text` and `_sanitize_value`.

  Which characters outside ASCII are letters or digits decides where a word
  ends; `alnum` is that table.
-/
import Hmn.Framework.Json
import Hmn.Framework.Lines
import Hmn.Framework.Matching

namespace Hmn

open Framework Framework.Regex

/-! ## §1. Characters without regard to case. -/

/-- A letter that matches `c`, a lower-case letter of ASCII, in either case. -/
def sameLetter (c x : Char) : Bool :=
  x.toLower = c
    || match c with
      | 'i' => x.toNat = 0x130 || x.toNat = 0x131
      | 'k' => x.toNat = 0x212A
      | 's' => x.toNat = 0x17F
      | _ => false

/-- The characters of `s` in either case. -/
def ignoreCase (s : String) : Regex := all (s.toList.map fun c => .one (sameLetter c))

/-- `[a-z0-9_-]`, in either case. -/
def isNameChar (x : Char) : Bool :=
  isAlnum x || x = '_' || x = '-' || x.toNat = 0x130 || x.toNat = 0x131 || x.toNat = 0x17F
    || x.toNat = 0x212A

/-- A character of a word, for `\b`. -/
def isWordChar (alnum : Char → Bool) (x : Char) : Bool := alnum x || x = '_'

/-! ## §2. The patterns. -/

/-- `[a-z0-9_-]*(?:token|password|api[_-]?key|secret)[a-z0-9_-]*`. -/
def sensitiveName : Regex :=
  all [
    .star isNameChar,
    any (ignoreCase "token") [
      ignoreCase "password",
      all [ignoreCase "api", opt (.one fun c => c = '_' || c = '-'), ignoreCase "key"],
      ignoreCase "secret"],
    .star isNameChar]

/-- `SENSITIVE_KEY_PATTERN`. -/
def sensitiveKeyPattern (alnum : Char → Bool) : Regex :=
  all [
    .boundary (isWordChar alnum), group 1 sensitiveName, .star Text.isSpace, lit "=",
    .star Text.isSpace, group 2 (plus fun c => !(Text.isSpace c || c = ',' || c = ';'))]

/-- `SENSITIVE_JSON_KEY_PATTERN`. -/
def sensitiveJsonKeyPattern : Regex :=
  all [
    group 1 (all [opt (lit "\""), sensitiveName, opt (lit "\""), .star Text.isSpace, lit ":",
      .star Text.isSpace]),
    group 2 (any (all [lit "\"", .star (· ≠ '"'), lit "\""])
      [plus fun c => !(c = ',' || c = '\x7d' || c = ']')])]

/-- `SENSITIVE_HEADERS_PATTERN`. -/
def sensitiveHeadersPattern (alnum : Char → Bool) : Regex :=
  all [
    .boundary (isWordChar alnum),
    group 1 (any (ignoreCase "authorization") [ignoreCase "bearer", ignoreCase "passwd",
      ignoreCase "pwd"]),
    .boundary (isWordChar alnum), .star Text.isSpace, .one (fun c => c = ':' || c = '='),
    .star Text.isSpace, group 2 (plus fun c => !(c = ',' || c = ';' || c = '\n'))]

def redacted : String := "[REDACTED]"

/-- `_redact_text`. -/
def redactText (alnum : Char → Bool) (text : String) : String :=
  let value := (sensitiveKeyPattern alnum).sub (fun _ => redacted.toList) text
  let value := sensitiveJsonKeyPattern.sub (fun found => found.group 1 ++ redacted.toList) value
  (sensitiveHeadersPattern alnum).sub
    (fun found => found.group 1 ++ ": ".toList ++ redacted.toList) value

/-- `_is_sensitive_key`. -/
def isSensitiveKey (key : String) : Bool :=
  let normalized := (Text.lower key).toList.map fun c => if c = '-' then '_' else c
  ["token", "password", "api_key", "secret", "passwd", "pwd"].any fun marker =>
    Text.infixChars marker.toList normalized

/-! ## §3. Values. -/

mutual

/-- `_sanitize_value`. -/
def sanitizeValue (alnum : Char → Bool) : Json → Json
  | .obj kvs => .obj (sanitizeFields alnum kvs)
  | .arr xs => .arr (sanitizeList alnum xs)
  | .str s => .str (redactText alnum s)
  | v => v

def sanitizeList (alnum : Char → Bool) : List Json → List Json
  | [] => []
  | x :: xs => sanitizeValue alnum x :: sanitizeList alnum xs

def sanitizeFields (alnum : Char → Bool) : List (String × Json) → List (String × Json)
  | [] => []
  | (key, item) :: kvs =>
    (key, if isSensitiveKey key then .str redacted else sanitizeValue alnum item)
      :: sanitizeFields alnum kvs

end

example : redactText isAlnum "DB_PASSWORD = hunter2, port=1" = "[REDACTED], port=1"
    ∧ redactText isAlnum "\x7b\"api-key\": \"x\"\x7d" = "\x7b\"api-key\": [REDACTED]\x7d"
    ∧ redactText isAlnum "Authorization: Bearer abc" = "Authorization: [REDACTED]" := by
  decide +kernel

/-! ## §4. Texts that stay. -/

/-- **A text without `=` and `:` stays as it is.** -/
theorem redactText_eq_self (alnum : Char → Bool) {text : String}
    (h : ∀ c ∈ text.toList, c ≠ '=' ∧ c ≠ ':') : redactText alnum text = text := by
  have hkey : (sensitiveKeyPattern alnum).Needs (· = '=') :=
    needs_all (r := lit "=") (by simp) (needs_lit (c := '=') (by decide) rfl)
  have hjson : sensitiveJsonKeyPattern.Needs (· = ':') := by
    refine needs_all List.mem_cons_self ?_
    exact needs_all (r := lit ":") (by simp) (needs_lit (c := ':') (by decide) rfl)
  have hheaders : (sensitiveHeadersPattern alnum).Needs (fun c => c = ':' ∨ c = '=') := by
    refine needs_all (r := .one (fun c => c = ':' || c = '=')) (by simp) (fun c hc => ?_)
    simpa using hc
  rw [redactText, sub_eq_self hkey fun c hc => (h c hc).1, sub_eq_self hjson fun c hc => (h c hc).2]
  refine sub_eq_self hheaders (fun c hc => ?_) _
  rintro (hcolon | hequals)
  · exact (h c hc).2 hcolon
  · exact (h c hc).1 hequals

theorem sanitizeList_eq_map (alnum : Char → Bool) (xs : List Json) :
    sanitizeList alnum xs = xs.map (sanitizeValue alnum) := by
  induction xs with
  | nil => rfl
  | cons x xs ih => rw [sanitizeList, ih, List.map_cons]

end Hmn
