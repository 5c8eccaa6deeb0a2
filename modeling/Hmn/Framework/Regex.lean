/-
  Hmn.Framework.Regex — regular expressions as a backtracking engine runs
  them.

  A pattern is run against a cursor with what is to be matched after it, so
  that alternatives and repetitions are tried in the order of the engine and
  the first way to match counts.  Repetitions are of single characters: that
  is all the patterns of the program repeat without a bound.
-/
import Hmn.Framework.Text

namespace Hmn.Framework

/-! ## §1. Patterns. -/

inductive Regex where
  | eps
  | one (p : Char → Bool)
  /-- `p*`, as many as possible first. -/
  | star (p : Char → Bool)
  /-- `p*?`, as few as possible first. -/
  | starLazy (p : Char → Bool)
  | seq (r s : Regex)
  /-- `r|s`, `r` first. -/
  | alt (r s : Regex)
  | group (i : Nat) (r : Regex)
  /-- `\b`, between a character of a word and one that is none. -/
  | boundary (word : Char → Bool)
  /-- `$`: the end, or a newline that is the end. -/
  | dollar

namespace Regex

/-- The characters of `s`, one after the other. -/
def chars : List Char → Regex
  | [] => eps
  | c :: cs => seq (one (· = c)) (chars cs)

def lit (s : String) : Regex := chars s.toList

/-- `p+`. -/
def plus (p : Char → Bool) : Regex := seq (one p) (star p)

/-- `r?`. -/
def opt (r : Regex) : Regex := alt r eps

/-- `p{0,n}`. -/
def upTo (p : Char → Bool) : Nat → Regex
  | 0 => eps
  | n + 1 => opt (seq (one p) (upTo p n))

/-- `r₁r₂…`. -/
def all : List Regex → Regex
  | [] => eps
  | r :: rs => seq r (all rs)

/-- `r₁|r₂|…`, of at least one. -/
def any : Regex → List Regex → Regex
  | r, [] => r
  | r, s :: rs => alt r (any s rs)

/-- `\d`. -/
def isDigit (c : Char) : Bool := (Text.digitValue c).isSome

/-- `[A-Za-z0-9]`. -/
def isAlnum (c : Char) : Bool :=
  let n := c.toNat
  (48 ≤ n && n ≤ 57) || (65 ≤ n && n ≤ 90) || (97 ≤ n && n ≤ 122)

/-! ## §2. Running a pattern. -/

/-- A place in a text: the character before it, the characters after it and
the groups matched on the way. -/
structure Cursor where
  prev : Option Char
  rest : List Char
  groups : List (Nat × List Char)

/-- `p*`, followed by `k`. -/
def runStar (p : Char → Bool) (k : Cursor → Option Cursor) (groups : List (Nat × List Char)) :
    Option Char → List Char → Option Cursor
  | prev, [] => k ⟨prev, [], groups⟩
  | prev, c :: cs =>
    if p c then runStar p k groups (some c) cs <|> k ⟨prev, c :: cs, groups⟩
    else k ⟨prev, c :: cs, groups⟩

/-- `p*?`, followed by `k`. -/
def runStarLazy (p : Char → Bool) (k : Cursor → Option Cursor) (groups : List (Nat × List Char)) :
    Option Char → List Char → Option Cursor
  | prev, [] => k ⟨prev, [], groups⟩
  | prev, c :: cs =>
    k ⟨prev, c :: cs, groups⟩
      <|> if p c then runStarLazy p k groups (some c) cs else none

/-- The pattern at the cursor, followed by `k`. -/
def run : Regex → Cursor → (Cursor → Option Cursor) → Option Cursor
  | .eps, cur, k => k cur
  | .one p, cur, k =>
    match cur.rest with
    | [] => none
    | c :: cs => if p c then k ⟨some c, cs, cur.groups⟩ else none
  | .star p, cur, k => runStar p k cur.groups cur.prev cur.rest
  | .starLazy p, cur, k => runStarLazy p k cur.groups cur.prev cur.rest
  | .seq r s, cur, k => r.run cur fun cur => s.run cur k
  | .alt r s, cur, k => r.run cur k <|> s.run cur k
  | .group i r, cur, k =>
    r.run cur fun stop =>
      k { stop with
        groups := (i, cur.rest.take (cur.rest.length - stop.rest.length)) :: stop.groups }
  | .boundary word, cur, k =>
    if (cur.prev.any word) ≠ (cur.rest.head?.any word) then k cur else none
  | .dollar, cur, k => if cur.rest = [] ∨ cur.rest = ['\n'] then k cur else none

/-! ## §3. Looking for matches. -/

/-- A match: what was skipped before it, its text, and the cursor behind it. -/
structure Found where
  skipped : List Char
  text : List Char
  stop : Cursor

/-- `match.group(i)`. -/
def Found.group (f : Found) (i : Nat) : List Char := (f.stop.groups.lookup i).getD []

/-- `pattern.match` at a place. -/
def matchAt (r : Regex) (prev : Option Char) (cs : List Char) : Option Found :=
  (r.run ⟨prev, cs, []⟩ some).map fun stop =>
    { skipped := [], text := cs.take (cs.length - stop.rest.length), stop := stop }

/-- The first match in a text. -/
def find (r : Regex) : Option Char → List Char → Option Found
  | prev, [] => r.matchAt prev []
  | prev, c :: cs =>
    r.matchAt prev (c :: cs)
      <|> (find r (some c) cs).map fun f => { f with skipped := c :: f.skipped }

/-- The matches in a text, from left to right, each behind the one before.
For patterns that do not match the empty text. -/
def findFrom (r : Regex) : Nat → Option Char → List Char → List Found
  | 0, _, _ => []
  | n + 1, prev, cs =>
    match r.find prev cs with
    | none => []
    | some f => f :: findFrom r n f.stop.prev f.stop.rest

/-- `pattern.search(s)`. -/
def search (r : Regex) (s : String) : Option Found := r.find none s.toList

/-- `pattern.finditer(s)`. -/
def findAll (r : Regex) (s : String) : List Found :=
  r.findFrom (s.toList.length + 1) none s.toList

/-- `pattern.match(s)` is not `None`. -/
def matches_ (r : Regex) (s : String) : Bool := (r.matchAt none s.toList).isSome

/-- What a text becomes when its matches are replaced. -/
def replaceFrom (r : Regex) (f : Found → List Char) : Nat → Option Char → List Char → List Char
  | 0, _, cs => cs
  | n + 1, prev, cs =>
    match r.find prev cs with
    | none => cs
    | some m => m.skipped ++ f m ++ replaceFrom r f n m.stop.prev m.stop.rest

/-- `pattern.sub(f, s)`. -/
def sub (r : Regex) (f : Found → List Char) (s : String) : String :=
  String.ofList (r.replaceFrom f (s.toList.length + 1) none s.toList)

example : (findAll (all [one (· = ':'), group 1 (plus isDigit)]) "a:80, b:8080").map
      (fun f => String.ofList (f.group 1)) = ["80", "8080"]
    ∧ sub (plus (fun c => !isAlnum c)) (fun _ => ['-']) "a  b/c" = "a-b-c"
    ∧ (search (seq (lit "a") (seq (starLazy fun _ => true) (lit "b"))) "xaybzb").map
      (fun f => String.ofList f.text) = some "ayb" := by
  decide +kernel

end Regex

end Hmn.Framework
