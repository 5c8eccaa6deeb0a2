/-
  Hmn.Framework.Shell — how a shell cuts the text of a program into tokens.

  A program text is read character by character.  Words keep their raw text,
  with the quotes and the expansions in it; operators and newlines stand
  outside words.  Reading gives nothing where it meets a command or process
  substitution outside '…' or where the text ends inside a quote.  The reader
  knows

      escapes      \c, and line continuations that vanish
      quotes       '…', "…", $'…', $"…"
      expansions   $x, ${…}, $((…)), $[…]
      comments     from # at the start of a word to the end of the line

  It finds the ends of the words.  What a compound expansion makes of the text
  inside it is another matter, since `${…}`, `$((…))` and `$[…]` take quotes
  that hide a bracket from the reader for ordinary characters later on: whether
  it runs a command is the parameter `Expansion`.

  Main results:

      read_word     what is read after a word has begun starts with that word
      read_spelled  words separated by blanks are read as those words
-/
import Hmn.Framework.Text

namespace Hmn.Framework.Shell

open Text

/-! ## §1. The reader. -/

/-- A token of a program text. -/
inductive Token where
  /-- A word, as it is written. -/
  | word (raw : List Char)
  /-- A character of a control or redirection operator. -/
  | operator (c : Char)
  /-- The end of a line. -/
  | newline
  deriving DecidableEq

/-- What encloses the next character, from the inside out. -/
inductive Enclosure where
  /-- After a backslash. -/
  | escape
  /-- After `#`. -/
  | comment
  /-- In `'…'`. -/
  | single
  /-- In `"…"`. -/
  | double
  /-- In `$'…'`. -/
  | ansi
  /-- After `$`. -/
  | dollar
  /-- After `$(`. -/
  | dollarParen
  /-- In `${…}`. -/
  | brace
  /-- After `<` or `>` in `${…}`. -/
  | angle
  /-- In `$[…]`, or in brackets inside it. -/
  | bracket
  /-- In `$((…))`. -/
  | arithmetic
  /-- In parentheses inside `$((…))`. -/
  | paren
  /-- Between the two parentheses that close `$((…))`. -/
  | closing
  deriving DecidableEq

/-- The state of the reader: the enclosures, and the word it is in. -/
structure State where
  stack : List Enclosure := []
  word : Option (List Char) := none
  deriving DecidableEq

/-- What one character does: the tokens it completes, and the state after it. -/
abbrev Outcome := Option (List Token × State)

/-- The characters belong to the current word. -/
def State.add (s : State) (cs : List Char) (stack : List Enclosure) : Outcome :=
  some ([], { stack := stack, word := some (s.word.getD [] ++ cs) })

/-- The current word ends. -/
def State.emit (s : State) : List Token := (s.word.map Token.word).toList

/-- A blank separates words and does nothing else. -/
def isBlank (c : Char) : Bool := c = ' ' || c = '\t'

/-- The metacharacters that are not blanks. -/
def isOperator (c : Char) : Bool := c ∈ [';', '&', '|', '<', '>', '(', ')']

/-- A character outside all enclosures that is no quote. -/
def State.bare (s : State) (c : Char) : Outcome :=
  if isBlank c then some (s.emit, {})
  else if c = '\n' then some (s.emit ++ [.newline], {})
  else if isOperator c then some (s.emit ++ [.operator c], {})
  else if c = '#' ∧ s.word = none then some ([], { stack := [.comment] })
  else s.add [c] []

/-- A character inside an enclosure that is no quote. -/
def State.enclosed (s : State) (c : Char) (top : Enclosure) (stack : List Enclosure) : Outcome :=
  match top, c with
  | .brace, '\x7d' => s.add [c] stack
  | .brace, '<' => s.add [c] (.angle :: .brace :: stack)
  | .brace, '>' => s.add [c] (.angle :: .brace :: stack)
  | .bracket, '[' => s.add [c] (.bracket :: .bracket :: stack)
  | .bracket, ']' => s.add [c] stack
  | .arithmetic, '(' => s.add [c] (.paren :: .arithmetic :: stack)
  | .arithmetic, ')' => s.add [c] (.closing :: stack)
  | .paren, '(' => s.add [c] (.paren :: .paren :: stack)
  | .paren, ')' => s.add [c] stack
  | top, c => s.add [c] (top :: stack)

/-- A character where quotes and expansions may begin. -/
def State.plain (s : State) (c : Char) (stack : List Enclosure) : Outcome :=
  match c with
  | '\\' => some ([], { s with stack := .escape :: stack })
  | '\x60' => none
  | '$' => s.add [c] (.dollar :: stack)
  | '\x22' =>
    match stack with
    | .double :: stack => s.add [c] stack
    | stack => s.add [c] (.double :: stack)
  | '\x27' =>
    -- An expansion inside `"…"` has quotes of its own.
    match stack with
    | .double :: stack => s.add [c] (.double :: stack)
    | stack => s.add [c] (.single :: stack)
  | c =>
    match stack with
    | [] => s.bare c
    | top :: stack => s.enclosed c top stack

/-- Inside `$((…))` and `$[…]` the braces and brackets of an expansion are
ordinary characters, and only the brackets that end it are counted. -/
def counting : List Enclosure → Bool
  | .arithmetic :: _ => true
  | .paren :: _ => true
  | .bracket :: _ => true
  | _ => false

/-- What is left of an unfinished expansion when an ordinary character
follows it. -/
def settle : List Enclosure → Option (List Enclosure)
  | .dollar :: stack => some stack
  | .angle :: stack => some stack
  | .dollarParen :: _ => none
  | .closing :: _ => none
  | stack => some stack

/-- What one character does. -/
def State.step (s : State) (c : Char) : Outcome :=
  match s.stack with
  | .escape :: stack =>
    if c = '\n' ∧ stack.head? ≠ some .ansi then some ([], { s with stack := stack })
    else (settle stack).bind (s.add ['\\', c])
  | .comment :: stack =>
    if c = '\n' then some ([.newline], {}) else some ([], { s with stack := .comment :: stack })
  | .single :: stack => s.add [c] (if c = '\x27' then stack else .single :: stack)
  | .ansi :: stack =>
    if c = '\\' then some ([], { s with stack := .escape :: .ansi :: stack })
    else s.add [c] (if c = '\x27' then stack else .ansi :: stack)
  | .dollar :: stack =>
    match c with
    | '\\' => some ([], { s with stack := .escape :: .dollar :: stack })
    | '(' => s.add [c] (.dollarParen :: stack)
    | '\x7b' => if counting stack then s.plain c stack else s.add [c] (.brace :: stack)
    | '[' => if counting stack then s.plain c stack else s.add [c] (.bracket :: stack)
    | '$' => s.add [c] stack
    | '\x27' =>
      match stack with
      | .double :: stack => s.add [c] (.double :: stack)
      | stack => s.add [c] (.ansi :: stack)
    | c => s.plain c stack
  | .angle :: stack =>
    match c with
    | '\\' => some ([], { s with stack := .escape :: .angle :: stack })
    | '(' => none
    | c => s.plain c stack
  | .dollarParen :: stack =>
    match c with
    | '\\' => some ([], { s with stack := .escape :: .dollarParen :: stack })
    | '(' => s.add [c] (.arithmetic :: stack)
    | _ => none
  | .closing :: stack =>
    match c with
    | '\\' => some ([], { s with stack := .escape :: .closing :: stack })
    | ')' => s.add [c] stack
    | _ => none
  | stack => s.plain c stack

/-- What the end of the text does. -/
def State.finish (s : State) : Option (List Token) :=
  match s.stack with
  | [] | [.comment] | [.dollar] => some s.emit
  | [.escape] | [.escape, .dollar] => some [.word (s.word.getD [] ++ ['\\'])]
  | _ => none

/-- The tokens read from a text, from a state on. -/
def State.read (s : State) : List Char → Option (List Token)
  | [] => s.finish
  | c :: cs => (s.step c).bind fun r => (r.2.read cs).map (r.1 ++ ·)

/-- The tokens of a program text. -/
def tokens (program : List Char) : Option (List Token) := State.read {} program

/-- The lines of the tokens are empty. -/
def EmptyLines (ts : List Token) : Prop := ∀ t ∈ ts, t = .newline

/-- **The program is one simple command** made of the words: no separator, no
redirection, no subshell and no command substitution, but for what a compound
expansion makes of the text inside it.  Empty lines around the command are no
separators, and no program holds a NUL. -/
def SimpleCommand (program : List Char) (words : List (List Char)) : Prop :=
  '\x00' ∉ program ∧ words ≠ [] ∧ ∃ before after, EmptyLines before ∧ EmptyLines after
    ∧ tokens program = some (before ++ words.map .word ++ after)

example : tokens "a \"b;c\" $(( (1) )) # d".toList
    = some [.word ['a'], .word "\"b;c\"".toList, .word "$(( (1) ))".toList]
    ∧ tokens "a `b`".toList = none ∧ tokens "a;b".toList
    = some [.word ['a'], .operator ';', .word ['b']] := by
  decide +kernel

/-- A character that makes a compound expansion, or a translated text, of the
`$` before it. -/
def opensCompound (c : Char) : Bool := c ∈ ['(', '\x7b', '[', '\x22']

/-- The word may hold an expansion that the reader does not look into. -/
def compound : List Char → Bool
  | '$' :: c :: cs => opensCompound c || compound (c :: cs)
  | c :: cs => c = '\x60' || compound cs
  | [] => false

/-- **What the shell makes of the words it has read**: whether expanding a word
runs a command.  A word without a compound expansion runs none. -/
structure Expansion where
  runs : List Char → Prop
  simple : ∀ word, compound word = false → ¬ runs word

-- Each of these is one word to the reader, and the shell runs `a` in all of them.
example : ["$(( '$(a)' ))", "$[ '$(a)' ]", "\"$\x7bx:-$'\\x24(a)'\x7d\""].all (fun text =>
    tokens text.toList = some [.word text.toList] ∧ compound text.toList = true) = true := by
  decide +kernel

-- A quote in an expansion hides its end, a brace in an arithmetic expansion does not.
example : tokens "\"$\x7bx:-'\x7d\"'\x7d\"; a #'".toList
      = some [.word "\"$\x7bx:-'\x7d\"'\x7d\"".toList, .operator ';', .word ['a']]
    ∧ tokens "$(($\x7bx:-)); a #\x7d))".toList
      = some [.word "$(($\x7bx:-))".toList, .operator ';', .word ['a']]
    ∧ tokens "$\x7bx:-<(a)\x7d".toList = none := by
  decide +kernel

/-- An operator is no part of a simple command. -/
theorem SimpleCommand.no_operator {program : List Char} {words : List (List Char)}
    {ts : List Token} (h : SimpleCommand program words) (hts : tokens program = some ts)
    (c : Char) : .operator c ∉ ts := by
  obtain ⟨-, -, before, after, hbefore, hafter, heq⟩ := h
  obtain rfl := Option.some.inj (hts.symm.trans heq)
  intro hmem
  simp only [List.mem_append, List.mem_map] at hmem
  obtain (h | ⟨w, -, h⟩) | h := hmem
  · cases hbefore _ h
  · cases h
  · cases hafter _ h

/-! ## §2. A word goes on until it is complete. -/

/-- The reader is inside the word `w`. -/
def State.InWord (s : State) (w : List Char) : Prop := s.word = some w ∧ .comment ∉ s.stack

/-- The outcome goes on with the word `w`, or completes it. -/
def Continues (w : List Char) (r : Outcome) : Prop :=
  ∀ ts s', r = some (ts, s') →
    (ts = [] ∧ ∃ x, s'.InWord (w ++ x)) ∨ ∃ rest, ts = .word w :: rest

section Word

variable {s : State} {w : List Char}

theorem continues_none : Continues w none := nofun

theorem continues_add (hs : s.word = some w) (cs : List Char) {stack : List Enclosure}
    (hstack : .comment ∉ stack) : Continues w (s.add cs stack) := by
  intro ts s' h
  obtain ⟨rfl, rfl⟩ := Prod.mk.inj (Option.some.inj h)
  exact .inl ⟨rfl, cs, by simp [hs], hstack⟩

theorem continues_keep (hs : s.word = some w) {stack : List Enclosure}
    (hstack : .comment ∉ stack) : Continues w (some ([], { s with stack := stack })) := by
  intro ts s' h
  obtain ⟨rfl, rfl⟩ := Prod.mk.inj (Option.some.inj h)
  exact .inl ⟨rfl, [], by simpa using hs, hstack⟩

theorem continues_emit (hs : s.word = some w) (ts : List Token) (s' : State) :
    Continues w (some (s.emit ++ ts, s')) := by
  intro ts' s'' h
  obtain ⟨rfl, rfl⟩ := Prod.mk.inj (Option.some.inj h)
  exact .inr ⟨ts, by simp [State.emit, hs]⟩

theorem continues_bare (hs : s.word = some w) (c : Char) : Continues w (s.bare c) := by
  unfold State.bare
  split_ifs with h₁ h₂ h₃ h₄
  · simpa using continues_emit hs [] {}
  · exact continues_emit hs _ _
  · exact continues_emit hs _ _
  · rw [hs] at h₄
    cases h₄.2
  · exact continues_add hs _ (List.not_mem_nil)

theorem continues_enclosed (hs : s.word = some w) (c : Char) {top : Enclosure}
    {stack : List Enclosure} (hstack : .comment ∉ top :: stack) :
    Continues w (s.enclosed c top stack) := by
  unfold State.enclosed
  split <;> exact continues_add hs _ (by simp_all)

theorem continues_plain (hs : s.word = some w) (c : Char) {stack : List Enclosure}
    (hstack : .comment ∉ stack) : Continues w (s.plain c stack) := by
  unfold State.plain
  split
  · exact continues_keep hs (by simp [hstack])
  · exact continues_none
  · exact continues_add hs _ (by simp [hstack])
  · split <;> exact continues_add hs _ (by simp_all)
  · split <;> exact continues_add hs _ (by simp [hstack])
  · split
    · exact continues_bare hs c
    · exact continues_enclosed hs c hstack

theorem settle_subset {stack stack' : List Enclosure} (h : settle stack = some stack') :
    stack' ⊆ stack := by
  unfold settle at h
  split at h <;> cases h
  · exact List.subset_cons_self _ _
  · exact List.subset_cons_self _ _
  · exact List.Subset.refl _

theorem continues_step (hs : s.InWord w) (c : Char) : Continues w (s.step c) := by
  obtain ⟨hw, hstack⟩ := hs
  unfold State.step
  -- One case for each construct that may be open at the character.
  split
  next stack heq =>
    have htail : .comment ∉ stack := by simp_all
    split_ifs
    · exact continues_keep hw htail
    · cases hset : settle stack with
      | none => exact continues_none
      | some stack' => exact continues_add hw _ (fun h => htail (settle_subset hset h))
  next stack heq => simp_all
  next stack heq => exact continues_add hw _ (by split_ifs <;> simp_all)
  next stack heq =>
    split_ifs
    · exact continues_keep hw (by simp_all)
    · exact continues_add hw _ (by simp_all)
    · exact continues_add hw _ (by simp_all)
  next stack heq =>
    have htail : .comment ∉ stack := by simp_all
    split
    · exact continues_keep hw (by simp_all)
    · exact continues_add hw _ (by simp_all)
    iterate 2
      split_ifs
      · exact continues_plain hw _ htail
      · exact continues_add hw _ (by simp_all)
    · exact continues_add hw _ htail
    · split <;> exact continues_add hw _ (by simp_all)
    · exact continues_plain hw c htail
  next stack heq =>
    have htail : .comment ∉ stack := by simp_all
    split
    · exact continues_keep hw (by simp_all)
    · exact continues_none
    · exact continues_plain hw c htail
  next stack heq =>
    split
    · exact continues_keep hw (by simp_all)
    · exact continues_add hw _ (by simp_all)
    · exact continues_none
  next stack heq =>
    split
    · exact continues_keep hw (by simp_all)
    · exact continues_add hw _ (by simp_all)
    · exact continues_none
  -- Outside every construct but inside the word.
  next => exact continues_plain hw c hstack

theorem finish_word (hs : s.InWord w) {ts : List Token} (h : s.finish = some ts) :
    ∃ x rest, ts = .word (w ++ x) :: rest := by
  obtain ⟨hw, -⟩ := hs
  unfold State.finish at h
  split at h <;> cases h
  iterate 3 exact ⟨[], [], by simp [State.emit, hw]⟩
  iterate 2 exact ⟨['\\'], [], by simp [hw]⟩

/-- **What is read after a word has begun starts with that word.** -/
theorem read_word (hs : s.InWord w) {cs : List Char} {ts : List Token}
    (h : s.read cs = some ts) : ∃ x rest, ts = .word (w ++ x) :: rest := by
  induction cs generalizing s w ts with
  | nil => exact finish_word hs h
  | cons c cs ih =>
    obtain ⟨⟨ts₁, s'⟩, hstep, h⟩ := Option.bind_eq_some_iff.mp h
    obtain ⟨ts₂, hread, rfl⟩ := Option.map_eq_some_iff.mp h
    obtain ⟨rfl, x, hs'⟩ | ⟨rest, rfl⟩ := continues_step hs c ts₁ s' hstep
    · obtain ⟨y, rest, rfl⟩ := ih hs' hread
      exact ⟨x ++ y, rest, by simp⟩
    · exact ⟨[], rest ++ ts₂, by simp⟩

end Word

/-! ## §3. Plain text. -/

/-- A character that stands for itself in a word. -/
def isPlain (c : Char) : Bool :=
  !isBlank c && c ≠ '\n' && !isOperator c && c ∉ ['\\', '\x60', '$', '\x22', '\x27', '#']

/-- Only blanks. -/
def Blanks (cs : List Char) : Prop := ∀ c ∈ cs, isBlank c = true

/-- Only blanks and line ends. -/
def BlankLines (cs : List Char) : Prop := ∀ c ∈ cs, isBlank c = true ∨ c = '\n'

/-- A text after which no word goes on. -/
def Ends (cs : List Char) : Prop := ∀ c ∈ cs.head?, isBlank c = true ∨ c = '\n'

/-- Words of plain characters. -/
def PlainWords (ws : List (List Char)) : Prop := ∀ w ∈ ws, w ≠ [] ∧ ∀ c ∈ w, isPlain c = true

/-- Words in one line, with blanks between them. -/
inductive Spelled : List (List Char) → List Char → Prop
  | last (w : List Char) : Spelled [w] w
  | cons (w gap line : List Char) (ws : List (List Char)) (hne : gap ≠ []) (hgap : Blanks gap)
      (hline : Spelled ws line) : Spelled (w :: ws) (w ++ (gap ++ line))

/-- Plain characters begin no expansion. -/
theorem compound_plain {w : List Char} (h : ∀ c ∈ w, isPlain c = true) : compound w = false := by
  induction w with
  | nil => rfl
  | cons c w ih =>
    obtain ⟨hc, hw⟩ := List.forall_mem_cons.mp h
    have hdollar : c ≠ '$' := by
      rintro rfl
      exact absurd hc (by decide)
    have hbackquote : c ≠ '\x60' := by
      rintro rfl
      exact absurd hc (by decide)
    unfold compound
    split
    next heq => exact absurd (List.cons.inj heq).1 hdollar
    next heq =>
      obtain ⟨rfl, rfl⟩ := List.cons.inj heq
      rw [ih hw, decide_eq_false hbackquote]
      rfl
    next heq => cases heq

/-- A character that is no blank stands in a line only where it stands in a word. -/
theorem Spelled.not_mem {ws : List (List Char)} {line : List Char} (h : Spelled ws line) {c : Char}
    (hc : isBlank c = false) (hws : ∀ w ∈ ws, c ∉ w) : c ∉ line := by
  induction h with
  | last w => exact hws w List.mem_cons_self
  | cons w gap line ws hne hgap hline ih =>
    obtain ⟨hw, hws⟩ := List.forall_mem_cons.mp hws
    intro hmem
    rcases List.mem_append.mp hmem with hmem | hmem
    · exact hw hmem
    rcases List.mem_append.mp hmem with hmem | hmem
    · rw [hgap c hmem] at hc
      cases hc
    · exact ih hws hmem

/-- The state inside a word of plain characters. -/
def inWord (w : List Char) : State := { word := some w }

theorem inWord_inWord (w : List Char) : (inWord w).InWord w := ⟨rfl, List.not_mem_nil⟩

theorem step_of_stack_nil {s : State} (h : s.stack = []) (c : Char) :
    s.step c = s.plain c [] := by
  unfold State.step
  rw [h]

theorem plain_bare {s : State} {c : Char}
    (h : c ∉ ['\\', '\x60', '$', '\x22', '\x27']) : s.plain c [] = s.bare c := by
  unfold State.plain
  split <;> simp_all

theorem step_blank {s : State} (hs : s.stack = []) {c : Char} (hc : isBlank c = true) :
    s.step c = some (s.emit, {}) := by
  rw [step_of_stack_nil hs, plain_bare, State.bare, if_pos hc]
  unfold isBlank at hc
  grind

theorem step_newline {s : State} (hs : s.stack = []) :
    s.step '\n' = some (s.emit ++ [.newline], {}) := by
  rw [step_of_stack_nil hs, plain_bare (by decide)]
  rfl

theorem step_isPlain {s : State} (hs : s.stack = []) {c : Char} (hc : isPlain c = true) :
    s.step c = s.add [c] [] := by
  simp only [isPlain, Bool.and_eq_true, Bool.not_eq_true', decide_eq_true_eq] at hc
  obtain ⟨⟨⟨hblank, hline⟩, hop⟩, hquote⟩ := hc
  rw [step_of_stack_nil hs, plain_bare (fun h => hquote (List.mem_append_left ['#'] h)),
    State.bare, if_neg (by simp [hblank]), if_neg hline, if_neg (by simp [hop]), if_neg]
  rintro ⟨rfl, -⟩
  exact hquote (by decide)

theorem read_nil : State.read {} [] = some [] := rfl

theorem read_blank {c : Char} (hc : isBlank c = true) (cs : List Char) :
    State.read {} (c :: cs) = State.read {} cs := by
  simp [State.read, step_blank (s := {}) rfl hc, State.emit]

theorem read_newline (cs : List Char) :
    State.read {} ('\n' :: cs) = (State.read {} cs).map (.newline :: ·) := by
  simp [State.read, step_newline (s := {}) rfl, State.emit]

theorem read_plain {c : Char} (hc : isPlain c = true) (cs : List Char) :
    State.read {} (c :: cs) = (inWord [c]).read cs := by
  simp [State.read, step_isPlain (s := {}) rfl hc, State.add, inWord]

theorem read_inWord_plain {w : List Char} {c : Char} (hc : isPlain c = true) (cs : List Char) :
    (inWord w).read (c :: cs) = (inWord (w ++ [c])).read cs := by
  rw [State.read, step_isPlain rfl hc]
  simp [State.add, inWord]

theorem read_inWord_word {v : List Char} (hv : ∀ c ∈ v, isPlain c = true) (w cs : List Char) :
    (inWord w).read (v ++ cs) = (inWord (w ++ v)).read cs := by
  induction v generalizing w with
  | nil => simp
  | cons c v ih =>
    obtain ⟨hc, hv⟩ := List.forall_mem_cons.mp hv
    rw [List.cons_append, read_inWord_plain hc, ih hv, List.append_assoc]
    rfl

theorem read_plainWord {w : List Char} (hne : w ≠ []) (hw : ∀ c ∈ w, isPlain c = true)
    (cs : List Char) : State.read {} (w ++ cs) = (inWord w).read cs := by
  obtain ⟨c, v, rfl⟩ := List.exists_cons_of_ne_nil hne
  obtain ⟨hc, hv⟩ := List.forall_mem_cons.mp hw
  rw [List.cons_append, read_plain hc, read_inWord_word hv]
  rfl

theorem read_ends {rest : List Char} (h : Ends rest) (w : List Char) :
    (inWord w).read rest = (State.read {} rest).map (.word w :: ·) := by
  cases rest with
  | nil => rfl
  | cons c rest =>
    obtain hc | rfl := h c rfl
    · rw [read_blank hc, State.read, step_blank rfl hc]
      simp [State.emit, inWord]
    · rw [read_newline, State.read, step_newline rfl]
      simp [State.emit, inWord, Function.comp_def]

theorem read_blanks {gap : List Char} (h : Blanks gap) (cs : List Char) :
    State.read {} (gap ++ cs) = State.read {} cs := by
  induction gap with
  | nil => rfl
  | cons c gap ih =>
    obtain ⟨hc, hgap⟩ := List.forall_mem_cons.mp h
    rw [List.cons_append, read_blank hc, ih hgap]

theorem read_blankLines {pre : List Char} (h : BlankLines pre) : ∃ before, EmptyLines before
    ∧ ∀ cs, State.read {} (pre ++ cs) = (State.read {} cs).map (before ++ ·) := by
  induction pre with
  | nil => exact ⟨[], nofun, fun cs => by simp⟩
  | cons c pre ih =>
    obtain ⟨hc, hpre⟩ := List.forall_mem_cons.mp h
    obtain ⟨before, hbefore, hread⟩ := ih hpre
    obtain hc | rfl := hc
    · exact ⟨before, hbefore, fun cs => by rw [List.cons_append, read_blank hc, hread]⟩
    · refine ⟨.newline :: before, List.forall_mem_cons.mpr ⟨rfl, hbefore⟩, fun cs => ?_⟩
      rw [List.cons_append, read_newline, hread]
      simp [Function.comp_def]

theorem ends_of_blankLines {rest : List Char} (h : BlankLines rest) : Ends rest :=
  fun c hc => h c (List.mem_of_mem_head? hc)

theorem Blanks.ends_append {gap : List Char} (hne : gap ≠ []) (h : Blanks gap)
    (cs : List Char) : Ends (gap ++ cs) := by
  obtain ⟨c, gap, rfl⟩ := List.exists_cons_of_ne_nil hne
  intro d hd
  obtain rfl := Option.some.inj hd
  exact .inl (h c List.mem_cons_self)

/-- **Words separated by blanks are read as those words.** -/
theorem read_spelled {ws : List (List Char)} {line : List Char} (h : Spelled ws line)
    (hws : PlainWords ws) {rest : List Char} (hrest : Ends rest) :
    State.read {} (line ++ rest) = (State.read {} rest).map (ws.map .word ++ ·) := by
  induction h with
  | last w =>
    obtain ⟨hne, hw⟩ := hws w List.mem_cons_self
    rw [read_plainWord hne hw, read_ends hrest]
    rfl
  | cons w gap line ws hgapne hgap hline ih =>
    obtain ⟨⟨hne, hw⟩, hws⟩ := List.forall_mem_cons.mp hws
    rw [List.append_assoc, List.append_assoc, read_plainWord hne hw,
      read_ends (hgap.ends_append hgapne _), read_blanks hgap, ih hws]
    simp [Function.comp_def]

/-! ## §4. Texts that split into plain words. -/

theorem isSpace_cases {c : Char} (h : isSpace c = true) :
    isBlank c = true ∨ c = '\n' ∨ isPlain c = true := by
  by_cases hb : isBlank c = true
  · exact .inl hb
  by_cases hn : c = '\n'
  · exact .inr (.inl hn)
  refine .inr (.inr ?_)
  have hne : ∀ d : Char, isSpace d = false → c ≠ d := by
    rintro d hd rfl
    rw [hd] at h
    cases h
  have hnot : ∀ l : List Char, l.all (fun d => !isSpace d) = true → c ∉ l := by
    intro l hl hmem
    exact hne c (by simpa using List.all_eq_true.mp hl c hmem) rfl
  have hop : isOperator c = false := decide_eq_false (hnot _ (by decide))
  have hquote := hnot ['\\', '\x60', '$', '\x22', '\x27', '#'] (by decide)
  simp [isPlain, hb, hn, hop, hquote]

theorem isSpace_of_isBlank {c : Char} (h : isBlank c = true) : isSpace c = true := by
  unfold isBlank at h
  simp only [Bool.or_eq_true, decide_eq_true_eq] at h
  obtain rfl | rfl := h <;> rfl

/-- The tokens of a command: its words, with empty lines before and after. -/
def Around (before : List Token) (words : List (List Char)) (ts : List Token) : Prop :=
  EmptyLines before ∧ ∃ after, EmptyLines after ∧ ts = before ++ words.map .word ++ after

theorem simpleCommand_iff {program : List Char} {words : List (List Char)} :
    SimpleCommand program words ↔ '\x00' ∉ program ∧ words ≠ []
      ∧ ∃ before ts, tokens program = some ts ∧ Around before words ts := by
  constructor
  · rintro ⟨hnul, hne, before, after, hbefore, hafter, h⟩
    exact ⟨hnul, hne, before, _, h, hbefore, after, hafter, rfl⟩
  · rintro ⟨hnul, hne, before, _, h, hbefore, after, hafter, rfl⟩
    exact ⟨hnul, hne, before, after, hbefore, hafter, h⟩

theorem Around.word {before ts : List Token} {words : List (List Char)} {v : List Char}
    (h : Around before words (.word v :: ts)) :
    before = [] ∧ ∃ vs, words = v :: vs ∧ Around [] vs ts := by
  obtain ⟨hbefore, after, hafter, heq⟩ := h
  cases before with
  | cons t before =>
    rw [hbefore t List.mem_cons_self] at heq
    cases heq
  | nil =>
    cases words with
    | cons u vs =>
      obtain ⟨hu, hts⟩ := List.cons.inj heq
      cases hu
      exact ⟨rfl, vs, rfl, nofun, after, hafter, hts⟩
    | nil =>
      obtain rfl : Token.word v :: ts = after := heq
      cases hafter _ List.mem_cons_self

theorem Around.newline {before ts : List Token} {words : List (List Char)}
    (h : Around before words (.newline :: ts)) :
    (∃ before', Around before' words ts) ∧ (before = [] → words = []) := by
  obtain ⟨hbefore, after, hafter, heq⟩ := h
  cases before with
  | cons t before =>
    obtain ⟨-, hts⟩ := List.cons.inj heq
    exact ⟨⟨before, fun t ht => hbefore t (List.mem_cons_of_mem _ ht), after, hafter, hts⟩,
      nofun⟩
  | nil =>
    cases words with
    | cons v vs => cases heq
    | nil =>
      obtain rfl : Token.newline :: ts = after := heq
      exact ⟨⟨[], nofun, ts, fun t ht => hafter t (List.mem_cons_of_mem _ ht), rfl⟩,
        fun _ => rfl⟩

/-- The first word has no spaces. -/
def FirstWord (words : List (List Char)) : Prop :=
  ∀ v ∈ words.head?, ∀ c ∈ v, isSpace c = false

section Unread

variable {pre w rest : List Char} {before ts : List Token} {words : List (List Char)}

/-- A space that the shell does not know would begin a word. -/
theorem unread_space {c : Char} {cs : List Char} (hc : isSpace c = true)
    (hplain : isPlain c = true) (hread : State.read {} (c :: cs) = some ts)
    (hts : Around before words ts) (hfirst : FirstWord words) : False := by
  rw [read_plain hplain] at hread
  obtain ⟨x, tl, rfl⟩ := read_word (inWord_inWord _) hread
  obtain ⟨-, vs, rfl, -⟩ := hts.word
  have := hfirst _ rfl c (by simp)
  rw [hc] at this
  cases this

/-- The spaces before the first word of a command are blanks and line ends. -/
theorem unread_spaces (hpre : Spaces pre) (hne : w ≠ []) (hw : ∀ c ∈ w, isPlain c = true)
    (hread : State.read {} (pre ++ (w ++ rest)) = some ts) (hts : Around before words ts)
    (hfirst : FirstWord words) :
    BlankLines pre ∧ (before = [] → Blanks pre) ∧ words ≠ []
      ∧ ∃ ts, (inWord w).read rest = some ts ∧ Around [] words ts := by
  induction pre generalizing before ts with
  | nil =>
    rw [List.nil_append, read_plainWord hne hw] at hread
    obtain ⟨x, tl, rfl⟩ := read_word (inWord_inWord _) hread
    obtain ⟨rfl, vs, rfl, -⟩ := hts.word
    exact ⟨nofun, fun _ => nofun, List.cons_ne_nil _ _, _, hread, hts⟩
  | cons c pre ih =>
    obtain ⟨hc, htail⟩ := List.forall_mem_cons.mp hpre
    rw [List.cons_append] at hread
    obtain hblank | rfl | hplain := isSpace_cases hc
    · rw [read_blank hblank] at hread
      obtain ⟨hlines, hblanks, hrest⟩ := ih htail hread hts
      exact ⟨List.forall_mem_cons.mpr ⟨.inl hblank, hlines⟩,
        fun h => List.forall_mem_cons.mpr ⟨hblank, hblanks h⟩, hrest⟩
    · rw [read_newline] at hread
      obtain ⟨ts, hread', rfl⟩ := Option.map_eq_some_iff.mp hread
      obtain ⟨⟨before', hts⟩, hnil⟩ := hts.newline
      obtain ⟨hlines, -, hwords, hrest⟩ := ih htail hread' hts
      exact ⟨List.forall_mem_cons.mpr ⟨.inr rfl, hlines⟩, fun h => absurd (hnil h) hwords,
        hwords, hrest⟩
    -- A space of the language that is none of the shell would begin a word with a space in it.
    · exact (unread_space hc hplain hread hts hfirst).elim

/-- The spaces after the last word of a command are blanks and line ends. -/
theorem unread_last (hpre : Spaces pre) (hread : State.read {} pre = some ts)
    (hts : Around before words ts) (hfirst : FirstWord words) :
    BlankLines pre ∧ words = [] := by
  induction pre generalizing before ts with
  | nil =>
    obtain rfl := Option.some.inj hread
    obtain ⟨-, after, -, heq⟩ := hts
    obtain ⟨h, -⟩ := List.append_eq_nil_iff.mp heq.symm
    exact ⟨nofun, List.map_eq_nil_iff.mp (List.append_eq_nil_iff.mp h).2⟩
  | cons c pre ih =>
    obtain ⟨hc, htail⟩ := List.forall_mem_cons.mp hpre
    obtain hblank | rfl | hplain := isSpace_cases hc
    · rw [read_blank hblank] at hread
      obtain ⟨hlines, hwords⟩ := ih htail hread hts
      exact ⟨List.forall_mem_cons.mpr ⟨.inl hblank, hlines⟩, hwords⟩
    · rw [read_newline] at hread
      obtain ⟨ts, hread', rfl⟩ := Option.map_eq_some_iff.mp hread
      obtain ⟨⟨before', hts⟩, -⟩ := hts.newline
      obtain ⟨hlines, hwords⟩ := ih htail hread' hts
      exact ⟨List.forall_mem_cons.mpr ⟨.inr rfl, hlines⟩, hwords⟩
    · exact (unread_space hc hplain hread hts hfirst).elim

/-- A word of a command ends where it does for the shell. -/
theorem unread_word {v : List Char} {vs : List (List Char)} (hrest : WordEnds rest)
    (hread : (inWord w).read rest = some ts) (hts : Around [] (v :: vs) ts)
    (hv : ∀ c ∈ v, isSpace c = false) :
    v = w ∧ Ends rest ∧ ∃ ts, State.read {} rest = some ts ∧ Around [] vs ts := by
  -- A space of the language that is none of the shell would go on with the word.
  have hends : Ends rest := by
    intro c hc
    obtain ⟨rest, rfl⟩ : ∃ rest', rest = c :: rest' := by
      cases rest with
      | nil => cases hc
      | cons d rest => exact ⟨rest, by rw [Option.some.inj hc]⟩
    obtain hblank | hline | hplain := isSpace_cases (hrest c hc)
    · exact .inl hblank
    · exact .inr hline
    · rw [read_inWord_plain hplain] at hread
      obtain ⟨x, tl, rfl⟩ := read_word (inWord_inWord _) hread
      obtain ⟨-, vs', heq, -⟩ := hts.word
      obtain ⟨rfl, -⟩ := List.cons.inj heq
      have := hv c (by simp)
      rw [hrest c hc] at this
      cases this
  rw [read_ends hends] at hread
  obtain ⟨ts, hrest', rfl⟩ := Option.map_eq_some_iff.mp hread
  obtain ⟨-, vs', heq, hts⟩ := hts.word
  obtain ⟨rfl, rfl⟩ := List.cons.inj heq
  exact ⟨rfl, hends, ts, hrest', hts⟩

end Unread

/-- The words have no spaces. -/
def SpaceFree (words : List (List Char)) : Prop := ∀ v ∈ words, ∀ c ∈ v, isSpace c = false

theorem SpaceFree.firstWord {words : List (List Char)} (h : SpaceFree words) :
    FirstWord words := fun v hv => h v (List.mem_of_mem_head? hv)

theorem Spelled.exists_head {ws : List (List Char)} {line : List Char}
    (h : Spelled ws line) : ∃ w ∈ ws, ∃ tail, line = w ++ tail := by
  cases h with
  | last => exact ⟨line, List.mem_cons_self, [], (List.append_nil line).symm⟩
  | cons w gap line => exact ⟨w, List.mem_cons_self, gap ++ line, rfl⟩

/-- The first word of a text is the first word of the command. -/
theorem unread_head {w v cs : List Char} {ws vs : List (List Char)} {before ts : List Token}
    (hne : w ≠ []) (hw : ∀ c ∈ w, isPlain c = true) (hsplit : splitChars cs = w :: ws)
    (hread : State.read {} cs = some ts) (hts : Around before (v :: vs) ts)
    (hv : ∀ c ∈ v, isSpace c = false) :
    v = w ∧ ∃ pre rest, cs = pre ++ (w ++ rest) ∧ BlankLines pre ∧ (before = [] → Blanks pre)
      ∧ splitChars rest = ws ∧ Ends rest
      ∧ ∃ ts, State.read {} rest = some ts ∧ Around [] vs ts := by
  obtain ⟨pre, rest, rfl, hpre, -, hends, hrest⟩ := splitChars_eq_cons hsplit
  have hfirst : FirstWord (v :: vs) := fun u hu => Option.some.inj hu ▸ hv
  rw [List.append_assoc] at hread
  obtain ⟨hlines, hblanks, -, ts₁, hread₁, hts₁⟩ := unread_spaces hpre hne hw hread hts hfirst
  obtain ⟨rfl, hends', ts₂, hread₂, hts₂⟩ := unread_word hends hread₁ hts₁ hv
  exact ⟨rfl, pre, rest, List.append_assoc .., hlines, hblanks, hrest, hends', ts₂, hread₂, hts₂⟩

theorem Around.ne_nil {w cs : List Char} {ws words : List (List Char)} {before ts : List Token}
    (hne : w ≠ []) (hw : ∀ c ∈ w, isPlain c = true) (hsplit : splitChars cs = w :: ws)
    (hread : State.read {} cs = some ts) (hts : Around before words ts)
    (hfirst : FirstWord words) : words ≠ [] := by
  obtain ⟨pre, rest, rfl, hpre, -⟩ := splitChars_eq_cons hsplit
  rw [List.append_assoc] at hread
  exact (unread_spaces hpre hne hw hread hts hfirst).2.2.1

theorem Ends.ne_nil {gap cs : List Char} {w : List Char} (h : Ends (gap ++ (w ++ cs)))
    (hne : w ≠ []) (hw : ∀ c ∈ w, isSpace c = false) : gap ≠ [] := by
  rintro rfl
  obtain ⟨c, w, rfl⟩ := List.exists_cons_of_ne_nil hne
  have hc := hw c List.mem_cons_self
  obtain hblank | rfl := h c rfl
  · rw [isSpace_of_isBlank hblank] at hc
    cases hc
  · cases hc

/-- **A text that splits into plain words and is read as a command of words
without spaces** has only blanks between the words. -/
theorem unread_words {ws words : List (List Char)} {cs : List Char} {before ts : List Token}
    (hws : PlainWords ws) (hsplit : splitChars cs = ws) (hread : State.read {} cs = some ts)
    (hts : Around before words ts) (hfree : SpaceFree words) :
    words = ws ∧ ((ws = [] ∧ BlankLines cs) ∨ ∃ pre line post, cs = pre ++ (line ++ post)
      ∧ BlankLines pre ∧ (before = [] → Blanks pre) ∧ Spelled ws line ∧ BlankLines post) := by
  induction ws generalizing cs words before ts with
  | nil =>
    obtain ⟨hlines, rfl⟩ :=
      unread_last (spaces_of_splitChars_nil hsplit) hread hts hfree.firstWord
    exact ⟨rfl, .inl ⟨rfl, hlines⟩⟩
  | cons w ws ih =>
    obtain ⟨⟨hne, hw⟩, hws'⟩ := List.forall_mem_cons.mp hws
    obtain ⟨v, vs, rfl⟩ :=
      List.exists_cons_of_ne_nil (hts.ne_nil hne hw hsplit hread hfree.firstWord)
    obtain ⟨hv, hfree'⟩ := List.forall_mem_cons.mp hfree
    obtain ⟨rfl, pre, rest, rfl, hlines, hblanks, rfl, hends, ts₁, hread₁, hts₁⟩ :=
      unread_head hne hw hsplit hread hts hv
    -- The first word is read as it stands, and the rest of the text is the same question again.
    obtain ⟨rfl, hrest⟩ := ih hws' rfl hread₁ hts₁ hfree'
    refine ⟨rfl, .inr ?_⟩
    obtain ⟨hnil, hpost⟩ | ⟨gap, line, post, rfl, -, hgap, hline, hpost⟩ := hrest
    · rw [hnil]
      exact ⟨pre, v, rest, rfl, hlines, hblanks, .last v, hpost⟩
    · refine ⟨pre, v ++ (gap ++ line), post, by simp, hlines, hblanks, ?_, hpost⟩
      refine .cons _ _ _ _ ?_ (hgap rfl) hline
      -- The word ends before the next one begins, so something stands between them.
      obtain ⟨u, hu, tail, rfl⟩ := hline.exists_head
      rw [List.append_assoc] at hends
      exact hends.ne_nil (splitChars_isWord u hu).1 (splitChars_isWord u hu).2

end Hmn.Framework.Shell
