/-
  Hmn.Framework.ShellWords — what a command line says once the shell has
  taken its quotes away.

  A word in which nothing is expanded has a value: what is quoted in it stands
  for itself, and outside quotes only characters stand that no expansion
  reads.  `Stands raw v` says that the text `raw` is part of a word, wherever
  it is put, and that its value is `v`; such texts can be put side by side.

  Main results:

      tokens_line    a line made of words and operators is read as these
      stands_quoted  a quoted text stands for the text, whatever it holds
-/
import Hmn.Framework.Shell

namespace Hmn.Framework.Shell

/-! ## §1. Values of words. -/

/-- What encloses the next character of a word that is not expanded. -/
inductive Quotes where
  | bare
  | single
  | double
  deriving DecidableEq

/-- A character that no expansion reads outside quotes. -/
def isInert (c : Char) : Bool :=
  c.isAlphanum || c ∈ ['_', '@', '%', '+', '=', ':', ',', '.', '/', '-']

/-- The value of a word without its quotes.  A word has none when a character
in it may begin an expansion. -/
def unquote : Quotes → List Char → Option (List Char)
  | .bare, [] => some []
  | .single, [] => none
  | .double, [] => none
  | .bare, c :: cs =>
    if c = '\x27' then unquote .single cs
    else if c = '\x22' then unquote .double cs
    else if isInert c then (unquote .bare cs).map (c :: ·)
    else none
  | .single, c :: cs =>
    if c = '\x27' then unquote .bare cs else (unquote .single cs).map (c :: ·)
  | .double, c :: cs =>
    if c = '\x22' then unquote .bare cs
    else if c ∈ ['$', '\x60', '\\', '!'] then none
    else (unquote .double cs).map (c :: ·)

/-- An item of a command line. -/
inductive Item where
  /-- A word with its value. -/
  | value (v : List Char)
  /-- A word in which something is expanded, as it is written. -/
  | expanded (raw : List Char)
  | operator (c : Char)
  | newline
  deriving DecidableEq

/-- What a token says. -/
def Token.item : Token → Item
  | .word raw => match unquote .bare raw with
    | some v => .value v
    | none => .expanded raw
  | .operator c => .operator c
  | .newline => .newline

/-- The items of a program text. -/
def items (program : List Char) : Option (List Item) :=
  (tokens program).map (List.map Token.item)

example : items "a='b c'\"'\" $x;d".toList = some [.value "a=b c'".toList,
    .expanded "$x".toList, .operator ';', .value ['d']] := by
  decide +kernel

/-! ## §2. Texts that stand for a value. -/

/-- The text goes on with a word, wherever the word is, and leaves the reader
outside quotes. -/
structure Written (raw : List Char) : Prop where
  inside : ∀ w cs, (inWord w).read (raw ++ cs) = (inWord (w ++ raw)).read cs
  start : raw ≠ [] → ∀ cs, State.read {} (raw ++ cs) = (inWord raw).read cs

/-- The text is written and has the value `v`. -/
structure Stands (raw v : List Char) : Prop extends Written raw where
  value : ∀ cs, unquote .bare (raw ++ cs) = (unquote .bare cs).map (v ++ ·)

theorem written_nil : Written [] where
  inside w cs := by rw [List.append_nil, List.nil_append]
  start h := absurd rfl h

theorem Written.append {raw raw' : List Char} (h : Written raw) (h' : Written raw') :
    Written (raw ++ raw') where
  inside w cs := by
    rw [List.append_assoc, h.inside, h'.inside, List.append_assoc]
  start hne cs := by
    by_cases hraw : raw = []
    · subst hraw
      exact h'.start hne cs
    · rw [List.append_assoc, h.start hraw, h'.inside]

theorem stands_nil : Stands [] [] where
  toWritten := written_nil
  value cs := by
    show unquote .bare cs = (unquote .bare cs).map id
    rw [Option.map_id_fun, id]

/-- **Texts side by side** stand for their values side by side. -/
theorem Stands.append {raw raw' v v' : List Char} (h : Stands raw v) (h' : Stands raw' v') :
    Stands (raw ++ raw') (v ++ v') where
  toWritten := h.toWritten.append h'.toWritten
  value cs := by
    rw [List.append_assoc, h.value, h'.value, Option.map_map]
    congr 1
    funext u
    exact (List.append_assoc v v' u).symm

theorem Stands.item {raw v : List Char} (h : Stands raw v) :
    (Token.word raw).item = .value v := by
  have hvalue := h.value []
  rw [List.append_nil] at hvalue
  show (match unquote .bare raw with | some v => Item.value v | none => .expanded raw) = _
  rw [hvalue]
  show Item.value (v ++ []) = .value v
  rw [List.append_nil]

/-! ## §3. Inert characters. -/

theorem isInert_isPlain {c : Char} (h : isInert c = true) : isPlain c = true := by
  have hnot : ∀ l : List Char, l.all (fun d => !isInert d) = true → c ∉ l := by
    intro l hl hmem
    have hc := List.all_eq_true.mp hl c hmem
    rw [h] at hc
    cases hc
  have hblank : isBlank c = false := by
    have := hnot [' ', '\t'] (by decide)
    simp only [List.mem_cons, List.not_mem_nil, or_false, not_or] at this
    simp [isBlank, this]
  have hline : c ≠ '\n' := by
    have := hnot ['\n'] (by decide)
    simpa using this
  have hop : isOperator c = false := decide_eq_false (hnot _ (by decide))
  have hquote := hnot ['\\', '\x60', '$', '\x22', '\x27', '#'] (by decide)
  simp [isPlain, hblank, hline, hop, hquote]

/-- **A text of inert characters** stands for itself. -/
theorem stands_inert {w : List Char} (h : ∀ c ∈ w, isInert c = true) : Stands w w where
  inside u cs := read_inWord_word (fun c hc => isInert_isPlain (h c hc)) u cs
  start hne cs := read_plainWord hne (fun c hc => isInert_isPlain (h c hc)) cs
  value cs := by
    induction w with
    | nil => exact stands_nil.value cs
    | cons c w ih =>
      obtain ⟨hc, hw⟩ := List.forall_mem_cons.mp h
      have hsingle : c ≠ '\x27' := by
        rintro rfl
        cases hc
      have hdouble : c ≠ '\x22' := by
        rintro rfl
        cases hc
      rw [List.cons_append, unquote, if_neg hsingle, if_neg hdouble, if_pos hc, ih hw,
        Option.map_map]
      rfl

/-! ## §4. Quotes. -/

/-- The state inside a word and an enclosure. -/
def within (top : Enclosure) (w : List Char) : State := { stack := [top], word := some w }

theorem read_step {s s' : State} {c : Char} (h : s.step c = some ([], s')) (cs : List Char) :
    s.read (c :: cs) = s'.read cs := by
  rw [State.read, h, Option.bind_some]
  show (s'.read cs).map id = s'.read cs
  rw [Option.map_id_fun, id]

/-- Between single quotes everything stands for itself. -/
theorem read_single {v : List Char} (h : '\x27' ∉ v) (w cs : List Char) :
    (within .single w).read (v ++ '\x27' :: cs) = (inWord (w ++ v ++ ['\x27'])).read cs := by
  induction v generalizing w with
  | nil =>
    rw [List.append_nil]
    exact read_step rfl cs
  | cons c v ih =>
    obtain ⟨hc, hv⟩ := not_or.mp (List.mem_cons.not.mp h)
    have hstep : (within .single w).step c = some ([], within .single (w ++ [c])) := by
      show State.add _ [c] (if c = '\x27' then [] else [.single]) = _
      rw [if_neg (Ne.symm hc)]
      rfl
    rw [List.cons_append, read_step hstep, ih hv]
    congr 2
    simp

theorem unquote_single {v : List Char} (h : '\x27' ∉ v) (cs : List Char) :
    unquote .single (v ++ '\x27' :: cs) = (unquote .bare cs).map (v ++ ·) := by
  induction v with
  | nil =>
    show unquote .bare cs = (unquote .bare cs).map id
    rw [Option.map_id_fun, id]
  | cons c v ih =>
    obtain ⟨hc, hv⟩ := not_or.mp (List.mem_cons.not.mp h)
    rw [List.cons_append, unquote, if_neg (Ne.symm hc), ih hv, Option.map_map]
    rfl

theorem stands_single {v : List Char} (h : '\x27' ∉ v) :
    Stands ('\x27' :: (v ++ ['\x27'])) v where
  inside w cs := by
    have hopen : (inWord w).step '\x27' = some ([], within .single (w ++ ['\x27'])) := rfl
    rw [List.cons_append, List.append_assoc, read_step hopen, List.singleton_append,
      read_single h]
    congr 2
    simp
  start _ cs := by
    have hopen : State.step {} '\x27' = some ([], within .single ['\x27']) := rfl
    rw [List.cons_append, List.append_assoc, read_step hopen, List.singleton_append,
      read_single h]
    rfl
  value cs := by
    rw [List.cons_append, List.append_assoc, unquote, if_pos rfl, List.singleton_append,
      unquote_single h]

/-- A quote between double quotes. -/
theorem stands_doubleQuoted : Stands ['\x22', '\x27', '\x22'] ['\x27'] where
  inside w cs := by
    have hopen : (inWord w).step '\x22' = some ([], within .double (w ++ ['\x22'])) := rfl
    have hquote : (within .double (w ++ ['\x22'])).step '\x27'
        = some ([], within .double (w ++ ['\x22'] ++ ['\x27'])) := rfl
    have hclose : (within .double (w ++ ['\x22'] ++ ['\x27'])).step '\x22'
        = some ([], inWord (w ++ ['\x22'] ++ ['\x27'] ++ ['\x22'])) := rfl
    rw [List.cons_append, read_step hopen, List.cons_append, read_step hquote,
      List.cons_append, read_step hclose, List.nil_append]
    congr 2
    simp
  start _ cs := by
    have hopen : State.step {} '\x22' = some ([], within .double ['\x22']) := rfl
    have hquote : (within .double ['\x22']).step '\x27'
        = some ([], within .double ['\x22', '\x27']) := rfl
    have hclose : (within .double ['\x22', '\x27']).step '\x22'
        = some ([], inWord ['\x22', '\x27', '\x22']) := rfl
    rw [List.cons_append, read_step hopen, List.cons_append, read_step hquote,
      List.cons_append, read_step hclose, List.nil_append]
  value cs := rfl

/-- A character that stands for itself between double quotes. -/
def isSteady (c : Char) : Bool := c ∉ ['\x22', '$', '\x60', '\\', '!']

theorem isSteady_ne {c : Char} (h : isSteady c = true) :
    c ≠ '\x22' ∧ c ≠ '$' ∧ c ≠ '\x60' ∧ c ≠ '\\' ∧ c ≠ '!' := by
  have hmem : c ∉ ['\x22', '$', '\x60', '\\', '!'] := of_decide_eq_true h
  simpa only [List.mem_cons, List.not_mem_nil, or_false, not_or] using hmem

/-- Between double quotes such characters stand for themselves. -/
theorem read_double {v : List Char} (h : ∀ c ∈ v, isSteady c = true) (w cs : List Char) :
    (within .double w).read (v ++ '\x22' :: cs) = (inWord (w ++ v ++ ['\x22'])).read cs := by
  induction v generalizing w with
  | nil =>
    rw [List.append_nil]
    exact read_step rfl cs
  | cons c v ih =>
    obtain ⟨hc, hv⟩ := List.forall_mem_cons.mp h
    obtain ⟨hquote, hdollar, htick, hback, -⟩ := isSteady_ne hc
    have hstep : (within .double w).step c = some ([], within .double (w ++ [c])) := by
      show State.plain (within .double w) c [.double] = _
      unfold State.plain
      split
      · exact absurd rfl hback
      · exact absurd rfl htick
      · exact absurd rfl hdollar
      · exact absurd rfl hquote
      · rfl
      · show State.enclosed (within .double w) c .double [] = _
        unfold State.enclosed
        split <;> first | rfl | contradiction
    rw [List.cons_append, read_step hstep, ih hv]
    congr 2
    simp

theorem unquote_double {v : List Char} (h : ∀ c ∈ v, isSteady c = true) (cs : List Char) :
    unquote .double (v ++ '\x22' :: cs) = (unquote .bare cs).map (v ++ ·) := by
  induction v with
  | nil =>
    show unquote .bare cs = (unquote .bare cs).map id
    rw [Option.map_id_fun, id]
  | cons c v ih =>
    obtain ⟨hc, hv⟩ := List.forall_mem_cons.mp h
    obtain ⟨hquote, hexpands⟩ := isSteady_ne hc
    rw [List.cons_append, unquote, if_neg hquote, if_neg (by simpa using hexpands), ih hv,
      Option.map_map]
    rfl

theorem stands_double {v : List Char} (h : ∀ c ∈ v, isSteady c = true) :
    Stands ('\x22' :: (v ++ ['\x22'])) v where
  inside w cs := by
    have hopen : (inWord w).step '\x22' = some ([], within .double (w ++ ['\x22'])) := rfl
    rw [List.cons_append, List.append_assoc, read_step hopen, List.singleton_append,
      read_double h]
    congr 2
    simp
  start _ cs := by
    have hopen : State.step {} '\x22' = some ([], within .double ['\x22']) := rfl
    rw [List.cons_append, List.append_assoc, read_step hopen, List.singleton_append,
      read_double h]
    rfl
  value cs := by
    have hne : ('\x22' : Char) ≠ '\x27' := by decide
    rw [List.cons_append, List.append_assoc, unquote, if_neg hne, if_pos rfl,
      List.singleton_append, unquote_double h]

/-! ## §5. A text in quotes. -/

/-- A text between single quotes, each quote in it between double quotes. -/
def quoted (v : List Char) : List Char :=
  '\x27' :: v.flatMap (fun c => if c = '\x27' then ['\x27', '\x22', '\x27', '\x22', '\x27'] else [c])
    ++ ['\x27']

/-- The text up to a quote, the quote, and the rest in quotes. -/
theorem quoted_append (v v' : List Char) (h : '\x27' ∉ v) :
    quoted (v ++ '\x27' :: v')
      = '\x27' :: (v ++ ['\x27']) ++ (['\x22', '\x27', '\x22'] ++ quoted v') := by
  have hkept : v.flatMap (fun c => if c = '\x27' then ['\x27', '\x22', '\x27', '\x22', '\x27'] else [c])
      = v := by
    induction v with
    | nil => rfl
    | cons c v ih =>
      obtain ⟨hc, hv⟩ := not_or.mp (List.mem_cons.not.mp h)
      rw [List.flatMap_cons, if_neg (Ne.symm hc), ih hv]
      rfl
  unfold quoted
  rw [List.flatMap_append, hkept, List.flatMap_cons, if_pos rfl]
  simp

theorem quoted_plain {v : List Char} (h : '\x27' ∉ v) :
    quoted v = '\x27' :: (v ++ ['\x27']) := by
  unfold quoted
  rw [List.cons_append]
  congr 2
  induction v with
  | nil => rfl
  | cons c v ih =>
    obtain ⟨hc, hv⟩ := not_or.mp (List.mem_cons.not.mp h)
    rw [List.flatMap_cons, if_neg (Ne.symm hc), ih hv]
    rfl

/-- **A quoted text stands for the text**, whatever it holds. -/
theorem stands_quoted (v : List Char) : Stands (quoted v) v := by
  by_cases h : '\x27' ∈ v
  · -- What is before the first quote of the text stands in single quotes.
    obtain ⟨before, after, heq, hbefore⟩ := List.eq_append_cons_of_mem h
    have hafter : after.length < v.length := by
      rw [heq, List.length_append, List.length_cons]
      omega
    rw [heq, quoted_append before after hbefore]
    exact (stands_single hbefore).append (stands_doubleQuoted.append (stands_quoted after))
  · rw [quoted_plain h]
    exact stands_single h
termination_by v.length

/-! ## §6. Lines. -/

/-- A text after which no word goes on. -/
def Breaks (cs : List Char) : Prop :=
  ∀ c ∈ cs.head?, isBlank c = true ∨ c = '\n' ∨ isOperator c = true

/-- The text of a line made of words and operators. -/
inductive Line : List Token → List Char → Prop
  | done : Line [] []
  | blank {c : Char} {ts : List Token} {cs : List Char} (hc : isBlank c = true)
      (hcs : Line ts cs) : Line ts (c :: cs)
  | operator {c : Char} {ts : List Token} {cs : List Char} (hc : isOperator c = true)
      (hcs : Line ts cs) : Line (.operator c :: ts) (c :: cs)
  | word {raw : List Char} {ts : List Token} {cs : List Char} (hraw : Written raw)
      (hne : raw ≠ []) (hbreaks : Breaks cs) (hcs : Line ts cs) :
      Line (.word raw :: ts) (raw ++ cs)

theorem operator_plain {c : Char} (h : isOperator c = true) :
    isBlank c = false ∧ c ≠ '\n' ∧ c ∉ ['\\', '\x60', '$', '\x22', '\x27'] := by
  have hops : ∀ d ∈ [';', '&', '|', '<', '>', '(', ')'], isBlank d = false ∧ d ≠ '\n'
      ∧ d ∉ ['\\', '\x60', '$', '\x22', '\x27'] := by decide
  exact hops c (of_decide_eq_true h)

theorem step_operator {s : State} (hs : s.stack = []) {c : Char} (hc : isOperator c = true) :
    s.step c = some (s.emit ++ [.operator c], {}) := by
  obtain ⟨hblank, hline, hquote⟩ := operator_plain hc
  rw [step_of_stack_nil hs, plain_bare hquote, State.bare, if_neg (by simp [hblank]),
    if_neg hline, if_pos hc]

theorem read_operator {c : Char} (hc : isOperator c = true) (cs : List Char) :
    State.read {} (c :: cs) = (State.read {} cs).map (.operator c :: ·) := by
  rw [State.read, step_operator rfl hc]
  rfl

/-- A word ends where it breaks. -/
theorem read_breaks {rest : List Char} (h : Breaks rest) (w : List Char) :
    (inWord w).read rest = (State.read {} rest).map (.word w :: ·) := by
  cases rest with
  | nil => rfl
  | cons c rest =>
    rcases h c rfl with hc | rfl | hc
    · have hends : Ends (c :: rest) := by
        intro d hd
        obtain rfl := Option.some.inj hd
        exact .inl hc
      exact read_ends hends w
    · have hends : Ends ('\n' :: rest) := by
        intro d hd
        obtain rfl := Option.some.inj hd
        exact .inr rfl
      exact read_ends hends w
    · rw [read_operator hc, State.read, step_operator rfl hc]
      simp [State.emit, inWord, Function.comp_def]

/-- **A line is read as the tokens it is made of.** -/
theorem tokens_line {ts : List Token} {cs : List Char} (h : Line ts cs) :
    tokens cs = some ts := by
  show State.read {} cs = some ts
  induction h with
  | done => rfl
  | blank hc _ ih => rw [read_blank hc, ih]
  | operator hc _ ih =>
    rw [read_operator hc, ih]
    rfl
  | word hraw hne hbreaks _ ih =>
    rw [hraw.start hne, read_breaks hbreaks, ih]
    rfl

theorem breaks_nil : Breaks [] := fun _ h => by cases h

theorem breaks_blank (cs : List Char) : Breaks (' ' :: cs) := by
  intro c hc
  obtain rfl := Option.some.inj hc
  exact .inl rfl

/-- Words with one blank between them. -/
theorem line_words {words : List (List Char)} (h : ∀ raw ∈ words, Written raw ∧ raw ≠ []) :
    Line (words.map .word) (List.intercalate [' '] words) := by
  induction words with
  | nil => exact .done
  | cons raw words ih =>
    obtain ⟨⟨hraw, hne⟩, hwords⟩ := List.forall_mem_cons.mp h
    cases words with
    | nil =>
      have hword := Line.word hraw hne breaks_nil .done
      rw [List.append_nil] at hword
      rw [List.intercalate_singleton]
      exact hword
    | cons next words =>
      have hcons : List.intercalate [' '] (raw :: next :: words)
          = raw ++ ' ' :: List.intercalate [' '] (next :: words) := by
        simp [List.intercalate, List.intersperse]
      rw [hcons]
      exact .word hraw hne (breaks_blank _) (.blank rfl (ih hwords))

/-- A word before a blank. -/
theorem line_word {raw cs : List Char} {ts : List Token} (h : Written raw) (hne : raw ≠ [])
    (hcs : Line ts cs) : Line (.word raw :: ts) (raw ++ ' ' :: cs) :=
  .word h hne (breaks_blank cs) (.blank rfl hcs)

/-- A word that ends the line. -/
theorem line_last {raw : List Char} (h : Written raw) (hne : raw ≠ []) :
    Line [.word raw] raw := by
  have hline := Line.word h hne breaks_nil .done
  rw [List.append_nil] at hline
  exact hline

/-- The items of a line made of words and operators. -/
theorem items_line {ts : List Token} {cs : List Char} (h : Line ts cs) :
    items cs = some (ts.map Token.item) := by
  unfold items
  rw [tokens_line h]
  rfl

end Hmn.Framework.Shell
