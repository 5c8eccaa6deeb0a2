/-
  Hmn.Worker.EnvFile — the file that the worker script reads its variables
  from.

  The shell reads the file as a program of assignments, a Python program of
  the script rewrites one of them.  Both go by lines, but not by the same
  ones: `splitlines` ends a line at more characters than the shell.

  Main results: `sourceEnv_write` — when the file is a list of assignments,
  the shell reads back the new fingerprint, and every other variable as it was.
-/
import Hmn.Framework.Lines
import Hmn.Framework.ShellWords
import Hmn.Store.Calls

namespace Hmn.Worker

open Framework

/-! ## §1. Rewriting the file. -/

/-- What the line of the fingerprint starts with. -/
def fingerprintStart : String := "HERMES_NODE_FINGERPRINT="

/-- `new_line`. -/
def fingerprintLine (newFingerprint : String) : String :=
  "HERMES_NODE_FINGERPRINT=\"" ++ newFingerprint ++ "\""

/-- One turn of the loop over the lines. -/
def rewriteLine (newLine line : String) : String :=
  if Text.startsWith line fingerprintStart then newLine else line

/-- The text that `write_fingerprint_env` leaves in the file; it is put in the
file's place at once. -/
def writeFingerprintEnv (text newFingerprint : String) : String :=
  let newLine := fingerprintLine newFingerprint
  let lines := Text.splitLines (String.ofList (universalNewlines text.toList))
  let updated := lines.any (Text.startsWith · fingerprintStart)
  let lines := lines.map (rewriteLine newLine)
  Text.join "\n" (if updated then lines else lines ++ [newLine]) ++ "\n"

/-! ## §2. Reading the file. -/

/-- A variable and its value. -/
abbrev Variable := List Char × List Char

/-- A character of a variable's name. -/
def isNameChar (c : Char) : Bool := c.isAlphanum || c = '_'

/-- A line that assigns one variable and does nothing else.  The name is not
quoted; the value is one word in which nothing is expanded. -/
def assignment? (line : List Char) : Option Variable :=
  let name := line.takeWhile isNameChar
  if (line.drop name.length).head? = some '=' ∧ name.head?.any (fun c => !c.isDigit) then
    match Shell.items line with
    | some [.value word] => some (name, word.drop (name.length + 1))
    | _ => none
  else none

/-- A line that the shell passes over: it is blank or a comment. -/
def passedOver (line : List Char) : Bool :=
  (line.dropWhile Shell.isBlank).head?.all (· = '#')

/-- The variables that a line sets. -/
def lineVariables (line : List Char) : Option (List Variable) :=
  if passedOver line then some [] else (assignment? line).map fun v => [v]

/-- The variables that some lines set, in their order. -/
def linesVariables : List (List Char) → Option (List Variable)
  | [] => some []
  | line :: lines =>
    (lineVariables line).bind fun vs => (linesVariables lines).map fun rest => vs ++ rest

/-- `. "$ENV_FILE"`, for a file that holds nothing but assignments. -/
def sourceEnv (text : String) : Option (List Variable) :=
  linesVariables (text.toList.splitOn '\n')

/-- The value of a variable: it is the last one that was set. -/
def valueOf (name : String) (vs : List Variable) : Option String :=
  (vs.reverse.lookup name.toList).map String.ofList

example : (sourceEnv "# node\nHERMES_NODE_ID=node_1\nHERMES_NODE_FINGERPRINT=\"sha256:ab\"\n").bind
    (valueOf "HERMES_NODE_FINGERPRINT") = some "sha256:ab" := by
  decide +kernel

/-! ## §3. Lines of a text. -/

/-- Every line ends in a newline: no other character of the text ends one. -/
def NewlinesOnly (text : String) : Prop := ∀ c ∈ text.toList, Text.isLineEnd c = true → c = '\n'

instance (text : String) : Decidable (NewlinesOnly text) :=
  inferInstanceAs (Decidable (∀ c ∈ text.toList, _))

/-- `splitlines` gives the lines that are split off at the newlines; only an
empty line at the end is not counted. -/
theorem splitLinesFrom_eq {cs : List Char} (h : ∀ c ∈ cs, Text.isLineEnd c = true → c = '\n')
    (line : List Char) :
    List.splitOnPPrepend (· == '\n') cs line = Text.splitLinesFrom line cs
      ∨ List.splitOnPPrepend (· == '\n') cs line = Text.splitLinesFrom line cs ++ [[]] := by
  induction cs generalizing line with
  | nil =>
    rw [List.splitOnPPrepend_nil]
    cases line with
    | nil => exact .inr rfl
    | cons c line => exact .inl rfl
  | cons c cs ih =>
    obtain ⟨hc, hcs⟩ := List.forall_mem_cons.mp h
    have hreturn : c ≠ '\r' := by
      rintro rfl
      exact absurd (hc rfl) (by decide)
    have hline : Text.splitLinesFrom line (c :: cs)
        = if Text.isLineEnd c then line.reverse :: Text.splitLinesFrom [] cs
          else Text.splitLinesFrom (c :: line) cs := by
      rw [Text.splitLinesFrom.eq_def]
      split
      · rename_i heq
        cases heq
      · rename_i heq
        cases heq
      · rename_i heq
        exact absurd (List.cons.inj heq).1 hreturn
      · rename_i heq
        obtain ⟨rfl, rfl⟩ := List.cons.inj heq
        rfl
    rw [hline]
    by_cases hend : Text.isLineEnd c = true
    · obtain rfl := hc hend
      rw [if_pos hend, List.splitOnPPrepend_cons_pos rfl]
      rcases ih hcs [] with hrest | hrest
      · rw [List.splitOnPPrepend_nil_right] at hrest
        exact .inl (by rw [hrest])
      · rw [List.splitOnPPrepend_nil_right] at hrest
        exact .inr (by rw [hrest, List.cons_append])
    · have hnewline : (c == '\n') = false := by
        rw [beq_eq_false_iff_ne]
        rintro rfl
        exact hend rfl
      rw [if_neg hend, @List.splitOnPPrepend_cons_neg _ (· == '\n') c cs line hnewline]
      exact ih hcs (c :: line)

theorem linesVariables_append (lines lines' : List (List Char)) :
    linesVariables (lines ++ lines') = (linesVariables lines).bind fun vs =>
      (linesVariables lines').map fun vs' => vs ++ vs' := by
  induction lines with
  | nil =>
    cases h : linesVariables lines' <;> simp [linesVariables, h]
  | cons line lines ih =>
    rw [List.cons_append, linesVariables, linesVariables, ih]
    cases lineVariables line with
    | none => rfl
    | some vs =>
      cases linesVariables lines with
      | none => rfl
      | some vs' =>
        cases linesVariables lines' with
        | none => rfl
        | some vs'' => simp

/-- An empty line at the end sets nothing. -/
theorem linesVariables_empty (lines : List (List Char)) :
    linesVariables (lines ++ [[]]) = linesVariables lines := by
  rw [linesVariables_append]
  have hempty : linesVariables [[]] = some [] := rfl
  rw [hempty]
  cases linesVariables lines with
  | none => rfl
  | some vs => simp

/-- The lines that `write_fingerprint_env` goes over. -/
def envLines (text : String) : List (List Char) := Text.splitLinesFrom [] text.toList

theorem sourceEnv_eq_lines {text : String} (h : NewlinesOnly text) :
    sourceEnv text = linesVariables (envLines text) := by
  have hsplit : text.toList.splitOn '\n' = List.splitOnPPrepend (· == '\n') text.toList [] := rfl
  unfold sourceEnv envLines
  rw [hsplit]
  rcases splitLinesFrom_eq h [] with heq | heq
  · rw [heq]
  · rw [heq, linesVariables_empty]

/-! ## §4. The line that is written. -/

/-- A fingerprint that stands for itself between double quotes, on one line. -/
def Plain (fingerprint : String) : Prop :=
  fingerprint ≠ "" ∧ ∀ c ∈ fingerprint.toList, Shell.isSteady c = true ∧ Text.isLineEnd c = false

instance (fingerprint : String) : Decidable (Plain fingerprint) :=
  inferInstanceAs (Decidable (_ ∧ ∀ c ∈ fingerprint.toList, _))

/-- The variable of the fingerprint. -/
def fingerprintName : String := "HERMES_NODE_FINGERPRINT"

theorem fingerprintStart_toList : fingerprintStart.toList = fingerprintName.toList ++ ['='] := rfl

theorem fingerprintLine_toList (new : String) :
    (fingerprintLine new).toList
      = fingerprintStart.toList ++ '\x22' :: (new.toList ++ ['\x22']) := by
  unfold fingerprintLine fingerprintStart
  simp [String.toList_append]

theorem items_fingerprintLine {new : String} (h : Plain new) :
    Shell.items (fingerprintLine new).toList
      = some [.value (fingerprintStart.toList ++ new.toList)] := by
  have hstands : Shell.Stands (fingerprintLine new).toList
      (fingerprintStart.toList ++ new.toList) := by
    rw [fingerprintLine_toList]
    exact (Shell.stands_inert (by decide)).append (Shell.stands_double fun c hc => (h.2 c hc).1)
  have hne : (fingerprintLine new).toList ≠ [] := by
    rw [fingerprintLine_toList]
    exact List.cons_ne_nil _ _
  rw [Shell.items_line (Shell.line_last hstands.toWritten hne)]
  exact congrArg (fun item => some [item]) hstands.item

theorem takeWhile_name {name : List Char} (h : ∀ c ∈ name, isNameChar c = true) (cs : List Char) :
    (name ++ '=' :: cs).takeWhile isNameChar = name := by
  rw [List.takeWhile_append_of_pos h, List.takeWhile_cons_of_neg (by decide), List.append_nil]

/-- **The line that is written** sets the fingerprint. -/
theorem lineVariables_fingerprintLine {new : String} (h : Plain new) :
    lineVariables (fingerprintLine new).toList
      = some [(fingerprintName.toList, new.toList)] := by
  have hline : (fingerprintLine new).toList
      = fingerprintName.toList ++ '=' :: ('\x22' :: (new.toList ++ ['\x22'])) := by
    rw [fingerprintLine_toList, fingerprintStart_toList, List.append_assoc, List.singleton_append]
  have hname := @takeWhile_name fingerprintName.toList (by decide)
    ('\x22' :: (new.toList ++ ['\x22']))
  rw [← hline] at hname
  have hread : passedOver (fingerprintLine new).toList = false := by
    rw [hline]
    rfl
  unfold lineVariables
  rw [hread, if_neg Bool.false_ne_true]
  unfold assignment?
  rw [hname, items_fingerprintLine h]
  have hequals : ((fingerprintLine new).toList.drop fingerprintName.toList.length).head?
      = some '=' := by
    rw [hline, List.drop_left]
    rfl
  dsimp only
  rw [if_pos ⟨hequals, by decide⟩]
  rfl

theorem startsWith_start {line : String} :
    Text.startsWith line fingerprintStart = true
      ↔ ∃ rest, line.toList = fingerprintName.toList ++ '=' :: rest := by
  unfold Text.startsWith
  rw [List.isPrefixOf_iff_prefix, fingerprintStart_toList]
  constructor
  · rintro ⟨rest, hrest⟩
    exact ⟨rest, by rw [← hrest, List.append_assoc, List.singleton_append]⟩
  · rintro ⟨rest, hrest⟩
    exact ⟨rest, by rw [hrest, List.append_assoc, List.singleton_append]⟩

/-- **A line sets the fingerprint exactly when the loop rewrites it.** -/
theorem lineVariables_cases {line : String} {vs : List Variable}
    (h : lineVariables line.toList = some vs) :
    (vs = [] ∧ Text.startsWith line fingerprintStart = false)
      ∨ ∃ v : Variable, vs = [v]
        ∧ (Text.startsWith line fingerprintStart = true ↔ v.1 = fingerprintName.toList) := by
  unfold lineVariables at h
  split_ifs at h with hpassed
  · cases h
    refine .inl ⟨rfl, ?_⟩
    rw [Bool.eq_false_iff]
    intro hstarts
    obtain ⟨rest, hrest⟩ := startsWith_start.mp hstarts
    rw [hrest] at hpassed
    exact absurd hpassed Bool.false_ne_true
  · right
    obtain ⟨v, hv, hvs⟩ := Option.map_eq_some_iff.mp h
    refine ⟨v, hvs.symm, ?_⟩
    unfold assignment? at hv
    dsimp only at hv
    split_ifs at hv with hname
    have hv1 : v.1 = line.toList.takeWhile isNameChar := by
      split at hv
      · cases hv
        rfl
      · cases hv
    rw [startsWith_start, hv1]
    constructor
    · rintro ⟨rest, hrest⟩
      rw [hrest]
      exact takeWhile_name (by decide) rest
    · intro heq
      have hequals := hname.1
      cases hdrop : line.toList.drop (line.toList.takeWhile isNameChar).length with
      | nil =>
        rw [hdrop] at hequals
        cases hequals
      | cons c rest =>
        rw [hdrop] at hequals
        obtain rfl := Option.some.inj hequals
        refine ⟨rest, ?_⟩
        rw [← heq, ← hdrop]
        exact (List.prefix_iff_eq_append.mp (List.takeWhile_prefix isNameChar)).symm

/-! ## §5. The file that is written. -/

/-- The variables with another fingerprint. -/
def setFingerprint (new : String) (v : Variable) : Variable :=
  if v.1 = fingerprintName.toList then (v.1, new.toList) else v

/-- What `write_fingerprint_env` does to the variables of the file. -/
def withFingerprintVariable (new : String) (vs : List Variable) : List Variable :=
  if vs.any (fun v => v.1 = fingerprintName.toList) then vs.map (setFingerprint new)
  else vs ++ [(fingerprintName.toList, new.toList)]

/-- The loop over the lines sets the fingerprint wherever it was set. -/
theorem linesVariables_rewrite {new : String} (hplain : Plain new) (lines : List String)
    {vs : List Variable} (h : linesVariables (lines.map String.toList) = some vs) :
    linesVariables ((lines.map (rewriteLine (fingerprintLine new))).map String.toList)
        = some (vs.map (setFingerprint new))
      ∧ lines.any (Text.startsWith · fingerprintStart)
        = vs.any (fun v => v.1 = fingerprintName.toList) := by
  induction lines generalizing vs with
  | nil =>
    cases h
    exact ⟨rfl, rfl⟩
  | cons line lines ih =>
    rw [List.map_cons, linesVariables] at h
    obtain ⟨first, hfirst, h⟩ := Option.bind_eq_some_iff.mp h
    obtain ⟨rest, hrest, rfl⟩ := Option.map_eq_some_iff.mp h
    obtain ⟨hlines, hany⟩ := ih hrest
    have hline : lineVariables (rewriteLine (fingerprintLine new) line).toList
          = some (first.map (setFingerprint new))
        ∧ Text.startsWith line fingerprintStart
          = first.any (fun v => v.1 = fingerprintName.toList) := by
      unfold rewriteLine
      rcases lineVariables_cases hfirst with ⟨rfl, hstarts⟩ | ⟨v, rfl, hstarts⟩
      · rw [hstarts, if_neg Bool.false_ne_true]
        exact ⟨hfirst, rfl⟩
      · by_cases hname : v.1 = fingerprintName.toList
        · rw [hstarts.mpr hname, if_pos rfl, lineVariables_fingerprintLine hplain]
          simp [setFingerprint, hname]
        · have hnot : Text.startsWith line fingerprintStart = false :=
            Bool.eq_false_iff.mpr fun h => hname (hstarts.mp h)
          rw [hnot, if_neg Bool.false_ne_true, hfirst]
          simp [setFingerprint, hname]
    rw [List.map_cons, List.map_cons, linesVariables, hline.1, hlines, List.any_cons, hline.2, hany,
      List.map_append, List.any_append]
    exact ⟨rfl, rfl⟩

/-- The lines that are written. -/
def writtenLines (text new : String) : List String :=
  let lines := Text.splitLines (String.ofList (universalNewlines text.toList))
  if lines.any (Text.startsWith · fingerprintStart) then
    lines.map (rewriteLine (fingerprintLine new))
  else lines.map (rewriteLine (fingerprintLine new)) ++ [fingerprintLine new]

theorem writeFingerprintEnv_eq (text new : String) :
    writeFingerprintEnv text new = Text.join "\n" (writtenLines text new) ++ "\n" := rfl

/-- Lines with newlines between them and one at the end. -/
theorem join_newline {lines : List String} (hne : lines ≠ []) :
    (Text.join "\n" lines ++ "\n").toList
      = List.intercalate ['\n'] (lines.map String.toList ++ [[]]) := by
  have htext : Text.join "\n" lines ++ "\n" = Text.join "\n" (lines ++ [""]) := by
    unfold Text.join
    rw [String.intercalate_append_of_ne_nil hne (List.cons_ne_nil _ _)]
    simp
  rw [htext, Text.join, String.toList_intercalate, List.map_append]
  rfl

theorem sourceEnv_join {lines : List String} (hne : lines ≠ [])
    (h : ∀ line ∈ lines, ∀ c ∈ line.toList, Text.isLineEnd c = false) :
    sourceEnv (Text.join "\n" lines ++ "\n") = linesVariables (lines.map String.toList) := by
  unfold sourceEnv
  rw [join_newline hne, List.splitOn_intercalate, linesVariables_empty]
  · intro line hline hnewline
    rcases List.mem_append.mp hline with hline | hline
    · obtain ⟨text, htext, rfl⟩ := List.mem_map.mp hline
      exact absurd (h text htext '\n' hnewline) (by decide)
    · rw [List.mem_singleton.mp hline] at hnewline
      exact List.not_mem_nil hnewline
  · simp

theorem newlinesOnly_join {lines : List String} (hne : lines ≠ [])
    (h : ∀ line ∈ lines, ∀ c ∈ line.toList, Text.isLineEnd c = false) :
    NewlinesOnly (Text.join "\n" lines ++ "\n") := by
  intro c hc hend
  rw [join_newline hne] at hc
  have hpieces : ∀ pieces : List (List Char), (∀ piece ∈ pieces, ∀ d ∈ piece, Text.isLineEnd d = false) →
      ∀ d ∈ List.intercalate ['\n'] pieces, Text.isLineEnd d = true → d = '\n' := by
    intro pieces
    induction pieces with
    | nil => exact fun _ d hd => absurd hd List.not_mem_nil
    | cons piece pieces ih =>
      intro hpieces d hd hend
      obtain ⟨hpiece, hrest⟩ := List.forall_mem_cons.mp hpieces
      cases pieces with
      | nil =>
        rw [List.intercalate_singleton] at hd
        rw [hpiece d hd] at hend
        cases hend
      | cons next pieces =>
        rw [List.intercalate_cons_cons, List.append_assoc, List.mem_append, List.mem_append] at hd
        rcases hd with hd | hd | hd
        · rw [hpiece d hd] at hend
          cases hend
        · exact List.mem_singleton.mp hd
        · exact ih hrest d hd hend
  refine hpieces _ (fun piece hpiece d hd => ?_) c hc hend
  rcases List.mem_append.mp hpiece with hpiece | hpiece
  · obtain ⟨line, hline, rfl⟩ := List.mem_map.mp hpiece
    exact h line hline d hd
  · rw [List.mem_singleton.mp hpiece] at hd
    exact absurd hd List.not_mem_nil

/-- No line of `splitlines` holds the end of one. -/
theorem splitLinesFrom_ends (line cs : List Char) (hline : ∀ c ∈ line, Text.isLineEnd c = false) :
    ∀ piece ∈ Text.splitLinesFrom line cs, ∀ c ∈ piece, Text.isLineEnd c = false := by
  have hreverse : ∀ line : List Char, (∀ c ∈ line, Text.isLineEnd c = false) →
      ∀ c ∈ line.reverse, Text.isLineEnd c = false :=
    fun line hline c hc => hline c (List.mem_reverse.mp hc)
  fun_induction Text.splitLinesFrom line cs with
  | case1 => exact fun piece hpiece => absurd hpiece List.not_mem_nil
  | case2 line hne =>
    intro piece hpiece
    rw [List.mem_singleton.mp hpiece]
    exact hreverse line hline
  | case3 line cs ih =>
    exact List.forall_mem_cons.mpr ⟨hreverse line hline, ih nofun⟩
  | case4 line c cs hreturn hend ih =>
    exact List.forall_mem_cons.mpr ⟨hreverse line hline, ih nofun⟩
  | case5 line c cs hreturn hend ih =>
    exact ih (List.forall_mem_cons.mpr ⟨Bool.eq_false_iff.mpr hend, hline⟩)

theorem fingerprintLine_ends {new : String} (h : Plain new) :
    ∀ c ∈ (fingerprintLine new).toList, Text.isLineEnd c = false := by
  intro c hc
  rw [fingerprintLine_toList] at hc
  rcases List.mem_append.mp hc with hc | hc
  · exact (by decide : ∀ c ∈ fingerprintStart.toList, Text.isLineEnd c = false) c hc
  · rcases List.mem_cons.mp hc with rfl | hc
    · rfl
    · rcases List.mem_append.mp hc with hc | hc
      · exact (h.2 c hc).2
      · rw [List.mem_singleton.mp hc]
        rfl

theorem writtenLines_ends {text new : String} (h : Plain new) :
    ∀ line ∈ writtenLines text new, ∀ c ∈ line.toList, Text.isLineEnd c = false := by
  have hold : ∀ line ∈ Text.splitLines (String.ofList (universalNewlines text.toList)),
      ∀ c ∈ line.toList, Text.isLineEnd c = false := by
    intro line hline
    obtain ⟨piece, hpiece, rfl⟩ := List.mem_map.mp hline
    rw [String.toList_ofList]
    exact splitLinesFrom_ends [] _ nofun piece hpiece
  have hnew : ∀ line ∈ (Text.splitLines (String.ofList (universalNewlines text.toList))).map
      (rewriteLine (fingerprintLine new)), ∀ c ∈ line.toList, Text.isLineEnd c = false := by
    intro line hline
    obtain ⟨old, hmem, rfl⟩ := List.mem_map.mp hline
    unfold rewriteLine
    split_ifs
    · exact fingerprintLine_ends h
    · exact hold old hmem
  unfold writtenLines
  dsimp only
  split_ifs
  · exact hnew
  · intro line hline
    rcases List.mem_append.mp hline with hline | hline
    · exact hnew line hline
    · rw [List.mem_singleton.mp hline]
      exact fingerprintLine_ends h

theorem writtenLines_ne_nil (text new : String) : writtenLines text new ≠ [] := by
  unfold writtenLines
  dsimp only
  split_ifs with hupdated
  · intro hnil
    rw [List.map_eq_nil_iff.mp hnil] at hupdated
    cases hupdated
  · exact List.append_ne_nil_of_right_ne_nil _ (List.cons_ne_nil _ _)

/-- **The file that is written** sets the same variables, and the new
fingerprint. -/
theorem sourceEnv_write {text new : String} (hplain : Plain new) (hlines : NewlinesOnly text)
    {vs : List Variable} (h : sourceEnv text = some vs) :
    sourceEnv (writeFingerprintEnv text new) = some (withFingerprintVariable new vs) := by
  have hreturn : '\r' ∉ text.toList := fun hr => absurd (hlines '\r' hr rfl) (by decide)
  have hread : Text.splitLines (String.ofList (universalNewlines text.toList))
      = (envLines text).map String.ofList := by
    rw [universalNewlines_eq hreturn, String.ofList_toList]
    rfl
  have hold : linesVariables
      (((envLines text).map String.ofList).map String.toList) = some vs := by
    rw [List.map_map]
    have hid : String.toList ∘ String.ofList = id := funext fun cs => String.toList_ofList
    rw [hid, List.map_id, ← sourceEnv_eq_lines hlines, h]
  obtain ⟨hrewritten, hany⟩ := linesVariables_rewrite hplain _ hold
  rw [writeFingerprintEnv_eq, sourceEnv_join (writtenLines_ne_nil text new) (writtenLines_ends hplain)]
  unfold writtenLines withFingerprintVariable
  dsimp only
  rw [hread, hany]
  split_ifs with hset
  · exact hrewritten
  · rw [List.map_append, linesVariables_append, hrewritten]
    have hnot : vs.map (setFingerprint new) = vs := by
      refine (List.map_congr_left fun v hv => ?_).trans (List.map_id vs)
      have hother : v.1 ≠ fingerprintName.toList := fun heq =>
        hset (List.any_eq_true.mpr ⟨v, hv, decide_eq_true heq⟩)
      unfold setFingerprint
      rw [if_neg hother]
      rfl
    have hlast : linesVariables ([fingerprintLine new].map String.toList)
        = some [(fingerprintName.toList, new.toList)] := by
      show (lineVariables (fingerprintLine new).toList).bind _ = _
      rw [lineVariables_fingerprintLine hplain]
      rfl
    rw [hlast, hnot]
    rfl

theorem newlinesOnly_write {text new : String} (hplain : Plain new) :
    NewlinesOnly (writeFingerprintEnv text new) := by
  rw [writeFingerprintEnv_eq]
  exact newlinesOnly_join (writtenLines_ne_nil text new) (writtenLines_ends hplain)

/-! ## §6. The values. -/

theorem lookup_setFingerprint (new : String) {name : List Char} (hname : name ≠ fingerprintName.toList)
    (vs : List Variable) : (vs.map (setFingerprint new)).lookup name = vs.lookup name := by
  induction vs with
  | nil => rfl
  | cons v vs ih =>
    obtain ⟨key, value⟩ := v
    unfold setFingerprint at ih ⊢
    by_cases hkey : key = fingerprintName.toList
    · have hne : (name == key) = false := beq_eq_false_iff_ne.mpr fun h => hname (h.trans hkey)
      simp only [List.map_cons, hkey, if_true, List.lookup_cons] at ih ⊢
      rw [← hkey, hne]
      rw [← hkey] at ih
      exact ih
    · simp only [List.map_cons, hkey, if_false, List.lookup_cons] at ih ⊢
      rw [ih]

theorem lookup_fingerprint (new : String) {vs : List Variable}
    (h : vs.any (fun v => v.1 = fingerprintName.toList) = true) :
    (vs.map (setFingerprint new)).lookup fingerprintName.toList = some new.toList := by
  induction vs with
  | nil => cases h
  | cons v vs ih =>
    obtain ⟨key, value⟩ := v
    rw [List.map_cons]
    unfold setFingerprint
    by_cases hkey : key = fingerprintName.toList
    · rw [if_pos hkey, List.lookup_cons, hkey, beq_self_eq_true]
    · rw [if_neg hkey, List.lookup_cons, beq_eq_false_iff_ne.mpr (Ne.symm hkey)]
      refine ih ?_
      simpa [hkey] using h

/-- The new fingerprint is read back, and the other variables as they were. -/
theorem valueOf_withFingerprintVariable (new : String) (vs : List Variable) :
    valueOf fingerprintName (withFingerprintVariable new vs) = some new
      ∧ ∀ name, name ≠ fingerprintName →
        valueOf name (withFingerprintVariable new vs) = valueOf name vs := by
  have hname : ∀ name : String, name ≠ fingerprintName → name.toList ≠ fingerprintName.toList :=
    fun name hne heq => hne (String.toList_inj.mp heq)
  unfold withFingerprintVariable valueOf
  split_ifs with hset
  · rw [← List.map_reverse]
    constructor
    · rw [lookup_fingerprint new (by rw [List.any_reverse]; exact hset), Option.map_some,
        String.ofList_toList]
    · intro name hne
      rw [lookup_setFingerprint new (hname name hne)]
  · rw [List.reverse_append, List.reverse_singleton, List.singleton_append]
    constructor
    · rw [List.lookup_cons, beq_self_eq_true]
      show some (String.ofList new.toList) = some new
      rw [String.ofList_toList]
    · intro name hne
      rw [List.lookup_cons, beq_eq_false_iff_ne.mpr (hname name hne)]

/-- **The rewritten file is read back**: when the file sets variables, a line
each, and the fingerprint stands for itself between double quotes, the shell
reads the new fingerprint and every other variable as it was, however often and
wherever the old fingerprint was set; and the file can be rewritten again. -/
theorem env_file_rewritten {text new : String} (hplain : Plain new) (hlines : NewlinesOnly text)
    {vs : List Variable} (h : sourceEnv text = some vs) :
    NewlinesOnly (writeFingerprintEnv text new)
      ∧ ∃ vs', sourceEnv (writeFingerprintEnv text new) = some vs'
        ∧ valueOf fingerprintName vs' = some new
        ∧ ∀ name, name ≠ fingerprintName → valueOf name vs' = valueOf name vs :=
  ⟨newlinesOnly_write hplain, _, sourceEnv_write hplain hlines h,
    valueOf_withFingerprintVariable new vs⟩

/-- A file that sets the fingerprint twice. -/
def joinedEnv : String :=
  "# node\nHERMES_NODE_ID=node_1\nHERMES_NODE_FINGERPRINT=sha256:aa\n\nHERMES_NODE_FINGERPRINT='b'"

theorem joined_env_rewritten :
    NewlinesOnly (writeFingerprintEnv joinedEnv "sha256:cc")
      ∧ ∃ vs', sourceEnv (writeFingerprintEnv joinedEnv "sha256:cc") = some vs'
        ∧ valueOf fingerprintName vs' = some "sha256:cc"
        ∧ ∀ name, name ≠ fingerprintName → valueOf name vs' = valueOf name
          [("HERMES_NODE_ID".toList, "node_1".toList),
            (fingerprintName.toList, "sha256:aa".toList), (fingerprintName.toList, ['b'])] :=
  env_file_rewritten (by decide +kernel) (by decide +kernel) (by decide +kernel)

end Hmn.Worker
