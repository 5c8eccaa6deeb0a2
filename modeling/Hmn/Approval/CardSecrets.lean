/-
  Hmn.Approval.CardSecrets — does a card keep the secrets of a command?

  `_redact_command` cuts a word `KEY=VALUE` after the key when the word, in
  upper case, contains `TOKEN=`, `SECRET=`, `PASSWORD=` or `API_KEY=`: the
  marker has to stand right before an equals sign.  A key that only contains
  one of the words, such as `SECRET_KEY`, is shown with its value.  And the
  console writes the command as it is into the name and the description of
  the task, which no redaction sees.

  Main results: `toList_redactCommand`, `cards_agree_iff`, `secret_key_shown`.
-/
import Hmn.Framework.Compare
import Hmn.Tasks.Submit

namespace Hmn

open Framework Framework.Text

/-! ## §1. Two commands that differ in a secret. -/

/-- The words that make a key secret. -/
def secretWords : List String := ["TOKEN", "SECRET", "PASSWORD", "API_KEY"]

/-- A command with a word `KEY=VALUE`. -/
def commandWith (pre key value post : String) : String := pre ++ (key ++ "=" ++ value) ++ post

/-- A value without blanks and quotes. -/
structure PlainValue (value : String) : Prop where
  isWord : IsWord value.toList
  unquoted : '"' ∉ value.toList ∧ '\'' ∉ value.toList

/-- Two commands that differ in the value of a secret. -/
structure SecretCommands (pre key value₁ value₂ post : String) : Prop where
  starts : ∀ c ∈ pre.toList.getLast?, isSpace c = true
  ends : WordEnds post.toList
  keyChars : ∀ c ∈ key.toList, isSpace c = false ∧ c ≠ '='
  secret : ∃ word ∈ secretWords, Text.contains key word = true
  first : PlainValue value₁
  second : PlainValue value₂

/-- The word carries a marker, so its value is cut off. -/
def MarksSecret (word : String) : Prop :=
  secretMarkers.any (Text.contains (Text.upper word)) = true

instance (word : String) : Decidable (MarksSecret word) := by
  unfold MarksSecret
  infer_instance

/-- A word `KEY=VALUE`. -/
def assignment (key value : String) : String := key ++ "=" ++ value

variable {pre key value value₁ value₂ post : String}

theorem takeWhile_key (hkey : ∀ c ∈ key.toList, isSpace c = false ∧ c ≠ '=') (value : String) :
    Text.before (assignment key value) '=' = key := by
  have htake : (key.toList ++ '=' :: value.toList).takeWhile (· ≠ '=') = key.toList := by
    rw [List.takeWhile_append_of_pos (by simpa using fun c hc => (hkey c hc).2)]
    simp
  rw [Text.before, assignment, String.toList_append, String.toList_append]
  simpa using congrArg String.ofList htake

/-- What is shown of the word. -/
theorem redactWord_assignment (hkey : ∀ c ∈ key.toList, isSpace c = false ∧ c ≠ '=')
    (value : String) : (redactWord (assignment key value)).toList
      = if MarksSecret (assignment key value) then key.toList ++ ['…']
        else key.toList ++ '=' :: value.toList := by
  have hword : redactWord (assignment key value) = if MarksSecret (assignment key value) then
      Text.before (assignment key value) '=' ++ "…" else assignment key value := rfl
  rw [hword, takeWhile_key hkey]
  split_ifs
  · simp
  · simp [assignment]

theorem isWord_assignment (hkey : ∀ c ∈ key.toList, isSpace c = false ∧ c ≠ '=')
    (hvalue : PlainValue value) : IsWord (assignment key value).toList := by
  refine ⟨by simp [assignment], fun c hc => ?_⟩
  simp only [assignment, String.toList_append, List.mem_append] at hc
  rcases hc with (hc | hc) | hc
  · exact (hkey c hc).1
  · obtain rfl : c = '=' := by simpa using hc
    rfl
  · exact hvalue.isWord.2 c hc

/-! ## §2. The command that is shown. -/

/-- What is shown before the word. -/
def shownBefore (pre : String) : List Char :=
  (Text.split pre).flatMap fun word => (redactWord word).toList ++ [' ']

/-- What is shown after the word. -/
def shownAfter (post : String) : List Char :=
  (Text.split post).flatMap fun word => ' ' :: (redactWord word).toList

/-- What is shown of the command before it is cut. -/
def shown (pre key value post : String) : List Char :=
  shownBefore pre ++ ((redactWord (assignment key value)).toList ++ shownAfter post)

/-- A text is split around a word of it. -/
theorem splitChars_around {cs w rest : List Char} (hstart : ∀ c ∈ cs.getLast?, isSpace c = true)
    (hw : IsWord w) (hend : WordEnds rest) :
    splitChars (cs ++ (w ++ rest)) = splitChars cs ++ w :: splitChars rest := by
  have hword : splitChars (w ++ rest) = w :: splitChars rest := by
    obtain ⟨c, w, rfl⟩ := List.exists_cons_of_ne_nil hw.1
    have hall : ∀ x ∈ w, (!isSpace x) = true := fun x hx => by
      rw [hw.2 x (List.mem_cons_of_mem _ hx)]
      rfl
    have hnone : rest.takeWhile (fun c => !isSpace c) = [] ∧
        rest.dropWhile (fun c => !isSpace c) = rest := by
      cases rest with
      | nil => exact ⟨rfl, rfl⟩
      | cons x rest =>
        have hx := hend x rfl
        simp [hx]
    rw [List.cons_append, splitChars_word (hw.2 c List.mem_cons_self),
      List.takeWhile_append_of_pos hall, List.dropWhile_append_of_pos hall, hnone.1, hnone.2,
      List.append_nil]
  cases hlast : cs.getLast? with
  | none =>
    obtain rfl := List.getLast?_eq_none_iff.mp hlast
    rw [List.nil_append, hword]
    rfl
  | some c =>
    have hc := hstart c (by rw [hlast]; rfl)
    obtain ⟨init, rfl⟩ : ∃ init, cs = init ++ [c] :=
      ⟨cs.dropLast, (List.dropLast_append_getLast? c hlast).symm⟩
    have hinit : splitChars (init ++ [c]) = splitChars init := by
      rw [splitChars_append_space hc, splitChars_nil, List.append_nil]
    rw [hinit, List.append_assoc, List.singleton_append, splitChars_append_space hc, hword]

/-- Texts joined by a blank. -/
theorem intercalate_cons_flatMap (w : List Char) (bs : List (List Char)) :
    [' '].intercalate (w :: bs) = w ++ bs.flatMap (' ' :: ·) := by
  induction bs generalizing w with
  | nil => simp
  | cons b bs ih => rw [List.intercalate_cons_cons, ih, List.flatMap_cons]; simp

/-- Texts joined by a blank, around one of them. -/
theorem intercalate_around (as bs : List (List Char)) (w : List Char) :
    [' '].intercalate (as ++ w :: bs)
      = as.flatMap (· ++ [' ']) ++ (w ++ bs.flatMap (' ' :: ·)) := by
  induction as with
  | nil => exact intercalate_cons_flatMap w bs
  | cons a as ih =>
    rw [List.cons_append, List.intercalate_cons_of_ne_nil (by simp), ih, List.flatMap_cons]
    simp

theorem toList_ellipsis (n : Nat) (s : String) : (ellipsis n s).toList = cut n '…' s.toList := by
  unfold ellipsis cut
  split_ifs
  · simp [Text.take]
  · rfl

/-- **What is shown of the command**: what is shown around the word does not
depend on its value. -/
theorem toList_redactCommand (h : SecretCommands pre key value₁ value₂ post)
    (hvalue : PlainValue value) :
    (redactCommand (commandWith pre key value post)).toList
      = cut 79 '…' (shown pre key value post) := by
  have hsplit : splitChars (commandWith pre key value post).toList
      = splitChars pre.toList ++ (assignment key value).toList :: splitChars post.toList := by
    rw [commandWith, String.toList_append, String.toList_append, List.append_assoc]
    exact splitChars_around h.starts (isWord_assignment h.keyChars hvalue) h.ends
  rw [redactCommand, toList_ellipsis]
  congr 1
  rw [Text.join, String.toList_intercalate, Text.split, hsplit]
  simp only [List.map_append, List.map_cons, String.ofList_toList]
  exact (intercalate_around _ _ _).trans (by simp [shown, shownBefore, shownAfter, Text.split,
    List.flatMap_map])

/-! ## §3. Where two shown commands differ. -/

/-- How long the shown words agree: up to the equals sign when one of the
values is cut off, else also as long as the values do. -/
def wordsAgree (key value₁ value₂ : String) : Nat :=
  if MarksSecret (assignment key value₁) ∨ MarksSecret (assignment key value₂) then key.toList.length
  else key.toList.length + 1 + agree value₁.toList value₂.toList

/-- The cards of the CLI keep the values: the values are equal, both are cut
off, or the shown words differ behind the cut of both commands. -/
def CliHides (pre key value₁ value₂ post : String) : Prop :=
  value₁ = value₂
  ∨ (MarksSecret (assignment key value₁) ∧ MarksSecret (assignment key value₂))
  ∨ (79 ≤ (shownBefore pre).length + wordsAgree key value₁ value₂
      ∧ IsCut 79 '…' (shown pre key value₁ post) ∧ IsCut 79 '…' (shown pre key value₂ post))

instance (pre key value₁ value₂ post : String) :
    Decidable (CliHides pre key value₁ value₂ post) := by
  unfold CliHides
  infer_instance

/-- The shown text goes on with a blank or ends. -/
theorem wordEnds_shownAfter (post : String) : WordEnds (shownAfter post) := by
  unfold shownAfter
  cases Text.split post with
  | nil => exact nofun
  | cons w ws =>
    intro c hc
    obtain rfl : c = ' ' := by simpa [eq_comm] using hc
    rfl

/-- The shown words are equal when both values are cut off or the values are
equal, and else agree as long as `wordsAgree` says. -/
theorem shownWord_cases (h : SecretCommands pre key value₁ value₂ post) :
    ((value₁ = value₂ ∨ (MarksSecret (assignment key value₁) ∧ MarksSecret (assignment key value₂)))
        ∧ redactWord (assignment key value₁) = redactWord (assignment key value₂))
    ∨ (¬ (value₁ = value₂ ∨ (MarksSecret (assignment key value₁) ∧ MarksSecret (assignment key value₂)))
        ∧ (redactWord (assignment key value₁)).toList ≠ (redactWord (assignment key value₂)).toList
        ∧ agree (redactWord (assignment key value₁)).toList
            (redactWord (assignment key value₂)).toList = wordsAgree key value₁ value₂) := by
  have hword₁ := redactWord_assignment h.keyChars value₁
  have hword₂ := redactWord_assignment h.keyChars value₂
  by_cases heq : value₁ = value₂
  · exact Or.inl ⟨Or.inl heq, by rw [heq]⟩
  · have hchars : value₁.toList ≠ value₂.toList := fun hl => heq (String.toList_inj.mp hl)
    by_cases hm₁ : MarksSecret (assignment key value₁)
    · by_cases hm₂ : MarksSecret (assignment key value₂)
      · rw [if_pos hm₁] at hword₁
        rw [if_pos hm₂] at hword₂
        exact Or.inl ⟨Or.inr ⟨hm₁, hm₂⟩, String.toList_inj.mp (hword₁.trans hword₂.symm)⟩
      · rw [if_pos hm₁] at hword₁
        rw [if_neg hm₂] at hword₂
        refine Or.inr ⟨by simp [heq, hm₂], ?_, ?_⟩
        · rw [hword₁, hword₂, Ne, List.append_right_inj]
          simp
        · rw [hword₁, hword₂, agree_append_left, wordsAgree, if_pos (Or.inl hm₁), agree_cons,
            if_neg (by decide), Nat.add_zero]
    · rw [if_neg hm₁] at hword₁
      by_cases hm₂ : MarksSecret (assignment key value₂)
      · rw [if_pos hm₂] at hword₂
        refine Or.inr ⟨by simp [heq, hm₁], ?_, ?_⟩
        · rw [hword₁, hword₂, Ne, List.append_right_inj]
          simp
        · rw [hword₁, hword₂, agree_append_left, wordsAgree, if_pos (Or.inr hm₂), agree_cons,
            if_neg (by decide), Nat.add_zero]
      · rw [if_neg hm₂] at hword₂
        refine Or.inr ⟨by simp [heq, hm₁], ?_, ?_⟩
        · rw [hword₁, hword₂, Ne, List.append_right_inj]
          simpa using hchars
        · rw [hword₁, hword₂, agree_append_left, wordsAgree, if_neg (by simp [hm₁, hm₂]),
            agree_cons, if_pos rfl]
          omega

/-- A shown word has no blank. -/
theorem shownWord_nospace (hkey : ∀ c ∈ key.toList, isSpace c = false ∧ c ≠ '=')
    (hvalue : PlainValue value) :
    ∀ c ∈ (redactWord (assignment key value)).toList, isSpace c = false := by
  rw [redactWord_assignment hkey]
  intro c hc
  split_ifs at hc
  · rcases List.mem_append.mp hc with hc | hc
    · exact (hkey c hc).1
    · obtain rfl : c = '…' := by simpa using hc
      rfl
  · rcases List.mem_append.mp hc with hc | hc
    · exact (hkey c hc).1
    · rcases List.mem_cons.mp hc with rfl | hc
      · rfl
      · exact hvalue.isWord.2 c hc

/-- **The shown commands are equal exactly when the values are kept.** -/
theorem redactCommand_eq_iff (h : SecretCommands pre key value₁ value₂ post) :
    redactCommand (commandWith pre key value₁ post)
        = redactCommand (commandWith pre key value₂ post)
      ↔ CliHides pre key value₁ value₂ post := by
  rw [← String.toList_inj, toList_redactCommand h h.first, toList_redactCommand h h.second,
    cut_eq_cut_iff, take_eq_take_iff, CliHides, ← or_assoc]
  rcases shownWord_cases h with ⟨hkept, hword⟩ | ⟨hkept, hword, hagree⟩
  · have hshown : shown pre key value₁ post = shown pre key value₂ post := by
      rw [shown, shown, hword]
    exact iff_of_true (Or.inl hshown) (Or.inl hkept)
  · have hne : shown pre key value₁ post ≠ shown pre key value₂ post := by
      intro heq
      rw [shown, shown, List.append_right_inj, List.append_left_inj] at heq
      exact hword heq
    have hlen : agree (shown pre key value₁ post) (shown pre key value₂ post)
        = (shownBefore pre).length + wordsAgree key value₁ value₂ := by
      rw [shown, shown, agree_append_left, agree_append_right hword
        (shownWord_nospace h.keyChars h.first) (shownWord_nospace h.keyChars h.second)
        (wordEnds_shownAfter post), hagree]
    rw [hlen]
    constructor
    · rintro (heq | ⟨h₁, h₂, heq | hle⟩)
      · exact absurd heq hne
      · exact absurd heq hne
      · exact Or.inr ⟨hle, h₁, h₂⟩
    · rintro (hk | ⟨hle, h₁, h₂⟩)
      · exact absurd hk hkept
      · exact Or.inr ⟨h₁, h₂, Or.inr hle⟩

/-! ## §4. The cards of the CLI. -/

/-- A request of `hmn task run`; the rest is that of `a`. -/
def cliApproval (a : ApprovalRequest) (nodeId executor command : String) : ApprovalRequest :=
  { a with
    subjectType := "task"
    subjectId := "pending-task"
    action := "task.run"
    requestedBy := "hmn"
    details := cliTaskDetails nodeId command a.risk executor }

/-- A request of the console; the rest is that of `a`. -/
def consoleApproval (a : ApprovalRequest) (request : ConsoleTaskCreateRequest) : ApprovalRequest :=
  { a with
    subjectType := "task"
    subjectId := "console_task_request"
    action := "task.run"
    requestedBy := request.createdBy
    details := consoleTaskDetails request }

theorem redactCommand_ne_empty (h : SecretCommands pre key value₁ value₂ post)
    (hvalue : PlainValue value) : redactCommand (commandWith pre key value post) ≠ "" := by
  intro hempty
  have hnil := toList_redactCommand h hvalue
  have hword : (redactWord (assignment key value)).toList ≠ [] := by
    rw [redactWord_assignment h.keyChars]
    split_ifs <;> simp
  rw [hempty, cut] at hnil
  split_ifs at hnil with hlen
  · simp at hnil
  · simp [shown, hword] at hnil

theorem cardLine_inj {label s t : String} : cardLine label s = cardLine label t ↔ s = t := by
  simp [cardLine, String.append_right_inj, String.append_left_inj]

/-- The lines every card starts with. -/
def cardHead (a : ApprovalRequest) : List String :=
  ["⚠️ 高风险审批", cardLine "审批" a.approvalId, cardLine "风险" a.risk, cardLine "动作" "task.run"]

/-- A card of the CLI ends with the shown command. -/
theorem cliCard_text (a : ApprovalRequest) (nodeId executor : String) {command : String}
    (hne : redactCommand command ≠ "") :
    (buildApprovalCard (cliApproval a nodeId executor command)).text
      = Text.join "\n" (cardHead a ++ [cardLine "节点" nodeId]) ++ "\n"
        ++ cardLine "命令" (redactCommand command) := by
  have hname : Text.strip "" = "" := by decide
  have hlines : (buildApprovalCard (cliApproval a nodeId executor command)).text
      = Text.join "\n" ((cardHead a ++ [cardLine "节点" nodeId])
        ++ [cardLine "命令" (redactCommand command)]) := by
    simp [buildApprovalCard, cliApproval, cliTaskDetails, Dict.strOr, Dict.get?_cons,
      ApprovalRequest.isAclApply, commandLines, cardHead, hname, hne]
  rw [hlines, Text.join, String.intercalate_append_of_ne_nil (by simp [cardHead]) (by simp),
    String.intercalate_singleton]
  rfl

/-- **Two cards of the CLI are equal exactly when the values are kept.** -/
theorem cliCard_eq_iff (h : SecretCommands pre key value₁ value₂ post) (a : ApprovalRequest)
    (nodeId executor : String) :
    (buildApprovalCard (cliApproval a nodeId executor (commandWith pre key value₁ post))).text
        = (buildApprovalCard (cliApproval a nodeId executor (commandWith pre key value₂ post))).text
      ↔ CliHides pre key value₁ value₂ post := by
  rw [cliCard_text a nodeId executor (redactCommand_ne_empty h h.first),
    cliCard_text a nodeId executor (redactCommand_ne_empty h h.second), String.append_right_inj,
    cardLine_inj, redactCommand_eq_iff h]

/-! ## §5. The cards of the console. -/

/-- Stripping a text that does not start with a blank takes blanks off what
follows the last word. -/
theorem stripChars_around (cs : List Char) (hstart : ∃ c ∈ cs.head?, isSpace c = false)
    (rest : List Char) : ∃ rest', ∀ w, IsWord w →
      stripChars (cs ++ (w ++ rest)) = cs ++ (w ++ rest') := by
  refine ⟨(rest.reverse.dropWhile isSpace).reverse, fun w hw => ?_⟩
  obtain ⟨c, hc, hspace⟩ := hstart
  obtain ⟨cs, rfl⟩ : ∃ cs', cs = c :: cs' := by
    cases cs with
    | nil => cases hc
    | cons d cs => exact ⟨cs, by rw [Option.mem_some.mp hc]⟩
  have hkeep : w.reverse.dropWhile isSpace = w.reverse := by
    cases hrev : w.reverse with
    | nil => rfl
    | cons d ds =>
      have hd := hw.2 d (List.mem_reverse.mp (hrev ▸ List.mem_cons_self))
      rw [List.dropWhile_cons_of_neg (by simp [hd])]
  have hne : (w.reverse.dropWhile isSpace).isEmpty = false := by
    rw [hkeep]
    simpa using hw.1
  rw [stripChars, List.cons_append, List.dropWhile_cons_of_neg (by simp [hspace]),
    ← List.cons_append, List.reverse_append, List.reverse_append, List.append_assoc,
    List.dropWhile_append]
  split_ifs with hblank
  · rw [List.dropWhile_append, if_neg (by simp [hne]), hkeep, List.isEmpty_iff.mp hblank]
    simp
  · simp

/-- **A text that shows a word tells it apart**, when the same text up to a
blank follows it. -/
theorem word_of_shown (cs rest : List Char) {xs ys v w : List Char} (hv : IsWord v) (hw : IsWord w)
    (h : cs ++ (v ++ (rest ++ '\n' :: xs)) = cs ++ (w ++ (rest ++ '\n' :: ys))) : v = w := by
  have hword : ∀ {u : List Char}, IsWord u → ∀ zs,
      (u ++ (rest ++ '\n' :: zs)).takeWhile (fun c => !isSpace c)
        = u ++ rest.takeWhile (fun c => !isSpace c) := by
    intro u hu zs
    rw [List.takeWhile_append_of_pos (fun c hc => by simp [hu.2 c hc]), List.takeWhile_append]
    split_ifs with hall
    · have hblank : (!isSpace '\n') = false := by decide
      rw [List.takeWhile_cons_of_neg (by simp [hblank]), List.append_nil,
        (List.takeWhile_prefix _).eq_of_length hall]
    · rfl
  have hshown := congrArg (List.takeWhile fun c => !isSpace c) (List.append_cancel_left h)
  rw [hword hv, hword hw] at hshown
  exact List.append_cancel_right hshown

/-- The name of the task of a console request. -/
def consoleTaskName (command : String) : String := Text.strip ("Console task: " ++ command)

/-- The lines after the name of the task. -/
def consoleTail (a : ApprovalRequest) (request : ConsoleTaskCreateRequest) : List String :=
  let description := Text.strip
    ("Run command " ++ request.command ++ " on node " ++ request.nodeId)
  (if description ≠ "" then [cardLine "说明" description] else [])
    ++ commandLines (consoleApproval a request)

/-- A card of the console shows the name of the task after the head. -/
theorem consoleCard_text (a : ApprovalRequest) (request : ConsoleTaskCreateRequest)
    (hne : consoleTaskName request.command ≠ "") :
    (buildApprovalCard (consoleApproval a request)).text
      = Text.join "\n" (cardHead a) ++ "\n" ++ (cardLine "任务" (consoleTaskName request.command)
        ++ "\n" ++ Text.join "\n" (consoleTail a request)) := by
  have htext : (buildApprovalCard (consoleApproval a request)).text
      = Text.join "\n" (cardHead a
        ++ ([cardLine "任务" (consoleTaskName request.command)] ++ consoleTail a request)) := by
    rw [consoleTaskName] at hne
    simp [buildApprovalCard, consoleApproval, consoleTaskDetails, Dict.strOr, Dict.get?_cons,
      ApprovalRequest.isAclApply, cardHead, consoleTaskName, consoleTail, hne]
  have hlines : consoleTail a request ≠ [] := by simp [consoleTail, commandLines]
  rw [htext, Text.join, String.intercalate_append_of_ne_nil (by simp [cardHead]) (by simp),
    String.intercalate_append_of_ne_nil (by simp) hlines, String.intercalate_singleton]
  rfl

/-- **Two cards of the console are equal only when the values are.** -/
theorem consoleCard_eq_iff (h : SecretCommands pre key value₁ value₂ post) (a : ApprovalRequest)
    (request : ConsoleTaskCreateRequest) :
    (buildApprovalCard (consoleApproval a
          { request with command := commandWith pre key value₁ post })).text
        = (buildApprovalCard (consoleApproval a
          { request with command := commandWith pre key value₂ post })).text
      ↔ value₁ = value₂ := by
  refine ⟨fun hcards => ?_, fun hvalues => by rw [hvalues]⟩
  obtain ⟨rest, hrest⟩ := stripChars_around ("Console task: ".toList ++ pre.toList
    ++ key.toList ++ ['=']) ⟨'C', by simp, rfl⟩ post.toList
  have hname : ∀ value, PlainValue value → (consoleTaskName (commandWith pre key value post)).toList
      = "Console task: ".toList ++ pre.toList ++ key.toList ++ ['='] ++ (value.toList ++ rest) := by
    intro value hvalue
    rw [← hrest value.toList hvalue.isWord]
    simp [consoleTaskName, Text.strip, commandWith]
  have hne : ∀ value, PlainValue value → consoleTaskName (commandWith pre key value post) ≠ "" := by
    intro value hvalue hempty
    have := hname value hvalue
    rw [hempty] at this
    simp at this
  rw [consoleCard_text a { request with command := commandWith pre key value₁ post }
      (hne value₁ h.first),
    consoleCard_text a { request with command := commandWith pre key value₂ post }
      (hne value₂ h.second), String.append_right_inj, ← String.toList_inj] at hcards
  generalize Text.join "\n" (consoleTail a _) = more₁ at hcards
  generalize Text.join "\n" (consoleTail a _) = more₂ at hcards
  simp only [cardLine, String.toList_append, hname value₁ h.first, hname value₂ h.second] at hcards
  have hshown : ("任务: `Console task: ".toList ++ pre.toList ++ key.toList ++ ['='])
        ++ (value₁.toList ++ ((rest ++ ['`']) ++ '\n' :: more₁.toList))
      = ("任务: `Console task: ".toList ++ pre.toList ++ key.toList ++ ['='])
        ++ (value₂.toList ++ ((rest ++ ['`']) ++ '\n' :: more₂.toList)) := by
    simpa using hcards
  exact String.toList_inj.mp (word_of_shown _ _ h.first.isWord h.second.isWord hshown)

/-! ## §6. Both producers. -/

/-- **Which cards keep the value of a secret**: those of the CLI when
`CliHides` holds, those of the console only when there is nothing to tell
apart. -/
theorem cards_agree_iff (pre key value₁ value₂ post : String)
    (h : SecretCommands pre key value₁ value₂ post) (a : ApprovalRequest)
    (nodeId executor : String) (request : ConsoleTaskCreateRequest) :
    ((buildApprovalCard (cliApproval a nodeId executor (commandWith pre key value₁ post))).text
        = (buildApprovalCard (cliApproval a nodeId executor (commandWith pre key value₂ post))).text
      ↔ CliHides pre key value₁ value₂ post)
    ∧ ((buildApprovalCard (consoleApproval a
          { request with command := commandWith pre key value₁ post })).text
        = (buildApprovalCard (consoleApproval a
          { request with command := commandWith pre key value₂ post })).text
      ↔ value₁ = value₂) :=
  ⟨cliCard_eq_iff h a nodeId executor, consoleCard_eq_iff h a request⟩

/-- A pending request; the producers fill in the rest. -/
def cardRequest : ApprovalRequest where
  approvalId := "appr_00000000000a"
  subjectType := "task"
  subjectId := ""
  action := "task.run"
  risk := "high"
  status := .pending
  requestedBy := "hmn"
  details := []
  createdAt := 0

/-- Two commands whose key ends in a marker. -/
theorem apiToken_commands : SecretCommands "deploy " "API_TOKEN" "abc" "xyz" "" where
  starts := by simp [isSpace]
  ends := by simp [WordEnds]
  keyChars := by simp [isSpace]
  secret := ⟨"TOKEN", by decide, by decide⟩
  first := ⟨by simp [IsWord, isSpace], by simp⟩
  second := ⟨by simp [IsWord, isSpace], by simp⟩

/-- The cards of the CLI keep its value, those of the console do not. -/
theorem apiToken_cards :
    (buildApprovalCard (cliApproval cardRequest "node_1" "worker" "deploy API_TOKEN=abc")).text
      = (buildApprovalCard (cliApproval cardRequest "node_1" "worker" "deploy API_TOKEN=xyz")).text
    ∧ (buildApprovalCard (consoleApproval cardRequest
          { nodeId := "node_1", command := "deploy API_TOKEN=abc" })).text
      ≠ (buildApprovalCard (consoleApproval cardRequest
          { nodeId := "node_1", command := "deploy API_TOKEN=xyz" })).text := by
  obtain ⟨hcli, hconsole⟩ := cards_agree_iff "deploy " "API_TOKEN" "abc" "xyz" ""
    apiToken_commands cardRequest "node_1" "worker" { nodeId := "node_1", command := "" }
  exact ⟨hcli.mpr (by decide +kernel), fun h => absurd (hconsole.mp h) (by decide)⟩

/-- Two commands whose key only contains one of the words. -/
theorem secretKey_commands : SecretCommands "" "SECRET_KEY" "abc" "xyz" "" where
  starts := by simp
  ends := by simp [WordEnds]
  keyChars := by simp [isSpace]
  secret := ⟨"SECRET", by decide, by decide⟩
  first := ⟨by simp [IsWord, isSpace], by simp⟩
  second := ⟨by simp [IsWord, isSpace], by simp⟩

/-- **A secret that is shown.**  Two commands of the CLI that differ in the
value of `SECRET_KEY` have different cards. -/
theorem secret_key_shown :
    SecretCommands "" "SECRET_KEY" "abc" "xyz" ""
    ∧ (buildApprovalCard (cliApproval cardRequest "node_1" "worker" "SECRET_KEY=abc")).text
      ≠ (buildApprovalCard (cliApproval cardRequest "node_1" "worker" "SECRET_KEY=xyz")).text :=
  ⟨secretKey_commands, by decide +kernel⟩

end Hmn
